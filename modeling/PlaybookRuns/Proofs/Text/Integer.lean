import PlaybookRuns.Proofs.Checked
import PlaybookRuns.Text.Blank
import PlaybookRuns.Text.Integer

/-!
# Reading written integers

The decimal digits of a number read as that number wherever it is within the upper bound, and no
white space stands among them. Main statements: `readInteger` undoes `toString` on natural numbers,
and reads just the texts that write an integer within its bounds.
-/

namespace PlaybookRuns.Text

/-- A digit lies between `0` and `9`. -/
theorem bounds_of_isDigit {c : Char} (h : c.isDigit = true) : '0' ≤ c ∧ c ≤ '9' := by
  rw [Char.isDigit, Bool.and_eq_true, decide_eq_true_eq, decide_eq_true_eq] at h
  exact h

/-- The number of a digit, as a digit and as a difference of code points. -/
theorem digitValue?_of_isDigit {c : Char} (h : c.isDigit = true) :
    digitValue? c = some (c.toNat - '0'.toNat) := by
  rw [digitValue?, if_pos (bounds_of_isDigit h)]
  rfl

/-- The number of a digit is below ten. -/
theorem lt_of_digitValue? {c : Char} {d : Nat} (h : digitValue? c = some d) : d < 10 := by
  rw [digitValue?] at h
  split at h
  · next hbounds =>
    obtain rfl := Option.some.inj h
    have hlast : c.toNat ≤ '9'.toNat := hbounds.2
    change c.toNat ≤ 0x39 at hlast
    omega
  · cases h

/-- A natural number is written with digits, with one at least. -/
theorem exists_toDigits_cons (n : Nat) :
    ∃ c cs, Nat.toDigits 10 n = c :: cs ∧ ∀ d ∈ c :: cs, d.isDigit = true := by
  cases hcs : Nat.toDigits 10 n with
  | nil => exact absurd hcs Nat.toDigits_ne_nil
  | cons c cs =>
    refine ⟨c, cs, rfl, fun d hd ↦ ?_⟩
    rw [← hcs] at hd
    exact Nat.isDigit_of_mem_toDigits (by decide) (by decide) hd

private theorem le_ofDigitChars (cs : List Char) (soFar : Nat) :
    soFar ≤ Nat.ofDigitChars 10 cs soFar := by
  induction cs generalizing soFar with
  | nil => exact Nat.le_refl _
  | cons c cs ih =>
    rw [Nat.ofDigitChars_cons]
    have := ih (10 * soFar + (c.toNat - '0'.toNat))
    omega

/-- Digits read as the number they write, if that is within the bound. -/
theorem readDigits_of_isDigit {bound : Nat} (cs : List Char) (soFar : Nat)
    (hdigits : ∀ c ∈ cs, c.isDigit = true) (hle : Nat.ofDigitChars 10 cs soFar ≤ bound) :
    readDigits bound soFar cs = .ok (Nat.ofDigitChars 10 cs soFar) := by
  induction cs generalizing soFar with
  | nil => rfl
  | cons c cs ih =>
    rw [Nat.ofDigitChars_cons] at hle ⊢
    have hc := digitValue?_of_isDigit (hdigits c List.mem_cons_self)
    have hstep := le_ofDigitChars cs (10 * soFar + (c.toNat - '0'.toNat))
    simp only [readDigits, hc]
    rw [Nat.mul_comm soFar 10, if_pos (by omega)]
    exact ih _ (fun d hd ↦ hdigits d (List.mem_cons_of_mem _ hd)) hle

/-- The digits of a natural number read as that number, if it is within the bound. -/
theorem readInteger_toString {low high : Int} {n : Nat} (h : (n : Int) ≤ high) :
    readInteger low high (toString n) = .ok (n : Int) := by
  obtain ⟨c, cs, hcs, hdigits⟩ := exists_toDigits_cons n
  have hvalue : Nat.ofDigitChars 10 (c :: cs) 0 = n := hcs ▸ Nat.ofDigitChars_ten_toDigits
  have hbound : Nat.ofDigitChars 10 (c :: cs) 0 ≤ high.toNat := by omega
  have hread := readDigits_of_isDigit _ 0 hdigits hbound
  rw [hvalue] at hread
  have htext : (toString n).toList = c :: cs := Nat.toList_repr.trans hcs
  unfold readInteger
  rw [htext]
  -- The text starts with a digit, so it is neither empty nor signed.
  have hc := hdigits c List.mem_cons_self
  split
  · next heq => exact absurd heq (List.cons_ne_nil _ _)
  · next heq =>
    obtain ⟨rfl, -⟩ := List.cons_eq_cons.1 heq
    exact absurd hc (by decide)
  · next heq =>
    obtain ⟨rfl, -⟩ := List.cons_eq_cons.1 heq
    exact absurd hc (by decide)
  · rw [readMagnitude, hread]
    · rfl
    · exact List.cons_ne_nil _ _

/-! ## Texts that write an integer -/

/-- Whether characters are the decimal digits of a natural number, one at least. -/
def IsNumeral (cs : List Char) : Prop := cs ≠ [] ∧ ∀ c ∈ cs, c.isDigit = true

/-- That a text writes an integer: the digits of its magnitude after a sign, or after none. -/
def WritesInteger (cs : List Char) (n : Int) : Prop :=
  ∃ digits, IsNumeral digits ∧
    ((cs = digits ∨ cs = '+' :: digits) ∧ n = Nat.ofDigitChars 10 digits 0 ∨
      cs = '-' :: digits ∧ n = -(Nat.ofDigitChars 10 digits 0 : Int))

private theorem isDigit_of_digitValue? {c : Char} {d : Nat} (h : digitValue? c = some d) :
    c.isDigit = true := by
  rw [digitValue?] at h
  split at h
  · next hbounds =>
    rw [Char.isDigit, Bool.and_eq_true, decide_eq_true_eq, decide_eq_true_eq]
    exact hbounds
  · cases h

private theorem of_readDigits {bound soFar n : Nat} {cs : List Char} (hle : soFar ≤ bound)
    (h : readDigits bound soFar cs = .ok n) :
    (∀ c ∈ cs, c.isDigit = true) ∧ n = Nat.ofDigitChars 10 cs soFar ∧ n ≤ bound := by
  induction cs generalizing soFar with
  | nil =>
    obtain rfl := Except.ok.inj h
    exact ⟨by simp, rfl, hle⟩
  | cons c cs ih =>
    rw [readDigits] at h
    split at h
    · cases h
    · next d hd =>
      split at h
      · next hfits =>
        have hc := isDigit_of_digitValue? hd
        obtain ⟨hdigits, rfl, hbound⟩ := ih hfits h
        obtain rfl := Option.some.inj (hd.symm.trans (digitValue?_of_isDigit hc))
        rw [Nat.ofDigitChars_cons, Nat.mul_comm 10 soFar]
        exact ⟨List.forall_mem_cons.2 ⟨hc, hdigits⟩, rfl, hbound⟩
      · cases h

/-- A magnitude is read exactly from its digits, if it is within the bound. -/
theorem readMagnitude_eq_ok_iff {bound n : Nat} {cs : List Char} :
    readMagnitude bound cs = .ok n ↔
      IsNumeral cs ∧ n = Nat.ofDigitChars 10 cs 0 ∧ n ≤ bound := by
  cases cs with
  | nil => exact iff_of_false nofun fun h ↦ h.1.1 rfl
  | cons c cs =>
    rw [readMagnitude]
    · constructor
      · intro h
        obtain ⟨hdigits, hvalue, hbound⟩ := of_readDigits (Nat.zero_le bound) h
        exact ⟨⟨List.cons_ne_nil c cs, hdigits⟩, hvalue, hbound⟩
      · rintro ⟨⟨-, hdigits⟩, rfl, hbound⟩
        exact readDigits_of_isDigit _ 0 hdigits hbound
    · exact List.cons_ne_nil c cs

private theorem IsNumeral.head_ne {c : Char} {cs : List Char} (h : IsNumeral (c :: cs)) :
    c ≠ '+' ∧ c ≠ '-' := by
  have hc := h.2 c List.mem_cons_self
  constructor
  · rintro rfl
    exact absurd hc (by decide)
  · rintro rfl
    exact absurd hc (by decide)

private theorem writesInteger_plus_iff {cs : List Char} {n : Int} :
    WritesInteger ('+' :: cs) n ↔ IsNumeral cs ∧ n = Nat.ofDigitChars 10 cs 0 := by
  constructor
  · rintro ⟨digits, hdigits, ⟨rfl | hcs, hn⟩ | ⟨hcs, -⟩⟩
    · exact absurd rfl hdigits.head_ne.1
    · obtain ⟨-, rfl⟩ := List.cons.inj hcs
      exact ⟨hdigits, hn⟩
    · exact absurd (List.cons.inj hcs).1 (by decide)
  · rintro ⟨hdigits, hn⟩
    exact ⟨cs, hdigits, .inl ⟨.inr rfl, hn⟩⟩

private theorem writesInteger_minus_iff {cs : List Char} {n : Int} :
    WritesInteger ('-' :: cs) n ↔ IsNumeral cs ∧ n = -(Nat.ofDigitChars 10 cs 0 : Int) := by
  constructor
  · rintro ⟨digits, hdigits, ⟨rfl | hcs, -⟩ | ⟨hcs, hn⟩⟩
    · exact absurd rfl hdigits.head_ne.2
    · exact absurd (List.cons.inj hcs).1 (by decide)
    · obtain ⟨-, rfl⟩ := List.cons.inj hcs
      exact ⟨hdigits, hn⟩
  · rintro ⟨hdigits, hn⟩
    exact ⟨cs, hdigits, .inr ⟨rfl, hn⟩⟩

private theorem writesInteger_unsigned_iff {cs : List Char} {n : Int}
    (hplus : cs.head? ≠ some '+') (hminus : cs.head? ≠ some '-') :
    WritesInteger cs n ↔ IsNumeral cs ∧ n = Nat.ofDigitChars 10 cs 0 := by
  constructor
  · rintro ⟨digits, hdigits, ⟨rfl | rfl, hn⟩ | ⟨rfl, -⟩⟩
    · exact ⟨hdigits, hn⟩
    · exact absurd rfl hplus
    · exact absurd rfl hminus
  · rintro ⟨hdigits, hn⟩
    exact ⟨cs, hdigits, .inl ⟨.inl rfl, hn⟩⟩

private theorem map_readMagnitude_eq_ok_iff {low high n : Int} (hlow : low < 0) (hhigh : 0 ≤ high)
    {cs : List Char} : (readMagnitude high.toNat cs).map Int.ofNat = .ok n ↔
      (IsNumeral cs ∧ n = Nat.ofDigitChars 10 cs 0) ∧ low ≤ n ∧ n ≤ high := by
  refine Checked.map_eq_ok_iff.trans ?_
  simp only [readMagnitude_eq_ok_iff, Int.ofNat_eq_natCast]
  constructor
  · rintro ⟨_, ⟨hcs, rfl, hbound⟩, rfl⟩
    exact ⟨⟨hcs, rfl⟩, by omega, by omega⟩
  · rintro ⟨⟨hcs, rfl⟩, -, hbound⟩
    exact ⟨_, ⟨hcs, rfl, by omega⟩, rfl⟩

private theorem neg_readMagnitude_eq_ok_iff {low high n : Int} (hlow : low < 0) (hhigh : 0 ≤ high)
    {cs : List Char} :
    (∃ m, readMagnitude (-low).toNat cs = .ok m ∧ -(m : Int) = n) ↔
      (IsNumeral cs ∧ n = -(Nat.ofDigitChars 10 cs 0 : Int)) ∧ low ≤ n ∧ n ≤ high := by
  simp only [readMagnitude_eq_ok_iff]
  constructor
  · rintro ⟨_, ⟨hcs, rfl, hbound⟩, rfl⟩
    exact ⟨⟨hcs, rfl⟩, by omega, by omega⟩
  · rintro ⟨⟨hcs, rfl⟩, hbound, -⟩
    exact ⟨_, ⟨hcs, rfl, by omega⟩, rfl⟩

-- After a minus just the negated magnitudes are read: a magnitude that is too large is reported as
-- a number that is too small.
private theorem readInteger_minus_eq_ok_iff {low high n : Int} (hlow : low < 0) {s : String}
    {cs : List Char} (hs : s.toList = '-' :: cs) :
    readInteger low high s = .ok n ↔
      ∃ m, readMagnitude (-low).toNat cs = .ok m ∧ -(m : Int) = n := by
  unfold readInteger
  rw [hs]
  simp only [if_pos hlow]
  cases readMagnitude (-low).toNat cs with
  | ok m => simp
  | error fault => cases fault <;> simp

/-- Between bounds on both sides of zero an integer is read from just the texts that write it. -/
theorem readInteger_eq_ok_iff {low high n : Int} (hlow : low < 0) (hhigh : 0 ≤ high) {s : String} :
    readInteger low high s = .ok n ↔ WritesInteger s.toList n ∧ low ≤ n ∧ n ≤ high := by
  by_cases hminus : ∃ cs, s.toList = '-' :: cs
  · obtain ⟨cs, hs⟩ := hminus
    rw [readInteger_minus_eq_ok_iff hlow hs, hs, writesInteger_minus_iff]
    exact neg_readMagnitude_eq_ok_iff hlow hhigh
  · unfold readInteger
    split
    · next hnil =>
      refine iff_of_false nofun fun h ↦ ?_
      rw [hnil, writesInteger_unsigned_iff (by simp) (by simp)] at h
      exact h.1.1.1 rfl
    · next cs heq =>
      rw [heq, writesInteger_plus_iff]
      exact map_readMagnitude_eq_ok_iff hlow hhigh
    · next cs heq => exact absurd ⟨cs, heq⟩ hminus
    · next hnil hplus _ =>
      have hhead (sign : Char) (hsign : ¬∃ cs, s.toList = sign :: cs) :
          s.toList.head? ≠ some sign := mt List.head?_eq_some_iff.1 hsign
      rw [writesInteger_unsigned_iff (hhead '+' (not_exists.2 hplus)) (hhead '-' hminus)]
      exact map_readMagnitude_eq_ok_iff hlow hhigh

/-- Different natural numbers are written differently. -/
theorem toString_injective {m n : Nat} (h : toString m = toString n) : m = n := by
  have hdigits : Nat.toDigits 10 m = Nat.toDigits 10 n := by
    rw [← Nat.toList_repr, ← Nat.toList_repr]
    exact congrArg String.toList h
  rw [← Nat.ofDigitChars_ten_toDigits (n := m), hdigits, Nat.ofDigitChars_ten_toDigits]

/-- A text without white space is trimmed already. -/
theorem trimChars_of_not_blank {cs : List Char} (h : ∀ c ∈ cs, isBlank c = false) :
    trimChars cs = cs := by
  have hdrop {ds : List Char} (hds : ∀ c ∈ ds, isBlank c = false) :
      ds.dropWhile isBlank = ds := by
    cases ds with
    | nil => rfl
    | cons d ds => rw [List.dropWhile_cons_of_neg (by simp [hds d List.mem_cons_self])]
  unfold trimChars
  rw [hdrop h, hdrop fun c hc ↦ h c (List.mem_reverse.1 hc), List.reverse_reverse]

/-- A digit is no white space. -/
theorem isBlank_of_isDigit {c : Char} (h : c.isDigit = true) : isBlank c = false := by
  have hbounds : 48 ≤ c.toNat ∧ c.toNat ≤ 57 := bounds_of_isDigit h
  cases hblank : isBlank c with
  | false => rfl
  | true =>
    simp only [isBlank, blankRanges, List.any_cons, List.any_nil, Bool.or_eq_true,
      Bool.and_eq_true, decide_eq_true_eq, Bool.false_eq_true, or_false] at hblank
    omega

/-- The digits of a natural number are trimmed already. -/
theorem trim_toString (n : Nat) : trim (toString n) = toString n := by
  have htext : (toString n).toList = Nat.toDigits 10 n := Nat.toList_repr
  unfold trim
  rw [htext, trimChars_of_not_blank, ← htext, String.ofList_toList]
  intro c hc
  exact isBlank_of_isDigit (Nat.isDigit_of_mem_toDigits (by decide) (by decide) hc)

end PlaybookRuns.Text
