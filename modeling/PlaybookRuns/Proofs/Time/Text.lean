import Mathlib.Algebra.Group.Nat.Defs
import PlaybookRuns.Proofs.Checked
import PlaybookRuns.Proofs.Text.Integer
import PlaybookRuns.Proofs.Time.Date
import PlaybookRuns.Time.Instant

/-!
# Written instants

The text of an instant is read back. Main statement: for an instant that has been read from a text,
of a year that is written with four digits, it is read as the instant itself, in an inserted second
or outside.
-/

namespace PlaybookRuns.Time.Instant

open PlaybookRuns.Text (isBlank digitValue?)

/-! ## Digits -/

private theorem isDigit_ofNat (n : Nat) : (Char.ofNat (0x30 + n % 10)).isDigit = true ∧
    digitValue? (Char.ofNat (0x30 + n % 10)) = some (n % 10) := by
  have hall : ∀ d < 10, (Char.ofNat (0x30 + d)).isDigit = true ∧
      digitValue? (Char.ofNat (0x30 + d)) = some d := by decide
  exact hall (n % 10) (Nat.mod_lt n (by decide))

private theorem exists_digits_cons (width n : Nat) :
    ∃ c cs, digits (width + 1) n = c :: cs ∧ c.isDigit = true := by
  induction width generalizing n with
  | zero => exact ⟨_, [], rfl, (isDigit_ofNat n).1⟩
  | succ width ih =>
    obtain ⟨c, cs, hdigits, hc⟩ := ih (n / 10)
    exact ⟨c, cs ++ [Char.ofNat (0x30 + n % 10)], by rw [digits, hdigits]; rfl, hc⟩

private theorem readUpTo_digits (width more soFar count n : Nat) (rest : List Char) :
    readUpTo (width + more) soFar count (digits width n ++ rest) =
      readUpTo more (soFar * 10 ^ width + n % 10 ^ width) (count + width) rest := by
  induction width generalizing more n rest with
  | zero => simp [digits, Nat.mod_one]
  | succ width ih =>
    have hvalue : n % 10 ^ (width + 1) = n / 10 % 10 ^ width * 10 + n % 10 := by
      rw [Nat.pow_succ', Nat.mod_mul, Nat.mul_comm, Nat.add_comm]
    rw [digits, List.append_assoc, Nat.add_assoc, Nat.add_comm 1 more, ih, List.singleton_append,
      readUpTo, (isDigit_ofNat n).2]
    dsimp only
    rw [hvalue, Nat.pow_succ, Nat.add_mul, Nat.mul_assoc, Nat.add_assoc, Nat.add_assoc count]

private theorem readUpTo_digits_self (width n : Nat) (rest : List Char) :
    readUpTo width 0 0 (digits width n ++ rest) = (n % 10 ^ width, width, rest) := by
  have hread := readUpTo_digits width 0 0 0 n rest
  rwa [Nat.zero_mul, Nat.zero_add, Nat.zero_add] at hread

private theorem skipBlank_digits (width n : Nat) (rest : List Char) :
    skipBlank (digits (width + 1) n ++ rest) = digits (width + 1) n ++ rest := by
  obtain ⟨c, cs, hdigits, hc⟩ := exists_digits_cons width n
  rw [hdigits, List.cons_append, skipBlank, List.dropWhile_cons_of_neg]
  rw [Text.isBlank_of_isDigit hc]
  decide

private theorem readField_digits {low high n : Nat} (hlow : low ≤ n) (hhigh : n ≤ high)
    (hn : n < 100) (rest : List Char) :
    readField 2 low high (digits 2 n ++ rest) = some (n, rest) := by
  have hvalue : n % 10 ^ 2 = n := Nat.mod_eq_of_lt hn
  rw [readField, skipBlank_digits, readUpTo_digits_self, hvalue]
  exact if_pos ⟨by decide, hlow, hhigh⟩

private theorem readYear_digits {n : Nat} (h : n ≤ 9999) (rest : List Char) :
    readYear (digits 4 n ++ rest) = some ((n : Int), rest) := by
  obtain ⟨c, cs, hdigits, hc⟩ := exists_digits_cons 3 n
  have hvalue : n % 10 ^ 4 = n := Nat.mod_eq_of_lt (Nat.lt_succ_of_le h)
  have hread := readUpTo_digits_self 4 n rest
  rw [readYear, skipBlank_digits]
  rw [hdigits, List.cons_append] at hread ⊢
  split
  · next heq =>
    obtain ⟨rfl, -⟩ := List.cons.inj heq
    exact absurd hc (by decide)
  · next heq =>
    obtain ⟨rfl, -⟩ := List.cons.inj heq
    exact absurd hc (by decide)
  · rw [hread, hvalue]
    rfl

private theorem readMark_self {mark : Char} (h : isBlank mark = false) (rest : List Char) :
    readMark mark (mark :: rest) = some rest := by
  have hskip : skipBlank (mark :: rest) = mark :: rest :=
    List.dropWhile_cons_of_neg (by simp [h])
  rw [readMark, hskip]
  exact if_pos rfl

private theorem readFraction_fractionText {nanos : Nat} (h : nanos < nanosPerSecond) :
    readFraction (fractionText nanos ++ ['Z']) = some (nanos, ['Z']) := by
  have hdigits (width more n : Nat) (hwidth : width + more = 9) (hpos : 0 < width)
      (hn : n < 10 ^ width) :
      readFraction ('.' :: (digits width n ++ ['Z'])) = some (n * 10 ^ more, ['Z']) := by
    have hmark : readUpTo more n width ['Z'] = (n, width, ['Z']) := by cases more <;> rfl
    have hread := readUpTo_digits width more 0 0 n ['Z']
    rw [Nat.zero_mul, Nat.zero_add, Nat.zero_add, Nat.mod_eq_of_lt hn, hmark, hwidth] at hread
    rw [readFraction, hread]
    dsimp only
    rw [if_pos hpos, show 9 - width = more by omega]
    rfl
  rw [fractionText]
  change nanos < 1000000000 at h
  split
  · next hzero =>
    subst hzero
    rfl
  · split
    · next hmillis =>
      rw [List.cons_append, hdigits 3 6 _ rfl (by decide) (by omega)]
      congr 2
      omega
    · split
      · next hmicros =>
        rw [List.cons_append, hdigits 6 3 _ rfl (by decide) (by omega)]
        congr 2
        omega
      · rw [List.cons_append, hdigits 9 0 _ rfl (by decide) h]
        congr 2
        omega

/-! ## Instants -/

/-- The year in which an instant lies. -/
def year (t : Instant) : Int := (Date.ofDays (t.seconds / 86400)).year

/-- Whether a text can denote an instant: one that lies in an inserted second follows the last
second of a minute. -/
def IsProper (t : Instant) : Prop :=
  t.nanos < nanosPerSecond ∨ t.nanos < 2 * nanosPerSecond ∧ t.seconds % 60 = 59

-- The instant of a date and a time of day, where the second 60 is an inserted one.
private def ofFields (date : Date) (hour minute second fraction : Nat) : Instant :=
  ⟨date.toDays * 86400 + (hour * 3600 + minute * 60 + min second 59 : Nat) - 0,
    if second = 60 then nanosPerSecond + fraction else fraction⟩

private theorem daysInMonth_le (year : Int) (month : Nat) : daysInMonth year month ≤ 31 := by
  unfold daysInMonth
  split
  · split <;> decide
  · split <;> decide

private theorem ofText?_digits {year month day hour minute second fraction : Nat}
    (hvalid : (Date.mk year month day).IsValid) (hyear : year ≤ 9999) (hhour : hour ≤ 23)
    (hminute : minute ≤ 59) (hsecond : second ≤ 60) (hfraction : fraction < nanosPerSecond)
    (hcovered : (ofFields ⟨year, month, day⟩ hour minute second fraction).isCovered) :
    ofText? (String.ofList (digits 4 year ++ '-' :: (digits 2 month ++ '-' :: (digits 2 day ++
        'T' :: (digits 2 hour ++ ':' :: (digits 2 minute ++ ':' :: (digits 2 second ++
          (fractionText fraction ++ ['Z'])))))))) =
      some (ofFields ⟨year, month, day⟩ hour minute second fraction) := by
  have hmonth : 1 ≤ month ∧ month ≤ 12 := ⟨hvalid.1, hvalid.2.1⟩
  have hday : 1 ≤ day ∧ day ≤ 31 := ⟨hvalid.2.2.1, Nat.le_trans hvalid.2.2.2 (daysInMonth_le _ _)⟩
  have hdash : isBlank '-' = false := rfl
  have hcolon : isBlank ':' = false := rfl
  rw [ofText?, String.toList_ofList]
  refine Option.bind_eq_some_iff.2 ⟨_, readYear_digits hyear _, ?_⟩
  refine Option.bind_eq_some_iff.2 ⟨_, readMark_self hdash _, ?_⟩
  refine Option.bind_eq_some_iff.2 ⟨_, readField_digits hmonth.1 hmonth.2 (by omega) _, ?_⟩
  refine Option.bind_eq_some_iff.2 ⟨_, readMark_self hdash _, ?_⟩
  refine Option.bind_eq_some_iff.2 ⟨_, readField_digits hday.1 hday.2 (by omega) _, ?_⟩
  refine Option.bind_eq_some_iff.2 ⟨_, rfl, ?_⟩
  refine Option.bind_eq_some_iff.2 ⟨_, readField_digits (Nat.zero_le _) hhour (by omega) _, ?_⟩
  refine Option.bind_eq_some_iff.2 ⟨_, readMark_self hcolon _, ?_⟩
  refine Option.bind_eq_some_iff.2 ⟨_, readField_digits (Nat.zero_le _) hminute (by omega) _, ?_⟩
  refine Option.bind_eq_some_iff.2 ⟨_, readMark_self hcolon _, ?_⟩
  refine Option.bind_eq_some_iff.2 ⟨_, readField_digits (Nat.zero_le _) hsecond (by omega) _, ?_⟩
  refine Option.bind_eq_some_iff.2 ⟨_, readFraction_fractionText hfraction, ?_⟩
  refine Option.bind_eq_some_iff.2 ⟨(0, []), rfl, ?_⟩
  refine if_pos ⟨rfl, hvalid, ?_, ?_, hcovered⟩
  · change (-262143 : Int) ≤ year
    omega
  · change (year : Int) ≤ 262142
    omega

private theorem isCovered_of_year {t : Instant} (hfirst : 0 ≤ t.year) (hlast : t.year ≤ 9999) :
    t.isCovered = true := by
  have hdays := Date.toDays_ofDays (t.seconds / 86400)
  obtain ⟨hmonth, hmonth', hday, hday'⟩ := Date.isValid_ofDays (t.seconds / 86400)
  have hday31 := Nat.le_trans hday' (daysInMonth_le _ _)
  rw [year] at hfirst hlast
  generalize Date.ofDays (t.seconds / 86400) = date at *
  have hstart : (Date.mk firstYear 1 1).toDays ≤ -1000000 := by decide
  have hend : 4000000 ≤ (Date.mk (lastYear + 1) 1 1).toDays := by decide
  have hbounds : -1000000 < date.toDays ∧ date.toDays < 4000000 - 1 := by
    simp only [Date.toDays]
    split <;> omega
  rw [isCovered, Bool.and_eq_true, decide_eq_true_eq, decide_eq_true_eq]
  omega

private theorem ofFields_eq {t : Instant} (h : t.IsProper) {clock : Nat}
    (hclock : (t.seconds % 86400).toNat = clock) :
    ofFields (Date.ofDays (t.seconds / 86400)) (clock / 3600) (clock / 60 % 60)
      (clock % 60 + (nanosPerSecond ≤ t.nanos : Bool).toNat) (t.nanos % nanosPerSecond) = t := by
  obtain ⟨seconds, nanos⟩ := t
  have hday : seconds / 86400 * 86400 + clock = seconds := by
    dsimp only at hclock
    omega
  have htime : clock / 3600 * 3600 + clock / 60 % 60 * 60 + clock % 60 = clock := by omega
  rw [ofFields, Date.toDays_ofDays, mk.injEq]
  change nanos < 1000000000 ∨ nanos < 2 * 1000000000 ∧ seconds % 60 = 59 at h
  change (_ = seconds) ∧ (if _ then 1000000000 + nanos % 1000000000 else nanos % 1000000000) = nanos
  by_cases hinserted : 1000000000 ≤ nanos
  · have hflag : decide (nanosPerSecond ≤ nanos) = true := decide_eq_true hinserted
    have hminute : clock % 60 = 59 := by omega
    rw [hflag, hminute]
    refine ⟨?_, (if_pos rfl).trans (by omega)⟩
    rw [show min (59 + true.toNat) 59 = 59 from rfl]
    dsimp only
    omega
  · have hflag : decide (nanosPerSecond ≤ nanos) = false := decide_eq_false hinserted
    have hsecond : clock % 60 < 60 := Nat.mod_lt _ (by decide)
    rw [hflag, Bool.toNat_false, Nat.add_zero, Nat.min_eq_left (by omega)]
    refine ⟨?_, (if_neg (by omega)).trans (by omega)⟩
    dsimp only
    omega

/-- The text of a proper instant of a year with four digits is read as that instant. -/
theorem ofText?_toText {t : Instant} (h : t.IsProper) (hfirst : 0 ≤ t.year)
    (hlast : t.year ≤ 9999) : ofText? t.toText = some t := by
  have hcovered := isCovered_of_year hfirst hlast
  have hvalid := Date.isValid_ofDays (t.seconds / 86400)
  generalize hclock : (t.seconds % 86400).toNat = clock
  have hfields := ofFields_eq h hclock
  rw [year] at hfirst hlast
  rw [toText, secondsText, yearText, hclock]
  generalize Date.ofDays (t.seconds / 86400) = date at *
  obtain ⟨year, month, day⟩ := date
  obtain ⟨year, rfl⟩ := Int.eq_ofNat_of_zero_le hfirst
  have hcount : (nanosPerSecond ≤ t.nanos : Bool).toNat ≤ 1 := Bool.toNat_le _
  rw [← hfields] at hcovered
  have hhour : clock / 3600 ≤ 23 := by omega
  have hminute : clock / 60 % 60 ≤ 59 := by omega
  have hsecond : clock % 60 + (nanosPerSecond ≤ t.nanos : Bool).toNat ≤ 60 := by omega
  have hread := ofText?_digits hvalid (Int.ofNat_le.1 hlast) hhour hminute hsecond
    (Nat.mod_lt _ (by decide)) hcovered
  rw [hfields] at hread
  rw [← hread]
  dsimp only
  rw [if_pos ⟨hfirst, hlast⟩]
  simp only [List.append_assoc, List.cons_append]
  rfl

/-! ## Instants that were read -/

private theorem readUpTo_lt (width soFar count : Nat) (cs : List Char) :
    ∃ more ≤ width, (readUpTo width soFar count cs).2.1 = count + more ∧
      (readUpTo width soFar count cs).1 < (soFar + 1) * 10 ^ more := by
  induction width generalizing soFar count cs with
  | zero => exact ⟨0, Nat.le_refl 0, rfl, by simp [readUpTo]⟩
  | succ width ih =>
    cases cs with
    | nil => exact ⟨0, Nat.zero_le _, rfl, by simp [readUpTo]⟩
    | cons c cs =>
      rw [readUpTo]
      cases hdigit : digitValue? c with
      | none => exact ⟨0, Nat.zero_le _, rfl, by simp⟩
      | some d =>
        have hd := Text.lt_of_digitValue? hdigit
        obtain ⟨more, hmore, hcount, hlt⟩ := ih (soFar * 10 + d) (count + 1) cs
        refine ⟨more + 1, Nat.succ_le_succ hmore, by dsimp only; omega, Nat.lt_of_lt_of_le hlt ?_⟩
        rw [Nat.pow_succ', ← Nat.mul_assoc]
        exact Nat.mul_le_mul_right _ (by omega)

private theorem readFraction_lt {cs rest : List Char} {nanos : Nat}
    (h : readFraction cs = some (nanos, rest)) : nanos < nanosPerSecond := by
  unfold readFraction at h
  split at h
  · next cs =>
    obtain ⟨count, hcount, hread, hlt⟩ := readUpTo_lt 9 0 0 cs
    rw [Nat.zero_add] at hread hlt
    dsimp only at h
    rw [hread] at h
    split at h
    · obtain ⟨rfl, -⟩ := Prod.mk.inj (Option.some.inj h)
      calc _ < 1 * 10 ^ count * 10 ^ (9 - count) := by
            exact Nat.mul_lt_mul_of_pos_right hlt (Nat.pow_pos (by decide))
        _ = nanosPerSecond := by rw [Nat.one_mul, ← Nat.pow_add, Nat.add_sub_cancel' hcount]; rfl
    · cases h
  · obtain ⟨rfl, -⟩ := Prod.mk.inj (Option.some.inj h)
    decide

private theorem readOffset_minutes {cs rest : List Char} {offset : Int}
    (h : readOffset cs = some (offset, rest)) : offset % 60 = 0 := by
  have hsigned {sign : Int} {cs : List Char}
      (h : readOffset.hoursAndMinutes sign cs = some (offset, rest)) : offset % 60 = 0 := by
    obtain ⟨⟨hours, cs⟩, -, h⟩ := Option.bind_eq_some_iff.1 h
    obtain ⟨⟨minutes, cs⟩, -, h⟩ := Option.bind_eq_some_iff.1 h
    dsimp only at h
    split at h
    · obtain ⟨rfl, -⟩ := Prod.mk.inj (Option.some.inj h)
      rw [show hours * 3600 + minutes * 60 = (hours * 60 + minutes) * 60 by omega,
        ← Int.mul_assoc]
      exact Int.mul_emod_left _ _
    · cases h
  unfold readOffset at h
  split at h
  · obtain ⟨rfl, -⟩ := Prod.mk.inj (Option.some.inj h)
    rfl
  · split at h
    · obtain ⟨rfl, -⟩ := Prod.mk.inj (Option.some.inj h)
      rfl
    · obtain ⟨rfl, -⟩ := Prod.mk.inj (Option.some.inj h)
      rfl
    · exact hsigned h
    · exact hsigned h
    · exact hsigned h
    · cases h

private theorem isProper_of_fields {days offset : Int} {hour minute second fraction : Nat}
    (hfraction : fraction < nanosPerSecond) (hoffset : offset % 60 = 0) :
    IsProper ⟨days * 86400 + (hour * 3600 + minute * 60 + min second 59 : Nat) - offset,
      if second = 60 then nanosPerSecond + fraction else fraction⟩ := by
  by_cases hinserted : second = 60
  · subst hinserted
    refine .inr ⟨?_, ?_⟩
    · rw [if_pos rfl]
      dsimp only
      omega
    · rw [Nat.min_eq_right (by decide)]
      dsimp only
      omega
  · refine .inl ?_
    rwa [if_neg hinserted]

/-- An instant that is read from a text is proper. -/
theorem isProper_of_ofText? {s : String} {t : Instant} (h : ofText? s = some t) : t.IsProper := by
  obtain ⟨⟨year, cs⟩, -, h⟩ := Option.bind_eq_some_iff.1 h
  obtain ⟨cs, -, h⟩ := Option.bind_eq_some_iff.1 h
  obtain ⟨⟨month, cs⟩, -, h⟩ := Option.bind_eq_some_iff.1 h
  obtain ⟨cs, -, h⟩ := Option.bind_eq_some_iff.1 h
  obtain ⟨⟨day, cs⟩, -, h⟩ := Option.bind_eq_some_iff.1 h
  dsimp only at h
  -- The mark before the time of day makes no difference.
  split at h
  case h_4 => cases h
  all_goals
    obtain ⟨cs, -, h⟩ := Option.bind_eq_some_iff.1 h
    obtain ⟨⟨hour, cs⟩, -, h⟩ := Option.bind_eq_some_iff.1 h
    obtain ⟨cs, -, h⟩ := Option.bind_eq_some_iff.1 h
    obtain ⟨⟨minute, cs⟩, -, h⟩ := Option.bind_eq_some_iff.1 h
    obtain ⟨cs, -, h⟩ := Option.bind_eq_some_iff.1 h
    obtain ⟨⟨second, cs⟩, -, h⟩ := Option.bind_eq_some_iff.1 h
    obtain ⟨⟨fraction, cs⟩, hfraction, h⟩ := Option.bind_eq_some_iff.1 h
    obtain ⟨⟨offset, cs⟩, hoffset, h⟩ := Option.bind_eq_some_iff.1 h
    have hfraction := readFraction_lt hfraction
    have hoffset := readOffset_minutes hoffset
    obtain rfl := Option.some.inj (Option.ite_none_right_eq_some.1 h).2
    exact isProper_of_fields hfraction hoffset

end PlaybookRuns.Time.Instant
