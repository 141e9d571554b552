import Mathlib.Algebra.Ring.Nat
import PlaybookRuns.Uuid

/-!
# Written identifiers

The text of an identifier is read back, group by group. Main statement: it reads as the identifier
itself, so that different identifiers have different texts.
-/

namespace PlaybookRuns.Uuid

/-! ## Digits -/

/-- As many digits are written as are asked for. -/
@[simp] theorem length_hexDigits (count n : Nat) : (hexDigits count n).length = count := by
  induction count generalizing n with
  | zero => rfl
  | succ count ih => rw [hexDigits, List.length_append, ih, List.length_singleton]

/-- The digits of a number are those of its upper part before those of its lower part. -/
theorem hexDigits_add (a b n : Nat) :
    hexDigits (a + b) n = hexDigits a (n / 16 ^ b) ++ hexDigits b n := by
  induction b generalizing n with
  | zero => simp [hexDigits]
  | succ b ih =>
    rw [← Nat.add_assoc, hexDigits, ih, hexDigits, Nat.div_div_eq_div_mul, ← Nat.pow_succ',
      List.append_assoc]

private theorem take_hexDigits (a b n : Nat) :
    (hexDigits (a + b) n).take a = hexDigits a (n / 16 ^ b) := by
  rw [hexDigits_add, List.take_left' (length_hexDigits _ _)]

private theorem drop_hexDigits (a b n : Nat) :
    (hexDigits (a + b) n).drop a = hexDigits b n := by
  rw [hexDigits_add, List.drop_left' (length_hexDigits _ _)]

private theorem readHex_succ {count soFar value digit : Nat} {cs rest : List Char} {c : Char}
    (h : readHex count soFar cs = some (value, c :: rest))
    (hdigit : Text.hexValue? c.toNat = some digit) :
    readHex (count + 1) soFar cs = some (value * 16 + digit, rest) := by
  induction count generalizing soFar cs with
  | zero =>
    obtain ⟨rfl, rfl⟩ := Prod.mk.inj (Option.some.inj h)
    simp [readHex, hdigit]
  | succ count ih =>
    cases cs with
    | nil => cases h
    | cons d cs =>
      rw [readHex] at h ⊢
      obtain ⟨v, hv, hrest⟩ := Option.bind_eq_some_iff.1 h
      rw [hv]
      exact ih hrest

/-- The digits of a number read as what follows a number that has been read. -/
theorem readHex_hexDigits (count soFar n : Nat) (rest : List Char) :
    readHex count soFar (hexDigits count n ++ rest) =
      some (soFar * 16 ^ count + n % 16 ^ count, rest) := by
  induction count generalizing n rest with
  | zero => simp [readHex, hexDigits, Nat.mod_one]
  | succ count ih =>
    have hdigit := Text.hexValue?_lowerHexDigit (Nat.mod_lt n (by decide : 0 < 16))
    rw [hexDigits, List.append_assoc, List.singleton_append,
      readHex_succ (ih (n / 16) _) hdigit]
    have hmod : n % 16 ^ (count + 1) = n / 16 % 16 ^ count * 16 + n % 16 := by
      rw [Nat.pow_succ', Nat.mod_mul, Nat.mul_comm, Nat.add_comm]
    rw [hmod, Nat.pow_succ, Nat.add_mul, Nat.mul_assoc, Nat.add_assoc]

/-! ## Groups -/

-- The digits of a number in groups of the given sizes, a hyphen before each.
private def groupedDigits : List Nat → Nat → List Char
  | [], _ => []
  | size :: sizes, n =>
    '-' :: (hexDigits size (n / 16 ^ sizes.sum) ++ groupedDigits sizes n)

-- Groups of digits read as the number, once what is above them has been read.
private theorem readGroups_groupedDigits (sizes : List Nat) (n : Nat) :
    readGroups sizes (n / 16 ^ sizes.sum) (groupedDigits sizes n) = some n := by
  induction sizes with
  | nil => simp [readGroups, groupedDigits]
  | cons size sizes ih =>
    have hvalue : n / 16 ^ (size :: sizes).sum * 16 ^ size + n / 16 ^ sizes.sum % 16 ^ size =
        n / 16 ^ sizes.sum := by
      rw [List.sum_cons, Nat.add_comm size, Nat.pow_add, ← Nat.div_div_eq_div_mul,
        Nat.div_add_mod']
    rw [groupedDigits, readGroups, readHex_hexDigits, hvalue]
    exact ih

private theorem toList_toText (id : Uuid) :
    '-' :: id.toText.toList = groupedDigits [8, 4, 4, 4, 12] id.bits.toNat := by
  rw [toText, take_hexDigits 8 24, drop_hexDigits 8 24, take_hexDigits 4 20, drop_hexDigits 12 20,
    take_hexDigits 4 16, drop_hexDigits 16 16, take_hexDigits 4 12, drop_hexDigits 20 12]
  simp [groupedDigits, List.intercalate]

private theorem exists_digit_cons (id : Uuid) :
    ∃ digit < 16, ∃ cs, id.toText.toList = Text.lowerHexDigit digit :: cs := by
  have htext := toList_toText id
  rw [groupedDigits, hexDigits_add 1 7] at htext
  exact ⟨_, Nat.mod_lt _ (by decide), _, (List.cons.inj htext).2⟩

private theorem lowerHexDigit_ne {digit : Nat} (h : digit < 16) :
    Text.lowerHexDigit digit ≠ '\x7b' ∧ (Text.lowerHexDigit digit).toLower ≠ 'u' := by
  revert digit
  decide

/-- The text of an identifier reads as the identifier. -/
theorem ofText?_toText (id : Uuid) : ofText? id.toText = some id := by
  have htext := toList_toText id
  have hlength : id.toText.toList.length = 36 := by
    have hsum := congrArg List.length htext
    simpa [groupedDigits] using hsum
  obtain ⟨digit, hdigit, cs, hcs⟩ := exists_digit_cons id
  obtain ⟨hbrace, hurn⟩ := lowerHexDigit_ne hdigit
  have hread : readGrouped id.toText.toList = some id.bits.toNat := by
    have hzero : id.bits.toNat / 16 ^ [8, 4, 4, 4, 12].sum = 0 := Nat.div_eq_of_lt id.bits.isLt
    rw [readGrouped, htext, ← hzero]
    exact readGroups_groupedDigits _ _
  have hnotBraced : ¬(id.toText.toList.head? = some '\x7b' ∧
      id.toText.toList.getLast? = some '\x7d') := by
    rintro ⟨hhead, -⟩
    rw [hcs] at hhead
    exact hbrace (Option.some.inj hhead)
  have hnotUrn : (id.toText.toList.take urnWord.length).map Char.toLower ≠ urnWord := by
    intro hword
    rw [hcs] at hword
    exact hurn (List.cons.inj hword).1
  rw [ofText?, if_neg (by rw [hlength]; decide), if_neg hnotBraced, if_neg hnotUrn, hread]
  simp [ofNat]

/-- Different identifiers have different texts. -/
theorem toText_injective : Function.Injective toText := by
  intro a b h
  have hread := congrArg ofText? h
  rw [ofText?_toText, ofText?_toText] at hread
  exact Option.some.inj hread

end PlaybookRuns.Uuid
