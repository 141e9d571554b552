import Mathlib.Algebra.Group.Nat.Defs
import Mathlib.Data.List.Basic
import PlaybookRuns.Text.Utf8
import PlaybookRuns.Uuid

/-!
# Comparing octets

Texts and identifiers seen as sequences of octets, which compare by the first octet that differs.
Main statements: texts compare as the octets of their UTF-8, and identifiers as their sixteen
octets.
-/

namespace PlaybookRuns

private theorem compare_octet_cons (a b : UInt8) (as bs : List UInt8) :
    compare (a :: as) (b :: bs) = (compare a b).then (compare as bs) :=
  List.compareLex_cons_cons

/-! ## Texts -/

namespace Text.Utf8

private theorem codePoint_lt (c : Char) : c.toNat < 0x110000 := by
  rcases c.valid with h | h
  · exact Nat.lt_trans h (by decide)
  · exact h.2

private theorem ofNat_lt_ofNat_iff {m n : Nat} (hm : m < 256) (hn : n < 256) :
    UInt8.ofNat m < UInt8.ofNat n ↔ m < n := by
  rw [UInt8.lt_iff_toNat_lt, UInt8.toNat_ofNat_of_lt' hm, UInt8.toNat_ofNat_of_lt' hn]

private theorem ofNat_eq_ofNat_iff {m n : Nat} (hm : m < 256) (hn : n < 256) :
    UInt8.ofNat m = UInt8.ofNat n ↔ m = n := by
  rw [← UInt8.toNat_inj, UInt8.toNat_ofNat_of_lt' hm, UInt8.toNat_ofNat_of_lt' hn]

private theorem encodeChar_append_lt {c d : Char} (h : c < d) (as bs : List UInt8) :
    encodeChar c ++ as < encodeChar d ++ bs := by
  have hlt : c.toNat < d.toNat := h
  have hd := codePoint_lt d
  -- The cases are the sizes of both code points; different sizes differ in their first octet.
  simp only [encodeChar]
  split_ifs
  all_goals
    simp (disch := omega) only [List.cons_append, List.nil_append, List.cons_lt_cons_iff,
      ofNat_lt_ofNat_iff, ofNat_eq_ofNat_iff]
    omega

private theorem encodeChar_ne_nil (c : Char) : encodeChar c ≠ [] := by
  simp only [encodeChar]
  split_ifs <;> exact List.cons_ne_nil _ _

private theorem encode_lt_encode {cs ds : List Char} (h : cs < ds) : encode cs < encode ds := by
  induction h with
  | @nil d ds =>
    obtain ⟨o, os, ho⟩ := List.exists_cons_of_ne_nil (encodeChar_ne_nil d)
    simp only [encode, List.flatMap_cons, ho]
    exact List.nil_lt_cons _ _
  | cons _ ih => exact List.append_left_lt ih
  | rel h => exact encodeChar_append_lt h _ _

private theorem compare_octets_eq_lt_iff {as bs : List UInt8} : compare as bs = .lt ↔ as < bs := by
  induction as generalizing bs with
  | nil =>
    cases bs with
    | nil => decide
    | cons b bs => exact iff_of_true rfl (List.nil_lt_cons _ _)
  | cons a as ih =>
    cases bs with
    | nil => exact iff_of_false (by rintro ⟨⟩) (List.not_lt_nil _)
    | cons b bs =>
      rw [compare_octet_cons, Ordering.then_eq_lt, List.cons_lt_cons_iff, Std.compare_eq_lt,
        Std.compare_eq_iff_eq, ih]

/-- Texts compare as the octets in which they are written. -/
theorem compare_encode (s t : String) :
    compare (encode s.toList) (encode t.toList) = compare s t := by
  have hlt {s t : String} (h : compare s t = .lt) :
      compare (encode s.toList) (encode t.toList) = .lt := by
    replace h : s < t := compareOfLessAndEq_eq_lt.1 h
    exact compare_octets_eq_lt_iff.2 (encode_lt_encode h)
  cases h : compare s t with
  | lt => exact hlt h
  | eq =>
    obtain rfl := Std.LawfulEqOrd.eq_of_compare h
    exact Std.ReflOrd.compare_self
  | gt => exact Std.OrientedCmp.gt_iff_lt.2 (hlt (Std.OrientedCmp.gt_iff_lt.1 h))

end Text.Utf8

/-! ## Identifiers -/

namespace Uuid

/-- The last `count` octets of a number, the most significant one first. -/
def lastOctets : (count : Nat) → Nat → List UInt8
  | 0, _ => []
  | count + 1, n => lastOctets count (n / 256) ++ [.ofNat n]

/-- The sixteen octets of an identifier. -/
def octets (id : Uuid) : List UInt8 := lastOctets 16 id.bits.toNat

private theorem length_lastOctets (count n : Nat) : (lastOctets count n).length = count := by
  induction count generalizing n with
  | zero => rfl
  | succ count ih => rw [lastOctets, List.length_append, ih, List.length_singleton]

private theorem compare_append_singleton {as bs : List UInt8} (h : as.length = bs.length)
    (a b : UInt8) :
    compare (as ++ [a]) (bs ++ [b]) = (compare as bs).then (compare a b) := by
  induction as generalizing bs with
  | nil =>
    obtain rfl := List.eq_nil_of_length_eq_zero h.symm
    exact (compare_octet_cons a b [] []).trans Ordering.then_eq
  | cons x as ih =>
    cases bs with
    | nil => cases h
    | cons y bs =>
      rw [List.cons_append, List.cons_append, compare_octet_cons, compare_octet_cons,
        ih (Nat.succ.inj h), Ordering.then_assoc]

private theorem compare_eq_then (m n : Nat) :
    compare m n = (compare (m / 256) (n / 256)).then (compare (UInt8.ofNat m) (UInt8.ofNat n)) := by
  have hlast : compare (UInt8.ofNat m) (UInt8.ofNat n) = compare (m % 256) (n % 256) := by
    rw [UInt8.compare_eq_toNat_compare_toNat, UInt8.toNat_ofNat', UInt8.toNat_ofNat']
  rw [hlast]
  cases h : compare m n with
  | lt =>
    rw [Nat.compare_eq_lt] at h
    rw [eq_comm, Ordering.then_eq_lt, Nat.compare_eq_lt, Nat.compare_eq_eq, Nat.compare_eq_lt]
    omega
  | eq =>
    rw [Nat.compare_eq_eq] at h
    rw [eq_comm, Ordering.then_eq_eq, Nat.compare_eq_eq, Nat.compare_eq_eq]
    omega
  | gt =>
    rw [Nat.compare_eq_gt] at h
    rw [eq_comm, Ordering.then_eq_gt, Nat.compare_eq_gt, Nat.compare_eq_eq, Nat.compare_eq_gt]
    omega

private theorem compare_lastOctets {count m n : Nat} (hm : m < 256 ^ count) (hn : n < 256 ^ count) :
    compare (lastOctets count m) (lastOctets count n) = compare m n := by
  induction count generalizing m n with
  | zero =>
    obtain rfl : m = 0 := by omega
    obtain rfl : n = 0 := by omega
    rfl
  | succ count ih =>
    have hlower {k : Nat} (hk : k < 256 ^ (count + 1)) : k / 256 < 256 ^ count := by
      rw [Nat.pow_succ] at hk
      omega
    rw [lastOctets, lastOctets, compare_append_singleton (by simp only [length_lastOctets]),
      ih (hlower hm) (hlower hn), ← compare_eq_then]

/-- Identifiers compare as their octets. -/
theorem compare_octets (a b : Uuid) : compare a.octets b.octets = compare a b :=
  compare_lastOctets a.bits.isLt b.bits.isLt

end Uuid

end PlaybookRuns
