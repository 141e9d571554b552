import PlaybookRuns.Proofs.Checked
import PlaybookRuns.Proofs.Text.Integer
import PlaybookRuns.Query.Links

/-!
# Windows of requests

The windows that requests are accepted with have a positive limit and no negative offset. Main
statements: on such windows `slice` and `nextOffset?` are exact over unbounded integers, and the
parameters written for one read as the same window.
-/

namespace PlaybookRuns.Query

namespace Window

/-- What every accepted window satisfies. -/
structure Valid (w : Window) : Prop where
  limit_pos : 0 < w.limit
  offset_nonneg : 0 ≤ w.offset

/-- How many rows lie before a window. -/
def start (w : Window) : Nat := w.offset.toInt.toNat

/-- How many rows a window has room for. -/
def size (w : Window) : Nat := w.limit.toInt.toNat

/-- The numbers of a valid window as unbounded integers. -/
theorem valid_iff {w : Window} : w.Valid ↔ 0 < w.limit.toInt ∧ 0 ≤ w.offset.toInt := by
  rw [← Int64.toInt_zero, ← Int64.lt_iff_toInt_lt, ← Int64.le_iff_toInt_le]
  exact ⟨fun h ↦ ⟨h.limit_pos, h.offset_nonneg⟩, fun h ↦ ⟨h.1, h.2⟩⟩

/-- A valid window has room for a row. -/
theorem Valid.size_pos {w : Window} (h : w.Valid) : 0 < w.size := by
  obtain ⟨hlimit, -⟩ := valid_iff.1 h
  unfold size
  omega

/-- A window is accepted exactly when both numbers are read and it is valid. -/
theorem ofParams_eq_ok_iff {limit offset : Option String} {w : Window} :
    ofParams limit offset = .ok w ↔
      numberOr defaultLimit "limit" limit = .ok w.limit ∧
        numberOr 0 "offset" offset = .ok w.offset ∧ w.Valid := by
  unfold ofParams
  simp only [Checked.bind_eq_ok_iff, Checked.throw_bind, Checked.ite_throw_eq_ok_iff,
    Checked.pure_eq_ok_iff, Int64.not_le, Int64.not_lt]
  constructor
  · rintro ⟨l, hl, hpos, o, ho, hnonneg, rfl⟩
    exact ⟨hl, ho, hpos, hnonneg⟩
  · rintro ⟨hl, ho, hpos, hnonneg⟩
    exact ⟨w.limit, hl, hpos, w.offset, ho, hnonneg, rfl⟩

private theorem decimal_of_nonneg {n : Int64} (h : 0 ≤ n) :
    decimal n = toString n.toInt.toNat := by
  rw [Int64.le_iff_toInt_le, Int64.toInt_zero] at h
  obtain ⟨k, hk⟩ := Int.eq_ofNat_of_zero_le h
  rw [decimal, hk]
  rfl

/-- A number that is not negative reads as itself. -/
theorem readNumber_decimal (name : String) {n : Int64} (h : 0 ≤ n) :
    readNumber name (decimal n) = .ok n := by
  have hnonneg : 0 ≤ n.toInt := by
    rw [Int64.le_iff_toInt_le, Int64.toInt_zero] at h
    exact h
  have hcast : (n.toInt.toNat : Int) = n.toInt := Int.toNat_of_nonneg hnonneg
  have hle : (n.toInt.toNat : Int) ≤ Int64.maxValue.toInt := hcast ▸ n.toInt_le
  rw [readNumber, decimal_of_nonneg h, Text.trim_toString, Text.readInteger_toString hle]
  change Except.ok (Int64.ofInt n.toInt.toNat) = _
  rw [hcast, Int64.ofInt_toInt]

/-- The parameters written for a valid window read as that window. -/
theorem ofParams_decimal {w : Window} (h : w.Valid) :
    ofParams (some (decimal w.limit)) (some (decimal w.offset)) = .ok w := by
  have hlimit : numberOr defaultLimit "limit" (some (decimal w.limit)) = .ok w.limit := by
    rw [numberOr, readNumber_decimal _ (Int64.le_of_lt h.limit_pos)]
  have hoffset : numberOr 0 "offset" (some (decimal w.offset)) = .ok w.offset := by
    rw [numberOr, readNumber_decimal _ h.offset_nonneg]
  rw [ofParams_eq_ok_iff]
  exact ⟨hlimit, hoffset, h⟩

/-- A window shows some of the rows, in their order. -/
theorem slice_sublist {α : Type} (w : Window) (rows : List α) :
    (w.slice rows).Sublist rows := by
  have hrest : (if w.offset < 0 then [] else rows.drop w.offset.toInt.toNat).Sublist rows := by
    split
    · exact List.nil_sublist rows
    · exact List.drop_sublist _ rows
  unfold slice
  dsimp only
  split
  · exact hrest
  · exact (List.take_sublist _ _).trans hrest

/-- A valid window shows the rows from its offset on, as many as its limit allows. -/
theorem slice_eq {α : Type} {w : Window} (h : w.Valid) (rows : List α) :
    w.slice rows = (rows.drop w.start).take w.size := by
  have hlimit : ¬w.limit < 0 := Int64.not_lt.2 (Int64.le_of_lt h.limit_pos)
  have hoffset : ¬w.offset < 0 := Int64.not_lt.2 h.offset_nonneg
  unfold slice
  rw [if_neg hoffset]
  exact if_neg hlimit

/-- An integer as a 64-bit number, if it fits. -/
def fit? (n : Int) : Option Int64 :=
  if Int64.minValue.toInt ≤ n ∧ n ≤ Int64.maxValue.toInt then some (Int64.ofInt n) else none

/-- What fits stays what it is. -/
theorem fit?_eq_some_iff {n : Int} {a : Int64} : fit? n = some a ↔ a.toInt = n := by
  have hmin := Int64.toInt_minValue
  have hmax := Int64.toInt_maxValue
  rw [fit?]
  split
  · next hfits =>
    have hexact : (Int64.ofInt n).toInt = n := Int64.toInt_ofInt_of_le (by omega) (by omega)
    rw [Option.some_inj, ← Int64.toInt_inj, hexact, eq_comm]
  · next hfits =>
    have hlow := a.le_toInt
    have hhigh := a.toInt_lt
    exact iff_of_false nofun fun h ↦ hfits ⟨by omega, by omega⟩

/-- A sum is exact, and there is one wherever it fits. -/
theorem sum?_eq_some_iff {a b n : Int64} :
    sum? a b = some n ↔ n.toInt = a.toInt + b.toInt := fit?_eq_some_iff

/-- The next page of a window starts where the window ends, and there is one exactly where that
lies before the total. -/
theorem nextOffset?_eq_some_iff {w : Window} {total next : Int64} :
    w.nextOffset? total = some next ↔
      next.toInt = w.offset.toInt + w.limit.toInt ∧ next.toInt < total.toInt := by
  rw [nextOffset?, Option.filter_eq_some_iff, decide_eq_true_eq, Int64.lt_iff_toInt_lt,
    sum?_eq_some_iff]

/-- There is no next page exactly where the window reaches the total. -/
theorem nextOffset?_eq_none_iff {w : Window} (h : w.Valid) {total : Int64} :
    w.nextOffset? total = none ↔ total.toInt ≤ w.offset.toInt + w.limit.toInt := by
  obtain ⟨hlimit, hoffset⟩ := valid_iff.1 h
  have htotal := total.toInt_lt
  constructor
  · intro hnone
    apply Int.not_lt.1
    intro hlt
    have hexact : (Int64.ofInt (w.offset.toInt + w.limit.toInt)).toInt =
        w.offset.toInt + w.limit.toInt := Int64.toInt_ofInt_of_le (by omega) (by omega)
    have hbelow : (Int64.ofInt (w.offset.toInt + w.limit.toInt)).toInt < total.toInt := by
      omega
    have hsome := nextOffset?_eq_some_iff.2 ⟨hexact, hbelow⟩
    rw [hnone] at hsome
    cases hsome
  · intro hle
    cases hnext : w.nextOffset? total with
    | none => rfl
    | some next =>
      have := nextOffset?_eq_some_iff.1 hnext
      omega

/-- A number of rows that fits stays what it is. -/
theorem toInt_ofNat_of_le {n : Nat} (h : (n : Int) ≤ Int64.maxValue.toInt) :
    (Int64.ofNat n).toInt = n := by
  rw [Int64.toInt_maxValue] at h
  exact Int64.toInt_ofNat_of_lt (by omega)

/-- There is no next page exactly where the window reaches the number of rows. -/
theorem nextOffset?_ofNat_eq_none_iff {w : Window} (h : w.Valid) {total : Nat}
    (htotal : (total : Int) ≤ Int64.maxValue.toInt) :
    w.nextOffset? (Int64.ofNat total) = none ↔ total ≤ w.start + w.size := by
  obtain ⟨hlimit, hoffset⟩ := valid_iff.1 h
  rw [nextOffset?_eq_none_iff h, toInt_ofNat_of_le htotal]
  unfold start size
  omega

/-- The next page has a valid window, which starts where this one ends. -/
theorem valid_of_nextOffset?_ofNat {w : Window} (h : w.Valid) {total : Nat}
    (htotal : (total : Int) ≤ Int64.maxValue.toInt) {next : Int64}
    (hnext : w.nextOffset? (Int64.ofNat total) = some next) :
    (Window.mk w.limit next).Valid ∧ (Window.mk w.limit next).start = w.start + w.size ∧
      w.start + w.size < total := by
  obtain ⟨hlimit, hoffset⟩ := valid_iff.1 h
  rw [nextOffset?_eq_some_iff, toInt_ofNat_of_le htotal] at hnext
  have hnonneg : 0 ≤ next := by
    rw [Int64.le_iff_toInt_le, Int64.toInt_zero]
    omega
  unfold start size
  dsimp only
  exact ⟨⟨h.limit_pos, hnonneg⟩, by omega, by omega⟩

/-- How many whole pages lie before the last row. -/
theorem toInt_pages {w : Window} (h : w.Valid) {total : Int64} (htotal : 0 < total) :
    (total - 1).toInt = total.toInt - 1 ∧
      ((total - 1) / w.limit).toInt = (total.toInt - 1) / w.limit.toInt := by
  obtain ⟨hlimit, -⟩ := valid_iff.1 h
  rw [Int64.lt_iff_toInt_lt, Int64.toInt_zero] at htotal
  have hone : (1 : Int64) ≤ total := by
    rw [Int64.le_iff_toInt_le, Int64.toInt_one]
    omega
  have hbefore : (total - 1).toInt = total.toInt - 1 := by
    rw [Int64.toInt_sub_of_le total 1 (by decide) hone, Int64.toInt_one]
  have hdivisor : w.limit ≠ -1 := by
    intro heq
    rw [heq] at hlimit
    exact absurd hlimit (by decide)
  refine ⟨hbefore, ?_⟩
  rw [Int64.toInt_div_of_ne_right _ _ hdivisor, hbefore, Int.tdiv_eq_ediv_of_nonneg (by omega)]

/-- The last page starts at the greatest multiple of the limit below the total. -/
theorem toInt_lastOffset {w : Window} (h : w.Valid) {total : Int64} (htotal : 0 ≤ total) :
    (w.lastOffset total).toInt =
      if total = 0 then 0 else (total.toInt - 1) / w.limit.toInt * w.limit.toInt := by
  obtain ⟨hlimit, -⟩ := valid_iff.1 h
  by_cases hzero : total = 0
  · subst hzero
    rfl
  · have hpos : 0 < total := Int64.lt_of_le_of_ne htotal (Ne.symm hzero)
    rw [lastOffset, if_neg (Int64.not_le.2 hpos), if_neg hzero, Int64.toInt_mul,
      (toInt_pages h hpos).2]
    rw [Int64.lt_iff_toInt_lt, Int64.toInt_zero] at hpos
    have hmultiple : 0 ≤ (total.toInt - 1) / w.limit.toInt * w.limit.toInt :=
      Int.mul_nonneg (Int.ediv_nonneg (by omega) (by omega)) (by omega)
    have hbelow : (total.toInt - 1) / w.limit.toInt * w.limit.toInt ≤ total.toInt - 1 :=
      Int.ediv_mul_le _ (by omega)
    have hfits := total.toInt_lt
    exact Int.bmod_eq_of_le (by omega) (by omega)

/-- The window of the last page is valid. -/
theorem lastOffset_nonneg {w : Window} (h : w.Valid) {total : Int64} (htotal : 0 ≤ total) :
    0 ≤ w.lastOffset total := by
  obtain ⟨hlimit, -⟩ := valid_iff.1 h
  rw [Int64.le_iff_toInt_le, Int64.toInt_zero, toInt_lastOffset h htotal]
  rw [Int64.le_iff_toInt_le, Int64.toInt_zero] at htotal
  split
  · exact Int.le_refl 0
  · next hzero =>
    rw [← Int64.toInt_inj, Int64.toInt_zero] at hzero
    exact Int.mul_nonneg (Int.ediv_nonneg (by omega) (by omega)) (by omega)

/-- The difference of offset and limit is exact. -/
theorem toInt_difference {w : Window} (h : w.Valid) :
    (difference w.offset w.limit).toInt = w.offset.toInt - w.limit.toInt := by
  obtain ⟨hlimit, hoffset⟩ := valid_iff.1 h
  have hlow := w.limit.toInt_lt
  have hhigh := w.offset.toInt_lt
  have hmin := Int64.toInt_minValue
  have hmax := Int64.toInt_maxValue
  rw [difference, Int64.toInt_ofInt_of_le (by omega) (by omega)]
  omega

/-- The previous page of a window starts a limit before it, but not before the first row, and there
is one exactly where rows lie before the window. -/
theorem previousOffset?_eq_some_iff {w : Window} (h : w.Valid) {previous : Int64} :
    w.previousOffset? = some previous ↔
      0 < w.offset.toInt ∧ previous.toInt = max (w.offset.toInt - w.limit.toInt) 0 := by
  have hexact := toInt_difference h
  have hbounded : (max (difference w.offset w.limit) 0).toInt =
      max (w.offset.toInt - w.limit.toInt) 0 := by
    change (if difference w.offset w.limit ≤ 0 then 0 else difference w.offset w.limit).toInt = _
    rw [← hexact]
    split
    · next hle =>
      rw [Int64.le_iff_toInt_le, Int64.toInt_zero] at hle
      rw [Int64.toInt_zero, Int.max_eq_right hle]
    · next hlt =>
      rw [Int64.le_iff_toInt_le, Int64.toInt_zero, Int.not_le] at hlt
      rw [Int.max_eq_left (Int.le_of_lt hlt)]
  have hpositive : 0 < w.offset ↔ 0 < w.offset.toInt := by
    rw [Int64.lt_iff_toInt_lt, Int64.toInt_zero]
  rw [previousOffset?, Option.ite_none_right_eq_some, hpositive, Option.some_inj,
    ← Int64.toInt_inj, hbounded, eq_comm (a := previous.toInt)]

end Window

end PlaybookRuns.Query
