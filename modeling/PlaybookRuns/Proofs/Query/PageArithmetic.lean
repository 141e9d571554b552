import PlaybookRuns.Proofs.Query.Window

/-!
# Arithmetic of pages

The 64-bit arithmetic of windows and links against that of unbounded integers. Main statement: the
numbers of a request are accepted exactly where both texts write integers in range, and on accepted
windows no step overflows or divides by zero, so that links and rows are those at the exact offsets.
-/

namespace PlaybookRuns.Query

/-- The link to the page at an offset, where limit and offset are any integers. -/
def linkAt (path : String) (params : Params) (limit offset : Int) : String :=
  path ++ "?" ++ Text.Form.encode
    (carried params ++ [("limit", toString limit), ("offset", toString offset)])

/-- Whether a parameter, where it is given, writes a 64-bit integer that is not below a bound, white
space around it dropped. -/
def WritesFrom (low : Int) (raw : Option String) : Prop :=
  ∀ text ∈ raw, ∃ n, Text.WritesInteger (Text.trim text).toList n ∧ low ≤ n ∧
    n ≤ Int64.maxValue.toInt

/-- Whether a parameter writes an integer, white space around it dropped, or is left out and the
integer is the default. -/
def Denotes (default : Int) (raw : Option String) (n : Int) : Prop :=
  match raw with
  | none => n = default
  | some text => Text.WritesInteger (Text.trim text).toList n

namespace Window

/-! ## Reading -/

/-- A number is read from just the texts that write it. -/
theorem numberOr_eq_ok_iff {default n : Int64} {name : String} {raw : Option String} :
    numberOr default name raw = .ok n ↔ Denotes default.toInt raw n.toInt := by
  cases raw with
  | none => rw [numberOr, Denotes, Except.ok.injEq, ← Int64.toInt_inj, eq_comm]
  | some text =>
    have hmin := Int64.toInt_minValue
    have hmax := Int64.toInt_maxValue
    have hlow := n.le_toInt
    have hhigh := n.toInt_lt
    have hread (m : Int) : Text.readInteger Int64.minValue.toInt Int64.maxValue.toInt
          (Text.trim text) = .ok m ↔
        Text.WritesInteger (Text.trim text).toList m ∧ Int64.minValue.toInt ≤ m ∧
          m ≤ Int64.maxValue.toInt := Text.readInteger_eq_ok_iff (by omega) (by omega)
    rw [numberOr, Denotes, readNumber]
    cases hresult : Text.readInteger Int64.minValue.toInt Int64.maxValue.toInt
        (Text.trim text) with
    | ok m =>
      obtain ⟨hm, hbelow, habove⟩ := (hread m).1 hresult
      have hexact : (Int64.ofInt m).toInt = m := Int64.toInt_ofInt_of_le (by omega) (by omega)
      rw [Except.ok.injEq, ← Int64.toInt_inj, hexact]
      constructor
      · exact fun h ↦ h ▸ hm
      · intro hwritten
        have hsame := (hread n.toInt).2 ⟨hwritten, by omega, by omega⟩
        rw [hresult] at hsame
        exact Except.ok.inj hsame
    | error fault =>
      refine iff_of_false (fun hok ↦ ?_) fun hwritten ↦ ?_
      · cases hok
      · rw [(hread n.toInt).2 ⟨hwritten, by omega, by omega⟩] at hresult
        cases hresult

private theorem exists_numberOr_iff {default : Int64} {low : Int} (hlow : 0 ≤ low)
    (hdefault : low ≤ default.toInt) (name : String) (raw : Option String) :
    (∃ n, numberOr default name raw = .ok n ∧ low ≤ n.toInt) ↔ WritesFrom low raw := by
  simp only [numberOr_eq_ok_iff, WritesFrom, Denotes]
  cases raw with
  | none => exact iff_of_true ⟨default, rfl, hdefault⟩ nofun
  | some text =>
    simp only [Option.mem_some_iff, forall_eq', Int64.toInt_maxValue]
    constructor
    · rintro ⟨n, hwritten, hle⟩
      exact ⟨n.toInt, hwritten, hle, Int.le_sub_one_of_lt n.toInt_lt⟩
    · rintro ⟨n, hwritten, hle, hmax⟩
      have hexact : (Int64.ofInt n).toInt = n := Int64.toInt_ofInt_of_le (by omega) (by omega)
      exact ⟨Int64.ofInt n, hexact.symm ▸ hwritten, hexact.symm ▸ hle⟩

private theorem exists_ofParams_iff {limit offset : Option String} :
    (∃ w, ofParams limit offset = .ok w) ↔ WritesFrom 1 limit ∧ WritesFrom 0 offset := by
  have hlimit := exists_numberOr_iff (by decide) (by decide : 1 ≤ defaultLimit.toInt) "limit" limit
  have hoffset := exists_numberOr_iff (Int.le_refl 0) (by decide : 0 ≤ Int64.toInt 0) "offset"
    offset
  rw [← hlimit, ← hoffset]
  simp only [ofParams_eq_ok_iff, valid_iff]
  constructor
  · rintro ⟨w, hl, ho, hpos, hnonneg⟩
    exact ⟨⟨_, hl, hpos⟩, _, ho, hnonneg⟩
  · rintro ⟨⟨l, hl, hpos⟩, o, ho, hnonneg⟩
    exact ⟨⟨l, o⟩, hl, ho, hpos, hnonneg⟩

/-! ## Exactness -/

/-- The offset of the last page, if no step on the way to it leaves the 64-bit range or divides by
zero. -/
def checkedLastOffset? (w : Window) (total : Int64) : Option Int64 :=
  if total ≤ 0 then some 0
  else do
    let before ← fit? (total.toInt - 1)
    let pages ← if w.limit = 0 then none else fit? (before.toInt.tdiv w.limit.toInt)
    fit? (pages.toInt * w.limit.toInt)

/-- That a window cuts a listing with `total` rows, and its page is linked with others, as the
window would over unbounded integers. -/
structure Exact (w : Window) (total : Int64) : Prop where
  /-- No step towards the last page overflows or divides by zero. -/
  checkedLastOffset?_eq : w.checkedLastOffset? total = some (w.lastOffset total)
  /-- No step towards the previous page is held back at the ends of the 64-bit range. -/
  difference_eq : (difference w.offset w.limit).toInt = w.offset.toInt - w.limit.toInt
  limit_dvd_lastOffset : w.limit.toInt ∣ (w.lastOffset total).toInt
  /-- The last page is the one that shows the last row. -/
  lastOffset_of_pos : 0 < total.toInt → (w.lastOffset total).toInt < total.toInt ∧
    total.toInt ≤ (w.lastOffset total).toInt + w.limit.toInt
  lastOffset_of_zero : total.toInt = 0 → (w.lastOffset total).toInt = 0
  links_eq : ∀ path params, Links.of path params w total =
    { first := linkAt path params w.limit.toInt 0
      last := linkAt path params w.limit.toInt (w.lastOffset total).toInt
      next := if w.offset.toInt + w.limit.toInt < total.toInt then
          some (linkAt path params w.limit.toInt (w.offset.toInt + w.limit.toInt))
        else none
      previous := if 0 < w.offset.toInt then
          some (linkAt path params w.limit.toInt (max (w.offset.toInt - w.limit.toInt) 0))
        else none }
  length_slice : ∀ {α : Type} (rows : List α),
    ((w.slice rows).length : Int) = min w.limit.toInt (max 0 (rows.length - w.offset.toInt))
  /-- The rows shown are the segment from the offset on. -/
  getElem?_slice : ∀ {α : Type} (rows : List α) (i : Nat), i < (w.slice rows).length →
    (w.slice rows)[i]? = rows[w.offset.toInt.toNat + i]?

section Valid

variable {w : Window} (h : w.Valid)
include h

private theorem checkedLastOffset?_eq {total : Int64} (htotal : 0 ≤ total) :
    w.checkedLastOffset? total = some (w.lastOffset total) := by
  rw [checkedLastOffset?]
  by_cases hzero : total ≤ 0
  · rw [if_pos hzero, lastOffset, if_pos hzero]
  · have hpos := Int64.not_le.1 hzero
    obtain ⟨hlimit, -⟩ := valid_iff.1 h
    obtain ⟨hbefore, hpages⟩ := toInt_pages h hpos
    have hlast := toInt_lastOffset h htotal
    rw [if_neg (Int64.ne_of_lt hpos).symm, ← hpages] at hlast
    rw [Int64.lt_iff_toInt_lt, Int64.toInt_zero] at hpos
    have hdivisor : w.limit ≠ 0 := by
      intro heq
      rw [heq] at hlimit
      exact absurd hlimit (by decide)
    have hquotient : ((total - 1) / w.limit).toInt = (total - 1).toInt.tdiv w.limit.toInt := by
      rw [hpages, hbefore, Int.tdiv_eq_ediv_of_nonneg (by omega)]
    simp only [if_neg hzero, if_neg hdivisor, fit?_eq_some_iff.2 hbefore,
      fit?_eq_some_iff.2 hquotient, fit?_eq_some_iff.2 hlast, Option.bind_eq_bind, Option.bind_some]

private theorem lastOffset_spec {total : Int64} (htotal : 0 ≤ total) :
    w.limit.toInt ∣ (w.lastOffset total).toInt ∧
      (0 < total.toInt → (w.lastOffset total).toInt < total.toInt ∧
        total.toInt ≤ (w.lastOffset total).toInt + w.limit.toInt) ∧
      (total.toInt = 0 → (w.lastOffset total).toInt = 0) := by
  obtain ⟨hlimit, -⟩ := valid_iff.1 h
  have hlast := toInt_lastOffset h htotal
  split at hlast
  · next hzero =>
    subst hzero
    exact ⟨hlast ▸ Int.dvd_zero _, nofun, fun _ ↦ hlast⟩
  · next hzero =>
    rw [← Int64.toInt_inj, Int64.toInt_zero] at hzero
    rw [hlast]
    have hbelow : (total.toInt - 1) / w.limit.toInt * w.limit.toInt ≤ total.toInt - 1 :=
      Int.ediv_mul_le _ (by omega)
    have habove := Int.lt_ediv_add_one_mul_self (total.toInt - 1) hlimit
    rw [Int.add_mul, Int.one_mul] at habove
    exact ⟨Int.dvd_mul_left _ _, fun _ ↦ ⟨by omega, by omega⟩, fun heq ↦ absurd heq hzero⟩

private theorem map_nextOffset? (path : String) (params : Params) (total : Int64) :
    (w.nextOffset? total).map (linkTo path params w.limit) =
      if w.offset.toInt + w.limit.toInt < total.toInt then
        some (linkAt path params w.limit.toInt (w.offset.toInt + w.limit.toInt))
      else none := by
  cases hoffset : w.nextOffset? total with
  | none =>
    have hend := (nextOffset?_eq_none_iff h).1 hoffset
    rw [if_neg (Int.not_lt.2 hend)]
    rfl
  | some next =>
    obtain ⟨hexact, hbelow⟩ := nextOffset?_eq_some_iff.1 hoffset
    rw [← hexact, if_pos hbelow]
    rfl

private theorem map_previousOffset? (path : String) (params : Params) :
    w.previousOffset?.map (linkTo path params w.limit) =
      if 0 < w.offset.toInt then
        some (linkAt path params w.limit.toInt (max (w.offset.toInt - w.limit.toInt) 0))
      else none := by
  cases hoffset : w.previousOffset? with
  | none =>
    have hstart : ¬0 < w.offset := by
      intro hpos
      rw [previousOffset?, if_pos hpos] at hoffset
      cases hoffset
    rw [Int64.lt_iff_toInt_lt, Int64.toInt_zero] at hstart
    rw [if_neg hstart]
    rfl
  | some previous =>
    obtain ⟨hpos, hexact⟩ := (previousOffset?_eq_some_iff h).1 hoffset
    rw [← hexact, if_pos hpos]
    rfl

private theorem links_eq (path : String) (params : Params) (total : Int64) :
    Links.of path params w total =
      { first := linkAt path params w.limit.toInt 0
        last := linkAt path params w.limit.toInt (w.lastOffset total).toInt
        next := if w.offset.toInt + w.limit.toInt < total.toInt then
            some (linkAt path params w.limit.toInt (w.offset.toInt + w.limit.toInt))
          else none
        previous := if 0 < w.offset.toInt then
            some (linkAt path params w.limit.toInt (max (w.offset.toInt - w.limit.toInt) 0))
          else none } := by
  rw [Links.of, map_nextOffset? h, map_previousOffset? h]
  rfl

/-- A valid window cuts every listing as it would over unbounded integers. -/
theorem exact_of_valid {total : Int64} (htotal : 0 ≤ total) : w.Exact total := by
  obtain ⟨hdvd, hpos, hzero⟩ := lastOffset_spec h htotal
  obtain ⟨hlimit, hoffset⟩ := valid_iff.1 h
  refine ⟨checkedLastOffset?_eq h htotal, toInt_difference h, hdvd, hpos, hzero,
    fun path params ↦ links_eq h path params total, fun rows ↦ ?_, fun rows i hi ↦ ?_⟩
  · rw [slice_eq h, List.length_take, List.length_drop, start, size]
    omega
  · rw [slice_eq h, List.length_take] at hi
    rw [slice_eq h, List.getElem?_take_of_lt (by omega), List.getElem?_drop]
    rfl

end Valid

/-- The texts of a limit and an offset are accepted exactly where each that is given writes a 64-bit
integer, the limit from one and the offset from zero on. The window is then the one they denote, and
its pages are those of unbounded integers, whatever the total is. -/
theorem ofParams_exact (limit offset : Option String) :
    ((∃ w, ofParams limit offset = .ok w) ↔ WritesFrom 1 limit ∧ WritesFrom 0 offset) ∧
      ∀ w, ofParams limit offset = .ok w →
        Denotes 50 limit w.limit.toInt ∧ Denotes 0 offset w.offset.toInt ∧
          ∀ total, 0 ≤ total → w.Exact total := by
  refine ⟨exists_ofParams_iff, fun w hw ↦ ?_⟩
  obtain ⟨hlimit, hoffset, hvalid⟩ := ofParams_eq_ok_iff.1 hw
  exact ⟨numberOr_eq_ok_iff.1 hlimit, numberOr_eq_ok_iff.1 hoffset,
    fun total htotal ↦ exact_of_valid hvalid htotal⟩

/-- The window at the last offset of all has no next page, and the page before it starts two rows
earlier. -/
theorem ofParams_exact_maxValue :
    ofParams (some "+2") (some " 9223372036854775807") = .ok ⟨2, 9223372036854775807⟩ ∧
      (Window.mk 2 9223372036854775807).Exact 5 ∧
      (Links.of "/runs" [] ⟨2, 9223372036854775807⟩ 5).next = none ∧
      (Links.of "/runs" [] ⟨2, 9223372036854775807⟩ 5).previous =
        some (linkAt "/runs" [] 2 9223372036854775805) := by
  have hread : ofParams (some "+2") (some " 9223372036854775807") =
      .ok ⟨2, 9223372036854775807⟩ := rfl
  have hexact : (Window.mk 2 9223372036854775807).Exact 5 :=
    ((ofParams_exact _ _).2 _ hread).2.2 5 (by decide)
  exact ⟨hread, hexact, by rw [hexact.links_eq]; rfl, by rw [hexact.links_eq]; rfl⟩

end Window

end PlaybookRuns.Query
