import PlaybookRuns.Proofs.Checked
import PlaybookRuns.Sql.Store

/-!
# Sessions

Which statements the store in a database issues to keep a run, and what becomes of a listing whose
statements all succeed. Main statements: the statements are those of one transaction, in order, up
to the first that fails; and a listing comes out whole, or is refused for the first status among its
rows that is none of those which are stored.
-/

namespace PlaybookRuns.Sql

namespace Session

variable {σ : Type}

/-! ## Statements issued -/

/-- A statement, and what a session answered. -/
abbrev Answered := Statement × Except StoreError (List Row)

/-- A session that also keeps the statements it is given, with its answers, in order. -/
def recorded (session : Session σ) : Session (σ × List Answered) := fun s (state, issued) ↦
  let (answer, state) := session s state
  (answer, state, issued ++ [(s, answer)])

/-- Which of some statements are issued with which answers, and what comes of it: all up to the
first that fails. -/
inductive Issues : List Statement → List Answered → Except StoreError Unit → Prop where
  | all : Issues [] [] (.ok ())
  | failed (s : Statement) (rest : List Statement) (e : StoreError) :
    Issues (s :: rest) [(s, .error e)] (.error e)
  | executed (s : Statement) (rows : List Row) {rest : List Statement} {issued : List Answered}
    {answer : Except StoreError Unit} :
    Issues rest issued answer → Issues (s :: rest) ((s, .ok rows) :: issued) answer

/-- Statements are issued in order, and whether they are recorded makes no difference. -/
theorem executeAll_recorded (session : Session σ) (statements : List Statement) (state : σ)
    (before : List Answered) :
    ∃ issued, Issues statements issued (session.executeAll statements state).1 ∧
      session.recorded.executeAll statements (state, before) =
        ((session.executeAll statements state).1, (session.executeAll statements state).2,
          before ++ issued) := by
  induction statements generalizing state before with
  | nil => exact ⟨[], .all, by rw [List.append_nil]; rfl⟩
  | cons s statements ih =>
    simp only [executeAll, recorded]
    cases session s state with
    | mk answer next =>
      cases answer with
      | error e => exact ⟨[(s, .error e)], .failed s statements e, rfl⟩
      | ok rows =>
        obtain ⟨issued, hissued, hexecuted⟩ := ih next (before ++ [(s, .ok rows)])
        refine ⟨(s, .ok rows) :: issued, .executed s rows hissued, ?_⟩
        rw [List.append_cons before (s, .ok rows) issued]
        exact hexecuted

/-! ## Listings -/

/-- Whether a session answers statements one after the other with these rows, and what it has become
then. -/
def Answers (session : Session σ) : σ → List (Statement × List Row) → σ → Prop
  | state, [], last => state = last
  | state, (s, rows) :: rest, last =>
    ∃ next, session s state = (.ok rows, next) ∧ session.Answers next rest last

variable {α ρ : Type}

/-- Whether all statements of a listing succeed, with this total and these rows. -/
def Fetches (session : Session σ) (count select : Statement) (read : Row → Except StoreError α)
    (state : σ) (total : Int64) (rows : List α) : Prop :=
  ∃ opened isolated counted fetched committed last,
    session.Answers state [(beginStatement, opened), (snapshotStatement, isolated),
      (count, counted), (select, fetched), (commitStatement, committed)] last ∧
    countOf counted = .ok total ∧ fetched.mapM read = .ok rows

/-- A listing whose statements all succeed is what is understood of its rows. -/
theorem listing_of_fetches {session : Session σ} {count select : Statement}
    {read : Row → Except StoreError α} {state : σ} {total : Int64} {rows : List α}
    (h : session.Fetches count select read state total rows)
    (understand : α → Except StoreError ρ) :
    (session.listing count select read understand state).1 =
      (rows.mapM understand).map fun items ↦ some ⟨items, total⟩ := by
  obtain ⟨opened, isolated, counted, fetched, committed, last, hanswers, hcounted, hfetched⟩ := h
  obtain ⟨s₁, h₁, s₂, h₂, s₃, h₃, s₄, h₄, s₅, h₅, -⟩ := hanswers
  simp only [listing, snapshot, executeAll, fetch, h₁, h₂, h₃, h₄, h₅, hcounted, hfetched]

end Session

/-! ## Stored statuses -/

/-- The names of the statuses that are stored. -/
def storedNames : List String := ["running", "success", "failure"]

/-- The first of some texts that names no stored status. -/
def firstUnknown? (raws : List String) : Option String := raws.find? (· ∉ storedNames)

/-- No text is unknown where each names a stored status. -/
theorem firstUnknown?_eq_none_iff {raws : List String} :
    firstUnknown? raws = none ↔ ∀ raw ∈ raws, raw ∈ storedNames := by
  simp [firstUnknown?]

/-- Of several texts the first one is looked at before the others. -/
theorem firstUnknown?_cons (raw : String) (raws : List String) :
    firstUnknown? (raw :: raws) = (firstUnknown? [raw]).or (firstUnknown? raws) := by
  rw [firstUnknown?, firstUnknown?, firstUnknown?, ← List.singleton_append, List.find?_append]

/-- The stored names are those of the stored statuses. -/
theorem mem_storedNames_iff {raw : String} :
    raw ∈ storedNames ↔ ∃ status : StoredStatus, raw = status.name := by
  constructor
  · intro h
    simp only [storedNames, List.mem_cons, List.not_mem_nil, or_false] at h
    rcases h with rfl | rfl | rfl
    · exact ⟨.running, rfl⟩
    · exact ⟨.success, rfl⟩
    · exact ⟨.failure, rfl⟩
  · rintro ⟨status, rfl⟩
    cases status <;> decide

/-- A text is refused exactly where it names no stored status. -/
theorem refusal?_statusOf (raw : String) :
    Checked.refusal? (statusOf raw) = (firstUnknown? [raw]).map .unknownStatus := by
  by_cases h : raw ∈ storedNames
  · obtain ⟨status, rfl⟩ := mem_storedNames_iff.1 h
    simp [statusOf, Checked.refusal?, firstUnknown?, h]
  · have hunknown : StoredStatus.ofName? raw = none := by
      rw [StoredStatus.ofName?, List.find?_eq_none]
      intro status _ hname
      exact h (mem_storedNames_iff.2 ⟨status, (of_decide_eq_true hname).symm⟩)
    simp [statusOf, Checked.refusal?, firstUnknown?, hunknown, h]

/-- That a listing of rows comes out whole where each of the statuses in its rows is stored, and is
refused for the first that is not otherwise. -/
structure ListsWhole {α ρ : Type} (statuses : α → List String)
    (understand : α → Except StoreError ρ) (rows : List α) (total : Int64)
    (answer : Except StoreError (Option (Listing ρ))) : Prop where
  listed_iff : (∃ listing, answer = .ok listing) ↔
    ∀ row ∈ rows, ∀ raw ∈ statuses row, raw ∈ storedNames
  listing_eq : ∀ listing, answer = .ok listing →
    ∃ items, rows.map understand = items.map .ok ∧ listing = some ⟨items, total⟩
  error_eq : ∀ e, answer = .error e →
    ∃ raw, firstUnknown? (rows.flatMap statuses) = some raw ∧ e = .unknownStatus raw

section

variable {α ρ : Type} {statuses : α → List String} {understand : α → Except StoreError ρ}

private theorem refusal?_mapM_statuses
    (h : ∀ row, Checked.refusal? (understand row) =
      (firstUnknown? (statuses row)).map .unknownStatus) (rows : List α) :
    Checked.refusal? (rows.mapM understand) =
      (firstUnknown? (rows.flatMap statuses)).map .unknownStatus := by
  rw [Checked.refusal?_mapM, firstUnknown?, List.find?_flatMap, List.map_findSome?]
  exact congrArg (rows.findSome? ·) (funext h)

/-- Rows of which each is refused for its first unknown status are listed whole or not at all. -/
theorem listsWhole_of_refusal
    (h : ∀ row, Checked.refusal? (understand row) =
      (firstUnknown? (statuses row)).map .unknownStatus) (rows : List α) (total : Int64) :
    ListsWhole statuses understand rows total
      ((rows.mapM understand).map fun items ↦ some ⟨items, total⟩) := by
  have hrefusal := refusal?_mapM_statuses h rows
  cases hmap : rows.mapM understand with
  | ok items =>
    rw [hmap] at hrefusal
    have hknown : firstUnknown? (rows.flatMap statuses) = none :=
      Option.map_eq_none_iff.1 hrefusal.symm
    rw [firstUnknown?_eq_none_iff, List.forall_mem_flatMap] at hknown
    refine ⟨iff_of_true ⟨_, rfl⟩ hknown, fun listing hlisting ↦ ?_, nofun⟩
    exact ⟨items, Checked.mapM_eq_ok_iff.1 hmap, (Except.ok.inj hlisting).symm⟩
  | error e =>
    rw [hmap] at hrefusal
    obtain ⟨raw, hraw, rfl⟩ := Option.map_eq_some_iff.1 hrefusal.symm
    refine ⟨iff_of_false nofun fun hall ↦ ?_, nofun, fun e' he' ↦ ?_⟩
    · rw [← List.forall_mem_flatMap, ← firstUnknown?_eq_none_iff, hraw] at hall
      cases hall
    · exact ⟨raw, hraw, (Except.error.inj he').symm⟩

end

end PlaybookRuns.Sql
