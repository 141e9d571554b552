import PlaybookRuns.Proofs.Checked
import PlaybookRuns.Query.Filter

/-!
# Compiled filters

What predicates a tree of parameters is compiled into, and when a filter comes to a result. Main
statements: the operands of every compiled predicate are of the kind of its column, those of run
listings ask for nothing of a host, and a filter comes to no result exactly where it meets the
status of something that still runs and has no deadline.
-/

namespace PlaybookRuns.Query

open PlaybookRuns.Time (Instant)

/-! ## Evaluation -/

/-- A predicate comes to no result exactly where it is about the status of something that still
runs and has no deadline. -/
theorem Predicate.holds?_eq_none_iff {p : Predicate} {run : Run} {host : Option Host}
    {now : Instant} :
    p.holds? run host now = none ↔
      ∃ subject shown, p = .status subject shown ∧
        subject.stored? run host = some .running ∧
        DisplayedStatus.deadline? run.createdAt run.timeout = none := by
  cases p with
  | anyOf column values => simp [holds?]
  | label key value => simp [holds?]
  | status subject shown =>
    simp only [holds?, Predicate.status.injEq]
    cases hstored : subject.stored? run host with
    | none => simp [hstored]
    | some stored =>
      simp only [Option.map_eq_none_iff, DisplayedStatus.derive?_eq_none_iff]
      constructor
      · rintro ⟨rfl, hdeadline⟩
        exact ⟨subject, shown, ⟨rfl, rfl⟩, hstored, hdeadline⟩
      · rintro ⟨_, _, ⟨rfl, rfl⟩, hrunning, hdeadline⟩
        exact ⟨Option.some.inj (hstored.symm.trans hrunning), hdeadline⟩

/-- Whether a predicate is about a status. -/
def Predicate.IsStatus : Predicate → Prop
  | status _ _ => True
  | anyOf _ _ | label _ _ => False

/-- What asks for no status is decided on every row, at all times alike. -/
theorem Predicate.exists_holds?_eq {p : Predicate} (h : ¬p.IsStatus) (run : Run)
    (host : Option Host) : ∃ b, ∀ now, p.holds? run host now = some b := by
  cases p with
  | anyOf column values => exact ⟨_, fun _ ↦ rfl⟩
  | status subject shown => exact absurd trivial h
  | label key value => exact ⟨_, fun _ ↦ rfl⟩

section AllM

variable {α : Type} {f : α → Option Bool}

private theorem allM_cons (a : α) (as : List α) :
    (a :: as).allM f = (f a).bind fun b ↦ if b then as.allM f else some false := by
  rw [List.allM]
  cases f a with
  | none => rfl
  | some b => cases b <;> rfl

private theorem allM_append (as bs : List α) :
    (as ++ bs).allM f = (as.allM f).bind fun b ↦ if b then bs.allM f else some false := by
  induction as with
  | nil => rfl
  | cons a as ih =>
    rw [List.cons_append, allM_cons, allM_cons, ih]
    cases f a with
    | none => rfl
    | some b => cases b <;> rfl

/-- The tests of lists one after another are those of each list, up to the first list of which they
do not all succeed. -/
theorem allM_flatten (parts : List (List α)) :
    parts.flatten.allM f = parts.allM (·.allM f) := by
  induction parts with
  | nil => rfl
  | cons part parts ih => rw [List.flatten_cons, allM_append, allM_cons, ih]

/-- Every test of a list succeeds exactly when each does. -/
theorem allM_eq_some_true_iff {as : List α} :
    as.allM f = some true ↔ ∀ a ∈ as, f a = some true := by
  induction as with
  | nil => simp [List.allM]
  | cons a as ih =>
    rw [allM_cons, List.forall_mem_cons, ← ih]
    cases f a with
    | none => simp
    | some b => cases b <;> simp

private theorem allM_cons_of_true {a : α} (h : f a = some true) (as : List α) :
    (a :: as).allM f = as.allM f := by
  rw [allM_cons, h]
  rfl

private theorem allM_cons_of_ne {a : α} (h : f a ≠ some true) (as : List α) :
    (a :: as).allM f = f a := by
  rw [allM_cons]
  cases hfa : f a with
  | none => rfl
  | some b =>
    cases b with
    | false => rfl
    | true => exact absurd hfa h

/-- The first test of a list that does not succeed decides. -/
theorem allM_eq_iff {as : List α} {result : Option Bool} (hresult : result ≠ some true) :
    as.allM f = result ↔
      ∃ before a after, as = before ++ a :: after ∧ (∀ b ∈ before, f b = some true) ∧
        f a = result := by
  constructor
  · intro h
    induction as with
    | nil => exact absurd h.symm hresult
    | cons a as ih =>
      by_cases ha : f a = some true
      · rw [allM_cons_of_true ha] at h
        obtain ⟨before, b, after, rfl, hbefore, hb⟩ := ih h
        exact ⟨a :: before, b, after, rfl, List.forall_mem_cons.2 ⟨ha, hbefore⟩, hb⟩
      · exact ⟨[], a, as, rfl, by simp, (allM_cons_of_ne ha as).symm.trans h⟩
  · rintro ⟨before, a, after, rfl, hbefore, ha⟩
    induction before with
    | nil => exact (allM_cons_of_ne (ha ▸ hresult) after).trans ha
    | cons b before ih =>
      obtain ⟨hb, hrest⟩ := List.forall_mem_cons.1 hbefore
      exact (allM_cons_of_true hb _).trans (ih hrest)

end AllM

namespace Filter

variable {f : Filter} {run : Run} {host : Option Host} {now : Instant}

/-- A filter holds exactly where each of its predicates does. -/
theorem holds?_eq_some_true_iff :
    f.holds? run host now = some true ↔
      ∀ p ∈ f.predicates, p.holds? run host now = some true := allM_eq_some_true_iff

/-- A filter does not hold exactly where a predicate does not, and those before it do. -/
theorem holds?_eq_some_false_iff :
    f.holds? run host now = some false ↔
      ∃ before p after, f.predicates = before ++ p :: after ∧
        (∀ q ∈ before, q.holds? run host now = some true) ∧
        p.holds? run host now = some false := allM_eq_iff (by decide)

/-- Whether a predicate of a filter is about the status of something that still runs and has no
deadline, and the predicates before it hold. -/
def Undecided (f : Filter) (run : Run) (host : Option Host) (now : Instant) : Prop :=
  ∃ before subject shown after, f.predicates = before ++ .status subject shown :: after ∧
    (∀ q ∈ before, q.holds? run host now = some true) ∧
    subject.stored? run host = some .running ∧
    DisplayedStatus.deadline? run.createdAt run.timeout = none

/-- A filter comes to no result exactly where it meets such a predicate. -/
theorem holds?_eq_none_iff : f.holds? run host now = none ↔ f.Undecided run host now := by
  refine (allM_eq_iff (by decide)).trans ⟨?_, ?_⟩
  · rintro ⟨before, p, after, hsplit, hbefore, hp⟩
    obtain ⟨subject, shown, rfl, hstored, hdeadline⟩ := Predicate.holds?_eq_none_iff.1 hp
    exact ⟨before, subject, shown, after, hsplit, hbefore, hstored, hdeadline⟩
  · rintro ⟨before, subject, shown, after, hsplit, hbefore, hstored, hdeadline⟩
    exact ⟨before, _, after, hsplit, hbefore,
      Predicate.holds?_eq_none_iff.2 ⟨subject, shown, rfl, hstored, hdeadline⟩⟩

/-- A predicate after all others is asked only where those hold. -/
theorem holds?_append {b : Bool} (h : f.holds? run host now = some b) (p : Predicate) :
    (Filter.mk (f.predicates ++ [p])).holds? run host now =
      if b then p.holds? run host now else some false := by
  rw [holds?] at h ⊢
  rw [allM_append, h, Option.bind_some, allM_cons]
  cases p.holds? run host now with
  | none => rfl
  | some b' => cases b' <;> rfl

/-- A filter comes to a result exactly where it is not undecided. -/
theorem holds?_isSome_iff : (f.holds? run host now).isSome ↔ ¬f.Undecided run host now := by
  rw [← holds?_eq_none_iff, Option.isSome_iff_ne_none]

/-- A filter that asks for no status decides on every row, at all times alike. -/
theorem exists_holds?_eq (h : ∀ p ∈ f.predicates, ¬p.IsStatus) (run : Run) (host : Option Host) :
    ∃ b, ∀ now, f.holds? run host now = some b := by
  obtain ⟨predicates⟩ := f
  induction predicates with
  | nil => exact ⟨true, fun _ ↦ rfl⟩
  | cons p predicates ih =>
    obtain ⟨hp, hrest⟩ := List.forall_mem_cons.1 h
    obtain ⟨b, hb⟩ := Predicate.exists_holds?_eq hp run host
    obtain ⟨b', hb'⟩ := ih hrest
    refine ⟨b && b', fun now ↦ ?_⟩
    have hnow : predicates.allM (·.holds? run host now) = some b' := hb' now
    rw [holds?, allM_cons, hb now, Option.bind_some, hnow]
    cases b <;> rfl

end Filter

/-- A run of the tenant `org` that was created at an instant with a timeout of a minute, and still
runs. -/
def minuteRun (id : Nat) (created : Instant) : Run where
  id := .ofNat id
  orgId := "org"
  recipient := .ofNat 1
  correlationId := .ofNat 2
  url := "https://example.com/playbook"
  timeout := 60
  status := .running
  labels := ∅
  service := "remediations"
  createdAt := created
  updatedAt := created
  satelliteId := none
  satelliteOrgId := none
  name := none
  webConsoleUrl := none

/-- The start of the last minute that the calendar covers. -/
def lastMinute : Instant := ⟨8210266876740, 0⟩

example : (Predicate.status .run [.running]).holds? (minuteRun 3 lastMinute) none ⟨0, 0⟩ = none := by
  decide +kernel

/-! ## Compilation -/

/-- Whether an operand is an identifier. -/
def Operand.isUuid : Operand → Bool
  | uuid _ => true
  | text _ => false

namespace Predicate

/-- Whether the operands of a predicate are of the kind of its column. -/
def WellTyped : Predicate → Prop
  | anyOf column values => ∀ v ∈ values, v.isUuid = column.isUuid
  | status _ _ | label _ _ => True

/-- Whether a predicate asks for nothing of a host. -/
def OfRun : Predicate → Prop
  | anyOf column _ => column = .runId ∨ column = .recipient ∨ column = .service
  | status subject _ => subject = .run
  | label _ _ => True

/-- Whether a predicate asks for what a slot stands for. -/
def Asks : Slot → Predicate → Prop
  | .column c, anyOf column _ => column = c
  | .status s, status subject _ => subject = s
  | .labels, label _ _ => True
  | _, _ => False

end Predicate

private theorem isUuid_of_operand {column : Column} {path raw : String} {value : Operand}
    (h : operand column path raw = .ok value) : value.isUuid = column.isUuid := by
  rw [operand] at h
  split at h
  · next hc =>
    split at h
    · rw [← Except.ok.inj h, hc]
      rfl
    · cases h
  · next hc =>
    rw [← Except.ok.inj h, Bool.eq_false_iff.2 hc]
    rfl

/-- What a slot is compiled into. -/
theorem asks_of_slotPredicates {path : String} {node : Node} {slot : Slot}
    {ps : List Predicate} (h : slotPredicates path node slot = .ok ps) :
    ∀ p ∈ ps, p.WellTyped ∧ p.Asks slot := by
  intro p hp
  cases slot with
  | column c =>
    obtain ⟨raws, -, hrest⟩ := Checked.bind_eq_ok_iff.1 h
    obtain ⟨values, hvalues, hpure⟩ := Checked.bind_eq_ok_iff.1 hrest
    obtain rfl := Checked.pure_eq_ok_iff.1 hpure
    obtain rfl := List.mem_singleton.1 hp
    refine ⟨fun v hv ↦ ?_, rfl⟩
    obtain ⟨raw, -, hraw⟩ := (Checked.mem_mapM_iff hvalues).1 hv
    exact isUuid_of_operand hraw
  | status s =>
    obtain ⟨raws, -, hrest⟩ := Checked.bind_eq_ok_iff.1 h
    obtain ⟨shown, -, hpure⟩ := Checked.bind_eq_ok_iff.1 hrest
    obtain rfl := Checked.pure_eq_ok_iff.1 hpure
    obtain rfl := List.mem_singleton.1 hp
    exact ⟨trivial, rfl⟩
  | labels =>
    obtain ⟨children, -, hrest⟩ := Checked.bind_eq_ok_iff.1 h
    obtain ⟨⟨key, leaf⟩, -, part, hlabel, hp⟩ := (Checked.mem_flatten_iff hrest).1 hp
    obtain ⟨values, -, hpure⟩ := Checked.bind_eq_ok_iff.1 hlabel
    obtain rfl := Checked.pure_eq_ok_iff.1 hpure
    obtain ⟨value, -, rfl⟩ := List.mem_map.1 hp
    exact ⟨trivial, trivial⟩
  | run => cases h

private theorem ofRun_of_asks {scope : Scope} (hscope : scope ≠ .host) {key : String} {slot : Slot}
    (hslot : scope.slot? key = some slot) {p : Predicate} (hp : p.Asks slot) : p.OfRun := by
  have hcases : slot = .column .runId ∨ slot = .column .recipient ∨ slot = .column .service ∨
      slot = .status .run ∨ slot = .labels := by
    unfold Scope.slot? at hslot
    split at hslot
    · exact absurd rfl hscope
    · split at hslot <;> simp_all
  cases p with
  | anyOf column values =>
    rcases hcases with rfl | rfl | rfl | rfl | rfl
    · exact .inl hp
    · exact .inr (.inl hp)
    · exact .inr (.inr hp)
    · exact hp.elim
    · exact hp.elim
  | status subject shown =>
    rcases hcases with rfl | rfl | rfl | rfl | rfl
    · exact hp.elim
    · exact hp.elim
    · exact hp.elim
    · exact hp
    · exact hp.elim
  | label key value => trivial

/-- What a tree of filters in one scope is compiled into. -/
theorem asks_of_flatPredicates {scope : Scope} {above : Option String} {tree : Tree}
    {ps : List Predicate} (h : flatPredicates scope above tree = .ok ps) :
    ∀ p ∈ ps, p.WellTyped ∧ ∃ key slot, scope.slot? key = some slot ∧ p.Asks slot := by
  intro p hp
  obtain ⟨⟨key, node⟩, -, part, hslots, hp⟩ := (Checked.mem_flatten_iff h).1 hp
  dsimp only at hslots
  split at hslots
  · next slot hslot =>
    obtain ⟨htyped, hasks⟩ := asks_of_slotPredicates hslots p hp
    exact ⟨htyped, key, slot, hslot, hasks⟩
  · cases hslots

private theorem wellTyped_of_flatPredicates {scope : Scope} (hscope : scope ≠ .host)
    {above : Option String} {tree : Tree} {ps : List Predicate}
    (h : flatPredicates scope above tree = .ok ps) : ∀ p ∈ ps, p.WellTyped ∧ p.OfRun := by
  intro p hp
  obtain ⟨htyped, key, slot, hslot, hasks⟩ := asks_of_flatPredicates h p hp
  exact ⟨htyped, ofRun_of_asks hscope hslot hasks⟩

private theorem wellTyped_of_hostPredicates {tree : Tree} {ps : List Predicate}
    (h : hostPredicates tree = .ok ps) : ∀ p ∈ ps, p.WellTyped := by
  intro p hp
  obtain ⟨⟨key, node⟩, -, part, hslots, hp⟩ := (Checked.mem_flatten_iff h).1 hp
  dsimp only at hslots
  split at hslots
  · obtain ⟨children, -, hflat⟩ := Checked.bind_eq_ok_iff.1 hslots
    exact (wellTyped_of_flatPredicates (by decide) hflat p hp).1
  · exact (asks_of_slotPredicates hslots p hp).1
  · cases hslots

/-- The operands of every compiled predicate are of the kind of its column. -/
theorem Filter.wellTyped_of_ofTree {tree : Tree} {resource : Resource} {f : Filter}
    (h : Filter.ofTree tree resource = .ok f) : ∀ p ∈ f.predicates, p.WellTyped := by
  cases resource with
  | run =>
    obtain ⟨ps, hps, rfl⟩ := Checked.map_eq_ok_iff.1 h
    exact fun p hp ↦ (wellTyped_of_flatPredicates (by decide) hps p hp).1
  | runHost =>
    obtain ⟨ps, hps, rfl⟩ := Checked.map_eq_ok_iff.1 h
    exact wellTyped_of_hostPredicates hps

/-- The predicates of a run listing ask for nothing of a host. -/
theorem Filter.ofRun_of_ofTree {tree : Tree} {f : Filter}
    (h : Filter.ofTree tree .run = .ok f) : ∀ p ∈ f.predicates, p.OfRun := by
  obtain ⟨ps, hps, rfl⟩ := Checked.map_eq_ok_iff.1 h
  exact fun p hp ↦ (wellTyped_of_flatPredicates (by decide) hps p hp).2

/-- What a slot other than that of a status asks for is not about a status. -/
theorem not_isStatus_of_asks {slot : Slot} (hslot : ∀ s, slot ≠ .status s) {p : Predicate}
    (h : p.Asks slot) : ¬p.IsStatus := by
  cases p with
  | anyOf column values => exact id
  | label key value => exact id
  | status subject shown =>
    cases slot with
    | status s => exact absurd rfl (hslot s)
    | column c => exact h.elim
    | labels => exact h.elim
    | run => exact h.elim

/-- Every key of a scope comes before `status`, or is that of a status. -/
theorem slot?_cases {scope : Scope} {key : String} {slot : Slot}
    (h : scope.slot? key = some slot) :
    (key < "status" ∧ ∀ s, slot ≠ .status s) ∨
      key = "status" ∧ scope ≠ .runOfHost ∧ ∃ s, slot = .status s := by
  cases scope with
  | host =>
    simp only [Scope.slot?] at h
    split at h <;> cases h
    · exact .inr ⟨rfl, by decide, _, rfl⟩
    · exact .inl ⟨by decide, nofun⟩
    · exact .inl ⟨by decide, nofun⟩
    · exact .inl ⟨by decide, nofun⟩
  | run =>
    simp only [Scope.slot?] at h
    split at h <;> cases h
    · exact .inl ⟨by decide, nofun⟩
    · exact .inl ⟨by decide, nofun⟩
    · exact .inl ⟨by decide, nofun⟩
    · exact .inr ⟨rfl, by decide, _, rfl⟩
    · exact .inl ⟨by decide, nofun⟩
  | runOfHost =>
    simp only [Scope.slot?] at h
    split at h <;> cases h
    · exact .inl ⟨by decide, nofun⟩
    · exact .inl ⟨by decide, nofun⟩
    · exact .inl ⟨by decide, nofun⟩
    · exact .inl ⟨by decide, nofun⟩

/-- The filters of runs under those of hosts are not about a status. -/
theorem not_isStatus_of_runOfHost {above : Option String} {tree : Tree}
    {ps : List Predicate} (h : flatPredicates .runOfHost above tree = .ok ps) :
    ∀ p ∈ ps, ¬p.IsStatus := by
  intro p hp
  obtain ⟨-, key, slot, hslot, hasks⟩ := asks_of_flatPredicates h p hp
  rcases slot?_cases hslot with ⟨-, hother⟩ | ⟨-, hscope, -⟩
  · exact not_isStatus_of_asks hother hasks
  · exact absurd rfl hscope

/-! ## Nodes -/

/-- Values for a column are compiled into a choice among them. -/
theorem slotPredicates_column_leaf (path : String) (values : List String) (c : Column) :
    slotPredicates path (.leaf values) (.column c) =
      values.mapM (operand c path) >>= fun operands ↦ pure [.anyOf c operands] := rfl

/-- Values for a status are compiled into a choice among them, each once. -/
theorem slotPredicates_status_leaf (path : String) (values : List String) (subject : Subject) :
    slotPredicates path (.leaf values) (.status subject) =
      values.mapM (shownStatus path) >>= fun shown ↦ pure [.status subject shown.eraseDups] := rfl

/-- A text is read as the status whose name it is. -/
theorem shownStatus_eq_ok_iff {path raw : String} {shown : DisplayedStatus} :
    shownStatus path raw = .ok shown ↔ raw = shown.name := by
  rw [shownStatus, ← DisplayedStatus.ofName?_eq_some_iff]
  cases DisplayedStatus.ofName? raw <;> simp

/-! ## Entries -/

/-- The predicates of one label, one for each value. -/
def labelPart (path : String) : String × Node → Except QueryError (List Predicate)
  | (key, leaf) => do return (← leaf.values (joinPath (some path) key)).map (.label key)

/-- The values of one label are compiled into a predicate each. -/
theorem labelPart_eq_ok_iff {path key : String} {node : Node} {part : List Predicate} :
    labelPart path (key, node) = .ok part ↔
      ∃ values, node = .leaf values ∧ part = values.map (.label key) := by
  cases node with
  | leaf values => simp [labelPart, Node.values, bind, Except.bind, pure, Except.pure, eq_comm]
  | branch children => simp [labelPart, Node.values, bind, Except.bind]

/-- Labels are compiled one after the other. -/
theorem labelPredicates_branch (path : String) (children : List (String × Node)) :
    labelPredicates path (.branch children) =
      children.mapM (labelPart path) >>= fun parts ↦ pure parts.flatten := rfl

/-- The predicates that an entry of a scope without further scopes is compiled into. -/
def flatEntry (scope : Scope) (above : Option String) :
    String × Node → Except QueryError (List Predicate)
  | (key, node) =>
    match scope.slot? key with
    | some slot => slotPredicates (joinPath above key) node slot
    | none => .error (.unknownField (joinPath above key))

/-- The predicates that an entry at the top of a tree of filters is compiled into. -/
def entryPredicates : Resource → String × Node → Except QueryError (List Predicate)
  | .run, entry => flatEntry .run none entry
  | .runHost, (key, node) =>
    match Scope.slot? .host key with
    | some .run => do flatPredicates .runOfHost (some key) (← node.children key)
    | some slot => slotPredicates key node slot
    | none => .error (.unknownField key)

/-- The entries of a scope are compiled one after the other. -/
theorem flatPredicates_eq (scope : Scope) (above : Option String) (tree : Tree) :
    flatPredicates scope above tree =
      tree.mapM (flatEntry scope above) >>= fun parts ↦ pure parts.flatten := rfl

/-- A tree of filters is compiled entry by entry. -/
theorem Filter.ofTree_eq (tree : Tree) (resource : Resource) :
    Filter.ofTree tree resource =
      Filter.mk <$> (tree.mapM (entryPredicates resource) >>= fun parts ↦ pure parts.flatten) := by
  cases resource <;> rfl

/-- A tree is compiled exactly where its entries are, into their predicates in order. -/
theorem Filter.ofTree_eq_ok_iff {tree : Tree} {resource : Resource} {f : Filter} :
    Filter.ofTree tree resource = .ok f ↔
      ∃ parts : List (List Predicate),
        tree.map (entryPredicates resource) = parts.map .ok ∧ f = ⟨parts.flatten⟩ := by
  rw [Filter.ofTree_eq, Checked.map_eq_ok_iff]
  simp only [Checked.bind_eq_ok_iff, Checked.mapM_eq_ok_iff, Checked.pure_eq_ok_iff]
  constructor
  · rintro ⟨_, ⟨parts, hparts, rfl⟩, rfl⟩
    exact ⟨parts, hparts, rfl⟩
  · rintro ⟨parts, hparts, rfl⟩
    exact ⟨_, ⟨parts, hparts, rfl⟩, rfl⟩

/-- The keys of runs ask for nothing in a further scope. -/
theorem Scope.slot?_ne_run {scope : Scope} (h : scope ≠ .host) {key : String} :
    scope.slot? key ≠ some .run := by
  intro hkey
  cases scope with
  | host => exact h rfl
  | run =>
    simp only [slot?] at hkey
    split at hkey <;> cases hkey
  | runOfHost =>
    simp only [slot?] at hkey
    split at hkey <;> cases hkey

/-- An entry that is compiled is declared. -/
theorem exists_slot_of_flatEntry {scope : Scope} (hscope : scope ≠ .host) {above : Option String}
    {key : String} {node : Node} {part : List Predicate}
    (h : flatEntry scope above (key, node) = .ok part) :
    ∃ slot, scope.slot? key = some slot ∧ slot ≠ .run ∧
      slotPredicates (joinPath above key) node slot = .ok part := by
  rw [flatEntry] at h
  split at h
  · next slot hslot =>
    refine ⟨slot, hslot, ?_, h⟩
    rintro rfl
    exact Scope.slot?_ne_run hscope hslot
  · cases h

/-- The scope of the filters of a resource. -/
def Resource.scope : Resource → Scope
  | run => .run
  | runHost => .host

/-- An entry at the top that is compiled is declared, and asks for something in no further scope, or
in that of runs. -/
theorem exists_slot_of_entryPredicates {resource : Resource} {key : String} {node : Node}
    {part : List Predicate} (h : entryPredicates resource (key, node) = .ok part) :
    ∃ slot, resource.scope.slot? key = some slot ∧
      (slot ≠ .run ∧ (∃ path, slotPredicates path node slot = .ok part) ∨
        slot = .run ∧ ∃ children, node = .branch children ∧
          flatPredicates .runOfHost (some key) children = .ok part) := by
  cases resource with
  | run =>
    obtain ⟨slot, hslot, hne, hpart⟩ := exists_slot_of_flatEntry (by decide) h
    exact ⟨slot, hslot, .inl ⟨hne, _, hpart⟩⟩
  | runHost =>
    rw [entryPredicates] at h
    split at h
    · next hslot =>
      obtain ⟨children, hchildren, hflat⟩ := Checked.bind_eq_ok_iff.1 h
      cases node with
      | leaf values => cases hchildren
      | branch _ => exact ⟨_, hslot, .inr ⟨rfl, _, congrArg _ (Except.ok.inj hchildren), hflat⟩⟩
    · next slot hne hslot => exact ⟨slot, hslot, .inl ⟨hne, _, h⟩⟩
    · cases h

end PlaybookRuns.Query
