import PlaybookRuns.Proofs.Query.Filter

/-!
# The language of filters

Which trees are filters, and what they ask of a row. Main statement: a tree is compiled exactly if
it belongs to the language, otherwise it is refused for the first of its faults in the order of keys
and values; and the compiled filter holds exactly of the rows that the tree asks for, as far as the
statuses it asks for are shown.
-/

namespace PlaybookRuns.Query

open PlaybookRuns.Time (Instant)

/-! ## Filters -/

/-- The keys that are declared in a scope, and what each of them asks for. -/
def Scope.declared : Scope → List (String × Slot)
  | run => [("id", .column .runId), ("recipient", .column .recipient),
      ("service", .column .service), ("status", .status .run), ("labels", .labels)]
  | runOfHost => [("id", .column .runId), ("recipient", .column .recipient),
      ("service", .column .service), ("labels", .labels)]
  | host => [("status", .status .host), ("host", .column .host),
      ("inventory_id", .column .inventoryId), ("run", .run)]

/-- That a node is of the form that its key asks for: values that can be read, or labels that are
given by values, or filters of runs. -/
inductive Slot.Takes : Slot → Node → Prop
  | column {c : Column} {values : List String}
      (hread : c.isUuid → ∀ raw ∈ values, (Uuid.ofText? raw).isSome) :
      Takes (.column c) (.leaf values)
  | status {subject : Subject} {values : List String}
      (hread : ∀ raw ∈ values, ∃ shown : DisplayedStatus, raw = shown.name) :
      Takes (.status subject) (.leaf values)
  | labels {children : List (String × Node)}
      (hleaves : ∀ e ∈ children, ∃ values, e.2 = .leaf values) : Takes .labels (.branch children)
  | run {children : List (String × Node)}
      (hdeclared : ∀ e ∈ children, ∃ slot, Scope.runOfHost.declared.lookup e.1 = some slot)
      (htakes : ∀ e ∈ children, ∀ slot, Scope.runOfHost.declared.lookup e.1 = some slot →
        Takes slot e.2) : Takes .run (.branch children)

/-- That a tree is a filter: every key is declared, and every node is of the form that its key asks
for. -/
structure Scope.Takes (scope : Scope) (tree : Tree) : Prop where
  declared : ∀ e ∈ tree, ∃ slot, scope.declared.lookup e.1 = some slot
  takes : ∀ e ∈ tree, ∀ slot, scope.declared.lookup e.1 = some slot → slot.Takes e.2

/-! ## Faults -/

/-- The segments of a path, joined with dots. -/
def dotted (path : List String) : String := ".".intercalate path

mutual

/-- All that is wrong with a node at a path, in the order of keys and values. -/
def Slot.faults (path : List String) : Slot → Node → List QueryError
  | .column c, .leaf values =>
    (values.filter fun raw ↦ c.isUuid && (Uuid.ofText? raw).isNone).map (.notAUuid (dotted path))
  | .status _, .leaf values =>
    (values.filter fun raw ↦ (DisplayedStatus.ofName? raw).isNone).map
      (.unknownStatus (dotted path))
  | .labels, .branch children => children.flatMap fun
    | (_, .leaf _) => []
    | (key, .branch _) => [.notAValue (dotted (path ++ [key]))]
  | .run, .branch children => Scope.faults .runOfHost path children
  | .column _, .branch _ | .status _, .branch _ => [.notAValue (dotted path)]
  | .labels, .leaf _ | .run, .leaf _ => [.notAnObject (dotted path)]

/-- All that is wrong with an entry of a tree at a path. -/
def Scope.entryFaults (scope : Scope) (path : List String) : String × Node → List QueryError
  | (key, node) =>
    match scope.declared.lookup key with
    | some slot => slot.faults (path ++ [key]) node
    | none => [.unknownField (dotted (path ++ [key]))]

/-- All that is wrong with a tree at a path, in the order of keys and values. -/
def Scope.faults (scope : Scope) (path : List String) : Tree → List QueryError
  | [] => []
  | e :: tree => scope.entryFaults path e ++ scope.faults path tree

end

example : Scope.host.faults []
    [("run", .branch [("id", .leaf ["x"]), ("status", .leaf ["running"])])] =
      [.notAUuid "run.id" "x", .unknownField "run.status"] := by decide +kernel

/-! ## Meaning -/

section Meaning

variable (run : Run) (host : Option Host) (now : Instant)

/-- Whether a raw value is that of a column in a row. -/
def Column.Has : Column → (raw : String) → Prop
  | runId, raw => Uuid.ofText? raw = some run.id
  | recipient, raw => Uuid.ofText? raw = some run.recipient
  | service, raw => raw = run.service
  | .host, raw => ∃ h ∈ host, raw = h.host
  | inventoryId, raw => ∃ h ∈ host, ∃ id ∈ h.inventoryId, Uuid.ofText? raw = some id

/-- Whether a status is shown of a subject at `now`. -/
def Subject.Shows (subject : Subject) (shown : DisplayedStatus) : Prop :=
  ∃ stored ∈ subject.stored? run host,
    DisplayedStatus.derive? stored run.createdAt run.timeout now = some shown

/-- That a row is as a node asks: it has one of the values of a column or of a status, all labels
with all their values, and all that is asked of its run. -/
inductive Slot.MetBy : Slot → Node → Prop
  | column {c : Column} {values : List String} {raw : String} (hmem : raw ∈ values)
      (hhas : c.Has run host raw) : MetBy (.column c) (.leaf values)
  | status {subject : Subject} {values : List String} {shown : DisplayedStatus}
      (hmem : shown.name ∈ values) (hshows : subject.Shows run host now shown) :
      MetBy (.status subject) (.leaf values)
  | labels {children : List (String × Node)}
      (hlabels : ∀ key values, (key, .leaf values) ∈ children → ∀ value ∈ values,
        run.labels.get? key = some value) : MetBy .labels (.branch children)
  | run {children : List (String × Node)}
      (hmet : ∀ e ∈ children, ∀ slot, Scope.runOfHost.declared.lookup e.1 = some slot →
        MetBy slot e.2) : MetBy .run (.branch children)

/-- Whether a row is as every node of a tree asks. -/
def Scope.MetBy (scope : Scope) (tree : Tree) : Prop :=
  ∀ e ∈ tree, ∀ slot, scope.declared.lookup e.1 = some slot → slot.MetBy run host now e.2

/-- Whether a row is as a tree asks up to a status, which is not shown. -/
def Scope.UndecidedBy (scope : Scope) (tree : Tree) : Prop :=
  ∃ before key node after subject, tree = before ++ (key, node) :: after ∧
    scope.declared.lookup key = some (.status subject) ∧ scope.MetBy run host now before ∧
    subject.stored? run host = some .running ∧
    DisplayedStatus.deadline? run.createdAt run.timeout = none

end Meaning

/-! ## Declared keys -/

private theorem lookup_cons {α : Type} (key k : String) (a : α) (entries : List (String × α)) :
    ((k, a) :: entries).lookup key = if key = k then some a else entries.lookup key := by
  rw [List.lookup_cons]
  by_cases h : key = k
  · simp [h]
  · rw [beq_eq_false_iff_ne.2 h, if_neg h]

/-- A key asks for what is declared of it. -/
theorem Scope.slot?_eq_lookup (scope : Scope) (key : String) :
    scope.slot? key = scope.declared.lookup key := by
  cases scope <;> simp only [slot?, declared, lookup_cons, List.lookup_nil] <;> split <;> simp_all

/-- One more segment is joined to a path with a dot. -/
theorem dotted_append_singleton {path : List String} (h : path ≠ []) (key : String) :
    dotted (path ++ [key]) = joinPath (some (dotted path)) key := by
  induction path with
  | nil => exact absurd rfl h
  | cons segment path ih =>
    cases path with
    | nil => rfl
    | cons next path =>
      have hrest := ih (List.cons_ne_nil _ _)
      simp only [dotted, joinPath, List.cons_append, String.intercalate_cons_cons] at hrest ⊢
      rw [hrest]
      simp only [String.append_assoc]

/-- The faults of a tree are those of its entries, in order. -/
theorem Scope.faults_eq_flatMap (scope : Scope) (path : List String) (tree : Tree) :
    scope.faults path tree = tree.flatMap (scope.entryFaults path) := by
  induction tree with
  | nil => rw [faults, List.flatMap_nil]
  | cons e tree ih => rw [faults, ih, List.flatMap_cons]

/-- A branch for the run of a host is of the right form where its children are. -/
theorem Slot.takes_run_iff {children : List (String × Node)} :
    Slot.Takes .run (.branch children) ↔ Scope.runOfHost.Takes children := by
  constructor
  · intro h
    cases h with
    | run hdeclared htakes => exact ⟨hdeclared, htakes⟩
  · exact fun h ↦ .run h.declared h.takes

/-- A branch for the run of a host asks what its children ask. -/
theorem Slot.metBy_run_iff {run : Run} {host : Option Host} {now : Instant}
    {children : List (String × Node)} :
    Slot.MetBy run host now .run (.branch children) ↔
      Scope.runOfHost.MetBy run host now children := by
  constructor
  · intro h
    cases h with
    | run hmet => exact hmet
  · exact .run

/-! ## Acceptance -/

private theorem Scope.faults_eq_nil_iff_of {scope : Scope} {path : List String} {tree : Tree}
    (h : ∀ e ∈ tree, ∀ slot, scope.declared.lookup e.1 = some slot →
      (slot.faults (path ++ [e.1]) e.2 = [] ↔ slot.Takes e.2)) :
    scope.faults path tree = [] ↔ scope.Takes tree := by
  have hentry (e : String × Node) (he : e ∈ tree) : scope.entryFaults path e = [] ↔
      ∃ slot, scope.declared.lookup e.1 = some slot ∧ slot.Takes e.2 := by
    rw [entryFaults]
    cases hslot : scope.declared.lookup e.1 with
    | none => simp
    | some slot => simp [h e he slot hslot]
  rw [faults_eq_flatMap, List.flatMap_eq_nil_iff, forall₂_congr hentry]
  constructor
  · intro hall
    constructor
    · intro e he
      obtain ⟨slot, hslot, -⟩ := hall e he
      exact ⟨slot, hslot⟩
    · intro e he slot hslot
      obtain ⟨other, hother, htakes⟩ := hall e he
      exact Option.some.inj (hother.symm.trans hslot) ▸ htakes
  · intro htakes e he
    obtain ⟨slot, hslot⟩ := htakes.declared e he
    exact ⟨slot, hslot, htakes.takes e he slot hslot⟩

private theorem Slot.faults_column_eq_nil_iff {c : Column} {path values : List String} :
    (Slot.column c).faults path (.leaf values) = [] ↔
      (Slot.column c).Takes (.leaf values) := by
  rw [faults, List.map_eq_nil_iff, List.filter_eq_nil_iff]
  constructor
  · intro h
    refine .column fun hc raw hraw ↦ ?_
    simpa [hc, ← Option.isSome_iff_ne_none] using h raw hraw
  · intro h raw hraw
    cases h with
    | column hread => simpa [← Option.isSome_iff_ne_none] using (hread · raw hraw)

private theorem Slot.faults_status_eq_nil_iff {subject : Subject} {path values : List String} :
    (Slot.status subject).faults path (.leaf values) = [] ↔
      (Slot.status subject).Takes (.leaf values) := by
  have hread (raw : String) : ¬(DisplayedStatus.ofName? raw).isNone = true ↔
      ∃ shown : DisplayedStatus, raw = shown.name := by
    simp only [Bool.not_eq_true, Option.isNone_eq_false_iff, Option.isSome_iff_exists,
      DisplayedStatus.ofName?_eq_some_iff]
  rw [faults, List.map_eq_nil_iff, List.filter_eq_nil_iff]
  simp only [hread]
  constructor
  · exact .status
  · intro h
    cases h with
    | status hread => exact hread

private theorem Slot.faults_labels_eq_nil_iff {path : List String}
    {children : List (String × Node)} :
    Slot.labels.faults path (.branch children) = [] ↔ Slot.labels.Takes (.branch children) := by
  rw [faults, List.flatMap_eq_nil_iff]
  constructor
  · intro h
    refine .labels fun e he ↦ ?_
    obtain ⟨key, values | children⟩ := e
    · exact ⟨values, rfl⟩
    · cases h _ he
  · rintro h ⟨key, node⟩ he
    cases h with
    | labels hleaves =>
      obtain ⟨values, rfl⟩ := hleaves _ he
      rfl

private theorem Slot.faults_eq_nil_iff_of_ne_run {slot : Slot} (hslot : slot ≠ .run)
    {path : List String} {node : Node} : slot.faults path node = [] ↔ slot.Takes node := by
  cases slot with
  | run => exact absurd rfl hslot
  | column c =>
    cases node with
    | leaf values => exact faults_column_eq_nil_iff
    | branch children =>
      rw [faults]
      exact iff_of_false (List.cons_ne_nil _ _) nofun
  | status subject =>
    cases node with
    | leaf values => exact faults_status_eq_nil_iff
    | branch children =>
      rw [faults]
      exact iff_of_false (List.cons_ne_nil _ _) nofun
  | labels =>
    cases node with
    | leaf values =>
      rw [faults]
      exact iff_of_false (List.cons_ne_nil _ _) nofun
    | branch children => exact faults_labels_eq_nil_iff

/-- A node has no fault exactly where it is of the form that its key asks for. -/
theorem Slot.faults_eq_nil_iff {slot : Slot} {path : List String} {node : Node} :
    slot.faults path node = [] ↔ slot.Takes node := by
  cases slot with
  | run =>
    cases node with
    | leaf values =>
      rw [faults]
      exact iff_of_false (List.cons_ne_nil _ _) nofun
    | branch children =>
      rw [faults, takes_run_iff]
      refine Scope.faults_eq_nil_iff_of fun e _ slot hslot ↦ faults_eq_nil_iff_of_ne_run ?_
      rintro rfl
      rw [← Scope.slot?_eq_lookup] at hslot
      exact Scope.slot?_ne_run (by decide) hslot
  | column c => exact faults_eq_nil_iff_of_ne_run Slot.noConfusion
  | status subject => exact faults_eq_nil_iff_of_ne_run Slot.noConfusion
  | labels => exact faults_eq_nil_iff_of_ne_run Slot.noConfusion

/-- A tree has no fault exactly if it is a filter. -/
theorem Scope.faults_eq_nil_iff {scope : Scope} {path : List String} {tree : Tree} :
    scope.faults path tree = [] ↔ scope.Takes tree :=
  faults_eq_nil_iff_of fun _ _ _ _ ↦ Slot.faults_eq_nil_iff

/-! ## Refusals -/

private theorem head?_map_filter {α β : Type} (p : α → Bool) (f : α → β) (as : List α) :
    ((as.filter p).map f).head? = as.findSome? fun a ↦ if p a then some (f a) else none := by
  induction as with
  | nil => rfl
  | cons a as ih =>
    by_cases ha : p a
    · simp [ha]
    · simpa [ha] using ih

private theorem refusal?_operand (c : Column) (path raw : String) :
    Checked.refusal? (operand c path raw) =
      if c.isUuid && (Uuid.ofText? raw).isNone then some (.notAUuid path raw) else none := by
  rw [operand]
  cases c.isUuid with
  | false => rfl
  | true => cases Uuid.ofText? raw <;> rfl

private theorem refusal?_shownStatus (path raw : String) :
    Checked.refusal? (shownStatus path raw) =
      if (DisplayedStatus.ofName? raw).isNone then some (.unknownStatus path raw) else none := by
  rw [shownStatus]
  cases DisplayedStatus.ofName? raw <;> rfl

private theorem refusal?_slotPredicates {slot : Slot} (hslot : slot ≠ .run) {path : List String}
    (hpath : path ≠ []) (node : Node) :
    Checked.refusal? (slotPredicates (dotted path) node slot) = (slot.faults path node).head? := by
  cases slot with
  | run => exact absurd rfl hslot
  | column c =>
    cases node with
    | branch children =>
      rw [Slot.faults]
      rfl
    | leaf values =>
      rw [Slot.faults, head?_map_filter, ← funext (refusal?_operand c (dotted path)),
        ← Checked.refusal?_mapM]
      exact Checked.refusal?_bind_pure _ (values.mapM (operand c (dotted path)))
  | status subject =>
    cases node with
    | branch children =>
      rw [Slot.faults]
      rfl
    | leaf values =>
      rw [Slot.faults, head?_map_filter, ← funext (refusal?_shownStatus (dotted path)),
        ← Checked.refusal?_mapM]
      exact Checked.refusal?_bind_pure _ (values.mapM (shownStatus (dotted path)))
  | labels =>
    cases node with
    | leaf values =>
      rw [Slot.faults]
      rfl
    | branch children =>
      rw [Slot.faults, List.head?_flatMap, slotPredicates, labelPredicates_branch,
        Checked.refusal?_bind_pure, Checked.refusal?_mapM]
      refine congrArg (List.findSome? · children) (funext fun e ↦ ?_)
      obtain ⟨key, values | children⟩ := e
      · rfl
      · dsimp only
        rw [dotted_append_singleton hpath]
        rfl

private theorem refusal?_mapM_flatten {f : String × Node → Except QueryError (List Predicate)}
    {scope : Scope} {path : List String} {tree : Tree}
    (h : ∀ e, Checked.refusal? (f e) = (scope.entryFaults path e).head?) :
    Checked.refusal? (tree.mapM f >>= fun parts ↦ pure parts.flatten) =
      (scope.faults path tree).head? := by
  rw [Checked.refusal?_bind_pure, Checked.refusal?_mapM, funext h, ← List.head?_flatMap,
    Scope.faults_eq_flatMap]

private theorem refusal?_flatEntry {scope : Scope} (hscope : scope ≠ .host) {above : Option String}
    {path : List String} (hpath : ∀ key, joinPath above key = dotted (path ++ [key]))
    (e : String × Node) :
    Checked.refusal? (flatEntry scope above e) = (scope.entryFaults path e).head? := by
  obtain ⟨key, node⟩ := e
  rw [flatEntry, Scope.entryFaults, Scope.slot?_eq_lookup, hpath]
  cases hslot : scope.declared.lookup key with
  | none => rfl
  | some slot =>
    refine refusal?_slotPredicates ?_ (by simp) node
    rintro rfl
    exact Scope.slot?_ne_run hscope (by rw [Scope.slot?_eq_lookup, hslot])

private theorem refusal?_entryPredicates (resource : Resource) (e : String × Node) :
    Checked.refusal? (entryPredicates resource e) =
      (resource.scope.entryFaults [] e).head? := by
  cases resource with
  | run => exact refusal?_flatEntry (by decide) (fun _ ↦ rfl) e
  | runHost =>
    obtain ⟨key, node⟩ := e
    have hpath (key : String) : [key] ≠ [] := List.cons_ne_nil key []
    rw [entryPredicates, Resource.scope, Scope.entryFaults, Scope.slot?_eq_lookup]
    cases hslot : Scope.host.declared.lookup key with
    | none => rfl
    | some slot =>
      cases slot with
      | run =>
        obtain rfl : key = "run" := by
          obtain ⟨before, after, hdeclared, -⟩ := List.lookup_eq_some_iff.1 hslot
          have hmem : (key, .run) ∈ Scope.host.declared := by simp [hdeclared]
          simpa [Scope.declared] using hmem
        cases node with
        | leaf values => rfl
        | branch children =>
          dsimp only
          rw [Slot.faults]
          exact refusal?_mapM_flatten (refusal?_flatEntry (by decide) fun _ ↦ rfl)
      | column c => exact refusal?_slotPredicates Slot.noConfusion (hpath key) node
      | status subject => exact refusal?_slotPredicates Slot.noConfusion (hpath key) node
      | labels => exact refusal?_slotPredicates Slot.noConfusion (hpath key) node

/-- A tree is refused for the first of its faults. -/
theorem Filter.refusal?_ofTree (tree : Tree) (resource : Resource) :
    Checked.refusal? (Filter.ofTree tree resource) =
      (resource.scope.faults [] tree).head? := by
  rw [Filter.ofTree_eq, Checked.refusal?_map]
  exact refusal?_mapM_flatten (refusal?_entryPredicates resource)

/-! ## Compiled filters -/

section Compiled

variable {run : Run} {host : Option Host} {now : Instant}

private theorem value?_eq_some_iff {c : Column} {path raw : String} {v : Operand}
    (h : operand c path raw = .ok v) : c.value? run host = some v ↔ c.Has run host raw := by
  rw [operand] at h
  split at h
  · next huuid =>
    split at h
    · next id hid =>
      obtain rfl := Except.ok.inj h
      cases c with
      | runId => simp [Column.value?, Column.Has, hid, eq_comm]
      | recipient => simp [Column.value?, Column.Has, hid, eq_comm]
      | inventoryId => simp [Column.value?, Column.Has, hid, Option.bind_eq_some_iff]
      | service => cases huuid
      | host => cases huuid
    · cases h
  · next huuid =>
    obtain rfl := Except.ok.inj h
    cases c with
    | service => simp [Column.value?, Column.Has, eq_comm]
    | host => cases host <;> simp [Column.value?, Column.Has, eq_comm]
    | runId => exact absurd rfl huuid
    | recipient => exact absurd rfl huuid
    | inventoryId => exact absurd rfl huuid

private theorem holds?_status_iff {subject : Subject} {anyOf : List DisplayedStatus} :
    (Predicate.status subject anyOf).holds? run host now = some true ↔
      ∃ shown ∈ anyOf, subject.Shows run host now shown := by
  rw [Predicate.holds?]
  cases hstored : subject.stored? run host with
  | none => simp [Subject.Shows, hstored]
  | some stored =>
    simp only [Option.map_eq_some_iff, List.contains_iff_mem, Subject.Shows, hstored,
      Option.mem_some_iff, exists_eq_left']
    exact exists_congr fun _ ↦ and_comm

private theorem metBy_column_iff {c : Column} {path : String} {values : List String}
    {ps : List Predicate} (h : slotPredicates path (.leaf values) (.column c) = .ok ps) :
    (∀ p ∈ ps, p.holds? run host now = some true) ↔
      (Slot.column c).MetBy run host now (.leaf values) := by
  rw [slotPredicates_column_leaf] at h
  obtain ⟨operands, hoperands, hps⟩ := Checked.bind_eq_ok_iff.1 h
  obtain rfl := Checked.pure_eq_ok_iff.1 hps
  rw [List.forall_mem_singleton]
  simp only [Predicate.holds?, Option.some_inj, Option.any_eq_true, List.contains_iff_mem,
    Checked.mem_mapM_iff hoperands]
  constructor
  · rintro ⟨v, hv, raw, hraw, hoperand⟩
    exact .column hraw ((value?_eq_some_iff hoperand).1 hv)
  · intro hmet
    cases hmet with
    | column hraw hhas =>
      obtain ⟨v, hoperand⟩ := Checked.exists_of_mapM hoperands hraw
      exact ⟨v, (value?_eq_some_iff hoperand).2 hhas, _, hraw, hoperand⟩

private theorem metBy_status_iff {subject : Subject} {path : String} {values : List String}
    {ps : List Predicate} (h : slotPredicates path (.leaf values) (.status subject) = .ok ps) :
    (∀ p ∈ ps, p.holds? run host now = some true) ↔
      (Slot.status subject).MetBy run host now (.leaf values) := by
  rw [slotPredicates_status_leaf] at h
  obtain ⟨anyOf, hanyOf, hps⟩ := Checked.bind_eq_ok_iff.1 h
  obtain rfl := Checked.pure_eq_ok_iff.1 hps
  have hmem (shown : DisplayedStatus) : shown ∈ anyOf.eraseDups ↔ shown.name ∈ values := by
    rw [List.mem_eraseDups, Checked.mem_mapM_iff hanyOf]
    simp only [shownStatus_eq_ok_iff, exists_eq_right]
  rw [List.forall_mem_singleton, holds?_status_iff]
  simp only [hmem]
  constructor
  · rintro ⟨shown, hshown, hshows⟩
    exact .status hshown hshows
  · intro hmet
    cases hmet with
    | status hshown hshows => exact ⟨_, hshown, hshows⟩

private theorem metBy_labels_iff {path : String} {children : List (String × Node)}
    {ps : List Predicate} (h : slotPredicates path (.branch children) .labels = .ok ps) :
    (∀ p ∈ ps, p.holds? run host now = some true) ↔
      Slot.labels.MetBy run host now (.branch children) := by
  rw [slotPredicates, labelPredicates_branch] at h
  simp only [Checked.mem_flatten_iff h]
  constructor
  · intro hholds
    refine .labels fun key values hmem value hvalue ↦ ?_
    have hpart : labelPart path (key, .leaf values) = .ok (values.map (.label key)) :=
      labelPart_eq_ok_iff.2 ⟨values, rfl, rfl⟩
    have hlabel := hholds (.label key value) ⟨_, hmem, _, hpart, List.mem_map_of_mem hvalue⟩
    simpa [Predicate.holds?] using hlabel
  · rintro hmet _ ⟨⟨key, node⟩, hmem, part, hpart, hp⟩
    obtain ⟨values, rfl, rfl⟩ := labelPart_eq_ok_iff.1 hpart
    obtain ⟨value, hvalue, rfl⟩ := List.mem_map.1 hp
    cases hmet with
    | labels hlabels => simp [Predicate.holds?, hlabels key values hmem value hvalue]

private theorem metBy_iff_of_slotPredicates {slot : Slot} (hslot : slot ≠ .run) {path : String}
    {node : Node} {ps : List Predicate} (h : slotPredicates path node slot = .ok ps) :
    (∀ p ∈ ps, p.holds? run host now = some true) ↔ slot.MetBy run host now node := by
  cases slot with
  | run => exact absurd rfl hslot
  | column c =>
    cases node with
    | leaf values => exact metBy_column_iff h
    | branch children => cases h
  | status subject =>
    cases node with
    | leaf values => exact metBy_status_iff h
    | branch children => cases h
  | labels =>
    cases node with
    | leaf values => cases h
    | branch children => exact metBy_labels_iff h

private theorem metBy_iff_of_flatten {f : String × Node → Except QueryError (List Predicate)}
    {scope : Scope} {tree : Tree} {ps : List Predicate}
    (hentry : ∀ e ∈ tree, ∀ part, f e = .ok part →
      ((∀ p ∈ part, p.holds? run host now = some true) ↔
        ∀ slot, scope.declared.lookup e.1 = some slot → slot.MetBy run host now e.2))
    (h : (tree.mapM f >>= fun parts ↦ pure parts.flatten) = .ok ps) :
    (∀ p ∈ ps, p.holds? run host now = some true) ↔ scope.MetBy run host now tree := by
  simp only [Checked.mem_flatten_iff h]
  constructor
  · intro hholds e he
    obtain ⟨part, hpart⟩ := Checked.exists_flatten_eq_ok_iff.1 ⟨ps, h⟩ e he
    exact (hentry e he part hpart).1 fun p hp ↦ hholds p ⟨e, he, part, hpart, hp⟩
  · rintro hmet p ⟨e, he, part, hpart, hp⟩
    exact (hentry e he part hpart).2 (hmet e he) p hp

private theorem metBy_iff_of_flatEntry {scope : Scope} (hscope : scope ≠ .host)
    {above : Option String} {e : String × Node} {part : List Predicate}
    (h : flatEntry scope above e = .ok part) :
    (∀ p ∈ part, p.holds? run host now = some true) ↔
      ∀ slot, scope.declared.lookup e.1 = some slot → slot.MetBy run host now e.2 := by
  obtain ⟨key, node⟩ := e
  obtain ⟨slot, hslot, hne, hpart⟩ := exists_slot_of_flatEntry hscope h
  rw [Scope.slot?_eq_lookup] at hslot
  rw [metBy_iff_of_slotPredicates hne hpart]
  simp [hslot]

private theorem metBy_iff_of_entryPredicates {resource : Resource} {e : String × Node}
    {part : List Predicate} (h : entryPredicates resource e = .ok part) :
    (∀ p ∈ part, p.holds? run host now = some true) ↔
      ∀ slot, resource.scope.declared.lookup e.1 = some slot →
        slot.MetBy run host now e.2 := by
  obtain ⟨key, node⟩ := e
  obtain ⟨slot, hslot, ⟨hne, path, hpart⟩ | ⟨rfl, children, rfl, hflat⟩⟩ :=
    exists_slot_of_entryPredicates h
  · rw [Scope.slot?_eq_lookup] at hslot
    rw [metBy_iff_of_slotPredicates hne hpart]
    simp [hslot]
  · rw [Scope.slot?_eq_lookup] at hslot
    rw [flatPredicates_eq] at hflat
    rw [metBy_iff_of_flatten (fun e _ part ↦ metBy_iff_of_flatEntry (by decide)) hflat]
    simp [hslot, Slot.metBy_run_iff]

private theorem undecided_iff_of_entryPredicates {resource : Resource} {e : String × Node}
    {part : List Predicate} (h : entryPredicates resource e = .ok part) :
    part.allM (·.holds? run host now) = none ↔
      ∃ subject, resource.scope.declared.lookup e.1 = some (.status subject) ∧
        subject.stored? run host = some .running ∧
        DisplayedStatus.deadline? run.createdAt run.timeout = none := by
  obtain ⟨key, node⟩ := e
  change Filter.holds? ⟨part⟩ run host now = none ↔ _
  rw [Filter.holds?_eq_none_iff, ← Scope.slot?_eq_lookup]
  constructor
  · rintro ⟨before, subject, anyOf, after, hsplit, -, hundecided⟩
    have hmem : .status subject anyOf ∈ part := by simp [show part = _ from hsplit]
    refine ⟨subject, ?_, hundecided⟩
    obtain ⟨slot, hslot, ⟨-, path, hpart⟩ | ⟨-, children, -, hflat⟩⟩ :=
      exists_slot_of_entryPredicates h
    · obtain ⟨-, hasks⟩ := asks_of_slotPredicates hpart _ hmem
      cases slot with
      | status s => exact hslot.trans (congrArg _ (congrArg _ hasks.symm))
      | column c => exact hasks.elim
      | labels => exact hasks.elim
      | run => exact hasks.elim
    · exact absurd trivial (not_isStatus_of_runOfHost hflat _ hmem)
  · rintro ⟨subject, hstatus, hundecided⟩
    obtain ⟨slot, hslot, ⟨-, path, hpart⟩ | ⟨rfl, -⟩⟩ := exists_slot_of_entryPredicates h
    · obtain rfl := Option.some.inj (hslot.symm.trans hstatus)
      cases node with
      | branch children => cases hpart
      | leaf values =>
        rw [slotPredicates_status_leaf] at hpart
        obtain ⟨anyOf, -, hpure⟩ := Checked.bind_eq_ok_iff.1 hpart
        obtain rfl := Checked.pure_eq_ok_iff.1 hpure
        exact ⟨[], subject, _, [], rfl, by simp, hundecided⟩
    · cases hslot.symm.trans hstatus

private theorem holds?_eq_none_iff_of_ofTree {tree : Tree} {resource : Resource} {f : Filter}
    (h : Filter.ofTree tree resource = .ok f) :
    f.holds? run host now = none ↔ resource.scope.UndecidedBy run host now tree := by
  obtain ⟨parts, hparts, rfl⟩ := Filter.ofTree_eq_ok_iff.1 h
  rw [Filter.holds?, allM_flatten, allM_eq_iff (by decide)]
  constructor
  · rintro ⟨before, part, after, rfl, hbefore, hpart⟩
    rw [List.map_append, List.map_cons] at hparts
    obtain ⟨entries, rest, rfl, hentries, hrest⟩ := List.map_eq_append_iff.1 hparts
    obtain ⟨⟨key, node⟩, others, rfl, hcompiled, -⟩ := List.map_eq_cons_iff.1 hrest
    obtain ⟨subject, hslot, hundecided⟩ := (undecided_iff_of_entryPredicates hcompiled).1 hpart
    refine ⟨entries, key, node, others, subject, rfl, hslot, fun e he ↦ ?_, hundecided⟩
    have hmem : entryPredicates resource e ∈ before.map .ok := hentries ▸ List.mem_map_of_mem he
    obtain ⟨p, hp, hok⟩ := List.mem_map.1 hmem
    exact (metBy_iff_of_entryPredicates hok.symm).1 (allM_eq_some_true_iff.1 (hbefore p hp))
  · rintro ⟨entries, key, node, others, subject, rfl, hslot, hmet, hundecided⟩
    rw [List.map_append, List.map_cons] at hparts
    obtain ⟨before, rest, rfl, hbefore, hrest⟩ := List.map_eq_append_iff.1 hparts.symm
    obtain ⟨part, after, rfl, hpart, -⟩ := List.map_eq_cons_iff.1 hrest
    refine ⟨before, part, after, rfl, fun p hp ↦ ?_,
      (undecided_iff_of_entryPredicates hpart.symm).2 ⟨subject, hslot, hundecided⟩⟩
    have hmem : Except.ok p ∈ entries.map (entryPredicates resource) :=
      hbefore ▸ List.mem_map_of_mem hp
    obtain ⟨e, he, hok⟩ := List.mem_map.1 hmem
    exact allM_eq_some_true_iff.2 ((metBy_iff_of_entryPredicates hok).2 (hmet e he))

end Compiled

/-! ## Main statement -/

/-- A tree is compiled exactly if it is a filter of the resource, and otherwise refused for the
first of its faults. The compiled filter holds of just the rows that are as the tree asks, and
comes to no result just on those of which it asks for a status that is not shown. -/
theorem Filter.ofTree_iff_language (tree : Tree) (resource : Resource) :
    ((∃ f, Filter.ofTree tree resource = .ok f) ↔ resource.scope.Takes tree) ∧
      (∀ e, Filter.ofTree tree resource = .error e ↔
        (resource.scope.faults [] tree).head? = some e) ∧
      ∀ f, Filter.ofTree tree resource = .ok f → ∀ run host now,
        (f.holds? run host now = some true ↔ resource.scope.MetBy run host now tree) ∧
        (f.holds? run host now = none ↔ resource.scope.UndecidedBy run host now tree) := by
  refine ⟨?_, fun e ↦ ?_, fun f hf run host now ↦ ⟨?_, holds?_eq_none_iff_of_ofTree hf⟩⟩
  · rw [← Checked.refusal?_eq_none_iff, refusal?_ofTree, List.head?_eq_none_iff,
      Scope.faults_eq_nil_iff]
  · rw [← Checked.refusal?_eq_some_iff, refusal?_ofTree]
  · rw [ofTree_eq] at hf
    obtain ⟨ps, hps, rfl⟩ := Checked.map_eq_ok_iff.1 hf
    rw [holds?_eq_some_true_iff]
    exact metBy_iff_of_flatten (fun e _ part ↦ metBy_iff_of_entryPredicates) hps

/-- Whatever status is shown of a run that would time out after the calendar ends, a filter of all
statuses asks for it; but it comes to no result. -/
theorem Filter.holds?_allStatuses_of_lastMinute :
    Filter.ofTree [("status", .leaf ["running", "success", "failure", "timeout"])] .run =
        .ok ⟨[.status .run [.running, .success, .failure, .timeout]]⟩ ∧
      (∀ shown : DisplayedStatus, shown.name ∈ ["running", "success", "failure", "timeout"]) ∧
      Filter.holds? ⟨[.status .run [.running, .success, .failure, .timeout]]⟩
        (minuteRun 3 lastMinute) none ⟨0, 0⟩ = none := by
  refine ⟨?_, fun shown ↦ ?_, by decide +kernel⟩
  · rfl
  · cases shown <;> decide

end PlaybookRuns.Query
