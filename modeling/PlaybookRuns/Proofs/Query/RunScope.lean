import PlaybookRuns.Proofs.Query.StatusParam

/-!
# Filters of hosts by their runs

The filters under `run` of a host listing are those of runs, but for their status. Main statement: a
tree without a status is compiled alike in both places, and refused alike up to its paths.
-/

namespace PlaybookRuns.Query

/-- That a computation comes to the same result under a further segment of its path, or is refused
there with the same wording behind that segment. -/
inductive AgreesUnder {α : Type} (above : String) :
    Except QueryError α → Except QueryError α → Prop where
  | ok (a : α) : AgreesUnder above (.ok a) (.ok a)
  | error {e e' : QueryError} (kind_eq : e'.kind = e.kind)
      (detail_eq : e'.detail = above ++ "." ++ e.detail) : AgreesUnder above (.error e) (.error e')

namespace AgreesUnder

variable {α β : Type} {above : String}

/-- Results agree where both steps to them do. -/
theorem bind {x y : Except QueryError α} {f g : α → Except QueryError β}
    (h : AgreesUnder above x y) (hrest : ∀ a, AgreesUnder above (f a) (g a)) :
    AgreesUnder above (x >>= f) (y >>= g) := by
  cases h with
  | ok a => exact hrest a
  | error hkind hdetail => exact .error hkind hdetail

/-- What is made of results that agree agrees. -/
theorem map {x y : Except QueryError α} (h : AgreesUnder above x y) (f : α → β) :
    AgreesUnder above (f <$> x) (f <$> y) := by
  cases h with
  | ok a => exact .ok (f a)
  | error hkind hdetail => exact .error hkind hdetail

/-- Lists of results agree element by element. -/
theorem mapM {f g : α → Except QueryError β} {as : List α}
    (h : ∀ a ∈ as, AgreesUnder above (f a) (g a)) : AgreesUnder above (as.mapM f) (as.mapM g) := by
  induction as with
  | nil => exact .ok []
  | cons a as ih =>
    obtain ⟨ha, has⟩ := List.forall_mem_cons.1 h
    rw [List.mapM_cons, List.mapM_cons]
    exact ha.bind fun b ↦ (ih has).bind fun bs ↦ .ok (b :: bs)

end AgreesUnder

section Nodes

variable (above path : String)

private theorem agreesUnder_values (node : Node) :
    AgreesUnder above (node.values path) (node.values (joinPath (some above) path)) := by
  cases node with
  | leaf values => exact .ok values
  | branch children => exact .error rfl (String.append_assoc ..)

private theorem agreesUnder_children (node : Node) :
    AgreesUnder above (node.children path) (node.children (joinPath (some above) path)) := by
  cases node with
  | leaf values => exact .error rfl (String.append_assoc ..)
  | branch children => exact .ok children

private theorem agreesUnder_operand (column : Column) (raw : String) :
    AgreesUnder above (operand column path raw)
      (operand column (joinPath (some above) path) raw) := by
  unfold operand
  split
  · cases Uuid.ofText? raw with
    | none =>
      constructor
      · rfl
      · change above ++ "." ++ path ++ _ ++ _ ++ _ = above ++ "." ++ (path ++ _ ++ _ ++ _)
        rw [← String.append_assoc, ← String.append_assoc, ← String.append_assoc]
    | some id => exact .ok _
  · exact .ok _

private theorem agreesUnder_shownStatus (raw : String) :
    AgreesUnder above (shownStatus path raw) (shownStatus (joinPath (some above) path) raw) := by
  unfold shownStatus
  cases DisplayedStatus.ofName? raw with
  | none =>
    constructor
    · rfl
    · change above ++ "." ++ path ++ _ ++ _ = above ++ "." ++ (path ++ _ ++ _)
      rw [← String.append_assoc, ← String.append_assoc]
  | some s => exact .ok _

private theorem agreesUnder_labelPredicates (node : Node) :
    AgreesUnder above (labelPredicates path node)
      (labelPredicates (joinPath (some above) path) node) := by
  refine (agreesUnder_children above path node).bind fun children ↦ .bind (.mapM ?_) fun _ ↦ .ok _
  rintro ⟨key, leaf⟩ -
  have hpath : joinPath (some (joinPath (some above) path)) key =
      joinPath (some above) (joinPath (some path) key) := by
    simp [joinPath, String.append_assoc]
  dsimp only
  rw [hpath]
  exact (agreesUnder_values above _ leaf).bind fun values ↦ .ok _

/-- What a node asks for does not depend on the path it stands at. -/
theorem agreesUnder_slotPredicates (node : Node) (slot : Slot) :
    AgreesUnder above (slotPredicates path node slot)
      (slotPredicates (joinPath (some above) path) node slot) := by
  cases slot with
  | column c =>
    exact (agreesUnder_values above path node).bind fun values ↦
      .bind (.mapM fun raw _ ↦ agreesUnder_operand above path c raw) fun _ ↦ .ok _
  | status s =>
    exact (agreesUnder_values above path node).bind fun values ↦
      .bind (.mapM fun raw _ ↦ agreesUnder_shownStatus above path raw) fun _ ↦ .ok _
  | labels => exact agreesUnder_labelPredicates above path node
  | run => exact .error rfl rfl

end Nodes

private theorem slot?_runOfHost {key : String} (h : key ≠ "status") :
    Scope.runOfHost.slot? key = Scope.run.slot? key := by
  dsimp only [Scope.slot?]
  split <;> first | rfl | exact absurd rfl h

/-- The filters of hosts that are those of their runs. -/
theorem ofTree_runHost_run (tree : Tree) :
    Filter.ofTree [("run", .branch tree)] .runHost =
      Filter.mk <$> flatPredicates .runOfHost (some "run") tree := by
  rw [Filter.ofTree, hostPredicates, List.mapM_cons, List.mapM_nil]
  change Filter.mk <$> ((flatPredicates .runOfHost (some "run") tree >>= _) >>= _) = _
  cases flatPredicates .runOfHost (some "run") tree with
  | error e => rfl
  | ok ps => simp [Except.bind, Bind.bind, pure, Except.pure]

/-- A tree of run filters without a status is compiled alike under the filters of hosts, and refused
alike up to its paths. -/
theorem agreesUnder_ofTree_run {tree : Tree} (h : ∀ e ∈ tree, e.1 ≠ "status") :
    AgreesUnder "run" (Filter.ofTree tree .run)
      (Filter.ofTree [("run", .branch tree)] .runHost) := by
  have hflat : AgreesUnder "run" (flatPredicates .run none tree)
      (flatPredicates .runOfHost (some "run") tree) := by
    refine .bind (.mapM ?_) fun _ ↦ .ok _
    rintro ⟨key, node⟩ hmem
    dsimp only
    rw [slot?_runOfHost (h _ hmem)]
    cases Scope.run.slot? key with
    | none => exact .error rfl rfl
    | some slot => exact agreesUnder_slotPredicates "run" key node slot
  rw [ofTree_runHost_run]
  exact hflat.map Filter.mk

/-- Filters of hosts that are those of their runs ask for no status. -/
theorem not_isStatus_of_ofTree_runHost_run {tree : Tree} {f : Filter}
    (h : Filter.ofTree [("run", .branch tree)] .runHost = .ok f) :
    ∀ p ∈ f.predicates, ¬p.IsStatus := by
  rw [ofTree_runHost_run] at h
  obtain ⟨ps, hps, rfl⟩ := Checked.map_eq_ok_iff.1 h
  exact not_isStatus_of_runOfHost hps

end PlaybookRuns.Query
