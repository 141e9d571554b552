import PlaybookRuns.Proofs.Query.Tree
import PlaybookRuns.Proofs.Reordering
import PlaybookRuns.Query.DeepObject

/-!
# Bracketed parameters

A key belongs to a root at one path at most, so parameters with different keys do not get in each
other's way. Main statements: where no key is malformed, what is gathered depends only on the values
of each key in their order, not on the order of the keys, and the leaves at the top are those of the
keys with a single segment.
-/

namespace PlaybookRuns.Query

/-! ## Paths of keys -/

/-- A path as it is written. -/
def brackets (path : List String) : List Char :=
  path.flatMap fun segment ↦ '[' :: segment.toList ++ [']']

private theorem readSegments_none_cons_eq_some_iff {c : Char} {cs : List Char}
    {path : List String} :
    readSegments none (c :: cs) = some path ↔ c = '[' ∧ readSegments (some []) cs = some path := by
  rw [readSegments, Option.ite_none_right_eq_some]

private theorem readSegments_some_cons_eq_some_iff {segment cs : List Char} {c : Char}
    {path : List String} :
    readSegments (some segment) (c :: cs) = some path ↔
      (c = ']' ∧ segment ≠ [] ∧ ∃ rest, readSegments none cs = some rest ∧
        String.ofList segment.reverse :: rest = path) ∨
      (c ≠ ']' ∧ c ≠ '[' ∧ readSegments (some (c :: segment)) cs = some path) := by
  rw [readSegments]
  by_cases hclosing : c = ']'
  · simp [hclosing, List.isEmpty_iff]
  · simp [hclosing]

private theorem eq_brackets_of_readSegments {pending : Option (List Char)} {cs : List Char}
    {path : List String} (h : readSegments pending cs = some path) :
    pending.elim [] (fun segment ↦ '[' :: segment.reverse) ++ cs = brackets path := by
  induction cs generalizing pending path with
  | nil =>
    cases pending with
    | none =>
      obtain rfl := Option.some.inj h
      rfl
    | some segment => cases h
  | cons c cs ih =>
    cases pending with
    | none =>
      obtain ⟨rfl, hopened⟩ := readSegments_none_cons_eq_some_iff.1 h
      exact ih hopened
    | some segment =>
      obtain ⟨rfl, -, rest, hrest, rfl⟩ | ⟨-, -, hlonger⟩ :=
        readSegments_some_cons_eq_some_iff.1 h
      · have hcs : cs = brackets rest := ih hrest
        simp [hcs, brackets]
      · simpa using ih hlonger

/-- Whether a text has no brackets in it. -/
def BracketFree (s : String) : Prop := '[' ∉ s.toList ∧ ']' ∉ s.toList

/-- Brackets are looked for among the characters. -/
instance (s : String) : Decidable (BracketFree s) := inferInstanceAs (Decidable (_ ∧ _))

private theorem readSegments_append_cons (pending : List Char) {cs : List Char}
    (h : '[' ∉ cs ∧ ']' ∉ cs) (rest : List Char) :
    readSegments (some pending) (cs ++ ']' :: rest) =
      if pending.reverse ++ cs = [] then none
      else (readSegments none rest).map (String.ofList (pending.reverse ++ cs) :: ·) := by
  induction cs generalizing pending with
  | nil => simp [readSegments, List.isEmpty_iff]
  | cons c cs ih =>
    simp only [List.mem_cons, not_or] at h
    obtain ⟨⟨hopening, hopenings⟩, hclosing, hclosings⟩ := h
    rw [List.cons_append, readSegments, if_neg (Ne.symm hclosing), if_neg (Ne.symm hopening),
      ih _ ⟨hopenings, hclosings⟩]
    simp

/-- A written path is read as itself where no segment is empty, and not otherwise. -/
theorem readSegments_brackets_eq_some_iff {path path' : List String}
    (h : ∀ segment ∈ path, BracketFree segment) :
    readSegments none (brackets path) = some path' ↔ path' = path ∧ ∀ segment ∈ path,
      segment ≠ "" := by
  induction path generalizing path' with
  | nil => simp [brackets, readSegments, eq_comm]
  | cons segment path ih =>
    obtain ⟨hsegment, hpath⟩ := List.forall_mem_cons.1 h
    have hstep := readSegments_append_cons [] hsegment (brackets path)
    have hwritten : brackets (segment :: path) =
        '[' :: (segment.toList ++ ']' :: brackets path) := by simp [brackets]
    rw [hwritten, readSegments, if_pos rfl, hstep]
    by_cases hempty : segment = ""
    · simp [hempty]
    · simp only [List.reverse_nil, List.nil_append, String.toList_eq_nil_iff, hempty, if_false,
        String.ofList_toList, Option.map_eq_some_iff, ih hpath, List.forall_mem_cons]
      constructor
      · rintro ⟨_, ⟨rfl, hrest⟩, rfl⟩
        exact ⟨rfl, hempty, hrest⟩
      · rintro ⟨rfl, -, hrest⟩
        exact ⟨path, ⟨rfl, hrest⟩, rfl⟩

private theorem bracketFree_of_readSegments {pending : Option (List Char)} {cs : List Char}
    {path : List String} (hpending : ∀ segment ∈ pending, '[' ∉ segment ∧ ']' ∉ segment)
    (h : readSegments pending cs = some path) : ∀ segment ∈ path, segment ≠ "" ∧
      BracketFree segment := by
  induction cs generalizing pending path with
  | nil =>
    cases pending with
    | none =>
      obtain rfl := Option.some.inj h
      exact List.forall_mem_nil _
    | some segment => cases h
  | cons c cs ih =>
    cases pending with
    | none =>
      obtain ⟨-, hopened⟩ := readSegments_none_cons_eq_some_iff.1 h
      exact ih (by simp) hopened
    | some segment =>
      obtain ⟨hopening, hclosing⟩ := hpending segment rfl
      obtain ⟨-, hne, rest, hrest, rfl⟩ | ⟨hnotClosing, hnotOpening, hlonger⟩ :=
        readSegments_some_cons_eq_some_iff.1 h
      · refine List.forall_mem_cons.2 ⟨⟨?_, ?_⟩, ih (by simp) hrest⟩
        · simpa using hne
        · simpa [BracketFree] using ⟨hopening, hclosing⟩
      · refine ih ?_ hlonger
        rintro _ ⟨⟩
        simp [hopening, hclosing, hnotClosing.symm, hnotOpening.symm]

/-- A path is read from just the brackets in which its segments are written, one segment at least,
none of them empty and none with brackets in it. -/
theorem path?_eq_some_iff {rest : List Char} {path : List String} :
    path? rest = some path ↔
      path ≠ [] ∧ (∀ segment ∈ path, segment ≠ "" ∧ BracketFree segment) ∧
        rest = brackets path := by
  rw [path?, Option.filter_eq_some_iff]
  constructor
  · rintro ⟨hread, hne⟩
    exact ⟨by simpa using hne, bracketFree_of_readSegments (by simp) hread,
      eq_brackets_of_readSegments hread⟩
  · rintro ⟨hne, hsegments, rfl⟩
    refine ⟨?_, by simpa using hne⟩
    rw [readSegments_brackets_eq_some_iff fun segment hmem ↦ (hsegments segment hmem).2]
    exact ⟨rfl, fun segment hmem ↦ (hsegments segment hmem).1⟩

/-- A key that belongs to a root is the root and the rest, which is empty or starts with a
bracket. -/
theorem suffix?_eq_some_iff {root key : String} {rest : List Char} :
    suffix? root key = some rest ↔
      key.toList = root.toList ++ rest ∧ (rest = [] ∨ rest.head? = some '[') := by
  rw [suffix?, Option.filter_eq_some_iff, List.isPrefixOf?_eq_some_iff_append_eq, Bool.or_eq_true,
    List.isEmpty_iff, beq_iff_eq, eq_comm]

/-- A key belongs to a root at one path at most. -/
theorem eq_of_path?_eq {root key key' : String} {rest rest' : List Char} {path : List String}
    (hrest : suffix? root key = some rest) (hrest' : suffix? root key' = some rest')
    (hpath : path? rest = some path) (hpath' : path? rest' = some path) : key = key' := by
  obtain ⟨-, -, htext⟩ := path?_eq_some_iff.1 hpath
  obtain ⟨-, -, htext'⟩ := path?_eq_some_iff.1 hpath'
  have heq : rest = rest' := htext.trans htext'.symm
  apply String.toList_inj.1
  rw [(suffix?_eq_some_iff.1 hrest).1, (suffix?_eq_some_iff.1 hrest').1, heq]

/-! ## Gathering -/

namespace DeepObject

/-- Whether a parameter belongs to a root. -/
def belongs (root : String) (param : Text.Form.Pair) : Bool := (suffix? root param.1).isSome

/-- A parameter that does not belong to the root is passed over. -/
theorem add_of_not_belongs {root : String} {param : Text.Form.Pair}
    (h : ¬belongs root param = true) (object : DeepObject) :
    add root object param = object := by
  rw [belongs, Option.not_isSome_iff_eq_none] at h
  rw [add, h]

/-- A parameter of the root leaves no fault exactly when its path is read and taken. -/
theorem add_malformed_eq_nil_iff {root : String} {object : DeepObject} {param : Text.Form.Pair}
    {rest : List Char} (h : suffix? root param.1 = some rest) :
    (add root object param).malformed = [] ↔
      object.malformed = [] ∧ ∃ path tree, path? rest = some path ∧
        object.tree.insert param.2 path = (tree, true) ∧
        add root object param = ⟨tree, []⟩ := by
  rw [add, h]
  cases hpath : path? rest with
  | none => simp [hpath]
  | some path =>
    rcases htree : object.tree.insert param.2 path with ⟨tree, taken⟩
    cases taken
    · simp [hpath, htree]
    · simp [hpath, htree]

/-- A fault remains. -/
theorem malformed_eq_nil_of_add {root : String} {object : DeepObject} {param : Text.Form.Pair}
    (h : (add root object param).malformed = []) : object.malformed = [] := by
  cases hrest : suffix? root param.1 with
  | none =>
    rw [add, hrest] at h
    exact h
  | some rest => exact ((add_malformed_eq_nil_iff hrest).1 h).1

/-- Of two parameters with different keys, either may come first if both are taken. -/
theorem add_comm {root : String} {object : DeepObject} {p q : Text.Form.Pair} (hne : p.1 ≠ q.1)
    (h : (add root (add root object p) q).malformed = []) :
    add root (add root object q) p = add root (add root object p) q := by
  cases hp : suffix? root p.1 with
  | none =>
    have hpass (o : DeepObject) : add root o p = o := by rw [add, hp]
    rw [hpass, hpass]
  | some rest =>
    cases hq : suffix? root q.1 with
    | none =>
      have hpass (o : DeepObject) : add root o q = o := by rw [add, hq]
      rw [hpass, hpass]
    | some rest' =>
      obtain ⟨hfirst, path', tree₂, hpath', htree₂, hresult⟩ := (add_malformed_eq_nil_iff hq).1 h
      obtain ⟨hobject, path, tree₁, hpath, htree₁, hbetween⟩ :=
        (add_malformed_eq_nil_iff hp).1 hfirst
      rw [hbetween] at htree₂
      have hpaths : path ≠ path' := by
        rintro rfl
        exact hne (eq_of_path?_eq hp hq hpath hpath')
      obtain ⟨tree₁', htree₁', htree₂'⟩ := Tree.insert_comm hpaths htree₁ htree₂
      rw [hresult]
      simp [add, hp, hq, hpath, hpath', htree₁', htree₂', hobject]

/-- Only the parameters that belong to a root are gathered. -/
theorem ofParams_eq_foldl_filter (params : Params) (root : String) :
    ofParams params root = (params.filter (belongs root)).foldl (add root) empty := by
  rw [ofParams, List.foldl_filter]
  congr 1
  funext object param
  split
  · rfl
  · next hother => exact add_of_not_belongs hother object

/-- Where no key is malformed, what is gathered under a root depends only on the values of each of
its keys. -/
theorem ofParams_eq_of_filter_eq {root : String} {params params' : Params}
    (h : ∀ key, (suffix? root key).isSome →
      params.filter (·.1 = key) = params'.filter (·.1 = key))
    (hwell : (ofParams params root).malformed = []) :
    ofParams params' root = ofParams params root := by
  have hkeys (k : String) : (params.filter (belongs root)).filter (·.1 = k) =
      (params'.filter (belongs root)).filter (·.1 = k) := by
    have hcut (ps : Params) : (ps.filter (belongs root)).filter (·.1 = k) =
        if (suffix? root k).isSome then ps.filter (·.1 = k) else [] := by
      rw [List.filter_filter]
      split
      · next hk =>
        apply List.filter_congr
        intro p _
        by_cases hp : p.1 = k
        · simp [hp, belongs, hk]
        · simp [hp]
      · next hk =>
        rw [List.filter_eq_nil_iff]
        intro p _
        by_cases hp : p.1 = k
        · simpa [hp, belongs] using hk
        · simp [hp]
    rw [hcut, hcut]
    split
    · next hk => exact h k hk
    · rfl
  rw [ofParams_eq_foldl_filter] at hwell ⊢
  rw [ofParams_eq_foldl_filter]
  exact Reordering.foldl_eq_of_filter_eq (P := fun object ↦ object.malformed = [])
    (fun _ _ ↦ malformed_eq_nil_of_add) (fun _ _ _ ↦ add_comm) hkeys empty hwell

/-! ## Leaves -/

private theorem leaf_mem_add {root : String} {object : DeepObject} {param : Text.Form.Pair}
    {key : String} {values : List String}
    (h : (key, .leaf values) ∈ (add root object param).tree) :
    (∃ rest, suffix? root param.1 = some rest ∧ path? rest = some [key]) ∨
      (key, .leaf values) ∈ object.tree := by
  rw [add] at h
  split at h
  · exact .inr h
  · next rest hrest =>
    split at h
    · exact .inr h
    · next path hpath =>
      rcases Tree.leaf_mem_insert h with rfl | hmem
      · exact .inl ⟨rest, hrest, hpath⟩
      · exact .inr hmem

private theorem leaf_mem_foldl {params : Params} {root : String} {object : DeepObject}
    {key : String} {values : List String}
    (h : (key, .leaf values) ∈ (params.foldl (add root) object).tree) :
    (∃ param ∈ params, ∃ rest, suffix? root param.1 = some rest ∧ path? rest = some [key]) ∨
      (key, .leaf values) ∈ object.tree := by
  induction params generalizing object with
  | nil => exact .inr h
  | cons param params ih =>
    rcases ih h with ⟨other, hmem, hpath⟩ | hmem
    · exact .inl ⟨other, List.mem_cons_of_mem _ hmem, hpath⟩
    · exact (leaf_mem_add hmem).imp_left fun hpath ↦ ⟨param, List.mem_cons_self, hpath⟩

/-- Every leaf at the top is at the path of a parameter. -/
theorem exists_of_leaf_mem {params : Params} {root key : String} {values : List String}
    (h : (key, .leaf values) ∈ (ofParams params root).tree) :
    ∃ param ∈ params, ∃ rest, suffix? root param.1 = some rest ∧ path? rest = some [key] :=
  (leaf_mem_foldl h).resolve_right List.not_mem_nil

private theorem foldl_add_leaf {root key segment : String} {rest : List Char}
    (hrest : suffix? root key = some rest) (hpath : path? rest = some [segment])
    (values given : List String) (object : DeepObject) :
    (values.map (key, ·)).foldl (add root)
        { object with tree := Keyed.insert segment (.leaf given) object.tree } =
      { object with tree := Keyed.insert segment (.leaf (given ++ values)) object.tree } := by
  induction values generalizing given with
  | nil => rw [List.map_nil, List.foldl_nil, List.append_nil]
  | cons value values ih =>
    have hadd : add root { object with tree := Keyed.insert segment (.leaf given) object.tree }
        (key, value) =
        { object with tree := Keyed.insert segment (.leaf (given ++ [value])) object.tree } := by
      simp only [add, hrest, hpath, Tree.insert, Keyed.find?_insert, if_pos, Option.getD_some,
        Keyed.insert_insert_self]
    rw [List.map_cons, List.foldl_cons, hadd, ih, List.append_assoc, List.singleton_append]

/-- The values of a new key with a single segment make a leaf. -/
theorem foldl_add_new_leaf {root key segment : String} {rest : List Char}
    (hrest : suffix? root key = some rest) (hpath : path? rest = some [segment])
    {values : List String} (hvalues : values ≠ []) {object : DeepObject}
    (hnone : Keyed.find? segment object.tree = none) :
    (values.map (key, ·)).foldl (add root) object =
      { object with tree := Keyed.insert segment (.leaf values) object.tree } := by
  obtain ⟨value, values, rfl⟩ := List.exists_cons_of_ne_nil hvalues
  have hadd : add root object (key, value) =
      { object with tree := Keyed.insert segment (.leaf [value]) object.tree } := by
    simp only [add, hrest, hpath, Tree.insert, hnone, Option.getD_none, List.nil_append, if_true]
  rw [List.map_cons, List.foldl_cons, hadd, foldl_add_leaf hrest hpath]
  rfl

end DeepObject

end PlaybookRuns.Query
