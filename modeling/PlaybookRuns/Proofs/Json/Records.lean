import Mathlib.Data.List.Forall2
import PlaybookRuns.Proofs.Checked
import PlaybookRuns.Proofs.Json.Reading
import PlaybookRuns.Proofs.Keyed
import PlaybookRuns.Proofs.Uuid
import PlaybookRuns.Run.Codec

/-!
# Decoding what was written

What decoders make of the values of programs. Main statements: what a decoder restores it decodes
from the text that was written; a record is restored where each field finds what was written under
its name; any value is restored as itself within the bounds of the reader.
-/

namespace PlaybookRuns.Json

variable {α : Type}

/-- That a decoder reads a written value back as the value it was written for. -/
structure Restores (decode : Decoder α) (v : Json) (a : α) : Prop where
  isExact : Exact v
  decode_eq : decode v.document = .ok a

/-- What is restored is decoded from its text. -/
theorem Restores.decode_toText {decoder : Decoder α} {v : Json} {a : α}
    (h : Restores decoder v a) : decode decoder v.toText = .ok a := by
  rw [Json.decode_toText decoder h.isExact, h.decode_eq]

/-- A decoder with its results changed restores what is changed into them. -/
theorem Restores.map {β : Type} {decode : Decoder α} {v : Json} {a : α} (f : α → β)
    (h : Restores decode v a) : Restores (fun d ↦ (decode d).map f) v (f a) := by
  refine ⟨h.isExact, ?_⟩
  rw [h.decode_eq]
  rfl

/-- A value that is not written as null is restored where a null is possible. -/
theorem Restores.optional {decode : Decoder α} {v : Json} {a : α} (h : Restores decode v a)
    (hnull : v.document ≠ .null) : Restores (Shape.optional decode) v (some a) := by
  refine ⟨h.isExact, ?_⟩
  rw [Shape.optional]
  · rw [h.decode_eq]
    rfl
  · exact hnull

namespace Shape

/-! ## Records -/

/-- That a field may have been written under a name: absent where it may be missing, or with a value
that it takes. -/
structure Field.Admits (field : Field) (entry : String × Option Json) : Prop where
  name_eq : field.name = entry.1
  isExact : ∀ v, entry.2 = some v → Exact v
  check_eq : ∀ v, entry.2 = some v → field.check v.document = .ok ()
  present : field.presence = .required → entry.2.isSome

/-- A field takes a value that its decoder restores. -/
theorem Field.Admits.of {name : String} {decode : Decoder α} {presence : Presence} {v : Json}
    {a : α} (h : Restores decode v a) : (Field.of name decode presence).Admits (name, some v) where
  name_eq := rfl
  isExact := by
    rintro _ ⟨⟩
    exact h.isExact
  check_eq := by
    rintro _ ⟨⟩
    change (decode v.document).map _ = _
    rw [h.decode_eq]
    rfl
  present _ := rfl

/-- A field that may be missing is left out if there is no value. -/
theorem Field.Admits.ofOption {name : String} {decode : Decoder (Option α)} {write : α → Json}
    (h : ∀ a, Restores decode (write a) (some a)) (o : Option α) :
    (Field.of name decode .defaulted).Admits (name, o.map write) := by
  cases o with
  | some a => exact .of (h a)
  | none => exact ⟨rfl, nofun, nofun, nofun⟩

private theorem scanMembers_eq_ok {fields : List Field} (members : List (String × Json))
    (hknown : ∀ m ∈ members, ∃ field,
      fields.find? (·.name = m.1) = some field ∧ field.check m.2.document = .ok ())
    (seen : List (String × Document))
    (hnodup : ((seen.map Prod.fst) ++ members.map Prod.fst).Nodup) :
    scanMembers fields true seen (memberDocuments members) =
      .ok (seen ++ members.map fun m ↦ (m.1, m.2.document)) := by
  -- what is scanned moves over to `seen`, so the keys of both together stay the same
  induction members generalizing seen with
  | nil => simp [memberDocuments, scanMembers, whenClosed]
  | cons m members ih =>
    obtain ⟨key, value⟩ := m
    obtain ⟨⟨field, hfield, hcheck⟩, hrest⟩ := List.forall_mem_cons.1 hknown
    have hnew : seen.any (·.1 = key) = false := by
      rw [List.any_eq_false]
      intro e he heq
      exact (List.nodup_append.1 hnodup).2.2 e.1 (List.mem_map_of_mem he) key List.mem_cons_self
        (of_decide_eq_true heq)
    have hmoved :
        ((seen ++ [(key, value.document)]).map Prod.fst ++ members.map Prod.fst).Nodup := by
      rw [List.map_append, List.append_assoc]
      exact hnodup
    have hscan := ih hrest (seen ++ [(key, value.document)]) hmoved
    rw [memberDocuments, scanMembers]
    simp only [hfield, hnew, hcheck, bind, Except.bind, Bool.false_eq_true, if_false]
    rw [hscan, List.append_assoc, List.map_cons, List.singleton_append]

section Present

variable {fields : List Field} {entries : List (String × Option Json)}

-- The entries that are written, those that are present.
private def present (entries : List (String × Option Json)) : List (String × Json) :=
  entries.filterMap fun (key, value) ↦ value.map (key, ·)

private theorem mem_present {m : String × Json} :
    m ∈ present entries ↔ (m.1, some m.2) ∈ entries := by
  rw [present, List.mem_filterMap]
  constructor
  · rintro ⟨⟨key, value⟩, hmem, hvalue⟩
    obtain ⟨v, rfl, rfl⟩ := Option.map_eq_some_iff.1 hvalue
    exact hmem
  · exact fun hmem ↦ ⟨_, hmem, rfl⟩

private theorem present_sublist (entries : List (String × Option Json)) :
    ((present entries).map Prod.fst).Sublist (entries.map Prod.fst) := by
  induction entries with
  | nil => exact .slnil
  | cons e entries ih =>
    obtain ⟨key, value⟩ := e
    cases value with
    | none => exact ih.cons key
    | some v => exact ih.cons_cons key

private theorem lookup_present (h : (entries.map Prod.fst).Nodup) {e : String × Option Json}
    (he : e ∈ entries) : (present entries).lookup e.1 = e.2 := by
  refine Option.ext fun v ↦ ?_
  rw [Keyed.lookup_eq_some_iff (h.sublist (present_sublist entries)), mem_present]
  constructor
  · exact fun hmem ↦ congrArg Prod.snd (List.inj_on_of_nodup_map h he hmem rfl)
  · intro hv
    rwa [← hv]

private theorem lookup_documents (members : List (String × Json)) (key : String) :
    (members.map fun m ↦ (m.1, m.2.document)).lookup key =
      (members.lookup key).map document := by
  induction members with
  | nil => rfl
  | cons m members ih =>
    rw [List.map_cons, List.lookup_cons, List.lookup_cons, ih]
    split <;> rfl

private theorem any_eq_isSome_lookup {β : Type} (members : List (String × β)) (key : String) :
    members.any (·.1 = key) = (members.lookup key).isSome := by
  induction members with
  | nil => rfl
  | cons m members ih =>
    rw [List.any_cons, List.lookup_cons, ih]
    by_cases heq : m.1 = key
    · simp [heq]
    · simp [heq, beq_eq_false_iff_ne.2 (Ne.symm heq)]

private theorem exists_rel_of_mem {β γ : Type} {R : β → γ → Prop} {bs : List β} {cs : List γ}
    (h : List.Forall₂ R bs cs) {b : β} (hb : b ∈ bs) : ∃ c ∈ cs, R b c := by
  induction h with
  | nil => cases hb
  | cons hrel _ ih =>
    rcases List.mem_cons.1 hb with rfl | hb
    · exact ⟨_, List.mem_cons_self, hrel⟩
    · obtain ⟨c, hc, hother⟩ := ih hb
      exact ⟨c, List.mem_cons_of_mem _ hc, hother⟩

section Admitted

variable (h : List.Forall₂ Field.Admits fields entries)
include h

private theorem map_fst_eq : entries.map Prod.fst = fields.map (·.name) := by
  induction h with
  | nil => rfl
  | cons hadmits _ ih => rw [List.map_cons, List.map_cons, ih, hadmits.name_eq]

private theorem exists_field {m : String × Json} (hm : m ∈ Keyed.ofList (present entries)) :
    ∃ field ∈ fields, field.Admits (m.1, some m.2) :=
  exists_rel_of_mem (List.Forall₂.flip h) (mem_present.1 (Keyed.mem_of_mem_ofList hm))

private theorem exact_ofPresent : Exact (ofPresent entries) := by
  refine .object fun m hm ↦ ?_
  obtain ⟨_, -, hadmits⟩ := exists_field h hm
  exact hadmits.isExact _ rfl

private theorem taken_of_mem (hnodup : (fields.map (·.name)).Nodup) {m : String × Json}
    (hm : m ∈ Keyed.ofList (present entries)) :
    ∃ field, fields.find? (·.name = m.1) = some field ∧ field.check m.2.document = .ok () := by
  obtain ⟨field, hfield, hadmits⟩ := exists_field h hm
  refine ⟨field, ?_, hadmits.check_eq _ rfl⟩
  rw [Keyed.find?_eq_some_iff_of_nodup hnodup fun _ ↦ of_decide_eq_true]
  exact ⟨hfield, decide_eq_true hadmits.name_eq⟩

private theorem all_required {found : List (String × Document)}
    (hlookup : ∀ e ∈ entries, found.lookup e.1 = e.2.map document) :
    (fields.all fun f ↦ f.presence ≠ .required || found.any (·.1 = f.name)) = true := by
  rw [List.all_eq_true]
  intro field hfield
  obtain ⟨e, he, hadmits⟩ := exists_rel_of_mem h hfield
  by_cases hpresence : field.presence = .required
  · rw [any_eq_isSome_lookup, hadmits.name_eq, hlookup e he, Option.isSome_map,
      hadmits.present hpresence, Bool.or_true]
  · simp [hpresence]

private theorem record_ofPresent (hnodup : (fields.map (·.name)).Nodup) :
    ∃ found, record fields (ofPresent entries).document = .ok found ∧
      ∀ e ∈ entries, found.lookup e.1 = e.2.map document := by
  have hkeys : (entries.map Prod.fst).Nodup := by
    rw [map_fst_eq h]
    exact hnodup
  have hpresent := hkeys.sublist (present_sublist entries)
  have hsorted := Keyed.sorted_ofList (present entries)
  let found := (Keyed.ofList (present entries)).map fun m ↦ (m.1, m.2.document)
  have hlookup : ∀ e ∈ entries, found.lookup e.1 = e.2.map document := by
    intro e he
    rw [lookup_documents, Keyed.lookup_eq_find? hsorted, Keyed.find?_ofList hpresent,
      lookup_present hkeys he]
  refine ⟨found, ?_, hlookup⟩
  have hscan := scanMembers_eq_ok (Keyed.ofList (present entries))
    (fun _ hm ↦ taken_of_mem h hnodup hm) [] hsorted.nodup
  change (scanMembers fields true [] (memberDocuments (Keyed.ofList (present entries))) >>= _) = _
  rw [hscan]
  exact if_pos (all_required h hlookup)

/-- A record is restored where it is built from what was written under the names of its fields. -/
theorem restores_ofPresent {build : List (String × Document) → Except Fault α} {a : α}
    (hnodup : (fields.map (·.name)).Nodup)
    (hbuild : ∀ found : List (String × Document),
      (∀ key value, entries.lookup key = some value → found.lookup key = value.map document) →
        build found = .ok a) :
    Restores (fun d ↦ record fields d >>= build) (ofPresent entries) a := by
  obtain ⟨found, hrecord, hlookup⟩ := record_ofPresent h hnodup
  refine ⟨exact_ofPresent h, ?_⟩
  rw [hrecord]
  refine hbuild found fun key value hvalue ↦ ?_
  obtain ⟨_, _, rfl, -⟩ := List.lookup_eq_some_iff.1 hvalue
  exact hlookup (key, value) (by simp)

end Admitted

/-- A record is restored where it is built from the members under the names of its fields. -/
theorem restores_ofMembers {members : List (String × Json)}
    {build : List (String × Document) → Except Fault α} {a : α}
    (h : List.Forall₂ (fun field m ↦ Field.Admits field (m.1, some m.2)) fields members)
    (hnodup : (fields.map (·.name)).Nodup)
    (hbuild : ∀ found : List (String × Document),
      (∀ key v, members.lookup key = some v → found.lookup key = some v.document) →
        build found = .ok a) :
    Restores (fun d ↦ record fields d >>= build) (ofMembers members) a := by
  have hentries : List.Forall₂ Field.Admits fields (members.map fun m ↦ (m.1, some m.2)) := by
    rwa [List.forall₂_map_right_iff]
  have hall : ofPresent (members.map fun m ↦ (m.1, some m.2)) = ofMembers members := by
    rw [ofPresent, List.filterMap_map]
    exact congrArg ofMembers List.filterMap_some
  rw [← hall]
  refine restores_ofPresent hentries hnodup fun found hfound ↦ hbuild found fun key v hv ↦ ?_
  refine hfound key (some v) ?_
  obtain ⟨before, after, rfl, hbefore⟩ := List.lookup_eq_some_iff.1 hv
  rw [List.lookup_eq_some_iff]
  refine ⟨before.map fun m ↦ (m.1, some m.2), after.map fun m ↦ (m.1, some m.2), by simp, ?_⟩
  rw [List.forall_mem_map]
  exact hbefore

end Present

/-! ## Fields -/

section Fields

variable {found : List (String × Document)} {key : String} {decode : Decoder α} {v : Json} {a : α}

/-- A required field is found where its value is restored. -/
theorem required_of_restores (hfound : found.lookup key = some v.document)
    (h : Restores decode v a) : required key decode found = .ok a := by
  rw [required, hfound]
  exact h.decode_eq

/-- A field with a default is found where its value is restored. -/
theorem orDefault_of_restores {default : α} (hfound : found.lookup key = some v.document)
    (h : Restores decode v a) : orDefault key decode default found = .ok a := by
  rw [orDefault, hfound]
  exact h.decode_eq

/-- A value that may be missing is restored where it was left out if there is none. -/
theorem orDefault_of_option {decode : Decoder (Option α)} {write : α → Json} {o : Option α}
    (hfound : found.lookup key = (o.map write).map document)
    (h : ∀ a, Restores decode (write a) (some a)) : orDefault key decode none found = .ok o := by
  rw [orDefault, hfound]
  cases o with
  | none => rfl
  | some a => exact (h a).decode_eq

end Fields

/-! ## Plain values -/

/-- Texts are restored. -/
theorem restores_text (s : String) : Restores text (.string s) s := ⟨.string s, rfl⟩

/-- A text in a notation of its own is restored where it is read back. -/
theorem restores_parsed {parse? : String → Option α} {s : String} {a : α}
    (h : parse? s = some a) : Restores (parsed parse?) (.string s) a := by
  refine ⟨.string s, Checked.bind_eq_ok_iff.2 ⟨s, rfl, ?_⟩⟩
  rw [h]

/-- Identifiers are restored. -/
theorem restores_uuid (id : Uuid) : Restores uuid id.toJson id :=
  restores_parsed (Uuid.ofText?_toText id)

/-- Names are restored as what they name. -/
theorem restores_name {ofName? : String → Option α} {s : String} {a : α}
    (h : ofName? s = some a) : Restores (name ofName?) (.string s) a := by
  refine ⟨.string s, ?_⟩
  rw [document, name, h]

private theorem ofDigits_wholeDigits (n : Nat) : ofDigits (wholeDigits n) = n := by
  have hfold (cs : List Char) (soFar : Nat) :
      (cs.map fun c ↦ c.toNat - '0'.toNat).foldl (fun n d ↦ n * 10 + d) soFar =
        Nat.ofDigitChars 10 cs soFar := by
    induction cs generalizing soFar with
    | nil => rfl
    | cons c cs ih => rw [List.map_cons, List.foldl_cons, ih, Nat.ofDigitChars_cons, Nat.mul_comm]
  rw [ofDigits, wholeDigits, hfold, Nat.ofDigitChars_ten_toDigits]

/-- Whole numbers of 64 bits are read as such. -/
theorem value?_integerText {n : Int} (hlow : Int64.minValue.toInt ≤ n) (hhigh : n < UInt64.size) :
    (integerText n).value? = some (.integer n) := by
  simp only [integerText, NumberText.value?, ofDigits_wholeDigits, decide_eq_true_eq]
  by_cases hneg : n < 0
  · have habs : -(n.natAbs : Int) = n := by omega
    rw [habs, if_pos ⟨hneg, by omega, hlow⟩]
  · have habs : (n.natAbs : Int) = n := by omega
    rw [if_neg fun h ↦ hneg h.1, if_pos ⟨hneg, by omega⟩, habs]

/-- Integers within bounds are restored. -/
theorem restores_integer {low high n : Int} (hlow : low ≤ n) (hhigh : n ≤ high)
    (hmin : Int64.minValue.toInt ≤ low) (hmax : high < UInt64.size) :
    Restores (integer low high) (.integer n) n := by
  refine ⟨.integer n, ?_⟩
  rw [document, integer, value?_integerText (by omega) (by omega)]
  exact if_pos ⟨hlow, hhigh⟩

/-- Integers of 32 bits are restored. -/
theorem restores_int32 (n : Int32) : Restores int32 (.integer n.toInt) n := by
  have hread := (restores_integer n.minValue_le_toInt (Int32.toInt_le n) (by decide)
    (by decide)).map Int32.ofInt
  rwa [n.ofInt_toInt] at hread

/-- Integers of 64 bits are restored. -/
theorem restores_int64 (n : Int64) : Restores int64 (.integer n.toInt) n := by
  have hread := (restores_integer n.minValue_le_toInt (Int64.toInt_le n) (by decide)
    (by decide)).map Int64.ofInt
  rwa [n.ofInt_toInt] at hread

/-- Texts are restored where they may be missing. -/
theorem restores_someText (s : String) : Restores (optional text) (.string s) (some s) :=
  (restores_text s).optional nofun

/-- Identifiers are restored where they may be missing. -/
theorem restores_someUuid (id : Uuid) : Restores (optional uuid) id.toJson (some id) :=
  (restores_uuid id).optional nofun

/-- A value or null is restored where the value is, and is not written as null. -/
theorem restores_ofOption {write : α → Json} {decode : Decoder α}
    (h : ∀ a, Restores (optional decode) (write a) (some a)) (o : Option α) :
    Restores (optional decode) (ofOption write o) o := by
  cases o with
  | none => exact ⟨.null, rfl⟩
  | some a => exact h a

/-! ## Lists -/

/-- Lists are restored where their items are. -/
theorem restores_list {write : α → Json} {decode : Decoder α} {as : List α}
    (h : ∀ a ∈ as, Restores decode (write a) a) :
    Restores (list decode) (.array (as.map write)) as := by
  have hitems : (itemDocuments (as.map write)).mapM decode = .ok as := by
    rw [Checked.mapM_eq_ok_iff, itemDocuments_eq_map, List.map_map, List.map_map]
    exact List.map_congr_left fun a ha ↦ (h a ha).decode_eq
  refine ⟨.array (List.forall_mem_map.2 fun a ha ↦ (h a ha).isExact), ?_⟩
  change ((itemDocuments (as.map write)).mapM decode >>= _) = _
  rw [hitems]
  rfl

/-- The members of an object with any keys are restored where they are sorted. -/
theorem restores_entries {write : α → Json} {decode : Decoder α} {members : List (String × α)}
    (hsorted : Keyed.Sorted members) (h : ∀ m ∈ members, Restores decode (write m.2) m.2) :
    Restores (entries decode) (.object (members.map fun m ↦ (m.1, write m.2))) members := by
  have hmembers : (memberDocuments (members.map fun m ↦ (m.1, write m.2))).mapM (entry decode) =
      .ok members := by
    rw [Checked.mapM_eq_ok_iff, memberDocuments_eq_map, List.map_map, List.map_map]
    refine List.map_congr_left fun m hm ↦ ?_
    change (decode (write m.2).document >>= _) = _
    rw [(h m hm).decode_eq]
    rfl
  refine ⟨.object (List.forall_mem_map.2 fun m hm ↦ (h m hm).isExact), ?_⟩
  change ((memberDocuments _).mapM (entry decode) >>= _) = _
  rw [hmembers]
  exact congrArg Except.ok (Keyed.ofList_of_sorted hsorted)

/-- Labels are restored. -/
theorem restores_labels (labels : Labels) : Restores Labels.shape labels.toJson labels := by
  have hentries : Restores (entries text) labels.toJson labels.entries :=
    restores_entries labels.sorted fun m _ ↦ restores_text m.2
  have hlabels : Labels.ofList labels.entries = labels := by
    obtain ⟨entries, hsorted⟩ := labels
    simp only [Labels.ofList, Keyed.ofList_of_sorted hsorted]
  have hmap := hentries.map Labels.ofList
  rwa [hlabels] at hmap

/-! ## Any values -/

private theorem anyItems_eq_ok {room : Nat} {items : List Json}
    (h : ∀ item ∈ items, anyValue room item.document = .ok item) :
    anyItems room (itemDocuments items) = .ok items := by
  induction items with
  | nil => rfl
  | cons item items ih =>
    obtain ⟨hitem, hrest⟩ := List.forall_mem_cons.1 h
    rw [itemDocuments, anyItems, hitem, ih hrest]
    rfl

private theorem anyMembers_eq_ok {room : Nat} {members : List (String × Json)}
    (h : ∀ m ∈ members, anyValue room m.2.document = .ok m.2) :
    anyMembers room (memberDocuments members) = .ok members := by
  induction members with
  | nil => rfl
  | cons m members ih =>
    obtain ⟨key, value⟩ := m
    obtain ⟨hvalue, hrest⟩ := List.forall_mem_cons.1 h
    rw [memberDocuments, anyMembers, hvalue, ih hrest]
    rfl

/-- The values that come back unchanged where any value is taken, with at most so many lists inside
one another: their numbers are whole and fit 64 bits, their members are sorted. -/
inductive Storable : (room : Nat) → Json → Prop where
  | null {room : Nat} : Storable room .null
  | bool {room : Nat} (b : Bool) : Storable room (.bool b)
  | integer {room : Nat} {n : Int} (hmin : Int64.minValue.toInt ≤ n) (hmax : n < UInt64.size) :
      Storable room (.integer n)
  | string {room : Nat} (s : String) : Storable room (.string s)
  | array {room : Nat} {items : List Json} (h : ∀ item ∈ items, Storable room item) :
      Storable (room + 1) (.array items)
  | object {room : Nat} {members : List (String × Json)} (hsorted : Keyed.Sorted members)
      (h : ∀ m ∈ members, Storable room m.2) : Storable (room + 1) (.object members)

/-- Such values are restored. -/
theorem Storable.restores {room : Nat} {v : Json} (h : Storable room v) :
    Restores (anyValue room) v v := by
  induction h with
  | null => exact ⟨.null, rfl⟩
  | bool b => exact ⟨.bool b, rfl⟩
  | @integer room n hmin hmax =>
    refine ⟨.integer n, ?_⟩
    rw [document, anyValue, value?_integerText hmin hmax]
  | string s => exact ⟨.string s, rfl⟩
  | @array room items _ ih =>
    refine ⟨.array fun item hitem ↦ (ih item hitem).isExact, ?_⟩
    rw [document, anyValue, if_neg (Nat.succ_ne_zero room), Nat.add_sub_cancel,
      anyItems_eq_ok fun item hitem ↦ (ih item hitem).decode_eq]
    rfl
  | @object room members hsorted _ ih =>
    refine ⟨.object fun m hm ↦ (ih m hm).isExact, ?_⟩
    rw [document, anyValue, if_neg (Nat.succ_ne_zero room), Nat.add_sub_cancel,
      anyMembers_eq_ok fun m hm ↦ (ih m hm).decode_eq]
    exact congrArg (fun members ↦ Except.ok (Json.object members)) (Keyed.ofList_of_sorted hsorted)

end Shape

end PlaybookRuns.Json
