import PlaybookRuns.Json.Shape
import PlaybookRuns.Json.Writer
import PlaybookRuns.Proofs.Text.Integer

/-!
# Reading what was written

The text of a value is read as a tree that holds just this value. Main statement: a decoder of texts
comes to the same on the text of a value as on its tree, where no number of it is a fraction.
-/

namespace PlaybookRuns.Json

/-! ## Trees of values -/

/-- The decimal digits of a natural number. -/
def wholeDigits (n : Nat) : List Nat := (Nat.toDigits 10 n).map fun c ↦ c.toNat - '0'.toNat

/-- The whole number as it is written. -/
def integerText (n : Int) : NumberText := ⟨n < 0, wholeDigits n.natAbs, none, none⟩

mutual

/-- The tree of a value; that of a number in double precision is left open. -/
def document : Json → Document
  | .null => .null
  | .bool b => .bool b
  | .integer n => .number (integerText n)
  | .real _ => .broken
  | .string s => .string (some s)
  | .array items => .array (itemDocuments items) true
  | .object members => .object (memberDocuments members) true

/-- The trees of items. -/
def itemDocuments : List Json → List Document
  | [] => []
  | item :: items => item.document :: itemDocuments items

/-- The trees of members, with their keys. -/
def memberDocuments : List (String × Json) → List (Option String × Document)
  | [] => []
  | (key, value) :: members => (some key, value.document) :: memberDocuments members

end

/-- Whether no number of a value is one in double precision. -/
inductive Exact : Json → Prop where
  | null : Exact .null
  | bool (b : Bool) : Exact (.bool b)
  | integer (n : Int) : Exact (.integer n)
  | string (s : String) : Exact (.string s)
  | array {items : List Json} (h : ∀ item ∈ items, Exact item) : Exact (.array items)
  | object {members : List (String × Json)} (h : ∀ m ∈ members, Exact m.2) :
      Exact (.object members)

/-- The trees of items are those of each. -/
theorem itemDocuments_eq_map (items : List Json) : itemDocuments items = items.map document := by
  induction items with
  | nil => rfl
  | cons item items ih => rw [itemDocuments, ih, List.map_cons]

/-- The trees of members are those of their values, each under its key. -/
theorem memberDocuments_eq_map (members : List (String × Json)) :
    memberDocuments members = members.map fun m ↦ (some m.1, m.2.document) := by
  induction members with
  | nil => rfl
  | cons m members ih => rw [memberDocuments, ih, List.map_cons]

/-! ## Numbers -/

/-- That what follows a value closes a list or goes on in it. -/
def Follows (rest : List Char) : Prop :=
  ∀ c cs, rest = c :: cs → c = ',' ∨ c = ']' ∨ c = '\x7d'

private theorem Follows.cases {rest : List Char} (h : Follows rest) :
    readDigits rest = ([], rest) ∧ readFraction rest = some (none, rest) ∧
      readExponent rest = some (none, rest) := by
  cases rest with
  | nil => exact ⟨rfl, rfl, rfl⟩
  | cons c cs =>
    rcases h c cs rfl with rfl | rfl | rfl
    · exact ⟨rfl, rfl, rfl⟩
    · exact ⟨rfl, rfl, rfl⟩
    · exact ⟨rfl, rfl, rfl⟩

private theorem readDigits_append {cs rest : List Char} (hcs : ∀ c ∈ cs, c.isDigit = true)
    (hrest : readDigits rest = ([], rest)) :
    readDigits (cs ++ rest) = (cs.map fun c ↦ c.toNat - '0'.toNat, rest) := by
  induction cs with
  | nil => exact hrest
  | cons c cs ih =>
    obtain ⟨hc, htail⟩ := List.forall_mem_cons.1 hcs
    rw [List.cons_append, readDigits, Text.digitValue?_of_isDigit hc, ih htail]
    rfl

private theorem toDigits_ne_zero_cons {n : Nat} (h : 0 < n) (cs : List Char) :
    Nat.toDigits 10 n ≠ '0' :: cs := by
  induction n using Nat.strongRecOn generalizing cs with
  | ind n ih =>
    by_cases hn : n < 10
    · rw [Nat.toDigits_of_lt_base hn]
      intro heq
      have hdigits : ∀ m < 10, 0 < m → m.digitChar ≠ '0' := by decide
      exact hdigits n hn h (List.cons.inj heq).1
    · rw [Nat.toDigits_of_base_le (by decide) (Nat.le_of_not_lt hn)]
      intro heq
      cases hdigits : Nat.toDigits 10 (n / 10) with
      | nil => exact Nat.toDigits_ne_nil hdigits
      | cons c ds =>
        rw [hdigits, List.cons_append] at heq
        obtain ⟨rfl, -⟩ := List.cons.inj heq
        exact ih (n / 10) (by omega) (by omega) ds hdigits

private theorem wholeDigits_ne (n : Nat) :
    wholeDigits n ≠ [] ∧ ∀ d ds, wholeDigits n ≠ 0 :: d :: ds := by
  rw [wholeDigits]
  refine ⟨by simp [Nat.toDigits_ne_nil], fun d ds heq ↦ ?_⟩
  obtain ⟨c, cs, hdigits, hc, hcs⟩ := List.map_eq_cons_iff.1 heq
  have hdigit : c.isDigit = true :=
    Nat.isDigit_of_mem_toDigits (by decide) (by decide) (hdigits ▸ List.mem_cons_self)
  have hbound : '0'.toNat ≤ c.toNat := (Text.bounds_of_isDigit hdigit).1
  obtain rfl : c = '0' := Char.toNat_inj.1 (by omega)
  by_cases hn : 0 < n
  · exact toDigits_ne_zero_cons hn cs hdigits
  · obtain rfl : n = 0 := by omega
    rw [Nat.toDigits_zero] at hdigits
    obtain rfl := (List.cons.inj hdigits).2
    cases hcs

/-- The digits of a number are read, whatever sign stands before them. -/
theorem readNumber_toDigits (negative : Bool) (n : Nat) {rest : List Char} (h : Follows rest) :
    readNumber negative (Nat.toDigits 10 n ++ rest) =
      some (⟨negative, wholeDigits n, none, none⟩, rest) := by
  obtain ⟨hdigits, hfraction, hexponent⟩ := h.cases
  have hread : readDigits (Nat.toDigits 10 n ++ rest) = (wholeDigits n, rest) :=
    readDigits_append (fun c hc ↦ Nat.isDigit_of_mem_toDigits (by decide) (by decide) hc) hdigits
  rw [readNumber, hread]
  obtain ⟨hne, hzero⟩ := wholeDigits_ne n
  split
  · next heq => exact absurd (Prod.mk.inj heq).1 hne
  · next heq => exact absurd (Prod.mk.inj heq).1 (hzero _ _)
  · simp only [hfraction, hexponent, bind, Option.bind]
    rfl

/-! ## Strings -/

private def namedEscapes : List Char := ['"', '\\', '\n', '\r', '\t', '\x08', '\x0c']

-- The piece that writes a character: the controls without an escape of their own by number.
private def pieceOf (c : Char) : StringPiece :=
  if c ∉ namedEscapes ∧ c.toNat < 0x20 then .unit c.toNat else .char c

private theorem readPieces_escape {e c : Char} (h : simpleEscape? e = some c) (cs : List Char) :
    readPieces ('\\' :: e :: cs) =
      (readPieces cs).map fun (pieces, rest) ↦ (.char c :: pieces, rest) := by
  rw [readPieces, h]
  · cases readPieces cs <;> rfl
  · rintro _ _ _ _ _ rfl
    cases h

private theorem readPieces_plain {c : Char} (hquote : c ≠ '"') (hbackslash : c ≠ '\\')
    (hcontrol : ¬c.toNat < 0x20) (cs : List Char) :
    readPieces (c :: cs) =
      (readPieces cs).map fun (pieces, rest) ↦ (.char c :: pieces, rest) := by
  rw [readPieces, if_neg (by simp [hcontrol, hbackslash])]
  · cases readPieces cs <;> rfl
  · exact hquote
  · exact fun _ _ _ _ _ h _ ↦ hbackslash h
  · exact fun _ _ h _ ↦ hbackslash h

private theorem readPieces_control {n : Nat} (h : n < 0x20) (cs : List Char) :
    readPieces ('\\' :: 'u' :: '0' :: '0' :: Text.lowerHexDigit (n / 16) ::
        Text.lowerHexDigit (n % 16) :: cs) =
      (readPieces cs).map fun (pieces, rest) ↦ (.unit n :: pieces, rest) := by
  have hquad : hexQuad? '0' '0' (Text.lowerHexDigit (n / 16)) (Text.lowerHexDigit (n % 16)) =
      some n := by
    have hhigh := Text.hexValue?_lowerHexDigit (show n / 16 < 16 by omega)
    have hlow := Text.hexValue?_lowerHexDigit (show n % 16 < 16 by omega)
    have hzero : Text.hexValue? '0'.toNat = some 0 := rfl
    have hvalue : ((0 * 16 + 0) * 16 + n / 16) * 16 + n % 16 = n := by omega
    simp only [hexQuad?, hhigh, hlow, hzero, bind, Option.bind, pure, hvalue]
  rw [readPieces, hquad]
  cases readPieces cs <;> rfl

private theorem readPieces_escapeChar (c : Char) (cs : List Char) :
    readPieces (escapeChar c ++ cs) =
      (readPieces cs).map fun (pieces, rest) ↦ (pieceOf c :: pieces, rest) := by
  by_cases hnamed : c ∈ namedEscapes
  · have hescape : ∃ e, escapeChar c = ['\\', e] ∧ simpleEscape? e = some c ∧
        pieceOf c = .char c := by
      simp only [namedEscapes, List.mem_cons, List.not_mem_nil, or_false] at hnamed
      rcases hnamed with rfl | rfl | rfl | rfl | rfl | rfl | rfl <;> exact ⟨_, rfl, rfl, rfl⟩
    obtain ⟨e, hc, he, hpiece⟩ := hescape
    rw [hc, hpiece]
    exact readPieces_escape he cs
  · have hother := hnamed
    simp only [namedEscapes, List.mem_cons, List.not_mem_nil, or_false, not_or] at hother
    obtain ⟨hquote, hbackslash, hn, hr, ht, hb, hf⟩ := hother
    rw [escapeChar, if_neg hquote, if_neg hbackslash, if_neg hn, if_neg hr, if_neg ht, if_neg hb,
      if_neg hf]
    by_cases hcontrol : c.toNat < 0x20
    · rw [if_pos hcontrol, pieceOf, if_pos ⟨hnamed, hcontrol⟩]
      exact readPieces_control hcontrol cs
    · rw [if_neg hcontrol, pieceOf, if_neg fun h ↦ hcontrol h.2]
      exact readPieces_plain hquote hbackslash hcontrol cs

private theorem assemble?_unit {n : Nat} (h : n < 0xD800) (pieces : List StringPiece) :
    assemble? (.unit n :: pieces) = (assemble? pieces).map (Char.ofNat n :: ·) := by
  rw [assemble?.eq_def]
  exact if_pos (.inl h)

private theorem assemble?_pieceOf (cs : List Char) : assemble? (cs.map pieceOf) = some cs := by
  induction cs with
  | nil => rfl
  | cons c cs ih =>
    rw [List.map_cons, pieceOf]
    split
    · next h =>
      rw [assemble?_unit (Nat.lt_trans h.2 (by decide)), ih, Option.map_some, Char.ofNat_toNat]
    · rw [assemble?, ih, Option.map_some]

/-- A string is read up to its closing quote. -/
theorem readString_escaped (s : String) (rest : List Char) :
    readString (s.toList.flatMap escapeChar ++ '"' :: rest) = some (some s, rest) := by
  have hpieces (cs : List Char) : readPieces (cs.flatMap escapeChar ++ '"' :: rest) =
      some (cs.map pieceOf, rest) := by
    induction cs with
    | nil => rfl
    | cons c cs ih =>
      rw [List.flatMap_cons, List.append_assoc, readPieces_escapeChar, ih]
      rfl
  rw [readString, hpieces]
  simp [assemble?_pieceOf]

/-! ## Values -/

-- That the text of a value is read as its tree, wherever it stands.
private def Reads (v : Json) : Prop :=
  ∀ fuel rest, v.toChars.length ≤ fuel → Follows rest →
    readValue fuel (v.toChars ++ rest) = (v.document, rest)

private theorem skipSpace_cons {c : Char} (h : c ∉ [' ', '\n', '\t', '\r']) (cs : List Char) :
    skipSpace (c :: cs) = c :: cs := by
  simp only [List.mem_cons, List.not_mem_nil, or_false, not_or] at h
  simp [skipSpace, h]

private theorem ne_of_isDigit {c d : Char} (h : c.isDigit = true) (hd : d.isDigit = false) :
    c ≠ d := by
  rintro rfl
  exact Bool.noConfusion (h.symm.trans hd)

private theorem not_mem_space_of_isDigit {c : Char} (h : c.isDigit = true) :
    c ∉ [' ', '\n', '\t', '\r'] := by
  simp only [List.mem_cons, List.not_mem_nil, or_false, not_or]
  exact ⟨ne_of_isDigit h rfl, ne_of_isDigit h rfl, ne_of_isDigit h rfl, ne_of_isDigit h rfl⟩

private theorem readValue_of_isDigit {c : Char} (h : c.isDigit = true) (fuel : Nat)
    (cs : List Char) {n : NumberText} {rest : List Char}
    (hread : readNumber false (c :: cs) = some (n, rest)) :
    readValue (fuel + 1) (c :: cs) = (.number n, rest) := by
  rw [readValue, skipSpace_cons (not_mem_space_of_isDigit h)]
  split
  · next heq => exact absurd (List.cons.inj heq).1 (ne_of_isDigit h rfl)
  · next heq => exact absurd (List.cons.inj heq).1 (ne_of_isDigit h rfl)
  · next heq => exact absurd (List.cons.inj heq).1 (ne_of_isDigit h rfl)
  · next heq => exact absurd (List.cons.inj heq).1 (ne_of_isDigit h rfl)
  · next heq => exact absurd (List.cons.inj heq).1 (ne_of_isDigit h rfl)
  · next heq => exact absurd (List.cons.inj heq).1 (ne_of_isDigit h rfl)
  · next heq => exact absurd (List.cons.inj heq).1 (ne_of_isDigit h rfl)
  · rw [hread]

private theorem reads_integer (n : Int) : Reads (.integer n) := by
  intro fuel rest hfuel hrest
  cases n with
  | ofNat n =>
    have hread := readNumber_toDigits false n hrest
    obtain ⟨c, cs, hcs, hdigits⟩ := Text.exists_toDigits_cons n
    change (Nat.toDigits 10 n).length ≤ fuel at hfuel
    change readValue fuel (Nat.toDigits 10 n ++ rest) = _
    rw [hcs] at hread hfuel ⊢
    obtain ⟨k, rfl⟩ := Nat.exists_eq_add_of_lt hfuel
    exact readValue_of_isDigit (hdigits c List.mem_cons_self) _ _ hread
  | negSucc n =>
    have hread := readNumber_toDigits true (n + 1) hrest
    change (Nat.toDigits 10 (n + 1)).length + 1 ≤ fuel at hfuel
    change readValue fuel ('-' :: (Nat.toDigits 10 (n + 1) ++ rest)) = _
    obtain ⟨k, rfl⟩ := Nat.exists_eq_add_of_lt hfuel
    have hnegative : decide (Int.negSucc n < 0) = true := decide_eq_true (Int.negSucc_lt_zero n)
    rw [document, integerText, hnegative, readValue, skipSpace_cons (by decide)]
    simp only [hread]
    rfl

private theorem reads_string (s : String) : Reads (.string s) := by
  intro fuel rest hfuel hrest
  change (stringChars s).length ≤ fuel at hfuel
  obtain ⟨k, rfl⟩ := Nat.exists_eq_add_of_lt hfuel
  change readValue _ ('"' :: (s.toList.flatMap escapeChar ++ ['"'] ++ rest)) = _
  rw [readValue, skipSpace_cons (by decide), List.append_assoc, List.singleton_append]
  simp only [readString_escaped]
  rfl

private theorem follows_cons {c : Char} (h : c = ',' ∨ c = ']' ∨ c = '\x7d') (cs : List Char) :
    Follows (c :: cs) := by
  intro d ds heq
  rwa [← (List.cons.inj heq).1]

private theorem readItems_itemsChars {items : List Json} (h : ∀ item ∈ items, Reads item)
    {item : Json} (hitem : Reads item) {fuel : Nat}
    (hfuel : (item.toChars ++ itemsChars items).length ≤ fuel) (rest : List Char) :
    readItems fuel (item.toChars ++ (itemsChars items ++ rest)) =
      (itemDocuments (item :: items), true, rest) := by
  rw [List.length_append] at hfuel
  -- each item takes one unit of fuel, and a character follows it, so fuel for the text is enough
  induction items generalizing item fuel with
  | nil =>
    rw [itemsChars, List.length_singleton] at hfuel
    obtain ⟨k, rfl⟩ := Nat.exists_eq_add_of_le' (Nat.le_of_add_left_le hfuel)
    have hread := hitem k (itemsChars [] ++ rest) (by omega) (follows_cons (by simp) _)
    rw [readItems, hread]
    rfl
  | cons next items ih =>
    rw [itemsChars, List.length_cons, List.length_append] at hfuel
    obtain ⟨k, rfl⟩ := Nat.exists_eq_add_of_le' (show 1 ≤ fuel by omega)
    obtain ⟨hnext, hrest⟩ := List.forall_mem_cons.1 h
    have hread := hitem k (itemsChars (next :: items) ++ rest) (by omega)
      (follows_cons (by simp) _)
    have hlength : next.toChars.length + (itemsChars items).length ≤ k := by omega
    have htail := ih hrest hnext hlength
    rw [readItems, hread, itemsChars, List.cons_append, List.append_assoc]
    dsimp only
    rw [skipSpace_cons (by decide), itemDocuments]
    simp only [htail]

private theorem readMembers_key {fuel : Nat} (key : String) (cs : List Char) :
    readMembers (fuel + 1) (stringChars key ++ ':' :: cs) =
      (let (value, rest) := readValue fuel cs
      match skipSpace rest with
      | '\x7d' :: rest => ([(some key, value)], true, rest)
      | ',' :: rest =>
        let (members, closed, rest) := readMembers fuel rest
        ((some key, value) :: members, closed, rest)
      | _ => ([(some key, value)], false, [])) := by
  rw [stringChars, List.cons_append, List.append_assoc, readMembers, skipSpace_cons (by decide)]
  simp only [List.singleton_append, readString_escaped]
  rw [skipSpace_cons (by decide)]
  rfl

private theorem readMembers_membersChars {members : List (String × Json)}
    (h : ∀ m ∈ members, Reads m.2) (key : String) {value : Json} (hvalue : Reads value) {fuel : Nat}
    (hfuel : (value.toChars ++ membersChars members).length + 1 ≤ fuel) (rest : List Char) :
    readMembers fuel (stringChars key ++ ':' :: (value.toChars ++ (membersChars members ++ rest))) =
      (memberDocuments ((key, value) :: members), true, rest) := by
  rw [List.length_append] at hfuel
  obtain ⟨k, rfl⟩ := Nat.exists_eq_add_of_le' (Nat.le_of_add_left_le hfuel)
  induction members generalizing key value k with
  | nil =>
    rw [membersChars, List.length_singleton] at hfuel
    have hread := hvalue k (membersChars [] ++ rest) (by omega) (follows_cons (by simp) _)
    rw [readMembers_key, hread]
    rfl
  | cons next members ih =>
    obtain ⟨nextKey, next⟩ := next
    rw [membersChars, List.length_cons, List.length_append, List.length_cons, List.length_append]
      at hfuel
    obtain ⟨hnext, hrest⟩ := List.forall_mem_cons.1 h
    have hread := hvalue k (membersChars ((nextKey, next) :: members) ++ rest) (by omega)
      (follows_cons (by simp) _)
    obtain ⟨j, rfl⟩ := Nat.exists_eq_add_of_le' (show 1 ≤ k by omega)
    have htail := ih hrest nextKey (show Reads next from hnext) j (by omega)
    rw [readMembers_key, hread, membersChars, List.cons_append, List.append_assoc, List.cons_append,
      List.append_assoc]
    dsimp only
    rw [skipSpace_cons (by decide), memberDocuments]
    simp only [htail]

private theorem exists_toChars_cons {v : Json} (h : Exact v) :
    ∃ c cs, v.toChars = c :: cs ∧ c ∉ [' ', '\n', '\t', '\r'] ∧ c ≠ ']' := by
  cases h with
  | null => exact ⟨_, _, rfl, by decide, by decide⟩
  | bool b => cases b <;> exact ⟨_, _, rfl, by decide, by decide⟩
  | integer n =>
    cases n with
    | ofNat n =>
      obtain ⟨c, cs, hcs, hdigits⟩ := Text.exists_toDigits_cons n
      have hc := hdigits c List.mem_cons_self
      exact ⟨c, cs, hcs, not_mem_space_of_isDigit hc, ne_of_isDigit hc rfl⟩
    | negSucc n => exact ⟨_, _, rfl, by decide, by decide⟩
  | string s => exact ⟨_, _, rfl, by decide, by decide⟩
  | @array items _ => cases items <;> exact ⟨_, _, rfl, by decide, by decide⟩
  | @object members _ => cases members <;> exact ⟨_, _, rfl, by decide, by decide⟩

private theorem readValue_array {c : Char} (hspace : c ∉ [' ', '\n', '\t', '\r']) (hc : c ≠ ']')
    (fuel : Nat) (cs : List Char) :
    readValue (fuel + 1) ('[' :: c :: cs) =
      (let (items, closed, rest) := readItems fuel (c :: cs)
      (.array items closed, rest)) := by
  rw [readValue, skipSpace_cons (by decide)]
  simp only [skipSpace_cons hspace]
  split
  · next heq => exact absurd (List.cons.inj heq).1 hc
  · rfl

private theorem readValue_object (key : String) (fuel : Nat) (cs : List Char) :
    readValue (fuel + 1) ('\x7b' :: (stringChars key ++ cs)) =
      (let (members, closed, rest) := readMembers fuel (stringChars key ++ cs)
      (.object members closed, rest)) := by
  rw [readValue, skipSpace_cons (by decide)]
  simp only [stringChars, List.cons_append, skipSpace_cons (show '"' ∉ _ by decide)]
  rfl

private theorem reads_word {v : Json} (h : v = .null ∨ v = .bool true ∨ v = .bool false) :
    Reads v := by
  intro fuel rest hfuel _
  rcases h with rfl | rfl | rfl
  all_goals
    obtain ⟨k, rfl⟩ := Nat.exists_eq_add_of_le' (show 1 ≤ fuel from Nat.le_of_add_left_le hfuel)
    rfl

private theorem reads_array {items : List Json} (hitems : ∀ item ∈ items, Exact item)
    (h : ∀ item ∈ items, Reads item) : Reads (.array items) := by
  intro fuel rest hfuel _
  cases items with
  | nil =>
    obtain ⟨k, rfl⟩ := Nat.exists_eq_add_of_le' (show 1 ≤ fuel from Nat.le_of_add_left_le hfuel)
    rfl
  | cons item items =>
    obtain ⟨hitem, htail⟩ := List.forall_mem_cons.1 h
    rw [toChars, List.length_cons] at hfuel
    obtain ⟨k, rfl⟩ := Nat.exists_eq_add_of_le' (Nat.le_of_add_left_le hfuel)
    have hread := readItems_itemsChars htail hitem (Nat.le_of_succ_le_succ hfuel) rest
    obtain ⟨c, cs, hchars, hspace, hbracket⟩ := exists_toChars_cons (hitems item List.mem_cons_self)
    rw [toChars, List.cons_append, List.append_assoc, document]
    rw [hchars, List.cons_append] at hread ⊢
    rw [readValue_array hspace hbracket, hread]

private theorem reads_object {members : List (String × Json)} (h : ∀ m ∈ members, Reads m.2) :
    Reads (.object members) := by
  intro fuel rest hfuel _
  cases members with
  | nil =>
    obtain ⟨k, rfl⟩ := Nat.exists_eq_add_of_le' (show 1 ≤ fuel from Nat.le_of_add_left_le hfuel)
    rfl
  | cons m members =>
    obtain ⟨key, value⟩ := m
    obtain ⟨hvalue, htail⟩ := List.forall_mem_cons.1 h
    rw [toChars, List.length_cons, List.length_append, List.length_cons] at hfuel
    obtain ⟨k, rfl⟩ := Nat.exists_eq_add_of_le' (Nat.le_of_add_left_le hfuel)
    have hlength : (value.toChars ++ membersChars members).length + 1 ≤ k := by omega
    have hread := readMembers_membersChars htail key hvalue hlength rest
    rw [toChars, List.cons_append, List.append_assoc, List.cons_append, List.append_assoc,
      readValue_object, hread, document]

private theorem reads_of_exact {v : Json} (h : Exact v) : Reads v := by
  induction h with
  | null => exact reads_word (.inl rfl)
  | bool b => exact reads_word (.inr (by cases b <;> simp))
  | integer n => exact reads_integer n
  | string s => exact reads_string s
  | array hitems ih => exact reads_array hitems ih
  | object _ ih => exact reads_object ih

/-- The text of a value is read to its end, as its tree. -/
theorem read_toText {v : Json} (h : Exact v) : read v.toText = (v.document, true) := by
  have hread := reads_of_exact h (2 * v.toChars.length + 2) [] (by omega) nofun
  rw [List.append_nil] at hread
  rw [read, toText, String.toList_ofList]
  dsimp only
  rw [hread]
  rfl

/-- A text decodes as the tree of the value it was written for. -/
theorem decode_toText {α : Type} (decoder : Decoder α) {v : Json} (h : Exact v) :
    decode decoder v.toText = decoder v.document := by
  rw [decode, read_toText h]
  dsimp only
  cases decoder v.document <;> rfl

end PlaybookRuns.Json
