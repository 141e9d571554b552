import PlaybookRuns.Proofs.Text.Split
import PlaybookRuns.Proofs.Text.Utf8
import PlaybookRuns.Text.Form

/-!
# Reading written parameters

Every list of parameters can be written, and what is written reads as the same list: an escaped
octet comes back as itself, and no separator stands inside a name or a value. Main statement:
`decode` undoes `encode`.
-/

namespace PlaybookRuns.Text.Form

private theorem encodeChar_of_lt {c : Char} (h : c.toNat < 0x80) :
    Utf8.encodeChar c = [.ofNat c.toNat] := by
  simp only [Utf8.encodeChar]
  rw [if_pos h]

private theorem toNat_ofNat_of_lt {n : Nat} (h : n < 0x80) : (Char.ofNat n).toNat = n := by
  revert n
  decide

private theorem toNat_lt_of_isPlain {b : UInt8} (h : isPlain b = true) : b.toNat < 0x80 := by
  simp only [isPlain, Bool.or_eq_true, Bool.and_eq_true, decide_eq_true_eq, beq_iff_eq] at h
  omega

private theorem toNat_upperHexDigit_lt {n : Nat} (h : n < 16) :
    (upperHexDigit n).toNat < 0x80 := by
  revert n
  decide

private theorem encode_encodeOctet (b : UInt8) :
    Utf8.encode (encodeOctet b) =
      if b = 0x20 then [0x2B]
      else if isPlain b then [b]
      else [0x25, .ofNat (upperHexDigit (b.toNat / 16)).toNat,
        .ofNat (upperHexDigit (b.toNat % 16)).toNat] := by
  have hb : b.toNat < 256 := b.toNat_lt
  unfold encodeOctet
  split
  · rfl
  · split
    · next hplain =>
      have hlt := toNat_lt_of_isPlain hplain
      have hchar := toNat_ofNat_of_lt hlt
      rw [Utf8.encode, List.flatMap_singleton, encodeChar_of_lt (by omega), hchar,
        UInt8.ofNat_toNat]
    · rw [Utf8.encode, List.flatMap_cons, List.flatMap_cons, List.flatMap_singleton,
        encodeChar_of_lt (by decide), encodeChar_of_lt (toNat_upperHexDigit_lt (by omega)),
        encodeChar_of_lt (toNat_upperHexDigit_lt (by omega))]
      rfl

private theorem unescape_plus (rest : List UInt8) :
    unescape (0x2B :: rest) = 0x20 :: unescape rest := by
  rw [unescape.eq_def]
  rfl

private theorem unescape_plain {b : UInt8} (hplus : b ≠ 0x2B) (hpercent : b ≠ 0x25)
    (rest : List UInt8) : unescape (b :: rest) = b :: unescape rest := by
  rw [unescape.eq_def]
  simp only [if_neg hplus, if_neg hpercent]

private theorem unescape_encodeOctet (b : UInt8) (rest : List UInt8) :
    unescape (Utf8.encode (encodeOctet b) ++ rest) = b :: unescape rest := by
  have hb : b.toNat < 256 := b.toNat_lt
  have hdigit {n : Nat} (h : n < 16) :
      hexValue? (UInt8.ofNat (upperHexDigit n).toNat).toNat = some n := by
    have hlt := toNat_upperHexDigit_lt h
    rw [UInt8.toNat_ofNat', Nat.mod_eq_of_lt (by omega)]
    exact hexValue?_upperHexDigit h
  rw [encode_encodeOctet]
  split
  · next h =>
    rw [List.singleton_append, unescape_plus, h]
  · split
    · next hplain =>
      have hplus : b ≠ 0x2B := by rintro rfl; exact absurd hplain (by decide)
      have hpercent : b ≠ 0x25 := by rintro rfl; exact absurd hplain (by decide)
      rw [List.singleton_append, unescape_plain hplus hpercent]
    · have hsum : b.toNat / 16 * 16 + b.toNat % 16 = b.toNat := by omega
      simp only [List.cons_append, List.nil_append]
      rw [unescape, if_neg (by decide), if_pos rfl]
      simp only [hdigit (show b.toNat / 16 < 16 by omega),
        hdigit (show b.toNat % 16 < 16 by omega)]
      rw [hsum, UInt8.ofNat_toNat]

private theorem ne_separator_of_mem_encodeOctet {b o : UInt8}
    (h : o ∈ Utf8.encode (encodeOctet b)) : o ≠ 0x26 ∧ o ≠ 0x3D := by
  have hb : b.toNat < 256 := b.toNat_lt
  have hdigit : ∀ n < 16, UInt8.ofNat (upperHexDigit n).toNat ≠ 0x26 ∧
      UInt8.ofNat (upperHexDigit n).toNat ≠ 0x3D := by decide
  rw [encode_encodeOctet] at h
  split at h
  · rw [List.mem_singleton] at h
    subst h
    decide
  · split at h
    · next hplain =>
      rw [List.mem_singleton] at h
      subst h
      constructor <;> rintro rfl <;> exact absurd hplain (by decide)
    · simp only [List.mem_cons, List.not_mem_nil, or_false] at h
      rcases h with rfl | rfl | rfl
      · decide
      · exact hdigit _ (by omega)
      · exact hdigit _ (by omega)

private def writtenText (s : String) : List UInt8 := Utf8.encode (encodeText s)

private theorem writtenText_eq (s : String) :
    writtenText s =
      (Utf8.encode s.toList).flatMap fun b ↦ Utf8.encode (encodeOctet b) := by
  unfold writtenText encodeText
  exact List.flatMap_assoc

private theorem decodeText_writtenText (s : String) : decodeText (writtenText s) = s := by
  have hall (bs : List UInt8) :
      unescape (bs.flatMap fun b ↦ Utf8.encode (encodeOctet b)) = bs := by
    induction bs with
    | nil => rfl
    | cons b bs ih => rw [List.flatMap_cons, unescape_encodeOctet, ih]
  rw [decodeText, writtenText_eq, hall, Utf8.decodeLossy_encode, String.ofList_toList]

private theorem not_mem_writtenText (s : String) :
    (0x26 : UInt8) ∉ writtenText s ∧ (0x3D : UInt8) ∉ writtenText s := by
  rw [writtenText_eq]
  constructor
  · intro h
    obtain ⟨b, -, hb⟩ := List.mem_flatMap.1 h
    exact (ne_separator_of_mem_encodeOctet hb).1 rfl
  · intro h
    obtain ⟨b, -, hb⟩ := List.mem_flatMap.1 h
    exact (ne_separator_of_mem_encodeOctet hb).2 rfl

private theorem encode_encodePair (p : Pair) :
    Utf8.encode (encodePair p) = writtenText p.1 ++ 0x3D :: writtenText p.2 := by
  unfold encodePair Utf8.encode writtenText
  rw [List.flatMap_append, List.flatMap_cons]
  rfl

private theorem decodePair_encodePair (p : Pair) :
    decodePair (Utf8.encode (encodePair p)) = p := by
  rw [encode_encodePair, decodePair, splitFirst?_append_cons (not_mem_writtenText p.1).2]
  simp only [Option.getD_some, decodeText_writtenText]

private theorem encode_intercalate (parts : List (List Char)) :
    Utf8.encode (['&'].intercalate parts) =
      [0x26].intercalate (parts.map Utf8.encode) := by
  induction parts with
  | nil => rfl
  | cons part parts ih =>
    cases parts with
    | nil => simp only [List.map_cons, List.map_nil, List.intercalate_singleton]
    | cons next parts =>
      rw [List.map_cons, List.map_cons, List.intercalate_cons_cons, List.intercalate_cons_cons,
        ← List.map_cons, ← ih, Utf8.encode, List.flatMap_append, List.flatMap_append]
      rfl

/-- Reading gives back the parameters that were written. -/
theorem decode_encode (ps : List Pair) : decode (encode ps) = ps := by
  cases ps with
  | nil => rfl
  | cons p ps =>
    have hparts : ∀ part ∈ ((p :: ps).map encodePair).map Utf8.encode,
        (0x26 : UInt8) ∉ part ∧ part ≠ [] := by
      intro part hpart
      simp only [List.map_map, List.mem_map, Function.comp_apply] at hpart
      obtain ⟨q, -, rfl⟩ := hpart
      rw [encode_encodePair]
      have hname := (not_mem_writtenText q.1).1
      have hvalue := (not_mem_writtenText q.2).1
      constructor
      · simp [hname, hvalue]
      · simp
    have hsplit : splitAll 0x26 (Utf8.encode (encode (p :: ps)).toList) =
        ((p :: ps).map encodePair).map Utf8.encode := by
      rw [encode, String.toList_ofList, encode_intercalate]
      exact splitAll_intercalate (by simp) fun part h ↦ (hparts part h).1
    have hkept := List.filter_eq_self.2 fun part h ↦ decide_eq_true (hparts part h).2
    calc decode (encode (p :: ps))
        = (((p :: ps).map encodePair).map Utf8.encode).map decodePair := by
          rw [decode, hsplit, hkept]
      _ = (p :: ps).map id := by
          rw [List.map_map, List.map_map]
          exact List.map_congr_left fun q _ ↦ decodePair_encodePair q
      _ = p :: ps := List.map_id _

end PlaybookRuns.Text.Form
