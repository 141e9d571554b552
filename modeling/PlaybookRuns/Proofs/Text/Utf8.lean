import PlaybookRuns.Text.Utf8

/-!
# Reading written characters

What `Utf8.encode` writes is well formed, so the lossy reader replaces nothing of it. Main
statement: `decodeLossy` undoes `encode`.
-/

namespace PlaybookRuns.Text.Utf8

private theorem codePoint_bounds (c : Char) :
    c.toNat < 0xD800 ∨ 0xDFFF < c.toNat ∧ c.toNat < 0x110000 := by
  rcases c.valid with h | h
  · exact .inl h
  · exact .inr h

private theorem decodeFrom_cons {state next : State} {cs : List Char} {b : Nat}
    (bs : List UInt8) (hb : b < 256) (h : step state b = (cs, next)) :
    decodeFrom state (.ofNat b :: bs) = cs ++ decodeFrom next bs := by
  have hnat : (UInt8.ofNat b).toNat = b := by
    rw [UInt8.toNat_ofNat']
    exact Nat.mod_eq_of_lt hb
  cases state <;> simp only [decodeFrom, hnat, h]

private theorem decodeFrom_inside {state next : State} {b : Nat} (bs : List UInt8) (hb : b < 256)
    (h : step state b = ([], next)) : decodeFrom state (.ofNat b :: bs) = decodeFrom next bs := by
  rw [decodeFrom_cons bs hb h, List.nil_append]

private theorem decodeFrom_last {state : State} {c : Char} {b : Nat} (bs : List UInt8)
    (hb : b < 256) (h : step state b = ([c], .start)) :
    decodeFrom state (.ofNat b :: bs) = c :: decodeFrom .start bs := by
  rw [decodeFrom_cons bs hb h, List.singleton_append]

private theorem step_ascii {b : Nat} (h : b < 0x80) :
    step .start b = ([Char.ofNat b], .start) := by
  simp only [step, begin]
  rw [if_pos h]

private theorem step_leadTwo {b : Nat} (hlow : 0xC2 ≤ b) (hhigh : b < 0xE0) :
    step .start b = ([], .inside (b - 0xC0) 1 0x80 0xBF) := by
  simp only [step, begin]
  rw [if_neg (by omega), if_neg (by omega), if_pos hhigh]

private theorem step_leadThree {b : Nat} (hlow : 0xE0 ≤ b) (hhigh : b < 0xF0) :
    step .start b = ([], .inside (b - 0xE0) 2
      (if b = 0xE0 then 0xA0 else 0x80) (if b = 0xED then 0x9F else 0xBF)) := by
  simp only [step, begin]
  rw [if_neg (by omega), if_neg (by omega), if_neg (by omega), if_pos hhigh]

private theorem step_leadFour {b : Nat} (hlow : 0xF0 ≤ b) (hhigh : b < 0xF5) :
    step .start b = ([], .inside (b - 0xF0) 3
      (if b = 0xF0 then 0x90 else 0x80) (if b = 0xF4 then 0x8F else 0xBF)) := by
  simp only [step, begin]
  rw [if_neg (by omega), if_neg (by omega), if_neg (by omega), if_neg (by omega), if_pos hhigh]

private theorem step_middle {bits owed low high b : Nat} (howed : 1 < owed) (hlow : low ≤ b)
    (hhigh : b ≤ high) :
    step (.inside bits owed low high) b =
      ([], .inside (bits * 64 + (b - 0x80)) (owed - 1) 0x80 0xBF) := by
  simp only [step]
  rw [if_pos ⟨hlow, hhigh⟩, if_neg (by omega)]

private theorem step_last {bits low high b n : Nat} (hlow : low ≤ b) (hhigh : b ≤ high)
    (hn : bits * 64 + (b - 0x80) = n) :
    step (.inside bits 1 low high) b = ([Char.ofNat n], .start) := by
  simp only [step]
  rw [if_pos ⟨hlow, hhigh⟩, if_pos (Nat.le_refl 1), hn]

/-- Between characters, the reader takes the octets of one and is between characters again. -/
theorem decodeFrom_encodeChar (c : Char) (bs : List UInt8) :
    decodeFrom .start (encodeChar c ++ bs) = c :: decodeFrom .start bs := by
  have hc := codePoint_bounds c
  -- The cases are the four sizes of a code point; each octet is one step of the reader.
  simp only [encodeChar]
  split
  · next h =>
    rw [List.singleton_append, decodeFrom_last _ (by omega) (step_ascii h), Char.ofNat_toNat]
  · split
    · simp only [List.cons_append, List.nil_append]
      rw [decodeFrom_inside _ (by omega) (step_leadTwo (by omega) (by omega)),
        decodeFrom_last _ (by omega) (step_last (n := c.toNat) (by omega) (by omega) (by omega)),
        Char.ofNat_toNat]
    · split
      · simp only [List.cons_append, List.nil_append]
        rw [decodeFrom_inside _ (by omega) (step_leadThree (by omega) (by omega)),
          decodeFrom_inside _ (by omega)
            (step_middle (by omega) (by split <;> omega) (by split <;> omega)),
          decodeFrom_last _ (by omega)
            (step_last (n := c.toNat) (by omega) (by omega) (by omega)),
          Char.ofNat_toNat]
      · simp only [List.cons_append, List.nil_append]
        rw [decodeFrom_inside _ (by omega) (step_leadFour (by omega) (by omega)),
          decodeFrom_inside _ (by omega)
            (step_middle (by omega) (by split <;> omega) (by split <;> omega)),
          decodeFrom_inside _ (by omega) (step_middle (by omega) (by omega) (by omega)),
          decodeFrom_last _ (by omega)
            (step_last (n := c.toNat) (by omega) (by omega) (by omega)),
          Char.ofNat_toNat]

/-- Reading gives back the characters that were written. -/
theorem decodeLossy_encode (cs : List Char) : decodeLossy (encode cs) = cs := by
  induction cs with
  | nil => rfl
  | cons c cs ih =>
    have hcs : decodeFrom .start (encode cs) = cs := ih
    rw [decodeLossy, encode, List.flatMap_cons, decodeFrom_encodeChar]
    exact congrArg (c :: ·) hcs

end PlaybookRuns.Text.Utf8
