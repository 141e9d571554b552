/-!
# White space

The characters with the Unicode property `White_Space`, and what it means for a text to be blank
or trimmed.
-/

namespace PlaybookRuns.Text

/-- The code points of the property `White_Space`, as closed ranges. -/
def blankRanges : List (Nat × Nat) :=
  [(0x09, 0x0D), (0x20, 0x20), (0x85, 0x85), (0xA0, 0xA0), (0x1680, 0x1680), (0x2000, 0x200A),
   (0x2028, 0x2029), (0x202F, 0x202F), (0x205F, 0x205F), (0x3000, 0x3000)]

/-- There are twenty-five white-space characters. -/
example : (blankRanges.map fun (low, high) ↦ high + 1 - low).sum = 25 := by decide

/-- Whether a character is white space. -/
def isBlank (c : Char) : Bool := blankRanges.any fun (low, high) ↦ low ≤ c.toNat && c.toNat ≤ high

/-- The characters left when white space is dropped at both ends. -/
def trimChars (cs : List Char) : List Char :=
  ((cs.dropWhile isBlank).reverse.dropWhile isBlank).reverse

/-- The text left when white space is dropped at both ends. -/
def trim (s : String) : String := String.ofList (trimChars s.toList)

/-- Whether a text holds nothing but white space. -/
def isBlankText (s : String) : Bool := s.toList.all isBlank

end PlaybookRuns.Text
