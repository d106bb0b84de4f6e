import ByteMachine.Text.Ranges

/-! White space: the Unicode property of that name, which twenty-five characters have. -/

namespace ByteMachine.Text

/-- The characters of white space. -/
def blankRanges : List (Nat × Nat) :=
  [(0x9, 0xd), (0x20, 0x20), (0x85, 0x85), (0xa0, 0xa0), (0x1680, 0x1680), (0x2000, 0x200a),
   (0x2028, 0x2029), (0x202f, 0x202f), (0x205f, 0x205f), (0x3000, 0x3000)]

def isBlank (c : Char) : Bool := isWithin blankRanges c

/-- White space is what lies in one of the ranges. -/
theorem isBlank_iff (c : Char) : isBlank c = true ↔
    ∃ first last, (first, last) ∈ blankRanges ∧ first ≤ c.toNat ∧ c.toNat ≤ last :=
  isWithin_iff (show areAscending 0 blankRanges = true by decide)

example : codePointCount blankRanges = 25 := by decide

/-- The text without white space at either end. -/
def trim (text : List Char) : List Char :=
  ((text.dropWhile isBlank).reverse.dropWhile isBlank).reverse

end ByteMachine.Text
