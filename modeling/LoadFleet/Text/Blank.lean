/-!
# Blank characters and trimming

A character is blank when it has the Unicode property White_Space. Trimming removes the blank
characters at both ends of a text and nothing else.
-/

namespace LoadFleet
namespace Text

/-- Code points with the property White_Space, as closed ranges in ascending order. -/
def blankRanges : List (Nat × Nat) :=
  [(0x09, 0x0D), (0x20, 0x20), (0x85, 0x85), (0xA0, 0xA0), (0x1680, 0x1680),
    (0x2000, 0x200A), (0x2028, 0x2029), (0x202F, 0x202F), (0x205F, 0x205F), (0x3000, 0x3000)]

def isBlank (c : Char) : Bool :=
  blankRanges.any fun range => range.1 ≤ c.toNat && c.toNat ≤ range.2

def trimStart (cs : List Char) : List Char :=
  cs.dropWhile isBlank

def trimEnd (cs : List Char) : List Char :=
  (trimStart cs.reverse).reverse

def trim (cs : List Char) : List Char :=
  trimEnd (trimStart cs)

def trimmed (s : String) : String :=
  String.ofList (trim s.toList)

@[simp]
theorem trim_nil : trim [] = [] := rfl

theorem trimmed_toList (s : String) : (trimmed s).toList = trim s.toList := by
  simp [trimmed]

end Text
end LoadFleet
