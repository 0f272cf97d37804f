/-!
# Texts split at a separator

Splitting cuts a text at every occurrence of one character, so there is always at least one piece.
Joining puts the separator back between the pieces.
-/

namespace LoadFleet
namespace Text

def pieces (separator : Char) : List Char -> List (List Char)
  | [] => [[]]
  | c :: rest =>
      if c = separator then [] :: pieces separator rest
      else
        match pieces separator rest with
        | [] => [[c]]
        | first :: others => (c :: first) :: others

def joined (separator : Char) : List (List Char) -> List Char
  | [] => []
  | [piece] => piece
  | piece :: others => piece ++ separator :: joined separator others

def splitString (separator : Char) (s : String) : List String :=
  (pieces separator s.toList).map String.ofList

theorem pieces_ne_nil (separator : Char) (cs : List Char) : pieces separator cs ≠ [] := by
  cases cs with
  | nil => simp [pieces]
  | cons c rest =>
      unfold pieces
      split
      · simp
      · split <;> simp

end Text
end LoadFleet
