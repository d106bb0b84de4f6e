/-! Texts cut into lines, and lines put together to a text. -/

namespace ByteMachine.Text

/-- The lines of a text. Each ends with a line feed, to which a carriage return right before it
belongs; what follows the last line feed is a line if there is anything. -/
def lines : List Char → List (List Char)
  | [] => []
  | '\n' :: rest => [] :: lines rest
  | '\r' :: '\n' :: rest => [] :: lines rest
  | c :: rest =>
      match lines rest with
      | [] => [[c]]
      | line :: others => (c :: line) :: others

/-- A text in which every line ends with a line feed. -/
def unlines (lines : List String) : String := String.join (lines.map (· ++ "\n"))

end ByteMachine.Text
