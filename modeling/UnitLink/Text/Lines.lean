import UnitLink.Text.Blank
/-! Lines of text. A line ends at a line feed, and one carriage return directly before it
goes with it; text after the last line feed is a line of its own and is kept whole. -/
namespace UnitLink.Text

def isLineFeed (c : Char) : Bool := c == '\n'

/-- Drops one carriage return at the end. -/
def dropReturn (line : List Char) : List Char :=
  if line.getLast? = some '\r' then line.dropLast else line

/-- The lines that a line feed ends. -/
def endedLines (cs : List Char) : List (List Char) :=
  (pieces isLineFeed cs).dropLast.map dropReturn

/-- What follows the last line feed. -/
def lastLine (cs : List Char) : List Char := (pieces isLineFeed cs).getLast (by simp)

def lines (cs : List Char) : List (List Char) :=
  endedLines cs ++ if (lastLine cs).isEmpty then [] else [lastLine cs]

end UnitLink.Text
