import UnitLink.Failure
import UnitLink.Text.Lines
/-! Input streams. A stream holds the text that can still be read and, when reading does
not come to an ordinary end, the fault that follows the text. -/
namespace UnitLink

structure Stream where
  text : List Char
  fault : Option SystemFault := none
  deriving DecidableEq, Repr

namespace Stream

def ofString (s : String) : Stream := ⟨s.toList, none⟩

/-- The lines of encoded lines, up to the first that is not UTF-8. -/
def decodeLines : List (List UInt8) → List Char × Option SystemFault
  | [] => ([], none)
  | line :: rest =>
    match String.fromUTF8? ⟨line.toArray⟩ with
    | none => ([], some .notUtf8)
    | some text =>
      let (others, fault) := decodeLines rest
      (text.toList ++ (if rest.isEmpty then others else '\n' :: others), fault)

/-- A byte sequence is read line by line, so a line that is not UTF-8 hides nothing of
the lines before it. -/
def ofBytes (bytes : List UInt8) : Stream :=
  let (text, fault) := decodeLines (Text.pieces (· == 10) bytes)
  ⟨text, fault⟩

/-- The lines of a stream. A line that the fault breaks off is lost. -/
def lines (s : Stream) : List (Except SystemFault String) :=
  match s.fault with
  | none => (Text.lines s.text).map fun line => .ok (String.ofList line)
  | some fault =>
    (Text.endedLines s.text).map (fun line => .ok (String.ofList line)) ++ [.error fault]

/-- Reads through the next line feed. -/
def readLine (s : Stream) : Except SystemFault (String × Stream) :=
  match s.text.dropWhile (· != '\n'), s.fault with
  | _ :: rest, _ =>
    .ok (String.ofList (s.text.takeWhile (· != '\n') ++ ['\n']), { s with text := rest })
  | [], none => .ok (String.ofList s.text, { s with text := [] })
  | [], some fault => .error fault

def readAll (s : Stream) : Except SystemFault (String × Stream) :=
  match s.fault with
  | none => .ok (String.ofList s.text, { s with text := [] })
  | some fault => .error fault

end Stream
end UnitLink
