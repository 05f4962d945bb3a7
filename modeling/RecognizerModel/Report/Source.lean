import RecognizerModel.Syntax.Token
import RecognizerModel.Text.Pieces
import RecognizerModel.Text.Ranges

/-! The lines of a source, and the lines and columns of a span. -/
namespace RecognizerModel.Report

/-- How a character is shown: a tab as four blanks, a control character as its picture; a joiner is
left out, and a character that turns the direction of writing is replaced. -/
def shownChar (c : Char) : List Char :=
  if c = '\t' then List.replicate 4 ' '
  else if c.toNat < 0x20 then [Char.ofNat (0x2400 + c.toNat)]
  else if c.toNat = 0x7f then ['\u2421']
  else if c.toNat = 0x200d then []
  else if Text.inRanges [(0x202a, 0x202e), (0x2066, 0x2069)] c then ['\ufffd']
  else [c]

def shown (text : List Char) : List Char :=
  text.flatMap shownChar

def byteCount : List Char → Nat
  | [] => 0
  | c :: rest => c.utf8Size + byteCount rest

/-- The characters that begin within the first `count` bytes. -/
def takeBytes : (count : Nat) → List Char → List Char
  | 0, _ => []
  | _, [] => []
  | count + 1, c :: rest => c :: takeBytes (count + 1 - c.utf8Size) rest

/-- A line of the source without its ending. -/
structure Line where
  text : List Char
  start : Nat
  /-- The byte behind the ending. -/
  next : Nat
deriving Repr, Inhabited

namespace Line

def stop (l : Line) : Nat := l.start + byteCount l.text

/-- The characters of the line before a byte of the source. -/
def before (l : Line) (byte : Nat) : List Char :=
  takeBytes (byte - l.start) l.text

def columnOf (l : Line) (byte : Nat) : Nat :=
  (shown (l.before byte)).length

end Line

/-- A carriage return in front of a line feed belongs to the ending. -/
def dropReturn (text : List Char) : List Char :=
  if text.getLast? = some '\r' then text.dropLast else text

def linesFrom (start : Nat) : (pieces : List (List Char)) → List Line
  | [] => []
  | [last] => if last = [] ∧ 0 < start then [] else [⟨last, start, start + byteCount last⟩]
  | piece :: rest =>
    let next := start + byteCount piece + 1
    ⟨dropReturn piece, start, next⟩ :: linesFrom next rest

/-- The lines of a source; there is no further line behind an ending. -/
def linesOf (source : String) : List Line :=
  linesFrom 0 (Text.pieces '\n' source.toList)

theorem linesOf_ne_nil (source : String) : linesOf source ≠ [] := by
  unfold linesOf
  match h : Text.pieces '\n' source.toList with
  | [] => exact absurd h (Text.pieces_ne_nil _ _)
  | [_] => simp [linesFrom]
  | _ :: _ :: _ => simp [linesFrom]

/-- The number of the line that holds a byte, the last one for a byte behind the source, and the
line. -/
def lineAt (lines : List Line) (byte : Nat) : Nat × Line :=
  let number := (lines.findIdx? (byte < ·.next)).getD (lines.length - 1)
  (number, (lines[number]?).getD default)

/-- The lines and columns that a span covers. Both count from 0. -/
structure Extent where
  firstLine : Nat
  firstColumn : Nat
  lastLine : Nat
  /-- The column behind the last one. -/
  stopColumn : Nat
deriving DecidableEq, Repr

/-- An extent on one line has at least one column. -/
def Extent.ofSpan (lines : List Line) (span : Span) : Extent :=
  let (firstLine, first) := lineAt lines span.start
  let (lastLine, last) := lineAt lines (max span.start span.stop)
  let firstColumn := first.columnOf span.start
  let stopColumn := last.columnOf span.stop
  { firstLine, firstColumn, lastLine
    stopColumn :=
      if firstLine = lastLine then max stopColumn (firstColumn + 1)
      else if last.stop < span.stop then stopColumn + 1
      else stopColumn }

/-- The line and the character at which a byte is reported, counted from 1. A place behind the text
of its line is a character further on. -/
def placeOf (lines : List Line) (byte : Nat) : Nat × Nat :=
  let (number, line) := lineAt lines byte
  (number + 1, (line.before byte).length + (if line.stop < byte then 2 else 1))

/-- The span within a source of `limit` bytes; an empty one is widened to have something to mark. -/
def clamp (limit : Nat) (span : Span) : Span :=
  let start := min span.start limit
  let stop := min span.stop limit
  if start = stop then ⟨start, min (start + 1) limit⟩ else ⟨start, stop⟩

end RecognizerModel.Report
