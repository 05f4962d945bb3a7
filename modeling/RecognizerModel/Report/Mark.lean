import RecognizerModel.Build.Diagnostic
import RecognizerModel.Report.Canvas
import RecognizerModel.Report.Source
import RecognizerModel.Text.Blank

/-! Marks on a source, and the pieces of them that stand on each line. -/
namespace RecognizerModel.Report

def Ink.ofSeverity : Severity → Ink
  | .error => red
  | .warning => yellow

/-- What draws a mark: that of the diagnostic itself, or that of a related place. -/
inductive Pen where
  | own (severity : Severity)
  | related
deriving DecidableEq, Repr

namespace Pen

def ink : Pen → Ink
  | own severity => .ofSeverity severity
  | related => .blue

def sign : Pen → Char
  | own _ => '^'
  | related => '-'

def isOwn : Pen → Bool
  | own _ => true
  | related => false

def draw (p : Pen) (c : Char) : Cell := ⟨c, some p.ink⟩

end Pen

structure Mark where
  extent : Extent
  pen : Pen
  /-- The text beside the mark, if there is any. -/
  label : List Char
deriving DecidableEq, Repr

/-- What a line has of a mark. A mark over several lines has a bar in front of them; the bars of
marks that cross are at different depths. -/
inductive Part where
  | whole
  | opening (depth : Nat)
  | inside
  | closing (depth : Nat)
deriving DecidableEq, Repr

structure Piece where
  part : Part
  firstColumn : Nat
  stopColumn : Nat
  pen : Pen
  label : List Char
deriving Repr

namespace Piece

def hasLabel (p : Piece) : Bool := !p.label.isEmpty

def width (p : Piece) : Nat := p.stopColumn - p.firstColumn

/-- The depth of a bar that begins or ends with the piece. -/
def turn? (p : Piece) : Option Nat :=
  match p.part with
  | .opening depth => some depth
  | .closing depth => some depth
  | .whole => none
  | .inside => none

def turns (p : Piece) : Bool := p.turn?.isSome

/-- Whether the columns of the piece, with more of them behind, meet those of another. -/
def overlaps (p other : Piece) (more : Nat) : Bool :=
  (other.firstColumn ≤ p.firstColumn && p.firstColumn < other.stopColumn) ||
    (p.firstColumn ≤ other.firstColumn && other.firstColumn < p.stopColumn + more)

end Piece

/-! ## Marks over several lines -/

/-- A mark over several lines with the depth of its bar. -/
structure Bracket where
  mark : Mark
  depth : Nat
  /-- Whether a later mark has the same extent and the bar for both. -/
  covered : Bool

namespace Bracket

def crosses (a b : Bracket) : Bool :=
  (b.mark.extent.firstLine ≤ a.mark.extent.firstLine &&
      a.mark.extent.firstLine ≤ b.mark.extent.lastLine) ||
    (a.mark.extent.firstLine ≤ b.mark.extent.firstLine &&
      b.mark.extent.firstLine ≤ a.mark.extent.lastLine)

/-- The earlier brackets after they have made room for a new one, up to the first that need not; and
whether all of them had to. -/
def yield (new : Bracket) : List Bracket → List Bracket × Bool
  | [] => ([], true)
  | b :: rest =>
    if b.mark.extent = new.mark.extent then
      let (rest, all) := yield new rest
      ({ b with covered := true } :: rest, all)
    else if new.crosses b then
      let (rest, all) := yield new rest
      ({ b with depth := b.depth + 1 } :: rest, all)
    else (b :: rest, false)

/-- Adds a bracket at the least depth. One that covers the diagnostic's own mark takes its pen. -/
def add (earlier : List Bracket) (mark : Mark) : List Bracket :=
  let new : Bracket := ⟨mark, 1, false⟩
  let (earlier, all) := new.yield earlier
  let own? := earlier.find? fun b => b.mark.pen.isOwn && b.mark.extent = mark.extent
  match all, own? with
  | true, some own => earlier ++ [{ new with mark.pen := own.mark.pen }]
  | _, _ => earlier ++ [new]

/-- Marks that begin earlier or reach further have their bars further left. -/
def ofMarks (marks : List Mark) : List Bracket :=
  let sorted := marks.mergeSort fun a b =>
    a.extent.firstLine < b.extent.firstLine ||
      (a.extent.firstLine == b.extent.firstLine && b.extent.lastLine ≤ a.extent.lastLine)
  let brackets := sorted.foldl add []
  let deepest := (brackets.map depth).foldl max 0
  brackets.map fun b => { b with depth := deepest - b.depth + 1 }

end Bracket

/-- Whether a line is neither blank nor a single bracket nor a comment; documentation counts. -/
def isTelling (line : List Char) : Bool :=
  match Text.trimChars line with
  | [] => false
  | [c] => c ∉ ['{', '}', '(', ')', '[', ']']
  | '/' :: '/' :: c :: _ => c = '/' || c = '!'
  | cs => cs != ['/', '/']

/-- The lines within a mark that are shown for certain: up to three at its beginning and the last
one of a long mark, as far as they are telling. -/
def innerLines (telling : Nat → Bool) (first last : Nat) : List Nat :=
  let front := (List.range' (first + 1) (min 3 (last - (first + 1)))).reverse.dropWhile
    (!telling ·) |>.reverse
  front ++ (if first + 5 < last && telling (last - 1) then [last - 1] else [])

theorem between_of_mem_innerLines (telling : Nat → Bool) (first last line : Nat)
    (h : line ∈ innerLines telling first last) : first < line ∧ line < last := by
  simp only [innerLines, List.mem_append] at h
  rcases h with h | h
  · have := (List.dropWhile_sublist _).mem (List.mem_reverse.mp h)
    simp only [List.mem_reverse, List.mem_range'_1] at this
    omega
  · split at h
    next hl =>
      simp only [Bool.and_eq_true, decide_eq_true_eq] at hl
      simp only [List.mem_singleton] at h
      omega
    next => simp at h

/-- The pieces of a bracket with their lines. A covered one keeps its label only. -/
def Bracket.pieces (telling : Nat → Bool) (b : Bracket) : List (Nat × Piece) :=
  let e := b.mark.extent
  let pen := b.mark.pen
  let ending (part : Part) : Nat × Piece :=
    (e.lastLine, ⟨part, e.stopColumn - 1, e.stopColumn, pen, b.mark.label⟩)
  if b.covered then [ending .whole]
  else
    (e.firstLine, ⟨.opening b.depth, e.firstColumn, e.firstColumn + 1, pen, []⟩) ::
      (innerLines telling e.firstLine e.lastLine).map (·, ⟨.inside, 0, 0, pen, []⟩) ++
      [ending (.closing b.depth)]

/-- The pieces of all marks with their lines, and how many bars stand side by side. -/
def piecesOf (telling : Nat → Bool) (marks : List Mark) : List (Nat × Piece) × Nat :=
  let single := marks.filter fun m => m.extent.firstLine = m.extent.lastLine
  let brackets := Bracket.ofMarks (marks.filter fun m => m.extent.firstLine ≠ m.extent.lastLine)
  let whole (m : Mark) : Nat × Piece :=
    let e := m.extent
    (e.firstLine, ⟨.whole, e.firstColumn, e.stopColumn, m.pen, m.label⟩)
  (single.map whole ++ brackets.flatMap (Bracket.pieces telling),
    (brackets.map Bracket.depth).foldl max 0)

end RecognizerModel.Report
