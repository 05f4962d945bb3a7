import RecognizerModel.Report.Window

/-!
Source lines with marks below them, labels beside the marks or below, and bars for the marks that
span lines.
-/
namespace RecognizerModel.Report

/-! ## Rows of labels -/

/-- Whether two pieces, the second further left, cannot have their labels or turns on one row. -/
def Piece.clashes (p next : Piece) (onFirstRow : Bool) : Bool :=
  let near := next.overlaps p (if next.hasLabel then byteCount next.label + 2 else 0)
  (near && p.hasLabel && next.hasLabel) ||
    (p.turns && next.hasLabel) || (p.hasLabel && next.turns) || (p.turns && next.turns) ||
    (near && next.stopColumn ≤ p.stopColumn && next.hasLabel && onFirstRow)

/-- Whether a label cannot stand beside its mark, because another piece is in the way. -/
def Piece.blockedBy (p next : Piece) : Bool :=
  p.hasLabel && next.overlaps p 0 &&
    !(next.firstColumn = p.firstColumn && next.stopColumn = p.stopColumn && !next.hasLabel)

/-- Pieces from right to left, each with the row of its label; row 0 is that of the signs. -/
def labelRows : (row : Nat) → List Piece → List (Nat × Piece)
  | _, [] => []
  | row, p :: rest =>
    let row := if row = 0 && rest.any p.blockedBy then 1 else row
    (row, p) :: labelRows (if rest.any (p.clashes · (row == 0)) then row + 1 else row) rest

/-- The pieces of one line with the rows of their labels, and the last row. If all of them open a
bar, the bars turn from the outermost to the innermost and no row is needed for labels. -/
def arrange (pieces : List Piece) : List (Nat × Piece) × Nat :=
  let placed := labelRows 0 (pieces.mergeSort fun p q => q.firstColumn ≤ p.firstColumn)
  let last := (placed.map Prod.fst).foldl max 0
  let rows := if last = 0 then 0 else last + 1
  if pieces.all (fun p => p.part matches .opening _) then
    (placed.map fun (row, p) => (last - row, p), rows - 1)
  else (placed, rows)

/-! ## Lines -/

structure Layout where
  /-- The digits of the greatest line number. -/
  digits : Nat
  /-- How many bars stand side by side. -/
  bars : Nat
  window : Window

namespace Layout

/-- The column of the bar at a depth, which counts from 1. -/
def barColumn (l : Layout) (depth : Nat) : Nat := l.digits + 2 + depth

def textColumn (digits bars : Nat) : Nat := digits + 3 + if bars = 0 then 0 else bars + 1

/-- The columns for the source in a drawing of 140 columns. -/
def room (digits bars : Nat) : Nat := 140 - textColumn digits bars

def edge : Cell := ⟨'|', some .blue⟩

/-- The number of a line in front of it. -/
def margin (l : Layout) (number : Nat) : Row :=
  let digits := (toString number).toList
  Row.inked .blue (List.replicate (l.digits - digits.length) ' ' ++ digits)

def numbered (l : Layout) (number : Nat) (text : List Char) : Canvas :=
  let canvas : Canvas := ⟨[l.margin number]⟩
  (canvas.put 0 (l.digits + 1) edge).write 0 (textColumn l.digits l.bars) (l.window.clip text)

/-- The place of lines left out. -/
def omission : Canvas :=
  ⟨[Window.ellipsis]⟩

/-- A bar beside all rows. -/
def addBar (l : Layout) (c : Canvas) (bar : Nat × Pen) : Canvas :=
  c.column (List.range c.rows.length) (l.barColumn bar.1) (bar.2.draw '|')

/-- A line with nothing but bars that begin before its text has them drawn beside it. -/
def drawOpenings (l : Layout) (c : Canvas) (pieces : List Piece) : Canvas :=
  pieces.foldl
    (fun c p => match p.part with
      | .opening depth => c.put 0 (l.barColumn depth) (p.pen.draw '/')
      | _ => c)
    c

/-- The line between a bar and the sign at which the mark begins or ends. -/
def drawTurn (l : Layout) (column : Nat → Nat) (c : Canvas) (placed : Nat × Piece) : Canvas :=
  let (row, p) := placed
  match p.turn? with
  | some depth =>
    let first := l.barColumn depth + 1
    c.write (row + 1) first (List.replicate (column p.firstColumn - first) (p.pen.draw '_'))
  | none => c

/-- The connection of a sign with what stands in a lower row, and the bar from or to that row. -/
def drawStem (l : Layout) (column : Nat → Nat) (rows : Nat) (c : Canvas) (placed : Nat × Piece) :
    Canvas :=
  let (row, p) := placed
  let c :=
    if 0 < row && (p.hasLabel || p.turns) then
      c.column (List.range' 1 (row + 1)) (column p.firstColumn) (p.pen.draw '|')
    else c
  match p.part with
  | .opening depth =>
    (c.put (row + 1) (l.barColumn depth) (p.pen.draw ' ')).column
      (List.range' (row + 2) (rows - row)) (l.barColumn depth) (p.pen.draw '|')
  | .closing depth => c.column (List.range (row + 2)) (l.barColumn depth) (p.pen.draw '|')
  | .whole => c
  | .inside => c

def drawLabel (l : Layout) (left : Nat) (c : Canvas) (placed : Nat × Piece) : Canvas :=
  let (row, p) := placed
  let text := Row.inked p.pen.ink p.label
  let start := textColumn l.digits l.bars
  if row = 0 then c.write 1 (start + (max p.stopColumn 1 + 1 - left)) text
  else c.write (row + 2) (start + (p.firstColumn - left)) text

def drawSigns (column : Nat → Nat) (c : Canvas) (p : Piece) : Canvas :=
  let columns := List.range' p.firstColumn (max p.width (if p.turns then 1 else 0))
  columns.foldl (fun c i => c.put 1 (column i) (p.pen.draw p.pen.sign)) c

/-- A line with its pieces below. Shorter pieces are drawn over longer ones, and of two as long the
diagnostic's own over the other. -/
def drawLine (l : Layout) (number : Nat) (text : List Char) (pieces : List Piece) : Canvas :=
  let canvas := l.numbered number text
  let beside (p : Piece) : Bool :=
    match p.part with
    | .opening _ => (text.take p.firstColumn).all Text.isBlank
    | .inside => true
    | _ => false
  if pieces.all beside then l.drawOpenings canvas pieces
  else
    let left := l.window.leftOf text
    let column (i : Nat) := textColumn l.digits l.bars + i - left
    let (placed, rows) := arrange pieces
    let canvas := canvas.column (List.range' 1 (rows + 1)) (l.digits + 1) edge
    let canvas := placed.foldl (l.drawTurn column) canvas
    let canvas := placed.foldl (l.drawStem column rows) canvas
    let canvas := placed.foldl (l.drawLabel left) canvas
    let bySize := (placed.map Prod.snd).mergeSort fun p q =>
      q.width < p.width || (p.width == q.width && (!p.pen.isOwn || q.pen.isOwn))
    bySize.foldl (drawSigns column) canvas

/-- The bars that begin or end on a line. -/
def turnsOf (pieces : List Piece) : List (Nat × Pen) :=
  pieces.filterMap fun p => p.turn?.map (·, p.pen)

/-- The bars that are not among others. -/
def barsWithout (bars others : List (Nat × Pen)) : List (Nat × Pen) :=
  bars.filter fun b => others.all (·.1 != b.1)

/-- The lines with pieces from the first to the last. A single line between two of them is shown as
well, and more are left out. `bars` are those that stand beside the first line. -/
def drawLines (l : Layout) (text : Nat → List Char) (pieces : Nat → List Piece) :
    (bars : List (Nat × Pen)) → List Nat → List Row
  | _, [] => []
  | bars, line :: rest =>
    let turns := turnsOf (pieces line)
    let going := barsWithout bars turns
    let after := going ++ barsWithout turns bars
    let drawn := going.foldl l.addBar (l.drawLine (line + 1) (text line) (pieces line))
    let between : Canvas :=
      match rest with
      | [] => ⟨[]⟩
      | next :: _ =>
        if next = line + 2 then l.numbered (line + 2) (text (line + 1))
        else if next = line + 1 then ⟨[]⟩
        else omission
    drawn.rows ++ (after.foldl l.addBar between).rows ++ drawLines l text pieces after rest

end Layout

/-- The text of a line as it is shown. -/
def lineText (lines : List Line) (line : Nat) : List Char :=
  shown ((lines[line]?.map Line.text).getD [])

/-- The pieces of marks with their lines, and how many bars stand side by side. -/
def piecesOn (lines : List Line) (marks : List Mark) : List (Nat × Piece) × Nat :=
  piecesOf (fun line => isTelling (lineText lines line)) marks

/-- The lines with pieces on them. -/
def markedLines (lines : List Line) (marks : List Mark) : List Nat :=
  (List.range lines.length).filter fun line => (piecesOn lines marks).1.any (·.1 == line)

def Layout.ofMarks (lines : List Line) (marks : List Mark) : Layout :=
  let (pieces, bars) := piecesOn lines marks
  let numbers := markedLines lines marks
  let digits := (toString ((numbers.getLast?.getD 0) + 1)).length
  let need := Need.ofLines (numbers.map (lineText lines)) (pieces.map Prod.snd)
  { digits, bars, window := .fit (room digits bars) need }

/-- The drawing of marks on the lines of a source, and the digits that its line numbers take. -/
def drawMarks (lines : List Line) (marks : List Mark) : List Row × Nat :=
  let layout := Layout.ofMarks lines marks
  let pieces (line : Nat) := ((piecesOn lines marks).1.filter (·.1 == line)).map Prod.snd
  (layout.drawLines (lineText lines) pieces [] (markedLines lines marks), layout.digits)

end RecognizerModel.Report
