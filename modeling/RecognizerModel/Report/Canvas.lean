/-! Rows of characters in ink, on which every place can be drawn. -/
namespace RecognizerModel.Report

inductive Ink where
  | red
  | yellow
  | blue
  /-- Bold in the colour of the text. -/
  | bold
deriving DecidableEq, Repr

def Ink.codes : Ink → String
  | red => "\x1b[1m\x1b[91m"
  | yellow => "\x1b[1m\x1b[33m"
  | blue => "\x1b[1m\x1b[94m"
  | bold => "\x1b[1m"

/-- A character in ink; without one it has the look of plain text. -/
structure Cell where
  char : Char
  ink : Option Ink
deriving DecidableEq, Repr

def Cell.blank : Cell := ⟨' ', none⟩

abbrev Row := List Cell

namespace Row

def plain (text : List Char) : Row :=
  text.map (⟨·, none⟩)

def inked (ink : Ink) (text : List Char) : Row :=
  text.map (⟨·, some ink⟩)

def blanks (count : Nat) : Row :=
  List.replicate count .blank

/-- The cell at a column; behind the end of a row there are blanks. -/
def cell (row : Row) (column : Nat) : Cell :=
  (row[column]?).getD .blank

/-- What ends the ink in use, and what begins the next. -/
def inkChange (before after : Option Ink) : List Char :=
  if before = after then []
  else (match before with | some _ => "\x1b[0m".toList | none => []) ++
    (match after with | some ink => ink.codes.toList | none => [])

def coloredFrom : (ink : Option Ink) → Row → List Char
  | ink, [] => inkChange ink none
  | ink, c :: rest => inkChange ink c.ink ++ c.char :: coloredFrom c.ink rest

/-- The row as text, with its ink if `colored`. -/
def text (colored : Bool) (row : Row) : String :=
  String.ofList (if colored then coloredFrom none row else row.map Cell.char)

end Row

/-- Changes the entry at a place; `fill` stands at the places before it that the list lacks. -/
def modifyAt (fill : α) (change : α → α) : (place : Nat) → List α → List α
  | 0, [] => [change fill]
  | 0, x :: rest => change x :: rest
  | place + 1, [] => fill :: modifyAt fill change place []
  | place + 1, x :: rest => x :: modifyAt fill change place rest

theorem getD_modifyAt (fill : α) (change : α → α) (place other : Nat) (xs : List α) :
    (modifyAt fill change place xs)[other]?.getD fill =
      if other = place then change (xs[other]?.getD fill) else xs[other]?.getD fill := by
  induction place generalizing other xs with
  | zero => cases xs <;> cases other <;> simp [modifyAt]
  | succ place ih =>
    cases xs <;> cases other <;> simp [modifyAt, ih]

/-- Rows from the top, each as far as it was drawn on. -/
structure Canvas where
  rows : List Row

namespace Canvas

def cell (c : Canvas) (row column : Nat) : Cell :=
  Row.cell (c.rows[row]?.getD []) column

def put (c : Canvas) (row column : Nat) (cell : Cell) : Canvas :=
  ⟨modifyAt [] (modifyAt .blank (fun _ => cell) column) row c.rows⟩

theorem cell_put (c : Canvas) (row column row' column' : Nat) (new : Cell) :
    (c.put row column new).cell row' column' =
      if row' = row ∧ column' = column then new else c.cell row' column' := by
  simp only [cell, Row.cell, put, getD_modifyAt]
  by_cases hr : row' = row <;> by_cases hc : column' = column <;> simp [hr, hc, getD_modifyAt]

/-- Cells side by side, the first one at `column`. -/
def write (c : Canvas) (row column : Nat) (cells : Row) : Canvas :=
  (cells.zipIdx column).foldl (fun c p => c.put row p.2 p.1) c

/-- The same cell in each of the rows. -/
def column (c : Canvas) (rows : List Nat) (column : Nat) (cell : Cell) : Canvas :=
  rows.foldl (fun c row => c.put row column cell) c

end Canvas

end RecognizerModel.Report
