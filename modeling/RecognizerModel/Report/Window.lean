import RecognizerModel.Report.Mark

/-! The columns of a source that are shown where its lines are too wide or far from the margin. -/
namespace RecognizerModel.Report

/-- What the lines to be shown need; all but `longest` are columns. -/
structure Need where
  /-- The blanks that all lines begin with. -/
  blanks : Nat
  first : Nat
  stop : Nat
  /-- Where the labels end if each stands behind its mark. -/
  labelStop : Nat
  longest : Nat

def Need.ofLines (lines : List (List Char)) (pieces : List Piece) : Need :=
  let texts := lines.filter fun text => !text.all Text.isBlank
  { blanks := (texts.map fun text => (text.takeWhile Text.isBlank).length).min?.getD 0
    first := (pieces.map fun p => min p.firstColumn p.stopColumn).min?.getD 0
    stop := (pieces.map fun p => max p.firstColumn p.stopColumn).max?.getD 0
    labelStop := (pieces.map fun p =>
      p.stopColumn + if p.hasLabel then p.label.length + 1 else 0).max?.getD 0
    longest := (lines.map List.length).max?.getD 0 }

/-- The columns from `left` on; a line goes up to `right` unless all of it has room. -/
structure Window where
  left : Nat
  right : Nat
  room : Nat

namespace Window

/-- The space kept free around the marks. -/
def spare : Nat := 6

/-- Wide blanks at the margin are shortened. If the lines are still too wide, they begin behind the
blanks, then so that labels fit, then so that marks fit; wider marks alone decide. -/
def fit (room : Nat) (need : Need) : Window :=
  let blanks := need.blanks - spare
  let first := need.first - spare
  let stop := need.stop + spare
  let labelStop := need.labelStop + spare
  let left := if 20 < blanks then blanks - 16 else 0
  let right := max need.longest left
  let beginAt (left : Nat) : Window := ⟨left, left + room, room⟩
  if right - left ≤ room then ⟨left, right, room⟩
  else if labelStop - blanks ≤ room then beginAt blanks
  else if labelStop - first ≤ room then beginAt (first - (room - (labelStop - first)) / 2)
  else if stop - first ≤ room then beginAt (first - (room - (stop - first)) / 5 * 2)
  else ⟨first, stop, room⟩

/-- The columns left out at the front of a line. -/
def leftOf (w : Window) (text : List Char) : Nat :=
  min w.left text.length

def ellipsis : Row :=
  .inked .blue ['.', '.', '.']

/-- The part of a line in the window, with dots at the ends that were cut. -/
def clip (w : Window) (text : List Char) : Row :=
  let right := if text.length - w.left ≤ w.room then text.length else min text.length w.right
  let cut := (text.drop (w.leftOf text)).take (right - w.leftOf text)
  let front := if 0 < w.left then ellipsis ++ Row.plain (cut.drop 3) else Row.plain cut
  if right < text.length then front.take (cut.length - 3) ++ ellipsis else front

end Window

end RecognizerModel.Report
