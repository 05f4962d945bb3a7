import RecognizerModel.Proofs.MarkedLines
import RecognizerModel.Report.Render

/-! What marks leave of the source that they are drawn on. Signs, labels and the lines between them
go to rows below the source line, and bars between its number and its text, so that each line with
an end of a mark is there to be read, behind its number. -/
namespace RecognizerModel.Report

namespace Canvas

theorem cell_write (c : Canvas) (row column : Nat) (cells : Row) (row' column' : Nat) :
    (c.write row column cells).cell row' column' =
      if row' = row ∧ column ≤ column' then
        (cells[column' - column]?).getD (c.cell row' column')
      else c.cell row' column' := by
  induction cells generalizing c column with
  | nil => simp [write]
  | cons first rest ih =>
      have next : c.write row column (first :: rest) =
          (c.put row column first).write row (column + 1) rest := rfl
      rw [next, ih, cell_put]
      by_cases same : row' = row
      · by_cases behind : column + 1 ≤ column'
        · have place : column' - column = column' - (column + 1) + 1 := by omega
          simp [same, behind, place, show column ≤ column' by omega, show column' ≠ column by omega]
        · by_cases here : column' = column
          · subst here
            rw [if_neg fun h => behind h.2, if_pos ⟨same, rfl⟩, if_pos ⟨same, Nat.le_refl _⟩,
              Nat.sub_self]
            rfl
          · simp [same, behind, here, show ¬column ≤ column' by omega]
      · simp [same]

/-- Whether a drawing has the cells of another in a region. -/
def AgreesOn (region : Nat → Nat → Prop) (c c' : Canvas) : Prop :=
  ∀ row column, region row column → c'.cell row column = c.cell row column

section Frame

variable {region : Nat → Nat → Prop} {c : Canvas}

theorem AgreesOn.refl : AgreesOn region c c :=
  fun _ _ _ => rfl

theorem AgreesOn.trans {c' c'' : Canvas} (h : AgreesOn region c c')
    (h' : AgreesOn region c' c'') : AgreesOn region c c'' :=
  fun row column inside => (h' row column inside).trans (h row column inside)

theorem AgreesOn.foldl {c' : Canvas} (h : AgreesOn region c c') {f : Canvas → α → Canvas}
    {xs : List α} (step : ∀ x ∈ xs, ∀ d, AgreesOn region d (f d x)) :
    AgreesOn region c (xs.foldl f c') := by
  induction xs generalizing c' with
  | nil => exact h
  | cons x rest ih =>
      obtain ⟨here, others⟩ := List.forall_mem_cons.mp step
      exact ih (h.trans (here c')) others

theorem agreesOn_put {row column : Nat} (outside : ¬region row column) (cell : Cell) :
    AgreesOn region c (c.put row column cell) := by
  intro row' column' inside
  rw [cell_put, if_neg]
  rintro ⟨rfl, rfl⟩
  exact outside inside

theorem agreesOn_write {row column : Nat}
    (outside : ∀ column', column ≤ column' → ¬region row column') (cells : Row) :
    AgreesOn region c (c.write row column cells) := by
  intro row' column' inside
  rw [cell_write, if_neg]
  rintro ⟨rfl, behind⟩
  exact outside column' behind inside

theorem agreesOn_column {rows : List Nat} {column : Nat}
    (outside : ∀ row ∈ rows, ¬region row column) (cell : Cell) :
    AgreesOn region c (c.column rows column cell) :=
  AgreesOn.refl.foldl fun row hrow _ => agreesOn_put (outside row hrow) cell

end Frame

end Canvas

open Canvas (AgreesOn agreesOn_put agreesOn_write agreesOn_column)

namespace Layout

variable (l : Layout)

/-- The row of a source line but for the bars between its number and its text. -/
def ofSource (row column : Nat) : Prop :=
  row = 0 ∧ (column < l.digits + 3 ∨ textColumn l.digits l.bars ≤ column)

/-- Whether a bar has its place among the bars of a layout. -/
def HasBar (depth : Nat) : Prop :=
  1 ≤ depth ∧ depth ≤ l.bars

def Fits (p : Piece) : Prop :=
  ∀ depth, p.turn? = some depth → l.HasBar depth

variable {l}

theorem not_ofSource_below {row column : Nat} (below : 0 < row) : ¬l.ofSource row column :=
  fun source => Nat.ne_of_gt below source.1

theorem HasBar.not_ofSource {depth : Nat} (h : l.HasBar depth) (row : Nat) :
    ¬l.ofSource row (l.barColumn depth) := by
  obtain ⟨low, high⟩ := h
  have some : l.bars ≠ 0 := by omega
  rintro ⟨-, outside⟩
  simp only [barColumn, textColumn, some, if_false] at outside
  omega

section Steps

variable {c : Canvas}

theorem agreesOn_addBar {bar : Nat × Pen} (h : l.HasBar bar.1) :
    AgreesOn l.ofSource c (l.addBar c bar) :=
  agreesOn_column (fun row _ => h.not_ofSource row) _

theorem agreesOn_drawOpenings {pieces : List Piece} (fits : ∀ p ∈ pieces, l.Fits p) :
    AgreesOn l.ofSource c (l.drawOpenings c pieces) := by
  refine AgreesOn.refl.foldl fun p hp c => ?_
  split
  · next depth part =>
    have turn : p.turn? = some depth := by rw [Piece.turn?, part]
    exact agreesOn_put ((fits p hp depth turn).not_ofSource 0) _
  · exact .refl

theorem agreesOn_drawTurn (column : Nat → Nat) (placed : Nat × Piece) :
    AgreesOn l.ofSource c (l.drawTurn column c placed) := by
  unfold drawTurn
  dsimp only
  split
  · exact agreesOn_write (fun _ _ => not_ofSource_below (Nat.succ_pos _)) _
  · exact .refl

theorem agreesOn_drawStem (column : Nat → Nat) (rows : Nat) {placed : Nat × Piece}
    (fits : l.Fits placed.2) : AgreesOn l.ofSource c (l.drawStem column rows c placed) := by
  obtain ⟨row, p⟩ := placed
  have below {start count : Nat} (low : 0 < start) (c : Canvas) (column : Nat) (cell : Cell) :
      AgreesOn l.ofSource c (c.column (List.range' start count) column cell) :=
    agreesOn_column (fun row hrow => not_ofSource_below
      (Nat.lt_of_lt_of_le low (List.mem_range'_1.mp hrow).1)) _
  have stem : AgreesOn l.ofSource c (if 0 < row && (p.hasLabel || p.turns) then
      c.column (List.range' 1 (row + 1)) (column p.firstColumn) (p.pen.draw '|') else c) := by
    split
    · exact below Nat.one_pos _ _ _
    · exact .refl
  unfold drawStem
  dsimp only
  split
  · exact stem.trans ((agreesOn_put (not_ofSource_below (Nat.succ_pos _)) _).trans
      (below (Nat.succ_pos _) _ _ _))
  -- only the bar of a piece that closes it goes through the row of the source
  · next depth part =>
    have turn : p.turn? = some depth := by rw [Piece.turn?, part]
    exact stem.trans (agreesOn_column (fun row _ => (fits depth turn).not_ofSource row) _)
  · exact stem
  · exact stem

theorem agreesOn_drawLabel (left : Nat) (placed : Nat × Piece) :
    AgreesOn l.ofSource c (l.drawLabel left c placed) := by
  unfold drawLabel
  dsimp only
  split <;> exact agreesOn_write (fun _ _ => not_ofSource_below (Nat.succ_pos _)) _

theorem agreesOn_drawSigns (column : Nat → Nat) (p : Piece) :
    AgreesOn l.ofSource c (drawSigns column c p) :=
  AgreesOn.refl.foldl fun _ _ _ => agreesOn_put (not_ofSource_below Nat.one_pos) _

end Steps

theorem map_snd_labelRows (row : Nat) (pieces : List Piece) :
    (labelRows row pieces).map Prod.snd = pieces := by
  induction pieces generalizing row with
  | nil => rfl
  | cons p rest ih => simp [labelRows, ih]

theorem mem_of_mem_arrange {pieces : List Piece} {placed : Nat × Piece}
    (h : placed ∈ (arrange pieces).1) : placed.2 ∈ pieces := by
  have sorted {p : Nat × Piece} (hp : p ∈ labelRows 0
      (pieces.mergeSort fun p q => q.firstColumn ≤ p.firstColumn)) : p.2 ∈ pieces := by
    have here := List.mem_map_of_mem (f := Prod.snd) hp
    rwa [map_snd_labelRows, List.mem_mergeSort] at here
  unfold arrange at h
  dsimp only at h
  split at h
  · obtain ⟨p, hp, rfl⟩ := List.mem_map.mp h
    exact sorted (p := p) hp
  · exact sorted h

/-- Whatever is drawn on a line, its number and its text stay. -/
theorem agreesOn_drawLine (number : Nat) (text : List Char) {pieces : List Piece}
    (fits : ∀ p ∈ pieces, l.Fits p) :
    AgreesOn l.ofSource (l.numbered number text) (l.drawLine number text pieces) := by
  unfold drawLine
  dsimp only
  split
  · exact agreesOn_drawOpenings fits
  · refine .foldl
      (.foldl (.foldl (.foldl (agreesOn_column ?edges _) ?turns) ?stems) ?labels) ?signs
    case edges => exact fun row hrow => not_ofSource_below (List.mem_range'_1.mp hrow).1
    case turns => exact fun placed _ _ => agreesOn_drawTurn _ placed
    case stems => exact fun placed hp _ => agreesOn_drawStem _ _ (fits _ (mem_of_mem_arrange hp))
    case labels => exact fun placed _ _ => agreesOn_drawLabel _ placed
    case signs => exact fun p _ _ => agreesOn_drawSigns _ p

/-- Whether a row is that of a source line: it has the number of the line, the edge behind it, and
the text of the line as far as it is in the window. -/
structure Shows (l : Layout) (row : Row) (number : Nat) (text : List Char) : Prop where
  number : ∀ column ≤ l.digits, row.cell column = (l.margin number).cell column
  edge : row.cell (l.digits + 1) = edge
  text : ∀ (i : Nat) (cell : Cell),
    (l.window.clip text)[i]? = some cell → row.cell (textColumn l.digits l.bars + i) = cell

theorem textColumn_ge (digits bars : Nat) : digits + 3 ≤ textColumn digits bars :=
  Nat.le_add_right ..

theorem exists_row_of_agreesOn {number : Nat} {text : List Char} {c : Canvas}
    (h : AgreesOn l.ofSource (l.numbered number text) c) :
    ∃ row ∈ c.rows, l.Shows row number text := by
  have start := textColumn_ge l.digits l.bars
  have front (column : Nat) (low : column < l.digits + 3) : c.cell 0 column =
      if column = l.digits + 1 then edge else (l.margin number).cell column := by
    rw [h 0 column ⟨rfl, .inl low⟩, numbered, Canvas.cell_write, if_neg (by omega),
      Canvas.cell_put]
    simp [Canvas.cell]
  have behind {i : Nat} {cell : Cell} (here : (l.window.clip text)[i]? = some cell) :
      c.cell 0 (textColumn l.digits l.bars + i) = cell := by
    rw [h 0 _ ⟨rfl, .inr (Nat.le_add_right ..)⟩, numbered, Canvas.cell_write,
      if_pos ⟨rfl, Nat.le_add_right ..⟩, Nat.add_sub_cancel_left, here, Option.getD_some]
  cases hrows : c.rows with
  -- the edge is drawn, so there is a row
  | nil =>
      have hedge := front (l.digits + 1) (by omega)
      simp [Canvas.cell, Row.cell, hrows, edge, Cell.blank] at hedge
  | cons row rest =>
      have same (column : Nat) : c.cell 0 column = row.cell column := by
        rw [Canvas.cell, hrows]
        rfl
      refine ⟨row, List.mem_cons_self, fun column low => ?_, ?_, fun i cell here => ?_⟩
      · rw [← same, front column (by omega), if_neg (by omega)]
      · rw [← same, front (l.digits + 1) (by omega), if_pos rfl]
      · rw [← same, behind here]

theorem hasBar_turnsOf {pieces : List Piece} (fits : ∀ p ∈ pieces, l.Fits p) :
    ∀ bar ∈ turnsOf pieces, l.HasBar bar.1 := by
  intro bar hbar
  obtain ⟨p, hp, here⟩ := List.mem_filterMap.mp hbar
  obtain ⟨depth, turn, rfl⟩ := Option.map_eq_some_iff.mp here
  exact fits p hp depth turn

theorem hasBar_barsWithout {bars : List (Nat × Pen)} (h : ∀ bar ∈ bars, l.HasBar bar.1)
    (others : List (Nat × Pen)) : ∀ bar ∈ barsWithout bars others, l.HasBar bar.1 :=
  fun bar hbar => h bar (List.mem_filter.mp hbar).1

/-- Each of the lines to be drawn is there. -/
theorem exists_row_of_mem_drawLines {text : Nat → List Char} {pieces : Nat → List Piece}
    (fits : ∀ line, ∀ p ∈ pieces line, l.Fits p) {bars : List (Nat × Pen)}
    (beside : ∀ bar ∈ bars, l.HasBar bar.1) {lines : List Nat} {line : Nat} (h : line ∈ lines) :
    ∃ row ∈ l.drawLines text pieces bars lines, l.Shows row (line + 1) (text line) := by
  induction lines generalizing bars with
  | nil => cases h
  | cons first rest ih =>
      rcases List.mem_cons.mp h with rfl | h
      · have kept := (agreesOn_drawLine (line + 1) (text line) (fits line)).foldl
          fun bar hbar _ =>
            agreesOn_addBar (hasBar_barsWithout beside (turnsOf (pieces line)) bar hbar)
        obtain ⟨row, hrow, shows⟩ := exists_row_of_agreesOn kept
        exact ⟨row, List.mem_append_left _ (List.mem_append_left _ hrow), shows⟩
      · have later : ∀ bar ∈ barsWithout bars (turnsOf (pieces first)) ++
            barsWithout (turnsOf (pieces first)) bars, l.HasBar bar.1 :=
          List.forall_mem_append.mpr ⟨hasBar_barsWithout beside _,
            hasBar_barsWithout (hasBar_turnsOf (fits first)) _⟩
        obtain ⟨row, hrow, shows⟩ := ih later h
        exact ⟨row, List.mem_append_right _ hrow, shows⟩

end Layout

variable {lines : List Line} {marks : List Mark}

theorem mem_markedLines {line : Nat} : line ∈ markedLines lines marks ↔
    line < lines.length ∧ ∃ p, (line, p) ∈ (piecesOn lines marks).1 := by
  simp [markedLines]

/-- The drawing of marks has all lines with pieces on them. -/
theorem exists_row_of_markedLines {line : Nat} (h : line ∈ markedLines lines marks) :
    ∃ row ∈ (drawMarks lines marks).1,
      (Layout.ofMarks lines marks).Shows row (line + 1) (lineText lines line) := by
  have none : ∀ bar ∈ ([] : List (Nat × Pen)), (Layout.ofMarks lines marks).HasBar bar.1 :=
    fun _ => nofun
  refine Layout.exists_row_of_mem_drawLines (fun _ p hp depth turn => ?_) none h
  obtain ⟨⟨_, _⟩, here, rfl⟩ := List.mem_map.mp hp
  exact turn_of_mem_piecesOf (List.mem_filter.mp here).1 turn

section Diagnostics

variable {source : String} {d : Diagnostic} {m : Mark}

theorem lines_of_mem_marksOf (h : m ∈ marksOf source d) :
    m.extent.firstLine ≤ m.extent.lastLine ∧ m.extent.lastLine < (linesOf source).length := by
  rcases List.mem_cons.mp h with rfl | h
  · exact Extent.lines_ofSpan (linesOf_ne_nil source) _
  · obtain ⟨_, _, rfl⟩ := List.mem_map.mp h
    exact Extent.lines_ofSpan (linesOf_ne_nil source) _

/-- In the drawing of a diagnostic the lines can be read on which its own mark and those of the
related places begin and end. -/
theorem exists_row_of_mark (path : Option String) (h : m ∈ marksOf source d) {line : Nat}
    (ends : line = m.extent.firstLine ∨ line = m.extent.lastLine) :
    ∃ row ∈ draw source path d, (Layout.ofMarks (linesOf source) (marksOf source d)).Shows row
      (line + 1) (lineText (linesOf source) line) := by
  obtain ⟨ordered, inside⟩ := lines_of_mem_marksOf h
  obtain ⟨first, last, hlast, -⟩ := exists_pieces_of_mark _ h
  have marked : line ∈ markedLines (linesOf source) (marksOf source d) := by
    rw [mem_markedLines]
    rcases ends with rfl | rfl
    · exact ⟨Nat.lt_of_le_of_lt ordered inside, first⟩
    · exact ⟨inside, last, hlast⟩
  obtain ⟨row, hrow, shows⟩ := exists_row_of_markedLines marked
  refine ⟨row, ?_, shows⟩
  unfold draw
  simp [hrow]

/-- Of the lines between them only such are drawn as lie in a mark. -/
theorem exists_mark_of_markedLines {line : Nat}
    (h : line ∈ markedLines (linesOf source) (marksOf source d)) :
    ∃ m ∈ marksOf source d, m.extent.firstLine ≤ line ∧ line ≤ m.extent.lastLine := by
  obtain ⟨-, p, hp⟩ := mem_markedLines.mp h
  exact exists_mark_of_mem_piecesOf (fun m hm => (lines_of_mem_marksOf hm).1) hp

end Diagnostics

end RecognizerModel.Report
