import RecognizerModel.Report.Drawing

/-! The lines on which marks are drawn. Each mark stands on its first line and has its label on its
last, other lines belong to some mark from its first line to its last, and each bar has its place
beside the text. -/
namespace RecognizerModel.Report

section Lines

variable {lines : List Line}

theorem lineAt_lt (nonempty : lines ≠ []) (byte : Nat) : (lineAt lines byte).1 < lines.length := by
  have some := List.length_pos_iff.mpr nonempty
  unfold lineAt
  dsimp only
  cases found : lines.findIdx? (byte < ·.next) with
  | none => exact Nat.sub_lt some Nat.one_pos
  | some number => exact (List.findIdx?_eq_some_iff_getElem.mp found).1

theorem lineAt_mono {first last : Nat} (h : first ≤ last) :
    (lineAt lines first).1 ≤ (lineAt lines last).1 := by
  unfold lineAt
  dsimp only
  cases later : lines.findIdx? (last < ·.next) with
  | none =>
      cases found : lines.findIdx? (first < ·.next) with
      | none => exact Nat.le_refl _
      | some number =>
          have bound := (List.findIdx?_eq_some_iff_getElem.mp found).1
          exact Nat.le_sub_one_of_lt bound
  | some number =>
      obtain ⟨bound, ends, -⟩ := List.findIdx?_eq_some_iff_getElem.mp later
      have here : first < lines[number].next := Nat.lt_of_le_of_lt h (of_decide_eq_true ends)
      cases found : lines.findIdx? (first < ·.next) with
      | none =>
          have never := List.findIdx?_eq_none_iff.mp found _ (List.getElem_mem bound)
          exact absurd here (of_decide_eq_false never)
      | some earlier =>
          obtain ⟨_, _, before⟩ := List.findIdx?_eq_some_iff_getElem.mp found
          exact Nat.le_of_not_lt fun behind => before number behind (decide_eq_true here)

/-- A span is on lines of the source, and does not end above its beginning. -/
theorem Extent.lines_ofSpan (nonempty : lines ≠ []) (span : Span) :
    (ofSpan lines span).firstLine ≤ (ofSpan lines span).lastLine ∧
      (ofSpan lines span).lastLine < lines.length :=
  ⟨lineAt_mono (Nat.le_max_left ..), lineAt_lt nonempty _⟩

end Lines

theorem le_foldl_max {x : Nat} {xs : List Nat} (h : x ∈ xs) : x ≤ xs.foldl max 0 := by
  rw [List.foldl_max, List.max?_eq_some_max (List.ne_nil_of_mem h), Option.getD_some]
  exact Nat.le_trans (List.le_max_of_mem h) (Nat.le_max_right ..)

namespace Bracket

/-- Room for a new bracket leaves the marks of the earlier ones, and covers none but those of the
same extent. -/
theorem map_yield (new : Bracket) (earlier : List Bracket) :
    (new.yield earlier).1.map
        (fun b => (b.mark, b.covered || b.mark.extent = new.mark.extent)) =
      earlier.map fun b => (b.mark, b.covered || b.mark.extent = new.mark.extent) := by
  induction earlier with
  | nil => rfl
  | cons b rest ih =>
      unfold yield
      split
      · next same => simp [same, ih]
      · split
        · simp [ih]
        · rfl

theorem exists_add (earlier : List Bracket) (mark : Mark) :
    ∃ last, add earlier mark = ((⟨mark, 1, false⟩ : Bracket).yield earlier).1 ++ [last] ∧
      last.mark.extent = mark.extent ∧ last.mark.label = mark.label ∧ last.covered = false := by
  unfold add
  dsimp only
  split <;> exact ⟨_, rfl, rfl, rfl, rfl⟩

/-- Whether brackets are those of marks: each has the extent of a mark, and for each mark there are,
of its extent, one with its label and one with a bar. -/
structure Of (marks : List Mark) (brackets : List Bracket) : Prop where
  extent : ∀ b ∈ brackets, ∃ m ∈ marks, b.mark.extent = m.extent
  label : ∀ m ∈ marks, ∃ b ∈ brackets, b.mark.extent = m.extent ∧ b.mark.label = m.label
  bar : ∀ m ∈ marks, ∃ b ∈ brackets, b.mark.extent = m.extent ∧ b.covered = false

theorem Of.add {marks : List Mark} {brackets : List Bracket} (h : Of marks brackets) (mark : Mark) :
    Of (marks ++ [mark]) (add brackets mark) := by
  obtain ⟨last, added, extent, label, bar⟩ := exists_add brackets mark
  have kept := map_yield ⟨mark, 1, false⟩ brackets
  have stays : ∀ b ∈ brackets, ∃ b' ∈ ((⟨mark, 1, false⟩ : Bracket).yield brackets).1,
      b'.mark = b.mark ∧ (b.mark.extent ≠ mark.extent → b'.covered = b.covered) := by
    intro b hb
    obtain ⟨b', hb', same⟩ := List.mem_map.mp (kept ▸ List.mem_map_of_mem hb)
    obtain ⟨hmark, covered⟩ := Prod.mk.inj same
    exact ⟨b', hb', hmark, fun other => by simpa [hmark, other] using covered⟩
  rw [added]
  constructor
  case extent =>
    refine List.forall_mem_append.mpr ⟨fun b' hb' => ?_, by simp [extent]⟩
    obtain ⟨b, hb, same⟩ := List.mem_map.mp (kept ▸ List.mem_map_of_mem hb')
    obtain ⟨m, hm, here⟩ := h.extent b hb
    exact ⟨m, List.mem_append_left _ hm, by rw [← (Prod.mk.inj same).1, here]⟩
  case label =>
    refine List.forall_mem_append.mpr ⟨fun m hm => ?_, by simp [extent, label]⟩
    obtain ⟨b, hb, held⟩ := h.label m hm
    obtain ⟨b', hb', hmark, -⟩ := stays b hb
    exact ⟨b', List.mem_append_left _ hb', hmark ▸ held⟩
  case bar =>
    refine List.forall_mem_append.mpr ⟨fun m hm => ?_, by simp [extent, bar]⟩
    obtain ⟨b, hb, here, uncovered⟩ := h.bar m hm
    -- the bar of an extent that comes again is that of the new bracket
    by_cases same : mark.extent = m.extent
    · exact ⟨last, by simp, extent.trans same, bar⟩
    · obtain ⟨b', hb', hmark, covered⟩ := stays b hb
      have other : b.mark.extent ≠ mark.extent := fun equal => same (equal.symm.trans here)
      exact ⟨b', List.mem_append_left _ hb', hmark ▸ here, (covered other).trans uncovered⟩

theorem Of.foldl {marks more : List Mark} {brackets : List Bracket} (h : Of marks brackets) :
    Of (marks ++ more) (more.foldl Bracket.add brackets) := by
  induction more generalizing marks brackets with
  | nil => simpa using h
  | cons mark rest ih => simpa using ih (h.add mark)

theorem Of.move {marks : List Mark} {brackets : List Bracket} (h : Of marks brackets)
    (depth : Bracket → Nat) : Of marks (brackets.map fun b => { b with depth := depth b }) := by
  constructor
  case extent => exact List.forall_mem_map.mpr h.extent
  case label =>
    intro m hm
    obtain ⟨b, hb, held⟩ := h.label m hm
    exact ⟨_, List.mem_map_of_mem hb, held⟩
  case bar =>
    intro m hm
    obtain ⟨b, hb, held⟩ := h.bar m hm
    exact ⟨_, List.mem_map_of_mem hb, held⟩

theorem of_ofMarks (marks : List Mark) : Of marks (ofMarks marks) := by
  have none : Of [] [] := ⟨nofun, nofun, nofun⟩
  obtain ⟨extent, label, bar⟩ : Of _ (ofMarks marks) := none.foldl.move _
  simp only [List.nil_append, List.mem_mergeSort] at extent label bar
  exact ⟨extent, label, bar⟩

/-- The least depth is 1, and bars stand side by side up to the greatest. -/
theorem one_le_depth {marks : List Mark} {b : Bracket} (h : b ∈ ofMarks marks) : 1 ≤ b.depth := by
  obtain ⟨_, _, rfl⟩ := List.mem_map.mp h
  exact Nat.le_add_left ..

variable {telling : Nat → Bool} {b : Bracket}

theorem exists_first_of_bar (telling : Nat → Bool) (bar : b.covered = false) :
    ∃ p, (b.mark.extent.firstLine, p) ∈ b.pieces telling := by
  simp [pieces, bar]

theorem exists_last (telling : Nat → Bool) (b : Bracket) :
    ∃ p, (b.mark.extent.lastLine, p) ∈ b.pieces telling ∧ p.label = b.mark.label := by
  have last : ∃ part, (b.mark.extent.lastLine, (⟨part, b.mark.extent.stopColumn - 1,
      b.mark.extent.stopColumn, b.mark.pen, b.mark.label⟩ : Piece)) ∈ b.pieces telling := by
    cases h : b.covered with
    | true => exact ⟨.whole, by simp [pieces, h]⟩
    | false => exact ⟨.closing b.depth, by simp [pieces, h]⟩
  obtain ⟨part, here⟩ := last
  exact ⟨_, here, rfl⟩

/-- What stands on a line for a bracket. -/
theorem cases_of_mem_pieces {line : Nat} {p : Piece} (h : (line, p) ∈ b.pieces telling) :
    (line = b.mark.extent.lastLine ∧ p.part = .whole) ∨
      (line = b.mark.extent.firstLine ∧ p.part = .opening b.depth) ∨
      ((b.mark.extent.firstLine < line ∧ line < b.mark.extent.lastLine) ∧ p.part = .inside) ∨
      (line = b.mark.extent.lastLine ∧ p.part = .closing b.depth) := by
  unfold pieces at h
  dsimp only at h
  split at h
  · cases List.mem_singleton.mp h
    exact .inl ⟨rfl, rfl⟩
  · rcases List.mem_append.mp h with h | h
    · rcases List.mem_cons.mp h with h | h
      · cases h
        exact .inr (.inl ⟨rfl, rfl⟩)
      · obtain ⟨inner, hinner, same⟩ := List.mem_map.mp h
        cases same
        exact .inr (.inr (.inl ⟨between_of_mem_innerLines telling _ _ _ hinner, rfl⟩))
    · cases List.mem_singleton.mp h
      exact .inr (.inr (.inr ⟨rfl, rfl⟩))

theorem between_of_mem_pieces (ordered : b.mark.extent.firstLine ≤ b.mark.extent.lastLine)
    {line : Nat} {p : Piece} (h : (line, p) ∈ b.pieces telling) :
    b.mark.extent.firstLine ≤ line ∧ line ≤ b.mark.extent.lastLine := by
  rcases cases_of_mem_pieces h with ⟨here, -⟩ | ⟨here, -⟩ | ⟨here, -⟩ | ⟨here, -⟩ <;> omega

theorem depth_of_turn {line : Nat} {p : Piece} (h : (line, p) ∈ b.pieces telling) {depth : Nat}
    (turn : p.turn? = some depth) : depth = b.depth := by
  unfold Piece.turn? at turn
  rcases cases_of_mem_pieces h with ⟨-, part⟩ | ⟨-, part⟩ | ⟨-, part⟩ | ⟨-, part⟩ <;>
    simp [part] at turn <;> exact turn.symm

end Bracket

variable {telling : Nat → Bool} {marks : List Mark}

/-- Each mark has a piece on its first line and, with its label, one on its last. -/
theorem exists_pieces_of_mark (telling : Nat → Bool) {m : Mark} (h : m ∈ marks) :
    (∃ p, (m.extent.firstLine, p) ∈ (piecesOf telling marks).1) ∧
      ∃ p, (m.extent.lastLine, p) ∈ (piecesOf telling marks).1 ∧ p.label = m.label := by
  by_cases single : m.extent.firstLine = m.extent.lastLine
  · have whole : (m.extent.firstLine,
        (⟨.whole, m.extent.firstColumn, m.extent.stopColumn, m.pen, m.label⟩ : Piece)) ∈
          (piecesOf telling marks).1 :=
      List.mem_append_left _ (List.mem_map.mpr ⟨m, by simp [h, single], rfl⟩)
    exact ⟨⟨_, whole⟩, _, single ▸ whole, rfl⟩
  · have spread : m ∈ marks.filter fun m => m.extent.firstLine ≠ m.extent.lastLine :=
      List.mem_filter.mpr ⟨h, decide_eq_true single⟩
    obtain ⟨-, label, bar⟩ := Bracket.of_ofMarks _
    obtain ⟨b, hb, extent, uncovered⟩ := bar m spread
    obtain ⟨c, hc, extent', label⟩ := label m spread
    obtain ⟨p, hp⟩ := Bracket.exists_first_of_bar telling uncovered
    obtain ⟨q, hq, held⟩ := Bracket.exists_last telling c
    rw [extent] at hp
    rw [extent'] at hq
    exact ⟨⟨p, List.mem_append_right _ (List.mem_flatMap.mpr ⟨b, hb, hp⟩)⟩,
      q, List.mem_append_right _ (List.mem_flatMap.mpr ⟨c, hc, hq⟩), held.trans label⟩

/-- A piece stands on a line of some mark. -/
theorem exists_mark_of_mem_piecesOf
    (ordered : ∀ m ∈ marks, m.extent.firstLine ≤ m.extent.lastLine) {line : Nat} {p : Piece}
    (h : (line, p) ∈ (piecesOf telling marks).1) :
    ∃ m ∈ marks, m.extent.firstLine ≤ line ∧ line ≤ m.extent.lastLine := by
  rcases List.mem_append.mp h with h | h
  · obtain ⟨m, hm, same⟩ := List.mem_map.mp h
    cases same
    have held : m ∈ marks := (List.mem_filter.mp hm).1
    exact ⟨m, held, Nat.le_refl _, ordered m held⟩
  · obtain ⟨b, hb, hp⟩ := List.mem_flatMap.mp h
    obtain ⟨m, hm, extent⟩ := (Bracket.of_ofMarks _).extent b hb
    have held : m ∈ marks := (List.mem_filter.mp hm).1
    refine ⟨m, held, ?_⟩
    rw [← extent]
    exact Bracket.between_of_mem_pieces (extent ▸ ordered m held) hp

/-- A bar that begins or ends with a piece has its place among the bars. -/
theorem turn_of_mem_piecesOf {line : Nat} {p : Piece} (h : (line, p) ∈ (piecesOf telling marks).1)
    {depth : Nat} (turn : p.turn? = some depth) :
    1 ≤ depth ∧ depth ≤ (piecesOf telling marks).2 := by
  rcases List.mem_append.mp h with h | h
  · obtain ⟨m, _, same⟩ := List.mem_map.mp h
    cases same
    cases turn
  · obtain ⟨b, hb, hp⟩ := List.mem_flatMap.mp h
    rw [Bracket.depth_of_turn hp turn]
    exact ⟨Bracket.one_le_depth hb, le_foldl_max (List.mem_map_of_mem hb)⟩

end RecognizerModel.Report
