import RecognizerModel.Proofs.TokenGrammar

/-! The tree over the tokens that are read. Each node begins at a parenthesis and ends behind the
one that belongs to it, what stands directly inside tiles it, and its leaves are the tokens in their
order. -/
namespace RecognizerModel

namespace Span

/-- Whether spans stand one directly behind the other, from an offset up to another. -/
def Tile : Nat → Nat → List Span → Prop
  | start, stop, [] => start = stop
  | start, stop, span :: rest => span.start = start ∧ Tile span.stop stop rest

theorem tile_append {start stop : Nat} {first second : List Span} :
    Tile start stop (first ++ second) ↔
      ∃ middle, Tile start middle first ∧ Tile middle stop second := by
  induction first generalizing start with
  | nil => simp [Tile]
  | cons span rest ih => simp [Tile, ih, and_assoc]

/-- Where spans begin and end that tile a stretch does not hang on anything else. -/
theorem Tile.unique {start stop start' stop' : Nat} {spans : List Span} (nonempty : spans ≠ [])
    (h : Tile start stop spans) (h' : Tile start' stop' spans) : start = start' ∧ stop = stop' := by
  induction spans generalizing start start' with
  | nil => exact absurd rfl nonempty
  | cons span rest ih =>
    refine ⟨h.1.symm.trans h'.1, ?_⟩
    cases rest with
    | nil => exact h.2.symm.trans h'.2
    | cons next rest => exact (ih (List.cons_ne_nil _ _) h.2 h'.2).2

end Span

namespace Token

/-- A token but for its kind. -/
def piece (t : Token) : String × Nat :=
  (t.text, t.start)

/-- What stands directly inside a node, but for its end: a parenthesis at the offset where the node
starts, the head that gives the kind, and nothing but items behind. -/
inductive Begin (kind : NodeKind) (start : Nat) : List Token → Prop
  | mk {lparen head : Token} {items : List Token} (opens : lparen.kind = .lparen)
      (here : lparen.start = start) (marks : head.kind = .head)
      (names : NodeKind.ofHead? head.text = some kind) (inside : ∀ t ∈ items, t.kind.isItem) :
      Begin kind start (lparen :: head :: items)

theorem Begin.push {kind : NodeKind} {start : Nat} {tokens : List Token}
    (h : Begin kind start tokens) {t : Token} (item : t.kind.isItem) :
    Begin kind start (tokens ++ [t]) := by
  cases h with
  | mk opens here marks names inside =>
    exact .mk opens here marks names (List.forall_mem_append.mpr ⟨inside, by simpa using item⟩)

end Token

namespace Forest

/-- The spans of what stands directly in the row. -/
def spans : Forest → List Span
  | nil => []
  | token t rest => t.span :: rest.spans
  | node _ span _ rest => span :: rest.spans

theorem spans_reverseOnto (f after : Forest) :
    (f.reverseOnto after).spans = f.spans.reverse ++ after.spans := by
  induction f generalizing after with
  | nil => rfl
  | token t rest ih => simp [reverseOnto, spans, ih]
  | node kind span inner rest _ ih => simp [reverseOnto, spans, ih]

theorem tokens_reverseOnto (f after : Forest) :
    (f.reverseOnto after).tokens = f.tokens.reverse ++ after.tokens := by
  induction f generalizing after with
  | nil => rfl
  | token t rest ih => simp [reverseOnto, tokens, ih]
  | node kind span inner rest _ ih => simp [reverseOnto, tokens, ih]

theorem leaves_reverseOnto (f after : Forest) :
    (f.reverseOnto after).leaves = (f.reverseOnto .nil).leaves ++ after.leaves := by
  induction f generalizing after with
  | nil => rfl
  | token t rest ih =>
    rw [reverseOnto, ih, reverseOnto, ih (.token t .nil)]
    simp [leaves]
  | node kind span inner rest _ ih =>
    rw [reverseOnto, ih, reverseOnto, ih (.node kind span inner .nil)]
    simp [leaves]

theorem forall_descendants_reverseOnto {P : Node → Prop} {f after : Forest} :
    (∀ d ∈ (f.reverseOnto after).descendants, P d) ↔
      (∀ d ∈ f.descendants, P d) ∧ ∀ d ∈ after.descendants, P d := by
  induction f generalizing after with
  | nil => simp [reverseOnto, descendants]
  | token t rest ih => simp [reverseOnto, descendants, ih]
  | node kind span inner rest _ ih =>
    simp only [reverseOnto, descendants, ih, List.forall_mem_cons, List.forall_mem_append,
      and_assoc, and_left_comm]

theorem exists_around_leaves {f : Forest} {n : Node} (h : n ∈ f.descendants) :
    ∃ before behind, f.leaves = before ++ (n.inner.leaves ++ behind) := by
  induction f with
  | nil => cases h
  | token t rest ih =>
    obtain ⟨before, behind, around⟩ := ih h
    exact ⟨t :: before, behind, by simp [leaves, around]⟩
  | node kind span inner rest ihInner ihRest =>
    rcases List.mem_cons.mp h with rfl | h
    · exact ⟨[], rest.leaves, rfl⟩
    rcases List.mem_append.mp h with h | h
    · obtain ⟨before, behind, around⟩ := ihInner h
      exact ⟨before, behind ++ rest.leaves, by simp [leaves, around]⟩
    · obtain ⟨before, behind, around⟩ := ihRest h
      exact ⟨inner.leaves ++ before, behind, by simp [leaves, around]⟩

theorem descendants_inner_of_mem {f : Forest} {n : Node} (h : n ∈ f.descendants) :
    n.inner.descendants ⊆ f.descendants := by
  induction f with
  | nil => cases h
  | token t rest ih => exact ih h
  | node kind span inner rest ihInner ihRest =>
    rcases List.mem_cons.mp h with rfl | h
    · intro d hd
      exact List.mem_cons_of_mem _ (List.mem_append_left _ hd)
    rcases List.mem_append.mp h with h | h
    · intro d hd
      exact List.mem_cons_of_mem _ (List.mem_append_left _ (ihInner h hd))
    · intro d hd
      exact List.mem_cons_of_mem _ (List.mem_append_right _ (ihRest h hd))

end Forest

/-- Whether a node stands between the parentheses that belong to each other, and what is directly
inside, with the parentheses, tiles it. -/
structure Node.Delimited (n : Node) : Prop where
  tiles : Span.Tile n.span.start n.span.stop n.inner.spans
  tokens : ∃ front rparen, n.inner.tokens = front ++ [rparen] ∧
    Token.Begin n.kind n.span.start front ∧ rparen.kind = .rparen ∧ rparen.stop = n.span.stop

/-- Where each node stands in its parentheses, leaves are as tightly packed as nodes. -/
theorem Forest.tile_leaves {f : Forest} {start stop : Nat}
    (delimited : ∀ d ∈ f.descendants, d.Delimited) (h : Span.Tile start stop f.spans) :
    Span.Tile start stop (f.leaves.map Token.span) := by
  induction f generalizing start stop with
  | nil => exact h
  | token t rest ih => exact ⟨h.1, ih delimited h.2⟩
  | node kind span inner rest ihInner ihRest =>
    obtain ⟨here, below⟩ := List.forall_mem_cons.mp delimited
    obtain ⟨inside, others⟩ := List.forall_mem_append.mp below
    rw [leaves, List.map_append, Span.tile_append]
    obtain ⟨rfl, behind⟩ := h
    exact ⟨span.stop, ihInner inside here.tiles, ihRest others behind⟩

theorem Node.Delimited.leaves_ne_nil {n : Node} (h : n.Delimited) : n.inner.leaves ≠ [] := by
  obtain ⟨front, rparen, tokens, -⟩ := h.tokens
  have last : rparen ∈ n.inner.tokens := by simp [tokens]
  exact List.ne_nil_of_mem (Forest.mem_leaves_of_mem_tokens last)

namespace OpenNode

/-- What has been read inside an open node. -/
def row (n : OpenNode) : Forest :=
  n.done.reverseOnto .nil

variable (n : OpenNode)

@[simp] theorem spans_row_push (t : Token) : (n.push t).row.spans = n.row.spans ++ [t.span] := by
  simp [row, push, Forest.reverseOnto, Forest.spans_reverseOnto, Forest.spans]

@[simp] theorem tokens_row_push (t : Token) : (n.push t).row.tokens = n.row.tokens ++ [t] := by
  simp [row, push, Forest.reverseOnto, Forest.tokens_reverseOnto, Forest.tokens]

@[simp] theorem leaves_row_push (t : Token) : (n.push t).row.leaves = n.row.leaves ++ [t] := by
  simp [row, push, Forest.reverseOnto, Forest.leaves_reverseOnto n.done (.token t .nil),
    Forest.leaves]

@[simp] theorem spans_row_pushNode (m : Node) :
    (n.pushNode m).row.spans = n.row.spans ++ [m.span] := by
  simp [row, pushNode, Forest.reverseOnto, Forest.spans_reverseOnto, Forest.spans]

@[simp] theorem tokens_row_pushNode (m : Node) : (n.pushNode m).row.tokens = n.row.tokens := by
  simp [row, pushNode, Forest.reverseOnto, Forest.tokens_reverseOnto, Forest.tokens]

@[simp] theorem leaves_row_pushNode (m : Node) :
    (n.pushNode m).row.leaves = n.row.leaves ++ m.inner.leaves := by
  simp [row, pushNode, Forest.reverseOnto,
    Forest.leaves_reverseOnto n.done (.node m.kind m.span m.inner .nil), Forest.leaves]

@[simp] theorem inner_close (rparen : Token) : (n.close rparen).inner = (n.push rparen).row := rfl

/-- Whether what has been read inside an open node is as it has to be, up to an offset. -/
structure Sound (stop : Nat) (n : OpenNode) : Prop where
  tiles : Span.Tile n.start stop n.row.spans
  tokens : Token.Begin n.kind n.start n.row.tokens
  inside : ∀ d ∈ n.row.descendants, d.Delimited

/-- Whether open nodes, innermost first, are as they have to be, each up to the start of the one
inside of it. -/
def AllSound : Nat → List OpenNode → Prop
  | _, [] => True
  | stop, n :: outer => n.Sound stop ∧ AllSound n.start outer

theorem sound_opening {kind : NodeKind} {lparen word : Token} (opens : lparen.kind = .lparen)
    (names : NodeKind.ofHead? word.text = some kind) (next : word.start = lparen.stop) :
    (opening kind lparen word).Sound word.stop where
  tiles := ⟨rfl, next, rfl⟩
  tokens := .mk opens rfl rfl names nofun
  inside := nofun

variable {n : OpenNode} {stop : Nat}

theorem Sound.push (h : n.Sound stop) {t : Token} (next : t.start = stop) (item : t.kind.isItem) :
    (n.push t).Sound t.stop where
  tiles := by
    rw [spans_row_push, Span.tile_append]
    exact ⟨stop, h.tiles, next, rfl⟩
  tokens := by
    rw [tokens_row_push]
    exact h.tokens.push item
  inside := Forest.forall_descendants_reverseOnto.mpr
    ⟨(Forest.forall_descendants_reverseOnto.mp h.inside).1, nofun⟩

theorem Sound.delimited_close (h : n.Sound stop) {rparen : Token} (next : rparen.start = stop)
    (closes : rparen.kind = .rparen) : ∀ d ∈ (n.close rparen).descendants, d.Delimited := by
  have whole : (n.close rparen).Delimited := by
    constructor
    case tiles =>
      rw [inner_close, spans_row_push, Span.tile_append]
      exact ⟨stop, h.tiles, next, rfl⟩
    case tokens => exact ⟨_, rparen, tokens_row_push n rparen, h.tokens, closes, rfl⟩
  have inside : ∀ d ∈ (n.push rparen).row.descendants, d.Delimited :=
    Forest.forall_descendants_reverseOnto.mpr
      ⟨(Forest.forall_descendants_reverseOnto.mp h.inside).1, nofun⟩
  exact List.forall_mem_cons.mpr ⟨whole, List.forall_mem_append.mpr ⟨inside, nofun⟩⟩

theorem Sound.pushNode (h : n.Sound stop) {m : Node} (next : m.span.start = stop)
    (delimited : ∀ d ∈ m.descendants, d.Delimited) : (n.pushNode m).Sound m.span.stop where
  tiles := by
    rw [spans_row_pushNode, Span.tile_append]
    exact ⟨stop, h.tiles, next, rfl⟩
  tokens := by
    rw [tokens_row_pushNode]
    exact h.tokens
  inside := by
    have done := (Forest.forall_descendants_reverseOnto.mp h.inside).1
    refine Forest.forall_descendants_reverseOnto.mpr ⟨?_, nofun⟩
    refine List.forall_mem_cons.mpr ⟨?_, List.forall_mem_append.mpr ⟨?_, done⟩⟩
    · exact delimited m m.mem_descendants_self
    · exact fun d hd => delimited d (m.descendants_inner hd)

/-- All that has been read inside of open nodes. -/
def allLeaves : List OpenNode → List Token
  | [] => []
  | n :: outer => allLeaves outer ++ n.row.leaves

end OpenNode

/-- Of tokens that tile a text, each node that is read stands in its parentheses. -/
theorem delimited_of_readNode {start stop : Nat} {stack : List OpenNode}
    {tokens rest : List Token} {node : Node} (hstack : OpenNode.AllSound start stack)
    (tiles : Span.Tile start stop (tokens.map Token.span)) (lexed : ∀ t ∈ tokens, t.kind ≠ .head)
    (h : readNode stack tokens = .ok (node, rest)) : ∀ d ∈ node.descendants, d.Delimited := by
  fun_induction readNode stack tokens generalizing start with
  -- an opening parenthesis and its head word
  | case4 stack lparen opens word rest _ kind head ih =>
    obtain ⟨rfl, next, behind⟩ := tiles
    have later : ∀ t ∈ rest, t.kind ≠ .head := fun t ht => lexed t (by simp [ht])
    exact ih ⟨OpenNode.sound_opening opens head next, hstack⟩ behind later h
  -- the parenthesis that closes the whole node
  | case8 rparen rest closes n =>
    cases h
    exact hstack.1.delimited_close tiles.1 closes
  -- a parenthesis that closes a node inside another
  | case9 rparen rest closes n parent outer ih =>
    obtain ⟨here, above, outside⟩ := hstack
    have closed := here.delimited_close tiles.1 closes
    have later : ∀ t ∈ rest, t.kind ≠ .head := fun t ht => lexed t (by simp [ht])
    exact ih ⟨above.pushNode rfl closed, outside⟩ tiles.2 later h
  -- any other token goes to the innermost open node
  | case12 t rest n outer opens closes known ih =>
    have item := Token.isItem_of_ne opens closes known (lexed t (by simp))
    have later : ∀ t ∈ rest, t.kind ≠ .head := fun t ht => lexed t (by simp [ht])
    exact ih ⟨hstack.1.push tiles.1 item, hstack.2⟩ tiles.2 later h
  | _ => cases h

/-- The reader takes the tokens that it puts into the node, and does not look behind them. -/
theorem exists_own_of_readNode {stack : List OpenNode} {tokens rest : List Token} {node : Node}
    (h : readNode stack tokens = .ok (node, rest)) :
    ∃ own, tokens = own ++ rest ∧
      node.inner.leaves.map Token.piece =
        (OpenNode.allLeaves stack).map Token.piece ++ own.map Token.piece ∧
      ∀ rest', readNode stack (own ++ rest') = .ok (node, rest') := by
  fun_induction readNode stack tokens with
  | case4 stack lparen opens word tokens names kind head ih =>
    obtain ⟨own, rfl, leaves, again⟩ := ih h
    refine ⟨lparen :: word :: own, rfl, ?_, fun rest' => ?_⟩
    · rw [leaves]
      simp [OpenNode.allLeaves, OpenNode.opening, OpenNode.row, Forest.reverseOnto, Forest.leaves,
        Token.piece]
    · rw [List.cons_append, List.cons_append, readNode_open _ lparen word _ opens names head]
      exact again rest'
  | case8 rparen tokens closes n =>
    cases h
    refine ⟨[rparen], rfl, ?_, fun rest' => ?_⟩
    · simp [OpenNode.allLeaves]
    · exact readNode_closeLast n rparen rest' closes
  | case9 rparen tokens closes n parent outer ih =>
    obtain ⟨own, rfl, leaves, again⟩ := ih h
    refine ⟨rparen :: own, rfl, ?_, fun rest' => ?_⟩
    · rw [leaves]
      simp [OpenNode.allLeaves]
    · rw [List.cons_append, readNode_closeInner _ _ _ rparen _ closes]
      exact again rest'
  | case12 t tokens n outer opens closes known ih =>
    obtain ⟨own, rfl, leaves, again⟩ := ih h
    refine ⟨t :: own, rfl, ?_, fun rest' => ?_⟩
    · rw [leaves]
      simp [OpenNode.allLeaves]
    · rw [List.cons_append, readNode_push _ _ t _ opens closes known]
      exact again rest'
  | _ => cases h

end RecognizerModel
