import RecognizerModel.Proofs.ReadTokens

/-! The spans of a loaded grammar. The tokens of a source stand one behind the other, so what is
read between the parentheses of a node lies inside of its span, and so do all places in what is made
of the node. -/
namespace RecognizerModel

/-- Whether a span lies inside another. -/
structure Span.Within (inner outer : Span) : Prop where
  start : outer.start ≤ inner.start
  stop : inner.stop ≤ outer.stop

theorem Span.Within.refl (s : Span) : s.Within s :=
  ⟨Nat.le_refl _, Nat.le_refl _⟩

theorem Span.Within.trans {a b c : Span} (h : a.Within b) (h' : b.Within c) : a.Within c :=
  ⟨Nat.le_trans h'.start h.start, Nat.le_trans h.stop h'.stop⟩

namespace Forest

/-- Whether a row lies inside a span and the row below each node inside of the node. -/
def LiesIn : Span → Forest → Prop
  | _, nil => True
  | span, token t rest => t.span.Within span ∧ rest.LiesIn span
  | span, node _ own inner rest => own.Within span ∧ inner.LiesIn own ∧ rest.LiesIn span

theorem LiesIn.mono {f : Forest} {span outer : Span} (h : f.LiesIn span)
    (within : span.Within outer) : f.LiesIn outer := by
  induction f with
  | nil => trivial
  | token t rest ih => exact ⟨h.1.trans within, ih h.2⟩
  | node kind own inner rest _ ih => exact ⟨h.1.trans within, h.2.1, ih h.2.2⟩

theorem LiesIn.reverseOnto {f after : Forest} {span : Span} (h : f.LiesIn span)
    (hafter : after.LiesIn span) : (f.reverseOnto after).LiesIn span := by
  induction f generalizing after with
  | nil => exact hafter
  | token t rest ih => exact ih h.2 ⟨h.1, hafter⟩
  | node kind own inner rest _ ih => exact ih h.2.2 ⟨h.1, h.2.1, hafter⟩

theorem LiesIn.of_mem_descendants {f : Forest} {span : Span} (h : f.LiesIn span) :
    ∀ n ∈ f.descendants, n.span.Within span ∧ n.inner.LiesIn n.span := by
  induction f generalizing span with
  | nil => nofun
  | token t rest ih => exact ih h.2
  | node kind own inner rest ihInner ihRest =>
      obtain ⟨within, below, others⟩ := h
      refine List.forall_mem_cons.mpr ⟨⟨within, below⟩, List.forall_mem_append.mpr ⟨?_, ?_⟩⟩
      · exact fun n hn => (ihInner below n hn).imp_left (·.trans within)
      · exact ihRest others

end Forest

/-- Whether tokens stand one behind the other from an offset on. -/
def Token.InOrder : Nat → List Token → Prop
  | _, [] => True
  | start, t :: rest => start ≤ t.start ∧ InOrder t.stop rest

theorem Lexeme.inOrder_place (start : Nat) (lexemes : List Lexeme) :
    Token.InOrder start (place start lexemes) := by
  induction lexemes generalizing start with
  | nil => trivial
  | cons lexeme rest ih => exact ⟨Nat.le_refl _, ih _⟩

theorem Token.start_le_stop (t : Token) : t.start ≤ t.stop :=
  Nat.le_add_right ..

namespace OpenNode

/-- Whether open nodes, innermost first, hold what stands behind their parentheses and up to an
offset, those outside up to the parenthesis of the next. -/
def UpTo : Nat → List OpenNode → Prop
  | _, [] => True
  | stop, n :: outer =>
    n.start ≤ stop ∧ n.done.LiesIn ⟨n.start, stop⟩ ∧ UpTo n.start outer

theorem UpTo.mono {stop stop' : Nat} {stack : List OpenNode} (h : UpTo stop stack)
    (le : stop ≤ stop') : UpTo stop' stack := by
  cases stack with
  | nil => trivial
  | cons n outer => exact ⟨Nat.le_trans h.1 le, h.2.1.mono ⟨Nat.le_refl _, le⟩, h.2.2⟩

theorem UpTo.push {stop : Nat} {n : OpenNode} {outer : List OpenNode} (h : UpTo stop (n :: outer))
    {t : Token} (behind : stop ≤ t.start) : UpTo t.stop (n.push t :: outer) := by
  obtain ⟨opened, done, above⟩ := h.mono (Nat.le_trans behind t.start_le_stop)
  exact ⟨opened, ⟨⟨Nat.le_trans h.1 behind, Nat.le_refl _⟩, done⟩, above⟩

theorem UpTo.opening {stop : Nat} {stack : List OpenNode} (h : UpTo stop stack) (kind : NodeKind)
    {lparen word : Token} (behind : stop ≤ lparen.start) (next : lparen.stop ≤ word.start) :
    UpTo word.stop (.opening kind lparen word :: stack) := by
  have opened : lparen.start ≤ word.start := Nat.le_trans lparen.start_le_stop next
  have closed : lparen.stop ≤ word.stop := Nat.le_trans next word.start_le_stop
  exact ⟨Nat.le_trans opened word.start_le_stop,
    ⟨⟨opened, Nat.le_refl _⟩, ⟨Nat.le_refl _, closed⟩, trivial⟩, h.mono behind⟩

/-- What a node holds when it is closed lies inside of it. -/
theorem UpTo.liesIn_close {stop : Nat} {n : OpenNode} {outer : List OpenNode}
    (h : UpTo stop (n :: outer)) {rparen : Token} (behind : stop ≤ rparen.start) :
    (n.close rparen).inner.LiesIn (n.close rparen).span :=
  (h.push behind).2.1.reverseOnto trivial

theorem UpTo.pushNode {stop : Nat} {n parent : OpenNode} {outer : List OpenNode}
    (h : UpTo stop (n :: parent :: outer)) {rparen : Token} (behind : stop ≤ rparen.start) :
    UpTo rparen.stop (parent.pushNode (n.close rparen) :: outer) := by
  have later := Nat.le_trans h.1 (Nat.le_trans behind rparen.start_le_stop)
  obtain ⟨opened, done, above⟩ := h.2.2.mono later
  exact ⟨opened, ⟨⟨h.2.2.1, Nat.le_refl _⟩, h.liesIn_close behind, done⟩, above⟩

end OpenNode

/-- The node that is read lies inside of its parentheses, at every depth. -/
theorem liesIn_of_readNode {pos : Nat} {stack : List OpenNode} {tokens rest : List Token}
    {node : Node} (hstack : OpenNode.UpTo pos stack) (htokens : Token.InOrder pos tokens)
    (h : readNode stack tokens = .ok (node, rest)) : node.inner.LiesIn node.span := by
  fun_induction readNode stack tokens generalizing pos with
  -- an opening parenthesis and its head word
  | case4 stack lparen _ word _ _ kind _ ih =>
      obtain ⟨behind, next, others⟩ := htokens
      exact ih (hstack.opening kind behind next) others h
  -- the parenthesis that closes the whole node
  | case8 rparen _ _ n =>
      cases h
      exact hstack.liesIn_close htokens.1
  -- a parenthesis that closes a node inside another
  | case9 rparen _ _ n parent outer ih => exact ih (hstack.pushNode htokens.1) htokens.2 h
  -- any other token goes to the innermost open node
  | case12 t _ n outer _ _ _ ih => exact ih (hstack.push htokens.1) htokens.2 h
  | _ => cases h

/-- In a loaded grammar the nodes inside of a node lie inside of its span. -/
theorem Grammar.Loaded.within_of_mem_descendants {g : Grammar} (loaded : g.Loaded) {n d : Node}
    (hn : n ∈ g.root.descendants) (hd : d ∈ n.descendants) : d.span.Within n.span := by
  obtain ⟨source, hread, _⟩ := loaded.exists_read
  obtain ⟨rest, hrun⟩ := readNode_of_read hread
  have none : OpenNode.UpTo 0 [] := trivial
  have root : (Forest.ofNode g.root).LiesIn g.root.span :=
    ⟨.refl _, liesIn_of_readNode none (Lexeme.inOrder_place 0 _) hrun, trivial⟩
  have here : (Forest.ofNode n).LiesIn n.span :=
    ⟨.refl _, (root.of_mem_descendants n hn).2, trivial⟩
  exact (here.of_mem_descendants d hd).1

mutual

/-- Whether the spans of a rewrite element and of all inside of it have a property. -/
def RewriteElement.AllSpans (P : Span → Prop) : RewriteElement → Prop
  | .reference r => P r.place.span
  | .tree span elements | .optional span _ elements | .closure span _ elements =>
    P span ∧ RewriteElement.AllSpansIn P elements

def RewriteElement.AllSpansIn (P : Span → Prop) : List RewriteElement → Prop
  | [] => True
  | element :: rest => element.AllSpans P ∧ RewriteElement.AllSpansIn P rest

end

mutual

/-- Whether the spans of an element and of all inside of it have a property. -/
def Element.AllSpans (P : Span → Prop) : Element → Prop
  | .block b => b.AllSpans P
  | .ebnf _ span _ (some b) => P span ∧ b.AllSpans P
  | .root span (some operand) | .bang span (some operand) => P span ∧ operand.AllSpans P
  | .labeled label (some operand) => P label.span ∧ operand.AllSpans P
  | element => P element.place.span

def Element.AllSpansIn (P : Span → Prop) : List Element → Prop
  | [] => True
  | element :: rest => element.AllSpans P ∧ Element.AllSpansIn P rest

def Block.AllSpans (P : Span → Prop) : Block → Prop
  | ⟨span, _, alts⟩ => P span ∧ Alt.AllSpansIn P alts

def Alt.AllSpansIn (P : Span → Prop) : List Alt → Prop
  | [] => True
  | alt :: rest => alt.AllSpans P ∧ Alt.AllSpansIn P rest

def Alt.AllSpans (P : Span → Prop) : Alt → Prop
  | ⟨span, elements, rewrite, strangers, _⟩ =>
    P span ∧ Element.AllSpansIn P elements ∧
      (∀ r, rewrite = some r → RewriteElement.AllSpansIn P r.elements) ∧
      ∀ stranger ∈ strangers, P stranger.span

end

theorem Element.AllSpans.here {P : Span → Prop} {element : Element} (h : element.AllSpans P) :
    P element.place.span := by
  match element with
  | .block ⟨_, _, _⟩ | .ebnf _ _ _ (some _) | .root _ (some _) | .bang _ (some _)
  | .labeled _ (some _) => exact h.1
  | .reference _ | .action _ | .forcedAction _ | .predicate _ | .epsilon _ | .ebnf _ _ _ none
  | .root _ none | .bang _ none | .labeled _ none => exact h

theorem Node.span_of_reference? {n : Node} {marked : Bool} {r : Reference}
    (h : n.reference? marked = some r) : r.place.span = n.span := by
  obtain ⟨kind, span, inner⟩ := n
  cases kind <;> cases h <;> rfl

theorem Node.span_of_label? {n : Node} {label : Label} (h : n.label? = some label) :
    label.span = n.span := by
  obtain ⟨kind, span, inner⟩ := n
  cases kind <;> cases h <;> rfl

/-- Whether the spans of all nodes have a property. -/
def SpansOf (P : Span → Prop) (nodes : List Node) : Prop :=
  ∀ n ∈ nodes, P n.span

theorem SpansOf.here {P : Span → Prop} {n : Node} (h : SpansOf P n.descendants) : P n.span :=
  h n n.mem_descendants_self

theorem SpansOf.of_mem_inner {P : Span → Prop} {n m : Node} (h : SpansOf P n.descendants)
    (hm : m ∈ n.inner.nodes) : SpansOf P m.descendants :=
  fun d hd => h d (n.descendants_of_mem_inner hm hd)

theorem SpansOf.of_made {P : Span → Prop} {n : Node} {p : Prop} (h : SpansOf P n.descendants)
    (made : ∃ m ∈ n.inner.nodes, SpansOf P m.descendants → p) : p := by
  obtain ⟨m, hm, made⟩ := made
  exact made (h.of_mem_inner hm)

theorem RewriteElement.allSpans_ofForest {P : Span → Prop} :
    ∀ f : Forest, SpansOf P f.descendants → AllSpansIn P (ofForest f)
  | .nil, _ => trivial
  | .token _ rest, h => allSpans_ofForest rest h
  | .node kind span inner rest, h => by
      obtain ⟨here, below⟩ := List.forall_mem_cons.mp h
      obtain ⟨hinner, hrest⟩ := List.forall_mem_append.mp below
      have inside := allSpans_ofForest inner hinner
      have others := allSpans_ofForest rest hrest
      cases kind with
      | rewriteTree | rewriteOptional | rewriteClosure => exact ⟨⟨here, inside⟩, others⟩
      | ruleRef | tokenRef | stringLiteral => exact ⟨here, others⟩
      | _ => exact others

theorem Element.allSpansIn_iff {P : Span → Prop} {elements : List Element} :
    AllSpansIn P elements ↔ ∀ e ∈ elements, e.AllSpans P := by
  induction elements with
  | nil => exact iff_of_true trivial nofun
  | cons e rest ih => rw [AllSpansIn, ih, List.forall_mem_cons]

theorem Alt.allSpansIn_iff {P : Span → Prop} {alts : List Alt} :
    AllSpansIn P alts ↔ ∀ a ∈ alts, a.AllSpans P := by
  induction alts with
  | nil => exact iff_of_true trivial nofun
  | cons a rest ih => rw [AllSpansIn, ih, List.forall_mem_cons]

/-- What holds of the spans of the nodes holds of the spans in what is made of them. -/
theorem hereditary_allSpans (P : Span → Prop) : Hereditary
    (fun n e => SpansOf P n.descendants → e.AllSpans P)
    (fun n b => SpansOf P n.descendants → b.AllSpans P)
    (fun n a => SpansOf P n.descendants → a.AllSpans P) where
  reference hr h := by
    have here := h.here
    rwa [← Node.span_of_reference? hr] at here
  action _ h := h.here
  forcedAction _ h := h.here
  predicate _ h := h.here
  epsilon h := h.here
  block b h := b h
  ebnf {_ _ body} _ made h := by
    cases body with
    | none => exact h.here
    | some b => exact ⟨h.here, h.of_made (made b rfl)⟩
  root {_ operand} made h := by
    cases operand with
    | none => exact h.here
    | some e => exact ⟨h.here, h.of_made (made e rfl)⟩
  bang {_ operand} made h := by
    cases operand with
    | none => exact h.here
    | some e => exact ⟨h.here, h.of_made (made e rfl)⟩
  labeled {_ label operand} hlabel made h := by
    have here : P label.span := by
      rw [Node.span_of_label? hlabel]
      exact h.here
    cases operand with
    | none => exact here
    | some e => exact ⟨here, h.of_made (made e rfl)⟩
  alts made h := ⟨h.here, Alt.allSpansIn_iff.mpr fun a ha => h.of_made (made a ha)⟩
  elements _ elements rewrite strangers h := by
    refine ⟨h.here, Element.allSpansIn_iff.mpr fun e he => ?_, fun r hr => ?_, fun s hs => ?_⟩
    · exact h.of_made (elements e he)
    · obtain ⟨m, hm, rfl⟩ := rewrite r hr
      exact RewriteElement.allSpans_ofForest m.inner fun d hd =>
        h.of_mem_inner hm d (m.descendants_inner hd)
    · obtain ⟨m, hm, rfl⟩ := strangers s hs
      exact (h.of_mem_inner hm).here

/-- All spans in the block of a rule lie inside of the rule, in a loaded grammar. -/
theorem Grammar.Loaded.allSpans_within {g : Grammar} (loaded : g.Loaded) {n : Node}
    (hn : n ∈ g.root.descendants) {block : Block} (hblock : (Rule.ofNode n).block = some block) :
    block.AllSpans (·.Within n.span) := by
  obtain ⟨m, hm, made⟩ := (hereditary_allSpans (·.Within n.span)).body n.inner block
    (List.mem_of_head? hblock)
  exact made fun d hd =>
    loaded.within_of_mem_descendants hn (Node.descendants_of_mem_inner hm hd)

end RecognizerModel
