import RecognizerModel.Proofs.Relocation

/-! Syntax without its layout: the blanks are gone and nothing has a place. What is made of such
syntax is what was made before, but for the spans. -/
namespace RecognizerModel

/-- The span of everything where layout does not count. -/
def Span.nowhere : Span :=
  ⟨0, 0⟩

def Span.forgotten (_ : Span) : Span :=
  nowhere

def Token.stripped (t : Token) : Token :=
  { t with start := 0 }

def Forest.stripped : Forest → Forest
  | nil => nil
  | token t rest => if t.isTrivia then rest.stripped else token t.stripped rest.stripped
  | node kind _ inner rest => node kind .nowhere inner.stripped rest.stripped

def Node.stripped (n : Node) : Node :=
  ⟨n.kind, .nowhere, n.inner.stripped⟩

@[simp] theorem Token.kind_stripped (t : Token) : t.stripped.kind = t.kind := rfl

@[simp] theorem Token.text_stripped (t : Token) : t.stripped.text = t.text := rfl

@[simp] theorem Token.decision?_stripped (t : Token) : t.stripped.decision? = t.decision? := rfl

@[simp] theorem Token.code?_stripped (t : Token) : t.stripped.code? = t.code? := rfl

@[simp] theorem Token.argText?_stripped (t : Token) : t.stripped.argText? = t.argText? := rfl

@[simp] theorem Node.kind_stripped (n : Node) : n.stripped.kind = n.kind := rfl

@[simp] theorem Node.span_stripped (n : Node) : n.stripped.span = .nowhere := rfl

@[simp] theorem Node.place_stripped (n : Node) : n.stripped.place = n.place.moved .forgotten := rfl

@[simp] theorem Node.inner_stripped (n : Node) : n.stripped.inner = n.inner.stripped := rfl

namespace Forest

theorem stripped_token_of_trivia {t : Token} (rest : Forest) (h : t.kind = .whitespace) :
    (token t rest).stripped = rest.stripped := by
  simp [stripped, Token.isTrivia, h]

theorem stripped_token {t : Token} (rest : Forest) (h : t.kind ≠ .whitespace) :
    (token t rest).stripped = token t.stripped rest.stripped := by
  simp [stripped, Token.isTrivia, h]

theorem stripped_reverseOnto (f after : Forest) :
    (f.reverseOnto after).stripped = f.stripped.reverseOnto after.stripped := by
  induction f generalizing after with
  | nil => rfl
  | token t rest ih =>
      by_cases h : t.kind = .whitespace
      · rw [reverseOnto, ih, stripped_token_of_trivia _ h, stripped_token_of_trivia _ h]
      · rw [reverseOnto, ih, stripped_token _ h, stripped_token _ h, reverseOnto]
  | node kind span inner rest _ ih => rw [reverseOnto, ih, stripped, stripped, reverseOnto]

@[simp] theorem nodes_stripped (f : Forest) : f.stripped.nodes = f.nodes.map Node.stripped := by
  induction f with
  | nil => rfl
  | token t rest ih => by_cases h : t.isTrivia <;> simp [stripped, nodes, h, ih]
  | node kind span inner rest _ ih => simp [stripped, nodes, ih, Node.stripped]

@[simp] theorem descendants_stripped (f : Forest) :
    f.stripped.descendants = f.descendants.map Node.stripped := by
  induction f with
  | nil => rfl
  | token t rest ih => by_cases h : t.isTrivia <;> simp [stripped, descendants, h, ih]
  | node kind span inner rest ihInner ih =>
      simp [stripped, descendants, ih, ihInner, Node.stripped]

theorem first?_stripped (f : Forest) {kind : TokenKind} (h : kind ≠ .whitespace) :
    f.stripped.first? kind = (f.first? kind).map Token.stripped := by
  unfold first?
  induction f with
  | nil => rfl
  | token t rest ih =>
      by_cases blank : t.kind = .whitespace
      · rw [stripped_token_of_trivia _ blank, ih, tokens, List.find?_cons_of_neg]
        simpa [blank] using Ne.symm h
      · rw [stripped_token _ blank, tokens, tokens, List.find?_cons, List.find?_cons, ih,
          Token.kind_stripped]
        cases t.kind == kind <;> rfl
  | node kind span inner rest _ ih => exact ih

theorem firstText?_stripped (f : Forest) {kind : TokenKind} (h : kind ≠ .whitespace) :
    f.stripped.firstText? kind = f.firstText? kind := by
  simp [firstText?, first?_stripped f h, Function.comp_def]

@[simp] theorem decision?_stripped (f : Forest) : f.stripped.decision? = f.decision? := by
  simp [decision?, first?_stripped, Option.bind_map, Function.comp_def]

@[simp] theorem code?_stripped (f : Forest) : f.stripped.code? = f.code? := by
  simp [code?, first?_stripped, Option.bind_map, Function.comp_def]

@[simp] theorem argText?_stripped (f : Forest) : f.stripped.argText? = f.argText? := by
  simp [argText?, first?_stripped, Option.bind_map, Function.comp_def]

@[simp] theorem firstNode?_stripped (f : Forest) (kind : NodeKind) :
    f.stripped.firstNode? kind = (f.firstNode? kind).map Node.stripped := by
  simp [firstNode?, List.find?_map, Function.comp_def]

end Forest

namespace Node

@[simp] theorem descendants_of_stripped (n : Node) :
    n.stripped.descendants = n.descendants.map stripped := by
  simp [descendants, Forest.ofNode, Forest.descendants, stripped]

theorem attributeRefs_stripped (n : Node) : n.stripped.attributeRefs = n.attributeRefs := by
  simp [attributeRefs, List.flatMap_map]

theorem referencedNames_stripped (n : Node) :
    n.stripped.referencedNames = n.referencedNames := by
  simp [referencedNames, List.filterMap_map, Function.comp_def, Forest.firstText?_stripped]

@[simp] theorem namedAction?_stripped (n : Node) : n.stripped.namedAction? = n.namedAction? := by
  simp [namedAction?, Forest.firstText?_stripped]

end Node

theorem RewriteElement.ofForest_stripped (f : Forest) :
    ofForest f.stripped = movedAll .forgotten (ofForest f) := by
  induction f with
  | nil => rfl
  | token t rest ih => by_cases h : t.isTrivia <;> simp [Forest.stripped, ofForest, h, ih]
  | node kind span inner rest inside others =>
      have names : Node.referencedNames ⟨kind, .nowhere, inner.stripped⟩ =
          Node.referencedNames ⟨kind, span, inner⟩ :=
        Node.referencedNames_stripped ⟨kind, span, inner⟩
      cases kind with
      | rewriteTree | rewriteOptional | rewriteClosure =>
          simp [Forest.stripped, ofForest, movedAll, moved, names, inside, others, Span.forgotten]
      | ruleRef | tokenRef | stringLiteral =>
          simp [Forest.stripped, ofForest, movedAll, moved, others, Node.reference?,
            Reference.moved, Forest.firstText?_stripped, Span.forgotten]
      | _ => exact others

theorem Rewrite.ofNode_stripped (n : Node) :
    ofNode n.stripped = (ofNode n).moved .forgotten := by
  simp [ofNode, moved, RewriteElement.ofForest_stripped, Node.stripped, Span.forgotten]

section

variable (move : Span → Span)

theorem Element.head?_movedAll (elements : List Element) :
    (movedAll move elements).head? = elements.head?.map (Element.moved move) := by
  cases elements <;> rfl

theorem Element.moved_ebnf (kind : EbnfKind) (span : Span) (decision : Option Nat)
    (body : Option Block) : (ebnf kind span decision body).moved move =
      ebnf kind (move span) decision (body.map (Block.moved move)) := by
  cases body <;> rfl

theorem Element.moved_root (span : Span) (operand : Option Element) :
    (root span operand).moved move = root (move span) (operand.map (Element.moved move)) := by
  cases operand <;> rfl

theorem Element.moved_bang (span : Span) (operand : Option Element) :
    (bang span operand).moved move = bang (move span) (operand.map (Element.moved move)) := by
  cases operand <;> rfl

theorem Element.moved_labeled (label : Label) (operand : Option Element) :
    (labeled label operand).moved move =
      labeled (label.moved move) (operand.map (Element.moved move)) := by
  cases operand <;> rfl

end

/-- Whether what is made of a row without layout is what is made of the row, without layout. -/
structure Forest.StripsAlike (f : Forest) : Prop where
  elements (marked : Bool) : Element.ofForest marked f.stripped =
    Element.movedAll .forgotten (Element.ofForest marked f)
  blocks : Block.ofForest f.stripped = (Block.ofForest f).map (Block.moved .forgotten)
  alts : Alt.ofForest f.stripped = Alt.movedAll .forgotten (Alt.ofForest f)

namespace Forest.StripsAlike

variable {kind : NodeKind} {span : Span} {inner rest : Forest}

theorem node_elements (inside : inner.StripsAlike) (others : rest.StripsAlike) (marked : Bool) :
    Element.ofForest marked (Forest.node kind span inner rest).stripped =
      Element.movedAll .forgotten (Element.ofForest marked (.node kind span inner rest)) := by
  have below (marked : Bool) : (Element.ofForest marked inner.stripped).head? =
      (Element.ofForest marked inner).head?.map (Element.moved .forgotten) := by
    rw [inside.elements, Element.head?_movedAll]
  cases kind with
  | ruleRef | tokenRef | stringLiteral =>
      simp [stripped, Element.ofForest, Element.movedAll, Element.moved, others.elements,
        Node.reference?, Reference.moved, firstText?_stripped, Span.forgotten]
  | action | forcedAction | predicate | epsilon =>
      simp [stripped, Element.ofForest, Element.movedAll, Element.moved, others.elements,
        CodeNode.moved, Span.forgotten]
  | block =>
      simp [stripped, Element.ofForest, Element.movedAll, Element.moved, Block.moved,
        others.elements, inside.alts, Span.forgotten]
  | optional | closure | positiveClosure =>
      simp [stripped, Element.ofForest, Element.movedAll, Element.moved_ebnf, others.elements,
        inside.blocks, Node.reference?, Node.label?, Node.ebnfKind?, Span.forgotten]
  | root =>
      simp [stripped, Element.ofForest, Element.movedAll, Element.moved_root, others.elements,
        below, Span.forgotten]
  | bang =>
      simp [stripped, Element.ofForest, Element.movedAll, Element.moved_bang, others.elements,
        below, Span.forgotten]
  | assign | plusAssign =>
      simp [stripped, Element.ofForest, Element.movedAll, Element.moved_labeled, others.elements,
        below, Node.reference?, Node.label?, Label.moved, firstText?_stripped, Span.forgotten]
  | _ => exact others.elements marked

theorem node_blocks (inside : inner.StripsAlike) (others : rest.StripsAlike) :
    Block.ofForest (Forest.node kind span inner rest).stripped =
      (Block.ofForest (.node kind span inner rest)).map (Block.moved .forgotten) := by
  cases kind with
  | block =>
      simp [stripped, Block.ofForest, Block.moved, others.blocks, inside.alts, Span.forgotten]
  | _ => exact others.blocks

theorem node_alts (inside : inner.StripsAlike) (others : rest.StripsAlike) :
    Alt.ofForest (Forest.node kind span inner rest).stripped =
      Alt.movedAll .forgotten (Alt.ofForest (.node kind span inner rest)) := by
  cases kind with
  | alt =>
      have refs : Node.attributeRefs ⟨.alt, .nowhere, inner.stripped⟩ =
          Node.attributeRefs ⟨.alt, span, inner⟩ :=
        Node.attributeRefs_stripped ⟨.alt, span, inner⟩
      simp [stripped, Alt.ofForest, Alt.movedAll, Alt.moved, others.alts, inside.elements, refs,
        Rewrite.ofNode_stripped, Function.comp_def, Span.forgotten, List.filter_map]
  | _ => exact others.alts

end Forest.StripsAlike

theorem Forest.stripsAlike (f : Forest) : f.StripsAlike := by
  induction f with
  | nil => exact ⟨fun _ => rfl, rfl, rfl⟩
  | token t rest ih =>
      by_cases blank : t.kind = .whitespace
      · have same := stripped_token_of_trivia rest blank
        refine ⟨fun marked => ?_, ?_, ?_⟩ <;> rw [same]
        · exact ih.elements marked
        · exact ih.blocks
        · exact ih.alts
      · have same := stripped_token rest blank
        refine ⟨fun marked => ?_, ?_, ?_⟩ <;> rw [same]
        · exact ih.elements marked
        · exact ih.blocks
        · exact ih.alts
  | node kind span inner rest inside others =>
      exact ⟨inside.node_elements others, inside.node_blocks others, inside.node_alts others⟩

theorem Rule.ofNode_stripped (n : Node) : ofNode n.stripped = (ofNode n).moved .forgotten := by
  simp [ofNode, moved, n.inner.stripsAlike.blocks, Forest.firstText?_stripped, List.filterMap_map,
    Option.bind_map, Function.comp_def, Span.forgotten]

theorem Node.rule?_stripped (n : Node) :
    n.stripped.rule? = n.rule?.map (Rule.moved .forgotten) := by
  by_cases h : n.kind = .rule <;> simp [rule?, h, Rule.ofNode_stripped]

namespace Grammar

theorem rulesOf_stripped (root : Node) :
    rulesOf root.stripped = (rulesOf root).map (Rule.moved .forgotten) := by
  simp only [rulesOf, Node.inner_stripped, Forest.nodes_stripped, List.filterMap_map,
    List.map_filterMap, Function.comp_def, Node.rule?_stripped]

/-- The names of tokens do not hang on the layout. -/
theorem definedNames_stripped (root : Node) : definedNames root.stripped = definedNames root := by
  simp [definedNames, rulesOf_stripped, List.filterMap_map, Function.comp_def, Rule.moved,
    Forest.firstText?_stripped]

/-- A grammar without the layout of its text. -/
def stripped (g : Grammar) : Grammar :=
  { g with source := "", root := g.root.stripped }

theorem rules_stripped (g : Grammar) : g.stripped.rules = g.rules.map (Rule.moved .forgotten) :=
  rulesOf_stripped g.root

theorem actions_stripped (g : Grammar) : g.stripped.actions = g.actions := by
  simp only [actions, stripped, Node.inner_stripped, Forest.nodes_stripped, List.filterMap_map,
    Function.comp_def, Node.namedAction?_stripped]

end Grammar

end RecognizerModel
