import RecognizerModel.Model.ChoiceKind
import RecognizerModel.Syntax.Content

/-!
What the nodes of a grammar mean: rules, blocks, alternatives and their elements. A part that the
syntax lacks is `none` here and becomes an error only where something has to be built from it.
Nodes that have no place where they stand are passed over, except in an alternative, which keeps
them as strangers.
-/
namespace RecognizerModel

structure RuleRef where
  span : Span
  name : Option String
  args : Option String
  /-- Whether it is marked as the root of the tree under construction or as left out of it. -/
  marked : Bool
deriving DecidableEq, Repr, Inhabited

structure TokenRef where
  span : Span
  name : Option String
  arg : Option String
  marked : Bool
deriving DecidableEq, Repr, Inhabited

structure Literal where
  span : Span
  text : Option String
deriving DecidableEq, Repr, Inhabited

/-- What an alternative matches by name or by its text. -/
inductive Reference where
  | rule (r : RuleRef)
  | token (t : TokenRef)
  | literal (l : Literal)
deriving DecidableEq, Repr, Inhabited

/-- A node around code. -/
structure CodeNode where
  span : Span
  code : Option String
deriving DecidableEq, Repr, Inhabited

/-- The label of `x=ID` or, if it is a list label, of `xs+=ID`. -/
structure Label where
  isList : Bool
  span : Span
  name : Option String
deriving DecidableEq, Repr, Inhabited

inductive RewriteElement where
  | reference (r : Reference)
  /-- The first element is the root and the others are its children. -/
  | tree (span : Span) (elements : List RewriteElement)
  /-- `referenced` are the names of the tokens and rules anywhere below. -/
  | optional (span : Span) (referenced : List String) (elements : List RewriteElement)
  | closure (span : Span) (referenced : List String) (elements : List RewriteElement)
deriving Repr, Inhabited

structure Rewrite where
  span : Span
  elements : List RewriteElement
deriving Repr, Inhabited

mutual

inductive Element where
  | reference (r : Reference)
  | action (c : CodeNode)
  | forcedAction (c : CodeNode)
  | predicate (c : CodeNode)
  | epsilon (span : Span)
  | block (b : Block)
  | ebnf (kind : EbnfKind) (span : Span) (decision : Option Nat) (body : Option Block)
  | root (span : Span) (operand : Option Element)
  | bang (span : Span) (operand : Option Element)
  | labeled (label : Label) (operand : Option Element)

structure Block where
  span : Span
  decision : Option Nat
  alts : List Alt

structure Alt where
  span : Span
  elements : List Element
  rewrite : Option Rewrite
  /-- The nodes that are neither an element nor a rewrite. -/
  strangers : List Place
  /-- The names that actions and predicates anywhere below refer to. -/
  refs : List String

end

structure NamedAction where
  name : Option String
  code : Option String
deriving DecidableEq, Repr, Inhabited

structure Rule where
  span : Span
  name : Option String
  args : Option String
  returns : Option String
  locals : Option String
  actions : List NamedAction
  block : Option Block

namespace NodeKind

/-- Whether a node of this kind is an element of an alternative. -/
def isElement : NodeKind → Bool
  | ruleRef | tokenRef | stringLiteral | action | forcedAction | predicate | epsilon | block
  | optional | closure | positiveClosure | root | bang | assign | plusAssign => true
  | _ => false

end NodeKind

namespace Node

/-- The names referred to by the actions and predicates at or below a node, each once. -/
def attributeRefs (n : Node) : List String :=
  let names := n.descendants.flatMap fun d =>
    match d.kind with
    | .action | .forcedAction | .predicate => dollarRefs ((d.inner.code?.getD "").toList)
    | _ => []
  names.eraseDups

/-- The names of the token and rule references at or below a node, each once. -/
def referencedNames (n : Node) : List String :=
  let names := n.descendants.filterMap fun d =>
    match d.kind with
    | .tokenRef | .ruleRef => d.inner.firstText? .word
    | _ => none
  names.eraseDups

/-- The reference that a node is, under its mark. -/
def reference? (marked : Bool) (n : Node) : Option Reference :=
  match n.kind with
  | .ruleRef => some (.rule ⟨n.span, n.inner.firstText? .word, n.inner.argText?, marked⟩)
  | .tokenRef => some (.token ⟨n.span, n.inner.firstText? .word, n.inner.argText?, marked⟩)
  | .stringLiteral => some (.literal ⟨n.span, n.inner.firstText? .str⟩)
  | _ => none

/-- The label that a node puts on its operand. -/
def label? (n : Node) : Option Label :=
  match n.kind with
  | .assign => some ⟨false, n.span, n.inner.firstText? .word⟩
  | .plusAssign => some ⟨true, n.span, n.inner.firstText? .word⟩
  | _ => none

def ebnfKind? (n : Node) : Option EbnfKind :=
  match n.kind with
  | .optional => some .optional
  | .closure => some .closure
  | .positiveClosure => some .positiveClosure
  | _ => none

end Node

/-- The rewrite elements of a row. -/
def RewriteElement.ofForest : Forest → List RewriteElement
  | .nil => []
  | .token _ rest => ofForest rest
  | .node kind span inner rest =>
    let n : Node := ⟨kind, span, inner⟩
    match kind with
    | .rewriteTree => .tree span (ofForest inner) :: ofForest rest
    | .rewriteOptional => .optional span n.referencedNames (ofForest inner) :: ofForest rest
    | .rewriteClosure => .closure span n.referencedNames (ofForest inner) :: ofForest rest
    | _ =>
      match n.reference? false with
      | some r => .reference r :: ofForest rest
      | none => ofForest rest

def Rewrite.ofNode (n : Node) : Rewrite :=
  ⟨n.span, RewriteElement.ofForest n.inner⟩

mutual

/-- The elements of a row that stands under the given mark. -/
def Element.ofForest (marked : Bool) : Forest → List Element
  | .nil => []
  | .token _ rest => Element.ofForest marked rest
  | .node kind span inner rest =>
    let n : Node := ⟨kind, span, inner⟩
    let others := Element.ofForest marked rest
    match kind with
    | .action => .action ⟨span, inner.code?⟩ :: others
    | .forcedAction => .forcedAction ⟨span, inner.code?⟩ :: others
    | .predicate => .predicate ⟨span, inner.code?⟩ :: others
    | .epsilon => .epsilon span :: others
    | .block => .block ⟨span, inner.decision?, Alt.ofForest inner⟩ :: others
    | .root => .root span (Element.ofForest true inner).head? :: others
    | .bang => .bang span (Element.ofForest true inner).head? :: others
    | _ =>
      match n.reference? marked, n.label?, n.ebnfKind? with
      | some r, _, _ => .reference r :: others
      | _, some label, _ => .labeled label (Element.ofForest marked inner).head? :: others
      | _, _, some op => .ebnf op span inner.decision? (Block.ofForest inner).head? :: others
      | none, none, none => others

/-- The blocks of a row. -/
def Block.ofForest : Forest → List Block
  | .nil => []
  | .token _ rest => Block.ofForest rest
  | .node kind span inner rest =>
    let others := Block.ofForest rest
    match kind with
    | .block => ⟨span, inner.decision?, Alt.ofForest inner⟩ :: others
    | _ => others

/-- The alternatives of a row. -/
def Alt.ofForest : Forest → List Alt
  | .nil => []
  | .token _ rest => Alt.ofForest rest
  | .node kind span inner rest =>
    let others := Alt.ofForest rest
    match kind with
    | .alt =>
      { span
        elements := Element.ofForest false inner
        rewrite := (inner.firstNode? .rewrite).map Rewrite.ofNode
        strangers := (inner.nodes.filter fun n =>
          n.kind != .rewrite && !n.kind.isElement).map Node.place
        refs := (Node.mk .alt span inner).attributeRefs } :: others
    | _ => others

end

namespace Node

/-- The element that a node is, under its mark. -/
def element? (marked : Bool) (n : Node) : Option Element :=
  (Element.ofForest marked (.ofNode n)).head?

def block? (n : Node) : Option Block :=
  (Block.ofForest (.ofNode n)).head?

def alt? (n : Node) : Option Alt :=
  (Alt.ofForest (.ofNode n)).head?

def namedAction? (n : Node) : Option NamedAction :=
  match n.kind with
  | .namedAction => some ⟨n.inner.firstText? .word, n.inner.code?⟩
  | _ => none

end Node

/-- The first action of a name. -/
def NamedAction.find? (name : String) (actions : List NamedAction) : Option NamedAction :=
  List.find? (·.name == some name) actions

namespace Rule

/-- What a rule node declares. -/
def ofNode (n : Node) : Rule where
  span := n.span
  name := n.inner.firstText? .word
  args := (n.inner.firstNode? .argAction).bind (·.inner.argText?)
  returns := (n.inner.firstNode? .returns).bind (·.inner.argText?)
  locals := (n.inner.firstNode? .locals).bind (·.inner.argText?)
  actions := n.inner.nodes.filterMap Node.namedAction?
  block := (Block.ofForest n.inner).head?

def place (rule : Rule) : Place :=
  ⟨.node .rule, rule.span⟩

/-- The code of the rule's first action of a name. -/
def actionCode? (rule : Rule) (name : String) : Option String :=
  (NamedAction.find? name rule.actions).bind NamedAction.code

end Rule

def Node.rule? (n : Node) : Option Rule :=
  if n.kind = .rule then some (.ofNode n) else none

namespace Reference

def place : Reference → Place
  | rule r => ⟨.node .ruleRef, r.span⟩
  | token t => ⟨.node .tokenRef, t.span⟩
  | literal l => ⟨.node .stringLiteral, l.span⟩

end Reference

def Label.place (label : Label) : Place :=
  ⟨.node (if label.isList then .plusAssign else .assign), label.span⟩

def EbnfKind.nodeKind : EbnfKind → NodeKind
  | optional => .optional
  | closure => .closure
  | positiveClosure => .positiveClosure

def Block.place (b : Block) : Place :=
  ⟨.node .block, b.span⟩

def Alt.place (alt : Alt) : Place :=
  ⟨.node .alt, alt.span⟩

def Element.place : Element → Place
  | .reference r => r.place
  | .action c => ⟨.node .action, c.span⟩
  | .forcedAction c => ⟨.node .forcedAction, c.span⟩
  | .predicate c => ⟨.node .predicate, c.span⟩
  | .epsilon span => ⟨.node .epsilon, span⟩
  | .block b => b.place
  | .ebnf kind span _ _ => ⟨.node kind.nodeKind, span⟩
  | .root span _ => ⟨.node .root, span⟩
  | .bang span _ => ⟨.node .bang, span⟩
  | .labeled label _ => label.place

end RecognizerModel
