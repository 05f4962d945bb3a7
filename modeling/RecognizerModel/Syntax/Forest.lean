import RecognizerModel.Syntax.Token

/-!
Lossless syntax trees. A forest is a row of tokens and nodes, and a node stands over a forest of its
own, so one induction covers trees and their children alike. `leaves` is the view that loses only
the shape: for a forest that was read from a source it is the tokens of the source in order.
-/
namespace RecognizerModel

inductive Forest where
  | nil
  | token (token : Token) (rest : Forest)
  | node (kind : NodeKind) (span : Span) (inner : Forest) (rest : Forest)
deriving DecidableEq, Repr, Inhabited

structure Node where
  kind : NodeKind
  span : Span
  inner : Forest
deriving DecidableEq, Repr, Inhabited

namespace Forest

def ofNode (n : Node) : Forest :=
  .node n.kind n.span n.inner .nil

/-- The row in reverse, followed by another; the nodes' own forests stay as they are. -/
def reverseOnto : Forest → Forest → Forest
  | nil, after => after
  | token t rest, after => reverseOnto rest (.token t after)
  | node kind span inner rest, after => reverseOnto rest (.node kind span inner after)

/-- The tokens standing directly in the row. -/
def tokens : Forest → List Token
  | nil => []
  | token t rest => t :: rest.tokens
  | node _ _ _ rest => rest.tokens

/-- The nodes standing directly in the row. -/
def nodes : Forest → List Node
  | nil => []
  | token _ rest => rest.nodes
  | node kind span inner rest => ⟨kind, span, inner⟩ :: rest.nodes

/-- All tokens in the order of the source. -/
def leaves : Forest → List Token
  | nil => []
  | token t rest => t :: rest.leaves
  | node _ _ inner rest => inner.leaves ++ rest.leaves

/-- All nodes, each before the nodes inside it and together with its mark: whether it stands
under a tree mark, looking through labels. `mark` is the mark of the row itself. -/
def marked (mark : Bool) : Forest → List (Node × Bool)
  | nil => []
  | token _ rest => rest.marked mark
  | node kind span inner rest =>
    (⟨kind, span, inner⟩, mark) :: (inner.marked (kind.markBelow mark) ++ rest.marked mark)

/-- All nodes, each before the nodes inside it. -/
def descendants : Forest → List Node
  | nil => []
  | token _ rest => rest.descendants
  | node kind span inner rest => ⟨kind, span, inner⟩ :: (inner.descendants ++ rest.descendants)

def text (f : Forest) : String :=
  String.join (f.leaves.map Token.text)

/-- The first token of a kind that stands directly in the row. -/
def first? (f : Forest) (kind : TokenKind) : Option Token :=
  f.tokens.find? (·.kind == kind)

def firstText? (f : Forest) (kind : TokenKind) : Option String :=
  (f.first? kind).map Token.text

/-- The first node of a kind that stands directly in the row. -/
def firstNode? (f : Forest) (kind : NodeKind) : Option Node :=
  f.nodes.find? (·.kind == kind)

end Forest

namespace Node

def place (n : Node) : Place :=
  ⟨.node n.kind, n.span⟩

def descendants (n : Node) : List Node :=
  (Forest.ofNode n).descendants

def text (n : Node) : String :=
  n.inner.text

end Node

end RecognizerModel
