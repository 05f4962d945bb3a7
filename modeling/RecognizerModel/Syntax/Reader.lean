import RecognizerModel.Syntax.Error
import RecognizerModel.Syntax.Forest
import RecognizerModel.Syntax.Scan

/-!
Reading a syntax tree from tokens.

Only delimiters, head words and unreadable characters are checked; what a node has to hold is left
to those who use it, so that one bad rule does not hide the others. The tokens are taken from left
to right and the first offence is the one reported.
-/
namespace RecognizerModel

/-- A node whose `)` has not been reached. -/
structure OpenNode where
  kind : NodeKind
  /-- Where its `(` stands. -/
  start : Nat
  /-- What has been read inside it, last first. -/
  done : Forest
deriving DecidableEq, Repr

namespace OpenNode

def push (n : OpenNode) (t : Token) : OpenNode :=
  { n with done := .token t n.done }

def pushNode (n : OpenNode) (inner : Node) : OpenNode :=
  { n with done := .node inner.kind inner.span inner.inner n.done }

/-- A node of which the `(` and the head word have been read. -/
def opening (kind : NodeKind) (lparen word : Token) : OpenNode :=
  ⟨kind, lparen.start, .token { word with kind := .head } (.token lparen .nil)⟩

def close (n : OpenNode) (rparen : Token) : Node :=
  ⟨n.kind, ⟨n.start, rparen.stop⟩, (n.push rparen).done.reverseOnto .nil⟩

end OpenNode

/-- Reads on inside the open nodes, innermost first, until the outermost is closed. Answers that
node and the tokens after it. Without an open node a node has to come first. -/
def readNode : List OpenNode → List Token → Except SyntaxError (Node × List Token)
  | [], [] => .error .empty
  | n :: _, [] => .error (.unclosed n.start)
  | stack, t :: rest =>
    match t.kind with
    | .lparen =>
      match rest with
      | [] => .error (.missingHead t.start)
      | word :: rest =>
        if word.kind = .word then
          match NodeKind.ofHead? word.text with
          | some kind => readNode (.opening kind t word :: stack) rest
          | none => .error (.unknownHead word.text word.start)
        else .error (.missingHead t.start)
    | .rparen =>
      match stack with
      | [] => .error (.unmatched t.start)
      | [n] => .ok (n.close t, rest)
      | n :: parent :: outer => readNode (parent.pushNode (n.close t) :: outer) rest
    | .error => .error (.unexpectedCharacter t.start)
    | _ =>
      match stack with
      | [] => .error (.notAGrammar t.start)
      | n :: outer => readNode (n.push t :: outer) rest

/-- Reads a whole grammar. Nothing but blanks may follow it, and they are not in the tree. -/
def read (source : String) : Except SyntaxError Node := do
  let (node, rest) ← readNode [] (tokenize source)
  unless node.kind.isGrammar do throw (.notAGrammar 0)
  match rest.find? (!·.isTrivia) with
  | some extra => throw (.trailingInput extra.start)
  | none => return node

end RecognizerModel
