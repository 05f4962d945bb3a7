import RecognizerModel.Syntax.Kind

/-! Tokens and the places they take in the source. Every offset counts bytes. -/
namespace RecognizerModel

/-- The bytes from `start` up to `stop`. -/
structure Span where
  start : Nat
  stop : Nat
deriving DecidableEq, Repr, Inhabited

/-- A node or token as an error points at it. -/
structure Place where
  kind : SyntaxKind
  span : Span
deriving DecidableEq, Repr, Inhabited

structure Token where
  kind : TokenKind
  text : String
  start : Nat
deriving DecidableEq, Repr, Inhabited

namespace Token

def stop (t : Token) : Nat :=
  t.start + t.text.utf8ByteSize

def span (t : Token) : Span :=
  ⟨t.start, t.stop⟩

def isTrivia (t : Token) : Bool :=
  t.kind == .whitespace

end Token

end RecognizerModel
