/-! Kinds of tokens and nodes. A node kind is written as the head word after its `(`. -/
namespace RecognizerModel

inductive TokenKind where
  | lparen
  | rparen
  | whitespace
  /-- The word directly after a node's `(`. -/
  | head
  | word
  /-- A quoted literal such as `'+'`. -/
  | str
  /-- Code in balanced braces, with a `?` at its end if it is a predicate. -/
  | code
  /-- Argument text in square brackets. -/
  | argText
  /-- A decision number such as `@3`. -/
  | decision
  /-- Characters that no token matches. -/
  | error
deriving DecidableEq, Repr, Inhabited

inductive NodeKind where
  | parserGrammar
  | lexerGrammar
  | combinedGrammar
  | namedAction
  | rule
  | argAction
  | returns
  | locals
  | block
  | alt
  | ruleRef
  | tokenRef
  | stringLiteral
  | action
  | forcedAction
  | predicate
  | epsilon
  | optional
  | closure
  | positiveClosure
  /-- The element becomes the root of the tree under construction. -/
  | root
  /-- The element stays out of the tree under construction. -/
  | bang
  | assign
  | plusAssign
  | rewrite
  | rewriteTree
  | rewriteOptional
  | rewriteClosure
deriving DecidableEq, Repr, Inhabited

namespace TokenKind

def name : TokenKind → String
  | lparen => "LParen"
  | rparen => "RParen"
  | whitespace => "Whitespace"
  | head => "Head"
  | word => "Word"
  | str => "Str"
  | code => "Code"
  | argText => "ArgText"
  | decision => "Decision"
  | error => "Error"

end TokenKind

namespace NodeKind

def all : List NodeKind :=
  [parserGrammar, lexerGrammar, combinedGrammar, namedAction, rule, argAction, returns, locals,
   block, alt, ruleRef, tokenRef, stringLiteral, action, forcedAction, predicate, epsilon,
   optional, closure, positiveClosure, root, bang, assign, plusAssign, rewrite, rewriteTree,
   rewriteOptional, rewriteClosure]

def head : NodeKind → String
  | parserGrammar => "PARSER_GRAMMAR"
  | lexerGrammar => "LEXER_GRAMMAR"
  | combinedGrammar => "COMBINED_GRAMMAR"
  | namedAction => "AT"
  | rule => "RULE"
  | argAction => "ARG_ACTION"
  | returns => "RETURNS"
  | locals => "LOCALS"
  | block => "BLOCK"
  | alt => "ALT"
  | ruleRef => "RULE_REF"
  | tokenRef => "TOKEN_REF"
  | stringLiteral => "STRING_LITERAL"
  | action => "ACTION"
  | forcedAction => "FORCED_ACTION"
  | predicate => "SEMPRED"
  | epsilon => "EPSILON"
  | optional => "OPTIONAL"
  | closure => "CLOSURE"
  | positiveClosure => "POSITIVE_CLOSURE"
  | root => "ROOT"
  | bang => "BANG"
  | assign => "ASSIGN"
  | plusAssign => "PLUS_ASSIGN"
  | rewrite => "REWRITE"
  | rewriteTree => "REWRITE_TREE"
  | rewriteOptional => "REWRITE_OPTIONAL"
  | rewriteClosure => "REWRITE_CLOSURE"

/-- The kind that a head word names. -/
def ofHead? (word : String) : Option NodeKind :=
  all.find? fun kind => kind.head == word

def isGrammar : NodeKind → Bool
  | parserGrammar | lexerGrammar | combinedGrammar => true
  | _ => false

def isEbnf : NodeKind → Bool
  | optional | closure | positiveClosure => true
  | _ => false

/-- Whether a reference below a node of this kind is marked as the root of the tree under
construction or as left out of it: labels are looked through, so `mark` says whether the node
itself is marked. -/
def markBelow (mark : Bool) : NodeKind → Bool
  | root | bang => true
  | assign | plusAssign => mark
  | _ => false

end NodeKind

/-- The kind of a token or of a node. -/
inductive SyntaxKind where
  | token (kind : TokenKind)
  | node (kind : NodeKind)
deriving DecidableEq, Repr, Inhabited

/-- A node is called by its head word, a token by the name of its kind. -/
def SyntaxKind.describe : SyntaxKind → String
  | .token kind => kind.name
  | .node kind => kind.head

end RecognizerModel
