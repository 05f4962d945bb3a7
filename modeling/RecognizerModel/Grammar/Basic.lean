import RecognizerModel.Grammar.Decision
import RecognizerModel.Grammar.Naming
import RecognizerModel.Model.File
import RecognizerModel.Syntax.Element
import RecognizerModel.Syntax.Reader

/-! Grammars: a syntax tree that has been checked, its vocabulary and its classified decisions. -/
namespace RecognizerModel

inductive GrammarKind where
  | parser
  | lexer
  /-- Parser and lexer rules in one grammar. -/
  | combined
deriving DecidableEq, Repr, Inhabited

namespace GrammarKind

def name : GrammarKind → String
  | parser => "parser"
  | lexer => "lexer"
  | combined => "combined"

/-- Whether a grammar of this kind can make a recognizer of that kind. -/
def supports : GrammarKind → RecognizerKind → Bool
  | parser, kind => kind == .parser
  | lexer, kind => kind == .lexer
  | combined, _ => true

def ofNodeKind? : NodeKind → Option GrammarKind
  | .parserGrammar => some .parser
  | .lexerGrammar => some .lexer
  | .combinedGrammar => some .combined
  | _ => none

end GrammarKind

structure Grammar where
  /-- The text that the tree was read from; places in the tree are places in it. -/
  source : String
  root : Node
  kind : GrammarKind
  name : String
  vocabulary : Vocabulary
  decisions : DecisionTable

namespace Grammar

/-- The rules below a grammar node, in declared order. -/
def rulesOf (root : Node) : List Rule :=
  root.inner.nodes.filterMap Node.rule?

/-- The names that a grammar node gives a token type: first the rules that make tokens, then the
tokens and literals in the order of their appearance. -/
def definedNames (root : Node) : List String :=
  let ruleNames := (rulesOf root).filterMap Rule.name
  let tokenRules := ruleNames.filter fun name => root.kind == .lexerGrammar || isLexerRuleName name
  let mentioned := root.descendants.filterMap fun n =>
    match n.kind with
    | .tokenRef => n.inner.firstText? .word
    | .stringLiteral => n.inner.firstText? .str
    | _ => none
  tokenRules ++ mentioned

/-- The tokens directly in a grammar node other than its delimiters, head and blanks. -/
def ownTokens (root : Node) : List Token :=
  root.inner.tokens.filter fun t =>
    !t.isTrivia && t.kind != .lparen && t.kind != .rparen && t.kind != .head

/-- Loads a grammar from its text, without any decisions. Blanks around it do not count. -/
def load (text : String) : Except SyntaxError Grammar := do
  let source := Text.trim text
  let root ← read source
  let some kind := GrammarKind.ofNodeKind? root.kind | throw (.notAGrammar 0)
  let some name := root.inner.first? .word | throw .missingName
  if let some stray := (ownTokens root).find? (· ≠ name) then
    throw (.strayToken stray.text stray.start)
  if let some rule := (rulesOf root).find? (·.name.isNone) then
    throw (.unnamedRule rule.span.start)
  let numbers := root.inner.leaves.filter (·.kind == .decision)
  if let some number := numbers.find? (!·.hasDecision) then
    throw (.decisionOutOfRange number.text number.start)
  return {
    source, root, kind
    name := name.text
    vocabulary := Vocabulary.empty.defineAll (definedNames root)
    decisions := [] }

/-- Records the class of a decision in place of any earlier one. -/
def withDecision (g : Grammar) (number : Nat) (c : Classification) : Grammar :=
  { g with decisions := (number, c) :: g.decisions }

def classify (g : Grammar) (number : Nat) : Option Classification :=
  g.decisions.lookup number

/-- The set of the named tokens, unless one of them is not in the vocabulary. -/
def lookahead? (g : Grammar) (names : List String) : Option LookaheadSet :=
  LookaheadSet.ofNames? g.vocabulary names

/-- A grammar that holds both recognizers adds the kind to its name. -/
def recognizerName (g : Grammar) (kind : RecognizerKind) : String :=
  if g.kind = .combined then g.name ++ kind.suffix else g.name

def rules (g : Grammar) : List Rule :=
  rulesOf g.root

/-- Whether a rule belongs to the lexer. -/
def isLexerRule (g : Grammar) (rule : Rule) : Bool :=
  match g.kind with
  | .parser => false
  | .lexer => true
  | .combined => rule.name.any isLexerRuleName

/-- The rules of one recognizer, in declared order. -/
def rulesFor (g : Grammar) (kind : RecognizerKind) : List Rule :=
  g.rules.filter fun rule => g.isLexerRule rule == (kind == .lexer)

def ruleNames (g : Grammar) (kind : RecognizerKind) : List String :=
  (g.rulesFor kind).filterMap Rule.name

def actions (g : Grammar) : List NamedAction :=
  g.root.inner.nodes.filterMap Node.namedAction?

/-- The code of the grammar's first action of a name. -/
def actionCode? (g : Grammar) (name : String) : Option String :=
  (NamedAction.find? name g.actions).bind NamedAction.code

end Grammar

end RecognizerModel
