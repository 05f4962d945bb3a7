import RecognizerModel.Model.Function

/-! Recognizer files and their rule tables. -/
namespace RecognizerModel

inductive RecognizerKind where
  | parser
  | lexer
deriving DecidableEq, Repr, Inhabited

namespace RecognizerKind

def name : RecognizerKind → String
  | parser => "parser"
  | lexer => "lexer"

/-- Follows the name of a grammar that holds both recognizers. -/
def suffix : RecognizerKind → String
  | parser => "Parser"
  | lexer => "Lexer"

end RecognizerKind

/-- The rules of a parser; `tokenNames` is indexed by token type. -/
structure ParserTable where
  name : String
  tokenNames : List String
  ruleNames : List String
  members : Option String
  funcs : List RuleFunction
deriving Inhabited

structure LexerTable where
  name : String
  tokenNames : List String
  ruleNames : List String
  modes : List String
deriving DecidableEq, Repr, Inhabited

inductive Recognizer where
  | parser (table : ParserTable)
  | lexer (table : LexerTable)
deriving Inhabited

namespace Recognizer

def empty (kind : RecognizerKind) (name : String) : Recognizer :=
  match kind with
  | .parser => .parser ⟨name, [], [], none, []⟩
  | .lexer => .lexer ⟨name, [], [], []⟩

def kind : Recognizer → RecognizerKind
  | parser _ => .parser
  | lexer _ => .lexer

def name : Recognizer → String
  | parser table => table.name
  | lexer table => table.name

end Recognizer

/-- One generated file with its one recognizer. -/
structure RecognizerFile where
  fileName : String
  grammarName : String
  /-- Stands before the recognizer, word for word. -/
  header : Option String
  recognizer : Recognizer
deriving Inhabited

namespace RecognizerFile

def kind (file : RecognizerFile) : RecognizerKind :=
  file.recognizer.kind

def parser? (file : RecognizerFile) : Option ParserTable :=
  match file.recognizer with
  | .parser table => some table
  | .lexer _ => none

def lexer? (file : RecognizerFile) : Option LexerTable :=
  match file.recognizer with
  | .parser _ => none
  | .lexer table => some table

end RecognizerFile

end RecognizerModel
