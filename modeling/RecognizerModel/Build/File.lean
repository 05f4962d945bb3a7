import RecognizerModel.Build.Job

/-! Files and rule tables, and whether a grammar can make them. -/
namespace RecognizerModel

/-- The mode in which every lexer starts. -/
def defaultMode : String := "DEFAULT_MODE"

namespace Setup

/-- A file with an empty recognizer. -/
def emptyFile (setup : Setup) (kind : RecognizerKind) (fileName : String) : RecognizerFile where
  fileName := fileName
  grammarName := setup.grammar.name
  header := setup.grammar.actionCode? "header"
  recognizer := .empty kind (setup.grammar.recognizerName kind)

def parserFile (setup : Setup) (fileName : String) : Job RecognizerFile :=
  setup.visit .parserFile (setup.emptyFile .parser fileName)

def lexerFile (setup : Setup) (fileName : String) : Job RecognizerFile :=
  setup.visit .lexerFile (setup.emptyFile .lexer fileName)

/-- The rule table of a parser file, without functions as yet. -/
def parserTable (setup : Setup) (file : RecognizerFile) : Job ParserTable :=
  setup.visit .parser
    { name := file.recognizer.name
      tokenNames := setup.grammar.vocabulary.tokenNames
      ruleNames := setup.grammar.ruleNames .parser
      members := setup.grammar.actionCode? "members"
      funcs := [] }

def lexerTable (setup : Setup) (file : RecognizerFile) : Job LexerTable :=
  setup.visit .lexer
    { name := file.recognizer.name
      tokenNames := setup.grammar.vocabulary.tokenNames
      ruleNames := setup.grammar.ruleNames .lexer
      modes := [defaultMode] }

/-- Checks that the grammar can make a recognizer of a kind. A lexer may live on literals alone, but
there has to be some rule. -/
def checkJob (setup : Setup) (kind : RecognizerKind) : Job Unit :=
  let g := setup.grammar
  let rules := match kind with
    | .parser => g.rulesFor .parser
    | .lexer => g.rules
  if !g.kind.supports kind then Job.fatal (.unsupportedRecognizer g.name g.kind kind)
  else if rules.isEmpty then Job.fatal (.emptyGrammar g.name kind)
  else pure ()

/-- The name of the file for a recognizer. -/
def fileName (setup : Setup) (kind : RecognizerKind) : String :=
  setup.target.fileName (setup.grammar.recognizerName kind)

end Setup

end RecognizerModel
