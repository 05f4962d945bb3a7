import RecognizerModel.Build.File
import RecognizerModel.Build.Function
import RecognizerModel.Build.Walk

/-!
Whole models. A parser job builds every rule in turn: a rule that fails keeps an empty body and
leaves a diagnostic, and the job goes on; a fatal error ends it. A lexer job builds the file and its
table.
-/
namespace RecognizerModel

inductive RuleOutcome where
  | built (rule : String)
  | failed (rule : String) (diagnostic : Diagnostic)
deriving DecidableEq, Repr, Inhabited

namespace RuleOutcome

def rule : RuleOutcome → String
  | built rule => rule
  | failed rule _ => rule

def isBuilt : RuleOutcome → Bool
  | built _ => true
  | failed .. => false

end RuleOutcome

/-- What a parser job makes, with one outcome for each rule in declared order. -/
structure ParserModel where
  file : RecognizerFile
  diagnostics : List Diagnostic
  outcomes : List RuleOutcome
deriving Inhabited

namespace ParserModel

def failedRules (m : ParserModel) : List String :=
  (m.outcomes.filter (!·.isBuilt)).map RuleOutcome.rule

/-- Whether every rule was built and no error was reported; warnings do not count. -/
def isClean (m : ParserModel) : Bool :=
  m.outcomes.all RuleOutcome.isBuilt && !m.diagnostics.any Diagnostic.isError

end ParserModel

namespace Setup

/-- Builds one rule, with its operations from `walk`. -/
def buildRule (setup : Setup) (walk : Rule → Job (List Op)) (rule : Rule) (index : Nat) :
    Job (RuleFunction × RuleOutcome) := do
  let name := rule.name.getD ""
  let f ← setup.rule rule name index
  Job.modifyContext (.pushRule f)
  let outcome ← match ← (walk rule).attempt with
    | .ok code => do
      Job.modifyRule fun f => { f with code }
      pure (.built name)
    | .error construct => do
      let d := Diagnostic.ofMalformed name construct
      Job.report d
      pure (.failed name d)
  Job.modifyContext .resetRuleState
  let postamble ← setup.rulePostamble rule
  let f ← Job.popRule
  return (f.finish (setup.target.contextType name) postamble, outcome)

/-- Builds rules that count from `index`. -/
def buildRules (setup : Setup) (walk : Rule → Job (List Op)) (index : Nat) :
    List Rule → Job (List (RuleFunction × RuleOutcome))
  | [] => pure []
  | rule :: rest => do
    let built ← setup.buildRule walk rule index
    return built :: (← buildRules setup walk (index + 1) rest)

/-- Builds the model of the grammar's parser, with each rule's operations from `walk`. -/
def parserModelWith (setup : Setup) (walk : Rule → Job (List Op)) : Job ParserModel := do
  setup.checkJob .parser
  let file ← setup.parserFile (setup.fileName .parser)
  Job.modifyContext (.setRoot file)
  let table ← setup.parserTable file
  let built ← setup.buildRules walk 0 (setup.grammar.rulesFor .parser)
  let diagnostics ← Job.takeDiagnostics
  return {
    file := { file with
      recognizer := .parser { table with funcs := table.funcs ++ built.map Prod.fst } }
    diagnostics
    outcomes := built.map Prod.snd }

/-- Builds the model of the grammar's parser. -/
def parserModel (setup : Setup) : Job ParserModel :=
  setup.parserModelWith setup.walkRule

/-- Builds the file of the grammar's lexer. -/
def lexerModel (setup : Setup) : Job RecognizerFile := do
  setup.checkJob .lexer
  let file ← setup.lexerFile (setup.fileName .lexer)
  Job.modifyContext (.setRoot file)
  let table ← setup.lexerTable file
  return { file with recognizer := .lexer table }

end Setup

end RecognizerModel
