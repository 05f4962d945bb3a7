import RecognizerModel.Build.Point
import RecognizerModel.Grammar.Basic

/-!
Errors of construction. A fatal error ends the job; a malformed construct costs only the rule that
holds it.
-/
namespace RecognizerModel

inductive BuildError where
  | missingTarget
  | emptyGrammar (grammar : String) (kind : RecognizerKind)
  | unsupportedRecognizer (grammar : String) (kind : GrammarKind) (requested : RecognizerKind)
  /-- An extension handed back a node that does not play the part of the one it was given. -/
  | contractViolation (extension : String) (point : Point) (expected found : String)
  /-- The rule under construction was asked for and there is none. -/
  | ruleStackEmpty
deriving DecidableEq, Repr

/-- The name of the cause alone. -/
def BuildError.code : BuildError → String
  | missingTarget => "MissingTarget"
  | emptyGrammar .. => "EmptyGrammar"
  | unsupportedRecognizer .. => "UnsupportedRecognizer"
  | contractViolation .. => "ContractViolation"
  | ruleStackEmpty => "RuleStackEmpty"

def BuildError.message : BuildError → String
  | missingTarget => "no target configured"
  | emptyGrammar grammar kind => s!"grammar `{grammar}` has no {kind.name} rules"
  | unsupportedRecognizer grammar kind requested =>
    s!"{kind.name} grammar `{grammar}` cannot produce a {requested.name}"
  | contractViolation extension point expected found =>
    s!"extension `{extension}` broke `{point.name}`: expected {expected}, found {found}"
  | ruleStackEmpty => "no rule is under construction"

/-- A construct that cannot be built, and the point at which that came out, if it was at one. -/
structure Malformed where
  place : Place
  point : Option Point
  detail : String
deriving DecidableEq, Repr

inductive Failure where
  | fatal (error : BuildError)
  | malformed (construct : Malformed)
deriving DecidableEq, Repr

def Failure.message : Failure → String
  | fatal error => error.message
  | malformed construct =>
    s!"malformed {construct.place.kind.describe}: {construct.detail}"

end RecognizerModel
