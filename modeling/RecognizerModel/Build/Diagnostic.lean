import RecognizerModel.Build.Error

/-! Diagnostics: what went wrong with one rule while the job went on. -/
namespace RecognizerModel

inductive Severity where
  | error
  | warning
deriving DecidableEq, Repr, Inhabited

def Severity.name : Severity → String
  | error => "error"
  | warning => "warning"

inductive DiagnosticKind where
  /-- A construct that cannot be built. -/
  | malformedConstruct
  /-- A decision without a class; it was built as a generic choice. -/
  | unclassifiedDecision
deriving DecidableEq, Repr, Inhabited

namespace DiagnosticKind

def severity : DiagnosticKind → Severity
  | malformedConstruct => .error
  | unclassifiedDecision => .warning

def code : DiagnosticKind → String
  | malformedConstruct => "MalformedConstruct"
  | unclassifiedDecision => "UnclassifiedDecision"

/-- The message for a detail, and the one for want of any. -/
def message : DiagnosticKind → Option String → String
  | malformedConstruct, none => "malformed grammar construct"
  | unclassifiedDecision, none => "decision has no classification"
  | malformedConstruct, some detail => "malformed " ++ detail
  | unclassifiedDecision, some detail => detail ++ "; building a generic choice"

end DiagnosticKind

/-- Another place that a diagnostic points at. -/
structure RelatedPlace where
  message : String
  span : Span
deriving DecidableEq, Repr, Inhabited

structure Diagnostic where
  kind : DiagnosticKind
  span : Span
  message : String
  rule : Option String
  point : Option Point
  related : List RelatedPlace
  hints : List String
deriving DecidableEq, Repr, Inhabited

namespace Diagnostic

def severity (d : Diagnostic) : Severity :=
  d.kind.severity

def isError (d : Diagnostic) : Bool :=
  d.severity == .error

def isWarning (d : Diagnostic) : Bool :=
  d.severity == .warning

def spanText (span : Span) : String :=
  s!"{span.start}..{span.stop}"

/-- The diagnostic on one line. -/
def describe (d : Diagnostic) : String :=
  let related := d.related.map fun r => s!" (related: {r.message} at {spanText r.span})"
  let hints := d.hints.map fun hint => s!" (hint: {hint})"
  s!"{d.severity.name} at {spanText d.span}: {d.message}" ++ String.join (related ++ hints)

/-- The diagnostic of a rule that holds a malformed construct. -/
def ofMalformed (rule : String) (construct : Malformed) : Diagnostic where
  kind := .malformedConstruct
  span := construct.place.span
  message := DiagnosticKind.message .malformedConstruct
    (some s!"{construct.place.kind.describe} in rule `{rule}`: {construct.detail}")
  rule := some rule
  point := construct.point
  related := []
  hints := match construct.point with
    | some p => [s!"raised while building `{p.name}`"]
    | none => []

/-- The warning about a decision without a class. -/
def ofUnclassified (rule : String) (span : Span) (detail : String) : Diagnostic where
  kind := .unclassifiedDecision
  span := span
  message := DiagnosticKind.message .unclassifiedDecision (some detail)
  rule := some rule
  point := none
  related := []
  hints := []

end Diagnostic

end RecognizerModel
