import RecognizerModel.Text.Casing

/-! Names in the language that a recognizer is generated for. -/
namespace RecognizerModel

/-- How a language names what is generated for it. Contexts and labels have usual names, which a
language may replace by its own. -/
structure Target where
  language : String
  /-- The file that holds a recognizer. -/
  fileName : (recognizer : String) → String
  /-- The type of a rule's context. -/
  contextType : (rule : String) → String := fun rule => Text.capitalize rule ++ "Context"
  /-- The label of a token reference that actions refer to without one. -/
  tokenLabel : (token : String) → String := fun token => "_" ++ Text.lower token
  /-- The label of a rule reference that actions refer to without one. -/
  ruleLabel : (rule : String) → String := fun rule => "_" ++ rule

namespace Target

/-- The usual names, for a language and the extension of its files. -/
def generic (language extension : String) : Target where
  language
  fileName recognizer := s!"{recognizer}.{extension}"

def java : Target :=
  generic "Java" "java"

end Target

/-- Whether a rule of this name makes a token. -/
def isLexerRuleName (name : String) : Bool :=
  match name.toList with
  | c :: _ => c.isUpper
  | [] => false

end RecognizerModel
