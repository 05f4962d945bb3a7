/-! What can be wrong with the text of a grammar. Offsets count bytes. -/
namespace RecognizerModel

inductive SyntaxError where
  | empty
  | unexpectedCharacter (offset : Nat)
  | unmatched (offset : Nat)
  | notAGrammar (offset : Nat)
  | missingHead (offset : Nat)
  | unknownHead (head : String) (offset : Nat)
  | unclosed (offset : Nat)
  | trailingInput (offset : Nat)
  | missingName
  | strayToken (text : String) (offset : Nat)
  | unnamedRule (offset : Nat)
  | decisionOutOfRange (text : String) (offset : Nat)
deriving DecidableEq, Repr

/-- The name of the cause alone. -/
def SyntaxError.code : SyntaxError → String
  | empty => "Empty"
  | unexpectedCharacter _ => "UnexpectedCharacter"
  | unmatched _ => "Unmatched"
  | notAGrammar _ => "NotAGrammar"
  | missingHead _ => "MissingHead"
  | unknownHead .. => "UnknownHead"
  | unclosed _ => "Unclosed"
  | trailingInput _ => "TrailingInput"
  | missingName => "MissingName"
  | strayToken .. => "StrayToken"
  | unnamedRule _ => "UnnamedRule"
  | decisionOutOfRange .. => "DecisionOutOfRange"

def SyntaxError.message : SyntaxError → String
  | empty => "empty input"
  | unexpectedCharacter offset => s!"unexpected character at offset {offset}"
  | unmatched offset => s!"unmatched `)` at offset {offset}"
  | notAGrammar offset => s!"expected a grammar node at offset {offset}"
  | missingHead offset => s!"expected a node head after `(` at offset {offset}"
  | unknownHead head offset => s!"unknown node head `{head}` at offset {offset}"
  | unclosed offset => s!"unclosed `(` opened at offset {offset}"
  | trailingInput offset => s!"unexpected input after the grammar at offset {offset}"
  | missingName => "grammar has no name"
  | strayToken text offset => s!"unexpected `{text}` in the grammar node at offset {offset}"
  | unnamedRule offset => s!"rule at offset {offset} has no name"
  | decisionOutOfRange text offset =>
    s!"decision number `{text}` is out of range at offset {offset}"

end RecognizerModel
