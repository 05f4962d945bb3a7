import RecognizerModel.Text.Blank
import RecognizerModel.Text.Pieces

/-! Lists of `type name` pairs, as rules declare their arguments, return values and locals. -/
namespace RecognizerModel

structure Attribute where
  name : String
  type : Option String
deriving DecidableEq, Repr, Inhabited

namespace Attribute

/-- Reads one declaration without blanks around it: the last word is the name and what stands
before it the type. -/
def ofTrimmed (entry : List Char) : Attribute :=
  let word := (entry.reverse.takeWhile fun c => !Text.isBlank c).reverse
  let before := entry.take (entry.length - word.length)
  { name := String.ofList word
    type := if before.isEmpty then none else some (String.ofList (Text.dropBlanksRight before)) }

/-- Reads declarations separated by commas. Blank ones are passed over. -/
def parseList (text : String) : List Attribute :=
  (Text.pieces ',' text.toList).map Text.trimChars |>.filter (!·.isEmpty) |>.map ofTrimmed

/-- The declaration as it is written: the type, if there is one, before the name. -/
def render (a : Attribute) : String :=
  match a.type with
  | some type => s!"{type} {a.name}"
  | none => a.name

def renderList (attrs : List Attribute) : String :=
  ", ".intercalate (attrs.map render)

end Attribute

end RecognizerModel
