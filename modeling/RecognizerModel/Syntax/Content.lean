import RecognizerModel.Syntax.Forest
import RecognizerModel.Text.Blank

/-! What the text of a token holds: a number, code, arguments, references to attributes. -/
namespace RecognizerModel

/-- The characters between two delimiters. -/
def between (left right : Char) : List Char → Option (List Char)
  | [] => none
  | c :: rest =>
    if c = left ∧ rest.getLast? = some right then some rest.dropLast else none

def dropQuestionMark (cs : List Char) : List Char :=
  if cs.getLast? = some '?' then cs.dropLast else cs

def dropPlus (cs : List Char) : List Char :=
  if cs.head? = some '+' then cs.tail else cs

/-- The largest number that is read is one less than this. -/
def numberLimit : Nat := Nat.pow 2 64

/-- The number that decimal digits stand for; none if there is anything else among them. -/
def natOfDigits? (digits : List Char) : Option Nat :=
  digits.foldl
    (fun value c => value.bind fun n =>
      if c.isDigit then some (10 * n + (c.toNat - '0'.toNat)) else none)
    (some 0)

/-- Reads a number of 64 bits: one digit or more, perhaps behind a plus sign. -/
def readNumber? (text : List Char) : Option Nat :=
  let digits := dropPlus text
  if digits = [] then none
  else (natOfDigits? digits).filter (· < numberLimit)

namespace Token

/-- Whether the check of a whole grammar can read the decision number: it passes over all at signs
in front. -/
def hasDecision (t : Token) : Bool :=
  (readNumber? (t.text.toList.dropWhile (· == '@'))).isSome

/-- The number of a decision as it is used, behind one at sign. -/
def decision? (t : Token) : Option Nat :=
  match t.text.toList with
  | '@' :: digits => readNumber? digits
  | _ => none

/-- The code between the braces, trimmed; the question mark of a predicate is no part of it. -/
def code? (t : Token) : Option String :=
  (between '{' '}' (dropQuestionMark t.text.toList)).map fun body =>
    String.ofList (Text.trimChars body)

/-- The arguments between the brackets, trimmed. -/
def argText? (t : Token) : Option String :=
  (between '[' ']' t.text.toList).map fun body => String.ofList (Text.trimChars body)

end Token

namespace Forest

/-- The number of the first decision token in the row. -/
def decision? (f : Forest) : Option Nat :=
  (f.first? .decision).bind Token.decision?

/-- The code of the first code token in the row. -/
def code? (f : Forest) : Option String :=
  (f.first? .code).bind Token.code?

/-- The arguments of the first argument token in the row. -/
def argText? (f : Forest) : Option String :=
  (f.first? .argText).bind Token.argText?

end Forest

/-- A letter or digit of ASCII, or an underscore. -/
def isAttributeChar (c : Char) : Bool :=
  c.isAlphanum || c == '_'

/-- The names that code refers to as `$name`, in the order of the dollar signs. -/
def dollarRefs : List Char → List String
  | [] => []
  | c :: rest =>
    let name := rest.takeWhile isAttributeChar
    if c = '$' ∧ name ≠ [] then String.ofList name :: dollarRefs rest else dollarRefs rest

end RecognizerModel
