import RecognizerModel.Syntax.Token

/-!
Splitting a source into tokens.

`Lexeme.first` reads the longest token at the front of a text. Where no token matches it answers the
stretch to give up: one character as a rule, but a bracket or quote that never closes gives up the
rest of the text. Stretches given up side by side become one error token.
-/
namespace RecognizerModel

/-- A stretch of the source with the kind of token it makes; `error` where no token matches. -/
structure Lexeme where
  kind : TokenKind
  text : List Char
deriving DecidableEq, Repr, Inhabited

namespace Lexeme

def isSpace (c : Char) : Bool :=
  c == ' ' || c == '\t' || c == '\r' || c == '\n'

def isWordStart (c : Char) : Bool :=
  c.isAlpha || c == '_'

def isWordRest (c : Char) : Bool :=
  c.isAlphanum || c == '_'

/-- What follows an opening quote: the characters up to the closing quote, and whether there is one.
A backslash takes the next character with it, but not a line feed: the literal stops there
unclosed. -/
def quoted : List Char → List Char × Bool
  | [] => ([], false)
  | '\\' :: '\n' :: _ => (['\\'], false)
  | '\\' :: c :: rest =>
    let (body, closed) := quoted rest
    ('\\' :: c :: body, closed)
  | c :: rest =>
    if c = '\'' then ([c], true)
    else
      let (body, closed) := quoted rest
      (c :: body, closed)

/-- The characters up to the brace that closes `depth` inner braces and the one around them. -/
def balanced : Nat → List Char → Option (List Char)
  | _, [] => none
  | depth, c :: rest =>
    if c = '{' then (balanced (depth + 1) rest).map (c :: ·)
    else if c = '}' then
      match depth with
      | 0 => some [c]
      | inner + 1 => (balanced inner rest).map (c :: ·)
    else (balanced depth rest).map (c :: ·)

/-- A question mark directly after code belongs to it. -/
def questionMark (rest : List Char) : List Char :=
  rest.take 1 |>.filter (· == '?')

/-- The lexeme at the front of `c :: rest`. -/
def first (c : Char) (rest : List Char) : Lexeme :=
  if c = '(' then ⟨.lparen, [c]⟩
  else if c = ')' then ⟨.rparen, [c]⟩
  else if isSpace c then ⟨.whitespace, c :: rest.takeWhile isSpace⟩
  else if isWordStart c then ⟨.word, c :: rest.takeWhile isWordRest⟩
  else if c = '\'' then
    let (body, closed) := quoted rest
    ⟨if closed then .str else .error, c :: body⟩
  else if c = '{' then
    match balanced 0 rest with
    | some body => ⟨.code, c :: (body ++ questionMark (rest.drop body.length))⟩
    | none => ⟨.error, [c]⟩
  else if c = '[' then
    let body := rest.takeWhile (· != ']')
    if body.length < rest.length then ⟨.argText, c :: (body ++ [']'])⟩ else ⟨.error, c :: body⟩
  else if c = '@' then
    let digits := rest.takeWhile Char.isDigit
    ⟨if digits.isEmpty then .error else .decision, c :: digits⟩
  else ⟨.error, [c]⟩

/-- The lexemes of a text, after passing over the `pending` characters that still belong to the
lexeme before it. -/
def scan : (pending : Nat) → List Char → List Lexeme
  | _, [] => []
  | pending + 1, _ :: rest => scan pending rest
  | 0, c :: rest =>
    let lexeme := first c rest
    lexeme :: scan (lexeme.text.length - 1) rest

/-- Puts a lexeme in front of others; two error lexemes side by side become one. -/
def join (lexeme : Lexeme) : List Lexeme → List Lexeme
  | next :: rest =>
    if lexeme.kind = .error ∧ next.kind = .error then ⟨.error, lexeme.text ++ next.text⟩ :: rest
    else lexeme :: next :: rest
  | [] => [lexeme]

/-- Gives each lexeme its place, the first one at offset `start`. -/
def place : (start : Nat) → List Lexeme → List Token
  | _, [] => []
  | start, lexeme :: rest =>
    let token : Token := ⟨lexeme.kind, String.ofList lexeme.text, start⟩
    token :: place token.stop rest

end Lexeme

/-- The tokens of a source. They tile it: none is empty and each starts where the one before it
ends. -/
def tokenize (source : String) : List Token :=
  Lexeme.place 0 ((Lexeme.scan 0 source.toList).foldr Lexeme.join [])

end RecognizerModel
