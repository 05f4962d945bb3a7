import RecognizerModel.Text.CaseData
import RecognizerModel.Text.Ranges

/-! Uppercase and lowercase forms of Unicode text, where one character may become several. -/
namespace RecognizerModel.Text

/-- The character that the runs map `c` to, or `c` itself. -/
def shiftBy (runs : List (Nat × Nat × Nat × Int)) (c : Char) : Char :=
  let hit := runs.find? fun (first, last, step, _) =>
    first ≤ c.toNat && c.toNat ≤ last && (c.toNat - first) % step == 0
  match hit with
  | some (_, _, _, shift) => Char.ofNat (c.toNat + shift).toNat
  | none => c

def upperChar (c : Char) : List Char :=
  match upperExpansions.lookup c.toNat with
  | some codes => codes.map Char.ofNat
  | none => [shiftBy upperRuns c]

/-- The lowercase form of a character on its own. The dotted capital I keeps its dot as a combining
mark. -/
def lowerChar (c : Char) : List Char :=
  if c = 'İ' then ['i', '\u0307'] else [shiftBy lowerRuns c]

/-- Whether the first character that casing does not ignore is a cased one. -/
def meetsCased (cs : List Char) : Bool :=
  match cs.dropWhile (inRanges caseIgnorableRanges) with
  | c :: _ => inRanges casedRanges c
  | [] => false

/-- The lowercase forms of the characters that follow `before`, which is reversed. A capital sigma
at the end of a word takes its final form. -/
def lowerAfter : (before : List Char) → List Char → List Char
  | _, [] => []
  | before, c :: rest =>
    let form :=
      if c = 'Σ' then if meetsCased before && !meetsCased rest then ['ς'] else ['σ']
      else lowerChar c
    form ++ lowerAfter (c :: before) rest

def lower (s : String) : String :=
  String.ofList (lowerAfter [] s.toList)

/-- The text with its first character in uppercase and the rest as it is. -/
def capitalize (s : String) : String :=
  match s.toList with
  | [] => ""
  | c :: rest => String.ofList (upperChar c ++ rest)

end RecognizerModel.Text
