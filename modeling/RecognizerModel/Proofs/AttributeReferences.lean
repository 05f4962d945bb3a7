import RecognizerModel.Proofs.FirstOccurrences
import RecognizerModel.Proofs.TokenPatterns

/-! The names that code refers to. Behind each dollar sign the longest name is read, if there is any,
and an alternative refers to the names in all code inside of it, each once. -/
namespace RecognizerModel

open Lexeme (IsLetter IsDigit)

theorem isAttributeChar_iff {c : Char} : isAttributeChar c = true ↔ IsLetter c ∨ IsDigit c :=
  Lexeme.isWordRest_iff

/-- Whether a name stands directly behind the dollar sign at a place and is the longest that does.
Places count characters. -/
structure NamedAt (code : List Char) (place : Nat) (name : List Char) : Prop where
  sign : code[place]? = some '$'
  nonempty : name ≠ []
  chars : ∀ c ∈ name, IsLetter c ∨ IsDigit c
  reads : name <+: code.drop (place + 1)
  longest : ∀ other, other <+: code.drop (place + 1) → (∀ c ∈ other, IsLetter c ∨ IsDigit c) →
    other <+: name

theorem namedAt_iff {code : List Char} {place : Nat} {name : List Char} :
    NamedAt code place name ↔ code[place]? = some '$' ∧ name ≠ [] ∧
      name = (code.drop (place + 1)).takeWhile isAttributeChar := by
  constructor
  · intro h
    refine ⟨h.sign, h.nonempty, ?_⟩
    have within : name <+: (code.drop (place + 1)).takeWhile isAttributeChar :=
      Lexeme.isPrefix_takeWhile h.reads fun c hc => isAttributeChar_iff.mpr (h.chars c hc)
    apply within.eq_of_length_le
    apply List.IsPrefix.length_le
    apply h.longest _ (List.takeWhile_prefix _)
    exact fun c hc => isAttributeChar_iff.mp (List.mem_takeWhile_imp hc)
  · rintro ⟨sign, nonempty, rfl⟩
    refine ⟨sign, nonempty, ?_, List.takeWhile_prefix _, ?_⟩
    · exact fun c hc => isAttributeChar_iff.mp (List.mem_takeWhile_imp hc)
    · intro other reads chars
      exact Lexeme.isPrefix_takeWhile reads fun c hc => isAttributeChar_iff.mpr (chars c hc)

@[simp] theorem not_namedAt_nil {place : Nat} {name : List Char} : ¬ NamedAt [] place name := by
  simp [namedAt_iff]

@[simp] theorem namedAt_zero {c : Char} {rest name : List Char} :
    NamedAt (c :: rest) 0 name ↔ c = '$' ∧ name ≠ [] ∧ name = rest.takeWhile isAttributeChar := by
  simp [namedAt_iff]

@[simp] theorem namedAt_succ {c : Char} {rest name : List Char} {place : Nat} :
    NamedAt (c :: rest) (place + 1) name ↔ NamedAt rest place name := by
  simp [namedAt_iff]

/-- The bytes that a name takes behind the character at a place. -/
def nameSpan (code : List Char) (place : Nat) (name : List Char) : Span :=
  let start := (String.ofList (code.take (place + 1))).utf8ByteSize
  ⟨start, start + (String.ofList name).utf8ByteSize⟩

/-- A name is cut out between characters, whatever stands around it. -/
theorem NamedAt.slice? {code : List Char} {place : Nat} {name : List Char}
    (h : NamedAt code place name) :
    (nameSpan code place name).slice? (String.ofList code) = some (String.ofList name) := by
  obtain ⟨behind, split⟩ := h.reads
  have whole : code = code.take (place + 1) ++ name ++ behind := by
    rw [List.append_assoc, split, List.take_append_drop]
  have slice := Span.slice?_append (String.ofList (code.take (place + 1))) (String.ofList name)
    (String.ofList behind)
  rwa [← String.ofList_append, ← String.ofList_append, ← whole] at slice

/-- Whether names are those behind the dollar signs of code, with their places from left to right. -/
structure NamesIn (code : List Char) (places : List Nat) (names : List String) : Prop where
  ordered : places.Pairwise (· < ·)
  mem_iff : ∀ place, place ∈ places ↔ ∃ name, NamedAt code place name
  named : List.Forall₂ (fun place name => NamedAt code place name.toList) places names

namespace NamesIn

variable {c : Char} {rest : List Char} {places : List Nat} {names : List String}

/-- A character that no name stands behind moves the others by one. -/
theorem behind (h : NamesIn rest places names) (none : ∀ name, ¬ NamedAt (c :: rest) 0 name) :
    NamesIn (c :: rest) (places.map (· + 1)) names where
  ordered := by
    rw [List.pairwise_map]
    simpa using h.ordered
  mem_iff place := by
    cases place with
    | zero => exact iff_of_false (by simp) fun ⟨name, here⟩ => none name here
    | succ place => simpa using h.mem_iff place
  named := by
    rw [List.forall₂_map_left_iff]
    simpa using h.named

theorem behindName {name : String} (h : NamesIn rest places names)
    (here : NamedAt (c :: rest) 0 name.toList) :
    NamesIn (c :: rest) (0 :: places.map (· + 1)) (name :: names) where
  ordered := by
    rw [List.pairwise_cons, List.pairwise_map]
    exact ⟨by simp, by simpa using h.ordered⟩
  mem_iff place := by
    cases place with
    | zero => exact iff_of_true (List.mem_cons_self ..) ⟨name.toList, here⟩
    | succ place => simpa using h.mem_iff place
  named := by
    refine .cons here ?_
    rw [List.forall₂_map_left_iff]
    simpa using h.named

end NamesIn

theorem exists_namesIn (code : List Char) : ∃ places, NamesIn code places (dollarRefs code) := by
  induction code with
  | nil => exact ⟨[], .nil, by simp, .nil⟩
  | cons c rest ih =>
    obtain ⟨places, inside⟩ := ih
    rw [dollarRefs]
    split
    · next here => exact ⟨_, inside.behindName (by simpa using here)⟩
    · next other =>
      refine ⟨_, inside.behind ?_⟩
      intro name here
      obtain ⟨sign, nonempty, longest⟩ := namedAt_zero.mp here
      exact other ⟨sign, longest ▸ nonempty⟩

theorem dollarRefs_cons_of_ne {c : Char} (rest : List Char) (h : c ≠ '$') :
    dollarRefs (c :: rest) = dollarRefs rest := by
  simp [dollarRefs, h]

theorem dollarRefs_append_of_not_mem {front : List Char} (rest : List Char) (h : '$' ∉ front) :
    dollarRefs (front ++ rest) = dollarRefs rest := by
  induction front with
  | nil => rfl
  | cons c front ih =>
    rw [List.mem_cons, not_or] at h
    rw [List.cons_append, dollarRefs_cons_of_ne _ (Ne.symm h.1), ih h.2]

/-- No dollar sign is passed over with a name. -/
theorem dollarRefs_dropWhile {p : Char → Bool} (h : p '$' = false) (code : List Char) :
    dollarRefs (code.dropWhile p) = dollarRefs code := by
  have front : '$' ∉ code.takeWhile p := by
    intro inside
    rw [List.mem_takeWhile_imp inside] at h
    cases h
  have split := dollarRefs_append_of_not_mem (code.dropWhile p) front
  rw [List.takeWhile_append_dropWhile] at split
  exact split.symm

/-- One turn: the name behind the first dollar sign, and the names behind that one. -/
theorem dollarRefs_of_found {code rest : List Char} {c : Char}
    (found : code.dropWhile (· ≠ '$') = c :: rest) :
    dollarRefs code =
      let name := rest.takeWhile isAttributeChar
      let others := dollarRefs (rest.dropWhile isAttributeChar)
      if name = [] then others else String.ofList name :: others := by
  have sign := code.head?_dropWhile_not (· ≠ '$')
  rw [found] at sign
  obtain rfl : c = '$' := by simpa using sign
  rw [← dollarRefs_dropWhile (p := (· ≠ '$')) (by simp) code, found,
    dollarRefs_dropWhile (by decide) rest, dollarRefs]
  by_cases nameless : rest.takeWhile isAttributeChar = []
  · rw [if_neg (by simp [nameless]), if_pos nameless]
  · rw [if_pos ⟨rfl, nameless⟩, if_neg nameless]

/-- The names found by going to the next dollar sign, reading the name behind it and going on behind
the name. -/
def refsByTurns (code : List Char) : List String :=
  match _found : code.dropWhile (· ≠ '$') with
  | [] => []
  | _ :: rest =>
    let name := rest.takeWhile isAttributeChar
    let others := refsByTurns (rest.dropWhile isAttributeChar)
    if name = [] then others else String.ofList name :: others
termination_by code.length
decreasing_by
  have passed := (List.dropWhile_suffix (l := code) (· ≠ '$')).length_le
  have read := (List.dropWhile_suffix (l := rest) isAttributeChar).length_le
  rw [_found, List.length_cons] at passed
  omega

/-- Going on behind each name misses no dollar sign and comes to none twice. -/
theorem refsByTurns_eq (code : List Char) : refsByTurns code = dollarRefs code := by
  fun_induction refsByTurns code with
  | case1 code none =>
    rw [← dollarRefs_dropWhile (p := (· ≠ '$')) (by simp), none]
    rfl
  | case2 code c rest found name others nameless ih =>
    rw [dollarRefs_of_found found, ← ih]
    exact (if_pos nameless).symm
  | case3 code c rest found name others named ih =>
    rw [dollarRefs_of_found found, ← ih]
    exact (if_neg named).symm

namespace Node

/-- The code of the actions and predicates at or below a node, in the order of the nodes. -/
def codeBelow (n : Node) : List String :=
  n.descendants.filterMap fun d =>
    match d.kind with
    | .action | .forcedAction | .predicate => d.inner.code?
    | _ => none

theorem attributeRefs_eq (n : Node) :
    n.attributeRefs = (n.codeBelow.flatMap fun code => dollarRefs code.toList).eraseDups := by
  rw [attributeRefs, codeBelow, List.filterMap_eq_flatMap_toList, List.flatMap_assoc]
  refine congrArg List.eraseDups (List.flatMap_congr fun d _ => ?_)
  obtain ⟨kind, span, inner⟩ := d
  have code : dollarRefs (inner.code?.getD "").toList =
      inner.code?.toList.flatMap fun code => dollarRefs code.toList := by
    cases inner.code? <;> simp [dollarRefs]
  cases kind <;> first | exact code | rfl

end Node

/-- Code refers to the names behind its dollar signs, in the order of the signs, and each is the
longest name there. An alternative refers to the names in all code inside of it, each once and in
the order of their first appearance. -/
theorem references_of_code (code : List Char) :
    (∃ places, NamesIn code places (dollarRefs code)) ∧
    (∀ place name, NamedAt code place name →
      (nameSpan code place name).slice? (String.ofList code) = some (String.ofList name)) ∧
    dollarRefs code = refsByTurns code ∧
    ∀ span inner, ∃ alt, Node.alt? ⟨.alt, span, inner⟩ = some alt ∧
      ListsFirsts alt.refs
        ((Node.mk .alt span inner).codeBelow.flatMap fun code => dollarRefs code.toList) := by
  refine ⟨exists_namesIn code, fun _ _ => NamedAt.slice?, (refsByTurns_eq code).symm,
    fun span inner => ⟨_, rfl, ?_⟩⟩
  dsimp only
  rw [Node.attributeRefs_eq]
  exact listsFirsts_eraseDups _

example : dollarRefs "ü$$x + $a_1.text $ €$".toList = ["x", "a_1"] := by decide

end RecognizerModel
