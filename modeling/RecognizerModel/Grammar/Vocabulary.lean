/-!
Token vocabularies. The types of tokens count from 1 in the order in which their names are defined.
Type 0 belongs to no token, and the end of input has type -1 without being defined.
-/
namespace RecognizerModel

structure Vocabulary where
  /-- Each name with its type, in the order of definition. -/
  entries : List (String × Int)
  nodup : (entries.map Prod.fst).Nodup
  eof_not_mem : "EOF" ∉ entries.map Prod.fst
  counted : ∀ (place : Nat) (entry : String × Int),
    entries[place]? = some entry → entry.2 = (place : Int) + 1

namespace Vocabulary

def eofType : Int := -1

def eofName : String := "EOF"

def invalidName : String := "<INVALID>"

def empty : Vocabulary :=
  ⟨[], List.nodup_nil, List.not_mem_nil, nofun⟩

instance : Inhabited Vocabulary := ⟨empty⟩

def size (v : Vocabulary) : Nat :=
  v.entries.length

/-- The names in the order of their types. -/
def names (v : Vocabulary) : List String :=
  v.entries.map Prod.fst

/-- The type of a name. -/
def type? (v : Vocabulary) (name : String) : Option Int :=
  if name = eofName then some eofType else v.entries.lookup name

theorem not_mem_names_of_lookup {v : Vocabulary} {name : String}
    (h : v.entries.lookup name = none) : name ∉ v.names := by
  intro known
  obtain ⟨entry, hentry, rfl⟩ := List.mem_map.mp known
  simpa using List.lookup_eq_none_iff.mp h entry hentry

/-- Puts a new name behind the others, with the next type. -/
def push (v : Vocabulary) (name : String) (other : name ≠ eofName) (new : name ∉ v.names) :
    Vocabulary where
  entries := v.entries ++ [(name, (v.size : Int) + 1)]
  nodup := by
    rw [List.map_append, List.nodup_append]
    refine ⟨v.nodup, by simp, ?_⟩
    rintro a ha b hb rfl
    obtain rfl : a = name := List.mem_singleton.mp hb
    exact new ha
  eof_not_mem := by
    rw [List.map_append, List.mem_append, not_or]
    exact ⟨v.eof_not_mem, fun h => other (List.mem_singleton.mp h).symm⟩
  counted := by
    intro place entry h
    rw [List.getElem?_append] at h
    split at h
    · exact v.counted place entry h
    · next behind =>
      obtain ⟨last, rfl⟩ := List.getElem?_eq_some_iff.mp h
      rw [List.length_singleton] at last
      have here : place = v.entries.length := by omega
      subst here
      simp [size]

/-- Defines a name unless it has a type already; in either case its type is the answer. -/
def define (v : Vocabulary) (name : String) : Int × Vocabulary :=
  if other : name = eofName then (eofType, v)
  else
    match new : v.entries.lookup name with
    | some ttype => (ttype, v)
    | none => ((v.size : Int) + 1, v.push name other (not_mem_names_of_lookup new))

def defineAll (v : Vocabulary) (names : List String) : Vocabulary :=
  names.foldl (fun v name => (v.define name).2) v

/-- The name by which a type is shown. -/
def displayName? (v : Vocabulary) : Int → Option String
  | .negSucc 0 => some eofName
  | .negSucc (_ + 1) => none
  | .ofNat 0 => some invalidName
  | .ofNat (t + 1) => (v.entries[t]?).map Prod.fst

/-- The names by token type, from type 0 on. -/
def tokenNames (v : Vocabulary) : List String :=
  invalidName :: v.names

/-- Looking up a number that counts the entries is finding the first place of the name. -/
theorem lookup_of_counted (name : String) : ∀ (entries : List (String × Int)) (start : Int),
    (∀ (place : Nat) (entry : String × Int),
      entries[place]? = some entry → entry.2 = start + place + 1) →
    entries.lookup name =
      if name ∈ entries.map Prod.fst then some (start + (entries.map Prod.fst).idxOf name + 1)
      else none
  | [], _, _ => rfl
  | (first, ttype) :: rest, start, counted => by
      have here : ttype = start + 1 := by simpa using counted 0 _ rfl
      have others := lookup_of_counted name rest (start + 1) fun place entry h => by
        have next := counted (place + 1) entry h
        omega
      rw [List.lookup_cons, others]
      by_cases same : name = first
      · simp [same, here]
      · have differ : (first == name) = false := by simpa using Ne.symm same
        rw [List.map_cons, List.idxOf_cons, differ, beq_eq_false_iff_ne.mpr same]
        simp only [List.mem_cons, same, false_or, cond_false]
        split
        · rw [Option.some.injEq]
          omega
        · rfl

/-- The type that is stored with a name says how many names were defined up to it. -/
theorem lookup_entries (v : Vocabulary) (name : String) :
    v.entries.lookup name =
      if name ∈ v.names then some ((v.names.idxOf name : Int) + 1) else none := by
  have stored := lookup_of_counted name v.entries 0 (by simpa using v.counted)
  rwa [Int.zero_add] at stored

theorem type?_eq (v : Vocabulary) (name : String) :
    v.type? name = if name = eofName then some eofType
      else if name ∈ v.names then some ((v.names.idxOf name : Int) + 1) else none := by
  rw [type?, lookup_entries]

theorem names_define (v : Vocabulary) (name : String) :
    (v.define name).2.names =
      if name = eofName ∨ name ∈ v.names then v.names else v.names ++ [name] := by
  unfold define
  split
  · next eof => rw [if_pos (.inl eof)]
  · next other =>
    split
    · next ttype known =>
      rw [lookup_entries] at known
      have old : name ∈ v.names := Decidable.by_contra fun new => by
        rw [if_neg new] at known
        cases known
      rw [if_pos (.inr old)]
    · next new =>
      rw [if_neg (by simp [other, not_mem_names_of_lookup new])]
      simp [push, names]

/-- The answer of a definition is the type that the name has from then on. -/
theorem type?_define (v : Vocabulary) (name : String) :
    (v.define name).2.type? name = some (v.define name).1 := by
  unfold define
  split
  · next eof => rw [type?, if_pos eof]
  · next other =>
    split
    · next ttype known => rw [type?, if_neg other, known]
    · next new => simp [type?, other, push, List.lookup_append, new]

end Vocabulary

end RecognizerModel
