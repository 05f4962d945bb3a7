import Mathlib.Data.List.Sort
import RecognizerModel.Proofs.TypeNumbers

/-! Sets of token types by their members. A set has one form, whatever list of types or names it is
made of, and its names stand for it as long as all its types have names of their own. -/
namespace RecognizerModel

theorem mapM_eq_filterMap (f : α → Option β) (as : List α) :
    as.mapM f = if as.all fun a => (f a).isSome then some (as.filterMap f) else none := by
  induction as with
  | nil => rfl
  | cons a rest ih =>
      rw [List.mapM_cons, ih]
      cases h : f a with
      | none => simp [h]
      | some b =>
          by_cases known : rest.all fun a => (f a).isSome
          · simp [h, known]
          · simp [h, known]

namespace Vocabulary

/-- The types of a vocabulary: the end of input and the numbers of the names. -/
def IsType (v : Vocabulary) (t : Int) : Prop :=
  t = -1 ∨ 1 ≤ t ∧ t ≤ v.size

instance (v : Vocabulary) (t : Int) : Decidable (v.IsType t) :=
  inferInstanceAs (Decidable (_ ∨ _))

theorem isType_of_type? {v : Vocabulary} {name : String} {t : Int} (h : v.type? name = some t) :
    v.IsType t := by
  obtain ⟨rfl, -⟩ | ⟨token, bound, -⟩ := isTokenType_of_type? h
  · exact .inl rfl
  · refine .inr ⟨token, ?_⟩
    rw [tokenNames, List.length_cons, ← size_eq] at bound
    omega

/-- A known type is that of the name by which it is shown. -/
theorem type?_of_isType {v : Vocabulary} {t : Int} (known : v.IsType t) :
    ∃ name, v.displayName? t = some name ∧ v.type? name = some t := by
  obtain rfl | ⟨token, bound⟩ := known
  · exact ⟨eofName, rfl, type?_eofName v⟩
  · obtain ⟨name, h⟩ := exists_displayName? (by omega) bound
    exact ⟨name, h, (type?_eq_some_iff token).mpr h⟩

end Vocabulary

namespace LookaheadSet

/-- The types of a set are the one increasing list with its members. -/
theorem types_ofList_eq_iff {types list : List Int} :
    (ofList types).types = list ↔ list.Pairwise (· < ·) ∧ ∀ t, t ∈ list ↔ t ∈ types := by
  constructor
  · rintro rfl
    exact ⟨(ofList types).sorted, fun t => mem_ofList⟩
  · rintro ⟨increasing, members⟩
    refine (ofList types).sorted.eq_of_mem_iff increasing fun t => ?_
    rw [mem_ofList, members]

theorem ext_types {s s' : LookaheadSet} (h : s.types = s'.types) : s = s' := by
  cases s
  cases h
  rfl

theorem ofList_types (s : LookaheadSet) : ofList s.types = s :=
  ext_types (types_ofList_eq_iff.mpr ⟨s.sorted, fun _ => Iff.rfl⟩)

theorem ofList_eq_iff {types more : List Int} :
    ofList types = ofList more ↔ ∀ t, t ∈ types ↔ t ∈ more := by
  constructor
  · intro same t
    rw [← mem_ofList, same, mem_ofList]
  · intro members
    refine ext_types (types_ofList_eq_iff.mpr ⟨(ofList more).sorted, fun t => ?_⟩)
    rw [mem_ofList, members]

variable {v : Vocabulary} {names : List String}

theorem ofNames?_of_known (known : ∀ name ∈ names, (v.type? name).isSome) :
    ofNames? v names = some (ofList (names.filterMap v.type?)) := by
  rw [ofNames?, mapM_eq_filterMap, if_pos (List.all_eq_true.mpr known), Option.map_some]

theorem ofNames?_of_unknown (unknown : ¬∀ name ∈ names, (v.type? name).isSome) :
    ofNames? v names = none := by
  rw [ofNames?, mapM_eq_filterMap, if_neg fun known => unknown (List.all_eq_true.mp known),
    Option.map_none]

theorem isSome_ofNames?_iff :
    (ofNames? v names).isSome ↔ ∀ name ∈ names, (v.type? name).isSome := by
  by_cases known : ∀ name ∈ names, (v.type? name).isSome
  · simp only [ofNames?_of_known known, Option.isSome_some, true_iff]
    exact known
  · simp only [ofNames?_of_unknown known, Option.isSome_none, Bool.false_eq_true, false_iff]
    exact known

theorem mem_of_ofNames? {set : LookaheadSet} (h : ofNames? v names = some set) (t : Int) :
    t ∈ set.types ↔ ∃ name ∈ names, v.type? name = some t := by
  have known := isSome_ofNames?_iff.mp (Option.isSome_of_eq_some h)
  rw [ofNames?_of_known known] at h
  rw [← Option.some.inj h, mem_ofList, List.mem_filterMap]

theorem ofNames?_congr {more : List String} (members : ∀ name, name ∈ names ↔ name ∈ more) :
    ofNames? v names = ofNames? v more := by
  by_cases known : ∀ name ∈ names, (v.type? name).isSome
  · have others : ∀ name ∈ more, (v.type? name).isSome := fun name h =>
      known name ((members name).mpr h)
    rw [ofNames?_of_known known, ofNames?_of_known others, Option.some.injEq, ofList_eq_iff]
    intro t
    simp only [List.mem_filterMap, members]
  · rw [ofNames?_of_unknown known, ofNames?_of_unknown]
    exact fun others => known fun name h => others name ((members name).mp h)

/-- The names of a set stand for it exactly if all its types are known. Any other type is shown as
something that is no name of it. -/
theorem ofNames?_tokenNames_iff {set : LookaheadSet} :
    ofNames? v (set.tokenNames v) = some set ↔ ∀ t ∈ set.types, v.IsType t := by
  constructor
  · intro h t ht
    obtain ⟨name, -, htype⟩ := (mem_of_ofNames? h t).mp ht
    exact Vocabulary.isType_of_type? htype
  · intro known
    have resolved : ∀ t ∈ set.types, v.type? ((v.displayName? t).getD (toString t)) = some t := by
      intro t ht
      obtain ⟨name, shown, htype⟩ := Vocabulary.type?_of_isType (known t ht)
      rw [shown, Option.getD_some, htype]
    have types : (set.tokenNames v).filterMap v.type? = set.types := by
      rw [tokenNames, List.filterMap_map]
      exact (List.filterMap_congr resolved).trans List.filterMap_some
    rw [ofNames?_of_known, types, ofList_types]
    intro name h
    obtain ⟨t, ht, rfl⟩ := List.mem_map.mp h
    exact Option.isSome_of_eq_some (resolved t ht)

/-- Sets of types are told apart by their members alone. What a list of types is made into is the
one increasing list of its members. A list of names is made into the set of their types as long as
each has one, in whatever order and how often they stand there, and the names of a set are made into
that set again exactly if the vocabulary has all its types; type 0, which has a name but belongs to
no token, is none of them. -/
theorem sets_of_members :
    (∀ types list, (ofList types).types = list ↔
      list.Pairwise (· < ·) ∧ ∀ t, t ∈ list ↔ t ∈ types) ∧
    (∀ types more, ofList types = ofList more ↔ ∀ t, t ∈ types ↔ t ∈ more) ∧
    ∀ v : Vocabulary,
      (∀ names, (ofNames? v names).isSome ↔ ∀ name ∈ names, (v.type? name).isSome) ∧
      (∀ names set, ofNames? v names = some set →
        ∀ t, t ∈ set.types ↔ ∃ name ∈ names, v.type? name = some t) ∧
      (∀ names more, (∀ name, name ∈ names ↔ name ∈ more) →
        ofNames? v names = ofNames? v more) ∧
      ∀ set, ofNames? v (set.tokenNames v) = some set ↔ ∀ t ∈ set.types, v.IsType t := by
  refine ⟨fun _ _ => types_ofList_eq_iff, fun _ _ => ofList_eq_iff, fun v => ⟨?_, ?_, ?_, ?_⟩⟩
  · exact fun names => isSome_ofNames?_iff
  · exact fun names set => mem_of_ofNames?
  · exact fun names more => ofNames?_congr
  · exact fun set => ofNames?_tokenNames_iff

/-- Two tokens and the end of input. -/
def idAndInt : Vocabulary :=
  .defineAll .empty ["ID", "EOF", "INT", "ID"]

/-- The names in another order and repeated make the same set, whose names make it again. The one
with type 0 is shown by a name that belongs to no token. -/
theorem sets_of_members_idAndInt :
    ofNames? idAndInt ["INT", "EOF", "ID", "INT"] = ofNames? idAndInt ["EOF", "ID", "INT"] ∧
      ofNames? idAndInt ["EOF", "ID", "INT"] = some (ofList [2, 1, -1, 2]) ∧
      (ofList [2, 1, -1, 2]).types = [-1, 1, 2] ∧
      ofNames? idAndInt ((ofList [2, -1]).tokenNames idAndInt) = some (ofList [2, -1]) ∧
      (ofList [0]).tokenNames idAndInt = ["<INVALID>"] ∧
      ofNames? idAndInt ((ofList [0]).tokenNames idAndInt) ≠ some (ofList [0]) := by
  obtain ⟨form, -, named⟩ := sets_of_members
  obtain ⟨-, -, reordered, again⟩ := named idAndInt
  refine ⟨reordered _ _ (by simp [or_comm, or_left_comm]), by decide, (form _ _).mpr ?_,
    (again _).mpr (by decide), rfl, ?_⟩
  · refine ⟨by decide, fun t => ?_⟩
    simp only [List.mem_cons, List.not_mem_nil, or_false]
    omega
  · rw [Ne, again]
    decide

end LookaheadSet

end RecognizerModel
