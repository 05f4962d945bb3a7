import RecognizerModel.Proofs.TokenNames

/-! The numbers of token types. Names are numbered from 1 in the order in which they are defined
first, a number is never given again, and names, types and the table of token names stay three views
of one list. -/
namespace RecognizerModel

namespace Vocabulary

@[simp] theorem type?_eofName (v : Vocabulary) : v.type? eofName = some eofType :=
  if_pos rfl

theorem size_eq (v : Vocabulary) : v.size = v.names.length :=
  (List.length_map Prod.fst).symm

@[simp] theorem displayName?_eofType (v : Vocabulary) : v.displayName? eofType = some eofName :=
  rfl

theorem displayName?_natCast_add_one (v : Vocabulary) (t : Nat) :
    v.displayName? (t + 1) = v.names[t]? :=
  List.getElem?_map.symm

/-- Type and place are one apart: type 0 is no name's. -/
theorem type?_eq_some_add_one_iff {v : Vocabulary} {name : String} {t : Nat} :
    v.type? name = some (t + 1 : Int) ↔ v.names[t]? = some name := by
  rw [type?_eq]
  constructor
  · intro h
    split at h
    · have same := Option.some.inj h
      unfold eofType at same
      omega
    · split at h
      · next known =>
        have place : v.names.idxOf name = t := by
          have same := Option.some.inj h
          omega
        have bound := List.idxOf_lt_length_iff.mpr known
        rw [← place, List.getElem?_eq_getElem bound, List.getElem_idxOf]
      · cases h
  · intro h
    obtain ⟨bound, rfl⟩ := List.getElem?_eq_some_iff.mp h
    have known := List.getElem_mem bound
    have other : v.names[t] ≠ eofName := ne_of_mem_of_not_mem known v.eof_not_mem
    have place : v.names.idxOf v.names[t] = t := List.Nodup.idxOf_getElem v.nodup t bound
    rw [if_neg other, if_pos known, place]

theorem type?_eq_some_iff {v : Vocabulary} {name : String} {t : Int} (token : 1 ≤ t) :
    v.type? name = some t ↔ v.displayName? t = some name := by
  obtain ⟨place, rfl⟩ : ∃ place : Nat, t = place + 1 := ⟨(t - 1).toNat, by omega⟩
  rw [displayName?_natCast_add_one]
  exact type?_eq_some_add_one_iff

theorem tokenNames_getElem? (v : Vocabulary) (t : Nat) : v.tokenNames[t]? = v.displayName? t := by
  cases t with
  | zero => rfl
  | succ t => exact List.getElem?_cons_succ.trans (displayName?_natCast_add_one v t).symm

theorem displayName?_eq_none_iff {v : Vocabulary} {t : Int} :
    v.displayName? t = none ↔ t < -1 ∨ v.size < t := by
  match t with
  | .negSucc 0 => simp [displayName?]
  | .negSucc (t + 1) => simp [displayName?]; omega
  | .ofNat 0 => simp [displayName?]
  | .ofNat (t + 1) => simp [displayName?, size]; omega

theorem exists_displayName? {v : Vocabulary} {t : Int} (low : -1 ≤ t) (high : t ≤ v.size) :
    ∃ name, v.displayName? t = some name := by
  apply Option.ne_none_iff_exists'.mp
  rw [Ne, displayName?_eq_none_iff]
  omega

/-- Names that are defined later come behind. -/
theorem names_prefix_defineAll (v : Vocabulary) (later : List String) :
    v.names <+: (v.defineAll later).names := by
  induction later generalizing v with
  | nil => exact List.prefix_rfl
  | cons name rest ih =>
      refine List.IsPrefix.trans ?_ (ih (v.define name).2)
      rw [names_define]
      split
      · exact List.prefix_rfl
      · exact List.prefix_append _ _

/-- A type stays that of its name whatever is defined later. -/
theorem type?_defineAll {v : Vocabulary} {name : String} {t : Nat} (h : v.names[t]? = some name)
    (later : List String) : (v.defineAll later).type? name = some (t + 1 : Int) := by
  obtain ⟨more, split⟩ := names_prefix_defineAll v later
  obtain ⟨bound, -⟩ := List.getElem?_eq_some_iff.mp h
  rw [type?_eq_some_add_one_iff, ← split, List.getElem?_append_left bound, h]

/-- Below the largest word of 32 bits there is room to count on. -/
theorem toInt_ofNat_add_one {k : Nat} (h : k < Int32.maxValue.toInt) :
    (Int32.ofNat k + 1).toInt = k + 1 := by
  rw [Int32.toInt_maxValue] at h
  have next : Int32.ofNat k + 1 = Int32.ofNat (k + 1) := (Int32.ofNat_add k 1).symm
  rw [next, Int32.toInt_ofNat_of_lt (by omega), Int.natCast_add_one]

/-- Whether a vocabulary numbers the names that were defined, one after the other. -/
structure Numbers (v : Vocabulary) (names : List String) : Prop where
  eof_not_mem : eofName ∉ v.names
  eof : v.type? eofName = some (-1)
  /-- What a definition answers is the type that the name has from then on. -/
  defines : ∀ name, (v.define name).2.type? name = some (v.define name).1
  size : v.size = (defined names).length
  /-- The first name has type 1, and a name keeps its type. -/
  types : ∀ (k : Nat) name, (defined names)[k]? = some name →
    ∀ later, (v.defineAll later).type? name = some (k + 1 : Int)
  /-- Counting in words of 32 bits comes to the same. -/
  words : ∀ (k : Nat) name, (defined names)[k]? = some name →
    v.type? name = some (Int32.ofNat k + 1).toInt
  inverse : ∀ t : Int, 1 ≤ t → ∀ name, v.type? name = some t ↔ v.displayName? t = some name
  length_tokenNames : v.tokenNames.length = v.size + 1
  tokenNames : ∀ t : Nat, t ≤ v.size →
    ∃ name, v.tokenNames[t]? = some name ∧ v.displayName? t = some name
  nameless : ∀ t, v.displayName? t = none ↔ t < -1 ∨ v.size < t

/-- Names are numbered as long as there are fewer than there are types in 32 bits. -/
theorem numbers_of_defined {names : List String}
    (few : (defined names).length < Int32.maxValue.toInt) :
    (empty.defineAll names).Numbers names := by
  have stored := names_defineAll names
  constructor
  case eof_not_mem => exact (empty.defineAll names).eof_not_mem
  case eof => exact type?_eofName _
  case defines => exact type?_define _
  case size => rw [size_eq, stored]
  case types => exact fun k name h => type?_defineAll (stored ▸ h)
  case words =>
    intro k name h
    obtain ⟨bound, -⟩ := List.getElem?_eq_some_iff.mp h
    rw [toInt_ofNat_add_one (by omega)]
    exact type?_eq_some_add_one_iff.mpr (stored ▸ h)
  case inverse => exact fun t token name => type?_eq_some_iff token
  case length_tokenNames => rw [Vocabulary.tokenNames, List.length_cons, size_eq]
  case tokenNames =>
    intro t bound
    rw [tokenNames_getElem?]
    obtain ⟨name, h⟩ := exists_displayName? (by omega : -1 ≤ (t : Int)) (Int.ofNat_le.mpr bound)
    exact ⟨name, h, h⟩
  case nameless => exact fun t => displayName?_eq_none_iff

/-- The end of input between the names, a name twice, and one like that of type 0. -/
theorem numbers_of_defined_repeated :
    (defined ["A", "EOF", "<INVALID>", "A", "B"]).length < Int32.maxValue.toInt ∧
      (empty.defineAll ["A", "EOF", "<INVALID>", "A", "B"]).Numbers
        ["A", "EOF", "<INVALID>", "A", "B"] ∧
      (empty.defineAll ["A", "EOF", "<INVALID>", "A", "B"]).tokenNames =
        ["<INVALID>", "A", "<INVALID>", "B"] ∧
      (empty.defineAll ["A", "EOF", "<INVALID>", "A", "B"]).type? "<INVALID>" = some 2 :=
  ⟨by decide, numbers_of_defined (by decide), by decide, by decide⟩

end Vocabulary

end RecognizerModel
