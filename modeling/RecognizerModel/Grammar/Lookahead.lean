import RecognizerModel.Grammar.Vocabulary

/-! Sets of token types, kept in increasing order. -/
namespace RecognizerModel

structure LookaheadSet where
  types : List Int
  sorted : types.Pairwise (· < ·)
deriving DecidableEq

namespace LookaheadSet

/-- Puts a type into its place in an increasing list, unless it is there. -/
def insertType (t : Int) : List Int → List Int
  | [] => [t]
  | u :: rest =>
    if t < u then t :: u :: rest
    else if t = u then u :: rest
    else u :: insertType t rest

@[simp] theorem mem_insertType {t a : Int} {l : List Int} :
    a ∈ insertType t l ↔ a = t ∨ a ∈ l := by
  induction l with
  | nil => simp [insertType]
  | cons u rest ih =>
    unfold insertType
    split
    · simp
    · split
      · next h => subst h; simp
      · simp only [List.mem_cons, ih]
        exact or_left_comm

theorem pairwise_insertType {t : Int} {l : List Int} (h : l.Pairwise (· < ·)) :
    (insertType t l).Pairwise (· < ·) := by
  induction l with
  | nil => simp [insertType]
  | cons u rest ih =>
    obtain ⟨hu, hrest⟩ := List.pairwise_cons.mp h
    unfold insertType
    split
    · next htu =>
      refine List.pairwise_cons.mpr ⟨fun a ha => ?_, h⟩
      rcases List.mem_cons.mp ha with rfl | ha
      · exact htu
      · exact Int.lt_trans htu (hu a ha)
    · split
      · exact h
      · refine List.pairwise_cons.mpr ⟨fun a ha => ?_, ih hrest⟩
        rcases mem_insertType.mp ha with rfl | ha
        · omega
        · exact hu a ha

def empty : LookaheadSet :=
  ⟨[], .nil⟩

instance : Inhabited LookaheadSet := ⟨empty⟩

def insert (t : Int) (s : LookaheadSet) : LookaheadSet :=
  ⟨insertType t s.types, pairwise_insertType s.sorted⟩

def ofList (types : List Int) : LookaheadSet :=
  types.foldr insert empty

theorem mem_ofList {t : Int} {types : List Int} : t ∈ (ofList types).types ↔ t ∈ types := by
  induction types with
  | nil => simp [ofList, empty]
  | cons u rest ih => simp [ofList, insert] at ih ⊢; rw [ih]

/-- The set of the named tokens, unless one of the names is unknown. -/
def ofNames? (v : Vocabulary) (names : List String) : Option LookaheadSet :=
  (names.mapM v.type?).map ofList

/-- The names of the types in order. A type without a name is shown as its number. -/
def tokenNames (s : LookaheadSet) (v : Vocabulary) : List String :=
  s.types.map fun t => (v.displayName? t).getD (toString t)

end LookaheadSet

end RecognizerModel
