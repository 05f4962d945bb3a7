import Mathlib.Data.List.Nodup

/-! The first occurrences in a list. Without repetitions a list holds what it held before, each once
and in the order in which it first appeared. -/
namespace RecognizerModel

theorem nodup_eraseDups [BEq α] [LawfulBEq α] : ∀ as : List α, as.eraseDups.Nodup
  | [] => .nil
  | a :: rest => by
      rw [List.eraseDups_cons, List.nodup_cons]
      exact ⟨by simp [List.mem_eraseDups], nodup_eraseDups _⟩
termination_by as => as.length
decreasing_by exact Nat.lt_succ_of_le (List.length_filter_le _ _)

theorem eraseDups_filter [BEq α] [LawfulBEq α] (keep : α → Bool) :
    ∀ as : List α, (as.filter keep).eraseDups = as.eraseDups.filter keep
  | [] => rfl
  | a :: as => by
      have rest := eraseDups_filter keep (as.filter fun b => !b == a)
      rw [List.eraseDups_cons, List.filter_cons, List.filter_cons, ← rest, List.filter_filter]
      by_cases kept : keep a = true
      · rw [if_pos kept, if_pos kept, List.eraseDups_cons, List.filter_filter]
        simp only [Bool.and_comm]
      · rw [if_neg kept, if_neg kept]
        refine congrArg List.eraseDups (List.filter_congr fun b _ => ?_)
        by_cases same : b = a
        · simp [same, kept]
        · simp [same]
termination_by as => as.length
decreasing_by exact Nat.lt_succ_of_le (List.length_filter_le _ _)

/-- What is put in front adds nothing exactly if the first occurrences begin with it anyway. -/
theorem eraseDups_append_eq_iff [BEq α] [LawfulBEq α] (first as : List α) :
    (first ++ as).eraseDups = as.eraseDups ↔ first.eraseDups <+: as.eraseDups := by
  rw [List.eraseDups_append]
  constructor
  · intro same
    exact ⟨_, same⟩
  · rintro ⟨rest, split⟩
    have unique : (first.eraseDups ++ rest).Nodup := split ▸ nodup_eraseDups as
    have apart (a : α) (ha : a ∈ rest) : a ∉ first := fun old =>
      (List.nodup_append.mp unique).2.2 a (List.mem_eraseDups.mpr old) a ha rfl
    have others : (as.removeAll first).eraseDups = rest := by
      rw [List.removeAll, eraseDups_filter, ← split, List.filter_append,
        List.filter_eq_nil_iff.mpr, List.filter_eq_self.mpr, List.nil_append]
      · simpa using apart
      · simp [List.mem_eraseDups]
    rw [others, split]

/-- Whether a list holds what another one holds, each once and in the order of first appearance. -/
structure ListsFirsts [BEq α] (firsts all : List α) : Prop where
  nodup : firsts.Nodup
  mem_iff : ∀ a, a ∈ firsts ↔ a ∈ all
  ordered : firsts.Pairwise fun a b => all.idxOf a < all.idxOf b

theorem pairwise_idxOf_eraseDups [BEq α] [LawfulBEq α] (as : List α) :
    as.eraseDups.Pairwise fun a b => as.idxOf a < as.idxOf b := by
  induction as with
  | nil => exact .nil
  | cons a rest ih =>
    rw [List.eraseDups_cons, eraseDups_filter, List.pairwise_cons]
    have later {b : α} (h : b ∈ rest.eraseDups.filter fun b => !b == a) :
        (a :: rest).idxOf b = rest.idxOf b + 1 := by
      apply List.idxOf_cons_ne
      rintro rfl
      simp at h
    constructor
    · intro b h
      rw [later h, List.idxOf_cons_self]
      omega
    · apply (ih.filter _).imp_of_mem
      intro b c hb hc before
      rw [later hb, later hc]
      omega

theorem listsFirsts_eraseDups [BEq α] [LawfulBEq α] (as : List α) : ListsFirsts as.eraseDups as where
  nodup := nodup_eraseDups as
  mem_iff _ := List.mem_eraseDups
  ordered := pairwise_idxOf_eraseDups as

end RecognizerModel
