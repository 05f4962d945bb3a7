import Mathlib.Data.List.DropRight
import RecognizerModel.Text.Blank
import RecognizerModel.Text.Pieces

/-! Parts of a text: the pieces between the places where it is cut, and what is left of it without
the blanks at its ends. -/
namespace RecognizerModel

namespace Text

theorem pieces_eq_splitOn (cut : Char) (cs : List Char) : pieces cut cs = cs.splitOn cut := by
  induction cs with
  | nil => rfl
  | cons c rest ih =>
      rw [pieces, List.splitOn_eq_splitOnP, List.splitOnP_cons_eq_if_modifyHead,
        ← List.splitOn_eq_splitOnP, ← ih]
      by_cases here : c = cut
      · simp [here]
      · cases inside : pieces cut rest with
        | nil => exact absurd inside (pieces_ne_nil cut rest)
        | cons piece others => simp [here]

theorem not_mem_of_mem_pieces {cut : Char} {cs piece : List Char} (h : piece ∈ pieces cut cs) :
    cut ∉ piece := by
  induction cs generalizing piece with
  | nil =>
      rw [pieces, List.mem_singleton] at h
      simp [h]
  | cons c rest ih =>
      unfold pieces at h
      split at h
      · rcases List.mem_cons.mp h with rfl | h
        · exact List.not_mem_nil
        · exact ih h
      · next other =>
        split at h
        · next first others inside =>
          rw [inside] at ih
          rcases List.mem_cons.mp h with rfl | h
          · rw [List.mem_cons, not_or]
            exact ⟨Ne.symm other, ih (List.mem_cons_self ..)⟩
          · exact ih (List.mem_cons_of_mem _ h)
        · next inside => exact absurd inside (pieces_ne_nil cut rest)

/-- Whether a text neither starts nor ends with a blank. -/
structure IsTrimmed (cs : List Char) : Prop where
  head : ∀ c ∈ cs.head?, isBlank c = false
  last : ∀ c ∈ cs.getLast?, isBlank c = false

theorem last_rdropWhile {p : Char → Bool} {cs : List Char} :
    ∀ c ∈ (cs.rdropWhile p).getLast?, p c = false := by
  intro c h
  obtain ⟨ne, rfl⟩ := List.mem_getLast?_eq_getLast h
  simpa using List.rdropWhile_last_not p cs ne

theorem dropWhile_of_head {cs : List Char} (head : ∀ c ∈ cs.head?, isBlank c = false) :
    cs.dropWhile isBlank = cs := by
  cases cs with
  | nil => rfl
  | cons c rest => rw [List.dropWhile_cons, head c rfl, if_neg Bool.false_ne_true]

theorem dropBlanksRight_append {body trail : List Char}
    (last : ∀ c ∈ body.getLast?, isBlank c = false) (blank : ∀ c ∈ trail, isBlank c = true) :
    dropBlanksRight (body ++ trail) = body := by
  have turned : ∀ c ∈ trail.reverse, isBlank c = true := fun c h => blank c (List.mem_reverse.mp h)
  rw [← List.head?_reverse] at last
  rw [dropBlanksRight, List.reverse_append, List.dropWhile_append_of_pos turned,
    dropWhile_of_head last, List.reverse_reverse]

theorem trimChars_append {lead body trail : List Char} (before : ∀ c ∈ lead, isBlank c = true)
    (trimmed : IsTrimmed body) (behind : ∀ c ∈ trail, isBlank c = true) :
    trimChars (lead ++ (body ++ trail)) = body := by
  rw [trimChars, List.dropWhile_append_of_pos before]
  cases body with
  | nil =>
      rw [List.nil_append, List.dropWhile_eq_nil_iff.mpr behind]
      rfl
  | cons c rest =>
      have head : ∀ d ∈ (c :: rest ++ trail).head?, isBlank d = false := trimmed.head
      rw [dropWhile_of_head head]
      exact dropBlanksRight_append trimmed.last behind

theorem isTrimmed_dropBlanksRight {cs : List Char} (ne : cs ≠ [])
    (head : ∀ c ∈ cs.head?, isBlank c = false) :
    dropBlanksRight cs ≠ [] ∧ IsTrimmed (dropBlanksRight cs) := by
  have some : dropBlanksRight cs ≠ [] := by
    intro none
    have blank := List.rdropWhile_eq_nil_iff.mp none _ (List.head_mem ne)
    rw [head _ (List.head?_eq_some_head ne)] at blank
    cases blank
  obtain ⟨trail, split⟩ : dropBlanksRight cs <+: cs := List.rdropWhile_prefix isBlank cs
  refine ⟨some, fun c h => head c ?_, last_rdropWhile⟩
  rwa [← split, List.head?_append_of_ne_nil _ some]

theorem head_dropWhile (cs : List Char) :
    ∀ c ∈ (cs.dropWhile isBlank).head?, isBlank c = false := by
  intro c h
  have first := cs.head?_dropWhile_not isBlank
  rwa [Option.mem_def.mp h] at first

theorem isTrimmed_trimChars (cs : List Char) : IsTrimmed (trimChars cs) := by
  by_cases blank : cs.dropWhile isBlank = []
  · rw [trimChars, blank]
    exact ⟨nofun, nofun⟩
  · exact (isTrimmed_dropBlanksRight blank (head_dropWhile cs)).2

/-- Trimming takes blanks off, as many as there are. -/
theorem exists_around_trimChars (cs : List Char) : ∃ lead trail,
    cs = lead ++ (trimChars cs ++ trail) ∧ (∀ c ∈ lead, isBlank c = true) ∧
      (∀ c ∈ trail, isBlank c = true) ∧
      (∀ c ∈ (trimChars cs ++ trail).head?, isBlank c = false) ∧
      ∀ c ∈ (trimChars cs).getLast?, isBlank c = false := by
  have behind : trimChars cs ++ (cs.dropWhile isBlank).rtakeWhile isBlank = cs.dropWhile isBlank :=
    List.rdropWhile_append_rtakeWhile
  refine ⟨cs.takeWhile isBlank, (cs.dropWhile isBlank).rtakeWhile isBlank, ?_, ?_, ?_, ?_, ?_⟩
  · rw [behind, List.takeWhile_append_dropWhile]
  · exact fun c h => List.mem_takeWhile_imp h
  · exact fun c h => List.mem_rtakeWhile_imp h
  · rw [behind]
    exact head_dropWhile cs
  · exact last_rdropWhile

theorem trim_eq_self_iff {s : String} : trim s = s ↔ IsTrimmed s.toList := by
  rw [trim, ← String.toList_inj, String.toList_ofList]
  constructor
  · intro same
    rw [← same]
    exact isTrimmed_trimChars s.toList
  · intro trimmed
    have same := trimChars_append (List.forall_mem_nil _) trimmed (List.forall_mem_nil _)
    rwa [List.nil_append, List.append_nil] at same

theorem isEmpty_trimChars (cs : List Char) : (trimChars cs).isEmpty = cs.all isBlank := by
  rw [Bool.eq_iff_iff, List.isEmpty_iff, List.all_eq_true]
  constructor
  · intro none c h
    obtain ⟨lead, trail, around, before, behind, -, -⟩ := exists_around_trimChars cs
    rw [around, none, List.nil_append] at h
    exact (List.mem_append.mp h).elim (before c) (behind c)
  · intro blank
    rw [trimChars, List.dropWhile_eq_nil_iff.mpr blank]
    rfl

end Text

end RecognizerModel
