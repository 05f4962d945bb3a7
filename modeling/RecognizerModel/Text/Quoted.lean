import RecognizerModel.Text.Blank
import RecognizerModel.Text.HiddenData
import RecognizerModel.Text.Ranges

/-!
Texts shown between quotes, on one line and with nothing in them that cannot be seen
(`isHidden_eq_false_of_mem_quoted`).
-/
namespace RecognizerModel.Text

/-- Whether a character cannot be told by looking at it: a blank other than a space, one without a
shape, or a mark that is drawn onto the character before it. -/
def isHidden (c : Char) : Bool :=
  (isBlank c && c != ' ') || inRanges otherRanges c || inRanges extendingMarkRanges c ||
    inRanges defaultIgnorableRanges c

/-- The code point in hexadecimal digits between braces. -/
def codeEscape (c : Char) : List Char :=
  '\\' :: 'u' :: '{' :: (Nat.toDigits 16 c.toNat ++ ['}'])

/-- Quotes, backslashes and hidden characters are escaped. -/
def escapeChar (c : Char) : List Char :=
  if c = '"' then ['\\', '"']
  else if c = '\\' then ['\\', '\\']
  else if c = '\n' then ['\\', 'n']
  else if c = '\r' then ['\\', 'r']
  else if c = '\t' then ['\\', 't']
  else if c = '\x00' then ['\\', '0']
  else if isHidden c then codeEscape c
  else [c]

def quoted (s : String) : String :=
  String.ofList ('"' :: (s.toList.flatMap escapeChar ++ ['"']))

private theorem exists_digitChar_of_mem_toDigits (n : Nat) :
    ∀ c ∈ Nat.toDigits 16 n, ∃ d, d < 16 ∧ c = Nat.digitChar d := by
  induction n using Nat.strongRecOn with
  | ind n ih =>
    intro c h
    by_cases hn : n < 16
    · rw [Nat.toDigits_of_lt_base hn] at h
      exact ⟨n, hn, List.mem_singleton.mp h⟩
    · rw [Nat.toDigits_of_base_le (by omega) (by omega)] at h
      rcases List.mem_append.mp h with h | h
      · exact ih (n / 16) (by omega) c h
      · exact ⟨n % 16, by omega, List.mem_singleton.mp h⟩

private theorem inRanges_eq_false (ranges : List (Nat × Nat)) (low high : Nat) (c : Char)
    (outside : ranges.all (fun r => r.2 < low || high ≤ r.1) = true)
    (h : low ≤ c.toNat ∧ c.toNat < high) : inRanges ranges c = false := by
  simp only [List.all_eq_true, Bool.or_eq_true, decide_eq_true_eq] at outside
  simp only [inRanges, List.any_eq_false, Bool.and_eq_true, decide_eq_true_eq]
  intro r hr
  have := outside r hr
  omega

theorem isHidden_eq_false_of_ascii (c : Char) (h : 0x20 ≤ c.toNat ∧ c.toNat < 0x7f) :
    isHidden c = false := by
  simp only [isHidden, Bool.or_eq_false_iff]
  refine ⟨⟨⟨?_, ?_⟩, ?_⟩, ?_⟩
  · by_cases hc : c = ' '
    · simp [hc]
    · have : c.toNat ≠ 0x20 := fun e => hc (Char.toNat_inj.mp e)
      rw [isBlank, inRanges_eq_false blankRanges 0x21 0x7f c (by decide) (by omega)]
      rfl
  · exact inRanges_eq_false _ _ _ c (by decide +kernel) h
  · exact inRanges_eq_false _ _ _ c (by decide +kernel) h
  · exact inRanges_eq_false _ _ _ c (by decide +kernel) h

private theorem ascii_digitChar :
    ∀ d, d < 16 → 0x20 ≤ (Nat.digitChar d).toNat ∧ (Nat.digitChar d).toNat < 0x7f := by
  decide

theorem isHidden_eq_false_of_mem_escapeChar (c x : Char) (h : x ∈ escapeChar c) :
    isHidden x = false := by
  have ascii : ['"', '\\', 'n', 'r', 't', '0', 'u', '{', '}'].all
      (fun x => decide (0x20 ≤ x.toNat ∧ x.toNat < 0x7f)) = true := by decide
  have plain : ∀ x ∈ ['"', '\\', 'n', 'r', 't', '0', 'u', '{', '}'], isHidden x = false :=
    fun x hx => isHidden_eq_false_of_ascii x (of_decide_eq_true (List.all_eq_true.mp ascii x hx))
  unfold escapeChar codeEscape at h
  repeat' split at h
  iterate 6
    · exact plain x (by revert h; simp +contextual [or_imp])
  · simp only [List.mem_cons, List.mem_append, List.not_mem_nil, or_false] at h
    rcases h with rfl | rfl | rfl | h | rfl
    · exact plain _ (by simp)
    · exact plain _ (by simp)
    · exact plain _ (by simp)
    · obtain ⟨d, hd, rfl⟩ := exists_digitChar_of_mem_toDigits _ _ h
      exact isHidden_eq_false_of_ascii _ (ascii_digitChar d hd)
    · exact plain _ (by simp)
  · rw [List.mem_singleton.mp h]
    exact Bool.eq_false_iff.mpr ‹_›

theorem isHidden_eq_false_of_mem_quoted (s : String) (x : Char) (h : x ∈ (quoted s).toList) :
    isHidden x = false := by
  have quote : isHidden '"' = false := isHidden_eq_false_of_ascii _ (by decide)
  simp only [quoted, String.toList_ofList, List.mem_cons, List.mem_append, List.mem_flatMap,
    List.not_mem_nil, or_false] at h
  rcases h with rfl | ⟨c, -, h⟩ | rfl
  · exact quote
  · exact isHidden_eq_false_of_mem_escapeChar c x h
  · exact quote

end RecognizerModel.Text
