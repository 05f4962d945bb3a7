import RecognizerModel.Proofs.SurroundingBlanks

/-! The lexemes of a text tile it, so that no character is lost or read twice. A text that ends
where a lexeme ends has the same lexemes up to there, whatever stands behind it. -/
namespace RecognizerModel.Lexeme

theorem quoted_isPrefix (cs : List Char) : (quoted cs).1 <+: cs := by
  fun_induction quoted cs with
  | case1 => simp
  | case2 rest => exact ⟨'\n' :: rest, rfl⟩
  | case3 c rest other body closed inside ih =>
    rw [inside] at ih
    simpa using ih
  | case4 => simp
  | case5 c rest _ _ other body closed inside ih =>
    rw [inside] at ih
    simpa using ih

theorem balanced_isPrefix {depth : Nat} {cs body : List Char}
    (h : balanced depth cs = some body) : body <+: cs := by
  fun_induction balanced depth cs generalizing body with
  | case1 => cases h
  | case3 =>
    cases h
    simp
  | case2 _ _ ih | case4 _ _ _ ih | case5 _ _ _ _ _ ih =>
    obtain ⟨inside, hinside, rfl⟩ := Option.map_eq_some_iff.mp h
    simpa using ih hinside

theorem questionMark_isPrefix (cs : List Char) : questionMark cs <+: cs := by
  cases cs with
  | nil => simp [questionMark]
  | cons c rest =>
    by_cases mark : c = '?'
    · simp [questionMark, mark]
    · simp [questionMark, mark]

theorem takeWhile_bracket_isPrefix {cs : List Char}
    (closed : (cs.takeWhile (· != ']')).length < cs.length) :
    cs.takeWhile (· != ']') ++ [']'] <+: cs := by
  induction cs with
  | nil => simp at closed
  | cons c rest ih =>
    by_cases bracket : c = ']'
    · simp [bracket]
    · simp only [List.takeWhile_cons, bne_iff_ne, ne_eq, bracket, not_false_eq_true, if_true,
        List.length_cons, Nat.add_lt_add_iff_right] at closed ⊢
      simpa using ih closed

/-- A lexeme is read at the front of the text. -/
theorem first_isPrefix (c : Char) (rest : List Char) : (first c rest).text <+: c :: rest := by
  have stretch (p : Char → Bool) : c :: rest.takeWhile p <+: c :: rest := by
    simpa using List.takeWhile_prefix p
  have one : [c] <+: c :: rest := by simp
  unfold first
  split
  · exact one
  split
  · exact one
  split
  · exact stretch _
  split
  · exact stretch _
  split
  · simpa using quoted_isPrefix rest
  split
  · split
    · next body hbody =>
      obtain ⟨behind, rfl⟩ := balanced_isPrefix hbody
      have mark := questionMark_isPrefix behind
      simpa [List.prefix_append_right_inj] using mark
    · exact one
  split
  · dsimp only
    split
    · next closed => simpa using takeWhile_bracket_isPrefix closed
    · exact stretch _
  split
  · exact stretch _
  · exact one

theorem first_ne_nil (c : Char) (rest : List Char) : (first c rest).text ≠ [] := by
  unfold first
  grind

theorem ne_nil_of_mem_scan {pending : Nat} {cs : List Char} :
    ∀ l ∈ scan pending cs, l.text ≠ [] := by
  induction cs generalizing pending with
  | nil => nofun
  | cons c rest ih =>
    cases pending with
    | succ pending => exact ih
    | zero => exact List.forall_mem_cons.mpr ⟨first_ne_nil c rest, ih⟩

theorem flatMap_scan (pending : Nat) (cs : List Char) :
    (scan pending cs).flatMap text = cs.drop pending := by
  induction cs generalizing pending with
  | nil => simp [scan]
  | cons c rest ih =>
    cases pending with
    | succ pending => exact ih pending
    | zero =>
      have positive := List.length_pos_iff.mpr (first_ne_nil c rest)
      obtain ⟨length, hlength⟩ := Nat.exists_eq_succ_of_ne_zero (Nat.ne_of_gt positive)
      have tiled := List.prefix_iff_eq_append.mp (first_isPrefix c rest)
      rw [hlength, List.drop_succ_cons] at tiled
      rw [scan, List.flatMap_cons, ih, hlength, Nat.succ_sub_one, tiled, List.drop_zero]

theorem joined_of_known {lexemes : List Lexeme} (known : ∀ l ∈ lexemes, l.kind ≠ .error) :
    lexemes.foldr join [] = lexemes := by
  induction lexemes with
  | nil => rfl
  | cons lexeme rest ih =>
    obtain ⟨here, others⟩ := List.forall_mem_cons.mp known
    rw [List.foldr_cons, ih others]
    cases rest with
    | nil => rfl
    | cons next rest => simp [join, here]

theorem tokenize_of_known {source : String} (h : ∀ l ∈ scan 0 source.toList, l.kind ≠ .error) :
    tokenize source = place 0 (scan 0 source.toList) := by
  rw [tokenize, joined_of_known h]

section

variable {rest trail : List Char}

theorem takeWhile_of_append {p : Char → Bool}
    (within : ((rest ++ trail).takeWhile p).length ≤ rest.length) :
    rest.takeWhile p = (rest ++ trail).takeWhile p := by
  rw [List.takeWhile_append] at within ⊢
  split
  · next whole =>
    rw [if_pos whole, List.length_append] at within
    have none : (trail.takeWhile p).length = 0 := by omega
    rw [List.length_eq_zero_iff.mp none, List.append_nil]
    exact (List.takeWhile_prefix p).eq_of_length whole
  · rfl

/-- What is read of a text is read of any part of the text that goes on to where that ends. -/
theorem isPrefix_of_append {body : List Char} (h : body <+: rest ++ trail)
    (within : body.length ≤ rest.length) : ∃ behind, rest = body ++ behind := by
  have front := List.prefix_append rest trail
  obtain ⟨behind, same⟩ := List.prefix_of_prefix_length_le h front within
  exact ⟨behind, same.symm⟩

/-- A closed literal ends at the quote that closes it. -/
theorem quoted_self {cs body : List Char} (h : quoted cs = (body, true)) :
    quoted body = (body, true) := by
  fun_induction quoted cs generalizing body with
  | case1 | case2 => cases h
  | case3 c rest other inner closed inside ih =>
    obtain ⟨rfl, rfl⟩ := Prod.mk.inj h
    rw [quoted, ih inside]
    exact other
  | case4 =>
    obtain ⟨rfl, -⟩ := Prod.mk.inj h
    simp [quoted]
  | case5 c rest _ noEscape other inner closed inside ih =>
    obtain ⟨rfl, rfl⟩ := Prod.mk.inj h
    have plain : c ≠ '\\' := by
      rintro rfl
      cases rest with
      | nil => cases inside
      | cons d rest => exact noEscape d rest rfl rfl
    rw [quoted, if_neg other, ih inside]
    all_goals simp [plain]

theorem quoted_of_append {body : List Char} (h : quoted (rest ++ trail) = (body, true))
    (within : body.length ≤ rest.length) : quoted rest = (body, true) := by
  have front := quoted_isPrefix (rest ++ trail)
  rw [h] at front
  obtain ⟨behind, rfl⟩ := isPrefix_of_append front within
  exact quoted_append (quoted_self h)

/-- Balanced code ends at the brace that closes it. -/
theorem balanced_self {depth : Nat} {cs body : List Char} (h : balanced depth cs = some body) :
    balanced depth body = some body := by
  fun_induction balanced depth cs generalizing body with
  | case1 => cases h
  | case3 =>
    cases h
    simp [balanced]
  | case2 depth rest ih | case4 rest depth _ ih =>
    obtain ⟨inside, hinside, rfl⟩ := Option.map_eq_some_iff.mp h
    simp [balanced, ih hinside]
  | case5 depth c rest opens closes ih =>
    obtain ⟨inside, hinside, rfl⟩ := Option.map_eq_some_iff.mp h
    simp [balanced, opens, closes, ih hinside]

theorem balanced_of_append {depth : Nat} {body : List Char}
    (h : balanced depth (rest ++ trail) = some body) (within : body.length ≤ rest.length) :
    balanced depth rest = some body := by
  obtain ⟨behind, rfl⟩ := isPrefix_of_append (balanced_isPrefix h) within
  exact balanced_append (balanced_self h)

theorem questionMark_of_append (within : (questionMark (rest ++ trail)).length ≤ rest.length) :
    questionMark rest = questionMark (rest ++ trail) := by
  cases rest with
  | nil =>
    have none : (questionMark ([] ++ trail)).length = 0 := Nat.le_zero.mp within
    rw [List.length_eq_zero_iff.mp none]
    rfl
  | cons c rest => simp [questionMark]

/-- A lexeme that ends within a text is read there without what stands behind. -/
theorem first_of_append {c : Char} (known : (first c (rest ++ trail)).kind ≠ .error)
    (within : (first c (rest ++ trail)).text.length ≤ rest.length + 1) :
    first c rest = first c (rest ++ trail) := by
  -- the branches in turn, as far as they look at what follows the first character
  unfold first at known within ⊢
  by_cases opens : c = '('
  · simp only [if_pos opens]
  by_cases closes : c = ')'
  · simp only [if_neg opens, if_pos closes]
  simp only [if_neg opens, if_neg closes] at known within ⊢
  by_cases space : isSpace c = true
  · simp only [if_pos space, List.length_cons, Nat.add_le_add_iff_right] at within ⊢
    rw [takeWhile_of_append within]
  simp only [if_neg space] at known within ⊢
  by_cases start : isWordStart c = true
  · simp only [if_pos start, List.length_cons, Nat.add_le_add_iff_right] at within ⊢
    rw [takeWhile_of_append within]
  simp only [if_neg start] at known within ⊢
  by_cases quote : c = '\''
  · simp only [if_pos quote, List.length_cons, Nat.add_le_add_iff_right] at known within ⊢
    rcases hquoted : quoted (rest ++ trail) with ⟨body, _ | _⟩
    · simp [hquoted] at known
    · rw [hquoted] at within
      rw [quoted_of_append hquoted within]
  simp only [if_neg quote] at known within ⊢
  by_cases brace : c = '{'
  · simp only [if_pos brace] at known within ⊢
    cases hbody : balanced 0 (rest ++ trail) with
    | none => simp [hbody] at known
    | some body =>
      simp only [hbody, List.length_cons, List.length_append, Nat.add_le_add_iff_right] at within
      obtain ⟨behind, rfl⟩ := isPrefix_of_append (balanced_isPrefix hbody) (by omega)
      have mark := within
      rw [balanced_of_append hbody (by simp)]
      simp only [List.append_assoc, List.drop_left, List.length_append, Nat.add_le_add_iff_left]
        at mark ⊢
      rw [questionMark_of_append mark]
  simp only [if_neg brace] at known within ⊢
  by_cases bracket : c = '['
  · simp only [if_pos bracket] at known within ⊢
    have closed := Decidable.not_not.mp fun unclosed => known (by rw [if_neg unclosed])
    rw [if_pos closed] at within ⊢
    have shorter : ((rest ++ trail).takeWhile (· != ']')).length < rest.length := by
      simp only [List.length_cons, List.length_append] at within
      omega
    rw [takeWhile_of_append (Nat.le_of_lt shorter), if_pos shorter]
  simp only [if_neg bracket] at known within ⊢
  by_cases decision : c = '@'
  · simp only [if_pos decision, List.length_cons, Nat.add_le_add_iff_right] at within ⊢
    rw [takeWhile_of_append within]
  · simp only [if_neg decision]

end

/-- A text that ends where a lexeme ends has the lexemes up to there. -/
theorem scan_of_append {pending : Nat} {cs trail : List Char} {lexemes others : List Lexeme}
    (h : scan pending (cs ++ trail) = lexemes ++ others)
    (ends : lexemes.flatMap text = cs.drop pending) (within : pending ≤ cs.length)
    (known : ∀ l ∈ lexemes, l.kind ≠ .error) : scan pending cs = lexemes := by
  induction cs generalizing pending lexemes with
  | nil =>
    cases lexemes with
    | nil => rfl
    | cons l lexemes =>
      have nonempty := ne_nil_of_mem_scan l (h ▸ List.mem_append_left _ (List.mem_cons_self ..))
      simp [nonempty] at ends
  | cons c rest ih =>
    cases pending with
    | succ pending => exact ih h ends (Nat.le_of_succ_le_succ within) known
    | zero =>
      rw [List.cons_append, scan] at h
      cases lexemes with
      | nil => simp at ends
      | cons l lexemes =>
        obtain ⟨rfl, hothers⟩ := List.cons.inj h
        obtain ⟨here, later⟩ := List.forall_mem_cons.mp known
        rw [List.flatMap_cons, List.drop_zero] at ends
        have length : (first c (rest ++ trail)).text.length ≤ rest.length + 1 := by
          rw [← List.length_cons, ← ends, List.length_append]
          exact Nat.le_add_right _ _
        have same := first_of_append here length
        have positive : 0 < (first c (rest ++ trail)).text.length :=
          List.length_pos_iff.mpr (first_ne_nil _ _)
        have behind : lexemes.flatMap text =
            rest.drop ((first c (rest ++ trail)).text.length - 1) := by
          rw [← List.drop_succ_cons, Nat.sub_add_cancel positive, ← ends, List.drop_left]
        rw [scan, same, ih hothers behind (by omega) later]

end RecognizerModel.Lexeme
