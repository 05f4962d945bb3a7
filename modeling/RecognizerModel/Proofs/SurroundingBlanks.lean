import RecognizerModel.Proofs.StrippedReading
import RecognizerModel.Proofs.TextParts

/-! Blanks around a text. A grammar is read without them, and they change nothing about the tokens
in between: they only add blank and unreadable ones. -/
namespace RecognizerModel

open Text (isBlank)

theorem Text.toNat_of_isBlank {c : Char} (h : isBlank c = true) : c.toNat ≤ 32 ∨ 133 ≤ c.toNat := by
  simp only [isBlank, inRanges, blankRanges, List.any_cons, List.any_nil, Bool.or_eq_true,
    Bool.and_eq_true, decide_eq_true_eq, Bool.or_false] at h
  omega

namespace Lexeme

theorem toNat_of_isWordRest {c : Char} (h : isWordRest c = true) :
    48 ≤ c.toNat ∧ c.toNat ≤ 122 := by
  have ranges : c.isAlphanum = ((decide (65 ≤ c.val ∧ c.val ≤ 90) ||
      decide (97 ≤ c.val) && decide (c.val ≤ 122)) ||
      decide (48 ≤ c.val) && decide (c.val ≤ 57)) := rfl
  simp only [isWordRest, ranges, Bool.or_eq_true, Bool.and_eq_true, decide_eq_true_eq, beq_iff_eq,
    UInt32.le_iff_toNat_le, UInt32.reduceToNat] at h
  rcases h with h | rfl
  · have same : c.toNat = c.val.toNat := rfl
    omega
  · decide

theorem isWordRest_of_isDigit {c : Char} (h : c.isDigit = true) : isWordRest c = true := by
  simp [isWordRest, Char.isAlphanum, h]

theorem isWordRest_of_isWordStart {c : Char} (h : isWordStart c = true) : isWordRest c = true := by
  simp only [isWordStart, isWordRest, Char.isAlphanum, Bool.or_eq_true] at h ⊢
  exact h.imp .inl id

theorem isWordRest_of_isBlank {c : Char} (h : isBlank c = true) : isWordRest c = false := by
  rw [Bool.eq_false_iff]
  intro word
  have blank := Text.toNat_of_isBlank h
  have range := toNat_of_isWordRest word
  omega

theorem isBlank_of_isSpace {c : Char} (h : isSpace c = true) : isBlank c = true := by
  simp only [isSpace, Bool.or_eq_true, beq_iff_eq, or_assoc] at h
  rcases h with rfl | rfl | rfl | rfl <;> decide

theorem isSpace_of_not_isBlank {c : Char} (h : isBlank c = false) : isSpace c = false := by
  rw [Bool.eq_false_iff] at h ⊢
  exact fun space => h (isBlank_of_isSpace space)

theorem first_of_isBlank {c : Char} (rest : List Char) (h : isBlank c = true) :
    first c rest =
      if isSpace c then ⟨.whitespace, c :: rest.takeWhile isSpace⟩ else ⟨.error, [c]⟩ := by
  have ne (d : Char) (hd : isBlank d = false) : c ≠ d := by
    rintro rfl
    rw [h] at hd
    cases hd
  have noWord : isWordStart c = false := by
    rw [Bool.eq_false_iff]
    intro word
    exact Bool.eq_false_iff.mp (isWordRest_of_isBlank h) (isWordRest_of_isWordStart word)
  simp [first, noWord, ne '(' (by decide), ne ')' (by decide), ne '\'' (by decide),
    ne '{' (by decide), ne '[' (by decide), ne '@' (by decide)]

/-- Whether a lexeme is neither blank nor unreadable. -/
def isSound (lexeme : Lexeme) : Bool :=
  lexeme.kind != .whitespace && lexeme.kind != .error

theorem filter_joined (lexemes : List Lexeme) :
    (lexemes.foldr join []).filter isSound = lexemes.filter isSound := by
  induction lexemes with
  | nil => rfl
  | cons lexeme rest ih =>
      rw [List.foldr_cons, List.filter_cons, ← ih]
      cases rest.foldr join [] with
      | nil => exact List.filter_cons
      | cons next others =>
          rw [join]
          split
          · next errors =>
            simp [isSound, errors.1, errors.2]
          · exact List.filter_cons

theorem length_takeWhile_isSpace_le {lead rest : List Char}
    (ends : ∀ c ∈ rest.head?, isBlank c = false) :
    ((lead ++ rest).takeWhile isSpace).length ≤ lead.length := by
  induction lead with
  | nil =>
      cases rest with
      | nil => exact Nat.le_refl _
      | cons c rest => simp [isSpace_of_not_isBlank (ends c rfl)]
  | cons c lead ih =>
      rw [List.cons_append, List.takeWhile_cons]
      split
      · exact Nat.succ_le_succ ih
      · exact Nat.zero_le _

/-- Blanks in front of a text add nothing sound to it. -/
theorem filter_scan_blanks {lead rest : List Char} (blank : ∀ c ∈ lead, isBlank c = true)
    (ends : ∀ c ∈ rest.head?, isBlank c = false) {pending : Nat} (within : pending ≤ lead.length) :
    (scan pending (lead ++ rest)).filter isSound = (scan 0 rest).filter isSound := by
  induction lead generalizing pending with
  | nil =>
      obtain rfl := Nat.le_zero.mp within
      rfl
  | cons c lead ih =>
      obtain ⟨here, others⟩ := List.forall_mem_cons.mp blank
      cases pending with
      | succ pending => exact ih others (Nat.le_of_succ_le_succ within)
      | zero =>
          rw [List.cons_append, scan, first_of_isBlank _ here]
          split
          · exact ih others (length_takeWhile_isSpace_le ends)
          · exact ih others (Nat.zero_le _)

theorem takeWhile_append_of_stops {p : Char → Bool} {cs trail : List Char}
    (stops : cs.all p = true → ∀ c ∈ trail.head?, p c = false) :
    (cs ++ trail).takeWhile p = cs.takeWhile p := by
  induction cs with
  | nil =>
      cases trail with
      | nil => rfl
      | cons c trail => simp [stops rfl c rfl]
  | cons c cs ih =>
      rw [List.cons_append, List.takeWhile_cons, List.takeWhile_cons]
      by_cases here : p c = true
      · rw [if_pos here, if_pos here, ih fun all => stops (by simp [here, all])]
      · rw [if_neg here, if_neg here]

/-- What a quote closes stays closed. -/
theorem quoted_append {cs trail body : List Char} (h : quoted cs = (body, true)) :
    quoted (cs ++ trail) = (body, true) := by
  fun_induction quoted cs generalizing body with
  | case1 | case2 => cases h
  | case3 c rest other body' closed inside ih =>
      obtain ⟨rfl, rfl⟩ := Prod.mk.inj h
      rw [List.cons_append, List.cons_append, quoted, ih inside]
      exact other
  | case4 =>
      rw [List.cons_append, quoted, if_pos rfl]
      · exact h
      all_goals simp
  | case5 c rest _ noEscape other body' closed inside ih =>
      obtain ⟨rfl, rfl⟩ := Prod.mk.inj h
      have plain : c ≠ '\\' := by
        rintro rfl
        cases rest with
        | nil => cases inside
        | cons d rest => exact noEscape d rest rfl rfl
      rw [List.cons_append, quoted, if_neg other, ih inside]
      all_goals simp [plain]

theorem length_quoted_le (cs : List Char) : (quoted cs).1.length ≤ cs.length := by
  fun_induction quoted cs with
  | case1 | case2 | case4 => simp
  | case3 c rest other body closed inside ih =>
      rw [inside] at ih
      exact Nat.succ_le_succ (Nat.succ_le_succ ih)
  | case5 c rest _ _ other body closed inside ih =>
      rw [inside] at ih
      exact Nat.succ_le_succ ih

theorem balanced_append {depth : Nat} {cs trail body : List Char}
    (h : balanced depth cs = some body) : balanced depth (cs ++ trail) = some body := by
  fun_induction balanced depth cs generalizing body with
  | case1 => cases h
  | case3 => simpa [balanced] using h
  | case2 depth rest ih | case4 rest depth _ ih =>
      obtain ⟨inside, hinside, rfl⟩ := Option.map_eq_some_iff.mp h
      simp [balanced, ih hinside]
  | case5 depth c rest opens closes ih =>
      obtain ⟨inside, hinside, rfl⟩ := Option.map_eq_some_iff.mp h
      simp [balanced, opens, closes, ih hinside]

theorem length_balanced_le {depth : Nat} {cs body : List Char}
    (h : balanced depth cs = some body) : body.length ≤ cs.length := by
  fun_induction balanced depth cs generalizing body with
  | case1 => cases h
  | case3 =>
      cases h
      simp
  | case2 _ _ ih | case4 _ _ _ ih | case5 _ _ _ _ _ ih =>
      obtain ⟨inside, hinside, rfl⟩ := Option.map_eq_some_iff.mp h
      exact Nat.succ_le_succ (ih hinside)

theorem length_questionMark_le (cs : List Char) : (questionMark cs).length ≤ cs.length :=
  Nat.le_trans (List.length_filter_le _ _) (List.length_take_le' 1 cs)

theorem length_first_le (c : Char) (rest : List Char) :
    (first c rest).text.length ≤ rest.length + 1 := by
  have stretch (p : Char → Bool) : (rest.takeWhile p).length ≤ rest.length :=
    (List.takeWhile_prefix p).length_le
  unfold first
  split
  · simp
  split
  · simp
  split
  · exact Nat.succ_le_succ (stretch _)
  split
  · exact Nat.succ_le_succ (stretch _)
  split
  · exact Nat.succ_le_succ (length_quoted_le rest)
  split
  · split
    · next body hbody =>
      have inside := length_balanced_le hbody
      have mark := length_questionMark_le (rest.drop body.length)
      simp only [List.length_cons, List.length_append, List.length_drop] at mark ⊢
      omega
    · simp
  split
  · dsimp only
    split
    · simp only [List.length_cons, List.length_append, List.length_nil]
      omega
    · exact Nat.succ_le_succ (stretch _)
  split
  · exact Nat.succ_le_succ (stretch _)
  · simp

theorem questionMark_append {cs trail : List Char} (blank : ∀ d ∈ trail, isBlank d = true) :
    questionMark (cs ++ trail) = questionMark cs := by
  cases cs with
  | cons c cs => simp [questionMark]
  | nil =>
      cases trail with
      | nil => rfl
      | cons d trail =>
          have other : d ≠ '?' := by
            rintro rfl
            exact absurd (blank _ (List.mem_cons_self ..)) (by decide)
          simp [questionMark, other]

section

variable {c : Char} {rest trail : List Char} (blank : ∀ d ∈ trail, isBlank d = true)
include blank

theorem takeWhile_isWordRest_append :
    (rest ++ trail).takeWhile isWordRest = rest.takeWhile isWordRest :=
  takeWhile_append_of_stops fun _ d hd =>
    isWordRest_of_isBlank (blank d (List.mem_of_mem_head? hd))

theorem takeWhile_isDigit_append :
    (rest ++ trail).takeWhile Char.isDigit = rest.takeWhile Char.isDigit :=
  takeWhile_append_of_stops fun _ d hd => by
    have other := isWordRest_of_isBlank (blank d (List.mem_of_mem_head? hd))
    rw [Bool.eq_false_iff] at other ⊢
    exact fun digit => other (isWordRest_of_isDigit digit)

omit blank in
/-- Spaces in front of a text that does not end with a blank end inside of it. -/
theorem takeWhile_isSpace_append (space : isSpace c = true)
    (ends : ∀ d ∈ (c :: rest).getLast?, isBlank d = false) :
    (rest ++ trail).takeWhile isSpace = rest.takeWhile isSpace := by
  refine takeWhile_append_of_stops fun all => ?_
  have spaces : ∀ d ∈ c :: rest, isSpace d = true :=
    List.forall_mem_cons.mpr ⟨space, List.all_eq_true.mp all⟩
  have last := spaces _ (List.getLast_mem (List.cons_ne_nil c rest))
  have ended := ends _ (List.getLast?_eq_some_getLast (List.cons_ne_nil c rest))
  rw [isBlank_of_isSpace last] at ended
  cases ended

omit blank in
/-- What a bracket closes stays closed. -/
theorem takeWhile_bracket_append (closed : (rest.takeWhile (· != ']')).length < rest.length) :
    (rest ++ trail).takeWhile (· != ']') = rest.takeWhile (· != ']') := by
  refine takeWhile_append_of_stops fun all => ?_
  have whole : (rest ++ []).takeWhile (· != ']') = rest ++ [] :=
    List.takeWhile_append_of_pos (List.all_eq_true.mp all)
  rw [List.append_nil] at whole
  rw [whole] at closed
  exact absurd closed (Nat.lt_irrefl _)

/-- Blanks behind a text do not reach into its lexemes, if all of these can be read and the text
does not end with a blank itself. -/
theorem first_append (ends : ∀ d ∈ (c :: rest).getLast?, isBlank d = false)
    (known : (first c rest).kind ≠ .error) : first c (rest ++ trail) = first c rest := by
  -- the branches in turn; where a quote or a bracket does not end the lexeme would be unreadable
  unfold first at known ⊢
  by_cases opens : c = '('
  · simp only [if_pos opens]
  by_cases closes : c = ')'
  · simp only [if_neg opens, if_pos closes]
  simp only [if_neg opens, if_neg closes] at known ⊢
  by_cases space : isSpace c = true
  · simp only [if_pos space, takeWhile_isSpace_append space ends]
  simp only [if_neg space] at known ⊢
  by_cases start : isWordStart c = true
  · simp only [if_pos start, takeWhile_isWordRest_append blank]
  simp only [if_neg start] at known ⊢
  by_cases quote : c = '\''
  · simp only [if_pos quote] at known ⊢
    rcases hquoted : quoted rest with ⟨body, _ | _⟩
    · simp [hquoted] at known
    · rw [quoted_append hquoted]
  simp only [if_neg quote] at known ⊢
  by_cases brace : c = '{'
  · simp only [if_pos brace] at known ⊢
    cases hbody : balanced 0 rest with
    | none => simp [hbody] at known
    | some body =>
        rw [balanced_append hbody]
        dsimp only
        rw [List.drop_append_of_le_length (length_balanced_le hbody), questionMark_append blank]
  simp only [if_neg brace] at known ⊢
  by_cases bracket : c = '['
  · simp only [if_pos bracket] at known ⊢
    have closed : (rest.takeWhile (· != ']')).length < rest.length :=
      Decidable.byContradiction fun unclosed => by simp [unclosed] at known
    have later : (rest.takeWhile (· != ']')).length < (rest ++ trail).length := by
      rw [List.length_append]
      omega
    simp only [takeWhile_bracket_append closed, if_pos closed, if_pos later]
  simp only [if_neg bracket, takeWhile_isDigit_append blank]

end

theorem scan_append {cs trail : List Char} (blank : ∀ d ∈ trail, isBlank d = true)
    (ends : ∀ d ∈ cs.getLast?, isBlank d = false) {pending : Nat}
    (known : ∀ lexeme ∈ scan pending cs, lexeme.kind ≠ .error) (within : pending ≤ cs.length) :
    scan pending (cs ++ trail) = scan pending cs ++ scan 0 trail := by
  induction cs generalizing pending with
  | nil =>
      obtain rfl := Nat.le_zero.mp within
      rfl
  | cons c rest ih =>
      have later : ∀ d ∈ rest.getLast?, isBlank d = false := by
        cases rest with
        | nil => nofun
        | cons next rest => exact ends
      cases pending with
      | succ pending => exact ih later known (Nat.le_of_succ_le_succ within)
      | zero =>
          -- the lexeme in front stays what it is, so as many characters are passed over as before
          rw [scan] at known
          obtain ⟨here, others⟩ := List.forall_mem_cons.mp known
          have length := length_first_le c rest
          rw [List.cons_append, scan, scan, first_append blank ends here,
            ih later others (by omega), List.cons_append]

theorem known_of_joined {lexemes : List Lexeme}
    (h : ∀ l ∈ lexemes.foldr join [], l.kind ≠ .error) : ∀ l ∈ lexemes, l.kind ≠ .error := by
  induction lexemes with
  | nil => nofun
  | cons lexeme rest ih =>
      rw [List.foldr_cons] at h
      cases hrest : rest.foldr join [] with
      | nil =>
          rw [hrest] at h ih
          exact List.forall_mem_cons.mpr ⟨h lexeme (List.mem_singleton_self _), ih nofun⟩
      | cons next others =>
          rw [hrest, join] at h
          split at h
          · exact absurd rfl (h _ (List.mem_cons_self ..))
          · obtain ⟨here, later⟩ := List.forall_mem_cons.mp h
            exact List.forall_mem_cons.mpr ⟨here, ih (hrest ▸ later)⟩

theorem significant_place (start : Nat) (lexemes : List Lexeme) :
    significant (place start lexemes) =
      (lexemes.filter (·.kind != .whitespace)).map fun l => (l.kind, String.ofList l.text) := by
  induction lexemes generalizing start with
  | nil => rfl
  | cons lexeme rest ih =>
      have others := ih (Token.stop ⟨lexeme.kind, String.ofList lexeme.text, start⟩)
      unfold significant at others ⊢
      rw [place]
      by_cases h : lexeme.kind = .whitespace
      · rw [List.filter_cons_of_neg (by simp [Token.isTrivia, h]),
          List.filter_cons_of_neg (by simp [h]), others]
      · rw [List.filter_cons_of_pos (by simp [Token.isTrivia, h]),
          List.filter_cons_of_pos (by simp [h]), List.map_cons, List.map_cons, others]

end Lexeme

/-- Sound tokens are made of sound lexemes. -/
theorem filter_significant (source : String) :
    (significant (tokenize source)).filter (·.1 != .error) =
      ((Lexeme.scan 0 source.toList).filter Lexeme.isSound).map
        fun l => (l.kind, String.ofList l.text) := by
  have sound : Lexeme.isSound = fun l => l.kind != .error && l.kind != .whitespace :=
    funext fun l => Bool.and_comm ..
  rw [tokenize, Lexeme.significant_place, List.filter_map, List.filter_filter,
    ← Lexeme.filter_joined, sound]
  rfl

/-- The reader lets nothing unreadable pass. -/
theorem mem_rest_of_readNode {stack : List OpenNode} {tokens rest : List Token} {node : Node}
    (h : readNode stack tokens = .ok (node, rest)) :
    ∀ t ∈ tokens, t.kind = .error → t ∈ rest := by
  fun_induction readNode stack tokens with
  | case4 stack lparen opens word tokens names _ _ ih =>
      refine List.forall_mem_cons.mpr ⟨by simp [opens], ?_⟩
      exact List.forall_mem_cons.mpr ⟨by simp [names], ih h⟩
  | case8 rparen tokens closes n =>
      cases h
      exact List.forall_mem_cons.mpr ⟨by simp [closes], fun _ ht _ => ht⟩
  | case9 rparen tokens closes n parent outer ih =>
      exact List.forall_mem_cons.mpr ⟨by simp [closes], ih h⟩
  | case12 t tokens n outer _ _ known ih =>
      exact List.forall_mem_cons.mpr ⟨fun error => absurd error known, ih h⟩
  | _ => cases h

theorem known_of_read {source : String} {root : Node} (h : read source = .ok root) :
    ∀ t ∈ tokenize source, t.kind ≠ .error := by
  unfold read at h
  obtain ⟨⟨node, rest⟩, hrun, h⟩ := bind_eq_ok.mp h
  intro t ht error
  have later := mem_rest_of_readNode hrun t ht error
  have extra : rest.find? (!·.isTrivia) ≠ none := by
    rw [Ne, List.find?_eq_none]
    exact fun blank => blank t later (by simp [Token.isTrivia, error])
  dsimp only at h
  split at h
  · split at h
    · cases h
    · next none => exact extra none
  · cases h

namespace Lexeme

/-- Blanks around a text that can be read add nothing sound to it. -/
theorem filter_scan_trimChars {cs : List Char}
    (known : ∀ l ∈ scan 0 (Text.trimChars cs), l.kind ≠ .error) :
    (scan 0 cs).filter isSound = (scan 0 (Text.trimChars cs)).filter isSound := by
  obtain ⟨lead, trail, around, hlead, htrail, hhead, hlast⟩ := Text.exists_around_trimChars cs
  have behind : (scan 0 (trail ++ [])).filter isSound = [] :=
    filter_scan_blanks htrail (by simp) (Nat.zero_le _)
  rw [List.append_nil] at behind
  calc (scan 0 cs).filter isSound
      = (scan 0 (lead ++ (Text.trimChars cs ++ trail))).filter isSound := by rw [← around]
    _ = (scan 0 (Text.trimChars cs ++ trail)).filter isSound :=
        filter_scan_blanks hlead hhead (Nat.zero_le _)
    _ = (scan 0 (Text.trimChars cs)).filter isSound := by
        rw [scan_append htrail hlast known (Nat.zero_le _), List.filter_append, behind,
          List.append_nil]

theorem map_kind_place (start : Nat) (lexemes : List Lexeme) :
    (place start lexemes).map Token.kind = lexemes.map Lexeme.kind := by
  induction lexemes generalizing start with
  | nil => rfl
  | cons lexeme rest ih => rw [place, List.map_cons, List.map_cons, ih]

end Lexeme

theorem known_scan_of_tokenize {source : String} (h : ∀ t ∈ tokenize source, t.kind ≠ .error) :
    ∀ l ∈ Lexeme.scan 0 source.toList, l.kind ≠ .error := by
  refine Lexeme.known_of_joined fun l hl error => ?_
  have kinds : l.kind ∈ (tokenize source).map Token.kind := by
    rw [tokenize, Lexeme.map_kind_place]
    exact List.mem_map_of_mem hl
  obtain ⟨t, ht, same⟩ := List.mem_map.mp kinds
  exact h t ht (same.trans error)

/-- All of a text that can be read as a grammar is readable. -/
theorem known_scan_of_read {source : String} {root : Node} (h : read source = .ok root) :
    ∀ l ∈ Lexeme.scan 0 source.toList, l.kind ≠ .error :=
  known_scan_of_tokenize (known_of_read h)

/-- Reading a grammar without the blanks around it takes at most unreadable tokens away. -/
theorem significant_trim {text : String} {root : Node} (h : read (Text.trim text) = .ok root) :
    significant (tokenize (Text.trim text)) =
      (significant (tokenize text)).filter (·.1 != .error) := by
  have core : (Text.trim text).toList = Text.trimChars text.toList := String.toList_ofList
  have sound : (significant (tokenize (Text.trim text))).filter (·.1 != .error) =
      significant (tokenize (Text.trim text)) := by
    rw [List.filter_eq_self]
    intro pair hpair
    obtain ⟨t, ht, rfl⟩ := List.mem_map.mp hpair
    exact bne_iff_ne.mpr (known_of_read h t (List.mem_filter.mp ht).1)
  have known := known_scan_of_read h
  rw [core] at known
  rw [← sound, filter_significant, filter_significant, core, Lexeme.filter_scan_trimChars known]

end RecognizerModel
