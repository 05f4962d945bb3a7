import RecognizerModel.Proofs.CodeTokens
import RecognizerModel.Proofs.TokenTiling

/-! Code in braces. A brace makes a code token if the braces balance somewhere behind it, and the
token ends where they first do; a brace that nothing balances is given up by itself. -/
namespace RecognizerModel

namespace Lexeme

/-- How many braces a text leaves open, negative where it closes more than it opens. -/
def braceDepth (cs : List Char) : Int :=
  cs.count '{' - cs.count '}'

@[simp] theorem braceDepth_nil : braceDepth [] = 0 := rfl

@[simp] theorem braceDepth_open (cs : List Char) : braceDepth ('{' :: cs) = braceDepth cs + 1 := by
  simp only [braceDepth, List.count_cons_self, List.count_cons_of_ne (show '{' ≠ '}' by decide)]
  omega

@[simp] theorem braceDepth_close (cs : List Char) : braceDepth ('}' :: cs) = braceDepth cs - 1 := by
  simp only [braceDepth, List.count_cons_self, List.count_cons_of_ne (show '}' ≠ '{' by decide)]
  omega

theorem braceDepth_other {c : Char} (opens : c ≠ '{') (closes : c ≠ '}') (cs : List Char) :
    braceDepth (c :: cs) = braceDepth cs := by
  simp only [braceDepth, List.count_cons_of_ne opens, List.count_cons_of_ne closes]

/-- Whether a text stands in braces: it opens one that is closed at its end, and not before. -/
structure IsBlock (cs : List Char) : Prop where
  opens : cs.head? = some '{'
  closed : braceDepth cs = 0
  inside : ∀ front, front <+: cs → front ≠ [] → front ≠ cs → 0 < braceDepth front

theorem IsBlock.exists_eq_cons {cs : List Char} (h : IsBlock cs) : ∃ body, cs = '{' :: body :=
  List.head?_eq_some_iff.mp h.opens

/-- Of two blocks at the front of a text none is longer than the other. -/
theorem IsBlock.eq_of_isPrefix {cs block other : List Char} (h : IsBlock block)
    (h' : IsBlock other) (front : block <+: cs) (front' : other <+: cs) : block = other := by
  have nonempty {cs : List Char} (h : IsBlock cs) : cs ≠ [] := by
    obtain ⟨body, rfl⟩ := h.exists_eq_cons
    exact List.cons_ne_nil _ _
  rcases List.prefix_or_prefix_of_prefix front front' with inner | inner
  · by_contra shorter
    exact absurd h.closed (Int.ne_of_gt (h'.inside block inner (nonempty h) shorter))
  · by_contra shorter
    exact absurd h'.closed (Int.ne_of_gt (h.inside other inner (nonempty h') (Ne.symm shorter)))

theorem braceDepth_of_balanced {depth : Nat} {cs body : List Char}
    (h : balanced depth cs = some body) : braceDepth body + depth + 1 = 0 := by
  fun_induction balanced depth cs generalizing body with
  | case1 => cases h
  | case2 depth rest ih =>
    obtain ⟨inside, hinside, rfl⟩ := Option.map_eq_some_iff.mp h
    have closed := ih hinside
    rw [braceDepth_open]
    omega
  | case3 =>
    cases h
    rfl
  | case4 rest inner _ ih =>
    obtain ⟨inside, hinside, rfl⟩ := Option.map_eq_some_iff.mp h
    have closed := ih hinside
    rw [braceDepth_close]
    omega
  | case5 depth c rest opens closes ih =>
    obtain ⟨inside, hinside, rfl⟩ := Option.map_eq_some_iff.mp h
    rw [braceDepth_other opens closes]
    exact ih hinside

theorem braceDepth_of_not_balanced {depth : Nat} {cs : List Char} (h : balanced depth cs = none) :
    0 ≤ braceDepth cs + depth := by
  fun_induction balanced depth cs with
  | case1 =>
    rw [braceDepth_nil]
    omega
  | case2 depth rest ih =>
    have unclosed := ih (Option.map_eq_none_iff.mp h)
    rw [braceDepth_open]
    omega
  | case3 => cases h
  | case4 rest inner _ ih =>
    have unclosed := ih (Option.map_eq_none_iff.mp h)
    rw [braceDepth_close]
    omega
  | case5 depth c rest opens closes ih =>
    rw [braceDepth_other opens closes]
    exact ih (Option.map_eq_none_iff.mp h)

theorem not_balanced_of_isPrefix {depth : Nat} {front cs : List Char} (h : balanced depth cs = none)
    (hfront : front <+: cs) : balanced depth front = none := by
  obtain ⟨behind, rfl⟩ := hfront
  cases balances : balanced depth front with
  | none => rfl
  | some body =>
    rw [balanced_append balances] at h
    cases h

/-- Nothing shorter than what is read as balanced is balanced. -/
theorem not_balanced_of_shorter {depth : Nat} {front cs body : List Char}
    (h : balanced depth cs = some body) (hfront : front <+: body) (shorter : front ≠ body) :
    balanced depth front = none := by
  have whole := balanced_self h
  obtain ⟨behind, rfl⟩ := hfront
  cases balances : balanced depth front with
  | none => rfl
  | some inner =>
    rw [balanced_append balances] at whole
    obtain rfl := Option.some.inj whole
    have longer := (balanced_isPrefix balances).length_le
    refine absurd ?_ shorter
    exact (List.prefix_append front behind).eq_of_length_le longer

/-- A brace and what balances it is a block. -/
theorem isBlock_of_balanced {cs body : List Char} (h : balanced 0 cs = some body) :
    IsBlock ('{' :: body) where
  opens := rfl
  closed := by
    have closed := braceDepth_of_balanced h
    rw [braceDepth_open]
    omega
  inside front hfront nonempty shorter := by
    obtain rfl | ⟨inner, rfl, hinner⟩ := List.prefix_cons_iff.mp hfront
    · exact absurd rfl nonempty
    · have unclosed := not_balanced_of_shorter h hinner (by simpa using shorter)
      have depth := braceDepth_of_not_balanced unclosed
      rw [braceDepth_open]
      omega

/-- Where nothing balances a brace it stays open. -/
theorem braceDepth_pos_of_not_balanced {cs front : List Char} (h : balanced 0 cs = none)
    (hfront : front <+: cs) : 0 < braceDepth ('{' :: front) := by
  have depth := braceDepth_of_not_balanced (not_balanced_of_isPrefix h hfront)
  rw [braceDepth_open]
  omega

theorem questionMark_eq (cs : List Char) :
    questionMark cs = if cs.head? = some '?' then ['?'] else [] := by
  cases cs with
  | nil => rfl
  | cons c rest => by_cases mark : c = '?' <;> simp [questionMark, mark]

end Lexeme

/-- What becomes of a brace that the lexer comes to, with the lexemes `before` in front of it and
`rest` behind it. It belongs to one token `t`. -/
structure Token.IsOfBrace (t : Token) (source : String) (before : List Lexeme) (rest : List Char) :
    Prop where
  covers : t.Covers (Lexeme.size before)
  unique : ∀ u ∈ tokenize source, u.Covers (Lexeme.size before) → u = t
  code_iff : t.kind = .code ↔ ∃ body, body <+: rest ∧ Lexeme.braceDepth ('{' :: body) = 0
  /-- The token is the block and a question mark right behind it, and lexing goes on there. -/
  block : t.kind = .code → ∃ body mark after,
    rest = body ++ after ∧ Lexeme.IsBlock ('{' :: body) ∧ body.getLast? = some '}' ∧
      mark = (if after.head? = some '?' then ['?'] else []) ∧
      t.start = Lexeme.size before ∧ t.text = String.ofList ('{' :: (body ++ mark)) ∧
      t.stop ≤ source.utf8ByteSize ∧ t.span.slice? source = some t.text ∧
      Lexeme.scan 0 source.toList =
        before ++ ⟨.code, '{' :: (body ++ mark)⟩ :: Lexeme.scan 0 (after.drop mark.length)
  /-- The brace is given up by itself, since it stays open up to the end of the source. -/
  lone : t.kind ≠ .code → t.kind = .error ∧
    Lexeme.scan 0 source.toList = before ++ ⟨.error, ['{']⟩ :: Lexeme.scan 0 rest ∧
      ∀ front, front <+: rest → 0 < Lexeme.braceDepth ('{' :: front)

/-- A brace becomes code if and only if something behind it balances it. -/
theorem exists_token_of_brace (source : String) (before : List Lexeme) (rest : List Char)
    (here : Lexeme.scan 0 source.toList = before ++ Lexeme.scan 0 ('{' :: rest)) :
    ∃ t ∈ tokenize source, t.IsOfBrace source before rest := by
  have split := here
  rw [Lexeme.scan_cons] at split
  obtain ⟨t, ht, kind, covers, known⟩ := exists_token_of_scan split
  have within := Nat.lt_of_lt_of_le covers.2 (stop_le_of_mem_tokenize ht)
  obtain ⟨u, -, -, unique⟩ :=
    Token.existsUnique_covers (tile_tokenize source) ⟨Nat.zero_le _, within⟩
  have alone : ∀ v ∈ tokenize source, v.Covers (Lexeme.size before) → v = t :=
    fun v hv passed => (unique v hv passed).trans (unique t ht covers).symm
  refine ⟨t, ht, ?_⟩
  cases balances : Lexeme.balanced 0 rest with
  | some body =>
    obtain ⟨after, rfl⟩ := Lexeme.balanced_isPrefix balances
    have block := Lexeme.isBlock_of_balanced balances
    rw [Lexeme.first_of_balanced balances, List.drop_left] at split kind known
    obtain ⟨start, text⟩ := known nofun
    refine ⟨covers, alone, iff_of_true kind ⟨body, List.prefix_append .., block.closed⟩, ?_,
      fun other => absurd kind other⟩
    refine fun _ => ⟨body, _, after, rfl, block, Lexeme.getLast?_of_balanced balances,
      Lexeme.questionMark_eq after, start, text, stop_le_of_mem_tokenize ht,
      slice?_of_mem_tokenize ht, ?_⟩
    rw [split, List.length_cons, List.drop_succ_cons, List.length_append,
      List.drop_length_add_append]
  | none =>
    rw [Lexeme.first_of_not_balanced balances] at split kind
    have stays : ∀ front, front <+: rest → 0 < Lexeme.braceDepth ('{' :: front) :=
      fun front => Lexeme.braceDepth_pos_of_not_balanced balances
    have other : t.kind ≠ .code := by simp [kind]
    refine ⟨covers, alone, iff_of_false other ?_, fun code => absurd code other,
      fun _ => ⟨kind, split, stays⟩⟩
    rintro ⟨body, hbody, closed⟩
    exact absurd closed (Int.ne_of_gt (stays body hbody))

/-- Nested braces around a character of two bytes, with a question mark behind them. -/
def bracedCode : List Char :=
  ['{', 'b', '{', 'é', '}', '}', '?']

/-- Braces between words, and one behind them that nothing closes. -/
def bracedText : String :=
  String.ofList ('a' :: bracedCode ++ ['c', '{'])

theorem exists_token_of_brace_of_bracedText :
    (∃ t ∈ tokenize bracedText,
      t.IsOfBrace bracedText [⟨.word, ['a']⟩] (bracedCode.tail ++ ['c', '{']) ∧
        t = ⟨.code, String.ofList bracedCode, 1⟩) ∧
    ∃ t ∈ tokenize bracedText,
      t.IsOfBrace bracedText [⟨.word, ['a']⟩, ⟨.code, bracedCode⟩, ⟨.word, ['c']⟩] [] ∧
        t = ⟨.error, "\x7b", 10⟩ := by
  obtain ⟨tokens, inner, last⟩ : tokenize bracedText =
        [⟨.word, "a", 0⟩, ⟨.code, String.ofList bracedCode, 1⟩, ⟨.word, "c", 9⟩,
          ⟨.error, "\x7b", 10⟩] ∧
      Lexeme.scan 0 bracedText.toList =
        [⟨.word, ['a']⟩] ++ Lexeme.scan 0 ('{' :: (bracedCode.tail ++ ['c', '{'])) ∧
      Lexeme.scan 0 bracedText.toList =
        [⟨.word, ['a']⟩, ⟨.code, bracedCode⟩, ⟨.word, ['c']⟩] ++ Lexeme.scan 0 ['{'] := by
    decide +kernel
  obtain ⟨t, ht, braced⟩ := exists_token_of_brace bracedText _ _ inner
  obtain ⟨u, hu, lone⟩ := exists_token_of_brace bracedText _ _ last
  refine ⟨⟨t, ht, braced, ?_⟩, u, hu, lone, ?_⟩
  · exact (braced.unique _ (by simp [tokens]) (by decide +kernel)).symm
  · exact (lone.unique _ (by simp [tokens]) (by decide +kernel)).symm

end RecognizerModel
