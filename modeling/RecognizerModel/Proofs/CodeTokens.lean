import RecognizerModel.Proofs.ReadTokens

/-! Code tokens of a loaded grammar hold code: what the lexer takes for code stands between braces,
and the reader makes no other code tokens. -/
namespace RecognizerModel

/-- Whether a token holds code if it is a code token. -/
def Token.HoldsCode (t : Token) : Prop :=
  t.kind = .code → ∃ code, t.code? = some code

/-- The code of a token stands between its outer braces, in front of a question mark. -/
theorem Token.code?_of_text {t : Token} {body mark : List Char}
    (text : t.text.toList = '{' :: (body ++ '}' :: mark)) (hmark : mark = [] ∨ mark = ['?']) :
    t.code? = some (String.ofList (Text.trimChars body)) := by
  have unmarked : dropQuestionMark t.text.toList = '{' :: (body ++ ['}']) := by
    rw [text, dropQuestionMark]
    rcases hmark with rfl | rfl
    · simp [List.getLast?_cons]
    · simp [List.getLast?_cons, List.dropLast_cons_of_ne_nil, List.dropLast_append_of_ne_nil]
  rw [code?, unmarked, between]
  simp

namespace Lexeme

theorem getLast?_of_balanced {depth : Nat} {cs body : List Char}
    (h : balanced depth cs = some body) : body.getLast? = some '}' := by
  induction cs generalizing depth body with
  | nil => cases h
  | cons c rest ih =>
      have behind {inner : Nat} {body : List Char}
          (h : (balanced inner rest).map (c :: ·) = some body) : body.getLast? = some '}' := by
        obtain ⟨tail, htail, rfl⟩ := Option.map_eq_some_iff.mp h
        have last := ih htail
        cases tail with
        | nil => cases last
        | cons next tail => rwa [List.getLast?_cons_cons]
      unfold balanced at h
      split at h
      · exact behind h
      · split at h
        · next closing =>
          cases depth with
          | zero =>
              cases h
              rw [closing]
              rfl
          | succ inner => exact behind h
        · exact behind h

theorem eq_brace_of_code {c : Char} {rest : List Char} (h : (first c rest).kind = .code) :
    c = '{' := by
  unfold first at h
  by_cases brace : c = '{'
  · exact brace
  · rw [if_neg brace] at h
    repeat' split at h
    all_goals first | cases h | (dsimp only at h; split at h <;> cases h)

theorem first_of_balanced {rest body : List Char} (h : balanced 0 rest = some body) :
    first '{' rest = ⟨.code, '{' :: (body ++ questionMark (rest.drop body.length))⟩ := by
  unfold first
  rw [h]
  rfl

theorem first_of_not_balanced {rest : List Char} (h : balanced 0 rest = none) :
    first '{' rest = ⟨.error, ['{']⟩ := by
  unfold first
  rw [h]
  rfl

/-- Code is what stands between two braces that belong together, and a question mark after it. -/
theorem text_of_code {c : Char} {rest : List Char} (h : (first c rest).kind = .code) :
    ∃ body tail, (first c rest).text = '{' :: (body ++ tail) ∧ body.getLast? = some '}' ∧
      (tail = [] ∨ tail = ['?']) := by
  obtain rfl := eq_brace_of_code h
  cases hbody : balanced 0 rest with
  | none =>
      rw [first_of_not_balanced hbody] at h
      cases h
  | some body =>
      rw [first_of_balanced hbody]
      refine ⟨body, _, rfl, getLast?_of_balanced hbody, ?_⟩
      cases rest.drop body.length with
      | nil => exact .inl rfl
      | cons next _ =>
          by_cases mark : next = '?'
          · exact .inr (by simp [questionMark, mark])
          · exact .inl (by simp [questionMark, mark])

/-- Whether a lexeme is code between braces if it is code at all. -/
def IsBraced (lexeme : Lexeme) : Prop :=
  lexeme.kind = .code → ∃ body tail, lexeme.text = '{' :: (body ++ tail) ∧
    body.getLast? = some '}' ∧ (tail = [] ∨ tail = ['?'])

theorem IsScanned.isBraced {lexeme : Lexeme} (h : lexeme.IsScanned) : lexeme.IsBraced := by
  intro kind
  rcases h with error | ⟨c, rest, rfl⟩
  · rw [error] at kind
    cases kind
  · exact text_of_code kind

theorem IsBraced.exists_text {lexeme : Lexeme} (h : lexeme.IsBraced) {t : Token}
    (kind : t.kind = lexeme.kind) (text : t.text = String.ofList lexeme.text)
    (code : t.kind = .code) :
    ∃ body mark, t.text.toList = '{' :: (body ++ '}' :: mark) ∧ (mark = [] ∨ mark = ['?']) := by
  obtain ⟨_, mark, htext, hlast, hmark⟩ := h (kind.symm.trans code)
  obtain ⟨body, rfl⟩ := List.getLast?_eq_some_iff.mp hlast
  refine ⟨body, mark, ?_, hmark⟩
  rw [text, String.toList_ofList, htext, List.append_assoc]
  rfl

theorem IsBraced.holdsCode {lexeme : Lexeme} (h : lexeme.IsBraced) {t : Token}
    (kind : t.kind = lexeme.kind) (text : t.text = String.ofList lexeme.text) : t.HoldsCode := by
  intro code
  obtain ⟨body, mark, written, hmark⟩ := h.exists_text kind text code
  exact ⟨_, Token.code?_of_text written hmark⟩

end Lexeme

/-- Whether all code tokens of a row hold code. -/
def Forest.HoldsCode (f : Forest) : Prop :=
  ∀ t ∈ f.leaves, t.HoldsCode

/-- A node has code where it has a code token, and nowhere else. -/
theorem Forest.HoldsCode.code?_eq_none_iff {f : Forest} (h : f.HoldsCode) :
    f.code? = none ↔ f.first? .code = none := by
  unfold code?
  cases hfirst : f.first? .code with
  | none => exact iff_of_true rfl rfl
  | some t =>
      have kind : t.kind = .code := by simpa using List.find?_some hfirst
      obtain ⟨code, hcode⟩ :=
        h t (mem_leaves_of_mem_tokens (List.mem_of_find?_eq_some hfirst)) kind
      rw [Option.bind_some, hcode]
      exact iff_of_false nofun nofun

theorem Grammar.Loaded.holdsCode {g : Grammar} (loaded : g.Loaded) {n : Node}
    (hn : n ∈ g.root.descendants) : n.inner.HoldsCode := by
  intro t ht code
  obtain ⟨lexeme, scanned, kind, text⟩ := loaded.exists_lexeme hn ht (by simp [code])
  exact scanned.isBraced.holdsCode kind text code

/-- In a loaded grammar the code of a node is missing only where it has no code token. -/
theorem Grammar.Loaded.code?_eq_none_iff {g : Grammar} (loaded : g.Loaded) {n : Node}
    (hn : n ∈ g.root.descendants) : n.inner.code? = none ↔ n.inner.first? .code = none :=
  (loaded.holdsCode hn).code?_eq_none_iff

end RecognizerModel
