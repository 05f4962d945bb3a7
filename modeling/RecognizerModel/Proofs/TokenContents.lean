import Mathlib.Data.Nat.Digits.Defs
import RecognizerModel.Proofs.TokenPatterns

/-! What the tokens of a loaded grammar hold. Each decision token has a number that fits, each code
token its code and each argument token its arguments, so a node lacks one of them only where the
token is missing. -/
namespace RecognizerModel

open Lexeme (IsDigit)

/-- The number that decimal digits are written for, the last digit counting least. -/
def ofDecimal (digits : List Char) : Nat :=
  Nat.ofDigits 10 (digits.reverse.map fun c => c.toNat - '0'.toNat)

theorem natOfDigits?_of_digits {digits : List Char} (h : ∀ c ∈ digits, IsDigit c) :
    natOfDigits? digits = some (ofDecimal digits) := by
  induction digits using List.reverseRecOn with
  | nil => rfl
  | append_singleton digits c ih =>
    obtain ⟨before, last⟩ := List.forall_mem_append.mp h
    have digit : c.isDigit = true := Lexeme.isDigit_iff.mpr (last c (List.mem_singleton_self c))
    have read : natOfDigits? (digits ++ [c]) =
        some (10 * ofDecimal digits + (c.toNat - '0'.toNat)) := by
      rw [natOfDigits?, List.foldl_append, ← natOfDigits?, ih before]
      exact if_pos digit
    rw [read, ofDecimal, ofDecimal, List.reverse_append, List.reverse_singleton,
      List.singleton_append, List.map_cons, Nat.ofDigits_cons, Nat.add_comm]

/-- Digits are read as the number that they are written for if it has 64 bits. -/
theorem readNumber?_of_digits {d : Char} {digits : List Char} (h : ∀ c ∈ d :: digits, IsDigit c) :
    readNumber? (d :: digits) = (some (ofDecimal (d :: digits))).filter (· < numberLimit) := by
  have unsigned : (d :: digits).head? ≠ some '+' := fun sign =>
    absurd (Lexeme.isDigit_iff.mpr (h '+' (List.mem_of_mem_head? sign))) (by decide)
  rw [readNumber?, dropPlus, if_neg unsigned, if_neg (List.cons_ne_nil d digits),
    natOfDigits?_of_digits h]

namespace Token

/-- Whether a token is an at sign with the decimal digits of a number behind it that is small enough
for a decision. -/
def HasNumber (t : Token) (n : Nat) : Prop :=
  ∃ digits, t.text.toList = '@' :: digits ∧ digits ≠ [] ∧ (∀ c ∈ digits, IsDigit c) ∧
    n = ofDecimal digits ∧ n < numberLimit

/-- Whether a token is code in braces, perhaps with the question mark of a predicate behind it. -/
def HasCode (t : Token) (code : String) : Prop :=
  ∃ body mark, t.text.toList = '{' :: (body ++ '}' :: mark) ∧ (mark = [] ∨ mark = ['?']) ∧
    code = Text.trim (String.ofList body)

/-- Whether a token is arguments in brackets. -/
def HasArguments (t : Token) (arguments : String) : Prop :=
  ∃ body, t.text.toList = '[' :: (body ++ [']']) ∧ ']' ∉ body ∧
    arguments = Text.trim (String.ofList body)

theorem argText?_of_text {t : Token} {body : List Char}
    (text : t.text.toList = '[' :: (body ++ [']'])) :
    t.argText? = some (String.ofList (Text.trimChars body)) := by
  rw [argText?, text, between]
  simp

theorem decision?_of_text {t : Token} {text : List Char} (h : t.text.toList = '@' :: text) :
    t.decision? = readNumber? text := by
  simp [decision?, h]

/-- Behind a single at sign, the check of a grammar and the accessor read the same. -/
theorem hasDecision_eq_isSome {t : Token} {text : List Char} (h : t.text.toList = '@' :: text)
    (single : text.head? ≠ some '@') : t.hasDecision = t.decision?.isSome := by
  have stripped : t.text.toList.dropWhile (· == '@') = text := by
    rw [h, List.dropWhile_cons_of_pos rfl]
    cases text with
    | nil => rfl
    | cons c rest => exact List.dropWhile_cons_of_neg (by simpa using single)
  rw [hasDecision, stripped, decision?_of_text h]

/-- What the accessor reads behind the at sign of a number, if it reads anything. -/
theorem number_of_decision? {t : Token} {d : Char} {digits : List Char} {n : Nat}
    (text : t.text.toList = '@' :: d :: digits) (digit : ∀ c ∈ d :: digits, IsDigit c)
    (h : t.decision? = some n) : n = ofDecimal (d :: digits) ∧ n < numberLimit := by
  rw [decision?_of_text text, readNumber?_of_digits digit, Option.filter_eq_some_iff,
    Option.some.injEq] at h
  exact ⟨h.1.symm, of_decide_eq_true h.2⟩

end Token

/-- What an accessor finds in a row: nothing without a token of the kind, and otherwise what the
first such token holds. -/
theorem Forest.rel_first? {f : Forest} {kind : TokenKind} {read : Token → Option α}
    {holds : Token → α → Prop}
    (h : ∀ t ∈ f.leaves, t.kind = kind → ∃ a, read t = some a ∧ holds t a) :
    Option.Rel holds (f.first? kind) ((f.first? kind).bind read) := by
  cases hfirst : f.first? kind with
  | none => exact .none
  | some t =>
    have hkind : t.kind = kind := by simpa using List.find?_some hfirst
    have leaf := mem_leaves_of_mem_tokens (List.mem_of_find?_eq_some hfirst)
    obtain ⟨a, hread, held⟩ := h t leaf hkind
    rw [Option.bind_some, hread]
    exact .some held

namespace Grammar.Loaded

variable {g : Grammar} (loaded : g.Loaded) {n : Node} (hn : n ∈ g.root.descendants) {t : Token}
  (ht : t ∈ n.inner.leaves)
include loaded hn ht

theorem mem_pattern (other : t.kind ≠ .head) (known : t.kind ≠ .error) :
    t.text.toList ∈ t.kind.pattern := by
  obtain ⟨lexeme, scanned, kind, text⟩ := loaded.exists_lexeme hn ht other
  rw [kind, text, String.toList_ofList]
  exact Lexeme.mem_pattern_of_isScanned scanned (kind ▸ known)

/-- A decision token is an at sign and digits. -/
theorem exists_digits (decision : t.kind = .decision) : ∃ d digits,
    t.text.toList = '@' :: d :: digits ∧ ∀ c ∈ d :: digits, IsDigit c := by
  have pattern := loaded.mem_pattern hn ht (by simp [decision]) (by simp [decision])
  rw [decision] at pattern
  obtain ⟨_, split, inside⟩ := Lexeme.mem_singleton_mul.mp pattern
  obtain ⟨d, digits, rfl, digit, others⟩ := Lexeme.exists_cons_of_mem_oneOf_mul inside
  exact ⟨d, digits, split, List.forall_mem_cons.mpr ⟨digit, Lexeme.mem_kstar_oneOf.mp others⟩⟩

/-- The check that a decision token passed where the grammar was loaded. -/
theorem hasDecision (decision : t.kind = .decision) : t.hasDecision := by
  obtain ⟨text, first, hload, hg⟩ := id loaded
  obtain ⟨root, _, _, -, -, -, -, numbered, hfirst⟩ := exists_of_load_ok hload
  have same : g.root = root := by rw [hg, hfirst]
  have all : ∀ t ∈ (Forest.ofNode g.root).leaves, t.kind = .decision → t.hasDecision := by
    rw [same]
    exact Forest.forall_leaves_node.mpr ⟨numbered, nofun⟩
  exact Forest.forall_leaves_of_mem_descendants all n hn t ht decision

/-- The number of a decision token that passed the check is not lost on the accessor. -/
theorem exists_number (decision : t.kind = .decision) :
    ∃ number, t.decision? = some number ∧ t.HasNumber number := by
  obtain ⟨d, digits, text, digit⟩ := loaded.exists_digits hn ht decision
  have single : (d :: digits).head? ≠ some '@' := fun sign =>
    absurd (digit '@' (List.mem_of_mem_head? sign)) (by unfold IsDigit; decide)
  have checked := loaded.hasDecision hn ht decision
  rw [Token.hasDecision_eq_isSome text single] at checked
  obtain ⟨number, hnumber⟩ := Option.isSome_iff_exists.mp checked
  obtain ⟨value, fits⟩ := Token.number_of_decision? text digit hnumber
  exact ⟨number, hnumber, d :: digits, text, List.cons_ne_nil _ _, digit, value, fits⟩

theorem exists_code (code : t.kind = .code) : ∃ body, t.code? = some body ∧ t.HasCode body := by
  obtain ⟨lexeme, scanned, kind, text⟩ := loaded.exists_lexeme hn ht (by simp [code])
  obtain ⟨body, mark, written, hmark⟩ := scanned.isBraced.exists_text kind text code
  refine ⟨_, Token.code?_of_text written hmark, body, mark, written, hmark, ?_⟩
  rw [Text.trim, String.toList_ofList]

theorem exists_arguments (arguments : t.kind = .argText) :
    ∃ body, t.argText? = some body ∧ t.HasArguments body := by
  have pattern := loaded.mem_pattern hn ht (by simp [arguments]) (by simp [arguments])
  rw [arguments] at pattern
  obtain ⟨_, split, inside⟩ := Lexeme.mem_singleton_mul.mp pattern
  obtain ⟨body, rfl, hbody⟩ := Lexeme.mem_mul_singleton.mp inside
  refine ⟨_, Token.argText?_of_text split, body, split, ?_, ?_⟩
  · exact fun closing => Lexeme.mem_kstar_oneOf.mp hbody _ closing rfl
  · rw [Text.trim, String.toList_ofList]

end Grammar.Loaded

/-- Every node of a loaded grammar has a number, code or arguments exactly if it has a token for
them directly inside, and then what the first such token holds. Decision tokens have passed the check
of the grammar, and none that has is lost on the accessor. Every rule has a name. -/
theorem Grammar.Loaded.contents_of_tokens {g : Grammar} (loaded : g.Loaded) :
    (∀ n ∈ g.root.descendants,
      Option.Rel Token.HasNumber (n.inner.first? .decision) n.inner.decision? ∧
      Option.Rel Token.HasCode (n.inner.first? .code) n.inner.code? ∧
      Option.Rel Token.HasArguments (n.inner.first? .argText) n.inner.argText? ∧
      ∀ t ∈ n.inner.tokens, t.kind = .decision → t.hasDecision ∧ t.decision?.isSome) ∧
    ∀ kind, (g.rulesFor kind).map Rule.name = (g.ruleNames kind).map some := by
  constructor
  · intro n hn
    refine ⟨Forest.rel_first? fun t ht => loaded.exists_number hn ht,
      Forest.rel_first? fun t ht => loaded.exists_code hn ht,
      Forest.rel_first? fun t ht => loaded.exists_arguments hn ht, fun t ht decision => ?_⟩
    have leaf := Forest.mem_leaves_of_mem_tokens ht
    obtain ⟨number, hnumber, _⟩ := loaded.exists_number hn leaf decision
    exact ⟨loaded.hasDecision hn leaf decision, Option.isSome_of_eq_some hnumber⟩
  · intro kind
    rw [ruleNames, List.map_filterMap, eq_comm, List.filterMap_eq_map_iff_forall_eq_some]
    intro rule hrule
    obtain ⟨name, hname⟩ := loaded.exists_name hrule
    rw [hname, Option.map_some]

/-- A rule with arguments, a decision number with leading zeros and a predicate. -/
def Grammar.annotated : Grammar :=
  (load ("(PARSER_GRAMMAR P(RULE a(ARG_ACTION[ int x ])" ++
    String.ofList ("(BLOCK @007 @8(ALT(SEMPRED".toList ++ ['{', 'b', '{', '}', ' ', '}', '?']) ++
    ")))))")).toOption.get (by decide +kernel)

theorem Grammar.Loaded.contents_of_tokens_annotated :
    annotated.Loaded ∧
    (annotated.root.descendants.filterMap fun n => n.inner.decision?) = [7] ∧
    (annotated.root.descendants.filterMap fun n => n.inner.code?) = ["b\x7b\x7d"] ∧
    (annotated.root.descendants.filterMap fun n => n.inner.argText?) = ["int x"] ∧
    (∀ n ∈ annotated.root.descendants,
      Option.Rel Token.HasNumber (n.inner.first? .decision) n.inner.decision? ∧
      Option.Rel Token.HasCode (n.inner.first? .code) n.inner.code? ∧
      Option.Rel Token.HasArguments (n.inner.first? .argText) n.inner.argText? ∧
      ∀ t ∈ n.inner.tokens, t.kind = .decision → t.hasDecision ∧ t.decision?.isSome) ∧
    ∀ kind, (annotated.rulesFor kind).map Rule.name = (annotated.ruleNames kind).map some := by
  have loaded : annotated.Loaded := loaded_get _
  refine ⟨loaded, ?_, ?_, ?_, loaded.contents_of_tokens⟩
  all_goals decide +kernel

end RecognizerModel
