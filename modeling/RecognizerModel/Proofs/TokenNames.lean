import Mathlib.Data.List.Induction
import RecognizerModel.Proofs.ContextFields
import RecognizerModel.Proofs.TokenTable

/-! The names in the table of token types: which they are and in what order. The rules that a
grammar gives a type to are those of its lexer, except in a parser grammar, which has no lexer but
gives a type to every rule with the name of a lexer rule. -/
namespace RecognizerModel

namespace Vocabulary

/-- Names in the order of their first definition; the end of input is never defined. -/
def defined (names : List String) : List String :=
  (names.filter (· ≠ eofName)).eraseDups

theorem mem_defined {names : List String} {name : String} :
    name ∈ defined names ↔ name ∈ names ∧ name ≠ eofName := by
  simp [defined, List.mem_eraseDups]

theorem defined_append_singleton (names : List String) (name : String) :
    defined (names ++ [name]) =
      if name = eofName ∨ name ∈ defined names then defined names
      else defined names ++ [name] := by
  by_cases eof : name = eofName
  · simp [defined, eof]
  · by_cases old : name ∈ names
    · rw [if_pos (.inr (mem_defined.mpr ⟨old, eof⟩))]
      simp [defined, eof, old, List.eraseDups_append, List.removeAll]
    · rw [if_neg (by simp [mem_defined, eof, old])]
      simp [defined, eof, old, List.eraseDups_append, List.removeAll, List.eraseDups_cons]

/-- A vocabulary holds the names in the order in which they were defined first. -/
theorem names_defineAll (names : List String) :
    (empty.defineAll names).names = defined names := by
  induction names using List.reverseRecOn with
  | nil => rfl
  | append_singleton names name ih =>
      have last : empty.defineAll (names ++ [name]) = ((empty.defineAll names).define name).2 := by
        simp [defineAll]
      rw [last, names_define, ih, defined_append_singleton]

end Vocabulary

/-- The token or literal that a reference node mentions. -/
def Node.mentioned? (n : Node) : Option String :=
  match n.kind with
  | .tokenRef => n.inner.firstText? .word
  | .stringLiteral => n.inner.firstText? .str
  | _ => none

theorem GrammarKind.isLexer_of_ofNodeKind? {node : NodeKind} {kind : GrammarKind}
    (h : ofNodeKind? node = some kind) : (node == .lexerGrammar) = (kind == .lexer) := by
  cases node <;> cases h <;> rfl

namespace Grammar

/-- The tokens and literals that a grammar mentions, each wherever it does. -/
def mentionedNames (g : Grammar) : List String :=
  g.root.descendants.filterMap Node.mentioned?

/-- The rules that a grammar gives a token type merely for being declared. -/
def declaredTokens (g : Grammar) : List String :=
  (g.rules.filterMap Rule.name).filter fun name => g.kind == .lexer || isLexerRuleName name

/-- The table of token names that has the rules of the lexer first and then what the grammar
mentions. -/
def lexerFirst (g : Grammar) : List String :=
  Vocabulary.invalidName :: Vocabulary.defined (g.ruleNames .lexer ++ g.mentionedNames)

theorem ruleNames_lexer (g : Grammar) : g.ruleNames .lexer =
    (g.rules.filterMap Rule.name).filter fun name =>
      g.kind == .lexer || g.kind == .combined && isLexerRuleName name := by
  rw [ruleNames, rulesFor, List.filterMap_filter, List.filter_filterMap]
  refine List.filterMap_congr fun rule _ => ?_
  unfold isLexerRule
  cases g.kind <;> cases rule.name <;> simp [Option.filter]

/-- In a grammar with a lexer the declared tokens are the rules of the lexer. -/
theorem declaredTokens_eq_ruleNames {g : Grammar} (other : g.kind ≠ .parser) :
    g.declaredTokens = g.ruleNames .lexer := by
  rw [ruleNames_lexer, declaredTokens]
  refine List.filter_congr fun name _ => ?_
  cases hkind : g.kind with
  | parser => exact absurd hkind other
  | lexer | combined => simp

theorem ruleNames_lexer_eq_nil {g : Grammar} (parser : g.kind = .parser) :
    g.ruleNames .lexer = [] := by
  simp [ruleNames_lexer, parser]

/-- A rule of the parser is a declared token in a parser grammar alone. -/
theorem mem_declaredTokens_iff {g : Grammar} {rule : Rule} {name : String}
    (hrule : rule ∈ g.rulesFor .parser) (hname : rule.name = some name) :
    name ∈ g.declaredTokens ↔ g.kind = .parser ∧ isLexerRuleName name := by
  obtain ⟨declared, belongs⟩ := List.mem_filter.mp hrule
  have mem : name ∈ g.rules.filterMap Rule.name := List.mem_filterMap.mpr ⟨rule, declared, hname⟩
  rw [declaredTokens, List.mem_filter, and_iff_right mem]
  unfold isLexerRule at belongs
  cases hkind : g.kind <;> simp_all

namespace Loaded

variable {g : Grammar}

theorem kind_eq (loaded : g.Loaded) : GrammarKind.ofNodeKind? g.root.kind = some g.kind := by
  obtain ⟨text, first, hload, hg⟩ := loaded
  have same : g.root = first.root ∧ g.kind = first.kind := by
    rw [hg]
    exact ⟨rfl, rfl⟩
  rw [same.1, same.2]
  exact (readFrom_of_load hload).kind

theorem names_eq (loaded : g.Loaded) :
    g.vocabulary.names = Vocabulary.defined (g.declaredTokens ++ g.mentionedNames) := by
  obtain ⟨_, _, hvocabulary⟩ := loaded.exists_read
  rw [hvocabulary, Vocabulary.names_defineAll, declaredTokens,
    ← GrammarKind.isLexer_of_ofNodeKind? loaded.kind_eq]
  rfl

/-- The token types of a loaded grammar go to the declared tokens and then to what is mentioned.
Unless it is a parser grammar these are the rules of its lexer, and a rule of its parser gets a type
only if it is mentioned as a token. A parser grammar has no lexer, so it has the table with the
lexer first exactly if its rules with the names of lexer rules are the tokens mentioned first, in
this order. -/
theorem tokenNames_of_loaded (loaded : g.Loaded) :
    g.vocabulary.tokenNames =
      Vocabulary.invalidName :: Vocabulary.defined (g.declaredTokens ++ g.mentionedNames) ∧
    (g.kind ≠ .parser → g.vocabulary.tokenNames = g.lexerFirst) ∧
    (g.kind = .parser → (g.vocabulary.tokenNames = g.lexerFirst ↔
      Vocabulary.defined g.declaredTokens <+: Vocabulary.defined g.mentionedNames)) ∧
    ∀ rule ∈ g.rulesFor .parser, ∀ name, rule.name = some name →
      (name ∈ g.vocabulary.names ↔ name ≠ Vocabulary.eofName ∧
        (name ∈ g.mentionedNames ∨ g.kind = .parser ∧ isLexerRuleName name)) := by
  have names := loaded.names_eq
  refine ⟨congrArg _ names, fun other => ?_, fun parser => ?_, fun rule hrule name hname => ?_⟩
  · rw [Vocabulary.tokenNames, names, declaredTokens_eq_ruleNames other, lexerFirst]
  · rw [Vocabulary.tokenNames, names, lexerFirst, ruleNames_lexer_eq_nil parser, List.nil_append,
      List.cons.injEq, and_iff_right rfl, Vocabulary.defined, List.filter_append]
    exact eraseDups_append_eq_iff _ _
  · rw [names, Vocabulary.mem_defined, List.mem_append, mem_declaredTokens_iff hrule hname,
      and_comm, or_comm]

end Loaded

/-- A parser grammar with a rule that has the name of a lexer rule. -/
def capitalRule : Grammar :=
  (load "(PARSER_GRAMMAR P(RULE Expr(BLOCK(ALT(TOKEN_REF ID)))))").toOption.get (by decide +kernel)

theorem capitalRule_names : capitalRule.kind = .parser ∧ capitalRule.declaredTokens = ["Expr"] ∧
    capitalRule.ruleNames .lexer = [] ∧ capitalRule.ruleNames .parser = ["Expr"] ∧
    capitalRule.mentionedNames = ["ID"] := by decide +kernel

namespace Loaded

theorem tokenNames_of_capitalRule : capitalRule.Loaded ∧
    capitalRule.vocabulary.tokenNames =
      Vocabulary.invalidName :: Vocabulary.defined (["Expr"] ++ ["ID"]) ∧
    capitalRule.kind = .parser ∧
    ¬Vocabulary.defined ["Expr"] <+: Vocabulary.defined ["ID"] ∧
    capitalRule.vocabulary.tokenNames ≠ capitalRule.lexerFirst := by
  obtain ⟨parser, declared, -, -, mentioned⟩ := capitalRule_names
  have loaded : capitalRule.Loaded := loaded_get _
  obtain ⟨names, -, lexerFirst, -⟩ := tokenNames_of_loaded loaded
  rw [declared, mentioned] at names lexerFirst
  have other : ¬Vocabulary.defined ["Expr"] <+: Vocabulary.defined ["ID"] := by decide
  exact ⟨loaded, names, parser, other, fun same => other ((lexerFirst parser).mp same)⟩

/-- The rule belongs to the parser and nothing mentions it, and it has the first token type. -/
theorem capitalRule_isToken : capitalRule.Loaded ∧
    capitalRule.vocabulary.tokenNames = ["<INVALID>", "Expr", "ID"] ∧
    capitalRule.lexerFirst = ["<INVALID>", "ID"] ∧
    "Expr" ∈ capitalRule.ruleNames .parser ∧ "Expr" ∉ capitalRule.ruleNames .lexer ∧
    "Expr" ∉ capitalRule.mentionedNames := by
  obtain ⟨-, -, lexer, parser, mentioned⟩ := capitalRule_names
  have names : capitalRule.vocabulary.tokenNames = ["<INVALID>", "Expr", "ID"] := by
    decide +kernel
  refine ⟨loaded_get _, names, ?_, ?_, ?_, ?_⟩
  · rw [lexerFirst, lexer, mentioned]
    decide
  · simp [parser]
  · simp [lexer]
  · simp [mentioned]

end Loaded

end Grammar

end RecognizerModel
