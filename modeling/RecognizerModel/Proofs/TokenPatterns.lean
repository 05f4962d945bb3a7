import Mathlib.Computability.Language
import Mathlib.Data.List.Chain
import Mathlib.Data.List.TakeWhile
import RecognizerModel.Proofs.CodeBlocks

/-! The patterns of tokens. A token that is read matches the pattern of its kind and is the longest
text that does, and where no pattern matches a stretch is given up. -/
namespace RecognizerModel

open Computability

namespace Lexeme

/-- The texts of one character for which a condition holds. -/
def oneOf (p : Char → Prop) : Language Char :=
  {cs | ∃ c, p c ∧ cs = [c]}

def IsLetter (c : Char) : Prop :=
  'A' ≤ c ∧ c ≤ 'Z' ∨ 'a' ≤ c ∧ c ≤ 'z' ∨ c = '_'

def IsDigit (c : Char) : Prop :=
  '0' ≤ c ∧ c ≤ '9'

def IsSpace (c : Char) : Prop :=
  c = ' ' ∨ c = '\t' ∨ c = '\r' ∨ c = '\n'

theorem isSpace_iff {c : Char} : isSpace c = true ↔ IsSpace c := by
  simp [isSpace, IsSpace, or_assoc]

theorem isDigit_iff {c : Char} : c.isDigit = true ↔ IsDigit c := by
  simp [Char.isDigit, IsDigit, Char.le_def]

theorem isWordStart_iff {c : Char} : isWordStart c = true ↔ IsLetter c := by
  have alpha : c.isAlpha = (c.isUpper || c.isLower) := rfl
  have upper : c.isUpper = decide ('A' ≤ c ∧ c ≤ 'Z') := rfl
  have lower : c.isLower = (decide ('a' ≤ c) && decide (c ≤ 'z')) := rfl
  simp [isWordStart, IsLetter, alpha, upper, lower, or_assoc]

theorem isWordRest_iff {c : Char} : isWordRest c = true ↔ IsLetter c ∨ IsDigit c := by
  rw [← isWordStart_iff, ← isDigit_iff]
  simp only [isWordRest, isWordStart, Char.isAlphanum, Bool.or_eq_true]
  tauto

/-- What stands in a literal between its quotes. -/
def quotedPart : Language Char :=
  oneOf (fun c => c ≠ '\'' ∧ c ≠ '\\') + {['\\']} * oneOf (· ≠ '\n')

/-- The texts in braces that belong together. -/
def blocks : Language Char :=
  {cs | IsBlock cs}

end Lexeme

open Lexeme in
/-- The texts that a token of a kind can be read from. Heads are only made of words that are read,
and an error is what matches no pattern. -/
def TokenKind.pattern : TokenKind → Language Char
  | lparen => {['(']}
  | rparen => {[')']}
  | whitespace => oneOf IsSpace * (oneOf IsSpace)∗
  | head => 0
  | word => oneOf IsLetter * (oneOf fun c => IsLetter c ∨ IsDigit c)∗
  | str => {['\'']} * (quotedPart∗ * {['\'']})
  | code => blocks * (1 + {['?']})
  | argText => {['[']} * ((oneOf (· ≠ ']'))∗ * {[']']})
  | decision => {['@']} * (oneOf IsDigit * (oneOf IsDigit)∗)
  | error => 0

namespace Lexeme

theorem mem_kstar_oneOf {p : Char → Prop} {cs : List Char} :
    cs ∈ (oneOf p)∗ ↔ ∀ c ∈ cs, p c := by
  constructor
  · rintro ⟨parts, rfl, ones⟩ c hc
    obtain ⟨part, hpart, hc⟩ := List.mem_flatten.mp hc
    obtain ⟨d, hd, rfl⟩ := ones part hpart
    exact List.mem_singleton.mp hc ▸ hd
  · intro all
    refine ⟨cs.map fun c => [c], (List.flatMap_singleton' cs).symm, ?_⟩
    rw [List.forall_mem_map]
    exact fun c hc => ⟨c, all c hc, rfl⟩

theorem append_mem_kstar {l : Language Char} {cs others : List Char} (h : cs ∈ l)
    (h' : others ∈ l∗) : cs ++ others ∈ l∗ := by
  obtain ⟨parts, rfl, inside⟩ := h'
  exact ⟨cs :: parts, rfl, List.forall_mem_cons.mpr ⟨h, inside⟩⟩

theorem cons_mem_oneOf_mul {p : Char → Prop} {l : Language Char} {c : Char} {cs : List Char} :
    c :: cs ∈ oneOf p * l ↔ p c ∧ cs ∈ l := by
  rw [Language.mem_mul]
  constructor
  · rintro ⟨_, ⟨d, hd, rfl⟩, others, hothers, same⟩
    obtain ⟨rfl, rfl⟩ := List.cons.inj same
    exact ⟨hd, hothers⟩
  · rintro ⟨hc, hcs⟩
    exact ⟨[c], ⟨c, hc, rfl⟩, cs, hcs, rfl⟩

theorem exists_cons_of_mem_oneOf_mul {p : Char → Prop} {l : Language Char} {cs : List Char}
    (h : cs ∈ oneOf p * l) : ∃ c others, cs = c :: others ∧ p c ∧ others ∈ l := by
  obtain ⟨_, ⟨c, hc, rfl⟩, others, hothers, rfl⟩ := Language.mem_mul.mp h
  exact ⟨c, others, rfl, hc, hothers⟩

theorem mem_singleton_mul {d : Char} {l : Language Char} {cs : List Char} :
    cs ∈ ({[d]} : Language Char) * l ↔ ∃ others, cs = d :: others ∧ others ∈ l := by
  rw [Language.mem_mul]
  constructor
  · rintro ⟨_, rfl, others, hothers, rfl⟩
    exact ⟨others, rfl, hothers⟩
  · rintro ⟨others, rfl, hothers⟩
    exact ⟨[d], rfl, others, hothers, rfl⟩

theorem mem_mul_singleton {l : Language Char} {own cs : List Char} :
    cs ∈ l * {own} ↔ ∃ front, cs = front ++ own ∧ front ∈ l := by
  rw [Language.mem_mul]
  constructor
  · rintro ⟨front, hfront, _, rfl, rfl⟩
    exact ⟨front, rfl, hfront⟩
  · rintro ⟨front, rfl, hfront⟩
    exact ⟨front, hfront, own, rfl, rfl⟩

theorem isPrefix_takeWhile {p : Char → Bool} {own cs : List Char} (h : own <+: cs)
    (all : ∀ c ∈ own, p c = true) : own <+: cs.takeWhile p := by
  obtain ⟨behind, rfl⟩ := h
  rw [List.takeWhile_append_of_pos all]
  exact List.prefix_append _ _

theorem quoted_parts {parts : List (List Char)} (h : ∀ part ∈ parts, part ∈ quotedPart) :
    quoted (parts.flatten ++ ['\'']) = (parts.flatten ++ ['\''], true) := by
  induction parts with
  | nil => simp [quoted]
  | cons part parts ih =>
    obtain ⟨here, others⟩ := List.forall_mem_cons.mp h
    rw [List.flatten_cons]
    rcases (Language.mem_add _ _ _).mp here with ⟨c, ⟨quote, plain⟩, rfl⟩ | escape
    · rw [List.append_assoc, List.singleton_append, quoted, if_neg quote, ih others]
      all_goals simp [plain]
    · obtain ⟨_, rfl, c, other, rfl⟩ := mem_singleton_mul.mp escape
      rw [List.append_assoc, List.cons_append, List.singleton_append, quoted, ih others]
      exact other

theorem mem_of_quoted {cs body : List Char} (h : quoted cs = (body, true)) :
    body ∈ quotedPart∗ * {['\'']} := by
  have push {part others : List Char} (h : part ∈ quotedPart)
      (behind : others ∈ quotedPart∗ * {['\'']}) : part ++ others ∈ quotedPart∗ * {['\'']} := by
    obtain ⟨front, rfl, hfront⟩ := mem_mul_singleton.mp behind
    exact mem_mul_singleton.mpr
      ⟨part ++ front, (List.append_assoc ..).symm, append_mem_kstar h hfront⟩
  fun_induction quoted cs generalizing body with
  | case1 | case2 => cases h
  | case3 c rest other inner closed inside ih =>
    obtain ⟨rfl, rfl⟩ := Prod.mk.inj h
    exact push (.inr (mem_singleton_mul.mpr ⟨[c], rfl, c, other, rfl⟩)) (ih inside)
  | case4 =>
    obtain ⟨rfl, -⟩ := Prod.mk.inj h
    exact mem_mul_singleton.mpr ⟨[], rfl, Language.nil_mem_kstar _⟩
  | case5 c rest _ noEscape quote inner closed inside ih =>
    obtain ⟨rfl, rfl⟩ := Prod.mk.inj h
    have plain : c ≠ '\\' := by
      rintro rfl
      cases rest with
      | nil => cases inside
      | cons d rest => exact noEscape d rest rfl rfl
    exact push (.inl ⟨c, ⟨quote, plain⟩, rfl⟩) (ih inside)

/-- What is read matches the pattern of its kind. -/
theorem mem_pattern_first {c : Char} {rest : List Char} (known : (first c rest).kind ≠ .error) :
    (first c rest).text ∈ (first c rest).kind.pattern := by
  have stretch {p : Char → Bool} {q : Char → Prop} (h : ∀ {c}, p c = true ↔ q c) :
      rest.takeWhile p ∈ (oneOf q)∗ :=
    mem_kstar_oneOf.mpr fun d hd => h.mp (List.mem_takeWhile_imp hd)
  unfold first at known ⊢
  by_cases opens : c = '('
  · rw [if_pos opens, opens]
    rfl
  rw [if_neg opens] at known ⊢
  by_cases closes : c = ')'
  · rw [if_pos closes, closes]
    rfl
  rw [if_neg closes] at known ⊢
  by_cases space : isSpace c = true
  · rw [if_pos space]
    exact cons_mem_oneOf_mul.mpr ⟨isSpace_iff.mp space, stretch isSpace_iff⟩
  rw [if_neg space] at known ⊢
  by_cases letter : isWordStart c = true
  · rw [if_pos letter]
    exact cons_mem_oneOf_mul.mpr ⟨isWordStart_iff.mp letter, stretch isWordRest_iff⟩
  rw [if_neg letter] at known ⊢
  by_cases quote : c = '\''
  · rw [if_pos quote] at known ⊢
    rcases hquoted : quoted rest with ⟨body, _ | _⟩
    · simp [hquoted] at known
    · exact mem_singleton_mul.mpr ⟨body, by rw [quote], mem_of_quoted hquoted⟩
  rw [if_neg quote] at known ⊢
  by_cases brace : c = '{'
  · rw [if_pos brace] at known ⊢
    cases hbody : balanced 0 rest with
    | none => simp [hbody] at known
    | some body =>
      rw [brace]
      refine Language.mem_mul.mpr ⟨'{' :: body, isBlock_of_balanced hbody, _, ?_, rfl⟩
      rw [questionMark_eq]
      split
      · exact .inr rfl
      · exact .inl rfl
  rw [if_neg brace] at known ⊢
  by_cases bracket : c = '['
  · rw [if_pos bracket] at known ⊢
    have closed := Decidable.not_not.mp fun unclosed => known (if_neg unclosed ▸ rfl)
    rw [if_pos closed, bracket]
    refine mem_singleton_mul.mpr ⟨_, rfl, mem_mul_singleton.mpr ⟨_, rfl, stretch ?_⟩⟩
    simp
  rw [if_neg bracket] at known ⊢
  by_cases decision : c = '@'
  · rw [if_pos decision] at known ⊢
    cases hdigits : rest.takeWhile Char.isDigit with
    | nil => simp [hdigits] at known
    | cons d digits =>
      have inside : ∀ c ∈ d :: digits, IsDigit c := by
        rw [← hdigits]
        exact fun c hc => isDigit_iff.mp (List.mem_takeWhile_imp hc)
      obtain ⟨here, others⟩ := List.forall_mem_cons.mp inside
      rw [decision]
      refine mem_singleton_mul.mpr ⟨d :: digits, rfl, ?_⟩
      exact cons_mem_oneOf_mul.mpr ⟨here, mem_kstar_oneOf.mpr others⟩
  · rw [if_neg decision] at known
    exact absurd rfl known

theorem first_of_isSpace {c : Char} (rest : List Char) (h : isSpace c = true) :
    first c rest = ⟨.whitespace, c :: rest.takeWhile isSpace⟩ := by
  rw [first_of_isBlank rest (isBlank_of_isSpace h), if_pos h]

theorem first_of_isWordStart {c : Char} (rest : List Char) (h : isWordStart c = true) :
    first c rest = ⟨.word, c :: rest.takeWhile isWordRest⟩ := by
  have ne (d : Char) (hd : isWordStart d = false) : c ≠ d := by
    rintro rfl
    rw [h] at hd
    cases hd
  have noSpace : isSpace c = false := by
    simp [isSpace, ne ' ' (by decide), ne '\t' (by decide), ne '\r' (by decide),
      ne '\n' (by decide)]
  simp [first, h, noSpace, ne '(' (by decide), ne ')' (by decide)]

theorem first_quote (rest : List Char) :
    first '\'' rest =
      ⟨if (quoted rest).2 then .str else .error, '\'' :: (quoted rest).1⟩ := rfl

theorem first_bracket (rest : List Char) :
    first '[' rest =
      if (rest.takeWhile (· != ']')).length < rest.length then
        ⟨.argText, '[' :: (rest.takeWhile (· != ']') ++ [']'])⟩
      else ⟨.error, '[' :: rest.takeWhile (· != ']')⟩ := rfl

theorem first_at (rest : List Char) :
    first '@' rest =
      ⟨if (rest.takeWhile Char.isDigit).isEmpty then .error else .decision,
        '@' :: rest.takeWhile Char.isDigit⟩ := rfl

/-- Nothing in front of a text matches a pattern but what is read, or shorter texts of the kind. -/
theorem isPrefix_first {c : Char} {rest own : List Char} {kind : TokenKind}
    (h : own ∈ kind.pattern) (front : own <+: c :: rest) :
    (first c rest).kind = kind ∧ own <+: (first c rest).text := by
  cases kind with
  | head | error => cases h
  | lparen | rparen =>
    obtain rfl : own = _ := h
    obtain ⟨rfl, -⟩ := List.cons_prefix_cons.mp front
    exact ⟨rfl, List.prefix_rfl⟩
  | whitespace =>
    obtain ⟨d, spaces, rfl, space, inside⟩ := exists_cons_of_mem_oneOf_mul h
    obtain ⟨rfl, behind⟩ := List.cons_prefix_cons.mp front
    rw [first_of_isSpace rest (isSpace_iff.mpr space)]
    refine ⟨rfl, List.cons_prefix_cons.mpr ⟨rfl, isPrefix_takeWhile behind ?_⟩⟩
    exact fun c hc => isSpace_iff.mpr (mem_kstar_oneOf.mp inside c hc)
  | word =>
    obtain ⟨d, others, rfl, letter, inside⟩ := exists_cons_of_mem_oneOf_mul h
    obtain ⟨rfl, behind⟩ := List.cons_prefix_cons.mp front
    rw [first_of_isWordStart rest (isWordStart_iff.mpr letter)]
    refine ⟨rfl, List.cons_prefix_cons.mpr ⟨rfl, isPrefix_takeWhile behind ?_⟩⟩
    exact fun c hc => isWordRest_iff.mpr (mem_kstar_oneOf.mp inside c hc)
  | str =>
    obtain ⟨body, rfl, inside⟩ := mem_singleton_mul.mp h
    obtain ⟨rfl, behind, rfl⟩ := List.cons_prefix_cons.mp front
    obtain ⟨_, rfl, parts, rfl, hparts⟩ := mem_mul_singleton.mp inside
    rw [first_quote, quoted_append (quoted_parts hparts)]
    exact ⟨rfl, List.prefix_rfl⟩
  | code =>
    obtain ⟨block, isBlock, mark, hmark, rfl⟩ := Language.mem_mul.mp h
    obtain ⟨body, rfl⟩ := isBlock.exists_eq_cons
    obtain ⟨rfl, inside⟩ := List.cons_prefix_cons.mp front
    have hbody : body <+: rest := (List.prefix_append _ _).trans inside
    have reads : balanced 0 rest = some body := by
      cases balances : balanced 0 rest with
      | none =>
        exact absurd isBlock.closed (Int.ne_of_gt (braceDepth_pos_of_not_balanced balances hbody))
      | some other =>
        have same := isBlock.eq_of_isPrefix (isBlock_of_balanced balances)
          (List.cons_prefix_cons.mpr ⟨rfl, hbody⟩)
          (List.cons_prefix_cons.mpr ⟨rfl, balanced_isPrefix balances⟩)
        rw [List.cons.inj same |>.2]
    obtain ⟨behind, rfl⟩ := hbody
    rw [first_of_balanced reads, List.drop_left]
    refine ⟨rfl, List.cons_prefix_cons.mpr ⟨rfl, (List.prefix_append_right_inj _).mpr ?_⟩⟩
    rcases (Language.mem_add _ _ _).mp hmark with rfl | rfl
    · exact List.nil_prefix
    · obtain ⟨rest, rfl⟩ := (List.prefix_append_right_inj _).mp inside
      exact List.prefix_rfl
  | argText =>
    obtain ⟨body, rfl, inside⟩ := mem_singleton_mul.mp h
    obtain ⟨rfl, behind, rfl⟩ := List.cons_prefix_cons.mp front
    obtain ⟨own, rfl, hown⟩ := mem_mul_singleton.mp inside
    have inner : ∀ c ∈ own, (c != ']') = true := by simpa using mem_kstar_oneOf.mp hown
    have stops : (own ++ [']'] ++ behind).takeWhile (· != ']') = own := by
      rw [List.append_assoc, List.takeWhile_append_of_pos inner]
      simp
    rw [first_bracket, stops, if_pos (by simp)]
    exact ⟨rfl, List.prefix_rfl⟩
  | decision =>
    obtain ⟨digits, rfl, inside⟩ := mem_singleton_mul.mp h
    obtain ⟨rfl, behind⟩ := List.cons_prefix_cons.mp front
    obtain ⟨d, others, rfl, digit, hothers⟩ := exists_cons_of_mem_oneOf_mul inside
    have stretch : d :: others <+: rest.takeWhile Char.isDigit := by
      refine isPrefix_takeWhile behind (List.forall_mem_cons.mpr ⟨isDigit_iff.mpr digit, ?_⟩)
      exact fun c hc => isDigit_iff.mpr (mem_kstar_oneOf.mp hothers c hc)
    have some : (rest.takeWhile Char.isDigit).isEmpty = false := by
      obtain ⟨more, same⟩ := stretch
      rw [← same]
      rfl
    rw [first_at, some]
    exact ⟨rfl, List.cons_prefix_cons.mpr ⟨rfl, stretch⟩⟩

/-- At each place where lexing begins again no pattern matches more than what is read there. -/
theorem isPrefix_of_scan {cs own : List Char} {before after : List Lexeme} {l : Lexeme}
    {kind : TokenKind} (split : scan 0 cs = before ++ l :: after) (h : own ∈ kind.pattern)
    (front : own <+: (l :: after).flatMap text) : l.kind = kind ∧ own <+: l.text := by
  have again := scan_flatMap_of_append split
  cases behind : (l :: after).flatMap text with
  | nil =>
    rw [behind] at again
    cases again
  | cons c rest =>
    rw [behind, scan_cons] at again
    rw [behind] at front
    obtain ⟨rfl, -⟩ := List.cons.inj again
    exact isPrefix_first h front

theorem mem_pattern_of_isScanned {l : Lexeme} (h : l.IsScanned) (known : l.kind ≠ .error) :
    l.text ∈ l.kind.pattern := by
  rcases h with error | ⟨c, rest, rfl⟩
  · exact absurd error known
  · exact mem_pattern_first known

theorem append_mem_oneOf_mul_kstar {p q : Char → Prop} {cs others : List Char}
    (within : ∀ c, p c → q c) (h : cs ∈ oneOf p * (oneOf q)∗) (h' : others ∈ oneOf p * (oneOf q)∗) :
    cs ++ others ∈ oneOf p * (oneOf q)∗ := by
  obtain ⟨c, cs, rfl, hc, hcs⟩ := exists_cons_of_mem_oneOf_mul h
  obtain ⟨d, others, rfl, hd, hothers⟩ := exists_cons_of_mem_oneOf_mul h'
  refine cons_mem_oneOf_mul.mpr ⟨hc, mem_kstar_oneOf.mpr (List.forall_mem_append.mpr ?_)⟩
  exact ⟨mem_kstar_oneOf.mp hcs,
    List.forall_mem_cons.mpr ⟨within d hd, mem_kstar_oneOf.mp hothers⟩⟩

end Lexeme

namespace TokenKind

/-- Whether what is read of a kind goes on as far as it can. -/
def Runs (kind : TokenKind) : Prop :=
  kind = .word ∨ kind = .whitespace

/-- Two texts that a running kind is read from are together one more. -/
theorem Runs.append_mem_pattern {kind : TokenKind} (h : kind.Runs) {cs others : List Char}
    (hcs : cs ∈ kind.pattern) (hothers : others ∈ kind.pattern) :
    cs ++ others ∈ kind.pattern := by
  obtain rfl | rfl := h
  · exact Lexeme.append_mem_oneOf_mul_kstar (fun _ => .inl) hcs hothers
  · exact Lexeme.append_mem_oneOf_mul_kstar (fun _ => id) hcs hothers

/-- Whether tokens of these kinds can stand side by side. -/
def Parted (kind next : TokenKind) : Prop :=
  kind = next → kind ≠ .error ∧ kind ≠ .word ∧ kind ≠ .whitespace

end TokenKind

namespace Lexeme

theorem isChain_scan (cs : List Char) :
    (scan 0 cs).IsChain fun l next => l.kind = next.kind → ¬ l.kind.Runs := by
  rw [List.isChain_iff_forall_rel_of_append_cons_cons]
  intro l next before after split same runs
  have known : l.kind ≠ .error := by rcases runs with kind | kind <;> simp [kind]
  have scanned : ∀ x ∈ l :: next :: after, x.IsScanned := fun x hx =>
    isScanned_scan x (split ▸ List.mem_append_right _ hx)
  have own := mem_pattern_of_isScanned (scanned l (by simp)) known
  have other := mem_pattern_of_isScanned (scanned next (by simp)) (same ▸ known)
  have longer := (isPrefix_of_scan split (runs.append_mem_pattern own (same ▸ other))
    (by simp)).2.length_le
  have nonempty := List.length_pos_iff.mpr
    (ne_nil_of_mem_scan next (split ▸ List.mem_append_right _ (by simp)))
  rw [List.length_append] at longer
  omega

theorem head?_joined (lexemes : List Lexeme) :
    (lexemes.foldr join []).head?.map kind = lexemes.head?.map kind := by
  cases lexemes with
  | nil => rfl
  | cons l rest =>
    rw [List.foldr_cons]
    cases rest.foldr join [] with
    | nil => rfl
    | cons next others =>
      rw [join]
      split
      · next errors => simp [errors.1]
      · rfl

theorem isChain_joined {lexemes : List Lexeme}
    (h : lexemes.IsChain fun l next => l.kind = next.kind → ¬ l.kind.Runs) :
    ((lexemes.foldr join []).map kind).IsChain TokenKind.Parted := by
  induction lexemes with
  | nil => exact .nil
  | cons l rest ih =>
    obtain ⟨here, others⟩ := List.isChain_cons.mp h
    have behind := ih others
    have head := head?_joined rest
    rw [List.foldr_cons]
    cases hrest : rest.foldr join [] with
    | nil => exact .singleton _
    | cons next more =>
      rw [hrest] at behind head
      rw [join]
      split
      · next errors =>
        rw [List.map_cons, ← errors.2]
        exact behind
      · next apart =>
        refine List.isChain_cons_cons.mpr ⟨fun same => ?_, behind⟩
        obtain ⟨x, hx, kind⟩ := Option.map_eq_some_iff.mp head.symm
        have runs := here x hx (same.trans kind.symm)
        exact ⟨fun error => apart ⟨error, same ▸ error⟩, fun word => runs (.inl word),
          fun space => runs (.inr space)⟩

end Lexeme

/-- What holds of the tokens of a source. -/
structure Token.AreOf (tokens : List Token) (source : String) : Prop where
  tile : Span.Tile 0 source.utf8ByteSize (tokens.map Token.span)
  texts : Token.texts tokens = source
  nonempty : ∀ t ∈ tokens, t.start < t.stop
  slices : ∀ t ∈ tokens, t.span.slice? source = some t.text
  parted : (tokens.map Token.kind).IsChain TokenKind.Parted
  matching : ∀ t ∈ tokens, t.kind ≠ .error → t.text.toList ∈ t.kind.pattern

/-- The tokens of a source tile it, none could be joined with the next one, and each matches the
pattern of its kind. Where the lexer begins to read no pattern matches more than what it reads. -/
theorem tokens_of_source (source : String) :
    Token.AreOf (tokenize source) source ∧
      ∀ before l after, Lexeme.scan 0 source.toList = before ++ l :: after →
        ∀ kind own, own ∈ TokenKind.pattern kind → own <+: (l :: after).flatMap Lexeme.text →
          l.kind = kind ∧ own <+: l.text := by
  refine ⟨?_, fun before l after split kind own => Lexeme.isPrefix_of_scan split⟩
  constructor
  case tile => exact tile_tokenize source
  case texts => exact texts_tokenize source
  case slices => exact fun t => slice?_of_mem_tokenize
  case nonempty => exact fun t ht => Token.start_lt_stop (text_ne_empty_of_mem_tokenize ht)
  case parted =>
    rw [tokenize, Lexeme.map_kind_place]
    exact Lexeme.isChain_joined (Lexeme.isChain_scan source.toList)
  case matching =>
    intro t ht known
    obtain ⟨lexeme, scanned, kind, text⟩ := exists_lexeme_of_mem_tokenize ht
    rw [kind, text, String.toList_ofList]
    exact Lexeme.mem_pattern_of_isScanned scanned (kind ▸ known)

/-- Of a quote that is not closed the rest of the text is given up, with the character before it. -/
theorem tokens_of_source_of_unclosed : ∃ tokens, Token.AreOf tokens "x 'é'ü'y \x7b" ∧
    tokens.map Token.text = ["x", " ", "'é'", "ü'y \x7b"] ∧
      "'é'".toList ∈ TokenKind.str.pattern := by
  have evaluated : tokenize "x 'é'ü'y \x7b" =
      [⟨.word, "x", 0⟩, ⟨.whitespace, " ", 1⟩, ⟨.str, "'é'", 2⟩, ⟨.error, "ü'y \x7b", 6⟩] := by
    decide +kernel
  have lexed := (tokens_of_source "x 'é'ü'y \x7b").1
  rw [evaluated] at lexed
  exact ⟨_, lexed, rfl, lexed.matching ⟨.str, "'é'", 2⟩ (by simp) nofun⟩

end RecognizerModel
