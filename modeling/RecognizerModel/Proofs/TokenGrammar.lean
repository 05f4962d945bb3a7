import RecognizerModel.Proofs.StrippedReading

/-! The grammar that texts are read by, as a grammar of tokens. A text is read exactly if its tokens
are those of a grammar's node with nothing but blanks behind it. If it is not, what stands before
the offence that is reported is as it should be, so that no offence lies further to the left. -/
namespace RecognizerModel

/-- Whether a token of this kind may stand in a node, behind its head and outside of other nodes. -/
def TokenKind.isItem : TokenKind → Bool
  | .whitespace | .word | .str | .code | .argText | .decision => true
  | _ => false

namespace Token

/-- A parenthesis with a known head word directly behind it. -/
structure Opens (kind : NodeKind) (lparen word : Token) : Prop where
  opens : lparen.kind = .lparen
  names : word.kind = .word
  head : NodeKind.ofHead? word.text = some kind

/-- What may stand between the head of a node and its end: whole nodes and single tokens. -/
inductive Items : List Token → Prop
  | nil : Items []
  | token {t : Token} {rest : List Token} (item : t.kind.isItem) (behind : Items rest) :
      Items (t :: rest)
  | node {kind : NodeKind} {lparen word rparen : Token} {inner rest : List Token}
      (opens : Opens kind lparen word) (inside : Items inner) (closes : rparen.kind = .rparen)
      (behind : Items rest) : Items (lparen :: word :: (inner ++ rparen :: rest))

/-- The tokens of one whole node. -/
inductive IsNode (kind : NodeKind) : List Token → Prop
  | mk {lparen word rparen : Token} {inner : List Token} (opens : Opens kind lparen word)
      (inside : Items inner) (closes : rparen.kind = .rparen) :
      IsNode kind (lparen :: word :: (inner ++ [rparen]))

/-- The tokens of one grammar with nothing but blanks behind it. -/
def IsGrammar (tokens : List Token) : Prop :=
  ∃ kind own blanks, tokens = own ++ blanks ∧ IsNode kind own ∧ kind.isGrammar = true ∧
    ∀ t ∈ blanks, t.kind = .whitespace

/-- Tokens up to a place inside of nodes, or in front of the first. The nodes that are open there
are given by their kinds and the places of their parentheses, innermost first. -/
inductive Unclosed : List (NodeKind × Nat) → List Token → Prop
  | nil : Unclosed [] []
  | node {nodes : List (NodeKind × Nat)} {before inner : List Token} {kind : NodeKind}
      {lparen word : Token} (outside : Unclosed nodes before) (opens : Opens kind lparen word)
      (inside : Items inner) :
      Unclosed ((kind, lparen.start) :: nodes) (before ++ lparen :: word :: inner)

/-- What is wrong with tokens, where they first go wrong. -/
inductive Offence : List Token → SyntaxError → Prop
  | empty : Offence [] .empty
  -- at the first token, which has to be a parenthesis
  | unmatched {t : Token} {rest : List Token} (first : t.kind = .rparen) :
      Offence (t :: rest) (.unmatched t.start)
  | unreadable {t : Token} {rest : List Token} (first : t.kind = .error) :
      Offence (t :: rest) (.unexpectedCharacter t.start)
  | noNode {t : Token} {rest : List Token} (first : t.kind.isItem) :
      Offence (t :: rest) (.notAGrammar t.start)
  -- before the outermost node is closed
  | missingHead {nodes : List (NodeKind × Nat)} {before rest : List Token} {lparen : Token}
      (upTo : Unclosed nodes before) (opens : lparen.kind = .lparen)
      (headless : ∀ word ∈ rest.head?, word.kind ≠ .word) :
      Offence (before ++ lparen :: rest) (.missingHead lparen.start)
  | unknownHead {nodes : List (NodeKind × Nat)} {before rest : List Token} {lparen word : Token}
      (upTo : Unclosed nodes before) (opens : lparen.kind = .lparen) (names : word.kind = .word)
      (unknown : NodeKind.ofHead? word.text = none) :
      Offence (before ++ lparen :: word :: rest) (.unknownHead word.text word.start)
  | unexpected {node : NodeKind × Nat} {nodes : List (NodeKind × Nat)}
      {before rest : List Token} {t : Token} (upTo : Unclosed (node :: nodes) before)
      (error : t.kind = .error) : Offence (before ++ t :: rest) (.unexpectedCharacter t.start)
  | unclosed {kind : NodeKind} {start : Nat} {nodes : List (NodeKind × Nat)}
      {tokens : List Token} (upTo : Unclosed ((kind, start) :: nodes) tokens) :
      Offence tokens (.unclosed start)
  -- behind the outermost node
  | otherKind {kind : NodeKind} {own rest : List Token} (node : IsNode kind own)
      (other : kind.isGrammar = false) : Offence (own ++ rest) (.notAGrammar 0)
  | trailing {kind : NodeKind} {own blanks rest : List Token} {t : Token}
      (node : IsNode kind own) (grammar : kind.isGrammar = true)
      (blank : ∀ b ∈ blanks, b.kind = .whitespace) (extra : t.kind ≠ .whitespace) :
      Offence (own ++ (blanks ++ t :: rest)) (.trailingInput t.start)

theorem Items.append {first second : List Token} (h : Items first) (h' : Items second) :
    Items (first ++ second) := by
  induction h with
  | nil => exact h'
  | token item _ ih => exact .token item ih
  | @node kind lparen word rparen inner rest opens inside closes _ _ ih =>
    have joined := Items.node opens inside closes ih
    simpa using joined

theorem Items.singleton {t : Token} (item : t.kind.isItem) : Items [t] :=
  .token item .nil

namespace Unclosed

variable {nodes : List (NodeKind × Nat)} {before : List Token}

theorem enter (h : Unclosed nodes before) {kind : NodeKind} {lparen word : Token}
    (opens : Opens kind lparen word) :
    Unclosed ((kind, lparen.start) :: nodes) (before ++ [lparen, word]) :=
  .node h opens .nil

theorem items {node : NodeKind × Nat} (h : Unclosed (node :: nodes) before) {own : List Token}
    (items : Items own) : Unclosed (node :: nodes) (before ++ own) := by
  cases h with
  | node outside opens inside =>
    have longer := Unclosed.node outside opens (inside.append items)
    simpa using longer

/-- A node that is closed is one of the items of the node around it. -/
theorem leave {node outer : NodeKind × Nat} (h : Unclosed (node :: outer :: nodes) before)
    {rparen : Token} (closes : rparen.kind = .rparen) :
    Unclosed (outer :: nodes) (before ++ [rparen]) := by
  cases h with
  | node outside opens inside =>
    have whole := outside.items (Items.node opens inside closes .nil)
    simpa using whole

theorem isNode {kind : NodeKind} {start : Nat} (h : Unclosed [(kind, start)] before)
    {rparen : Token} (closes : rparen.kind = .rparen) : IsNode kind (before ++ [rparen]) := by
  cases h with
  | node outside opens inside =>
    cases outside with
    | nil => simpa using IsNode.mk opens inside closes

end Unclosed

/-- Each kind of token that is no delimiter and can be read may stand in a node, but for heads,
which only the reader makes. -/
theorem isItem_of_ne {t : Token} (opens : t.kind ≠ .lparen) (closes : t.kind ≠ .rparen)
    (known : t.kind ≠ .error) (other : t.kind ≠ .head) : t.kind.isItem := by
  cases h : t.kind <;> simp_all [TokenKind.isItem]

end Token

open Token (Unclosed Offence Items IsNode IsGrammar)

theorem Lexeme.IsScanned.kind_ne_head {lexeme : Lexeme} (h : lexeme.IsScanned) :
    lexeme.kind ≠ .head := by
  obtain error | ⟨c, rest, rfl⟩ := h
  · simp [error]
  · unfold first
    grind

theorem kind_ne_head_of_mem_tokenize {source : String} {t : Token} (h : t ∈ tokenize source) :
    t.kind ≠ .head := by
  obtain ⟨lexeme, scanned, same, _⟩ := exists_lexeme_of_mem_tokenize h
  rw [same]
  exact scanned.kind_ne_head

/-- An open node without what has been read inside. -/
def OpenNode.outline (n : OpenNode) : NodeKind × Nat :=
  (n.kind, n.start)

/-- Reading on from a place inside of nodes, the reader comes to the end of the outermost or to the
first offence. -/
theorem readNode_sound {stack : List OpenNode} {before tokens : List Token}
    (upTo : Unclosed (stack.map OpenNode.outline) before)
    (lexed : ∀ t ∈ tokens, t.kind ≠ .head) :
    match readNode stack tokens with
    | .ok (node, rest) => ∃ own, before ++ tokens = own ++ rest ∧ IsNode node.kind own
    | .error e => Offence (before ++ tokens) e := by
  fun_induction readNode stack tokens generalizing before with
  | case1 =>
    cases upTo
    exact .empty
  | case2 n outer =>
    rw [List.append_nil]
    exact .unclosed upTo
  | case3 stack lparen opens => exact .missingHead upTo opens (by simp)
  -- a parenthesis with a known head
  | case4 stack lparen opens word rest names kind head ih =>
    have entered : Unclosed ((OpenNode.opening kind lparen word :: stack).map OpenNode.outline)
        (before ++ [lparen, word]) := upTo.enter ⟨opens, names, head⟩
    have later : ∀ t ∈ rest, t.kind ≠ .head := fun t ht => lexed t (by simp [ht])
    simpa using ih entered later
  | case5 stack lparen opens word rest names unknown =>
    exact .unknownHead upTo opens names unknown
  | case6 stack lparen opens word rest other => exact .missingHead upTo opens (by simpa using other)
  | case7 t rest closes =>
    cases upTo
    exact .unmatched closes
  -- the parenthesis that closes the outermost node
  | case8 rparen rest closes n =>
    exact ⟨before ++ [rparen], by simp, upTo.isNode closes⟩
  -- a parenthesis that closes a node inside another
  | case9 rparen rest closes n parent outer ih =>
    have left : Unclosed ((parent.pushNode (n.close rparen) :: outer).map OpenNode.outline)
        (before ++ [rparen]) := upTo.leave closes
    have later : ∀ t ∈ rest, t.kind ≠ .head := fun t ht => lexed t (by simp [ht])
    simpa using ih left later
  | case10 stack t rest error =>
    cases stack with
    | nil =>
      cases upTo
      exact .unreadable error
    | cons n outer => exact .unexpected upTo error
  | case11 t rest opens closes error =>
    cases upTo
    exact .noNode (Token.isItem_of_ne opens closes error (lexed t (by simp)))
  -- any other token is an item of the innermost open node
  | case12 t rest n outer opens closes error ih =>
    have item := Token.isItem_of_ne opens closes error (lexed t (by simp))
    have longer : Unclosed ((n.push t :: outer).map OpenNode.outline) (before ++ [t]) :=
      Unclosed.items upTo (.singleton item)
    have later : ∀ t ∈ rest, t.kind ≠ .head := fun t ht => lexed t (by simp [ht])
    simpa using ih longer later

theorem readNode_items {own : List Token} (items : Items own) (n : OpenNode)
    (outer : List OpenNode) (rest : List Token) :
    ∃ done, readNode (n :: outer) (own ++ rest) = readNode ({ n with done } :: outer) rest := by
  induction items generalizing n outer rest with
  | nil => exact ⟨n.done, rfl⟩
  | @token t behind item _ ih =>
    have opens : t.kind ≠ .lparen := by
      intro h
      simp [h, TokenKind.isItem] at item
    have closes : t.kind ≠ .rparen := by
      intro h
      simp [h, TokenKind.isItem] at item
    have known : t.kind ≠ .error := by
      intro h
      simp [h, TokenKind.isItem] at item
    rw [List.cons_append, readNode_push n outer t (behind ++ rest) opens closes known]
    exact ih (n.push t) outer rest
  | @node kind lparen word rparen inner behind opens _ closes _ ihInside ihBehind =>
    obtain ⟨done, read⟩ :=
      ihInside (.opening kind lparen word) (n :: outer) (rparen :: (behind ++ rest))
    let inside : OpenNode := { OpenNode.opening kind lparen word with done }
    obtain ⟨done', read'⟩ := ihBehind (n.pushNode (inside.close rparen)) outer rest
    refine ⟨done', ?_⟩
    simp only [List.cons_append, List.append_assoc]
    rw [readNode_open _ lparen word _ opens.opens opens.names opens.head, read,
      readNode_closeInner _ n outer rparen _ closes, read']
    rfl

theorem readNode_unclosed {nodes : List (NodeKind × Nat)} {before : List Token}
    (upTo : Unclosed nodes before) (rest : List Token) :
    ∃ stack : List OpenNode, stack.map OpenNode.outline = nodes ∧
      readNode [] (before ++ rest) = readNode stack rest := by
  induction upTo generalizing rest with
  | nil => exact ⟨[], rfl, rfl⟩
  | @node nodes before inner kind lparen word _ opens inside ih =>
    obtain ⟨stack, rfl, outside⟩ := ih (lparen :: word :: (inner ++ rest))
    obtain ⟨done, read⟩ := readNode_items inside (.opening kind lparen word) stack rest
    refine ⟨{ OpenNode.opening kind lparen word with done } :: stack, rfl, ?_⟩
    simp only [List.append_assoc, List.cons_append]
    rw [outside, readNode_open _ lparen word _ opens.opens opens.names opens.head, read]

theorem readNode_isNode {kind : NodeKind} {own : List Token} (node : IsNode kind own)
    (rest : List Token) :
    ∃ n : Node, n.kind = kind ∧ readNode [] (own ++ rest) = .ok (n, rest) := by
  obtain @⟨lparen, word, rparen, inner, opens, inside, closes⟩ := node
  obtain ⟨done, read⟩ := readNode_items inside (.opening kind lparen word) [] (rparen :: rest)
  refine ⟨OpenNode.close { OpenNode.opening kind lparen word with done } rparen, rfl, ?_⟩
  simp only [List.cons_append, List.append_assoc, List.nil_append]
  rw [readNode_open _ lparen word _ opens.opens opens.names opens.head, read,
    readNode_closeLast _ rparen rest closes]

/-- What is done with a node that has been read and the tokens behind it. -/
theorem read_of_readNode {source : String} {node : Node} {rest : List Token}
    (run : readNode [] (tokenize source) = .ok (node, rest)) :
    read source = if node.kind.isGrammar then
      match rest.find? (!·.isTrivia) with
      | some extra => .error (.trailingInput extra.start)
      | none => .ok node
    else .error (.notAGrammar 0) := by
  unfold read
  rw [run]
  change (if node.kind.isGrammar then _ else _) = _
  cases node.kind.isGrammar with
  | false => rfl
  | true =>
    cases rest.find? (!·.isTrivia) with
    | none => rfl
    | some extra => rfl

theorem read_of_readNode_error {source : String} {e : SyntaxError}
    (run : readNode [] (tokenize source) = .error e) : read source = .error e := by
  unfold read
  rw [run]
  rfl

/-- What the reader makes of a text says what its tokens are like. -/
theorem read_sound (source : String) :
    match read source with
    | .ok _ => IsGrammar (tokenize source)
    | .error e => Offence (tokenize source) e := by
  have outside : Unclosed (([] : List OpenNode).map OpenNode.outline) [] := .nil
  have lexed : ∀ t ∈ tokenize source, t.kind ≠ .head := fun _ => kind_ne_head_of_mem_tokenize
  have run := readNode_sound outside lexed
  rw [List.nil_append] at run
  cases h : readNode [] (tokenize source) with
  | error e =>
    rw [h] at run
    rw [read_of_readNode_error h]
    exact run
  | ok result =>
    obtain ⟨node, rest⟩ := result
    rw [h] at run
    obtain ⟨own, split, isNode⟩ := run
    rw [read_of_readNode h, split]
    cases grammar : node.kind.isGrammar with
    | false => exact .otherKind isNode grammar
    | true =>
      cases extra : rest.find? (!·.isTrivia) with
      | none =>
        have blank : ∀ t ∈ rest, t.kind = .whitespace := by simpa [Token.isTrivia] using extra
        exact ⟨node.kind, own, rest, rfl, isNode, grammar, blank⟩
      | some t =>
        obtain ⟨trivia, blanks, behind, rfl, blank⟩ := List.find?_eq_some_iff_append.mp extra
        simp only [Token.isTrivia, Bool.not_not, beq_iff_eq] at blank
        exact .trailing isNode grammar blank (by simpa [Token.isTrivia] using trivia)

theorem read_of_isGrammar {source : String} (h : IsGrammar (tokenize source)) :
    ∃ root, read source = .ok root := by
  obtain ⟨kind, own, blanks, split, node, grammar, blank⟩ := h
  obtain ⟨n, rfl, run⟩ := readNode_isNode node blanks
  rw [← split] at run
  have none : blanks.find? (!·.isTrivia) = none := by simpa [Token.isTrivia] using blank
  refine ⟨n, ?_⟩
  rw [read_of_readNode run, if_pos grammar, none]

theorem read_of_offence {source : String} {e : SyntaxError} (h : Offence (tokenize source) e) :
    read source = .error e := by
  generalize lexed : tokenize source = tokens at h
  cases h with
  | empty =>
    apply read_of_readNode_error
    rw [lexed]
    rfl
  | unmatched first | unreadable first =>
    apply read_of_readNode_error
    rw [lexed, readNode.eq_def]
    simp [first]
  | @noNode t rest first =>
    apply read_of_readNode_error
    rw [lexed, readNode.eq_def]
    cases kind : t.kind <;> simp_all [TokenKind.isItem]
  | @missingHead nodes before rest lparen upTo opens headless =>
    obtain ⟨stack, _, run⟩ := readNode_unclosed upTo (lparen :: rest)
    apply read_of_readNode_error
    rw [lexed, run, readNode.eq_def]
    cases rest with
    | nil => simp [opens]
    | cons word rest => simp [opens, headless word rfl]
  | @unknownHead nodes before rest lparen word upTo opens names unknown =>
    obtain ⟨stack, _, run⟩ := readNode_unclosed upTo (lparen :: word :: rest)
    apply read_of_readNode_error
    rw [lexed, run, readNode.eq_def]
    simp [opens, names, unknown]
  | @unexpected node nodes before rest t upTo error =>
    obtain ⟨stack, _, run⟩ := readNode_unclosed upTo (t :: rest)
    apply read_of_readNode_error
    rw [lexed, run, readNode.eq_def]
    simp [error]
  | @unclosed kind start nodes tokens upTo =>
    obtain ⟨stack, outline, run⟩ := readNode_unclosed upTo []
    rw [List.append_nil] at run
    obtain ⟨n, outer, rfl, here, _⟩ := List.map_eq_cons_iff.mp outline
    apply read_of_readNode_error
    rw [lexed, run, readNode.eq_def]
    simp [← (Prod.mk.inj here).2]
  | @otherKind kind own rest node other =>
    obtain ⟨n, rfl, run⟩ := readNode_isNode node rest
    rw [← lexed] at run
    rw [read_of_readNode run, other]
    rfl
  | @trailing kind own blanks rest t node grammar blank extra =>
    obtain ⟨n, rfl, run⟩ := readNode_isNode node (blanks ++ t :: rest)
    rw [← lexed] at run
    have first : (blanks ++ t :: rest).find? (!·.isTrivia) = some t := by
      rw [List.find?_eq_some_iff_append]
      refine ⟨by simpa [Token.isTrivia] using extra, blanks, rest, rfl, ?_⟩
      simpa [Token.isTrivia] using blank
    rw [read_of_readNode run, if_pos grammar, first]

/-- A text is read exactly if its tokens are those of a grammar, and it is refused with an error
exactly if that is the offence in its tokens. -/
theorem read_iff_isGrammar (source : String) :
    ((∃ root, read source = .ok root) ↔ IsGrammar (tokenize source)) ∧
      ∀ e, read source = .error e ↔ Offence (tokenize source) e := by
  have sound := read_sound source
  refine ⟨⟨?_, read_of_isGrammar⟩, fun e => ⟨?_, read_of_offence⟩⟩
  · rintro ⟨root, h⟩
    rwa [h] at sound
  · intro h
    rwa [h] at sound

end RecognizerModel
