import RecognizerModel.Proofs.LoadedGrammar

/-! Where the tokens of a loaded grammar come from. The lexer reads each at the front of some text
or gives a stretch up, and the reader keeps them as they are, but for the words that become heads.
-/
namespace RecognizerModel

namespace Lexeme

/-- Whether a lexeme was read at the front of a text or is a stretch given up. -/
def IsScanned (lexeme : Lexeme) : Prop :=
  lexeme.kind = .error ∨ ∃ c rest, lexeme = first c rest

theorem isScanned_scan {pending : Nat} {cs : List Char} : ∀ l ∈ scan pending cs, l.IsScanned := by
  induction cs generalizing pending with
  | nil => nofun
  | cons c rest ih =>
      cases pending with
      | succ pending => exact ih
      | zero => exact List.forall_mem_cons.mpr ⟨.inr ⟨c, rest, rfl⟩, ih⟩

theorem isScanned_join {lexeme : Lexeme} {others : List Lexeme} (first : lexeme.IsScanned)
    (rest : ∀ l ∈ others, l.IsScanned) : ∀ l ∈ join lexeme others, l.IsScanned := by
  cases others with
  | nil => exact List.forall_mem_singleton.mpr first
  | cons next others =>
      rw [join]
      split
      · exact List.forall_mem_cons.mpr ⟨.inl rfl, fun l hl => rest l (List.mem_cons_of_mem _ hl)⟩
      · exact List.forall_mem_cons.mpr ⟨first, rest⟩

theorem isScanned_joined {lexemes : List Lexeme} (h : ∀ l ∈ lexemes, l.IsScanned) :
    ∀ l ∈ lexemes.foldr join [], l.IsScanned := by
  induction lexemes with
  | nil => nofun
  | cons lexeme rest ih =>
      obtain ⟨first, others⟩ := List.forall_mem_cons.mp h
      exact isScanned_join first (ih others)

theorem exists_of_mem_place {start : Nat} {lexemes : List Lexeme} {t : Token}
    (h : t ∈ place start lexemes) :
    ∃ lexeme ∈ lexemes, t.kind = lexeme.kind ∧ t.text = String.ofList lexeme.text := by
  induction lexemes generalizing start with
  | nil => cases h
  | cons lexeme rest ih =>
      rcases List.mem_cons.mp h with rfl | h
      · exact ⟨lexeme, List.mem_cons_self .., rfl, rfl⟩
      · obtain ⟨other, hother, same⟩ := ih h
        exact ⟨other, List.mem_cons_of_mem _ hother, same⟩

end Lexeme

theorem exists_lexeme_of_mem_tokenize {source : String} {t : Token} (h : t ∈ tokenize source) :
    ∃ lexeme : Lexeme, lexeme.IsScanned ∧ t.kind = lexeme.kind ∧
      t.text = String.ofList lexeme.text := by
  obtain ⟨lexeme, hlexeme, same⟩ := Lexeme.exists_of_mem_place h
  exact ⟨lexeme, Lexeme.isScanned_joined Lexeme.isScanned_scan lexeme hlexeme, same⟩

namespace Forest

theorem forall_leaves_token {P : Token → Prop} {t : Token} {rest : Forest} :
    (∀ u ∈ (token t rest).leaves, P u) ↔ P t ∧ ∀ u ∈ rest.leaves, P u :=
  List.forall_mem_cons

theorem forall_leaves_node {P : Token → Prop} {kind : NodeKind} {span : Span}
    {inner rest : Forest} : (∀ u ∈ (node kind span inner rest).leaves, P u) ↔
      (∀ u ∈ inner.leaves, P u) ∧ ∀ u ∈ rest.leaves, P u :=
  List.forall_mem_append

theorem forall_leaves_reverseOnto {P : Token → Prop} {f after : Forest}
    (h : ∀ t ∈ f.leaves, P t) (hafter : ∀ t ∈ after.leaves, P t) :
    ∀ t ∈ (f.reverseOnto after).leaves, P t := by
  induction f generalizing after with
  | nil => exact hafter
  | token t rest ih =>
      obtain ⟨first, others⟩ := forall_leaves_token.mp h
      exact ih others (forall_leaves_token.mpr ⟨first, hafter⟩)
  | node kind span inner rest _ ih =>
      obtain ⟨below, others⟩ := forall_leaves_node.mp h
      exact ih others (forall_leaves_node.mpr ⟨below, hafter⟩)

theorem forall_leaves_of_mem_descendants {P : Token → Prop} {f : Forest}
    (h : ∀ t ∈ f.leaves, P t) : ∀ n ∈ f.descendants, ∀ t ∈ n.inner.leaves, P t := by
  induction f with
  | nil => nofun
  | token t rest ih => exact ih (forall_leaves_token.mp h).2
  | node kind span inner rest ihInner ihRest =>
      obtain ⟨below, others⟩ := forall_leaves_node.mp h
      refine List.forall_mem_cons.mpr ⟨below, List.forall_mem_append.mpr ?_⟩
      exact ⟨ihInner below, ihRest others⟩

theorem mem_leaves_of_mem_tokens {f : Forest} {t : Token} (h : t ∈ f.tokens) : t ∈ f.leaves := by
  induction f with
  | nil => cases h
  | token first rest ih =>
      rcases List.mem_cons.mp h with rfl | h
      · exact List.mem_cons_self ..
      · exact List.mem_cons_of_mem _ (ih h)
  | node kind span inner rest _ ih => exact List.mem_append_right _ (ih h)

end Forest

theorem OpenNode.forall_leaves_close {P : Token → Prop} {n : OpenNode} {rparen : Token}
    (h : ∀ t ∈ n.done.leaves, P t) (hparen : P rparen) :
    ∀ t ∈ (n.close rparen).inner.leaves, P t :=
  Forest.forall_leaves_reverseOnto (Forest.forall_leaves_token.mpr ⟨hparen, h⟩) nofun

/-- What holds of the tokens and of every head holds of the tokens of the node that is read. -/
theorem forall_leaves_of_readNode {P : Token → Prop} {stack : List OpenNode}
    {tokens rest : List Token} {node : Node} (heads : ∀ t : Token, t.kind = .head → P t)
    (hstack : ∀ n ∈ stack, ∀ t ∈ n.done.leaves, P t) (htokens : ∀ t ∈ tokens, P t)
    (h : readNode stack tokens = .ok (node, rest)) : ∀ t ∈ node.inner.leaves, P t := by
  fun_induction readNode stack tokens with
  -- an opening parenthesis and its head word
  | case4 stack lparen _ word _ _ kind _ ih =>
      obtain ⟨hparen, hrest⟩ := List.forall_mem_cons.mp htokens
      obtain ⟨_, hrest⟩ := List.forall_mem_cons.mp hrest
      have opened : ∀ t ∈ (OpenNode.opening kind lparen word).done.leaves, P t :=
        Forest.forall_leaves_token.mpr ⟨heads _ rfl, List.forall_mem_singleton.mpr hparen⟩
      exact ih (List.forall_mem_cons.mpr ⟨opened, hstack⟩) hrest h
  -- the parenthesis that closes the whole node
  | case8 rparen _ _ n =>
      cases h
      exact OpenNode.forall_leaves_close (hstack n (List.mem_cons_self ..))
        (htokens rparen (List.mem_cons_self ..))
  -- a parenthesis that closes a node inside another
  | case9 rparen _ _ n parent outer ih =>
      obtain ⟨hparen, hrest⟩ := List.forall_mem_cons.mp htokens
      obtain ⟨hn, hstack⟩ := List.forall_mem_cons.mp hstack
      obtain ⟨hparent, houter⟩ := List.forall_mem_cons.mp hstack
      have closed : ∀ t ∈ (parent.pushNode (n.close rparen)).done.leaves, P t :=
        Forest.forall_leaves_node.mpr ⟨OpenNode.forall_leaves_close hn hparen, hparent⟩
      exact ih (List.forall_mem_cons.mpr ⟨closed, houter⟩) hrest h
  -- any other token goes to the innermost open node
  | case12 t _ n outer _ _ _ ih =>
      obtain ⟨ht, hrest⟩ := List.forall_mem_cons.mp htokens
      obtain ⟨hn, houter⟩ := List.forall_mem_cons.mp hstack
      have pushed : ∀ u ∈ (n.push t).done.leaves, P u := Forest.forall_leaves_token.mpr ⟨ht, hn⟩
      exact ih (List.forall_mem_cons.mpr ⟨pushed, houter⟩) hrest h
  | _ => cases h

/-- What is read as a grammar is the node in front; what follows it is let go. -/
theorem readNode_of_read {source : String} {node : Node} (h : read source = .ok node) :
    ∃ rest, readNode [] (tokenize source) = .ok (node, rest) := by
  unfold read at h
  obtain ⟨⟨root, rest⟩, hrun, h⟩ := bind_eq_ok.mp h
  dsimp only at h
  split at h
  · split at h
    · cases h
    · cases h
      exact ⟨rest, hrun⟩
  · cases h

/-- The reader keeps the tokens as they are, but for the head words. -/
theorem mem_tokenize_of_read {source : String} {node : Node} (h : read source = .ok node) :
    ∀ t ∈ node.inner.leaves, t.kind = .head ∨ t ∈ tokenize source := by
  obtain ⟨rest, hrun⟩ := readNode_of_read h
  exact forall_leaves_of_readNode (fun _ => .inl) (List.forall_mem_nil _) (fun _ => .inr) hrun

/-- A token in a loaded grammar that is no head is as the lexer read it. -/
theorem Grammar.Loaded.exists_lexeme {g : Grammar} (loaded : g.Loaded) {n : Node} {t : Token}
    (hn : n ∈ g.root.descendants) (ht : t ∈ n.inner.leaves) (other : t.kind ≠ .head) :
    ∃ lexeme : Lexeme, lexeme.IsScanned ∧ t.kind = lexeme.kind ∧
      t.text = String.ofList lexeme.text := by
  obtain ⟨source, hread, _⟩ := loaded.exists_read
  have root : ∀ t ∈ (Forest.ofNode g.root).leaves, t.kind = .head ∨ t ∈ tokenize source :=
    Forest.forall_leaves_node.mpr ⟨mem_tokenize_of_read hread, nofun⟩
  have here := Forest.forall_leaves_of_mem_descendants root n hn t ht
  exact exists_lexeme_of_mem_tokenize (here.resolve_left other)

end RecognizerModel
