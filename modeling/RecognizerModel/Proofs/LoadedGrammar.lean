import RecognizerModel.Grammar.Basic
import RecognizerModel.Proofs.Outcome
import RecognizerModel.Proofs.TypedSyntax

/-! Grammars loaded from a text. Their vocabulary knows every token and literal in them. -/
namespace RecognizerModel

/-- Whether a grammar was loaded from a text and then given classes of decisions. -/
def Grammar.Loaded (g : Grammar) : Prop :=
  ∃ text loaded, load text = .ok loaded ∧ g = { loaded with decisions := g.decisions }

namespace Vocabulary

/-- Whether a name has a type. -/
def Knows (v : Vocabulary) (name : String) : Prop :=
  name = eofName ∨ name ∈ v.names

theorem Knows.exists_type {v : Vocabulary} {name : String} (h : v.Knows name) :
    ∃ ttype, v.type? name = some ttype := by
  rw [type?_eq]
  split
  · exact ⟨_, rfl⟩
  · next other =>
    rw [if_pos (h.resolve_left other)]
    exact ⟨_, rfl⟩

theorem knows_define {v : Vocabulary} {name next : String} (h : name = next ∨ v.Knows name) :
    (v.define next).2.Knows name := by
  unfold Knows
  rw [names_define]
  split
  · next old =>
    rcases h with rfl | h
    · exact old
    · exact h
  · rcases h with rfl | h | h
    · exact .inr (List.mem_append_right _ (List.mem_singleton_self _))
    · exact .inl h
    · exact .inr (List.mem_append_left _ h)

theorem knows_defineAll {names : List String} {v : Vocabulary} {name : String}
    (h : name ∈ names ∨ v.Knows name) : (v.defineAll names).Knows name := by
  induction names generalizing v with
  | nil => exact h.resolve_left List.not_mem_nil
  | cons first rest ih =>
      refine ih ?_
      rcases h with h | h
      · rcases List.mem_cons.mp h with rfl | h
        · exact .inr (knows_define (.inl rfl))
        · exact .inl h
      · exact .inr (knows_define (.inr h))

end Vocabulary

namespace Grammar

/-- Whether a grammar is what its source is read as. -/
structure ReadFrom (g : Grammar) (source : String) : Prop where
  root : read source = .ok g.root
  kind : GrammarKind.ofNodeKind? g.root.kind = some g.kind
  name : g.root.inner.firstText? .word = some g.name
  vocabulary : g.vocabulary = Vocabulary.empty.defineAll (definedNames g.root)
  named : ∀ rule ∈ rulesOf g.root, rule.name.isSome

/-- What was read and has passed the checks if a grammar is loaded. -/
theorem exists_of_load_ok {text : String} {g : Grammar} (h : load text = .ok g) :
    ∃ root kind name, read (Text.trim text) = .ok root ∧
      GrammarKind.ofNodeKind? root.kind = some kind ∧ root.inner.first? .word = some name ∧
      (∀ rule ∈ rulesOf root, rule.name.isSome) ∧
      (∀ t ∈ root.inner.leaves, t.kind = .decision → t.hasDecision) ∧
      g = ⟨Text.trim text, root, kind, name.text,
        Vocabulary.empty.defineAll (definedNames root), []⟩ := by
  unfold load at h
  obtain ⟨root, hread, h⟩ := bind_eq_ok.mp h
  dsimp only at h
  split at h
  · next kind hkind =>
    split at h
    · next name hname =>
      split at h
      · cases h
      · split at h
        · cases h
        · next unnamed =>
          split at h
          · cases h
          · next unnumbered =>
            cases h
            refine ⟨root, kind, name, hread, hkind, hname, ?_, ?_, rfl⟩
            · have named := List.find?_eq_none.mp (Option.eq_none_iff_forall_ne_some.mpr unnamed)
              simpa [Option.isSome_iff_ne_none] using named
            · have numbered :=
                List.find?_eq_none.mp (Option.eq_none_iff_forall_ne_some.mpr unnumbered)
              simpa using numbered
    · cases h
  · cases h

theorem readFrom_of_load {text : String} {g : Grammar} (h : load text = .ok g) :
    g.ReadFrom (Text.trim text) := by
  obtain ⟨root, kind, name, hread, hkind, hname, named, -, rfl⟩ := exists_of_load_ok h
  exact ⟨hread, hkind, by simp [Forest.firstText?, hname], rfl, named⟩

end Grammar

/-- The name that has to have a token type so that a reference can be built. -/
def Reference.tokenName? : Reference → Option String
  | .rule _ => none
  | .token t => t.name
  | .literal l => l.text

theorem Node.rule?_eq_some_iff {n : Node} {rule : Rule} :
    n.rule? = some rule ↔ n.kind = .rule ∧ rule = .ofNode n := by
  unfold rule?
  split
  · next kind => simp [kind, eq_comm]
  · next other => simp [other]

namespace Grammar

/-- Whether the vocabulary has a type for what a reference names. -/
def Covers (g : Grammar) (r : Reference) : Prop :=
  ∀ name, r.tokenName? = some name → ∃ ttype, g.vocabulary.type? name = some ttype

theorem Loaded.exists_read {g : Grammar} (loaded : g.Loaded) :
    ∃ source, read source = .ok g.root ∧
      g.vocabulary = Vocabulary.empty.defineAll (definedNames g.root) := by
  obtain ⟨text, first, hload, hg⟩ := loaded
  have reading := readFrom_of_load hload
  have root : g.root = first.root := by rw [hg]
  have vocabulary : g.vocabulary = first.vocabulary := by rw [hg]
  exact ⟨Text.trim text, by rw [reading.root, root],
    by rw [vocabulary, reading.vocabulary, root]⟩

/-- A rule without a name keeps a grammar from being loaded. -/
theorem Loaded.exists_name {g : Grammar} (loaded : g.Loaded) {kind : RecognizerKind} {rule : Rule}
    (h : rule ∈ g.rulesFor kind) : ∃ name, rule.name = some name := by
  obtain ⟨text, first, hload, hg⟩ := loaded
  have root : g.root = first.root := by rw [hg]
  have hrule : rule ∈ rulesOf first.root := root ▸ (List.mem_filter.mp h).1
  exact Option.isSome_iff_exists.mp ((readFrom_of_load hload).named rule hrule)

theorem mem_definedNames {root n : Node} {marked : Bool} {r : Reference} {name : String}
    (hn : n ∈ root.descendants) (hr : n.reference? marked = some r)
    (hname : r.tokenName? = some name) : name ∈ definedNames root := by
  refine List.mem_append_right _ (List.mem_filterMap.mpr ⟨n, hn, ?_⟩)
  obtain ⟨kind, span, inner⟩ := n
  cases kind <;> cases hr <;> exact hname

theorem exists_node_of_mem_rulesFor {g : Grammar} {kind : RecognizerKind} {rule : Rule}
    (h : rule ∈ g.rulesFor kind) : ∃ n ∈ g.root.inner.nodes, rule = .ofNode n := by
  obtain ⟨n, hn, made⟩ := List.mem_filterMap.mp (List.mem_filter.mp h).1
  exact ⟨n, hn, (Node.rule?_eq_some_iff.mp made).2⟩

/-- A reference in a loaded grammar, wherever it stands, names what the vocabulary has a type
for. -/
theorem Loaded.refsOf_covers {g : Grammar} (loaded : g.Loaded) :
    RefsOf g.Covers g.root.descendants := by
  obtain ⟨_, _, hvocabulary⟩ := loaded.exists_read
  intro n hn marked r hr name hname
  have known := Vocabulary.knows_defineAll (v := .empty) (.inl (mem_definedNames hn hr hname))
  rw [hvocabulary]
  exact known.exists_type

/-- Every rule of a loaded grammar refers to tokens and literals of its vocabulary alone. -/
theorem Loaded.covers {g : Grammar} (loaded : g.Loaded) {kind : RecognizerKind} {rule : Rule}
    (hrule : rule ∈ g.rulesFor kind) {block : Block} (hblock : rule.block = some block) :
    block.AllRefs g.Covers := by
  obtain ⟨n, hn, rfl⟩ := exists_node_of_mem_rulesFor hrule
  have inside : RefsOf g.Covers n.inner.descendants := fun d hd =>
    loaded.refsOf_covers d (Node.descendants_of_mem_inner hn (n.descendants_inner hd))
  exact Block.allRefs_ofForest inside (List.mem_of_head? hblock)

theorem loaded_of_load {text : String} {g : Grammar} (h : load text = .ok g) : g.Loaded :=
  ⟨text, g, h, rfl⟩

theorem loaded_get {text : String} (h : (load text).toOption.isSome) :
    ((load text).toOption.get h).Loaded :=
  loaded_of_load (eq_ok_of_toOption (Option.some_get h).symm)

/-- A rule whose action refers to a token behind a block that is inlined. -/
def inlinedBefore : Grammar :=
  (load ("(PARSER_GRAMMAR P(RULE a(BLOCK(ALT(BLOCK(ALT(TOKEN_REF X)))" ++
    "(TOKEN_REF ID)(ACTION{$ID})))))")).toOption.get (by decide +kernel)

theorem inlinedBefore_loaded : inlinedBefore.Loaded :=
  loaded_get _

end Grammar

end RecognizerModel
