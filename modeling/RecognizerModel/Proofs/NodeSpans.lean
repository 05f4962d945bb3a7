import Mathlib.Data.List.Nodup
import RecognizerModel.Proofs.TokenTiling

/-! A span of a grammar belongs to one node. Each node begins with a parenthesis that stands in no
other node directly, and no two tokens of a source begin at one place. So what is asked about a node
of a grammar may as well be asked about its span. -/
namespace RecognizerModel

/-- Each leaf stands directly in one node or in the row itself. -/
theorem Forest.leaves_perm (f : Forest) :
    f.leaves.Perm (f.tokens ++ f.descendants.flatMap fun n => n.inner.tokens) := by
  induction f with
  | nil => rfl
  | token t rest ih => exact ih.cons t
  | node kind span inner rest ihInner ihRest =>
      have both := (ihInner.append ihRest).trans (List.perm_append_comm_assoc ..)
      rw [List.append_assoc] at both
      simpa [leaves, tokens, descendants] using both

/-- Spans with something in them begin one behind the other where they tile a stretch. -/
theorem Span.Tile.pairwise_start {start stop : Nat} {spans : List Span}
    (h : Tile start stop spans) (proper : ∀ s ∈ spans, s.start < s.stop) :
    (∀ s ∈ spans, start ≤ s.start) ∧ spans.Pairwise (·.start < ·.start) := by
  induction spans generalizing start with
  | nil => exact ⟨nofun, .nil⟩
  | cons first rest ih =>
      obtain ⟨rfl, behind⟩ := h
      obtain ⟨here, others⟩ := List.forall_mem_cons.mp proper
      obtain ⟨later, ordered⟩ := ih behind others
      have after : ∀ s ∈ rest, first.start < s.start :=
        fun s hs => Nat.lt_of_lt_of_le here (later s hs)
      exact ⟨List.forall_mem_cons.mpr ⟨Nat.le_refl _, fun s hs => Nat.le_of_lt (after s hs)⟩,
        List.pairwise_cons.mpr ⟨after, ordered⟩⟩

theorem Node.Delimited.exists_opening {n : Node} (h : n.Delimited) :
    ∃ t ∈ n.inner.tokens, t.start = n.span.start := by
  obtain ⟨front, rparen, tokens, begins, -⟩ := h.tokens
  cases begins with
  | mk _ here _ _ _ => exact ⟨_, by rw [tokens]; exact List.mem_cons_self, here⟩

namespace Node.ReadFrom

variable {root : Node} {source : String} {own blanks : List Lexeme}
  (reading : root.ReadFrom source own blanks)
include reading

theorem text_ne_empty_of_mem_leaves {t : Token} (h : t ∈ root.inner.leaves) : t.text ≠ "" := by
  have held := List.mem_map_of_mem (f := Token.piece) h
  rw [reading.leaves, ← reading.tokenize_text] at held
  obtain ⟨same, hsame, piece⟩ := List.mem_map.mp held
  have text : same.text = t.text := congrArg Prod.fst piece
  rw [← text]
  exact text_ne_empty_of_mem_tokenize hsame

theorem nodup_starts : (root.inner.leaves.map Token.start).Nodup := by
  obtain ⟨stop, tiles⟩ := reading.exists_tile
  have proper : ∀ s ∈ root.inner.leaves.map Token.span, s.start < s.stop :=
    List.forall_mem_map.mpr fun t ht =>
      Token.start_lt_stop (reading.text_ne_empty_of_mem_leaves ht)
  have ordered := List.pairwise_map.mp (tiles.pairwise_start proper).2
  exact List.pairwise_map.mpr (ordered.imp Nat.ne_of_lt)

theorem nodup_spans : (root.descendants.map Node.span).Nodup := by
  have leaves : (Forest.ofNode root).leaves = root.inner.leaves := List.append_nil _
  have starts := reading.nodup_starts
  rw [← leaves, ((Forest.leaves_perm (.ofNode root)).map Token.start).nodup_iff] at starts
  -- two nodes have no token in common, and each starts where its own parenthesis does
  have apart := (List.pairwise_flatMap.mp (List.pairwise_map.mp starts)).2
  refine List.pairwise_map.mpr (apart.imp_of_mem fun {n m} hn hm apart same => ?_)
  obtain ⟨t, ht, first⟩ := (reading.delimited n hn).exists_opening
  obtain ⟨u, hu, second⟩ := (reading.delimited m hm).exists_opening
  exact apart t ht u hu (by rw [first, second, same])

end Node.ReadFrom

namespace Grammar.Loaded

variable {g : Grammar} (loaded : g.Loaded)
include loaded

/-- No two nodes of a loaded grammar have the same span. -/
theorem nodup_spans : (g.root.descendants.map Node.span).Nodup := by
  obtain ⟨own, blanks, reading⟩ := exists_readFrom_of_read loaded.read_source.1
  exact reading.nodup_spans

theorem eq_of_span {n m : Node} (hn : n ∈ g.root.descendants) (hm : m ∈ g.root.descendants)
    (same : n.span = m.span) : n = m :=
  List.inj_on_of_nodup_map loaded.nodup_spans hn hm same

/-- Whatever an extension asks about the nodes of a grammar it can ask about their spans. -/
theorem exists_wantsLabel (wants : Node → Op → Bool) :
    ∃ asked : Span → Op → Bool, ∀ n ∈ g.root.descendants, asked n.span = wants n := by
  refine ⟨fun span op => g.root.descendants.any fun n => n.span == span && wants n op, ?_⟩
  intro n hn
  funext op
  rw [Bool.eq_iff_iff, List.any_eq_true]
  constructor
  · rintro ⟨m, hm, asked⟩
    obtain ⟨same, wanted⟩ := Bool.and_eq_true_iff.mp asked
    rwa [← loaded.eq_of_span hm hn (beq_iff_eq.mp same)]
  · exact fun wanted => ⟨n, hn, by simp [wanted]⟩

end Grammar.Loaded

end RecognizerModel
