import RecognizerModel.Proofs.Losslessness

/-! The tokens of a source tile it. Every byte of the source belongs to one token, and each token is
the slice of the source that its span marks. Behind a lexeme lexing goes on as at the beginning of a
text. -/
namespace RecognizerModel

namespace Lexeme

theorem scan_eq_scan_drop (pending : Nat) (cs : List Char) :
    scan pending cs = scan 0 (cs.drop pending) := by
  induction cs generalizing pending with
  | nil => simp [scan]
  | cons c rest ih =>
    cases pending with
    | zero => rfl
    | succ pending => exact ih pending

/-- Behind the first lexeme lexing goes on as at the beginning of a text. -/
theorem scan_cons (c : Char) (rest : List Char) :
    scan 0 (c :: rest) =
      first c rest :: scan 0 ((c :: rest).drop (first c rest).text.length) := by
  have nonempty := List.length_pos_iff.mpr (first_ne_nil c rest)
  obtain ⟨length, hlength⟩ := Nat.exists_eq_succ_of_ne_zero (Nat.ne_of_gt nonempty)
  rw [scan, scan_eq_scan_drop, hlength]
  rfl

/-- The lexemes behind others are those of the text behind. -/
theorem scan_flatMap_of_append {cs : List Char} {own others : List Lexeme}
    (h : scan 0 cs = own ++ others) : scan 0 (others.flatMap text) = others := by
  induction own generalizing cs with
  | nil =>
    rw [List.nil_append] at h
    rw [← h, flatMap_scan, List.drop_zero]
  | cons l own ih =>
    cases cs with
    | nil => cases h
    | cons c rest =>
      rw [scan_cons] at h
      exact ih (List.cons.inj h).2

theorem toList_eq_of_scan {cs : List Char} {own others : List Lexeme}
    (h : scan 0 cs = own ++ others) : cs = own.flatMap text ++ others.flatMap text := by
  rw [← List.flatMap_append, ← h, flatMap_scan, List.drop_zero]

theorem flatMap_join (lexeme : Lexeme) (others : List Lexeme) :
    (join lexeme others).flatMap text = lexeme.text ++ others.flatMap text := by
  cases others with
  | nil => rfl
  | cons next others =>
    rw [join]
    split <;> simp

theorem flatMap_joined (lexemes : List Lexeme) :
    (lexemes.foldr join []).flatMap text = lexemes.flatMap text := by
  induction lexemes with
  | nil => rfl
  | cons lexeme rest ih => rw [List.foldr_cons, flatMap_join, ih, List.flatMap_cons]

theorem forall_ne_nil_joined {lexemes : List Lexeme} (h : ∀ l ∈ lexemes, l.text ≠ []) :
    ∀ l ∈ lexemes.foldr join [], l.text ≠ [] := by
  induction lexemes with
  | nil => nofun
  | cons lexeme rest ih =>
    obtain ⟨here, others⟩ := List.forall_mem_cons.mp h
    rw [List.foldr_cons]
    cases hrest : rest.foldr join [] with
    | nil => exact List.forall_mem_singleton.mpr here
    | cons next later =>
      have behind := hrest ▸ ih others
      rw [join]
      split
      · refine List.forall_mem_cons.mpr ⟨?_, (List.forall_mem_cons.mp behind).2⟩
        exact List.append_ne_nil_of_left_ne_nil here _
      · exact List.forall_mem_cons.mpr ⟨here, behind⟩

/-- A lexeme that can be read stays by itself when error lexemes are joined, and one that cannot
becomes a part of a longer one. -/
theorem exists_joined (before : List Lexeme) (l : Lexeme) (after : List Lexeme) :
    ∃ before' joined after' lead trail,
      (before ++ l :: after).foldr join [] = before' ++ joined :: after' ∧
        before.flatMap text = before'.flatMap text ++ lead ∧
        joined.text = lead ++ (l.text ++ trail) ∧ joined.kind = l.kind ∧
        (l.kind ≠ .error → lead = [] ∧ trail = []) := by
  induction before with
  | nil =>
    rw [List.nil_append, List.foldr_cons]
    cases after.foldr join [] with
    | nil => exact ⟨[], l, [], [], [], rfl, rfl, by simp, rfl, fun _ => ⟨rfl, rfl⟩⟩
    | cons next others =>
      rw [join]
      split
      · next errors =>
        exact ⟨[], _, others, [], next.text, rfl, rfl, rfl, errors.1.symm,
          fun known => absurd errors.1 known⟩
      · exact ⟨[], l, next :: others, [], [], rfl, rfl, by simp, rfl, fun _ => ⟨rfl, rfl⟩⟩
  | cons x before ih =>
    obtain ⟨before', joined, after', lead, trail, same, front, text, kind, known⟩ := ih
    rw [List.cons_append, List.foldr_cons, same, List.flatMap_cons, front]
    cases before' with
    | nil =>
      rw [List.nil_append, join]
      split
      · next errors =>
        have error : l.kind = .error := kind.symm.trans errors.2
        exact ⟨[], _, after', x.text ++ lead, trail, rfl, rfl, by simp [text], error.symm,
          fun known => absurd error known⟩
      · exact ⟨[x], joined, after', lead, trail, rfl, by simp, text, kind, known⟩
    | cons next others =>
      rw [List.cons_append, join]
      split
      · exact ⟨_ :: others, joined, after', lead, trail, rfl, by simp, text, kind, known⟩
      · exact ⟨x :: next :: others, joined, after', lead, trail, rfl, by simp, text, kind, known⟩

/-- How many bytes lexemes take. -/
def size (lexemes : List Lexeme) : Nat :=
  (String.ofList (lexemes.flatMap text)).utf8ByteSize

theorem place_append (start : Nat) (own others : List Lexeme) :
    place start (own ++ others) = place start own ++ place (start + size own) others := by
  unfold size
  induction own generalizing start with
  | nil => simp [place]
  | cons l own ih =>
    rw [List.cons_append, place, ih, place, List.cons_append, List.flatMap_cons,
      String.ofList_append, String.utf8ByteSize_append, ← Nat.add_assoc]
    rfl

end Lexeme

namespace Token

/-- Whether a token is what a byte of the source belongs to. -/
def Covers (t : Token) (offset : Nat) : Prop :=
  t.start ≤ offset ∧ offset < t.stop

instance (t : Token) (offset : Nat) : Decidable (t.Covers offset) :=
  inferInstanceAs (Decidable (_ ∧ _))

theorem le_start_of_tile {first last : Nat} {tokens : List Token}
    (tiles : Span.Tile first last (tokens.map span)) : ∀ t ∈ tokens, first ≤ t.start := by
  induction tokens generalizing first with
  | nil => nofun
  | cons t rest ih =>
    obtain ⟨rfl, behind⟩ := tiles
    refine List.forall_mem_cons.mpr ⟨Nat.le_refl _, fun u hu => ?_⟩
    exact Nat.le_trans (Nat.le_add_right ..) (ih behind u hu)

theorem stop_le_of_tile {first last : Nat} {tokens : List Token}
    (tiles : Span.Tile first last (tokens.map span)) : ∀ t ∈ tokens, t.stop ≤ last := by
  intro t ht
  obtain ⟨before, behind, rfl⟩ := List.append_of_mem ht
  rw [List.map_append, Span.tile_append] at tiles
  obtain ⟨middle, -, -, here⟩ := tiles
  have size : last = t.stop + (texts behind).utf8ByteSize := end_of_tile here
  omega

/-- Of tokens that tile a stretch one covers each byte of it. -/
theorem existsUnique_covers {first last offset : Nat} {tokens : List Token}
    (tiles : Span.Tile first last (tokens.map span)) (within : first ≤ offset ∧ offset < last) :
    ∃ t ∈ tokens, t.Covers offset ∧ ∀ u ∈ tokens, u.Covers offset → u = t := by
  induction tokens generalizing first with
  | nil =>
    obtain rfl : first = last := tiles
    exact absurd (Nat.lt_of_le_of_lt within.1 within.2) (Nat.lt_irrefl _)
  | cons t rest ih =>
    obtain ⟨rfl, behind⟩ := tiles
    by_cases here : offset < t.stop
    · refine ⟨t, List.mem_cons_self .., ⟨within.1, here⟩, ?_⟩
      refine List.forall_mem_cons.mpr ⟨fun _ => rfl, fun u hu covers => ?_⟩
      have later : t.stop ≤ u.start := le_start_of_tile behind u hu
      exact absurd (Nat.lt_of_le_of_lt covers.1 here) (Nat.not_lt.mpr later)
    · obtain ⟨u, hu, covers, unique⟩ := ih behind ⟨Nat.not_lt.mp here, within.2⟩
      refine ⟨u, List.mem_cons_of_mem _ hu, covers, ?_⟩
      exact List.forall_mem_cons.mpr ⟨fun passed => absurd passed.2 here, unique⟩

end Token

theorem texts_tokenize (source : String) : Token.texts (tokenize source) = source := by
  rw [tokenize, Lexeme.texts_place, Lexeme.flatMap_joined, Lexeme.flatMap_scan, List.drop_zero,
    String.ofList_toList]

theorem tile_tokenize (source : String) :
    Span.Tile 0 source.utf8ByteSize ((tokenize source).map Token.span) := by
  obtain ⟨stop, tiles⟩ :=
    Lexeme.tile_place 0 ((Lexeme.scan 0 source.toList).foldr Lexeme.join [])
  have size : stop = 0 + (Token.texts (tokenize source)).utf8ByteSize := Token.end_of_tile tiles
  rw [texts_tokenize, Nat.zero_add] at size
  exact size ▸ tiles

theorem stop_le_of_mem_tokenize {source : String} {t : Token} (h : t ∈ tokenize source) :
    t.stop ≤ source.utf8ByteSize :=
  Token.stop_le_of_tile (tile_tokenize source) t h

theorem text_ne_empty_of_mem_tokenize {source : String} {t : Token} (h : t ∈ tokenize source) :
    t.text ≠ "" := by
  obtain ⟨lexeme, hlexeme, -, text⟩ := Lexeme.exists_of_mem_place h
  have nonempty := Lexeme.forall_ne_nil_joined Lexeme.ne_nil_of_mem_scan lexeme hlexeme
  rw [text]
  simpa using nonempty

theorem Token.start_lt_stop {t : Token} (h : t.text ≠ "") : t.start < t.stop := by
  rw [ne_eq, ← String.utf8ByteSize_eq_zero_iff] at h
  exact Nat.lt_add_of_pos_right (Nat.pos_of_ne_zero h)

/-- A token begins and ends between characters and is what stands there. -/
theorem slice?_of_mem_tokenize {source : String} {t : Token} (h : t ∈ tokenize source) :
    t.span.slice? source = some t.text := by
  obtain ⟨before, behind, around⟩ := List.append_of_mem h
  have tiles := tile_tokenize source
  have whole := texts_tokenize source
  rw [around] at tiles whole
  have here : Span.Tile t.start t.stop ([t].map Token.span) := ⟨rfl, rfl⟩
  have slice := Token.slice?_of_tile tiles here (List.cons_ne_nil _ _) ""
  rw [String.append_empty, List.singleton_append, whole] at slice
  have own : Token.texts [t] = t.text := by simp [Token.texts]
  rw [← own]
  exact slice

/-- The token that a lexeme becomes or becomes a part of. -/
theorem exists_token_of_scan {source : String} {before after : List Lexeme} {l : Lexeme}
    (h : Lexeme.scan 0 source.toList = before ++ l :: after) : ∃ t ∈ tokenize source,
      t.kind = l.kind ∧ t.Covers (Lexeme.size before) ∧
      (l.kind ≠ .error → t.start = Lexeme.size before ∧ t.text = String.ofList l.text) := by
  obtain ⟨before', joined, after', lead, trail, same, front, text, kind, known⟩ :=
    Lexeme.exists_joined before l after
  have nonempty : l.text ≠ [] :=
    Lexeme.ne_nil_of_mem_scan l (h ▸ List.mem_append_right _ (List.mem_cons_self ..))
  have positive : 0 < (String.ofList l.text).utf8ByteSize := by
    refine Nat.pos_of_ne_zero fun empty => nonempty ?_
    simpa using String.utf8ByteSize_eq_zero_iff.mp empty
  have size : (String.ofList joined.text).utf8ByteSize =
      (String.ofList lead).utf8ByteSize + ((String.ofList l.text).utf8ByteSize +
        (String.ofList trail).utf8ByteSize) := by
    simp [text, String.ofList_append]
  have offset : Lexeme.size before = Lexeme.size before' + (String.ofList lead).utf8ByteSize := by
    rw [Lexeme.size, Lexeme.size, front, String.ofList_append, String.utf8ByteSize_append]
  refine ⟨⟨joined.kind, String.ofList joined.text, Lexeme.size before'⟩, ?_, kind, ?_,
    fun sound => ?_⟩
  · rw [tokenize, h, same, Lexeme.place_append, Nat.zero_add]
    exact List.mem_append_right _ (List.mem_cons_self ..)
  · rw [offset]
    refine ⟨Nat.le_add_right _ _, ?_⟩
    dsimp only [Token.stop]
    omega
  · obtain ⟨rfl, rfl⟩ := known sound
    exact ⟨offset.symm, by rw [text, List.nil_append, List.append_nil]⟩

end RecognizerModel
