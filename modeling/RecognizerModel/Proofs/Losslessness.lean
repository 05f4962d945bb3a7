import RecognizerModel.Proofs.DiagnosticSpans
import RecognizerModel.Proofs.TreeTiling
import RecognizerModel.Proofs.LexemeTiling

/-! Nothing of a text is lost on the way into the tree. The texts of the leaves make up the text
again, each part of the tree is the slice of the text that its span marks, and the text of the tree
is read as the same tree. So a diagnostic of a grammar can be shown in its source. -/
namespace RecognizerModel

/-- The characters that take the first bytes of a text, and those behind them. A count that ends
inside of a character or behind the text has none. -/
def splitBytes? : (count : Nat) → List Char → Option (List Char × List Char)
  | 0, cs => some ([], cs)
  | _ + 1, [] => none
  | count + 1, c :: rest =>
    if c.utf8Size ≤ count + 1 then
      (splitBytes? (count + 1 - c.utf8Size) rest).map fun (front, behind) => (c :: front, behind)
    else none

/-- The part of a source that a span marks, if it begins and ends between characters. -/
def Span.slice? (span : Span) (source : String) : Option String := do
  guard (span.start ≤ span.stop)
  let (_, behind) ← splitBytes? span.start source.toList
  let (inside, _) ← splitBytes? (span.stop - span.start) behind
  return String.ofList inside

theorem splitBytes?_append (front behind : List Char) :
    splitBytes? (String.ofList front).utf8ByteSize (front ++ behind) = some (front, behind) := by
  induction front with
  | nil => simp [splitBytes?]
  | cons c rest ih =>
    have positive := c.utf8Size_pos
    have size : (String.ofList (c :: rest)).utf8ByteSize =
        c.utf8Size + (String.ofList rest).utf8ByteSize := by
      rw [String.ofList_cons, String.utf8ByteSize_append, String.utf8ByteSize_singleton]
    obtain ⟨count, hcount⟩ := Nat.exists_eq_succ_of_ne_zero
      (show (String.ofList (c :: rest)).utf8ByteSize ≠ 0 by omega)
    have behind : count + 1 - c.utf8Size = (String.ofList rest).utf8ByteSize := by omega
    rw [hcount, List.cons_append, splitBytes?, if_pos (by omega), behind, ih]
    rfl

theorem Span.slice?_append (front own behind : String) :
    slice? ⟨front.utf8ByteSize, front.utf8ByteSize + own.utf8ByteSize⟩ (front ++ own ++ behind) =
      some own := by
  have first := splitBytes?_append front.toList (own.toList ++ behind.toList)
  have second := splitBytes?_append own.toList behind.toList
  rw [String.ofList_toList] at first second
  rw [slice?, guard, if_pos (Nat.le_add_right _ _)]
  simp [first, second]

namespace Token

def texts (tokens : List Token) : String :=
  String.join (tokens.map text)

theorem texts_append (first second : List Token) :
    texts (first ++ second) = texts first ++ texts second := by
  simp [texts]

/-- Where tokens tile a stretch it has as many bytes as their texts. -/
theorem end_of_tile {start last : Nat} {tokens : List Token}
    (tiles : Span.Tile start last (tokens.map span)) :
    last = start + (texts tokens).utf8ByteSize := by
  induction tokens generalizing start with
  | nil => exact tiles.symm
  | cons t rest ih =>
    obtain ⟨rfl, behind⟩ := tiles
    rw [ih behind]
    simp [texts, span, stop, Nat.add_assoc]

/-- Some of the tokens that tile a text from its beginning make up the part that they stand on. -/
theorem slice?_of_tile {stop first last : Nat} {before own behind : List Token}
    (tiles : Span.Tile 0 stop ((before ++ (own ++ behind)).map span))
    (here : Span.Tile first last (own.map span)) (nonempty : own ≠ []) (rest : String) :
    Span.slice? ⟨first, last⟩ (texts (before ++ (own ++ behind)) ++ rest) = some (texts own) := by
  rw [List.map_append, List.map_append, Span.tile_append] at tiles
  obtain ⟨middle, front, tiles⟩ := tiles
  obtain ⟨middle', inside, -⟩ := Span.tile_append.mp tiles
  obtain ⟨rfl, rfl⟩ := here.unique (by simpa using nonempty) inside
  rw [end_of_tile here, end_of_tile front, Nat.zero_add, texts_append, texts_append]
  have slice := Span.slice?_append (texts before) (texts own) (texts behind ++ rest)
  simpa [String.append_assoc] using slice

end Token

namespace Lexeme

theorem text_of_lparen {lexeme : Lexeme} (h : lexeme.IsScanned) (kind : lexeme.kind = .lparen) :
    lexeme.text = ['('] := by
  obtain error | ⟨c, rest, rfl⟩ := h
  · simp [error] at kind
  · unfold first at kind ⊢
    grind

theorem text_of_rparen {lexeme : Lexeme} (h : lexeme.IsScanned) (kind : lexeme.kind = .rparen) :
    lexeme.text = [')'] := by
  obtain error | ⟨c, rest, rfl⟩ := h
  · simp [error] at kind
  · unfold first at kind ⊢
    grind

theorem isSpace_of_whitespace {lexeme : Lexeme} (h : lexeme.IsScanned)
    (kind : lexeme.kind = .whitespace) : ∀ c ∈ lexeme.text, isSpace c = true := by
  obtain error | ⟨c, rest, rfl⟩ := h
  · simp [error] at kind
  · by_cases space : isSpace c = true
    · have text : (first c rest).text = c :: rest.takeWhile isSpace := by
        unfold first at kind ⊢
        grind
      rw [text]
      exact List.forall_mem_cons.mpr ⟨space, List.all_eq_true.mp List.all_takeWhile⟩
    · unfold first at kind
      grind

theorem tile_place (start : Nat) (lexemes : List Lexeme) :
    ∃ stop, Span.Tile start stop ((place start lexemes).map Token.span) := by
  induction lexemes generalizing start with
  | nil => exact ⟨start, rfl⟩
  | cons lexeme rest ih =>
    obtain ⟨stop, behind⟩ := ih (Token.stop ⟨lexeme.kind, String.ofList lexeme.text, start⟩)
    exact ⟨stop, rfl, behind⟩

theorem texts_place (start : Nat) (lexemes : List Lexeme) :
    Token.texts (place start lexemes) = String.ofList (lexemes.flatMap text) := by
  induction lexemes generalizing start with
  | nil => rfl
  | cons lexeme rest ih =>
    have others := ih (Token.stop ⟨lexeme.kind, String.ofList lexeme.text, start⟩)
    simp only [Token.texts] at others
    simp [place, Token.texts, others]

/-- Where tokens are cut in two, so are the lexemes that they were made of. -/
theorem exists_split_of_place {start : Nat} {lexemes : List Lexeme} {own rest : List Token}
    (h : place start lexemes = own ++ rest) : ∃ first second start',
      lexemes = first ++ second ∧ own = place start first ∧ rest = place start' second := by
  induction own generalizing start lexemes with
  | nil => exact ⟨[], lexemes, start, rfl, rfl, h.symm⟩
  | cons t own ih =>
    cases lexemes with
    | nil => cases h
    | cons lexeme lexemes =>
      obtain ⟨rfl, others⟩ := List.cons.inj h
      obtain ⟨first, second, start', rfl, rfl, rfl⟩ := ih others
      exact ⟨lexeme :: first, second, start', rfl, rfl, rfl⟩

end Lexeme

/-- Whether a tree holds all of a source, but for the blanks behind the outermost node. -/
structure Node.Lossless (root : Node) (source : String) : Prop where
  text : ∃ blanks : List Char, source = root.text ++ String.ofList blanks ∧
    ∀ c ∈ blanks, Lexeme.isSpace c
  ends : root.text.toList.getLast? = some ')'
  start : root.span.start = 0
  delimited : ∀ n ∈ root.descendants, n.Delimited
  opens : ∀ t ∈ root.inner.leaves, t.kind = .lparen → t.text = "("
  closes : ∀ t ∈ root.inner.leaves, t.kind = .rparen → t.text = ")"
  tokens : ∀ t ∈ root.inner.leaves, t.span.slice? source = some t.text
  nodes : ∀ n ∈ root.descendants, n.span.slice? source = some n.text
  again : read root.text = .ok root

/-- What is read as a grammar is a node of a grammar with nothing but blanks behind it. -/
theorem exists_blanks_of_read {source : String} {root : Node} (h : read source = .ok root) :
    ∃ rest, readNode [] (tokenize source) = .ok (root, rest) ∧ root.kind.isGrammar = true ∧
      ∀ t ∈ rest, t.kind = .whitespace := by
  obtain ⟨rest, run⟩ := readNode_of_read h
  rw [read_of_readNode run] at h
  by_cases grammar : root.kind.isGrammar = true
  · rw [if_pos grammar] at h
    cases extra : rest.find? (!·.isTrivia) with
    | some t => simp [extra] at h
    | none => exact ⟨rest, run, grammar, by simpa [Token.isTrivia] using extra⟩
  · rw [if_neg grammar] at h
    cases h

/-- How a source is read: from the lexemes in front, with only blanks behind. -/
structure Node.ReadFrom (root : Node) (source : String) (own blanks : List Lexeme) : Prop where
  split : Lexeme.scan 0 source.toList = own ++ blanks
  known : ∀ l ∈ own, l.kind ≠ .error
  blank : ∀ l ∈ blanks, l.kind = .whitespace
  grammar : root.kind.isGrammar = true
  reads : ∀ rest, readNode [] (Lexeme.place 0 own ++ rest) = .ok (root, rest)
  leaves : root.inner.leaves.map Token.piece = (Lexeme.place 0 own).map Token.piece

theorem exists_readFrom_of_read {source : String} {root : Node} (h : read source = .ok root) :
    ∃ own blanks, root.ReadFrom source own blanks := by
  obtain ⟨rest, run, grammar, blank⟩ := exists_blanks_of_read h
  obtain ⟨tokens, split, leaves, reads⟩ := exists_own_of_readNode run
  have known := known_scan_of_read h
  rw [Lexeme.tokenize_of_known known] at split
  obtain ⟨own, blanks, start, lexemes, rfl, rfl⟩ := Lexeme.exists_split_of_place split
  rw [lexemes] at known
  refine ⟨own, blanks, lexemes, fun l hl => known l (List.mem_append_left _ hl), ?_, grammar,
    reads, leaves⟩
  intro l hl
  have kinds : l.kind ∈ (Lexeme.place start blanks).map Token.kind := by
    rw [Lexeme.map_kind_place]
    exact List.mem_map_of_mem hl
  obtain ⟨t, ht, same⟩ := List.mem_map.mp kinds
  rw [← same, blank t ht]

namespace Node.ReadFrom

variable {root : Node} {source : String} {own blanks : List Lexeme}
  (reading : root.ReadFrom source own blanks)
include reading

theorem toList_source :
    source.toList = own.flatMap Lexeme.text ++ blanks.flatMap Lexeme.text := by
  have tiled := Lexeme.flatMap_scan 0 source.toList
  rw [reading.split, List.flatMap_append] at tiled
  exact tiled.symm

theorem text_eq : root.text = String.ofList (own.flatMap Lexeme.text) := by
  have texts (tokens : List Token) :
      Token.texts tokens = String.join ((tokens.map Token.piece).map Prod.fst) := by
    rw [List.map_map]
    rfl
  rw [← Lexeme.texts_place 0, texts, ← reading.leaves, ← texts]
  rfl

theorem source_eq : source = root.text ++ String.ofList (blanks.flatMap Lexeme.text) := by
  rw [reading.text_eq, ← String.ofList_append, ← reading.toList_source, String.ofList_toList]

theorem isSpace_of_mem_blanks : ∀ c ∈ blanks.flatMap Lexeme.text, Lexeme.isSpace c := by
  intro c hc
  obtain ⟨l, hl, hc⟩ := List.mem_flatMap.mp hc
  have inSource : l ∈ Lexeme.scan 0 source.toList := by
    rw [reading.split]
    exact List.mem_append_right _ hl
  have scanned := Lexeme.isScanned_scan l inSource
  exact Lexeme.isSpace_of_whitespace scanned (reading.blank l hl) c hc

/-- The lexer finds the same in the text of the tree, where it does not see the blanks. -/
theorem tokenize_text : tokenize root.text = Lexeme.place 0 own := by
  have whole := reading.split
  rw [reading.toList_source] at whole
  have scanned : Lexeme.scan 0 (own.flatMap Lexeme.text) = own :=
    Lexeme.scan_of_append whole rfl (Nat.zero_le _) reading.known
  rw [tokenize, reading.text_eq, String.toList_ofList, scanned,
    Lexeme.joined_of_known reading.known]

theorem read_text : read root.text = .ok root := by
  have run := reading.reads []
  rw [List.append_nil, ← reading.tokenize_text] at run
  rw [read_of_readNode run, if_pos reading.grammar]
  rfl

theorem delimited : ∀ n ∈ root.descendants, n.Delimited := by
  obtain ⟨stop, tiles⟩ := Lexeme.tile_place 0 own
  have run := reading.reads []
  rw [List.append_nil] at run
  have outside : OpenNode.AllSound 0 [] := trivial
  refine delimited_of_readNode outside tiles ?_ run
  rw [← reading.tokenize_text]
  exact fun t => kind_ne_head_of_mem_tokenize

theorem exists_tile : ∃ stop, Span.Tile 0 stop (root.inner.leaves.map Token.span) := by
  have spans (tokens : List Token) : tokens.map Token.span =
      (tokens.map Token.piece).map fun (text, start) => ⟨start, start + text.utf8ByteSize⟩ := by
    rw [List.map_map]
    rfl
  rw [spans, reading.leaves, ← spans]
  exact Lexeme.tile_place 0 own

theorem start_eq : root.span.start = 0 := by
  have whole := reading.delimited root root.mem_descendants_self
  obtain ⟨stop, tiles⟩ := reading.exists_tile
  have inside : ∀ n ∈ root.inner.descendants, n.Delimited :=
    fun n hn => reading.delimited n (root.descendants_inner hn)
  have here := Forest.tile_leaves inside whole.tiles
  exact (here.unique (by simpa using whole.leaves_ne_nil) tiles).1

/-- A part of the leaves makes up the part of the source that it stands on. -/
theorem slice?_of_leaves {first last : Nat} {before inner behind : List Token}
    (around : root.inner.leaves = before ++ (inner ++ behind))
    (here : Span.Tile first last (inner.map Token.span)) (nonempty : inner ≠ []) :
    Span.slice? ⟨first, last⟩ source = some (Token.texts inner) := by
  obtain ⟨stop, tiles⟩ := reading.exists_tile
  have text : root.text = Token.texts root.inner.leaves := rfl
  rw [reading.source_eq, text]
  rw [around] at tiles ⊢
  exact Token.slice?_of_tile tiles here nonempty _

theorem slice?_of_mem_leaves : ∀ t ∈ root.inner.leaves, t.span.slice? source = some t.text := by
  intro t ht
  obtain ⟨before, behind, around⟩ := List.append_of_mem ht
  have tile : Span.Tile t.start t.stop ([t].map Token.span) := ⟨rfl, rfl⟩
  have text : Token.texts [t] = t.text := by simp [Token.texts]
  rw [← text]
  exact reading.slice?_of_leaves around tile (List.cons_ne_nil _ _)

theorem slice?_of_mem_descendants :
    ∀ n ∈ root.descendants, n.span.slice? source = some n.text := by
  intro n hn
  have here := reading.delimited n hn
  obtain ⟨before, behind, around⟩ := Forest.exists_around_leaves hn
  have leaves : (Forest.ofNode root).leaves = root.inner.leaves := List.append_nil _
  rw [leaves] at around
  have inside : ∀ d ∈ n.inner.descendants, d.Delimited :=
    fun d hd => reading.delimited d (Forest.descendants_inner_of_mem hn hd)
  exact reading.slice?_of_leaves around (Forest.tile_leaves inside here.tiles) here.leaves_ne_nil

theorem getLast?_text : root.text.toList.getLast? = some ')' := by
  have lexed := reading.tokenize_text
  have outside : Token.Unclosed (([] : List OpenNode).map OpenNode.outline) [] := .nil
  have noHead : ∀ t ∈ Lexeme.place 0 own, t.kind ≠ .head := by
    rw [← lexed]
    exact fun t => kind_ne_head_of_mem_tokenize
  have sound := readNode_sound outside noHead
  have run := reading.reads []
  rw [List.append_nil] at run
  rw [run] at sound
  obtain ⟨tokens, same, isNode⟩ := sound
  obtain @⟨lparen, word, rparen, inner, -, -, closes⟩ := isNode
  rw [List.nil_append, List.append_nil, ← lexed] at same
  have last : rparen ∈ tokenize root.text := by simp [same]
  obtain ⟨lexeme, scanned, kind, text⟩ := exists_lexeme_of_mem_tokenize last
  rw [Lexeme.text_of_rparen scanned (kind ▸ closes)] at text
  have texts : root.text = Token.texts (tokenize root.text) := by
    rw [lexed, Lexeme.texts_place, reading.text_eq]
  rw [texts, same]
  simp [Token.texts, text]

end Node.ReadFrom

theorem lossless_of_read {source : String} {root : Node} (h : read source = .ok root) :
    root.Lossless source := by
  obtain ⟨own, blanks, reading⟩ := exists_readFrom_of_read h
  have lexed (t : Token) (ht : t ∈ root.inner.leaves) (other : t.kind ≠ .head) :
      ∃ lexeme : Lexeme, lexeme.IsScanned ∧ t.kind = lexeme.kind ∧
        t.text = String.ofList lexeme.text :=
    exists_lexeme_of_mem_tokenize ((mem_tokenize_of_read h t ht).resolve_left other)
  constructor
  case text => exact ⟨_, reading.source_eq, reading.isSpace_of_mem_blanks⟩
  case ends => exact reading.getLast?_text
  case start => exact reading.start_eq
  case delimited => exact reading.delimited
  case opens =>
    intro t ht kind
    obtain ⟨lexeme, scanned, same, text⟩ := lexed t ht (by simp [kind])
    rw [text, Lexeme.text_of_lparen scanned (same ▸ kind)]
  case closes =>
    intro t ht kind
    obtain ⟨lexeme, scanned, same, text⟩ := lexed t ht (by simp [kind])
    rw [text, Lexeme.text_of_rparen scanned (same ▸ kind)]
  case tokens => exact reading.slice?_of_mem_leaves
  case nodes => exact reading.slice?_of_mem_descendants
  case again => exact reading.read_text

namespace Grammar

theorem source_of_load {text : String} {g : Grammar} (h : load text = .ok g) :
    g.source = Text.trim text := by
  obtain ⟨_, _, _, -, -, -, -, -, rfl⟩ := exists_of_load_ok h
  rfl

/-- The source of a loaded grammar ends with its outermost node. -/
theorem Loaded.read_source {g : Grammar} (loaded : g.Loaded) :
    read g.source = .ok g.root ∧ g.root.text = g.source := by
  obtain ⟨text, first, hload, hg⟩ := loaded
  have source : g.source = Text.trim text := by rw [hg, ← source_of_load hload]
  have root : g.root = first.root := by rw [hg]
  have run : read g.source = .ok g.root := by rw [source, root, (readFrom_of_load hload).root]
  refine ⟨run, ?_⟩
  obtain ⟨blanks, split, spaces⟩ := (lossless_of_read run).text
  obtain ⟨_, _, _, _, _, _, last⟩ := Text.exists_around_trimChars text.toList
  have core : g.source.toList = Text.trimChars text.toList := by
    rw [source]
    exact String.toList_ofList
  have none : blanks.getLast? = none := by
    cases h : blanks.getLast? with
    | none => rfl
    | some c =>
      have here : c ∈ (Text.trimChars text.toList).getLast? := by
        rw [← core, split, String.toList_append, String.toList_ofList, List.getLast?_append, h]
        rfl
      have blank := Lexeme.isBlank_of_isSpace (spaces c (List.mem_of_getLast? h))
      rw [last c here] at blank
      cases blank
  rw [List.getLast?_eq_none_iff.mp none] at split
  simpa using split.symm

/-- Whether each span of a diagnostic marks the text of a node in the source of a grammar. -/
def ShowsIn (g : Grammar) (d : Diagnostic) : Prop :=
  ∀ span ∈ d.spans, ∃ n ∈ g.root.descendants,
    span = n.span ∧ span.slice? g.source = some n.text

theorem Loaded.showsIn {g : Grammar} (loaded : g.Loaded) {d : Diagnostic}
    (points : d.PointsInto g.root) : g.ShowsIn d := by
  intro span hspan
  obtain ⟨n, hn, rfl⟩ := points span hspan
  exact ⟨n, hn, rfl, (lossless_of_read loaded.read_source.1).nodes n hn⟩

end Grammar

/-- What is read is read without loss. A loaded grammar has the very text of its source, and all
that a parser job reports about it, whether in its model or before it breaks off, marks texts of
nodes. -/
theorem lossless_reading :
    (∀ source root, read source = .ok root → root.Lossless source) ∧
      ∀ setup : Setup, setup.grammar.Loaded →
        setup.grammar.root.text = setup.grammar.source ∧
        ∀ result s, setup.parserModel .empty = (result, s) →
          (∀ d ∈ s.diagnostics, setup.grammar.ShowsIn d) ∧
          ∀ model, result = .ok model → ∀ d ∈ model.diagnostics, setup.grammar.ShowsIn d := by
  refine ⟨fun source root => lossless_of_read, fun setup loaded => ?_⟩
  refine ⟨loaded.read_source.2, fun result s run => ?_⟩
  obtain ⟨pending, told⟩ := Setup.tells_parserModel loaded .empty nofun
  rw [run] at pending told
  exact ⟨fun d hd => loaded.showsIn (pending d hd),
    fun model built d hd => loaded.showsIn (told model built d hd)⟩

/-- A text with a blank inside and behind it and a character of two bytes, of which a rule breaks
off. -/
def unpolishedText : String :=
  "(PARSER_GRAMMAR P(RULE a(BLOCK(ALT(STRING_LITERAL 'é'))))\t(RULE b(BLOCK)))\r\n"

def unpolished : Grammar :=
  (Grammar.load unpolishedText).toOption.get (by decide +kernel)

theorem lossless_reading_of_unpolishedText : ∃ root model s,
    read unpolishedText = .ok root ∧ root.Lossless unpolishedText ∧ unpolished.Loaded ∧
      unpolished.root.text = unpolished.source ∧
      (Setup.plain unpolished .java true).parserModel .empty = (.ok model, s) ∧
      model.diagnostics.map (fun d => d.span.slice? unpolished.source) = [some "(BLOCK)"] ∧
      ∀ d ∈ model.diagnostics, unpolished.ShowsIn d := by
  obtain ⟨isRead, evaluated⟩ : (read unpolishedText).toOption.isSome = true ∧
      ((Setup.plain unpolished .java true).parserModel .empty).1.toOption.map
        (fun model => model.diagnostics.map fun d => d.span.slice? unpolished.source) =
          some [some "(BLOCK)"] := by
    decide +kernel
  obtain ⟨root, hroot⟩ := Option.isSome_iff_exists.mp isRead
  have hread := eq_ok_of_toOption hroot
  have loaded : unpolished.Loaded := Grammar.loaded_get _
  have whole := lossless_reading.1 _ _ hread
  obtain ⟨text, shows⟩ := lossless_reading.2 (Setup.plain unpolished .java true) loaded
  rcases run : (Setup.plain unpolished .java true).parserModel .empty with ⟨result, s⟩
  rw [run] at evaluated
  obtain ⟨model, hmodel, slices⟩ := Option.map_eq_some_iff.mp evaluated
  obtain rfl := eq_ok_of_toOption hmodel
  exact ⟨root, model, s, hread, whole, loaded, text, rfl, slices, (shows _ s run).2 model rfl⟩

end RecognizerModel
