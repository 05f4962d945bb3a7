import RecognizerModel.Proofs.TokenTiling

/-! Lexing a text part by part. What is read never depends on the text behind its end, so two parts
of a text that meet where a token ends can be lexed one by one. -/
namespace RecognizerModel

/-- A token as it stands behind a text of `offset` bytes. -/
def Token.shifted (offset : Nat) (t : Token) : Token :=
  { t with start := offset + t.start }

namespace Lexeme

theorem place_add (offset start : Nat) (lexemes : List Lexeme) :
    place (offset + start) lexemes = (place start lexemes).map (Token.shifted offset) := by
  induction lexemes generalizing start with
  | nil => rfl
  | cons l rest ih =>
    rw [place, place, List.map_cons, ← ih]
    simp [Token.shifted, Token.stop, Nat.add_assoc]

/-- Where a token starts all lexemes before it end. -/
theorem exists_split_of_mem_place {first : Nat} {lexemes : List Lexeme} {t : Token}
    (h : t ∈ place first lexemes) :
    ∃ own others, lexemes = own ++ others ∧ t.start = first + size own := by
  obtain ⟨before, behind, around⟩ := List.append_of_mem h
  obtain ⟨own, others, start, rfl, hbefore, hbehind⟩ := exists_split_of_place around
  refine ⟨own, others, rfl, ?_⟩
  rw [place_append, hbefore] at around
  have same := List.append_cancel_left around
  cases others with
  | nil => cases same
  | cons l others =>
    obtain ⟨rfl, -⟩ := List.cons.inj same
    rfl

/-- Two fronts of a text that have as many bytes are the same. -/
theorem append_inj_of_utf8ByteSize {front behind front' behind' : List Char}
    (h : front ++ behind = front' ++ behind')
    (size : (String.ofList front).utf8ByteSize = (String.ofList front').utf8ByteSize) :
    front = front' ∧ behind = behind' := by
  have split := splitBytes?_append front behind
  rw [h, size, splitBytes?_append] at split
  obtain ⟨rfl, rfl⟩ := Prod.mk.inj (Option.some.inj split)
  exact ⟨rfl, rfl⟩

/-- The lexemes of two parts of a text that meet where a lexeme ends. -/
theorem scan_of_parts {first second : List Char} {own others : List Lexeme}
    (h : scan 0 (first ++ second) = own ++ others)
    (meet : size own = (String.ofList first).utf8ByteSize) (known : ∀ l ∈ own, l.kind ≠ .error) :
    scan 0 first = own ∧ scan 0 second = others := by
  obtain ⟨front, behind⟩ := append_inj_of_utf8ByteSize (toList_eq_of_scan h) meet.symm
  have again := scan_flatMap_of_append h
  rw [← behind] at again
  exact ⟨scan_of_append h front.symm (Nat.zero_le _) known, again⟩

/-- What is read at the front of a text is read again of itself. -/
theorem scan_text_of_isScanned {l : Lexeme} (scanned : l.IsScanned) (known : l.kind ≠ .error) :
    scan 0 l.text = [l] := by
  obtain error | ⟨c, rest, rfl⟩ := scanned
  · exact absurd error known
  obtain ⟨trail, split⟩ := first_isPrefix c rest
  cases own : (first c rest).text with
  | nil => exact absurd own (first_ne_nil c rest)
  | cons d inner =>
    rw [own, List.cons_append] at split
    obtain ⟨rfl, rfl⟩ := List.cons.inj split
    have same := first_of_append known (Nat.le_of_eq (by rw [own, List.length_cons]))
    rw [scan_cons, same, own, List.drop_length]
    rfl

end Lexeme

theorem tokenize_text_of_mem_tokenize {source : String} {t : Token} (h : t ∈ tokenize source)
    (known : t.kind ≠ .error) : tokenize t.text = [{ t with start := 0 }] := by
  obtain ⟨l, scanned, kind, text⟩ := exists_lexeme_of_mem_tokenize h
  have again := Lexeme.scan_text_of_isScanned scanned (kind ▸ known)
  rw [tokenize, text, String.toList_ofList, again, kind]
  rfl

theorem tokenize_append {a b : String} (known : ∀ t ∈ tokenize (a ++ b), t.kind ≠ .error)
    (boundary : ∃ t ∈ tokenize (a ++ b), t.start = a.utf8ByteSize) :
    tokenize (a ++ b) = tokenize a ++ (tokenize b).map (Token.shifted a.utf8ByteSize) := by
  have lexed := known_scan_of_tokenize known
  obtain ⟨t, ht, start⟩ := boundary
  rw [Lexeme.tokenize_of_known lexed] at ht ⊢
  obtain ⟨own, others, split, ends⟩ := Lexeme.exists_split_of_mem_place ht
  rw [split] at lexed ⊢
  obtain ⟨knownOwn, knownOthers⟩ := List.forall_mem_append.mp lexed
  have meet : Lexeme.size own = a.utf8ByteSize := by rw [← start, ends, Nat.zero_add]
  rw [String.toList_append] at split
  obtain ⟨scanOwn, scanOthers⟩ := Lexeme.scan_of_parts split (by simpa using meet) knownOwn
  rw [Lexeme.tokenize_of_known (scanOwn ▸ knownOwn),
    Lexeme.tokenize_of_known (scanOthers ▸ knownOthers), scanOwn, scanOthers,
    Lexeme.place_append, ← Lexeme.place_add, meet, Nat.zero_add, Nat.add_zero]

/-- Lexing is compositional where a token ends: the tokens of a text without errors are those of
its two parts, and what is read as a token is read as the same token by itself. -/
theorem lexing_at_boundaries :
    (∀ a b : String, (∀ t ∈ tokenize (a ++ b), t.kind ≠ .error) →
      (∃ t ∈ tokenize (a ++ b), t.start = a.utf8ByteSize) →
        tokenize (a ++ b) = tokenize a ++ (tokenize b).map (Token.shifted a.utf8ByteSize)) ∧
      ∀ source, ∀ t ∈ tokenize source, t.kind ≠ .error →
        tokenize t.text = [{ t with start := 0 }] :=
  ⟨fun _ _ => tokenize_append, fun _ _ => tokenize_text_of_mem_tokenize⟩

/-- A predicate with a character of two bytes in it goes before a literal with a quote in it. -/
theorem lexing_at_boundaries_of_predicate :
    tokenize ("x{é}?" ++ "'\\''[y] @3") =
        tokenize "x{é}?" ++ (tokenize "'\\''[y] @3").map (Token.shifted 6) ∧
      (tokenize ("x{é}?" ++ "'\\''[y] @3")).map Token.text =
        ["x", "{é}?", "'\\''", "[y]", " ", "@3"] ∧
      tokenize "{é}?" = [⟨.code, "{é}?", 0⟩] :=
  ⟨lexing_at_boundaries.1 "x{é}?" "'\\''[y] @3" (by decide +kernel) (by decide +kernel),
    by decide +kernel,
    lexing_at_boundaries.2 "x{é}?" ⟨.code, "{é}?", 1⟩ (by decide +kernel) nofun⟩

end RecognizerModel
