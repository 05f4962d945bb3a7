import Mathlib.Data.List.Forall2
import RecognizerModel.Model.Attribute
import RecognizerModel.Proofs.TextParts

/-! Lists of attributes. Each piece between commas that is not blank declares one attribute, and the
attributes can be read again from the list that is written of them. -/
namespace RecognizerModel

namespace Attribute

/-- Whether a declaration can be read again where it is written: the name is a word, and a type is
not blank at its ends. Neither has a comma. -/
structure IsProper (a : Attribute) : Prop where
  name_ne_empty : a.name ≠ ""
  name : ∀ c ∈ a.name.toList, Text.isBlank c = false ∧ c ≠ ','
  type : ∀ type, a.type = some type → type ≠ "" ∧ Text.trim type = type ∧ ',' ∉ type.toList

/-- Whether a text without blanks around it is a declaration: the name with the type before it, if
there is one, and blanks between them. -/
def Declares (entry : List Char) (a : Attribute) : Prop :=
  match a.type with
  | none => entry = a.name.toList
  | some type => ∃ gap : List Char, gap ≠ [] ∧ (∀ c ∈ gap, Text.isBlank c = true) ∧
      entry = type.toList ++ (gap ++ a.name.toList)

/-- Whether a piece of a list is a declaration with blanks around it. -/
def StandsIn (piece : List Char) (a : Attribute) : Prop :=
  ∃ lead entry trail : List Char, piece = lead ++ (entry ++ trail) ∧
    (∀ c ∈ lead, Text.isBlank c = true) ∧ (∀ c ∈ trail, Text.isBlank c = true) ∧ Declares entry a

theorem ofTrimmed_append {front word : List Char}
    (gap : ∀ c ∈ front.getLast?, Text.isBlank c = true)
    (inside : ∀ c ∈ word, Text.isBlank c = false) :
    ofTrimmed (front ++ word) =
      { name := String.ofList word
        type := if front.isEmpty then none
          else some (String.ofList (Text.dropBlanksRight front)) } := by
  have stops : (front.reverse.takeWhile fun c => !Text.isBlank c) = [] := by
    rw [← List.head?_reverse] at gap
    cases turned : front.reverse with
    | nil => rfl
    | cons c rest =>
        rw [turned] at gap
        rw [List.takeWhile_cons, gap c rfl]
        rfl
  have goes : ∀ c ∈ word.reverse, (!Text.isBlank c) = true := by
    intro c h
    rw [inside c (List.mem_reverse.mp h)]
    rfl
  have last : ((front ++ word).reverse.takeWhile fun c => !Text.isBlank c).reverse = word := by
    rw [List.reverse_append, List.takeWhile_append_of_pos goes, stops, List.append_nil,
      List.reverse_reverse]
  have before : (front ++ word).take ((front ++ word).length - word.length) = front := by
    simp
  unfold ofTrimmed
  dsimp only
  rw [last, before]

/-- What is declared is read. -/
theorem ofTrimmed_of_declares {entry : List Char} {a : Attribute} (proper : a.IsProper)
    (h : Declares entry a) : Text.IsTrimmed entry ∧ entry ≠ [] ∧ ofTrimmed entry = a := by
  obtain ⟨name, type⟩ := a
  have word : ∀ c ∈ name.toList, Text.isBlank c = false := fun c h => (proper.name c h).1
  have named : name.toList ≠ [] := by
    rw [Ne, String.toList_eq_nil_iff]
    exact proper.name_ne_empty
  cases type with
  | none =>
      obtain rfl : entry = name.toList := h
      refine ⟨⟨fun c h => word c (List.mem_of_mem_head? h),
        fun c h => word c (List.mem_of_getLast? h)⟩, named, ?_⟩
      have read := @ofTrimmed_append [] name.toList nofun word
      rwa [String.ofList_toList] at read
  | some type =>
      obtain ⟨gap, apart, blank, rfl⟩ := h
      obtain ⟨typed, trimmed, -⟩ := proper.type type rfl
      have ends := Text.trim_eq_self_iff.mp trimmed
      rw [Ne, ← String.toList_eq_nil_iff] at typed
      have behind : ∀ c ∈ (type.toList ++ gap).getLast?, Text.isBlank c = true := by
        intro c h
        rw [List.getLast?_append_of_ne_nil _ apart] at h
        exact blank c (List.mem_of_getLast? h)
      refine ⟨⟨?_, ?_⟩, by simp [typed], ?_⟩
      · rw [List.head?_append_of_ne_nil _ typed]
        exact ends.head
      · rw [← List.append_assoc, List.getLast?_append_of_ne_nil _ named]
        exact fun c h => word c (List.mem_of_getLast? h)
      · rw [← List.append_assoc, ofTrimmed_append behind word,
          Text.dropBlanksRight_append ends.last blank]
        simp [typed]

/-- The last word of a text, and what stands before it. -/
theorem exists_front_word (entry : List Char) : ∃ front word, entry = front ++ word ∧
    (∀ c ∈ front.getLast?, Text.isBlank c = true) ∧ ∀ c ∈ word, Text.isBlank c = false := by
  refine ⟨entry.rdropWhile fun c => !Text.isBlank c, entry.rtakeWhile fun c => !Text.isBlank c,
    List.rdropWhile_append_rtakeWhile.symm, ?_, ?_⟩
  · intro c h
    simpa using Text.last_rdropWhile c h
  · intro c h
    simpa using List.mem_rtakeWhile_imp h

/-- What ends with blanks ends with a gap behind its last other character. -/
theorem exists_gap {front : List Char} (ne : front ≠ [])
    (behind : ∀ c ∈ front.getLast?, Text.isBlank c = true) :
    ∃ gap : List Char, gap ≠ [] ∧ (∀ c ∈ gap, Text.isBlank c = true) ∧
      front = Text.dropBlanksRight front ++ gap := by
  refine ⟨front.rtakeWhile Text.isBlank, ?_, fun c h => List.mem_rtakeWhile_imp h,
    List.rdropWhile_append_rtakeWhile.symm⟩
  rw [Ne, List.rtakeWhile_eq_nil_iff]
  exact fun other => other ne (behind _ (List.getLast?_eq_some_getLast ne))

/-- What is read is declared. -/
theorem declares_ofTrimmed {entry : List Char} (trimmed : Text.IsTrimmed entry) (ne : entry ≠ [])
    (comma : ',' ∉ entry) : (ofTrimmed entry).IsProper ∧ Declares entry (ofTrimmed entry) := by
  obtain ⟨front, word, rfl, behind, inside⟩ := exists_front_word entry
  -- without a word at its end the text would end with a blank
  have named : word ≠ [] := by
    rintro rfl
    rw [List.append_nil] at ne trimmed
    have last := List.getLast?_eq_some_getLast ne
    have blank := trimmed.last _ last
    rw [behind _ last] at blank
    cases blank
  obtain ⟨beforeComma, wordComma⟩ := not_or.mp (mt List.mem_append.mpr comma)
  have proper : ∀ c ∈ word, Text.isBlank c = false ∧ c ≠ ',' := fun c h =>
    ⟨inside c h, ne_of_mem_of_not_mem h wordComma⟩
  rw [ofTrimmed_append behind inside]
  by_cases none : front = []
  · subst none
    exact ⟨⟨by simpa using named, by simpa using proper, nofun⟩, by simp [Declares]⟩
  · obtain ⟨gap, apart, blank, split⟩ := exists_gap none behind
    -- the type starts where the text does, so there is something left of it before the gap
    have head : ∀ c ∈ front.head?, Text.isBlank c = false := by
      intro c h
      refine trimmed.head c ?_
      rwa [List.head?_append_of_ne_nil _ none]
    obtain ⟨typed, ends⟩ := Text.isTrimmed_dropBlanksRight none head
    have typeComma : ',' ∉ Text.dropBlanksRight front := fun h =>
      beforeComma (split ▸ List.mem_append_left _ h)
    rw [if_neg (mt List.isEmpty_iff.mp none)]
    refine ⟨⟨by simpa using named, by simpa using proper, ?_⟩, gap, apart, blank, ?_⟩
    · rintro _ ⟨⟩
      rw [Text.trim_eq_self_iff, String.toList_ofList]
      exact ⟨by simpa using typed, ends, typeComma⟩
    · rw [String.toList_ofList, String.toList_ofList, ← List.append_assoc, ← split]

/-- The pieces between commas that are not blank. -/
def entries (text : String) : List (List Char) :=
  (text.toList.splitOn ',').filter fun piece => !piece.all Text.isBlank

theorem parseList_eq (text : String) :
    parseList text = (entries text).map fun piece => ofTrimmed (Text.trimChars piece) := by
  unfold parseList entries
  rw [Text.pieces_eq_splitOn, List.filter_map, List.map_map]
  simp only [Function.comp_def, Text.isEmpty_trimChars]

theorem ofTrimmed_of_standsIn {piece : List Char} {a : Attribute} (proper : a.IsProper)
    (h : StandsIn piece a) :
    piece.all Text.isBlank = false ∧ ofTrimmed (Text.trimChars piece) = a := by
  obtain ⟨lead, entry, trail, rfl, before, behind, declared⟩ := h
  obtain ⟨trimmed, ne, read⟩ := ofTrimmed_of_declares proper declared
  have core := Text.trimChars_append before trimmed behind
  rw [← Text.isEmpty_trimChars, core, List.isEmpty_eq_false_iff]
  exact ⟨ne, read⟩

theorem standsIn_ofTrimmed {piece : List Char} (some : piece.all Text.isBlank = false)
    (comma : ',' ∉ piece) :
    (ofTrimmed (Text.trimChars piece)).IsProper ∧
      StandsIn piece (ofTrimmed (Text.trimChars piece)) := by
  rw [← Text.isEmpty_trimChars, List.isEmpty_eq_false_iff] at some
  obtain ⟨lead, trail, around, before, behind, -, -⟩ := Text.exists_around_trimChars piece
  have inside : ',' ∉ Text.trimChars piece := by
    intro h
    rw [around] at comma
    exact comma (List.mem_append_right _ (List.mem_append_left _ h))
  obtain ⟨proper, declared⟩ := declares_ofTrimmed (Text.isTrimmed_trimChars piece) some inside
  exact ⟨proper, lead, _, trail, around, before, behind, declared⟩

/-- The list that is read is the one of the proper declarations that stand in the pieces. -/
theorem parseList_eq_iff {text : String} {attrs : List Attribute} :
    parseList text = attrs ↔
      List.Forall₂ StandsIn (entries text) attrs ∧ ∀ a ∈ attrs, a.IsProper := by
  rw [parseList_eq]
  constructor
  · rintro rfl
    have each : ∀ piece ∈ entries text, (ofTrimmed (Text.trimChars piece)).IsProper ∧
        StandsIn piece (ofTrimmed (Text.trimChars piece)) := by
      intro piece h
      obtain ⟨cut, some⟩ := List.mem_filter.mp h
      rw [← Text.pieces_eq_splitOn] at cut
      exact standsIn_ofTrimmed (by simpa using some) (Text.not_mem_of_mem_pieces cut)
    rw [List.forall₂_map_right_iff, List.forall₂_same, List.forall_mem_map]
    exact ⟨fun piece h => (each piece h).2, fun piece h => (each piece h).1⟩
  · rintro ⟨stand, proper⟩
    generalize entries text = pieces at stand
    induction stand with
    | nil => rfl
    | cons here _ ih =>
        obtain ⟨first, rest⟩ := List.forall_mem_cons.mp proper
        rw [List.map_cons, (ofTrimmed_of_standsIn first here).2, ih rest]

theorem toList_render_typed (name type : String) :
    (render ⟨name, some type⟩).toList = type.toList ++ ([' '] ++ name.toList) := by
  have spelled : render ⟨name, some type⟩ = type ++ " " ++ name := rfl
  rw [spelled, String.toList_append, String.toList_append, List.append_assoc]
  rfl

theorem blank_space : ∀ c ∈ [' '], Text.isBlank c = true :=
  List.forall_mem_singleton.mpr (by decide)

theorem standsIn_render (a : Attribute) {lead : List Char}
    (blank : ∀ c ∈ lead, Text.isBlank c = true) : StandsIn (lead ++ a.render.toList) a := by
  refine ⟨lead, a.render.toList, [], by rw [List.append_nil], blank, nofun, ?_⟩
  obtain ⟨name, type⟩ := a
  cases type with
  | none => rfl
  | some type =>
      rw [toList_render_typed]
      exact ⟨[' '], by simp, blank_space, rfl⟩

theorem not_mem_render {a : Attribute} (proper : a.IsProper) : ',' ∉ a.render.toList := by
  obtain ⟨name, type⟩ := a
  have word : ',' ∉ name.toList := fun h => (proper.name _ h).2 rfl
  cases type with
  | none => exact word
  | some type =>
      obtain ⟨-, -, comma⟩ := proper.type type rfl
      rw [toList_render_typed]
      simp [word, comma]

/-- What a list is written as between its commas: a blank is before all but the first. -/
def writtenPieces (a : Attribute) (rest : List Attribute) : List (List Char) :=
  ([] ++ a.render.toList) :: rest.map fun b => [' '] ++ b.render.toList

theorem toList_renderList (a : Attribute) (rest : List Attribute) :
    (renderList (a :: rest)).toList = [','].intercalate (writtenPieces a rest) := by
  unfold renderList writtenPieces
  rw [String.toList_intercalate, List.map_map, List.map_cons]
  induction rest generalizing a with
  | nil => simp
  | cons b rest ih =>
      rw [List.map_cons, List.map_cons, List.intercalate_cons_cons, ih b,
        List.intercalate_cons_cons]
      cases rest <;> simp

theorem of_mem_writtenPieces {a : Attribute} {rest : List Attribute} {piece : List Char}
    (h : piece ∈ writtenPieces a rest) :
    ∃ lead, ∃ b ∈ a :: rest, piece = lead ++ b.render.toList ∧ (lead = [] ∨ lead = [' ']) := by
  rcases List.mem_cons.mp h with rfl | h
  · exact ⟨[], a, List.mem_cons_self .., rfl, .inl rfl⟩
  · obtain ⟨b, hb, rfl⟩ := List.mem_map.mp h
    exact ⟨[' '], b, List.mem_cons_of_mem _ hb, rfl, .inr rfl⟩

theorem entries_renderList {attrs : List Attribute} (proper : ∀ a ∈ attrs, a.IsProper) :
    List.Forall₂ StandsIn (entries (renderList attrs)) attrs := by
  cases attrs with
  | nil => exact .nil
  | cons a rest =>
      -- so the list is cut where it was joined, and no piece is passed over
      have each : ∀ piece ∈ writtenPieces a rest,
          ',' ∉ piece ∧ piece.all Text.isBlank = false := by
        intro piece h
        obtain ⟨lead, b, hb, rfl, either⟩ := of_mem_writtenPieces h
        have free := not_mem_render (proper b hb)
        rcases either with rfl | rfl
        · have stands := standsIn_render b (List.forall_mem_nil _)
          exact ⟨free, (ofTrimmed_of_standsIn (proper b hb) stands).1⟩
        · have stands := standsIn_render b blank_space
          exact ⟨by simp [free], (ofTrimmed_of_standsIn (proper b hb) stands).1⟩
      have cut := List.splitOn_intercalate ',' (fun piece h => (each piece h).1)
        (List.cons_ne_nil _ _)
      rw [entries, toList_renderList, cut, List.filter_eq_self.mpr]
      · exact .cons (standsIn_render a (List.forall_mem_nil _)) (List.forall₂_map_left_iff.mpr
          (List.forall₂_same.mpr fun b _ => standsIn_render b blank_space))
      · intro piece h
        rw [(each piece h).2]
        rfl

theorem parseList_renderList_iff {attrs : List Attribute} :
    parseList (renderList attrs) = attrs ↔ ∀ a ∈ attrs, a.IsProper := by
  rw [parseList_eq_iff]
  exact ⟨And.right, fun proper => ⟨entries_renderList proper, proper⟩⟩

/-- A list of attributes has one declaration for each piece between commas that is not blank, in
their order, and each is proper: its name is a word, its type not blank at its ends, and neither has
a comma. Written down as in an outline such a list is read again as it was. -/
theorem attributes_of_text (text : String) :
    List.Forall₂ StandsIn (entries text) (parseList text) ∧
      (∀ a ∈ parseList text, a.IsProper) ∧
      parseList (renderList (parseList text)) = parseList text := by
  obtain ⟨stand, proper⟩ := parseList_eq_iff.mp (rfl : parseList text = parseList text)
  exact ⟨stand, proper, parseList_renderList_iff.mpr proper⟩

/-- Blanks of three bytes stand around and between type and name, and two of the pieces are
blank. -/
theorem attributes_of_text_wideBlanks :
    parseList " int\tx,\u3000Map <K ;V>\u2003 m\u3000,, flag ,\u2028" =
        [⟨"x", some "int"⟩, ⟨"m", some "Map <K ;V>"⟩, ⟨"flag", none⟩] ∧
      (⟨"m", some "Map <K ;V>"⟩ : Attribute).IsProper ∧
      parseList (renderList [⟨"x", some "int"⟩, ⟨"m", some "Map <K ;V>"⟩, ⟨"flag", none⟩]) =
        [⟨"x", some "int"⟩, ⟨"m", some "Map <K ;V>"⟩, ⟨"flag", none⟩] := by
  have read : parseList " int\tx,\u3000Map <K ;V>\u2003 m\u3000,, flag ,\u2028" =
      [⟨"x", some "int"⟩, ⟨"m", some "Map <K ;V>"⟩, ⟨"flag", none⟩] := by decide +kernel
  obtain ⟨-, proper, again⟩ :=
    attributes_of_text " int\tx,\u3000Map <K ;V>\u2003 m\u3000,, flag ,\u2028"
  rw [read] at proper again
  exact ⟨read, proper _ (by simp), again⟩

end Attribute

end RecognizerModel
