import RecognizerModel.Proofs.OutlineTrees
import RecognizerModel.Proofs.TextParts

/-! The text of an outline cut into lines. The texts that an operation shows stand in its line as
they are, so a line feed in one of them ends the line early, and what is behind it is not indented. -/
namespace RecognizerModel

namespace Text

theorem length_pieces (cut : Char) (cs : List Char) : (pieces cut cs).length = cs.count cut + 1 := by
  induction cs with
  | nil => rfl
  | cons c rest ih =>
      rw [pieces, List.count_cons]
      split
      · next here => simp [ih, here]
      · next other =>
        cases inside : pieces cut rest with
        | nil => exact absurd inside (pieces_ne_nil cut rest)
        | cons piece others =>
            rw [inside] at ih
            simpa [other] using ih

theorem pieces_append_cut (cut : Char) (cs rest : List Char) :
    pieces cut (cs ++ cut :: rest) = pieces cut cs ++ pieces cut rest := by
  simp only [pieces_eq_splitOn, List.splitOn_eq_splitOnP]
  exact List.splitOnP_append_cons cs rest (beq_self_eq_true cut)

/-- What has no cut in it belongs to the first piece. -/
theorem pieces_append_of_not_mem {cut : Char} {lead : List Char} (h : cut ∉ lead)
    (cs : List Char) : pieces cut (lead ++ cs) = (pieces cut cs).modifyHead (lead ++ ·) := by
  induction lead with
  | nil => exact (congrFun List.modifyHead_id _).symm
  | cons c lead ih =>
      rw [List.mem_cons, not_or] at h
      rw [List.cons_append, pieces, if_neg (Ne.symm h.1), ih h.2]
      cases inside : pieces cut cs with
      | nil => exact absurd inside (pieces_ne_nil cut cs)
      | cons piece others => rfl

theorem pieces_of_not_mem {cut : Char} {cs : List Char} (h : cut ∉ cs) : pieces cut cs = [cs] := by
  rw [pieces_eq_splitOn, List.splitOn_eq_singleton h]

theorem flatMap_pieces (cut : Char) (cs : List Char) :
    (pieces cut cs).flatMap (· ++ [cut]) = cs ++ [cut] := by
  induction cs with
  | nil => rfl
  | cons c rest ih =>
      rw [pieces]
      split
      · next here => simp [ih, here]
      · cases inside : pieces cut rest with
        | nil => exact absurd inside (pieces_ne_nil cut rest)
        | cons piece others =>
            rw [inside, List.flatMap_cons] at ih
            rw [List.flatMap_cons, List.cons_append, List.cons_append, List.cons_append, ih]

/-- The lines of a text, each without the line feed that ends it. -/
def endedLines (text : String) : List (List Char) :=
  (pieces '\n' text.toList).dropLast

def lineFeeds (text : String) : Nat :=
  text.toList.count '\n'

def lineFeedsIn (texts : List String) : Nat :=
  lineFeeds (String.join texts)

theorem length_endedLines (text : String) : (endedLines text).length = lineFeeds text := by
  rw [endedLines, List.length_dropLast, length_pieces, lineFeeds, Nat.add_sub_cancel]

theorem lineFeeds_append (text more : String) :
    lineFeeds (text ++ more) = lineFeeds text + lineFeeds more := by
  rw [lineFeeds, String.toList_append, List.count_append, lineFeeds, lineFeeds]

theorem lineFeeds_behind {lead : String} (led : lineFeeds lead = 0) (text : String) :
    lineFeeds (lead ++ text) = lineFeeds text := by
  rw [lineFeeds_append, led, Nat.zero_add]

theorem lineFeeds_toString (n : Nat) : lineFeeds (toString n) = 0 := by
  refine List.count_eq_zero.mpr fun h => ?_
  have digit := Nat.isDigit_of_mem_toDigits (by decide) (by decide) (Nat.toList_repr ▸ h)
  exact absurd digit (by decide)

theorem lineFeedsIn_nil : lineFeedsIn [] = 0 :=
  rfl

theorem lineFeedsIn_cons (text : String) (rest : List String) :
    lineFeedsIn (text :: rest) = lineFeeds text + lineFeedsIn rest := by
  rw [lineFeedsIn, String.join_cons, lineFeeds_append, lineFeedsIn]

theorem lineFeedsIn_append (texts more : List String) :
    lineFeedsIn (texts ++ more) = lineFeedsIn texts + lineFeedsIn more := by
  rw [lineFeedsIn, String.join_append, lineFeeds_append, lineFeedsIn, lineFeedsIn]

theorem lineFeedsIn_singleton (text : String) : lineFeedsIn [text] = lineFeeds text := by
  rw [lineFeedsIn_cons, lineFeedsIn_nil, Nat.add_zero]

theorem lineFeedsIn_eq_zero_iff {texts : List String} :
    lineFeedsIn texts = 0 ↔ ∀ text ∈ texts, '\n' ∉ text.toList := by
  rw [lineFeedsIn, lineFeeds, String.toList_join, List.count_eq_zero]
  simp

/-- The order of texts does not count. -/
theorem lineFeedsIn_perm {texts others : List String} (h : texts.Perm others) :
    lineFeedsIn texts = lineFeedsIn others := by
  rw [lineFeedsIn, lineFeeds, String.toList_join, lineFeedsIn, lineFeeds, String.toList_join]
  exact (h.flatMap_right String.toList).count_eq '\n'

theorem lineFeeds_intercalate {between : String} (none : lineFeeds between = 0)
    (texts : List String) : lineFeeds (between.intercalate texts) = lineFeedsIn texts := by
  induction texts with
  | nil => rfl
  | cons text rest ih =>
      cases rest with
      | nil => rw [String.intercalate_singleton, lineFeedsIn_singleton]
      | cons next others =>
          rw [String.intercalate_cons_cons, lineFeeds_append, lineFeeds_append, none, ih,
            Nat.add_zero, lineFeedsIn_cons text]

end Text

open Text OutlineTree

/-- The lines that a line of an outline gives; only the first one is indented. -/
def OutlineLine.shown (line : OutlineLine) : List (List Char) :=
  (pieces '\n' line.text.toList).modifyHead (List.replicate (2 * line.depth) ' ' ++ ·)

theorem OutlineLine.shown_eq_pieces (line : OutlineLine) :
    line.shown = pieces '\n' (List.replicate (2 * line.depth) ' ' ++ line.text.toList) :=
  (pieces_append_of_not_mem (by simp) _).symm

theorem OutlineLine.toList_render (line : OutlineLine) :
    line.render.toList =
      (List.replicate (2 * line.depth) ' ' ++ line.text.toList) ++ ['\n'] := by
  simp [render]

theorem OutlineLine.endedLines_renderAll (lines : List OutlineLine) :
    endedLines (renderAll lines) = lines.flatMap shown := by
  induction lines with
  | nil => rfl
  | cons line rest ih =>
      have cut : (renderAll (line :: rest)).toList =
          (List.replicate (2 * line.depth) ' ' ++ line.text.toList) ++
            '\n' :: (renderAll rest).toList := by
        simp [renderAll, String.toList_join, toList_render]
      rw [endedLines, cut, pieces_append_cut, List.dropLast_append_of_ne_nil (pieces_ne_nil _ _),
        ← shown_eq_pieces, List.flatMap_cons, ← ih]
      rfl

/-- There is nothing behind the last line. -/
theorem OutlineLine.toList_renderAll (lines : List OutlineLine) :
    (renderAll lines).toList = (lines.flatMap shown).flatMap (· ++ ['\n']) := by
  rw [renderAll, String.toList_join, List.flatMap_map, List.flatMap_assoc]
  refine List.flatMap_congr fun line _ => ?_
  rw [toList_render, shown_eq_pieces, flatMap_pieces]

/-- The texts that an operation shows in its own line. -/
def Op.texts : Op → List String
  | .matchToken name _ labels | .matchLiteral name _ labels => name :: labels
  | .invokeRule name _ args labels => name :: (args.toList ++ labels)
  | .action code | .forcedAction code | .predicate code => [code]
  | .testSet _ names => names
  | .addLeaf label | .becomeRoot label => [label]
  | .rewriteOptional r => r.referenced
  | .rewriteClosure r => r.referenced
  | .rewriteToken token _ _ arg _ _ => token :: arg.toList
  | .rewriteRule rule _ _ _ => [rule]
  | .epsilon | .choice _ | .treeRewrite _ | .rewriteTree _ => []

theorem lineFeeds_labelsSuffix (labels : List String) :
    lineFeeds (labelsSuffix labels) = lineFeedsIn labels := by
  induction labels with
  | nil => rfl
  | cons label rest ih =>
      rw [labelsSuffix, List.map_cons, String.join_cons, lineFeeds_append, lineFeedsIn_cons, ← ih,
        lineFeeds_behind (by decide)]
      rfl

theorem lineFeeds_parenthesized {lead : String} (led : lineFeeds lead = 0) (text : Option String) :
    lineFeeds (parenthesized lead text) = lineFeedsIn text.toList := by
  cases text with
  | none => rfl
  | some text =>
      have signs : lineFeeds "(" = 0 ∧ lineFeeds ")" = 0 := by decide
      simp [parenthesized, toString, lineFeeds_append, led, signs, lineFeedsIn_singleton]

theorem lineFeeds_choiceTitle (kind : ChoiceKind) (decision : Option Nat) (ebnf : Option EbnfKind) :
    lineFeeds (choiceTitle kind decision ebnf) = 0 := by
  have described : lineFeeds kind.describe = 0 := by
    obtain ⟨strategy, repeats⟩ := kind
    cases strategy <;> cases repeats <;> decide
  have repeated (ebnf : EbnfKind) : lineFeeds (" " ++ ebnf.symbol) = 0 := by cases ebnf <;> decide
  have numbered (n : Nat) : lineFeeds s!" d{n}" = 0 := by
    rw [lineFeeds_append, lineFeeds_toString]
    rfl
  unfold choiceTitle
  rw [lineFeeds_append, lineFeeds_append, described]
  cases decision <;> cases ebnf <;> simp only [numbered, repeated] <;> rfl

theorem lineFeeds_rootMark (isRoot : Bool) : lineFeeds (rootMark isRoot) = 0 := by
  cases isRoot <;> rfl

theorem lineFeeds_bracketed {lead : String} (led : lineFeeds lead = 0) (names : List String) :
    lineFeeds (bracketed lead names) = lineFeedsIn names := by
  rw [bracketed, lineFeeds_append, lineFeeds_behind led, lineFeeds_intercalate (by decide)]
  rfl

/-- The line feeds of a line are those of the texts in it. -/
theorem Op.lineFeeds_title : ∀ op : Op, lineFeeds op.title = lineFeedsIn op.texts
  | .matchToken name _ labels | .matchLiteral name _ labels => by
      unfold title texts
      rw [lineFeeds_append, lineFeeds_behind (by decide), lineFeeds_labelsSuffix, lineFeedsIn_cons]
      rfl
  | .invokeRule name _ args labels => by
      unfold title texts
      rw [lineFeeds_append, lineFeeds_append, lineFeeds_behind (by decide),
        lineFeeds_parenthesized (by decide), lineFeeds_labelsSuffix, Nat.add_assoc,
        lineFeedsIn_cons, lineFeedsIn_append]
      rfl
  | .action code | .forcedAction code | .predicate code | .addLeaf code | .becomeRoot code =>
      (lineFeeds_behind (by decide) code).trans (lineFeedsIn_singleton code).symm
  | .testSet _ names => by
      unfold title
      rw [lineFeeds_behind (by decide), lineFeeds_intercalate (by decide)]
      rfl
  | .rewriteOptional r => lineFeeds_bracketed (by decide) r.referenced
  | .rewriteClosure r => lineFeeds_bracketed (by decide) r.referenced
  | .rewriteToken token _ isRoot arg _ _ => by
      unfold title texts
      rw [lineFeeds_append, lineFeeds_append, lineFeeds_behind (by decide), lineFeeds_rootMark,
        lineFeeds_parenthesized (by decide), lineFeedsIn_cons]
      rfl
  | .rewriteRule rule isRoot _ _ => by
      unfold title texts
      rw [lineFeeds_append, lineFeeds_behind (by decide), lineFeeds_rootMark, lineFeedsIn_singleton]
      rfl
  | .choice c => lineFeeds_choiceTitle c.kind c.decision c.ebnf
  | .epsilon => (by decide : lineFeeds "epsilon" = 0)
  | .treeRewrite _ => (by decide : lineFeeds "rewrite" = 0)
  | .rewriteTree _ => (by decide : lineFeeds "rewrite-tree" = 0)

theorem OutlineItem.lineFeeds_of_mem_headings {op : Op} {item : OutlineItem}
    (h : item ∈ op.headings) : lineFeeds item.title = 0 := by
  have numbered (n : Nat) : lineFeeds (alternative n).title = 0 :=
    (lineFeeds_behind (by decide) _).trans (lineFeeds_toString n)
  have words : lineFeeds preamble.title = 0 ∧ lineFeeds root.title = 0 ∧
      lineFeeds children.title = 0 := by decide
  cases op with
  | choice c =>
      rcases List.mem_append.mp h with h | h
      · split at h <;> simp_all
      · obtain ⟨alt, -, rfl⟩ := List.mem_map.mp h
        exact numbered alt.num
  | rewriteTree t =>
      rcases List.mem_cons.mp h with rfl | h
      · exact words.2.1
      · split at h <;> simp_all
  | _ => exact absurd h List.not_mem_nil

namespace Op

/-- Whether no text that an operation shows has a line feed. -/
def IsOnOneLine (op : Op) : Prop :=
  ∀ text ∈ op.texts, '\n' ∉ text.toList

theorem lineFeedsIn_texts_eq_zero_iff {ops : List Op} :
    lineFeedsIn (ops.flatMap texts) = 0 ↔ ∀ op ∈ ops, op.IsOnOneLine := by
  rw [lineFeedsIn_eq_zero_iff]
  simp only [List.mem_flatMap, forall_exists_index, and_imp, IsOnOneLine]
  exact ⟨fun h op hop text ht => h text op hop ht, fun h text op hop ht => h op hop text ht⟩

/-- Headings add no line feeds to those of the operations. -/
theorem lineFeedsIn_titles (ops : List Op) :
    lineFeedsIn ((itemsOf ops).map OutlineItem.title) = lineFeedsIn (ops.flatMap texts) := by
  induction ops with
  | nil => rfl
  | cons op rest ih =>
      have headings : lineFeedsIn (op.headings.map OutlineItem.title) = 0 := by
        rw [lineFeedsIn_eq_zero_iff, List.forall_mem_map]
        exact fun item h => List.count_eq_zero.mp (OutlineItem.lineFeeds_of_mem_headings h)
      have here : lineFeeds (OutlineItem.op op).title = lineFeedsIn op.texts := lineFeeds_title op
      rw [itemsOf, List.flatMap_cons, List.map_append, List.map_cons, lineFeedsIn_append,
        lineFeedsIn_cons, headings, here, ← itemsOf, ih, List.flatMap_cons, lineFeedsIn_append]
      rfl

end Op

namespace OutlineLine

/-- A line as it is meant to be, indented by two blanks for each level. -/
def indented (line : OutlineLine) : List Char :=
  List.replicate (2 * line.depth) ' ' ++ line.text.toList

theorem lineFeeds_renderAll (lines : List OutlineLine) :
    lineFeeds (renderAll lines) = lines.length + lineFeedsIn (lines.map text) := by
  induction lines with
  | nil => rfl
  | cons line rest ih =>
      have here : lineFeeds line.render = lineFeeds line.text + 1 := by
        rw [lineFeeds, toList_render]
        simp [lineFeeds, List.count_replicate]
      rw [renderAll, List.map_cons, String.join_cons, lineFeeds_append, here, ← renderAll, ih,
        List.length_cons, List.map_cons, lineFeedsIn_cons]
      omega

theorem shown_of_no_feed {line : OutlineLine} (h : lineFeeds line.text = 0) :
    line.shown = [line.indented] := by
  rw [shown, pieces_of_not_mem (List.count_eq_zero.mp h)]
  rfl

end OutlineLine

namespace Op

/-- The lines of the text of an outline that starts at a depth. -/
def shownAt (depth : Nat) (ops : List Op) : List (List Char) :=
  endedLines (OutlineLine.renderAll (outlineAll depth ops))

theorem shownAt_eq (depth : Nat) (ops : List Op) :
    shownAt depth ops = (linesIn depth (trees ops)).flatMap OutlineLine.shown := by
  rw [shownAt, OutlineLine.endedLines_renderAll, outlineAll_eq]

variable {ops : List Op}

theorem titles_linesIn (depth : Nat) (trees : List OutlineTree) :
    (linesIn depth trees).map OutlineLine.text = (itemsIn trees).map OutlineItem.title := by
  have start := entriesIn_add 0 depth trees
  rw [Nat.zero_add] at start
  simp [linesIn, itemsIn, start, Function.comp_def]

/-- A text has a line for each item, and one more for each line feed in what is shown. -/
theorem length_shownAt (covered : ∀ op ∈ nestedIn ops, op.IsCovered) (depth : Nat) :
    (shownAt depth ops).length =
      (itemsOf (nestedIn ops)).length + lineFeedsIn ((nestedIn ops).flatMap texts) := by
  have titles := titles_linesIn depth (trees ops)
  have items := perm_trees ops covered
  have same : (linesIn depth (trees ops)).length = (itemsOf (nestedIn ops)).length := by
    rw [← items.length_eq]
    simpa using congrArg List.length titles
  rw [shownAt, length_endedLines, outlineAll_eq, OutlineLine.lineFeeds_renderAll, titles, same,
    lineFeedsIn_perm (items.map OutlineItem.title), lineFeedsIn_titles]

/-- Where no text has a line feed, each line is meant as such. -/
theorem shownAt_of_isOnOneLine (covered : ∀ op ∈ nestedIn ops, op.IsCovered)
    (free : ∀ op ∈ nestedIn ops, op.IsOnOneLine) (depth : Nat) :
    shownAt depth ops = (linesIn depth (trees ops)).map OutlineLine.indented := by
  have noFeed : ∀ line ∈ linesIn depth (trees ops), lineFeeds line.text = 0 := by
    intro line hline
    have shows : line.text ∈ (itemsIn (trees ops)).map OutlineItem.title :=
      titles_linesIn depth (trees ops) ▸ List.mem_map_of_mem hline
    obtain ⟨item, hitem, same⟩ := List.mem_map.mp shows
    obtain ⟨op, hop, among⟩ := List.mem_flatMap.mp ((perm_trees ops covered).mem_iff.mp hitem)
    rw [← same]
    rcases List.mem_cons.mp among with rfl | heading
    · exact (lineFeeds_title op).trans (lineFeedsIn_eq_zero_iff.mpr (free op hop))
    · exact OutlineItem.lineFeeds_of_mem_headings heading
  rw [shownAt_eq, ← List.flatMap_pure_eq_map]
  exact List.flatMap_congr fun line hline => OutlineLine.shown_of_no_feed (noFeed line hline)

theorem dumpAll_append (ops more : List Op) : dumpAll (ops ++ more) = dumpAll ops ++ dumpAll more := by
  have lines : outlineAll 0 (ops ++ more) = outlineAll 0 ops ++ outlineAll 0 more := by
    induction ops with
    | nil => rfl
    | cons op rest ih => rw [List.cons_append, outlineAll, ih, outlineAll, List.append_assoc]
  rw [dumpAll, lines, OutlineLine.renderAll, List.map_append, String.join_append]
  rfl

/-- The text of an outline whose choices have no test too many is its lines, each with a line feed
behind it. They are those of the operations and headings in it, each indented for its level, if no
text that is shown has a line feed, and otherwise there are more of them. -/
theorem lines_of_outline (covered : ∀ op ∈ nestedIn ops, op.IsCovered) :
    (itemsIn (trees ops)).Perm (itemsOf (nestedIn ops)) ∧
      (dumpAll ops).toList = (shownAt 0 ops).flatMap (· ++ ['\n']) ∧
      (∀ depth, shownAt depth ops = (linesIn depth (trees ops)).flatMap OutlineLine.shown ∧
        (shownAt depth ops).length = (itemsOf (nestedIn ops)).length +
          lineFeedsIn ((nestedIn ops).flatMap texts) ∧
        ((shownAt depth ops).length = (itemsOf (nestedIn ops)).length ↔
          ∀ op ∈ nestedIn ops, op.IsOnOneLine)) ∧
      ((∀ op ∈ nestedIn ops, op.IsOnOneLine) → ∀ depth,
        shownAt depth ops = (linesIn depth (trees ops)).map OutlineLine.indented ∧
          ∀ deeper, shownAt (depth + deeper) ops =
            (shownAt depth ops).map (List.replicate (2 * deeper) ' ' ++ ·)) ∧
      ∀ more, dumpAll (ops ++ more) = dumpAll ops ++ dumpAll more := by
  refine ⟨perm_trees ops covered, ?_, fun depth => ⟨shownAt_eq depth ops, ?_, ?_⟩,
    fun free depth => ⟨shownAt_of_isOnOneLine covered free depth, fun deeper => ?_⟩,
    dumpAll_append ops⟩
  · rw [shownAt_eq, ← outlineAll_eq]
    exact OutlineLine.toList_renderAll _
  · exact length_shownAt covered depth
  · rw [length_shownAt covered, Nat.add_eq_left, lineFeedsIn_texts_eq_zero_iff]
  · rw [shownAt_of_isOnOneLine covered free, shownAt_of_isOnOneLine covered free, linesIn_add,
      List.map_map, List.map_map]
    refine List.map_congr_left fun line _ => ?_
    simp only [Function.comp_apply, OutlineLine.indented]
    rw [Nat.mul_add, Nat.add_comm, List.replicate_add, List.append_assoc]

/-- A loop over a token and an action of two lines. -/
def repeatedAction : List Op :=
  [.choice {
    kind := ⟨.ll1, true⟩
    decision := some 1
    ebnf := some .closure
    alts := [⟨1, [.matchToken "X" 1 [], .action "x;\ny;"]⟩]
    tests := [[.testSet [1] ["X"]]]
    preamble := [] }]

theorem lines_of_repeatedAction : (∀ op ∈ nestedIn repeatedAction, op.IsCovered) ∧
    (itemsOf (nestedIn repeatedAction)).length = 5 ∧ (shownAt 0 repeatedAction).length = 6 ∧
    dumpAll (repeatedAction ++ [.epsilon]) =
      "ebnf-ll1 choice d1 *\n  alt 1\n    test X\n    match X\n    action x;\ny;\nepsilon\n" := by
  have covered : ∀ op ∈ nestedIn repeatedAction, op.IsCovered := by decide
  obtain ⟨-, -, lines, -, append⟩ := lines_of_outline covered
  refine ⟨covered, by decide, ?_, ?_⟩
  · rw [(lines 0).2.1]
    decide
  · rw [append]
    decide +kernel

end Op

/-- A choice that is made of a site has no test too many. -/
theorem ChoiceSite.MadeInto.isCovered {g : Grammar} {site : ChoiceSite} {count : Nat} {c : Choice}
    (made : site.MadeInto g count c) : c.tests.length ≤ c.alts.length := by
  have alts : c.alts.length = count := by simpa using congrArg List.length made.numbers
  cases ll1 : c.kind.isLl1 with
  | false => simp [made.noTests ll1]
  | true =>
      obtain ⟨n, sets, -, -, length, tests, -⟩ := made.tests ll1
      rw [tests, List.length_map, length, alts]

/-- The code of a built rule has an outline without a test too many. -/
theorem Setup.isCovered_of_built (g : Grammar) (target : Target) (validate : Bool) {index : Nat}
    {n : Node} {rule : Rule} (made : n.rule? = some rule)
    (hrule : (g.rulesFor .parser)[index]? = some rule) :
    ∃ f outcome, (plain g target validate).Makes index f outcome ∧
      (outcome.isBuilt → ∀ op ∈ Op.nestedIn f.code, op.IsCovered) := by
  obtain ⟨f, outcome, makes, choices⟩ := choices_of_built g target validate made hrule
  refine ⟨f, outcome, makes, fun built op hop c hc => ?_⟩
  have each : List.Forall₂ (fun c p => c.tests.length ≤ c.alts.length ∧ p.site.MadeInto g p.count c)
      (Op.choicesIn f.code) (n.walked.filter Position.isChoice) :=
    ((choices built).imp fun _ _ made => ⟨made.isCovered, made⟩).flip
  exact ((List.forall₂_and_left _ _).mp each).1 c (List.mem_filterMap.mpr ⟨op, hop, hc⟩)

/-- A rule with an action of two lines. -/
def Grammar.actionOfTwoLines : Grammar :=
  (load "(PARSER_GRAMMAR P(RULE a(BLOCK(ALT(ACTION\x7bx;\ny;\x7d)))))").toOption.get
    (by decide +kernel)

namespace Setup

/-- The rule is built with one operation, and the outline of that has two lines. -/
theorem actionOfTwoLines_endsEarly : Grammar.actionOfTwoLines.Loaded ∧ ∃ n rule f outcome,
    n ∈ Grammar.actionOfTwoLines.root.inner.nodes ∧ n.rule? = some rule ∧
      (Grammar.actionOfTwoLines.rulesFor .parser)[0]? = some rule ∧
      (plain .actionOfTwoLines .java true).Makes 0 f outcome ∧ outcome.isBuilt ∧
      (Op.itemsOf (Op.nestedIn f.code)).length = 1 ∧ Op.dumpAll f.code = "action x;\ny;\n" ∧
      Op.shownAt 0 f.code = ["action x;".toList, "y;".toList] := by
  have evaluated : ((Grammar.actionOfTwoLines.rulesFor .parser)[0]?.bind fun rule =>
      ((plain .actionOfTwoLines .java true).ruleCode rule).toOption.map fun code =>
        ((Op.itemsOf (Op.nestedIn code)).length, Op.dumpAll code, Op.shownAt 0 code)) =
          some (1, "action x;\ny;\n", ["action x;".toList, "y;".toList]) := by decide +kernel
  obtain ⟨n, rule, f, outcome, hn, same, hrule, makes, built, seen⟩ :=
    exists_node_makes_of_map evaluated
  simp only [Prod.mk.injEq] at seen
  exact ⟨Grammar.loaded_get _, n, rule, f, outcome, hn, same, hrule, makes, built, seen⟩

end Setup

end RecognizerModel
