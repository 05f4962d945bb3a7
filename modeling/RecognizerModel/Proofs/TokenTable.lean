import RecognizerModel.Proofs.Accounts
import RecognizerModel.Proofs.TokenTypes

/-! The tables of the recognizers of a grammar. Parser and lexer name the token types alike and
share the rules between them, and no job ever asks for a token that has no type. -/
namespace RecognizerModel

namespace Grammar

variable {g : Grammar}

/-- Whether no parser job over a grammar fails for a token that is not in the vocabulary, whatever
extensions it has and wherever it starts: no walk of a rule, no job as a whole, and no rule of a job
that comes to its end. -/
structure NeverUnknown (g : Grammar) : Prop where
  walk {setup : Setup} (same : setup.grammar = g) {rule : Rule} (hrule : rule ∈ g.rulesFor .parser)
    {s t : JobState} {c : Malformed} :
    setup.walkRule rule s = (.error (.malformed c), t) → ¬c.IsUnknownToken
  job {setup : Setup} (same : setup.grammar = g) {s t : JobState} {failure : Failure} :
    setup.parserModel s = (.error failure, t) → ∃ error, failure = .fatal error
  rule {setup : Setup} (same : setup.grammar = g) {s t : JobState} {model : ParserModel} :
    setup.parserModel s = (.ok model, t) → ∀ outcome ∈ model.outcomes,
      ∀ d, outcome.diagnostic? = some d →
        ∃ c, d = .ofMalformed outcome.rule c ∧ ¬c.IsUnknownToken

theorem Loaded.known_of_walkRule (loaded : g.Loaded) {setup : Setup} (same : setup.grammar = g)
    {rule : Rule} (hrule : rule ∈ g.rulesFor .parser) {s t : JobState} {c : Malformed}
    (h : setup.walkRule rule s = (.error (.malformed c), t)) : ¬c.IsUnknownToken := by
  rw [rulesFor_eq] at hrule
  obtain ⟨n, hn, rfl⟩ := List.mem_map.mp hrule
  have run := loaded.reports_walkRule same hn s.context.ruleName s rfl
  rw [h] at run
  exact (run.2 c rfl).known

theorem Loaded.known_of_parserModel (loaded : g.Loaded) {setup : Setup} (same : setup.grammar = g)
    {s t : JobState} {model : ParserModel} (h : setup.parserModel s = (.ok model, t))
    {outcome : RuleOutcome} (houtcome : outcome ∈ model.outcomes) {d : Diagnostic}
    (hd : outcome.diagnostic? = some d) :
    ∃ c, d = .ofMalformed outcome.rule c ∧ ¬c.IsUnknownToken := by
  obtain ⟨file, table, built, -, ⟨before, after, hbuilt⟩, -, houtcomes⟩ :=
    Setup.exists_of_parserModel_ok h
  rw [houtcomes] at houtcome
  obtain ⟨b, hb, rfl⟩ := List.mem_map.mp houtcome
  obtain ⟨i, hi⟩ := List.mem_iff_getElem?.mp hb
  obtain ⟨length, each⟩ := Setup.exists_of_buildRules_ok hbuilt
  have bound : i < (setup.grammar.rulesFor .parser).length :=
    length ▸ (List.getElem?_eq_some_iff.mp hi).1
  have hrule := List.getElem?_eq_getElem bound
  obtain ⟨b', hb', s₁, s₂, run⟩ := each i _ hrule
  obtain rfl : b = b' := Option.some.inj (hi.symm.trans hb')
  obtain ⟨_, _, inside, _, result, _, -, -, hwalk, -, rfl, -⟩ := Setup.exists_of_buildRule_ok run
  cases result with
  | ok code => cases hd
  | error construct =>
      cases hd
      have failed := Job.eq_error_of_attempt hwalk
      refine ⟨construct, rfl, loaded.known_of_walkRule same ?_ failed⟩
      exact same ▸ List.getElem_mem bound

theorem Loaded.neverUnknown (loaded : g.Loaded) : g.NeverUnknown where
  walk same _ hrule _ _ _ h := loaded.known_of_walkRule same hrule h
  job _ _ _ _ h := Setup.fatal_of_parserModel _ h
  rule same _ _ _ h _ houtcome _ hd := loaded.known_of_parserModel same h houtcome hd

/-- Parser and lexer of a combined grammar share its rules between them, in declared order. -/
theorem partition_ruleNames (combined : g.kind = .combined) :
    (g.rules.filterMap Rule.name).partition isLexerRuleName =
      (g.ruleNames .lexer, g.ruleNames .parser) := by
  have share (kind : RecognizerKind) : g.ruleNames kind =
      (g.rules.filterMap Rule.name).filter fun name =>
        isLexerRuleName name == (kind == .lexer) := by
    rw [ruleNames, rulesFor, List.filterMap_filter, List.filter_filterMap]
    refine List.filterMap_congr fun rule _ => ?_
    rw [isLexerRule, combined]
    cases rule.name <;> simp [Option.filter]
  rw [List.partition_eq_filter_filter, share, share, Prod.mk.injEq]
  exact ⟨List.filter_congr fun name _ => (beq_true _).symm,
    List.filter_congr fun name _ => (beq_false _).symm⟩

theorem Loaded.map_name (loaded : g.Loaded) :
    g.rules.map Rule.name = (g.rules.filterMap Rule.name).map some := by
  obtain ⟨text, first, hload, hg⟩ := loaded
  have root : g.root = first.root := by rw [hg]
  have named := (readFrom_of_load hload).named
  rw [← root] at named
  rw [List.map_filterMap, eq_comm, List.filterMap_eq_map_iff_forall_eq_some]
  intro rule hrule
  obtain ⟨name, hname⟩ := Option.isSome_iff_exists.mp (named rule hrule)
  rw [hname, Option.map_some]

end Grammar

namespace Setup

variable (g : Grammar) (target : Target) (validate : Bool)

variable {g target validate} in
/-- A rule that was not built has no code, so all types in it are known. -/
theorem allTyped_of_buildAlone {rule : Rule} {index : Nat} {b : RuleBuild}
    (h : (plain g target validate).buildAlone rule index = .ok b) :
    Op.AllTyped g.vocabulary.tokenNames b.function.code := by
  obtain ⟨b', halone, _, hcode⟩ := plain_buildAlone g target validate rule index
  obtain rfl : b = b' := Except.ok.inj (h.symm.trans halone)
  rw [hcode]
  cases translated : (plain g target validate).ruleCode rule with
  | ok code => exact allTyped_of_ruleCode translated
  | error construct => nofun

/-- Without extensions a lexer job makes the tables of the grammar. -/
theorem plain_lexerModel (supported : g.kind.supports .lexer = true) (nonempty : g.rules ≠ []) :
    ∃ (file : RecognizerFile) (table : LexerTable) (s : JobState),
      (plain g target validate).lexerModel .empty = (.ok file, s) ∧
        file.lexer? = some table ∧ table.tokenNames = g.vocabulary.tokenNames ∧
        table.ruleNames = g.ruleNames .lexer := by
  have check : (plain g target validate).checkJob .lexer .empty = (.ok (), .empty) := by
    have some : g.rules.isEmpty = false := List.isEmpty_eq_false_iff.mpr nonempty
    simp only [checkJob, plain, supported, some]
    rfl
  obtain ⟨file, hfile⟩ : ∃ file, (plain g target validate).lexerFile
      ((plain g target validate).fileName .lexer) .empty = (.ok file, .empty) :=
    ⟨_, plain_visit g target validate .lexerFile _ _⟩
  have hroot : Job.modifyContext (.setRoot file) .empty =
      (.ok (), ⟨Context.empty.setRoot file, [], []⟩) := rfl
  have htable : (plain g target validate).lexerTable file ⟨Context.empty.setRoot file, [], []⟩ =
      (.ok ⟨file.recognizer.name, g.vocabulary.tokenNames, g.ruleNames .lexer, [defaultMode]⟩,
        ⟨Context.empty.setRoot file, [], []⟩) := plain_visit g target validate .lexer _ _
  unfold lexerModel
  rw [Job.bind_of_ok check, Job.bind_of_ok hfile, Job.bind_of_ok hroot, Job.bind_of_ok htable]
  exact ⟨_, _, _, rfl, rfl, rfl, rfl⟩

/-- Without extensions the token types in the code of a loaded grammar are those of the table, in
which every name has one place. A combined grammar has the same table of token names in its lexer,
and the two split the rules. No job over the grammar asks for a token without a type. -/
theorem tokenTable_of_loaded {g : Grammar} (loaded : g.Loaded) (target : Target) (validate : Bool)
    (nonempty : g.rulesFor .parser ≠ []) :
    (∃ (model : ParserModel) (table : ParserTable) (s : JobState),
      (plain g target validate).parserModel .empty = (.ok model, s) ∧
        model.file.parser? = some table ∧
        (∀ f ∈ table.funcs, Op.AllTyped table.tokenNames f.code) ∧
        table.tokenNames.Nodup ∧
        (g.kind = .combined → ∃ (file : RecognizerFile) (lexer : LexerTable) (s : JobState),
          (plain g target validate).lexerModel .empty = (.ok file, s) ∧
            file.lexer? = some lexer ∧ lexer.tokenNames = table.tokenNames ∧
            g.rules.map Rule.name = (g.rules.filterMap Rule.name).map some ∧
            (g.rules.filterMap Rule.name).partition isLexerRuleName =
              (lexer.ruleNames, table.ruleNames))) ∧
      g.NeverUnknown := by
  obtain ⟨builds, model, table, s, run, ran⟩ := exists_ranPlain g target validate nonempty
  refine ⟨⟨model, table, s, run, ran.file, fun f hf => ?_, ?_, fun combined => ?_⟩,
    loaded.neverUnknown⟩
  · rw [ran.funcs] at hf
    obtain ⟨b, hb, rfl⟩ := List.mem_map.mp hf
    obtain ⟨rule, _, index, halone⟩ := ran.exists_rule hb
    rw [ran.tokenNames]
    exact allTyped_of_buildAlone halone
  · rw [ran.tokenNames]
    exact loaded.nodup_tokenNames
  · have rules : g.rules ≠ [] := fun none => nonempty (by rw [Grammar.rulesFor, none]; rfl)
    obtain ⟨file, lexer, s', runLexer, hlexer, tokenNames, ruleNames⟩ :=
      plain_lexerModel g target validate (by rw [combined]; rfl) rules
    refine ⟨file, lexer, s', runLexer, hlexer, tokenNames.trans ran.tokenNames.symm,
      loaded.map_name, ?_⟩
    rw [ruleNames, ran.ruleNames]
    exact Grammar.partition_ruleNames combined

end Setup

/-- A grammar with a rule for each recognizer. The parser refers to the token of the lexer rule, to
a literal and to the end of input, and rewrites the token. -/
def Grammar.ruleAndToken : Grammar :=
  (load ("(COMBINED_GRAMMAR C(RULE a(BLOCK(ALT(TOKEN_REF ID)(STRING_LITERAL '+')" ++
    "(TOKEN_REF EOF)(REWRITE(TOKEN_REF ID)))))" ++
    "(RULE ID(BLOCK(ALT(STRING_LITERAL 'x')))))")).toOption.get (by decide +kernel)

namespace Setup

theorem tokenTable_of_ruleAndToken : Grammar.ruleAndToken.Loaded ∧
    Grammar.ruleAndToken.rulesFor .parser ≠ [] ∧
    (∃ (model : ParserModel) (table : ParserTable) (s : JobState),
      (plain .ruleAndToken .java true).parserModel .empty = (.ok model, s) ∧
        model.file.parser? = some table ∧
        (∀ f ∈ table.funcs, Op.AllTyped table.tokenNames f.code) ∧
        table.tokenNames.Nodup ∧
        ∃ (file : RecognizerFile) (lexer : LexerTable) (s : JobState),
          (plain .ruleAndToken .java true).lexerModel .empty = (.ok file, s) ∧
            file.lexer? = some lexer ∧ lexer.tokenNames = table.tokenNames ∧
            (lexer.ruleNames, table.ruleNames) = (["ID"], ["a"])) ∧
      Grammar.ruleAndToken.NeverUnknown := by
  have loaded : Grammar.ruleAndToken.Loaded := Grammar.loaded_get _
  obtain ⟨positive, combined, declared⟩ : 0 < (Grammar.ruleAndToken.rulesFor .parser).length ∧
      Grammar.ruleAndToken.kind = .combined ∧
      (Grammar.ruleAndToken.rules.filterMap Rule.name).partition isLexerRuleName =
        (["ID"], ["a"]) := by decide +kernel
  have nonempty := List.ne_nil_of_length_pos positive
  obtain ⟨⟨model, table, s, run, htable, typed, nodup, share⟩, never⟩ :=
    tokenTable_of_loaded loaded .java true nonempty
  obtain ⟨file, lexer, s', runLexer, hlexer, tokenNames, _, ruleNames⟩ := share combined
  exact ⟨loaded, nonempty, ⟨model, table, s, run, htable, typed, nodup, file, lexer, s', runLexer,
    hlexer, tokenNames, ruleNames.symm.trans declared⟩, never⟩

end Setup

end RecognizerModel
