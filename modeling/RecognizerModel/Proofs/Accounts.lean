import RecognizerModel.Proofs.ReportingWalk
import RecognizerModel.Proofs.RuleFunctions

/-! The diagnostics of a parser model, rule by rule. The outcomes of the rules and the diagnostics
of the model are kept apart, and they agree: a rule leaves its warnings and, if it failed, behind
them the error that its outcome holds. -/
namespace RecognizerModel

/-- The nodes of the rules of one recognizer, in declared order. -/
def Grammar.ruleNodes (g : Grammar) (kind : RecognizerKind) : List Node :=
  g.root.inner.nodes.filter fun n =>
    n.kind == .rule && g.isLexerRule (.ofNode n) == (kind == .lexer)

theorem Grammar.rulesFor_eq (g : Grammar) (kind : RecognizerKind) :
    g.rulesFor kind = (g.ruleNodes kind).map .ofNode := by
  unfold rulesFor rules rulesOf ruleNodes
  induction g.root.inner.nodes with
  | nil => rfl
  | cons n rest ih =>
      by_cases rule : n.kind = .rule
      · have made : n.rule? = some (.ofNode n) := if_pos rule
        rw [List.filterMap_cons_some made, List.filter_cons, List.filter_cons, ih, rule]
        split <;> simp [*]
      · have none : n.rule? = none := if_neg rule
        rw [List.filterMap_cons_none none, ih, List.filter_cons_of_neg (by simp [rule])]

/-- The warnings about a rule, for its choices without a classified decision, inner ones first. -/
def Node.warnings (g : Grammar) (n : Node) (name : String) : List Diagnostic :=
  (n.walked.filter Position.isChoice).filterMap fun p => p.site.warning? g name

theorem Node.exists_of_mem_warnings {g : Grammar} {n : Node} {name : String} {d : Diagnostic}
    (h : d ∈ n.warnings g name) :
    ∃ p ∈ n.walked, ∃ detail, d = .ofUnclassified name p.node.span detail := by
  obtain ⟨p, hp, hd⟩ := List.mem_filterMap.mp h
  exact ⟨p, (List.mem_filter.mp hp).1, ChoiceSite.exists_of_warning? hd⟩

/-- The warnings about the parts of a rule are those about its positions. -/
theorem Rule.warnings_parts (g : Grammar) {n : Node} (rule : n.kind = .rule) (name : String) :
    Part.warnings g name (((ofNode n).block.map (Block.parts 0 0)).getD []) =
      n.warnings g name := by
  rw [Rule.parts_block rule, Part.warnings, Node.warnings, List.filterMap_filterMap,
    List.filterMap_filter]
  refine List.filterMap_congr fun p _ => ?_
  rw [← Option.bind_assoc, p.choice?_part?]
  split <;> rfl

namespace Grammar

variable {g : Grammar}

theorem kind_of_mem_ruleNodes {kind : RecognizerKind} {n : Node} (h : n ∈ g.ruleNodes kind) :
    n.kind = .rule := by
  have kinds := (List.mem_filter.mp h).2
  rw [Bool.and_eq_true, beq_iff_eq] at kinds
  exact kinds.1

theorem mem_descendants_of_mem_ruleNodes {kind : RecognizerKind} {n : Node}
    (h : n ∈ g.ruleNodes kind) : n ∈ g.root.descendants :=
  g.root.descendants_of_mem_inner (List.mem_filter.mp h).1 n.mem_descendants_self

/-- In a loaded grammar the warnings about a rule lie inside of the rule. -/
theorem Loaded.of_mem_warnings (loaded : g.Loaded) {kind : RecognizerKind} {n : Node}
    (hn : n ∈ g.ruleNodes kind) {name : String} {d : Diagnostic} (hd : d ∈ n.warnings g name) :
    d.kind = .unclassifiedDecision ∧ d.rule = some name ∧ d.span.Within n.span := by
  obtain ⟨p, hp, detail, rfl⟩ := Node.exists_of_mem_warnings hd
  have below := n.mem_descendants_of_mem_walked hp
  exact ⟨rfl, rfl, loaded.within_of_mem_descendants (mem_descendants_of_mem_ruleNodes hn) below⟩

/-- In a loaded grammar a walk reports on its rule inside of the rule. -/
theorem Loaded.reports_walkRule (loaded : g.Loaded) {setup : Setup} (same : setup.grammar = g)
    {kind : RecognizerKind} {n : Node} (hn : n ∈ g.ruleNodes kind) (name : String) :
    (setup.walkRule (.ofNode n)).Reports name (Malformed.FaultIn (·.Within n.span))
      (n.warnings g name) := by
  subst same
  have hrule : Rule.ofNode n ∈ setup.grammar.rulesFor kind := by
    rw [rulesFor_eq]
    exact List.mem_map_of_mem hn
  have inRoot := mem_descendants_of_mem_ruleNodes hn
  rw [← Rule.warnings_parts setup.grammar (kind_of_mem_ruleNodes hn)]
  exact Setup.reports_walkRule (fun _ => loaded.covers hrule) (.refl _) fun _ =>
    loaded.allSpans_within inRoot

end Grammar

/-- Whether diagnostics are all that a rule left. -/
structure RuleOutcome.AccountedBy (g : Grammar) (n : Node) (outcome : RuleOutcome)
    (ds : List Diagnostic) : Prop where
  name : (Rule.ofNode n).name = some outcome.rule
  /-- First come the warnings, as far as the rule was built, and then the error of a failure. -/
  split : ∃ warnings, ds = warnings ++ outcome.diagnostic?.toList ∧
    (∀ d ∈ warnings, d.kind = .unclassifiedDecision) ∧
    warnings <+: n.warnings g outcome.rule ∧
    (outcome.isBuilt → warnings = n.warnings g outcome.rule)
  error : ∀ d, outcome.diagnostic? = some d → d.kind = .malformedConstruct
  within : ∀ d ∈ ds, d.rule = some outcome.rule ∧ d.span.Within n.span

namespace Setup

variable {g : Grammar} {target : Target} {validate : Bool}

/-- A rule that is built by itself is walked under its name, with no diagnostics before it. -/
theorem exists_walk_of_buildAlone {rule : Rule} {name : String} (hname : rule.name = some name)
    {index : Nat} {b : RuleBuild} (h : (plain g target validate).buildAlone rule index = .ok b) :
    ∃ (inside after : JobState) (result : Translated (List Op)),
      inside.context.ruleName = name ∧ inside.diagnostics = [] ∧
      ((plain g target validate).walkRule rule).attempt inside = (.ok result, after) ∧
      b.outcome = rule.outcome result ∧
      b.diagnostics = after.diagnostics ++ b.outcome.diagnostic?.toList := by
  unfold buildAlone at h
  rcases hrun : (plain g target validate).buildRule (plain g target validate).walkRule rule index
    .empty with ⟨_ | ⟨f, outcome⟩, t⟩ <;> rw [hrun] at h <;> cases h
  obtain ⟨entered, context, inside, after, result, postamble, hentered, pushed, hwalk, -, hbuilt,
    inherited, added⟩ := exists_of_buildRule_ok hrun
  obtain ⟨-, rfl⟩ := Prod.mk.inj hbuilt
  have named : entered.name = name := by
    obtain ⟨args, returns, locals, context, start⟩ := RuleFunction.exists_ofRule rule name index
    rw [hname] at hentered
    obtain rfl := fold_of_nil rfl (fold_of_visit hentered)
    exact congrArg RuleFunction.name start
  refine ⟨inside, after, result, ?_, inherited, hwalk, rfl, added⟩
  rw [Context.ruleName, Context.rule?, pushed]
  exact named

/-- What a rule leaves that is built by itself. -/
theorem accountedBy_of_buildAlone (loaded : g.Loaded) {n : Node} (hn : n ∈ g.ruleNodes .parser)
    {index : Nat} {b : RuleBuild}
    (h : (plain g target validate).buildAlone (.ofNode n) index = .ok b) :
    b.outcome.AccountedBy g n b.diagnostics := by
  have hrule : Rule.ofNode n ∈ g.rulesFor .parser := by
    rw [Grammar.rulesFor_eq]
    exact List.mem_map_of_mem hn
  obtain ⟨name, hname⟩ := loaded.exists_name hrule
  obtain ⟨inside, after, result, inRule, inherited, hwalk, houtcome, hds⟩ :=
    exists_walk_of_buildAlone hname h
  obtain ⟨warnings, isFirst, told, all, fault⟩ :=
    (loaded.reports_walkRule rfl hn name).of_attempt inRule hwalk
  rw [inherited, List.nil_append] at told
  rw [told] at hds
  have called : b.outcome.rule = name := by
    rw [houtcome, Rule.rule_outcome, hname, Option.getD_some]
  have warned : ∀ d ∈ warnings, d.kind = .unclassifiedDecision ∧ d.rule = some name ∧
      d.span.Within n.span := fun _ hd => loaded.of_mem_warnings hn (isFirst.subset hd)
  have failed : ∀ d ∈ b.outcome.diagnostic?, d.kind = .malformedConstruct ∧ d.rule = some name ∧
      d.span.Within n.span := fun d hd => by
    rw [houtcome] at hd
    cases result with
    | ok code => cases hd
    | error construct =>
        cases hd
        rw [hname]
        exact ⟨rfl, rfl, (fault construct rfl).span⟩
  constructor
  case name => rw [called, hname]
  case split =>
    rw [called]
    refine ⟨warnings, hds, fun d hd => (warned d hd).1, isFirst, fun built => ?_⟩
    cases result with
    | ok code => exact all code rfl
    | error construct =>
        rw [houtcome] at built
        cases built
  case error => exact fun d hd => (failed d hd).1
  case within =>
    rw [hds, called]
    refine List.forall_mem_append.mpr ⟨fun d hd => (warned d hd).2, fun d hd => ?_⟩
    exact (failed d (Option.mem_toList.mp hd)).2

end Setup

/-- Of what a rule leaves, the error of a failure is the only one. -/
theorem RuleOutcome.AccountedBy.countP_isError {g : Grammar} {n : Node} {outcome : RuleOutcome}
    {ds : List Diagnostic} (h : outcome.AccountedBy g n ds) :
    ds.countP Diagnostic.isError = if outcome.isBuilt then 0 else 1 := by
  obtain ⟨warnings, rfl, warned, -⟩ := h.split
  have none : warnings.countP Diagnostic.isError = 0 := List.countP_eq_zero.mpr fun d hd => by
    simp [Diagnostic.isError, Diagnostic.severity, warned d hd, DiagnosticKind.severity]
  rw [List.countP_append, none, Nat.zero_add]
  cases outcome with
  | built => rfl
  | failed rule d =>
      have error := h.error d rfl
      simp [diagnostic?, isBuilt, Diagnostic.isError, Diagnostic.severity, error,
        DiagnosticKind.severity]

/-- A model whose rules are accounted for has as many errors as failed rules. -/
theorem countP_isError_of_accounts {g : Grammar} {nodes : List Node}
    {accounts : List (RuleOutcome × List Diagnostic)}
    (h : List.Forall₂ (fun n a => a.1.AccountedBy g n a.2) nodes accounts) :
    (accounts.flatMap Prod.snd).countP Diagnostic.isError =
      (accounts.map Prod.fst).countP fun outcome => !outcome.isBuilt := by
  induction h with
  | nil => rfl
  | @cons n a _ accounts account _ ih =>
      rw [List.flatMap_cons, List.countP_append, List.map_cons, List.countP_cons, ih,
        account.countP_isError]
      cases a.1.isBuilt <;> simp [Nat.add_comm]

namespace ParserModel

theorem length_failedRules (model : ParserModel) :
    model.failedRules.length = model.outcomes.countP fun outcome => !outcome.isBuilt := by
  rw [failedRules, List.length_map, List.countP_eq_length_filter]

theorem isClean_iff {model : ParserModel}
    (errors : model.diagnostics.countP Diagnostic.isError = model.failedRules.length) :
    model.isClean ↔ model.failedRules = [] := by
  have built : model.failedRules = [] ↔ model.outcomes.all RuleOutcome.isBuilt = true := by
    simp [failedRules, List.filter_eq_nil_iff]
  unfold isClean
  rw [Bool.and_eq_true, built]
  refine and_iff_left_of_imp fun all => ?_
  rw [built.mpr all, List.length_nil, List.countP_eq_zero] at errors
  simpa using errors

end ParserModel

namespace Setup

/-- Without extensions the diagnostics of a model are those that its rules left, in declared
order. -/
theorem accounts_of_loaded {g : Grammar} (loaded : g.Loaded) (target : Target) (validate : Bool)
    (nonempty : g.rulesFor .parser ≠ []) :
    ∃ (model : ParserModel) (s : JobState) (accounts : List (RuleOutcome × List Diagnostic)),
      (plain g target validate).parserModel .empty = (.ok model, s) ∧
        model.outcomes = accounts.map Prod.fst ∧
        model.diagnostics = accounts.flatMap Prod.snd ∧
        List.Forall₂ (fun n a => a.1.AccountedBy g n a.2) (g.ruleNodes .parser) accounts ∧
        model.diagnostics.countP Diagnostic.isError = model.failedRules.length ∧
        (model.isClean ↔ model.failedRules = []) := by
  obtain ⟨builds, model, table, s, run, ran⟩ := exists_ranPlain g target validate nonempty
  have accounted : List.Forall₂ (fun n (a : RuleOutcome × List Diagnostic) =>
      a.1.AccountedBy g n a.2) (g.ruleNodes .parser)
        (builds.map fun b => (b.outcome, b.diagnostics)) := by
    have alone := ran.forall₂_build
    rw [g.rulesFor_eq, List.forall₂_map_left_iff] at alone
    rw [List.forall₂_map_right_iff]
    have inGrammar := (List.forall₂_and_left (p := (· ∈ g.ruleNodes .parser)) _ _).mpr
      ⟨fun n hn => hn, alone⟩
    exact inGrammar.imp fun n b ⟨hn, _, halone⟩ => accountedBy_of_buildAlone loaded hn halone
  have outcomes : model.outcomes =
      (builds.map fun b => (b.outcome, b.diagnostics)).map Prod.fst := by
    rw [ran.outcomes, List.map_map]
    rfl
  have diagnostics : model.diagnostics =
      (builds.map fun b => (b.outcome, b.diagnostics)).flatMap Prod.snd := by
    rw [ran.diagnostics, List.flatMap_map]
  have errors : model.diagnostics.countP Diagnostic.isError = model.failedRules.length := by
    rw [diagnostics, countP_isError_of_accounts accounted, model.length_failedRules, outcomes]
  exact ⟨model, s, _, run, outcomes, diagnostics, accounted, errors,
    ParserModel.isClean_iff errors⟩

end Setup

/-- A rule with a choice in a choice, and one that breaks off behind a choice. None of the choices
has a decision number. -/
def Grammar.warnedThenBroken : Grammar :=
  (load ("(PARSER_GRAMMAR P" ++
    "(RULE a(BLOCK(ALT(CLOSURE(BLOCK(ALT(TOKEN_REF X)))))(ALT(TOKEN_REF Y))))" ++
    "(RULE b(BLOCK(ALT(BLOCK(ALT(TOKEN_REF X))(ALT(TOKEN_REF Y))))(ALT))))")).toOption.get
    (by decide +kernel)

namespace Setup

theorem accounts_of_warnedThenBroken : Grammar.warnedThenBroken.Loaded ∧
    Grammar.warnedThenBroken.rulesFor .parser ≠ [] ∧
    ∃ (model : ParserModel) (s : JobState) (accounts : List (RuleOutcome × List Diagnostic)),
      (plain .warnedThenBroken .java true).parserModel .empty = (.ok model, s) ∧
        model.diagnostics.map Diagnostic.kind =
          [.unclassifiedDecision, .unclassifiedDecision, .unclassifiedDecision,
            .malformedConstruct] ∧
        model.outcomes = accounts.map Prod.fst ∧
        model.diagnostics = accounts.flatMap Prod.snd ∧
        List.Forall₂ (fun n a => a.1.AccountedBy .warnedThenBroken n a.2)
          (Grammar.warnedThenBroken.ruleNodes .parser) accounts ∧
        model.diagnostics.countP Diagnostic.isError = model.failedRules.length ∧
        (model.isClean ↔ model.failedRules = []) := by
  have loaded : Grammar.warnedThenBroken.Loaded := Grammar.loaded_get _
  obtain ⟨positive, evaluated⟩ : 0 < (Grammar.warnedThenBroken.rulesFor .parser).length ∧
      ((plain .warnedThenBroken .java true).parserModel .empty).1.toOption.map
        (fun model => model.diagnostics.map Diagnostic.kind) =
          some [.unclassifiedDecision, .unclassifiedDecision, .unclassifiedDecision,
            .malformedConstruct] := by decide +kernel
  have nonempty := List.ne_nil_of_length_pos positive
  obtain ⟨model, s, accounts, run, accounted⟩ :=
    accounts_of_loaded loaded .java true nonempty
  rw [run] at evaluated
  exact ⟨loaded, nonempty, model, s, accounts, run, Option.some.inj evaluated,
    accounted⟩

end Setup

end RecognizerModel
