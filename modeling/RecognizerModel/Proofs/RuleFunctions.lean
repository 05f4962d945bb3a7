import Mathlib.Data.List.Basic
import RecognizerModel.Proofs.FatalErrors
import RecognizerModel.Proofs.LoadedGrammar
import RecognizerModel.Proofs.RuleRun

/-! The functions of a parser file. A job that comes to its end has one function and one outcome for
each rule in declared order, whichever rules broke off and whatever the extensions did to the
functions while these were under construction. -/
namespace RecognizerModel

/-- A function with the operations that the walk over its rule gave, if it gave any. -/
def RuleFunction.withCode (f : RuleFunction) : Translated (List Op) → RuleFunction
  | .ok code => { f with code }
  | .error _ => f

/-- The diagnostic of a failure. -/
def RuleOutcome.diagnostic? : RuleOutcome → Option Diagnostic
  | built _ => none
  | failed _ d => some d

namespace Setup

variable {setup : Setup} {rule : Rule} {s t : JobState}

/-- Only a failure leaves a diagnostic, the one that it is filed with. -/
theorem eq_of_settle_ok {result : Except Malformed (List Op)} {outcome : RuleOutcome}
    {f : RuleFunction} {rest : List RuleFunction} (hrules : s.context.rules = f :: rest)
    (h : settle (rule.name.getD "") result s = (.ok outcome, t)) :
    outcome = rule.outcome result ∧ t.context.rules = f.withCode result :: rest ∧
      t.diagnostics = s.diagnostics ++ outcome.diagnostic?.toList := by
  obtain ⟨⟨root, rules, alt, blocks, treeLevel⟩, ds, vs⟩ := s
  obtain rfl : rules = f :: rest := hrules
  cases result <;> cases h <;> simp [Rule.outcome, RuleFunction.withCode, RuleOutcome.diagnostic?]

theorem exists_of_closeRule_ok {outcome : RuleOutcome} {f : RuleFunction}
    {rest : List RuleFunction} {built : RuleFunction × RuleOutcome}
    (hrules : s.context.rules = f :: rest)
    (h : setup.closeRule rule outcome s = (.ok built, t)) :
    (∃ postamble,
      built = (f.finish (setup.target.contextType (rule.name.getD "")) postamble, outcome)) ∧
      t.diagnostics = s.diagnostics := by
  obtain ⟨_, s₁, hreset, h⟩ := Job.exists_of_bind_ok h
  cases hreset
  obtain ⟨postamble, s₂, hpostamble, h⟩ := Job.exists_of_bind_ok h
  obtain ⟨visits, rfl⟩ := eq_of_visit_ok hpostamble
  obtain ⟨f', s₃, hpop, h⟩ := Job.exists_of_bind_ok h
  simp only [Job.popRule, Context.popRule?, Context.resetRuleState, hrules] at hpop
  cases hpop
  cases h
  exact ⟨⟨postamble, rfl⟩, rfl⟩

/-- A function is on the stack while its rule is walked, and but for its context it comes off as it
went on. -/
theorem exists_of_buildRule_ok {index : Nat} {built : RuleFunction × RuleOutcome}
    (h : setup.buildRule setup.walkRule rule index s = (.ok built, t)) :
    ∃ (entered : RuleFunction) (context : Option ContextDecl) (inside after : JobState)
      (result : Translated (List Op)) (postamble : List Op),
      (setup.rule rule (rule.name.getD "") index).Answers entered ∧
      inside.context.rules = entered :: s.context.rules ∧
      (setup.walkRule rule).attempt inside = (.ok result, after) ∧
      after.context.rules = { entered with context } :: s.context.rules ∧
      built = (({ entered with context } : RuleFunction).withCode result |>.finish
        (setup.target.contextType (rule.name.getD "")) postamble, rule.outcome result) ∧
      inside.diagnostics = s.diagnostics ∧
      t.diagnostics = after.diagnostics ++ (rule.outcome result).diagnostic?.toList := by
  rw [buildRule_eq] at h
  obtain ⟨entered, s₁, hentered, h⟩ := Job.exists_of_bind_ok h
  obtain ⟨visits, rfl⟩ := eq_of_visit_ok hentered
  obtain ⟨_, inside, hpush, h⟩ := Job.exists_of_bind_ok h
  obtain ⟨result, after, hwalk, h⟩ := Job.exists_of_bind_ok h
  obtain ⟨outcome, s₄, hsettle, hclose⟩ := Job.exists_of_bind_ok h
  obtain ⟨pushed, inherited⟩ : inside.context.rules = entered :: s.context.rules ∧
      inside.diagnostics = s.diagnostics := by
    cases hpush
    exact ⟨rfl, rfl⟩
  -- however the walk ends, it has put nothing on the stack and changed only the context on top
  obtain ⟨context, walked⟩ : ∃ context,
      after.context.rules = { entered with context } :: s.context.rules := by
    have same := (setup.walkRule_local rule).sameButContext inside
    rwa [pushed, ← Job.state_of_attempt_ok hwalk] at same
  obtain ⟨rfl, settled, added⟩ := eq_of_settle_ok walked hsettle
  obtain ⟨⟨postamble, rfl⟩, kept⟩ := exists_of_closeRule_ok settled hclose
  exact ⟨entered, context, inside, after, result, postamble, ⟨_, _, hentered⟩, pushed, hwalk,
    walked, rfl, inherited, kept.trans added⟩

/-- Each rule is built under its index, in some state. -/
theorem exists_of_buildRules_ok {index : Nat} {rules : List Rule}
    {built : List (RuleFunction × RuleOutcome)}
    (h : setup.buildRules setup.walkRule index rules s = (.ok built, t)) :
    built.length = rules.length ∧ ∀ i rule, rules[i]? = some rule →
      ∃ b, built[i]? = some b ∧
        (setup.buildRule setup.walkRule rule (index + i)).Answers b := by
  induction rules generalizing index built s with
  | nil =>
      cases h
      exact ⟨rfl, nofun⟩
  | cons first rest ih =>
      rw [buildRules] at h
      obtain ⟨b, s₁, hfirst, h⟩ := Job.exists_of_bind_ok h
      obtain ⟨others, s₂, hothers, h⟩ := Job.exists_of_bind_ok h
      cases h
      obtain ⟨length, each⟩ := ih hothers
      refine ⟨congrArg Nat.succ length, fun i rule hrule => ?_⟩
      cases i with
      | zero =>
          cases hrule
          exact ⟨b, rfl, ⟨_, _, hfirst⟩⟩
      | succ i =>
          obtain ⟨b, hb, answers⟩ := each i rule hrule
          rw [Nat.add_assoc, Nat.add_comm 1 i] at answers
          exact ⟨b, hb, answers⟩

/-- A parser table gets the functions after those that it came with. -/
theorem exists_of_parserModel_ok {model : ParserModel}
    (h : setup.parserModel s = (.ok model, t)) :
    ∃ (file : RecognizerFile) (table : ParserTable) (built : List (RuleFunction × RuleOutcome)),
      (setup.parserTable file).Answers table ∧
      (setup.buildRules setup.walkRule 0 (setup.grammar.rulesFor .parser)).Answers built ∧
      model.file.recognizer =
        .parser { table with funcs := table.funcs ++ built.map Prod.fst } ∧
      model.outcomes = built.map Prod.snd := by
  obtain ⟨_, s₁, hcheck, h⟩ := Job.exists_of_bind_ok h
  obtain ⟨file, s₂, hfile, h⟩ := Job.exists_of_bind_ok h
  obtain ⟨_, s₃, hroot, h⟩ := Job.exists_of_bind_ok h
  obtain ⟨table, s₄, htable, h⟩ := Job.exists_of_bind_ok h
  obtain ⟨built, s₅, hbuilt, h⟩ := Job.exists_of_bind_ok h
  cases h
  exact ⟨file, table, built, ⟨_, _, htable⟩, ⟨_, _, hbuilt⟩, rfl, rfl⟩

/-- Whether a function and an outcome stand for a rule: they have its name, and the context, if it
was kept, has fields and the name of the rule's context type. -/
structure StandFor (setup : Setup) (rule : Rule) (f : RuleFunction) (outcome : RuleOutcome) :
    Prop where
  name : rule.name = some f.name
  outcome : outcome.rule = f.name
  ctxType : f.ctxType = setup.target.contextType f.name
  context : ∀ ctx, f.context = some ctx → ctx.fields ≠ [] ∧ ctx.name = f.ctxType

end Setup

theorem Rule.rule_outcome (rule : Rule) (result : Translated (List Op)) :
    (rule.outcome result).rule = rule.name.getD "" := by
  cases result <;> rfl

namespace RuleFunction

@[simp] theorem name_withCode (f : RuleFunction) (result : Translated (List Op)) :
    (f.withCode result).name = f.name := by
  cases result <;> rfl

@[simp] theorem index_withCode (f : RuleFunction) (result : Translated (List Op)) :
    (f.withCode result).index = f.index := by
  cases result <;> rfl

@[simp] theorem name_finish (f : RuleFunction) (ctxType : String) (postamble : List Op) :
    (f.finish ctxType postamble).name = f.name := rfl

@[simp] theorem index_finish (f : RuleFunction) (ctxType : String) (postamble : List Op) :
    (f.finish ctxType postamble).index = f.index := rfl

@[simp] theorem ctxType_finish (f : RuleFunction) (ctxType : String) (postamble : List Op) :
    (f.finish ctxType postamble).ctxType = ctxType := rfl

/-- What is left of a context is not empty and has its final name. -/
theorem context_of_finish {f : RuleFunction} {ctxType : String} {postamble : List Op}
    {ctx : ContextDecl} (h : (f.finish ctxType postamble).context = some ctx) :
    ctx.fields ≠ [] ∧ ctx.name = ctxType := by
  obtain ⟨hctx, nonempty⟩ := Option.filter_eq_some_iff.mp h
  obtain ⟨ctx', _, rfl⟩ := Option.map_eq_some_iff.mp hctx
  exact ⟨by simpa using nonempty, rfl⟩

end RuleFunction

namespace Setup

variable {setup : Setup} {rule : Rule}

/-- Under validation a function keeps its name on its way along the extensions. -/
theorem standFor_of_buildRule {index : Nat} {f : RuleFunction} {outcome : RuleOutcome}
    {name : String} (validate : setup.chain.validate = true) (hname : rule.name = some name)
    (h : (setup.buildRule setup.walkRule rule index).Answers (f, outcome)) :
    setup.StandFor rule f outcome := by
  obtain ⟨s, t, h⟩ := h
  obtain ⟨entered, context, inside, after, result, postamble, hentered, -, -, -, hbuilt, -⟩ :=
    exists_of_buildRule_ok h
  obtain ⟨rfl, rfl⟩ := Prod.mk.inj hbuilt
  rw [hname, Option.getD_some] at hentered ⊢
  have named : entered.name = name := by
    obtain ⟨args, returns, locals, context, start⟩ := RuleFunction.exists_ofRule rule name index
    have same := role_of_fold validate (fold_of_visit hentered)
    rw [start] at same
    exact Role.ruleFunction.inj same
  constructor
  · simp [named, hname]
  · simp [named, Rule.rule_outcome, hname]
  · simp [named]
  · intro ctx hctx
    exact RuleFunction.context_of_finish hctx

theorem funcs_of_parserTable {file : RecognizerFile} {table : ParserTable}
    (keeps : ∀ e ∈ setup.chain.extensions, ∀ table : ParserTable,
      table.funcs = [] → (e.hook .parser table).funcs = [])
    (h : (setup.parserTable file).Answers table) : table.funcs = [] :=
  Chain.of_pass_ok (P := fun table : ParserTable => table.funcs = [])
    (fun e he table noFuncs _ => keeps e he table noFuncs) rfl (fold_of_visit h)

theorem fold_of_nil {p : Point} {node after : p.Node} (empty : setup.chain.extensions = [])
    (h : (setup.chain.fold p p.anchor? node).outcome = .ok after) : after = node := by
  unfold Chain.fold at h
  rw [empty] at h
  cases h
  rfl

theorem index_of_buildRule {index : Nat} {f : RuleFunction} {outcome : RuleOutcome}
    (empty : setup.chain.extensions = [])
    (h : (setup.buildRule setup.walkRule rule index).Answers (f, outcome)) : f.index = index := by
  obtain ⟨s, t, h⟩ := h
  obtain ⟨entered, context, inside, after, result, postamble, hentered, -, -, -, hbuilt, -⟩ :=
    exists_of_buildRule_ok h
  obtain ⟨rfl, rfl⟩ := Prod.mk.inj hbuilt
  obtain ⟨args, returns, locals, _, start⟩ :=
    RuleFunction.exists_ofRule rule (rule.name.getD "") index
  obtain rfl := fold_of_nil empty (fold_of_visit hentered)
  rw [start]
  simp [RuleFunction.empty]

/-- Where no extension breaks its contract the job comes to its end, and a function in the file is
one that was built for its rule. -/
theorem exists_makes {index : Nat} (hrule : (setup.grammar.rulesFor .parser)[index]? = some rule)
    (unbroken : ∀ error, ¬setup.Breach error)
    (keeps : ∀ e ∈ setup.chain.extensions, ∀ table : ParserTable,
      table.funcs = [] → (e.hook .parser table).funcs = []) :
    ∃ f outcome, setup.Makes index f outcome ∧
      (setup.buildRule setup.walkRule rule index).Answers (f, outcome) := by
  have raises := setup.raises_parserModel (checkJob_of_mem (List.mem_of_getElem? hrule) .empty)
  rcases hrun : setup.parserModel .empty with ⟨failure | model, s⟩
  · obtain ⟨error, _, breach⟩ := raises failure s hrun
    exact absurd breach (unbroken error)
  · obtain ⟨file, table, built, htable, ⟨before, after, hbuilt⟩, hfile, houtcomes⟩ :=
      exists_of_parserModel_ok hrun
    obtain ⟨⟨f, outcome⟩, hb, answers⟩ := (exists_of_buildRules_ok hbuilt).2 index rule hrule
    rw [funcs_of_parserTable keeps htable, List.nil_append] at hfile
    rw [Nat.zero_add] at answers
    refine ⟨f, outcome, ⟨model, { table with funcs := built.map Prod.fst }, s, hrun, ?_, ?_, ?_⟩,
      answers⟩
    · rw [RecognizerFile.parser?, hfile]
    · rw [List.getElem?_map, hb, Option.map_some]
    · rw [houtcomes, List.getElem?_map, hb, Option.map_some]

end Setup

theorem Grammar.Loaded.ruleNames_eq {g : Grammar} (loaded : g.Loaded) (kind : RecognizerKind) :
    g.ruleNames kind = (g.rulesFor kind).map fun rule => rule.name.getD "" := by
  refine List.filterMap_eq_map_iff_forall_eq_some.mpr fun rule hrule => ?_
  obtain ⟨name, hname⟩ := loaded.exists_name hrule
  rw [hname, Option.getD_some]

namespace Setup

/-- Whether a table and outcomes have, in declared order, one function and one outcome for each rule
of the parser. Without extensions a function's index is its place, under which the table has its
name. -/
structure OnePerRule (setup : Setup) (table : ParserTable) (outcomes : List RuleOutcome) :
    Prop where
  length_funcs : table.funcs.length = (setup.grammar.rulesFor .parser).length
  length_outcomes : outcomes.length = (setup.grammar.rulesFor .parser).length
  stand : ∀ (i : Nat) (rule : Rule), (setup.grammar.rulesFor .parser)[i]? = some rule →
    ∃ f outcome, table.funcs[i]? = some f ∧ outcomes[i]? = some outcome ∧
      setup.StandFor rule f outcome
  indexed : setup.chain.extensions = [] → ∀ (i : Nat) (f : RuleFunction),
    table.funcs[i]? = some f → f.index = i ∧ table.ruleNames[i]? = some f.name

/-- Under validation, and with extensions that leave the functions to the job, the file of a parser
job has one function for each rule. -/
theorem onePerRule_of_parserModel {setup : Setup} {model : ParserModel} {s : JobState}
    (loaded : setup.grammar.Loaded) (validate : setup.chain.validate = true)
    (keeps : ∀ e ∈ setup.chain.extensions, ∀ table : ParserTable,
      table.funcs = [] → (e.hook .parser table).funcs = [])
    (h : setup.parserModel .empty = (.ok model, s)) :
    ∃ table, model.file.recognizer = .parser table ∧ setup.OnePerRule table model.outcomes := by
  obtain ⟨file, table, built, htable, ⟨before, after, hbuilt⟩, hfile, houtcomes⟩ :=
    exists_of_parserModel_ok h
  obtain ⟨length, each⟩ := exists_of_buildRules_ok hbuilt
  have stand (i : Nat) (rule : Rule) (hrule : (setup.grammar.rulesFor .parser)[i]? = some rule) :
      ∃ f outcome, built[i]? = some (f, outcome) ∧ setup.StandFor rule f outcome ∧
        (setup.chain.extensions = [] → f.index = i) := by
    obtain ⟨⟨f, outcome⟩, hb, answers⟩ := each i rule hrule
    obtain ⟨name, hname⟩ := loaded.exists_name (List.mem_of_getElem? hrule)
    refine ⟨f, outcome, hb, standFor_of_buildRule validate hname answers, fun empty => ?_⟩
    rw [index_of_buildRule empty answers, Nat.zero_add]
  rw [funcs_of_parserTable keeps htable, List.nil_append] at hfile
  refine ⟨_, hfile, ?_, ?_, fun i rule hrule => ?_, fun empty i f hf => ?_⟩
  · rw [List.length_map, length]
  · rw [houtcomes, List.length_map, length]
  · obtain ⟨f, outcome, hb, stands, _⟩ := stand i rule hrule
    refine ⟨f, outcome, ?_, ?_, stands⟩
    · rw [List.getElem?_map, hb, Option.map_some]
    · rw [houtcomes, List.getElem?_map, hb, Option.map_some]
  · rw [List.getElem?_map] at hf
    obtain ⟨⟨_, outcome⟩, hb, rfl⟩ := Option.map_eq_some_iff.mp hf
    have bound : i < (setup.grammar.rulesFor .parser).length :=
      length ▸ (List.getElem?_eq_some_iff.mp hb).1
    have hrule := List.getElem?_eq_getElem bound
    obtain ⟨_, _, hb', stands, index⟩ := stand i _ hrule
    rw [hb] at hb'
    cases hb'
    have names : table.ruleNames = setup.grammar.ruleNames .parser := by
      rw [fold_of_nil empty (fold_of_visit htable)]
    refine ⟨index empty, ?_⟩
    dsimp only
    rw [names, loaded.ruleNames_eq, List.getElem?_map, hrule, Option.map_some, stands.name,
      Option.getD_some]

theorem brokenFirst_loaded : brokenFirst.grammar.Loaded := by
  unfold brokenFirst
  dsimp only
  exact Grammar.loaded_get _

/-- The rule that breaks off has its function all the same. -/
theorem onePerRule_brokenFirst : ∃ model s table,
    brokenFirst.parserModel .empty = (.ok model, s) ∧
      (brokenFirst.grammar.rulesFor .parser).length = 2 ∧
      model.file.recognizer = .parser table ∧ brokenFirst.OnePerRule table model.outcomes := by
  have runs : (brokenFirst.parserModel .empty).1.isOk = true := by decide +kernel
  have keeps : ∀ e ∈ brokenFirst.chain.extensions, ∀ table : ParserTable,
      table.funcs = [] → (e.hook .parser table).funcs = [] := by
    intro e he table noFuncs
    obtain rfl := List.mem_singleton.mp he
    exact noFuncs
  rcases h : brokenFirst.parserModel .empty with ⟨_ | model, s⟩
  · rw [h] at runs
    cases runs
  · obtain ⟨table, htable, functions⟩ := onePerRule_of_parserModel brokenFirst_loaded rfl keeps h
    exact ⟨model, s, table, rfl, by decide +kernel, htable, functions⟩

end Setup

end RecognizerModel
