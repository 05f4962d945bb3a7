import RecognizerModel.Proofs.LocalWalk
import RecognizerModel.Proofs.Outcome

/-! Rules are built as if each stood alone. A rule starts where nothing is under construction, and
although a failed walk stops inside blocks, trees and an alternative, the next rule starts there
again. What a rule gives does not hang on what came before it, so a parser model is put together
from rules that were built by themselves. -/
namespace RecognizerModel

/-- Whether no rule is under construction and none left an alternative, block or tree open. -/
structure Context.Idle (c : Context) : Prop where
  rules : c.rules = []
  alt : c.alt = none
  blocks : c.blocks = []
  treeLevel : c.treeLevel = 0

/-- From an idle context a job does what it does from an empty state. -/
theorem Context.Idle.after_eq {s : JobState} (idle : s.context.Idle) :
    JobState.empty.after s = s := by
  obtain ⟨⟨root, rules, alt, blocks, treeLevel⟩, ds, vs⟩ := s
  obtain ⟨rfl, rfl, rfl, rfl⟩ := idle
  simp only [JobState.after, JobState.empty, Context.empty, Context.withRoot, List.append_nil]

theorem Context.Idle.after {s : JobState} (idle : s.context.Idle) (past : JobState) :
    (s.after past).context.Idle :=
  ⟨idle.rules, idle.alt, idle.blocks, idle.treeLevel⟩

/-- What one rule gave, with the diagnostics that were added on the way. -/
structure RuleBuild where
  function : RuleFunction
  outcome : RuleOutcome
  diagnostics : List Diagnostic

namespace Setup

variable {setup : Setup}

theorem eq_of_visit_ok {p : Point} {node after : p.Node} {s t : JobState}
    (h : setup.visit p node s = (.ok after, t)) : ∃ visits, t = { s with visits } := by
  obtain ⟨_, s', hrecord, h⟩ := Job.exists_of_bind_ok h
  cases hrecord
  generalize (setup.chain.fold p p.anchor? node).outcome = outcome at h
  cases outcome with
  | error error => cases h
  | ok node =>
      cases h
      exact ⟨_, rfl⟩

/-- Files the outcome of a walk under its rule. -/
def settle (name : String) : Except Malformed (List Op) → Job RuleOutcome
  | .ok code => do
    Job.modifyRule fun f => { f with code }
    return .built name
  | .error construct => do
    Job.report (.ofMalformed name construct)
    return .failed name (.ofMalformed name construct)

/-- Ends the construction of a rule. -/
def closeRule (setup : Setup) (rule : Rule) (outcome : RuleOutcome) :
    Job (RuleFunction × RuleOutcome) := do
  Job.modifyContext .resetRuleState
  let postamble ← setup.rulePostamble rule
  let f ← Job.popRule
  return (f.finish (setup.target.contextType (rule.name.getD "")) postamble, outcome)

theorem buildRule_eq (setup : Setup) (walk : Rule → Job (List Op)) (rule : Rule) (index : Nat) :
    setup.buildRule walk rule index = (do
      let f ← setup.rule rule (rule.name.getD "") index
      Job.modifyContext (.pushRule f)
      let result ← (walk rule).attempt
      let outcome ← settle (rule.name.getD "") result
      setup.closeRule rule outcome) := by
  refine bind_congr fun f => bind_congr fun _ => bind_congr fun result => ?_
  cases result <;> simp only [settle, closeRule, bind_assoc, pure_bind]

theorem framed_settle (name : String) (result : Except Malformed (List Op)) :
    (settle name result).Framed := by
  cases result with
  | ok code => exact (Job.framed_modifyRule _).bind fun _ => Job.framed_pure _
  | error construct => exact (Job.framed_report _).bind fun _ => Job.framed_pure _

theorem framed_closeRule (setup : Setup) (rule : Rule) (outcome : RuleOutcome) :
    (setup.closeRule rule outcome).Framed := by
  unfold closeRule
  refine (Job.framed_modifyContext fun _ _ => rfl).bind fun _ => ?_
  refine (setup.visit_local .rulePostamble _ nofun).framed.bind fun postamble => ?_
  exact Job.framed_popRule.bind fun f => Job.framed_pure _

theorem framed_buildRule (setup : Setup) (rule : Rule) (index : Nat) :
    (setup.buildRule setup.walkRule rule index).Framed := by
  rw [buildRule_eq]
  refine (setup.visit_local .rule _ nofun).framed.bind fun f => ?_
  refine (Job.framed_modifyContext fun _ _ => rfl).bind fun _ => ?_
  refine (setup.walkRule_local rule).framed.attempt.bind fun result => ?_
  exact (framed_settle _ result).bind fun outcome => setup.framed_closeRule rule outcome

theorem length_rules_of_settle {name : String} {result : Except Malformed (List Op)}
    {outcome : RuleOutcome} {s t : JobState} (h : settle name result s = (.ok outcome, t)) :
    t.context.rules.length = s.context.rules.length := by
  obtain ⟨⟨root, rules, alt, blocks, treeLevel⟩, ds, vs⟩ := s
  cases result with
  | ok code =>
      cases rules with
      | nil => cases h
      | cons f rest =>
          cases h
          rfl
  | error construct =>
      cases h
      rfl

theorem idle_of_closeRule {rule : Rule} {outcome : RuleOutcome} {s t : JobState}
    {built : RuleFunction × RuleOutcome} (one : s.context.rules.length = 1)
    (h : setup.closeRule rule outcome s = (.ok built, t)) : t.context.Idle := by
  obtain ⟨_, s₁, hreset, h⟩ := Job.exists_of_bind_ok h
  cases hreset
  obtain ⟨postamble, s₂, hpostamble, h⟩ := Job.exists_of_bind_ok h
  obtain ⟨visits, rfl⟩ := eq_of_visit_ok hpostamble
  obtain ⟨f, s₃, hpop, h⟩ := Job.exists_of_bind_ok h
  cases h
  obtain ⟨f', hrules⟩ := List.length_eq_one_iff.mp one
  simp only [Job.popRule, Context.popRule?, Context.resetRuleState, hrules] at hpop
  cases hpop
  exact ⟨rfl, rfl, rfl, rfl⟩

/-- A rule that is built leaves an idle context, whether its walk came to an end or not. -/
theorem idle_of_buildRule {rule : Rule} {index : Nat} {s t : JobState}
    {built : RuleFunction × RuleOutcome} (idle : s.context.Idle)
    (h : setup.buildRule setup.walkRule rule index s = (.ok built, t)) : t.context.Idle := by
  rw [buildRule_eq] at h
  obtain ⟨f, s₁, hf, h⟩ := Job.exists_of_bind_ok h
  obtain ⟨_, s₂, hpush, h⟩ := Job.exists_of_bind_ok h
  obtain ⟨result, s₃, hwalk, h⟩ := Job.exists_of_bind_ok h
  obtain ⟨outcome, s₄, hsettle, hclose⟩ := Job.exists_of_bind_ok h
  have pushed : s₂.context.rules = [f] := by
    cases hpush
    obtain ⟨visits, rfl⟩ := eq_of_visit_ok hf
    rw [Context.pushRule, idle.rules]
  -- a walk that breaks off may leave blocks, trees and an alternative, but no rule of its own
  have walked : s₃.context.rules.length = 1 := by
    have same := (setup.walkRule_local rule).sameButContext s₂
    rw [pushed] at same
    obtain ⟨context, same⟩ := same
    have hstate : s₃ = (setup.walkRule rule s₂).2 := by
      unfold Job.attempt at hwalk
      rcases hrun : setup.walkRule rule s₂ with ⟨(_ | _) | _, s'⟩ <;>
        (rw [hrun] at hwalk; cases hwalk) <;> rfl
    rw [hstate, same]
    rfl
  exact idle_of_closeRule ((length_rules_of_settle hsettle).trans walked) hclose

/-- What comes of a rule that is built by itself, from an empty context. -/
def buildAlone (setup : Setup) (rule : Rule) (index : Nat) : Except Failure RuleBuild :=
  match setup.buildRule setup.walkRule rule index .empty with
  | (.ok (f, outcome), s) => .ok ⟨f, outcome, s.diagnostics⟩
  | (.error failure, _) => .error failure

theorem buildRule_of_alone {rule : Rule} {index : Nat} {b : RuleBuild} {s : JobState}
    (idle : s.context.Idle) (h : setup.buildAlone rule index = .ok b) :
    ∃ t, setup.buildRule setup.walkRule rule index s = (.ok (b.function, b.outcome), t) ∧
      t.context.Idle ∧ t.diagnostics = s.diagnostics ++ b.diagnostics := by
  -- an idle state is the empty one after what came before, and that changes nothing
  have framed := setup.framed_buildRule rule index .empty s
  rw [idle.after_eq] at framed
  unfold buildAlone at h
  rcases hrun : setup.buildRule setup.walkRule rule index .empty with ⟨_ | ⟨f, outcome⟩, t⟩
  · rw [hrun] at h
    cases h
  · rw [hrun] at h framed
    cases h
    exact ⟨t.after s, framed, (idle_of_buildRule ⟨rfl, rfl, rfl, rfl⟩ hrun).after s, rfl⟩

theorem alone_of_buildRule {rule : Rule} {index : Nat} {built : RuleFunction × RuleOutcome}
    {s t : JobState} (idle : s.context.Idle)
    (h : setup.buildRule setup.walkRule rule index s = (.ok built, t)) :
    ∃ b : RuleBuild, setup.buildAlone rule index = .ok b := by
  have framed := setup.framed_buildRule rule index .empty s
  rw [idle.after_eq, h] at framed
  unfold buildAlone
  rcases hrun : setup.buildRule setup.walkRule rule index .empty with ⟨_ | ⟨f, outcome⟩, t'⟩
  · rw [hrun] at framed
    cases framed
  · exact ⟨_, rfl⟩

/-- Rules that can be built by themselves are built to the same in a row. -/
theorem buildRules_of_alone {index : Nat} {rules : List Rule} {builds : List RuleBuild}
    {s : JobState} (idle : s.context.Idle)
    (h : (rules.mapIdx fun i rule => setup.buildAlone rule (i + index)) = builds.map .ok) :
    ∃ t, setup.buildRules setup.walkRule index rules s =
        (.ok (builds.map fun b => (b.function, b.outcome)), t) ∧
      t.context.Idle ∧ t.diagnostics = s.diagnostics ++ builds.flatMap RuleBuild.diagnostics := by
  induction rules generalizing index builds s with
  | nil =>
      cases builds with
      | nil => exact ⟨s, rfl, idle, (List.append_nil _).symm⟩
      | cons b builds => cases h
  | cons rule rest ih =>
      cases builds with
      | nil => simp at h
      | cons b builds =>
          simp only [List.mapIdx_cons, List.map_cons, List.cons.injEq, Nat.zero_add,
            Nat.add_assoc, Nat.add_comm 1 index] at h
          obtain ⟨hrule, hrest⟩ := h
          obtain ⟨s₁, hrun, idle₁, hds⟩ := buildRule_of_alone idle hrule
          obtain ⟨t, hruns, idle', hds'⟩ := ih idle₁ hrest
          refine ⟨t, ?_, idle', ?_⟩
          · rw [buildRules, Job.bind_of_ok hrun, Job.bind_of_ok hruns]
            rfl
          · rw [hds', hds, List.flatMap_cons, List.append_assoc]

theorem alone_of_buildRules {index : Nat} {rules : List Rule} {s t : JobState}
    {built : List (RuleFunction × RuleOutcome)} (idle : s.context.Idle)
    (h : setup.buildRules setup.walkRule index rules s = (.ok built, t)) :
    ∃ builds : List RuleBuild,
      (rules.mapIdx fun i rule => setup.buildAlone rule (i + index)) = builds.map .ok := by
  induction rules generalizing index built s t with
  | nil => exact ⟨[], rfl⟩
  | cons rule rest ih =>
      rw [buildRules] at h
      obtain ⟨first, s₁, hrun, h⟩ := Job.exists_of_bind_ok h
      obtain ⟨others, s₂, hruns, _⟩ := Job.exists_of_bind_ok h
      obtain ⟨b, hb⟩ := alone_of_buildRule idle hrun
      obtain ⟨builds, hbuilds⟩ := ih (idle_of_buildRule idle hrun) hruns
      refine ⟨b :: builds, ?_⟩
      simp only [List.mapIdx_cons, List.map_cons, Nat.zero_add, Nat.add_assoc,
        Nat.add_comm 1 index, hb, hbuilds]

theorem eq_of_checkJob_ok {u : Unit} {s t : JobState}
    (h : setup.checkJob .parser s = (.ok u, t)) : t = s := by
  unfold checkJob at h
  dsimp only at h
  split at h
  · cases h
  · split at h
    · cases h
    · cases h
      rfl

/-- Whether a model holds for every rule, after the functions that the table came with, exactly what
the rule gives when it is built by itself. -/
def BuiltApart (setup : Setup) (model : ParserModel) : Prop :=
  ∃ (file : RecognizerFile) (table : ParserTable) (builds : List RuleBuild),
    (∃ before after, setup.parserTable file before = (.ok table, after)) ∧
    ((setup.grammar.rulesFor .parser).mapIdx fun i rule => setup.buildAlone rule i) =
      builds.map .ok ∧
    model.file.recognizer =
      .parser { table with funcs := table.funcs ++ builds.map RuleBuild.function } ∧
    model.outcomes = builds.map RuleBuild.outcome ∧
    model.diagnostics = builds.flatMap RuleBuild.diagnostics

/-- A parser job builds each rule as if it stood alone, and afterwards nothing is under
construction. -/
theorem builtApart_of_parserModel {setup : Setup} {model : ParserModel} {s : JobState}
    (h : setup.parserModel .empty = (.ok model, s)) :
    s.context.Idle ∧ setup.BuiltApart model := by
  obtain ⟨_, s₁, hcheck, h⟩ := Job.exists_of_bind_ok h
  obtain rfl := eq_of_checkJob_ok hcheck
  obtain ⟨file, s₂, hfile, h⟩ := Job.exists_of_bind_ok h
  obtain ⟨visits, rfl⟩ := eq_of_visit_ok hfile
  obtain ⟨_, s₃, hroot, h⟩ := Job.exists_of_bind_ok h
  cases hroot
  obtain ⟨table, s₄, htable, h⟩ := Job.exists_of_bind_ok h
  have start : s₄.context.Idle ∧ s₄.diagnostics = [] := by
    obtain ⟨visits', rfl⟩ := eq_of_visit_ok htable
    exact ⟨⟨rfl, rfl, rfl, rfl⟩, rfl⟩
  obtain ⟨built, s₅, hbuilt, h⟩ := Job.exists_of_bind_ok h
  cases h
  obtain ⟨builds, hbuilds⟩ := alone_of_buildRules start.1 hbuilt
  obtain ⟨t, hrun, idle, hds⟩ := buildRules_of_alone start.1 hbuilds
  rw [hrun] at hbuilt
  cases hbuilt
  refine ⟨⟨idle.rules, idle.alt, idle.blocks, idle.treeLevel⟩, file, table, builds,
    ⟨_, _, htable⟩, hbuilds, ?_, ?_, ?_⟩
  · simp only [List.map_map, Function.comp_def]
  · simp only [List.map_map, Function.comp_def]
  · rw [hds, start.2, List.nil_append]

/-- A grammar whose first rule breaks off inside a choice, built with an extension for a language
with its own names of contexts and labels. -/
def brokenFirst : Setup where
  grammar := (Grammar.load ("(PARSER_GRAMMAR P(RULE b(BLOCK(ALT(BLOCK(ALT)(ALT)))))" ++
    "(RULE a(BLOCK(ALT(TOKEN_REF X)))))")).toOption.get (by decide +kernel)
  target := { Target.java with
    contextType := fun rule => "Ctx_" ++ rule
    tokenLabel := fun token => token ++ "_label" }
  chain := ⟨[.treeBuilding], true⟩

theorem builtApart_brokenFirst : ∃ model s,
    brokenFirst.parserModel .empty = (.ok model, s) ∧
      s.context.Idle ∧ brokenFirst.BuiltApart model := by
  have runs : (brokenFirst.parserModel .empty).1.isOk = true := by decide +kernel
  rcases h : brokenFirst.parserModel .empty with ⟨_ | model, s⟩
  · rw [h] at runs
    cases runs
  · exact ⟨model, s, rfl, builtApart_of_parserModel h⟩

end Setup

end RecognizerModel
