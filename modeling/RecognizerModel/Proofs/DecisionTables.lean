import RecognizerModel.Proofs.BuiltParts
import RecognizerModel.Proofs.CoupledWalk
import RecognizerModel.Proofs.RuleFunctions
import RecognizerModel.Proofs.WellFormed

/-! One grammar under two decision tables. The tables tag choices and give them tests. Nothing else
in a function hangs on them, and a rule is lost to a table only where that gives a choice too many
sets of lookahead or too few. -/
namespace RecognizerModel

mutual

/-- An operation whose choices are generic and have no tests. -/
def Op.untagged : Op → Op
  | .choice c => .choice c.untagged
  | .treeRewrite rewrite => .treeRewrite rewrite.untagged
  | .rewriteOptional body => .rewriteOptional body.untagged
  | .rewriteClosure body => .rewriteClosure body.untagged
  | .rewriteTree tree => .rewriteTree tree.untagged
  | op => op

def Op.untaggedAll : List Op → List Op
  | [] => []
  | op :: rest => op.untagged :: Op.untaggedAll rest

def Alternative.untagged : Alternative → Alternative
  | ⟨num, ops⟩ => ⟨num, Op.untaggedAll ops⟩

def Alternative.untaggedAll : List Alternative → List Alternative
  | [] => []
  | alt :: rest => alt.untagged :: Alternative.untaggedAll rest

def Choice.untagged : Choice → Choice
  | ⟨kind, decision, ebnf, alts, _, preamble⟩ =>
    ⟨{ kind with strategy := .generic }, decision, ebnf, Alternative.untaggedAll alts, [],
      Op.untaggedAll preamble⟩

def TreeRewrite.untagged : TreeRewrite → TreeRewrite
  | ⟨level, ops⟩ => ⟨level, Op.untaggedAll ops⟩

def RewriteOptional.untagged : RewriteOptional → RewriteOptional
  | ⟨level, referenced, ops⟩ => ⟨level, referenced, Op.untaggedAll ops⟩

def RewriteClosure.untagged : RewriteClosure → RewriteClosure
  | ⟨level, referenced, ops⟩ => ⟨level, referenced, Op.untaggedAll ops⟩

def RewriteTree.untagged : RewriteTree → RewriteTree
  | ⟨treeLevel, level, root, children⟩ =>
    ⟨treeLevel, level, Op.untaggedAll root, Op.untaggedAll children⟩

end

theorem Op.untaggedAll_append (ops rest : List Op) :
    Op.untaggedAll (ops ++ rest) = Op.untaggedAll ops ++ Op.untaggedAll rest := by
  induction ops with
  | nil => rfl
  | cons op ops ih => rw [List.cons_append, untaggedAll, ih, untaggedAll, List.cons_append]

def RuleFunction.untagged (f : RuleFunction) : RuleFunction :=
  { f with code := Op.untaggedAll f.code, postamble := Op.untaggedAll f.postamble }

def Recognizer.untagged : Recognizer → Recognizer
  | .parser table => .parser { table with funcs := table.funcs.map RuleFunction.untagged }
  | .lexer table => .lexer table

theorem Recognizer.name_untagged (r : Recognizer) : r.untagged.name = r.name := by
  cases r <;> rfl

/-- A node of any sort with all choices in it untagged. -/
def Subject.untagged : (s : Subject) → s.Node → s.Node
  | .file, f => { f with recognizer := f.recognizer.untagged }
  | .parserTable, table => { table with funcs := table.funcs.map RuleFunction.untagged }
  | .ruleFunction, f => f.untagged
  | .alternative, b => b.untagged
  | .choice, c => c.untagged
  | .ops, code => Op.untaggedAll code
  | .treeRewrite, rewrite => rewrite.untagged
  | .rewriteOptional, body => body.untagged
  | .rewriteClosure, body => body.untagged
  | .rewriteTree, tree => tree.untagged
  | .lexerTable, table => table
  | .nothing, node => node

theorem Alternative.untaggedAll_eq {alts alts' : List Alternative}
    (h : List.Forall₂ (fun b b' => untagged b = untagged b') alts alts') :
    untaggedAll alts = untaggedAll alts' := by
  induction h with
  | nil => rfl
  | cons same _ ih => rw [untaggedAll, untaggedAll, same, ih]

/-- Jobs that build the same but for the tags of choices. Either may break off at a choice. -/
def Coupling.retagged : Coupling where
  move := id
  nodes s node node' := s.untagged node = s.untagged node'
  diagnostics _ _ := True
  leftStops _ := True
  rightStops _ := True
  refl _ := rfl
  append hops hrest := by
    simp only [Subject.untagged] at hops hrest ⊢
    rw [Op.untaggedAll_append, hops, hrest, Op.untaggedAll_append]
  opsOf {b b'} h := by
    obtain ⟨num, ops⟩ := b
    obtain ⟨num', ops'⟩ := b'
    exact (Alternative.mk.inj h).2
  fill {b b' _ _} h hops := by
    obtain ⟨num, _⟩ := b
    obtain ⟨num', _⟩ := b'
    exact congrArg₂ Alternative.mk (Alternative.mk.inj h).1 hops
  inChoice kind decision ebnf halts _ := by
    have same := Alternative.untaggedAll_eq halts
    exact congrArg (Choice.mk { kind with strategy := .generic } decision ebnf · [] []) same
  ofChoice h := congrArg ([Op.choice ·]) h
  inWhole level h := congrArg (TreeRewrite.mk level) h
  inOptional level referenced h := congrArg (RewriteOptional.mk level referenced) h
  inClosure level referenced h := congrArg (RewriteClosure.mk level referenced) h
  inTree treeLevel level hroot hchildren :=
    congrArg₂ (RewriteTree.mk treeLevel level) hroot hchildren
  ofWhole h := congrArg ([Op.treeRewrite ·]) h
  ofOptional h := congrArg ([Op.rewriteOptional ·]) h
  ofClosure h := congrArg ([Op.rewriteClosure ·]) h
  ofTree h := congrArg ([Op.rewriteTree ·]) h
  name h := (congrArg RuleFunction.name h).symm
  declare field h := congrArg (RuleFunction.declare · field) h
  withCode h hcode :=
    congrArg₂ (fun (f : RuleFunction) (code : List Op) => { f with code }) h hcode
  finish ctxType h hpostamble := congrArg₂ (RuleFunction.finish · ctxType ·) h hpostamble
  recognizerName {file file'} h := by
    have same : file.recognizer.untagged = file'.recognizer.untagged :=
      congrArg RecognizerFile.recognizer h
    rw [← Recognizer.name_untagged, ← same, Recognizer.name_untagged]
  inParser {file file' table table' funcs funcs'} hfile htable hfuncs := by
    have funcs : funcs.map RuleFunction.untagged = funcs'.map RuleFunction.untagged := by
      rw [← List.forall₂_eq_eq_eq, List.forall₂_map_left_iff, List.forall₂_map_right_iff]
      exact hfuncs
    have same := congrArg₂ (fun (table : ParserTable) (funcs : List RuleFunction) =>
      { table with funcs := table.funcs ++ funcs }) htable funcs
    simp only [Subject.untagged, ← List.map_append] at same
    exact congrArg₂ (fun (file : RecognizerFile) (table : ParserTable) =>
      { file with recognizer := .parser table }) hfile same
  inLexer hfile htable := congrArg₂ (fun (file : RecognizerFile) (table : LexerTable) =>
    { file with recognizer := .lexer table }) hfile htable
  noDiagnostics := trivial
  report _ _ := trivial

/-- Whether a job changes nothing but the diagnostics, however it ends. -/
def Job.Still (job : Job α) : Prop :=
  ∀ s, ∃ result diagnostics, job s = (result, { s with diagnostics })

namespace Job

theorem still_pure (a : α) : (Pure.pure a : Job α).Still :=
  fun s => ⟨.ok a, s.diagnostics, rfl⟩

theorem still_malformed (place : Place) (p : Option Point) (detail : String) :
    (malformed place p detail : Job α).Still :=
  fun s => ⟨_, s.diagnostics, rfl⟩

theorem still_context : context.Still :=
  fun s => ⟨_, s.diagnostics, rfl⟩

theorem still_report (d : Diagnostic) : (report d).Still :=
  fun _ => ⟨_, _, rfl⟩

theorem Still.bind {job : Job α} {next : α → Job β} (first : job.Still)
    (second : ∀ a, (next a).Still) : (job >>= next).Still := by
  intro s
  obtain ⟨result, diagnostics, hrun⟩ := first s
  rw [bind_run, hrun]
  cases result with
  | error failure => exact ⟨_, _, rfl⟩
  | ok a =>
      obtain ⟨result, diagnostics, hrun⟩ := second a { s with diagnostics }
      exact ⟨result, diagnostics, hrun⟩

end Job

/-- Jobs that change nothing go along with each other, whatever they give. -/
theorem Coupling.coupled_of_still {job : Job α} {job' : Job β} (h : job.Still) (h' : job'.Still) :
    retagged.Coupled (fun _ _ => True) job job' := by
  intro s s' states
  obtain ⟨result, diagnostics, hrun⟩ := h s
  obtain ⟨result', diagnostics', hrun'⟩ := h' s'
  rw [hrun, hrun']
  match result, result' with
  | .error failure, _ => exact .left trivial
  | _, .error failure => exact .right trivial
  | .ok _, .ok _ => exact .ended trivial ⟨states.contexts, trivial⟩

namespace Setup

variable {target : Target} {validate : Bool}

section

variable {g : Grammar}

theorem still_strategy (setup : Setup) (site : ChoiceSite) : (setup.strategy site).Still := by
  have unclassified (detail : String) : (do
      let context ← Job.context
      Job.report (.ofUnclassified context.ruleName site.place.span detail)
      return Strategy.generic : Job Strategy).Still :=
    Job.still_context.bind fun _ => (Job.still_report _).bind fun _ => Job.still_pure _
  unfold strategy
  dsimp only
  split
  · exact unclassified _
  · split
    · exact Job.still_pure _
    · exact unclassified _

theorem still_ll1Tests (site : ChoiceSite) (count : Nat) (p : Point) :
    ((plain g target validate).ll1Tests site count p).Still := by
  have visit (look : LookaheadSet) : ((plain g target validate).ll1Test look).Still :=
    fun s => ⟨_, s.diagnostics, plain_visit g target validate .ll1Test _ s⟩
  have tests (sets : List LookaheadSet) :
      (sets.mapM (plain g target validate).ll1Test).Still := by
    induction sets with
    | nil => exact Job.still_pure []
    | cons look rest ih =>
        rw [List.mapM_cons]
        exact (visit look).bind fun _ => ih.bind fun _ => Job.still_pure _
  unfold ll1Tests
  split
  · exact Job.still_malformed _ _ _
  · split
    · exact Job.still_malformed _ _ _
    · split
      · exact tests _
      · exact Job.still_malformed _ _ _

theorem visitChoice_plain (c : Choice) (kind : ChoiceKind) :
    (plain g target validate).visitChoice c kind = pure c := by
  funext s
  obtain ⟨_ | _ | _, _ | _⟩ := kind
  · exact plain_visit g target validate .choiceBlock c s
  · exact plain_visit g target validate .ebnfBlock c s
  · exact plain_visit g target validate .ll1ChoiceBlock c s
  · exact plain_visit g target validate .ll1EbnfBlock c s
  · exact plain_visit g target validate .llStarChoiceBlock c s
  · exact plain_visit g target validate .llStarEbnfBlock c s

/-- Without extensions a choice has the alternatives that it is given, once it has its tests. -/
theorem exists_choice_eq (g : Grammar) (target : Target) (validate : Bool) (kind : ChoiceKind)
    (site : ChoiceSite) (fits : kind.ebnf = site.ebnf.isSome) (alts : List Alternative) :
    ∃ job : Job (List (List Op)), job.Still ∧ (plain g target validate).choice kind site alts =
      do return ⟨kind, site.decision, site.ebnf, alts, ← job, []⟩ := by
  unfold choice
  simp only [if_pos fits, visitChoice_plain]
  split
  · exact ⟨_, still_ll1Tests _ _ _, rfl⟩
  · exact ⟨pure [], Job.still_pure [], rfl⟩

end

theorem retagged_visits (g : Grammar) (table table' : DecisionTable) :
    Coupling.retagged.Visits (plain { g with decisions := table } target validate)
      (plain { g with decisions := table' } target validate) where
  vocabulary := rfl
  labelTarget := rfl
  visit p {node node'} related := by
    intro s s' states
    rw [plain_visit, plain_visit]
    exact .ended related states

/-- The strategies may differ, and so may the tests. -/
theorem retagged_walks (g : Grammar) (target : Target) (validate : Bool)
    (table table' : DecisionTable) :
    Coupling.retagged.Walks (plain { g with decisions := table } target validate)
      (plain { g with decisions := table' } target validate) where
  toVisits := retagged_visits g table table'
  reference := (retagged_visits g table table').reference fun span op =>
    ((retagged_visits g table table').labelIfNeeded (fun _ _ => rfl) span op).imp
      fun _ _ same => by rw [same]; rfl
  choose {site ebnf alts alts'} fits related := by
    refine (Coupling.coupled_of_still (still_strategy _ site) (still_strategy _ _)).bind
      fun strategy strategy' _ => ?_
    subst fits
    obtain ⟨tests, still, made⟩ := exists_choice_eq { g with decisions := table } target validate
      ⟨strategy, site.ebnf.isSome⟩ site rfl alts
    obtain ⟨tests', still', made'⟩ := exists_choice_eq { g with decisions := table' } target
      validate ⟨strategy', site.ebnf.isSome⟩ (site.moved Coupling.retagged.move) rfl alts'
    rw [made, made', bind_assoc, bind_assoc]
    refine (Coupling.coupled_of_still still still').bind fun _ _ _ => Coupling.coupled_pure ?_
    have same := Alternative.untaggedAll_eq related
    exact congrArg (fun alts => [Op.choice ⟨⟨.generic, site.ebnf.isSome⟩, site.decision, site.ebnf,
      alts, [], []⟩]) same

end Setup

/-- Where the walk over a rule starts without extensions. -/
def JobState.inside (rule : Rule) (index : Nat) : JobState :=
  ⟨⟨none, [.ofRule rule (rule.name.getD "") index], none, [], 0⟩, [], []⟩

namespace Setup

variable {target : Target} {validate : Bool} {g : Grammar} {rule : Rule}

/-- Without extensions the function of a rule that is built is what the walk left, with the code
that it gave. -/
theorem exists_walk_of_built {index : Nat} {b : RuleBuild}
    (h : (plain g target validate).buildAlone rule index = .ok b) (built : b.outcome.isBuilt) :
    ∃ (code : List Op) (t : JobState) (f : RuleFunction),
      (plain g target validate).walkRule rule (.inside rule index) = (.ok code, t) ∧
        t.context.rules = [f] ∧ b.function = RuleFunction.finish { f with code }
          (target.contextType (rule.name.getD "")) rule.postamble := by
  unfold buildAlone at h
  rcases hrun : (plain g target validate).buildRule (plain g target validate).walkRule rule index
    .empty with ⟨_ | ⟨f, outcome⟩, t⟩ <;> rw [hrun] at h <;> cases h
  have entered : (plain g target validate).rule rule (rule.name.getD "") index .empty =
      (.ok (.ofRule rule (rule.name.getD "") index), .empty) :=
    plain_visit g target validate .rule _ _
  have pushed : Job.modifyContext (.pushRule (.ofRule rule (rule.name.getD "") index)) .empty =
      (.ok (), .inside rule index) := rfl
  rw [buildRule_eq, Job.bind_of_ok entered, Job.bind_of_ok pushed] at hrun
  obtain ⟨result, after, hwalk, hrun⟩ := Job.exists_of_bind_ok hrun
  obtain ⟨outcome, settled, hsettle, hclose⟩ := Job.exists_of_bind_ok hrun
  obtain ⟨context, walked⟩ : ∃ context, after.context.rules =
      [{ RuleFunction.ofRule rule (rule.name.getD "") index with context }] := by
    have same := ((plain g target validate).walkRule_local rule).sameButContext
      (.inside rule index)
    rwa [← Job.state_of_attempt_ok hwalk] at same
  obtain ⟨rfl, changed, _⟩ := eq_of_settle_ok walked hsettle
  obtain ⟨t, closed⟩ :=
    (plain_keepsContracts g target validate).closeRule_eq rule (rule.outcome result) changed
  rw [closed] at hclose
  cases hclose
  cases result with
  | error construct => cases built
  | ok code => exact ⟨code, after, _, Job.eq_ok_of_attempt hwalk, walked, rfl⟩

/-- Functions that are built under two tables are the same but for the tags of choices. -/
theorem untagged_of_buildAlone {table table' : DecisionTable} {index : Nat} {b b' : RuleBuild}
    (h : (plain { g with decisions := table } target validate).buildAlone rule index = .ok b)
    (h' : (plain { g with decisions := table' } target validate).buildAlone rule index = .ok b')
    (built : b.outcome.isBuilt) (built' : b'.outcome.isBuilt) :
    b.function.untagged = b'.function.untagged := by
  obtain ⟨code, t, f, hwalk, left, hfunction⟩ := exists_walk_of_built h built
  obtain ⟨code', t', f', hwalk', left', hfunction'⟩ := exists_walk_of_built h' built'
  have runs := (retagged_walks g target validate table table').walkRule rule (.inside rule index)
    (.inside rule index) ⟨⟨.cons rfl .nil, rfl, rfl, rfl⟩, trivial⟩
  have here : Rule.moved Coupling.retagged.move = id := Rule.moved_id
  rw [here, id, hwalk, hwalk'] at runs
  cases runs with
  | ended related states =>
      have rules := states.contexts.rules
      rw [left, left'] at rules
      cases rules with
      | cons function _ =>
          rw [hfunction, hfunction']
          exact Coupling.retagged.finish _ (Coupling.retagged.withCode function related) rfl

end Setup

/-- What is found at a choice if its decision has too many sets of lookahead or too few. -/
def ChoiceSite.misfit (site : ChoiceSite) (count decision : Nat) (sets : List LookaheadSet) :
    Malformed where
  place := site.place
  point := some (.ofChoice ⟨.ll1, site.ebnf.isSome⟩)
  detail := s!"decision {decision} has {sets.length} lookahead sets for {count} alternatives"

/-- Whether a construct is a choice between `count` alternatives for which a grammar has another
number of sets of lookahead. -/
def Grammar.Misfit (g : Grammar) (site : ChoiceSite) (count : Nat) (construct : Malformed) : Prop :=
  ∃ decision sets, site.decision = some decision ∧ g.classify decision = some (.ll1 sets) ∧
    sets.length ≠ count ∧ construct = site.misfit count decision sets

/-- Whether a construct is a misfit among parts of a rule. -/
def Grammar.MisfitIn (g : Grammar) (parts : List Part) (construct : Malformed) : Prop :=
  ∃ site count, .choice site count ∈ parts ∧ g.Misfit site count construct

theorem Grammar.MisfitIn.mono {g : Grammar} {parts parts' : List Part} {construct : Malformed}
    (h : g.MisfitIn parts construct) (sub : parts ⊆ parts') : g.MisfitIn parts' construct := by
  obtain ⟨site, count, here, misfit⟩ := h
  exact ⟨site, count, sub here, misfit⟩

namespace Setup

variable {target : Target} {validate : Bool} {g : Grammar} {table table' : DecisionTable}

theorem misfit_of_choiceAt {site : ChoiceSite} {alts : List Alternative} {construct : Malformed}
    (h : (plain g target validate).choiceAt site alts = .error construct) :
    g.Misfit site alts.length construct := by
  rcases bind_eq_error.mp h with h | ⟨tests, _, h⟩
  · unfold testsAt at h
    cases hlook : (plain g target validate).lookaheadAt? site with
    | none =>
        rw [hlook] at h
        cases h
    | some sets =>
        obtain ⟨n, hdecision, hclass⟩ :=
          (plain g target validate).lookaheadAt?_eq_some_iff.mp hlook
        rw [hlook] at h
        dsimp only at h
        split at h
        · cases h
        · next other =>
          have kind : (plain g target validate).kindAt site = ⟨.ll1, site.ebnf.isSome⟩ := by
            unfold kindAt classAt?
            rw [hdecision, Option.bind_some, hclass]
            rfl
          rw [kind, hdecision] at h
          cases h
          exact ⟨n, sets, hdecision, hclass, other, rfl⟩
  · cases h

/-- No choice is made in a rewrite. -/
theorem retagged_rewritesAlike (g : Grammar) (table table' : DecisionTable) : RewritesAlike
    (plain { g with decisions := table } target validate)
    (plain { g with decisions := table' } target validate) :=
  ⟨rfl, fun _ _ _ => rfl⟩

/-- Of what is built under one table only a choice that does not fit can break off under another. -/
theorem compositional_misfit : Compositional { g with decisions := table } target validate
    (fun spot element _ => ∀ blocks trees construct,
      (plain { g with decisions := table' } target validate).elementCode spot element =
        .error construct →
      Grammar.MisfitIn { g with decisions := table' } (element.parts blocks trees) construct)
    (fun spot elements _ => ∀ blocks trees construct,
      (plain { g with decisions := table' } target validate).elementsCode spot elements =
        .error construct →
      Grammar.MisfitIn { g with decisions := table' } (Element.partsIn blocks trees elements)
        construct)
    (fun spot block _ => ∀ blocks trees construct,
      (plain { g with decisions := table' } target validate).blockCode spot block =
        .error construct →
      Grammar.MisfitIn { g with decisions := table' } (block.parts blocks trees) construct)
    (fun spot num alt _ => ∀ blocks trees construct,
      (plain { g with decisions := table' } target validate).branch spot num alt =
        .error construct →
      Grammar.MisfitIn { g with decisions := table' } (alt.parts blocks trees) construct)
    (fun spot num alts _ => ∀ blocks trees construct,
      (plain { g with decisions := table' } target validate).branches spot num alts =
        .error construct →
      Grammar.MisfitIn { g with decisions := table' } (Alt.partsIn blocks trees alts)
        construct) where
  reference built blocks trees construct h := by
    rw [elementCode] at h
    cases built.symm.trans h
  action _ _ _ h := by cases h
  forcedAction _ _ _ h := by cases h
  predicate _ _ _ h := by cases h
  epsilon _ _ _ h := by cases h
  block inside blocks trees construct h := by
    rw [elementCode] at h
    exact inside blocks trees construct h
  ebnf {_ _ _ _ _ _ alts _ _} nonempty inside _ blocks trees construct h := by
    rw [elementCode_ebnf _ _ _ _ _ _ _ nonempty] at h
    rcases bind_eq_error.mp h with h | ⟨built, hbuilt, h⟩
    · exact (inside (blocks + 1) trees construct h).mono (List.subset_append_left _ _)
    · rcases bind_eq_error.mp h with h | ⟨c, _, h⟩
      · have misfit := misfit_of_choiceAt h
        rw [length_branches hbuilt] at misfit
        have several : 1 ≤ alts.length := List.length_pos_of_ne_nil nonempty
        refine ⟨_, _, List.mem_append_right _ ?_, misfit⟩
        rw [Part.ofCount, if_pos several]
        exact List.mem_singleton_self _
      · cases h
  root built blocks trees construct h := by
    rw [elementCode] at h
    rcases bind_eq_error.mp h with h | ⟨_, _, h⟩
    · cases built.symm.trans h
    · cases h
  bang inside blocks trees construct h := by
    rw [elementCode] at h
    exact inside blocks trees construct h
  labeled built blocks trees construct h := by
    rw [elementCode] at h
    rcases bind_eq_error.mp h with h | ⟨_, _, h⟩
    · cases built.symm.trans h
    · cases h
  noElements _ _ _ h := by cases h
  elements first others blocks trees construct h := by
    rw [elementsCode] at h
    rcases bind_eq_error.mp h with h | ⟨_, _, h⟩
    · exact (first blocks trees construct h).mono (List.subset_append_left _ _)
    · rcases bind_eq_error.mp h with h | ⟨_, _, h⟩
      · exact (others blocks trees construct h).mono (List.subset_append_right _ _)
      · cases h
  inlined inside blocks trees construct h := by
    rw [blockCode] at h
    rcases bind_eq_error.mp h with h | ⟨_, _, h⟩
    · have misfit := inside blocks trees construct h
      simpa [Block.parts, Alt.partsIn, Part.ofCount] using misfit
    · cases h
  choice several inside _ blocks trees construct h := by
    rw [blockCode_eq _ _ _ _ several] at h
    rw [Block.parts, if_pos several, Part.ofCount, if_pos several]
    rcases bind_eq_error.mp h with h | ⟨built, hbuilt, h⟩
    · exact (inside (blocks + 1) trees construct h).mono (List.subset_append_left _ _)
    · rcases bind_eq_error.mp h with h | ⟨c, _, h⟩
      · have misfit := misfit_of_choiceAt h
        rw [length_branches hbuilt] at misfit
        exact ⟨_, _, List.mem_append_right _ (List.mem_singleton_self _), misfit⟩
      · cases h
  alt nonempty inside rewritten blocks trees construct h := by
    rw [branch_plain nonempty] at h
    rcases bind_eq_error.mp h with h | ⟨_, _, h⟩
    · rw [Alt.parts_eq]
      exact (inside blocks trees construct h).mono (List.subset_append_left _ _)
    · rcases bind_eq_error.mp h with h | ⟨_, _, h⟩
      · rw [(retagged_rewritesAlike g table table').rewriteCode, rewritten] at h
        cases h
      · cases h
  noAlts _ _ _ h := by cases h
  alts first others blocks trees construct h := by
    rw [branches] at h
    rcases bind_eq_error.mp h with h | ⟨_, _, h⟩
    · exact (first blocks trees construct h).mono (List.subset_append_left _ _)
    · rcases bind_eq_error.mp h with h | ⟨_, _, h⟩
      · exact (others blocks trees construct h).mono (List.subset_append_right _ _)
      · cases h

theorem misfit_of_ruleCode {n : Node} (rule : n.kind = .rule) {code : List Op}
    {construct : Malformed}
    (h : (plain { g with decisions := table } target validate).ruleCode (.ofNode n) = .ok code)
    (h' : (plain { g with decisions := table' } target validate).ruleCode (.ofNode n) =
      .error construct) :
    ∃ p ∈ n.walked, p.isChoice ∧
      Grammar.Misfit { g with decisions := table' } p.site p.count construct := by
  obtain ⟨block, hblock, inside⟩ := compositional_misfit.of_ruleCode h
  unfold ruleCode at h'
  rw [hblock] at h'
  obtain ⟨site, count, here, misfit⟩ := inside 0 0 construct h'
  have parts := Rule.parts_block rule
  rw [hblock, Option.map_some, Option.getD_some] at parts
  rw [parts] at here
  obtain ⟨p, hp, hpart⟩ := List.mem_filterMap.mp here
  have choice := p.choice?_part?
  rw [hpart, Option.bind_some] at choice
  split at choice
  · next isChoice =>
    cases choice
    exact ⟨p, hp, isChoice, misfit⟩
  · cases choice

theorem plain_makes_alone (g : Grammar) (target : Target) (validate : Bool) {index : Nat}
    {rule : Rule} (hrule : (g.rulesFor .parser)[index]? = some rule) :
    ∃ b, (plain g target validate).buildAlone rule index = .ok b ∧
      (plain g target validate).Makes index b.function b.outcome ∧
      b.outcome = rule.outcome ((plain g target validate).ruleCode rule) := by
  obtain ⟨b, alone, makes⟩ :=
    (plain_keepsContracts g target validate).makes_alone (fun _ noFuncs => noFuncs) hrule
  obtain ⟨b', alone', houtcome, _⟩ := plain_buildAlone g target validate rule index
  rw [alone] at alone'
  cases alone'
  exact ⟨b, alone, makes, houtcome⟩

/-- Without extensions a rule that is built under two decision tables has the same function but for
the strategies and the tests of its choices. One that is built under the first and not under the
second has a choice with a number of sets of lookahead that is not that of its alternatives, and its
diagnostic says so. -/
theorem untagged_of_built (g : Grammar) (target : Target) (validate : Bool)
    (table table' : DecisionTable) {index : Nat} {n : Node} {rule : Rule}
    (made : n.rule? = some rule) (hrule : (g.rulesFor .parser)[index]? = some rule) :
    ∃ f outcome f' outcome',
      (plain { g with decisions := table } target validate).Makes index f outcome ∧
      (plain { g with decisions := table' } target validate).Makes index f' outcome' ∧
      (outcome.isBuilt → outcome'.isBuilt → f.untagged = f'.untagged) ∧
      ∀ name d, outcome.isBuilt → outcome' = .failed name d →
        ∃ p ∈ n.walked, p.isChoice ∧ ∃ construct, d = .ofMalformed name construct ∧
          Grammar.Misfit { g with decisions := table' } p.site p.count construct := by
  obtain ⟨kind, rfl⟩ := Node.rule?_eq_some_iff.mp made
  obtain ⟨b, alone, makes, houtcome⟩ :=
    plain_makes_alone { g with decisions := table } target validate hrule
  obtain ⟨b', alone', makes', houtcome'⟩ :=
    plain_makes_alone { g with decisions := table' } target validate hrule
  refine ⟨_, _, _, _, makes, makes', untagged_of_buildAlone alone alone', ?_⟩
  intro name d built failed
  rw [houtcome] at built
  rw [houtcome'] at failed
  cases hcode : (plain { g with decisions := table } target validate).ruleCode (.ofNode n) with
  | error construct =>
      rw [hcode] at built
      cases built
  | ok code =>
      cases hcode' : (plain { g with decisions := table' } target validate).ruleCode
        (.ofNode n) with
      | ok code' =>
          rw [hcode'] at failed
          cases failed
      | error construct =>
          rw [hcode'] at failed
          cases failed
          obtain ⟨p, hp, choice, misfit⟩ := misfit_of_ruleCode kind hcode hcode'
          exact ⟨p, hp, choice, construct, rfl, misfit⟩

/-- What can be seen of the outcome for a rule. -/
theorem Makes.of_outcomes {setup : Setup} {index : Nat} {f : RuleFunction} {outcome : RuleOutcome}
    {view : RuleOutcome → β} {seen : β} (makes : setup.Makes index f outcome)
    (h : (setup.parserModel .empty).1.toOption.bind (fun model =>
      model.outcomes[index]?.map view) = some seen) : view outcome = seen := by
  obtain ⟨model, made, s, hrun, _, _, houtcome⟩ := makes
  rw [hrun, Except.toOption, Option.bind_some, houtcome, Option.map_some] at h
  exact Option.some.inj h

end Setup

namespace Grammar

/-- One token of lookahead is enough for the inner choice, with a set for each alternative. -/
def fittingChoices : Grammar :=
  { nestedChoices with decisions := [(2, .ll1 [.ofList [1], .ofList [2]])] }

/-- The same with a set too few. -/
def misfitChoices : Grammar :=
  { nestedChoices with decisions := [(2, .ll1 [.ofList [1]])] }

end Grammar

namespace Setup

theorem untagged_of_nestedChoices : ∃ (n : Node) (rule : Rule),
    n.rule? = some rule ∧ (Grammar.nestedChoices.rulesFor .parser)[0]? = some rule ∧
    (∃ f outcome f' outcome',
      (plain { Grammar.nestedChoices with decisions := [] } .java true).Makes 0 f outcome ∧
      (plain .fittingChoices .java true).Makes 0 f' outcome' ∧
      outcome.isBuilt ∧ outcome'.isBuilt ∧ f.untagged = f'.untagged) ∧
    ∃ f name d, (plain .misfitChoices .java true).Makes 0 f (.failed name d) ∧
      ∃ p ∈ n.walked, p.isChoice ∧ ∃ construct, d = .ofMalformed name construct ∧
        Grammar.misfitChoices.Misfit p.site p.count construct := by
  have evaluated : (Grammar.nestedChoices.rulesFor .parser)[0]?.isSome ∧
      ((plain { Grammar.nestedChoices with decisions := [] } .java true).parserModel
        .empty).1.toOption.bind (fun model => model.outcomes[0]?.map RuleOutcome.isBuilt) =
          some true ∧
      ((plain .fittingChoices .java true).parserModel .empty).1.toOption.bind (fun model =>
        model.outcomes[0]?.map RuleOutcome.isBuilt) = some true ∧
      ((plain .misfitChoices .java true).parserModel .empty).1.toOption.bind (fun model =>
        model.outcomes[0]?.map RuleOutcome.isBuilt) = some false := by decide +kernel
  obtain ⟨isSome, generic, fitting, misfit⟩ := evaluated
  obtain ⟨rule, hrule⟩ := Option.isSome_iff_exists.mp isSome
  obtain ⟨n, _, same⟩ :=
    List.mem_filterMap.mp (List.mem_filter.mp (List.mem_of_getElem? hrule)).1
  obtain ⟨f, outcome, f', outcome', makes, makes', equal, _⟩ :=
    untagged_of_built .nestedChoices .java true [] Grammar.fittingChoices.decisions same hrule
  obtain ⟨_, fits, lost, broken, makesFits, makesLost, _, cause⟩ :=
    untagged_of_built .nestedChoices .java true Grammar.fittingChoices.decisions
      Grammar.misfitChoices.decisions same hrule
  have built := makes.of_outcomes generic
  have built' := makes'.of_outcomes fitting
  have unbuilt := makesLost.of_outcomes misfit
  cases broken with
  | built name => cases unbuilt
  | failed name d =>
      exact ⟨n, rule, same, hrule, ⟨f, outcome, f', outcome', makes, makes', built, built',
        equal built built'⟩, lost, name, d, makesLost,
        cause name d (makesFits.of_outcomes fitting) rfl⟩

end Setup

end RecognizerModel
