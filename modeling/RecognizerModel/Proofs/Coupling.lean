import Mathlib.Data.List.Forall2
import RecognizerModel.Proofs.LocalJob
import RecognizerModel.Proofs.Relocation

/-! Two jobs side by side. They stand at the same spot as long as both go on, and what they build is
related step by step. Either may stop at a failure that the other is not bound to. -/
namespace RecognizerModel

/-- How two jobs hang together: where the syntax of the first stands for the second, how the nodes
that they build are related, and at which failures one of them may stop by itself. -/
structure Coupling where
  move : Span → Span
  nodes : (s : Subject) → s.Node → s.Node → Prop
  diagnostics : List Diagnostic → List Diagnostic → Prop
  leftStops : Failure → Prop
  rightStops : Failure → Prop
  refl : ∀ {s : Subject} (node : s.Node), nodes s node node
  append {ops ops' rest rest' : List Op} :
    nodes .ops ops ops' → nodes .ops rest rest' → nodes .ops (ops ++ rest) (ops' ++ rest')
  opsOf {b b' : Alternative} : nodes .alternative b b' → nodes .ops b.ops b'.ops
  fill {b b' : Alternative} {ops ops' : List Op} : nodes .alternative b b' → nodes .ops ops ops' →
    nodes .alternative { b with ops } { b' with ops := ops' }
  inChoice {alts alts' : List Alternative} {tests tests' : List (List Op)} (kind : ChoiceKind)
    (decision : Option Nat) (ebnf : Option EbnfKind) :
    List.Forall₂ (nodes .alternative) alts alts' → List.Forall₂ (nodes .ops) tests tests' →
      nodes .choice ⟨kind, decision, ebnf, alts, tests, []⟩
        ⟨kind, decision, ebnf, alts', tests', []⟩
  ofChoice {c c' : Choice} : nodes .choice c c' → nodes .ops [.choice c] [.choice c']
  inWhole {ops ops' : List Op} (level : Nat) :
    nodes .ops ops ops' → nodes .treeRewrite ⟨level, ops⟩ ⟨level, ops'⟩
  inOptional {ops ops' : List Op} (level : Nat) (referenced : List String) :
    nodes .ops ops ops' → nodes .rewriteOptional ⟨level, referenced, ops⟩ ⟨level, referenced, ops'⟩
  inClosure {ops ops' : List Op} (level : Nat) (referenced : List String) :
    nodes .ops ops ops' → nodes .rewriteClosure ⟨level, referenced, ops⟩ ⟨level, referenced, ops'⟩
  inTree {root root' children children' : List Op} (treeLevel level : Nat) :
    nodes .ops root root' → nodes .ops children children' →
      nodes .rewriteTree ⟨treeLevel, level, root, children⟩ ⟨treeLevel, level, root', children'⟩
  ofWhole {r r' : TreeRewrite} :
    nodes .treeRewrite r r' → nodes .ops [.treeRewrite r] [.treeRewrite r']
  ofOptional {r r' : RewriteOptional} :
    nodes .rewriteOptional r r' → nodes .ops [.rewriteOptional r] [.rewriteOptional r']
  ofClosure {r r' : RewriteClosure} :
    nodes .rewriteClosure r r' → nodes .ops [.rewriteClosure r] [.rewriteClosure r']
  ofTree {r r' : RewriteTree} :
    nodes .rewriteTree r r' → nodes .ops [.rewriteTree r] [.rewriteTree r']
  name {f f' : RuleFunction} : nodes .ruleFunction f f' → f'.name = f.name
  declare {f f' : RuleFunction} (field : Field) : nodes .ruleFunction f f' →
    nodes .ruleFunction (f.declare field) (f'.declare field)
  withCode {f f' : RuleFunction} {code code' : List Op} : nodes .ruleFunction f f' →
    nodes .ops code code' → nodes .ruleFunction { f with code } { f' with code := code' }
  finish {f f' : RuleFunction} {postamble postamble' : List Op} (ctxType : String) :
    nodes .ruleFunction f f' → nodes .ops postamble postamble' →
      nodes .ruleFunction (f.finish ctxType postamble) (f'.finish ctxType postamble')
  recognizerName {file file' : RecognizerFile} :
    nodes .file file file' → file'.recognizer.name = file.recognizer.name
  inParser {file file' : RecognizerFile} {table table' : ParserTable}
    {funcs funcs' : List RuleFunction} : nodes .file file file' →
      nodes .parserTable table table' → List.Forall₂ (nodes .ruleFunction) funcs funcs' →
        nodes .file { file with recognizer := .parser { table with funcs := table.funcs ++ funcs } }
          { file' with recognizer := .parser { table' with funcs := table'.funcs ++ funcs' } }
  inLexer {file file' : RecognizerFile} {table table' : LexerTable} : nodes .file file file' →
    nodes .lexerTable table table' → nodes .file { file with recognizer := .lexer table }
      { file' with recognizer := .lexer table' }
  noDiagnostics : diagnostics [] []
  report {ds ds' : List Diagnostic} (d : Diagnostic) :
    diagnostics ds ds' → diagnostics (ds ++ [d]) (ds' ++ [d.moved move])

namespace Coupling

variable (C : Coupling)

/-- Whether two constructions stand at the same spot, inside of rules that are related. -/
structure Contexts (c c' : Context) : Prop where
  rules : List.Forall₂ (C.nodes .ruleFunction) c.rules c'.rules
  alt : c'.alt = c.alt
  blocks : c'.blocks = c.blocks
  treeLevel : c'.treeLevel = c.treeLevel

structure States (s s' : JobState) : Prop where
  contexts : C.Contexts s.context s'.context
  diagnostics : C.diagnostics s.diagnostics s'.diagnostics

/-- How two runs may end: both with what is related or both with the same failure, or one of them at
a failure of its own. -/
inductive Runs (R : α → β → Prop) :
    Except Failure α × JobState → Except Failure β × JobState → Prop
  | ended {a : α} {b : β} {s s' : JobState} : R a b → C.States s s' → Runs R (.ok a, s) (.ok b, s')
  | failed (failure : Failure) {s s' : JobState} : C.States s s' →
      Runs R (.error failure, s) (.error (failure.moved C.move), s')
  | left {failure : Failure} {s : JobState} {run : Except Failure β × JobState} :
      C.leftStops failure → Runs R (.error failure, s) run
  | right {failure : Failure} {s : JobState} {run : Except Failure α × JobState} :
      C.rightStops failure → Runs R run (.error failure, s)

/-- Whether two jobs that start alike stay together. -/
def Coupled (R : α → β → Prop) (job : Job α) (job' : Job β) : Prop :=
  ∀ s s', C.States s s' → C.Runs R (job s) (job' s')

variable {C} {R : α → β → Prop}

namespace Contexts

variable {c c' : Context}

theorem ruleName (h : C.Contexts c c') : c'.ruleName = c.ruleName := by
  obtain ⟨root, rules, alt, blocks, treeLevel⟩ := c
  obtain ⟨root', rules', alt', blocks', treeLevel'⟩ := c'
  have related : List.Forall₂ (C.nodes .ruleFunction) rules rules' := h.rules
  cases related with
  | nil => rfl
  | cons first _ => exact C.name first

theorem blockLevel (h : C.Contexts c c') : c'.blockLevel = c.blockLevel := by
  unfold Context.blockLevel
  rw [h.blocks]

theorem pushBlock (h : C.Contexts c c') (decision : Option Nat) :
    C.Contexts (c.pushBlock decision) (c'.pushBlock decision) := by
  refine ⟨h.rules, h.alt, ?_, h.treeLevel⟩
  simp only [Context.pushBlock, Context.nextBlock, h.blocks, h.treeLevel]

theorem popBlock (h : C.Contexts c c') : C.Contexts c.popBlock c'.popBlock :=
  ⟨h.rules, h.alt, congrArg List.tail h.blocks, h.treeLevel⟩

theorem leaveChoice {before before' : Context} (h : C.Contexts c c')
    (outside : C.Contexts before before') :
    C.Contexts { c.popBlock with alt := before.alt } { c'.popBlock with alt := before'.alt } :=
  ⟨h.rules, outside.alt, h.popBlock.blocks, h.treeLevel⟩

theorem enterTree (h : C.Contexts c c') : C.Contexts c.enterTree c'.enterTree :=
  ⟨h.rules, h.alt, h.blocks, congrArg (· + 1) h.treeLevel⟩

theorem exitTree (h : C.Contexts c c') : C.Contexts c.exitTree c'.exitTree :=
  ⟨h.rules, h.alt, h.blocks, congrArg (· - 1) h.treeLevel⟩

theorem enterAlt (h : C.Contexts c c') (num : Nat) (refs : List String) :
    C.Contexts { c with alt := some ⟨c.ruleName, num, refs⟩ }
      { c' with alt := some ⟨c'.ruleName, num, refs⟩ } :=
  ⟨h.rules, by rw [h.ruleName], h.blocks, h.treeLevel⟩

end Contexts

theorem coupled_pure {a : α} {b : β} (h : R a b) :
    C.Coupled R (Pure.pure a) (Pure.pure b) :=
  fun _ _ states => .ended h states

theorem coupled_malformed (place : Place) (p : Option Point) (detail : String) :
    C.Coupled R (Job.malformed place p detail) (Job.malformed (place.moved C.move) p detail) :=
  fun _ _ states => .failed (.malformed ⟨place, p, detail⟩) states

theorem coupled_fatal (error : BuildError) :
    C.Coupled R (Job.fatal error) (Job.fatal error) :=
  fun _ _ states => .failed (.fatal error) states

theorem Coupled.bind {Q : γ → δ → Prop} {job : Job α} {job' : Job β} {next : α → Job γ}
    {next' : β → Job δ} (hjob : C.Coupled R job job')
    (hnext : ∀ a b, R a b → C.Coupled Q (next a) (next' b)) :
    C.Coupled Q (job >>= next) (job' >>= next') := by
  intro s s' states
  have first := hjob s s' states
  rw [Job.bind_run, Job.bind_run]
  rcases hrun : job s with ⟨result, t⟩
  rcases hrun' : job' s' with ⟨result', t'⟩
  rw [hrun, hrun'] at first
  cases first with
  | ended related states => exact hnext _ _ related _ _ states
  | failed failure states => exact .failed failure states
  | left stops => exact .left stops
  | right stops => exact .right stops

theorem Coupled.imp {Q : α → β → Prop} {job : Job α} {job' : Job β} (hjob : C.Coupled R job job')
    (h : ∀ a b, R a b → Q a b) : C.Coupled Q job job' := by
  intro s s' states
  have run := hjob s s' states
  generalize job s = first at run ⊢
  generalize job' s' = second at run ⊢
  cases run with
  | ended related states => exact .ended (h _ _ related) states
  | failed failure states => exact .failed failure states
  | left stops => exact .left stops
  | right stops => exact .right stops

theorem Coupled.map {Q : γ → δ → Prop} {job : Job α} {job' : Job β} (hjob : C.Coupled R job job')
    {make : α → γ} {make' : β → δ} (h : ∀ a b, R a b → Q (make a) (make' b)) :
    C.Coupled Q (do return make (← job)) (do return make' (← job')) :=
  hjob.bind fun a b related => coupled_pure (h a b related)

theorem coupled_context {next : Context → Job α} {next' : Context → Job β}
    (h : ∀ c c', C.Contexts c c' → C.Coupled R (next c) (next' c')) :
    C.Coupled R (Job.context >>= next) (Job.context >>= next') :=
  fun s s' states => h s.context s'.context states.contexts s s' states

theorem coupled_modifyContext {change change' : Context → Context}
    (h : ∀ c c', C.Contexts c c' → C.Contexts (change c) (change' c')) :
    C.Coupled (fun _ _ => True) (Job.modifyContext change) (Job.modifyContext change') :=
  fun _ _ states => .ended trivial ⟨h _ _ states.contexts, states.diagnostics⟩

theorem Coupled.within {enter leave enter' leave' : Context → Context} {job : Job α}
    {job' : Job β} (henter : ∀ c c', C.Contexts c c' → C.Contexts (enter c) (enter' c'))
    (hleave : ∀ c c', C.Contexts c c' → C.Contexts (leave c) (leave' c'))
    (hjob : C.Coupled R job job') :
    C.Coupled R (Job.within enter leave job) (Job.within enter' leave' job') := by
  intro s s' states
  have run := hjob { s with context := enter s.context } { s' with context := enter' s'.context }
    ⟨henter _ _ states.contexts, states.diagnostics⟩
  unfold Job.within
  rcases hrun : job { s with context := enter s.context } with ⟨result, t⟩
  rcases hrun' : job' { s' with context := enter' s'.context } with ⟨result', t'⟩
  rw [hrun, hrun'] at run
  cases run with
  | ended related states => exact .ended related ⟨hleave _ _ states.contexts, states.diagnostics⟩
  | failed failure states => exact .failed failure ⟨hleave _ _ states.contexts, states.diagnostics⟩
  | left stops => exact .left stops
  | right stops => exact .right stops

theorem coupled_report (d : Diagnostic) :
    C.Coupled (fun _ _ => True) (Job.report d) (Job.report (d.moved C.move)) :=
  fun _ _ states => .ended trivial ⟨states.contexts, C.report d states.diagnostics⟩

theorem coupled_recordVisits (p p' : Point) (count count' : Nat) :
    C.Coupled (fun _ _ => True) (Job.recordVisits p count) (Job.recordVisits p' count') :=
  fun _ _ states => .ended trivial ⟨states.contexts, states.diagnostics⟩

/-- A change of the innermost rule, with no rule to change on either side or with one on both. -/
theorem coupled_modifyRule {change change' : RuleFunction → RuleFunction}
    (h : ∀ f f', C.nodes .ruleFunction f f' → C.nodes .ruleFunction (change f) (change' f')) :
    C.Coupled (fun _ _ => True) (Job.modifyRule change) (Job.modifyRule change') := by
  rintro ⟨⟨root, rules, alt, blocks, treeLevel⟩, ds, vs⟩
    ⟨⟨root', rules', alt', blocks', treeLevel'⟩, ds', vs'⟩ states
  have related : List.Forall₂ (C.nodes .ruleFunction) rules rules' := states.contexts.rules
  cases related with
  | nil => exact .failed (.fatal .ruleStackEmpty) states
  | cons first rest =>
      exact .ended trivial ⟨⟨.cons (h _ _ first) rest, states.contexts.alt, states.contexts.blocks,
        states.contexts.treeLevel⟩, states.diagnostics⟩

theorem coupled_declare (field : Field) : C.Coupled (fun _ _ => True)
    (Job.modifyRule (·.declare field)) (Job.modifyRule (·.declare field)) :=
  coupled_modifyRule fun _ _ => C.declare field

theorem coupled_mapM {job : α → Job β} {job' : α → Job γ} {Q : β → γ → Prop}
    (h : ∀ a, C.Coupled Q (job a) (job' a)) (as : List α) :
    C.Coupled (List.Forall₂ Q) (as.mapM job) (as.mapM job') := by
  induction as with
  | nil => exact coupled_pure .nil
  | cons a rest ih =>
      rw [List.mapM_cons, List.mapM_cons]
      exact (h a).bind fun b c first => ih.map fun bs cs others => .cons first others

end Coupling

/-- Both jobs enter the block of a choice and leave it. -/
theorem Coupling.Coupled.insideChoice {C : Coupling} {R : α → β → Prop} {job : Job α}
    {job' : Job β} (hjob : C.Coupled R job job') (decision : Option Nat) :
    C.Coupled R (RecognizerModel.insideChoice decision job)
      (RecognizerModel.insideChoice decision job') := by
  refine coupled_context fun before before' outside => ?_
  refine (coupled_modifyContext fun _ _ h => h.pushBlock decision).bind fun _ _ _ => ?_
  refine hjob.bind fun a b related => ?_
  exact (coupled_modifyContext fun _ _ h => h.leaveChoice outside).bind fun _ _ _ =>
    coupled_pure related

end RecognizerModel
