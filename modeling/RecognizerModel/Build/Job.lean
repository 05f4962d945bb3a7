import RecognizerModel.Build.Context
import RecognizerModel.Build.Diagnostic
import RecognizerModel.Build.TreeBuilding

/-!
Jobs: computations that build parts of a model. A job has a state that outlives its failures, so
what a failed job has begun can still be seen afterwards. What does not change while a job runs is
its setup.
-/
namespace RecognizerModel

structure Config where
  target : Option Target
  /-- Check what extensions hand back. -/
  validate : Bool := true
  /-- Put the tree building extension in front. -/
  treeBuilding : Bool := false

structure Setup where
  grammar : Grammar
  /-- Names files and the contexts of the rules that are built. -/
  target : Target
  /-- Names labels and the contexts of the rules that are invoked. -/
  labelTarget : Target := target
  chain : Chain

/-- The setup for a grammar under a configuration, with its extensions in order. -/
def Setup.ofConfig (g : Grammar) (config : Config) (extensions : List Extension) :
    Except BuildError Setup :=
  match config.target with
  | none => .error .missingTarget
  | some target =>
    let first := if config.treeBuilding then [Extension.treeBuilding] else []
    .ok { grammar := g, target, chain := ⟨first ++ extensions, config.validate⟩ }

/-- An extension, by its place in the chain, was called at a point. -/
structure Visit where
  extension : Nat
  point : Point
deriving DecidableEq, Repr, Inhabited

structure JobState where
  context : Context
  /-- The diagnostics that no model has taken yet, in order. -/
  diagnostics : List Diagnostic
  /-- The calls of extensions, in order. -/
  visits : List Visit
deriving Inhabited

def JobState.empty : JobState :=
  ⟨.empty, [], []⟩

def Job (α : Type) : Type :=
  JobState → Except Failure α × JobState

namespace Job

def pure (a : α) : Job α :=
  fun s => (.ok a, s)

def bind (job : Job α) (next : α → Job β) : Job β := fun s =>
  match job s with
  | (.ok a, s) => next a s
  | (.error failure, s) => (.error failure, s)

instance : Monad Job where
  pure := Job.pure
  bind := Job.bind

@[simp] theorem pure_run (a : α) (s : JobState) : (Pure.pure a : Job α) s = (.ok a, s) := rfl

theorem bind_run (job : Job α) (next : α → Job β) (s : JobState) :
    (job >>= next) s = match job s with
      | (.ok a, s) => next a s
      | (.error failure, s) => (.error failure, s) := rfl

instance : LawfulMonad Job := LawfulMonad.mk' Job
  (by
    intro α job
    funext s
    change (job >>= fun a => Pure.pure a) s = job s
    simp only [bind_run]
    rcases job s with ⟨_ | _, _⟩ <;> rfl)
  (fun _ _ => rfl)
  (by
    intro α β γ job next last
    funext s
    simp only [bind_run]
    rcases job s with ⟨_ | _, _⟩ <;> rfl)

def fail (failure : Failure) : Job α :=
  fun s => (.error failure, s)

def fatal (error : BuildError) : Job α :=
  fail (.fatal error)

def malformed (place : Place) (point : Option Point) (detail : String) : Job α :=
  fail (.malformed ⟨place, point, detail⟩)

/-- Runs a job that may meet a malformed construct; fatal errors stay failures. -/
def attempt (job : Job α) : Job (Except Malformed α) := fun s =>
  match job s with
  | (.ok a, s) => (.ok (.ok a), s)
  | (.error (.malformed construct), s) => (.ok (.error construct), s)
  | (.error (.fatal error), s) => (.error (.fatal error), s)

def context : Job Context :=
  fun s => (.ok s.context, s)

def modifyContext (change : Context → Context) : Job Unit :=
  fun s => (.ok (), { s with context := change s.context })

/-- Runs a job with the context changed before it and changed back after it, even if it fails. -/
def within (enter leave : Context → Context) (job : Job α) : Job α := fun s =>
  let (result, s) := job { s with context := enter s.context }
  (result, { s with context := leave s.context })

/-- Changes the rule under construction. -/
def modifyRule (change : RuleFunction → RuleFunction) : Job Unit := fun s =>
  match s.context.modifyRule? change with
  | some context => (.ok (), { s with context })
  | none => (.error (.fatal .ruleStackEmpty), s)

/-- Takes the rule under construction off the stack. -/
def popRule : Job RuleFunction := fun s =>
  match s.context.popRule? with
  | some (f, context) => (.ok f, { s with context })
  | none => (.error (.fatal .ruleStackEmpty), s)

def report (d : Diagnostic) : Job Unit :=
  fun s => (.ok (), { s with diagnostics := s.diagnostics ++ [d] })

/-- Hands over the pending diagnostics. -/
def takeDiagnostics : Job (List Diagnostic) :=
  fun s => (.ok s.diagnostics, { s with diagnostics := [] })

/-- Records that the first `count` extensions were called at a point. -/
def recordVisits (p : Point) (count : Nat) : Job Unit := fun s =>
  (.ok (), { s with visits := s.visits ++ (List.range count).map (⟨·, p⟩) })

end Job

namespace Setup

/-- Shows a node to the extensions. -/
def visit (setup : Setup) (p : Point) (node : p.Node) : Job p.Node := do
  let passage := setup.chain.fold p p.anchor? node
  Job.recordVisits p passage.seen
  match passage.outcome with
  | .ok node => return node
  | .error error => Job.fatal error

end Setup

end RecognizerModel
