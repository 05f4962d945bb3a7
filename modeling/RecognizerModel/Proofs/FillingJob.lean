import RecognizerModel.Proofs.DeclaredFields
import RecognizerModel.Proofs.ReachedSites

/-! What jobs do to the rule under construction, whether they come to their end or break off. They
declare fields in its context, one behind the other, and nothing takes a field back. -/
namespace RecognizerModel

namespace Job

/-- Whether a job leaves all rules as they are. -/
def KeepsRules (job : Job α) : Prop :=
  ∀ s, (job s).2.context.rules = s.context.rules

/-- Whether a job that starts at a spot declares certain fields in the rule under construction. -/
def Fills (job : Job α) (spot : Spot) (fields : List Field) : Prop :=
  ∀ s, s.context.StandsAt spot →
    (job s).2.context.rules = s.context.rules.modifyHead (·.declareAll fields)

theorem keepsRules_pure (a : α) : (Pure.pure a : Job α).KeepsRules :=
  fun _ => rfl

theorem keepsRules_malformed (place : Place) (p : Option Point) (detail : String) :
    (Job.malformed place p detail : Job α).KeepsRules :=
  fun _ => rfl

theorem keepsRules_fatal (error : BuildError) : (Job.fatal error : Job α).KeepsRules :=
  fun _ => rfl

theorem keepsRules_report (d : Diagnostic) : (Job.report d).KeepsRules :=
  fun _ => rfl

theorem keepsRules_recordVisits (p : Point) (count : Nat) :
    (Job.recordVisits p count).KeepsRules :=
  fun _ => rfl

theorem keepsRules_modifyContext {change : Context → Context} (shift : Context.Shift change) :
    (Job.modifyContext change).KeepsRules :=
  fun s => shift.rules s.context

theorem keepsRules_context {next : Context → Job α} (h : ∀ c, (next c).KeepsRules) :
    (Job.context >>= next).KeepsRules :=
  fun s => h s.context s

theorem KeepsRules.bind {job : Job β} {next : β → Job α} (hjob : job.KeepsRules)
    (hnext : ∀ b, (next b).KeepsRules) : (job >>= next).KeepsRules := by
  intro s
  have first := hjob s
  rw [bind_run]
  rcases hrun : job s with ⟨failure | b, t⟩
  · rw [hrun] at first
    exact first
  · rw [hrun] at first
    exact (hnext b t).trans first

theorem KeepsRules.within {enter leave : Context → Context} {job : Job α}
    (henter : Context.Shift enter) (hleave : Context.Shift leave) (hjob : job.KeepsRules) :
    (Job.within enter leave job).KeepsRules := by
  intro s
  have inside := hjob { s with context := enter s.context }
  rw [henter.rules] at inside
  rw [Job.within, hleave.rules]
  exact inside

theorem keepsRules_mapM {job : α → Job β} (hjob : ∀ a, (job a).KeepsRules) (as : List α) :
    (as.mapM job).KeepsRules := by
  induction as with
  | nil => exact keepsRules_pure _
  | cons a rest ih =>
      rw [List.mapM_cons]
      exact (hjob a).bind fun _ => ih.bind fun _ => keepsRules_pure _

variable {spot : Spot} {between : List String} {fields more : List Field}

theorem KeepsRules.fills {job : Job α} (hjob : job.KeepsRules) : job.Fills spot [] := by
  intro s _
  have same : (fun f : RuleFunction => f.declareAll []) = id := rfl
  rw [hjob s, same, List.modifyHead_id, id]

theorem fills_declare (field : Field) :
    (Job.modifyRule (·.declare field)).Fills spot [field] := by
  rintro ⟨⟨root, rules, alt, blocks, treeLevel⟩, ds, vs⟩ stands
  cases rules with
  | nil => exact absurd rfl stands.rules
  | cons f rest => rfl

/-- What comes behind a job declares its fields if it is come to. -/
theorem Fills.bind {job : Job α} {next : α → Job β} {result : Translated α}
    (hjob : job.Fills spot fields) (follows : job.Follows spot result between)
    (hnext : ∀ a, result = .ok a → (next a).Fills { spot with refs := between } more) :
    (job >>= next).Fills spot (fields ++ result.behind more) := by
  intro s stands
  have first := hjob s stands
  have run := follows s stands
  rw [bind_run]
  rcases hrun : job s with ⟨answer, t⟩
  rw [hrun] at first run
  cases result with
  | ok a =>
      obtain ⟨rfl, stands'⟩ := run
      have both : (fun f : RuleFunction => f.declareAll (fields ++ more)) =
          (·.declareAll more) ∘ (·.declareAll fields) := by
        funext f
        exact f.declareAll_append fields more
      have second := hnext a rfl t stands'
      rw [first, List.modifyHead_modifyHead, ← both] at second
      exact second
  | error construct =>
      obtain rfl : answer = _ := run
      simpa [Translated.behind] using first

theorem Fills.andThen {job : Job α} {next : α → Job β} (hjob : job.Fills spot fields)
    (hnext : ∀ a, (next a).KeepsRules) : (job >>= next).Fills spot fields := by
  intro s stands
  have first := hjob s stands
  rw [bind_run]
  rcases hrun : job s with ⟨failure | a, t⟩
  · rw [hrun] at first
    exact first
  · rw [hrun] at first
    exact (hnext a t).trans first

/-- A step of which it is known what it answers, and that leaves the rules alone. -/
theorem KeepsRules.step {job : Job α} {next : α → Job β} {a : α} (hjob : job.KeepsRules)
    (follows : job.Follows spot (.ok a) between)
    (hnext : (next a).Fills { spot with refs := between } fields) :
    (job >>= next).Fills spot fields := by
  refine hjob.fills.bind follows fun b h => ?_
  cases h
  exact hnext

/-- What comes behind a job that breaks off is not come to. -/
theorem KeepsRules.stops {job : Job α} {construct : Malformed} (hjob : job.KeepsRules)
    (follows : job.Follows spot (.error construct) between) (next : α → Job β) :
    (job >>= next).Fills spot [] := by
  have none : ∀ a, (Except.error construct : Translated α) = .ok a →
      (next a).Fills { spot with refs := between } [] := nofun
  exact hjob.fills.bind follows none

/-- The same of the fields of sites. -/
theorem Fills.bind_sites {job : Job α} {next : α → Job β} {result : Translated α}
    {field? : ReferenceSite → Option Field} {sites others : List ReferenceSite}
    (hjob : job.Fills spot (sites.filterMap field?)) (follows : job.Follows spot result between)
    (hnext : ∀ a, (next a).Fills { spot with refs := between } (others.filterMap field?)) :
    (job >>= next).Fills spot ((sites ++ result.behind others).filterMap field?) := by
  rw [List.filterMap_append, Translated.filterMap_behind]
  exact hjob.bind follows fun a _ => hnext a

end Job

end RecognizerModel
