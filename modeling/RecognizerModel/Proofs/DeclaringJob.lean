import RecognizerModel.Proofs.CodeLeaves
import RecognizerModel.Proofs.LocalWalk

/-! Jobs that declare labels in the context of the rule under construction. -/
namespace RecognizerModel

def ContextDecl.fieldNames (ctx : ContextDecl) : List String :=
  ctx.fields.map Field.name

/-- The names of the context fields; none without a context. -/
def RuleFunction.fieldNames (f : RuleFunction) : List String :=
  (f.context.map ContextDecl.fieldNames).getD []

/-- The fields of the innermost rule; none outside of any. -/
def JobState.fieldNames (s : JobState) : List String :=
  (s.context.rule?.map RuleFunction.fieldNames).getD []

/-- Declaring a field keeps the names in the order of their first appearance. -/
theorem ContextDecl.fieldNames_declare {ctx : ContextDecl} {names : List String}
    (h : ctx.fieldNames = names.eraseDups) (field : Field) :
    (ctx.declare field).fieldNames = (names ++ [field.name]).eraseDups := by
  have known : ctx.fields.any (·.name == field.name) = true ↔ field.name ∈ names := by
    rw [← List.mem_eraseDups, ← h]
    simp [fieldNames]
  rw [List.eraseDups_append, ← h]
  unfold declare
  by_cases held : field.name ∈ names
  · rw [if_pos (known.mpr held)]
    simp [List.removeAll, held]
  · rw [if_neg (mt known.mp held)]
    simp [List.removeAll, held, fieldNames, List.eraseDups_cons]

theorem RuleFunction.fieldNames_declare {f : RuleFunction} {names : List String}
    (h : f.fieldNames = names.eraseDups) (field : Field) :
    (f.declare field).fieldNames = (names ++ [field.name]).eraseDups := by
  refine ContextDecl.fieldNames_declare ?_ field
  rw [← h, fieldNames]
  cases f.context <;> rfl

namespace Job

/-- Whether the fields of the rule are the same after a job that came to its end. -/
def KeepsFields (job : Job α) : Prop :=
  ∀ s a t, job s = (.ok a, t) → t.fieldNames = s.fieldNames

/-- Whether a job that comes to its end after certain labels were declared, behind whatever was
declared before those, has an answer for which certain labels have been declared. -/
def Declares (job : Job α) (before : List String) (post : α → List String → Prop) : Prop :=
  ∀ s a t base, s.fieldNames = (base ++ before).eraseDups → job s = (.ok a, t) →
    ∃ labels, post a labels ∧ t.fieldNames = (base ++ labels).eraseDups

/-- Whether a job declares the labels in its answer, of which `leaves` are the operations. -/
def DeclaresLabels (job : Job α) (leaves : α → List Op) : Prop :=
  job.Declares [] fun a labels => Op.Labeled (leaves a) labels

variable {before : List String} {post : α → List String → Prop}

theorem declares_pure {a : α} (h : post a before) : (Pure.pure a : Job α).Declares before post := by
  intro s b t base hs hrun
  cases hrun
  exact ⟨before, h, hs⟩

theorem declares_malformed (place : Place) (p : Option Point) (detail : String) :
    (Job.malformed place p detail : Job α).Declares before post :=
  fun _ _ _ _ _ hrun => nomatch hrun

theorem Declares.bind {job : Job β} {next : β → Job α} {mid : β → List String → Prop}
    (hjob : job.Declares before mid)
    (hnext : ∀ b labels, mid b labels → (next b).Declares labels post) :
    (job >>= next).Declares before post := by
  intro s a t base hs hrun
  obtain ⟨b, s', hfirst, hrest⟩ := exists_of_bind_ok hrun
  obtain ⟨labels, hmid, hs'⟩ := hjob s b s' base hs hfirst
  exact hnext b labels hmid s' a t base hs' hrest

theorem KeepsFields.bind {job : Job β} {next : β → Job α} (hjob : job.KeepsFields)
    (hnext : ∀ b, job.Answers b → (next b).Declares before post) :
    (job >>= next).Declares before post := by
  intro s a t base hs hrun
  obtain ⟨b, s', hfirst, hrest⟩ := exists_of_bind_ok hrun
  rw [← hjob s b s' hfirst] at hs
  exact hnext b ⟨s, s', hfirst⟩ s' a t base hs hrest

theorem keepsFields_pure (a : α) : (Pure.pure a : Job α).KeepsFields := by
  intro s b t hrun
  cases hrun
  rfl

theorem keepsFields_malformed (place : Place) (p : Option Point) (detail : String) :
    (Job.malformed place p detail : Job α).KeepsFields :=
  fun _ _ _ hrun => nomatch hrun

theorem KeepsFields.step {job : Job β} {next : β → Job α} (hjob : job.KeepsFields)
    (hnext : ∀ b, (next b).KeepsFields) : (job >>= next).KeepsFields := by
  intro s a t hrun
  obtain ⟨b, s', hfirst, hrest⟩ := exists_of_bind_ok hrun
  exact (hnext b s' a t hrest).trans (hjob s b s' hfirst)

theorem keepsFields_context {next : Context → Job α} (h : ∀ c, (next c).KeepsFields) :
    (Job.context >>= next).KeepsFields :=
  fun s => h s.context s

theorem KeepsFields.declares {job : Job α} (hjob : job.KeepsFields)
    (h : ∀ a, job.Answers a → post a before) : job.Declares before post := by
  intro s a t base hs hrun
  exact ⟨before, h a ⟨s, t, hrun⟩, (hjob s a t hrun).trans hs⟩

/-- What a job declares comes behind the labels that are there already. -/
theorem DeclaresLabels.after {job : Job α} {leaves : α → List Op} {others : List Op}
    (hjob : job.DeclaresLabels leaves) (h : Op.Labeled others before) :
    job.Declares before fun a labels => Op.Labeled (others ++ leaves a) labels := by
  intro s a t base hs hrun
  rw [← List.append_nil (base ++ before)] at hs
  obtain ⟨own, labeled, ht⟩ := hjob s a t (base ++ before) hs hrun
  rw [List.append_assoc] at ht
  exact ⟨before ++ own, h.append labeled, ht⟩

/-- Two jobs in a row declare what both answers carry. -/
theorem DeclaresLabels.both {job : Job α} {other : Job β} {make : α → β → γ}
    {left : α → List Op} {right : β → List Op} {leaves : γ → List Op}
    (hjob : job.DeclaresLabels left) (hother : other.DeclaresLabels right)
    (split : ∀ a b, leaves (make a b) = left a ++ right b) :
    (do let a ← job
        let b ← other
        return make a b).DeclaresLabels leaves := by
  refine hjob.bind fun a labels first => (hother.after first).bind fun b labels both => ?_
  exact declares_pure (by rwa [split])

theorem DeclaresLabels.map {job : Job α} {make : α → β} {left : α → List Op}
    {leaves : β → List Op} (hjob : job.DeclaresLabels left)
    (same : ∀ a, leaves (make a) = left a) : (do return make (← job)).DeclaresLabels leaves :=
  hjob.bind fun a labels labeled => declares_pure (by rwa [same])

theorem declaresLabels_mapM {job : α → Job (List Op)}
    (hjob : ∀ a, (job a).DeclaresLabels Op.leavesIn) (as : List α) :
    (as.mapM job).DeclaresLabels Op.leavesInEach := by
  induction as with
  | nil => exact declares_pure .nil
  | cons a rest ih =>
      rw [List.mapM_cons]
      exact (hjob a).both ih fun _ _ => rfl

theorem declares_context {next : Context → Job α} (h : ∀ c, (next c).Declares before post) :
    (Job.context >>= next).Declares before post :=
  fun s => h s.context s

theorem keepsFields_modifyContext {change : Context → Context} (shift : Context.Shift change) :
    (Job.modifyContext change).KeepsFields := by
  intro s a t hrun
  cases hrun
  unfold JobState.fieldNames Context.rule?
  rw [shift.rules]

theorem keepsFields_report (d : Diagnostic) : (Job.report d).KeepsFields := by
  intro s a t hrun
  cases hrun
  rfl

theorem keepsFields_recordVisits (p : Point) (count : Nat) :
    (Job.recordVisits p count).KeepsFields := by
  intro s a t hrun
  cases hrun
  rfl

theorem Declares.within {enter leave : Context → Context} {job : Job α}
    (henter : Context.Shift enter) (hleave : Context.Shift leave)
    (hjob : job.Declares before post) : (Job.within enter leave job).Declares before post := by
  intro s a t base hs hrun
  unfold Job.within at hrun
  rcases hbody : job { s with context := enter s.context } with ⟨answer, s'⟩
  rw [hbody] at hrun
  cases hrun
  have entered : ({ s with context := enter s.context } : JobState).fieldNames =
      (base ++ before).eraseDups := by
    rw [← hs]
    unfold JobState.fieldNames Context.rule?
    rw [henter.rules]
  obtain ⟨labels, hpost, hs'⟩ := hjob _ a s' base entered hbody
  refine ⟨labels, hpost, ?_⟩
  rw [← hs']
  unfold JobState.fieldNames Context.rule?
  rw [hleave.rules]

theorem declares_declare (field : Field) :
    (Job.modifyRule (·.declare field)).Declares before fun _ labels =>
      labels = before ++ [field.name] := by
  rintro ⟨⟨root, rules, alt, blocks, treeLevel⟩, ds, vs⟩ a t base hs hrun
  cases rules with
  | nil => cases hrun
  | cons f rest =>
      cases hrun
      refine ⟨before ++ [field.name], rfl, ?_⟩
      rw [← List.append_assoc]
      exact RuleFunction.fieldNames_declare hs field

end Job

end RecognizerModel
