import RecognizerModel.Build.Model

/-! What the walk over a rule can do. It is put together from a few kinds of steps, none of which
looks at the file, at earlier diagnostics or at rules other than the innermost. -/
namespace RecognizerModel

/-- The same place in another file. -/
def Context.withRoot (root : Option RootInfo) (c : Context) : Context :=
  { c with root }

/-- Whether a change of where construction stands leaves the rules alone and does not look at the
file. -/
structure Context.Shift (change : Context → Context) : Prop where
  rules : ∀ c, (change c).rules = c.rules
  root : ∀ c root, change (c.withRoot root) = (change c).withRoot root

namespace Job

/-- Whether a job can come to its end with an answer. -/
def Answers (job : Job α) (a : α) : Prop :=
  ∃ s t, job s = (.ok a, t)

/-- Jobs of which every step concerns the rule under construction alone and which raise no fatal
errors but those of a cause. -/
inductive Local (Cause : BuildError → Prop) : {α : Type} → Job α → Prop
  | pure {α : Type} (a : α) : Local Cause (Pure.pure a : Job α)
  | andThen {α β : Type} {job : Job α} {next : α → Job β} :
      Local Cause job → (∀ a, job.Answers a → Local Cause (next a)) → Local Cause (job >>= next)
  | malformed {α : Type} (place : Place) (p : Option Point) (detail : String) :
      Local Cause (Job.malformed place p detail : Job α)
  | fatal {α : Type} {error : BuildError} : Cause error → Local Cause (Job.fatal error : Job α)
  /-- What is read must not hang on the file. -/
  | context {α : Type} {next : Context → Job α} :
      (∀ c, Local Cause (next c)) → (∀ c root, next (c.withRoot root) = next c) →
        Local Cause (Job.context >>= next)
  | modifyContext {change : Context → Context} :
      Context.Shift change → Local Cause (Job.modifyContext change)
  | within {α : Type} {enter leave : Context → Context} {job : Job α} :
      Context.Shift enter → Context.Shift leave → Local Cause job →
        Local Cause (Job.within enter leave job)
  | declare (field : Field) : Local Cause (Job.modifyRule (·.declare field))
  | report (d : Diagnostic) : Local Cause (Job.report d)
  | recordVisits (p : Point) (count : Nat) : Local Cause (Job.recordVisits p count)

theorem Local.bind {Cause : BuildError → Prop} {job : Job α} {next : α → Job β}
    (hjob : job.Local Cause) (hnext : ∀ a, (next a).Local Cause) :
    (job >>= next).Local Cause :=
  hjob.andThen fun a _ => hnext a

end Job

/-- The state of a job that did the same in another file, after other diagnostics and visits. -/
def JobState.after (s past : JobState) : JobState where
  context := s.context.withRoot past.context.root
  diagnostics := past.diagnostics ++ s.diagnostics
  visits := past.visits ++ s.visits

namespace Job

/-- Whether a job does the same whatever came before it. -/
def Framed (job : Job α) : Prop :=
  ∀ s past : JobState, job (s.after past) = ((job s).1, (job s).2.after past)

theorem framed_pure (a : α) : (Pure.pure a : Job α).Framed :=
  fun _ _ => rfl

theorem Framed.andThen {job : Job α} {next : α → Job β} (hjob : job.Framed)
    (hnext : ∀ a, job.Answers a → (next a).Framed) : (job >>= next).Framed := by
  intro s past
  rw [bind_run, bind_run, hjob s past]
  rcases hrun : job s with ⟨_ | a, t⟩
  · rfl
  · exact hnext a ⟨s, t, hrun⟩ t past

theorem Framed.bind {job : Job α} {next : α → Job β} (hjob : job.Framed)
    (hnext : ∀ a, (next a).Framed) : (job >>= next).Framed :=
  hjob.andThen fun a _ => hnext a

theorem framed_context_bind {next : Context → Job α} (hnext : ∀ c, (next c).Framed)
    (blind : ∀ c root, next (c.withRoot root) = next c) : (Job.context >>= next).Framed := by
  intro s past
  change next (s.context.withRoot past.context.root) (s.after past) = _
  rw [blind]
  exact hnext s.context s past

theorem framed_modifyContext {change : Context → Context}
    (blind : ∀ c root, change (c.withRoot root) = (change c).withRoot root) :
    (Job.modifyContext change).Framed := by
  intro s past
  simp only [Job.modifyContext, JobState.after, blind]

theorem framed_modifyRule (change : RuleFunction → RuleFunction) :
    (Job.modifyRule change).Framed := by
  rintro ⟨⟨root, rules, alt, blocks, treeLevel⟩, ds, vs⟩ past
  cases rules <;> rfl

theorem framed_popRule : Job.popRule.Framed := by
  rintro ⟨⟨root, rules, alt, blocks, treeLevel⟩, ds, vs⟩ past
  cases rules <;> rfl

theorem framed_report (d : Diagnostic) : (Job.report d).Framed := by
  intro s past
  simp only [Job.report, JobState.after, List.append_assoc]

theorem Framed.within {enter leave : Context → Context} {job : Job α}
    (henter : ∀ c root, enter (c.withRoot root) = (enter c).withRoot root)
    (hleave : ∀ c root, leave (c.withRoot root) = (leave c).withRoot root) (hjob : job.Framed) :
    (Job.within enter leave job).Framed := by
  intro s past
  have entered : { s.after past with context := enter (s.after past).context } =
      ({ s with context := enter s.context } : JobState).after past := by
    simp only [JobState.after, henter]
  simp only [Job.within, entered, hjob _ past]
  simp only [JobState.after, hleave]

theorem Framed.attempt {job : Job α} (hjob : job.Framed) : job.attempt.Framed := by
  intro s past
  unfold Job.attempt
  rw [hjob s past]
  rcases job s with ⟨(_ | _) | _, t⟩ <;> rfl

theorem Local.framed {Cause : BuildError → Prop} {job : Job α} (h : job.Local Cause) :
    job.Framed := by
  induction h with
  | pure a => exact framed_pure a
  | andThen _ _ hjob hnext => exact hjob.andThen hnext
  | malformed | fatal => exact fun _ _ => rfl
  | context _ blind hnext => exact framed_context_bind hnext blind
  | modifyContext shift => exact framed_modifyContext shift.root
  | within henter hleave _ hjob => exact hjob.within henter.root hleave.root
  | declare field => exact framed_modifyRule _
  | report d => exact framed_report d
  | recordVisits p count =>
      intro s past
      simp only [Job.recordVisits, JobState.after, List.append_assoc]

end Job

/-- Whether rules differ in the context of the innermost alone. -/
def SameButContext : List RuleFunction → List RuleFunction → Prop
  | [], after => after = []
  | f :: rest, after => ∃ context, after = { f with context } :: rest

theorem SameButContext.refl (rules : List RuleFunction) : SameButContext rules rules := by
  cases rules with
  | nil => rfl
  | cons f rest => exact ⟨f.context, rfl⟩

theorem SameButContext.trans {rules between after : List RuleFunction}
    (first : SameButContext rules between) (second : SameButContext between after) :
    SameButContext rules after := by
  cases rules with
  | nil =>
      cases first
      exact second
  | cons f rest =>
      obtain ⟨context, rfl⟩ := first
      exact second

theorem SameButContext.ne_nil {rules after : List RuleFunction} (same : SameButContext rules after)
    (h : rules ≠ []) : after ≠ [] := by
  cases rules with
  | nil => exact absurd rfl h
  | cons f rest =>
      obtain ⟨context, rfl⟩ := same
      exact List.cons_ne_nil _ _

/-- A local job leaves the stack of rules as it was, up to the context of the innermost, and that
also when it fails. -/
theorem Job.Local.sameButContext {Cause : BuildError → Prop} {job : Job α}
    (h : job.Local Cause) (s : JobState) :
    SameButContext s.context.rules (job s).2.context.rules := by
  induction h generalizing s with
  | pure | malformed | fatal | report | recordVisits => exact .refl _
  | @andThen _ _ job next _ _ hjob hnext =>
      have first := hjob s
      rw [Job.bind_run]
      rcases hrun : job s with ⟨_ | a, t⟩
      · simpa only [hrun] using first
      · rw [hrun] at first
        exact first.trans (hnext a ⟨s, t, hrun⟩ t)
  | context _ _ hnext => exact hnext s.context s
  | modifyContext shift =>
      rw [Job.modifyContext, shift.rules]
      exact .refl _
  | @within _ enter leave job henter hleave _ hjob =>
      have inner := hjob { s with context := enter s.context }
      rw [henter.rules] at inner
      rw [Job.within, hleave.rules]
      exact inner
  | declare field =>
      rcases s with ⟨⟨root, rules, alt, blocks, treeLevel⟩, ds, vs⟩
      cases rules with
      | nil => exact .refl _
      | cons f rest => exact ⟨_, rfl⟩

end RecognizerModel
