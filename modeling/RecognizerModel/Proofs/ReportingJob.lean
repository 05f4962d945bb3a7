import RecognizerModel.Proofs.LocalWalk
import RecognizerModel.Proofs.Parts

/-! Jobs that report on the rule under construction: which warnings they give on their way, and
what kind of construct they may end at. -/
namespace RecognizerModel

/-- Whether a construct is malformed for a token that is not in the vocabulary. -/
def Malformed.IsUnknownToken (c : Malformed) : Prop :=
  ∃ name : String, c.detail = s!"token `{name}` is not in the vocabulary"

/-- Whether a construct is malformed at a span with a property, but not for an unknown token. -/
structure Malformed.FaultIn (P : Span → Prop) (c : Malformed) : Prop where
  span : P c.place.span
  known : ¬c.IsUnknownToken

theorem Malformed.faultIn_of_take {P : Span → Prop} {place : Place} {p : Option Point}
    {detail : String} (span : P place.span) (other : detail.toList.take 7 ≠ "token `".toList) :
    FaultIn P ⟨place, p, detail⟩ := by
  refine ⟨span, ?_⟩
  rintro ⟨name, same⟩
  obtain rfl : detail = _ := same
  simp [toString] at other

/-- The warning about a site without a classified decision. -/
def ChoiceSite.warning? (g : Grammar) (rule : String) (site : ChoiceSite) : Option Diagnostic :=
  match site.decision with
  | none => some (.ofUnclassified rule site.place.span "block has no decision number")
  | some n =>
    match g.classify n with
    | none => some (.ofUnclassified rule site.place.span s!"decision {n} has no classification")
    | some _ => none

theorem ChoiceSite.exists_of_warning? {g : Grammar} {rule : String} {site : ChoiceSite}
    {d : Diagnostic} (h : site.warning? g rule = some d) :
    ∃ detail, d = .ofUnclassified rule site.place.span detail := by
  unfold warning? at h
  split at h
  · exact ⟨_, (Option.some.inj h).symm⟩
  · split at h
    · exact ⟨_, (Option.some.inj h).symm⟩
    · cases h

/-- The warnings about the parts of a rule, in order; a rewrite has none. -/
def Part.warnings (g : Grammar) (rule : String) (parts : List Part) : List Diagnostic :=
  parts.filterMap fun part => part.choice?.bind fun choice => choice.1.warning? g rule

theorem Part.warnings_append (g : Grammar) (rule : String) (parts others : List Part) :
    warnings g rule (parts ++ others) = warnings g rule parts ++ warnings g rule others :=
  List.filterMap_append

theorem Part.warnings_rewrite (g : Grammar) (rule : String) (blocks trees : Nat)
    (rewrite : Option Rewrite) : warnings g rule
      ((rewrite.map fun rewrite => (rewrite.parts blocks trees).map .rewrite).getD []) = [] := by
  cases rewrite with
  | none => rfl
  | some rewrite =>
      rw [Option.map_some, Option.getD_some, warnings, List.filterMap_map]
      exact List.filterMap_eq_nil_iff.mpr fun _ _ => rfl

theorem Part.warnings_ofCount (g : Grammar) (rule : String) {least count : Nat}
    (enough : least ≤ count) (site : ChoiceSite) :
    warnings g rule (ofCount least site count) = (site.warning? g rule).toList := by
  rw [ofCount, if_pos enough, warnings, List.filterMap_cons]
  cases h : site.warning? g rule <;> simp [choice?, h]

theorem Context.Shift.ruleName {change : Context → Context} (shift : Shift change) (c : Context) :
    (change c).ruleName = c.ruleName := by
  unfold Context.ruleName Context.rule?
  rw [shift.rules]

namespace Job

/-- Whether a job, run while a rule is under construction, stays with the rule and reports certain
diagnostics: all of them if it comes to its end, and the first of them if it fails. A malformed
construct that it ends at is at fault in some way. -/
def Reports (job : Job α) (rule : String) (Fault : Malformed → Prop) (told : List Diagnostic) :
    Prop :=
  ∀ s, s.context.ruleName = rule →
    match job s with
    | (.ok _, t) => t.context.ruleName = rule ∧ t.diagnostics = s.diagnostics ++ told
    | (.error failure, t) => (∃ first, first <+: told ∧ t.diagnostics = s.diagnostics ++ first) ∧
        ∀ c, failure = .malformed c → Fault c

variable {rule : String} {Fault : Malformed → Prop} {told others : List Diagnostic}

theorem reports_pure (a : α) : (Pure.pure a : Job α).Reports rule Fault [] :=
  fun _ inRule => ⟨inRule, (List.append_nil _).symm⟩

theorem reports_malformed {place : Place} {p : Option Point} {detail : String}
    (h : Fault ⟨place, p, detail⟩) :
    (Job.malformed place p detail : Job α).Reports rule Fault told := by
  refine fun s _ => ⟨⟨[], List.nil_prefix, (List.append_nil _).symm⟩, fun c same => ?_⟩
  cases same
  exact h

theorem reports_fatal (error : BuildError) :
    (Job.fatal error : Job α).Reports rule Fault told :=
  fun _ _ => ⟨⟨[], List.nil_prefix, (List.append_nil _).symm⟩, fun c same => by cases same⟩

theorem Reports.bind {job : Job β} {next : β → Job α} (hjob : job.Reports rule Fault told)
    (hnext : ∀ b, (next b).Reports rule Fault others) :
    (job >>= next).Reports rule Fault (told ++ others) := by
  intro s inRule
  have run := hjob s inRule
  rw [bind_run]
  rcases hfirst : job s with ⟨failure | b, s'⟩ <;> rw [hfirst] at run
  · obtain ⟨⟨first, isFirst, hs'⟩, fault⟩ := run
    exact ⟨⟨first, isFirst.trans (List.prefix_append _ _), hs'⟩, fault⟩
  · obtain ⟨inRule', hs'⟩ := run
    have rest := hnext b s' inRule'
    dsimp only
    rcases hrest : next b s' with ⟨failure | a, t⟩ <;> rw [hrest] at rest
    · obtain ⟨⟨first, isFirst, ht⟩, fault⟩ := rest
      refine ⟨⟨told ++ first, (List.prefix_append_right_inj told).mpr isFirst, ?_⟩, fault⟩
      rw [ht, hs', List.append_assoc]
    · obtain ⟨inRule'', ht⟩ := rest
      exact ⟨inRule'', by rw [ht, hs', List.append_assoc]⟩

/-- A job that reports nothing by itself leaves everything to the one behind it. -/
theorem Reports.andThen {job : Job β} {next : β → Job α} (hjob : job.Reports rule Fault [])
    (hnext : ∀ b, (next b).Reports rule Fault told) : (job >>= next).Reports rule Fault told :=
  hjob.bind hnext

/-- Behind a job comes one that reports nothing by itself. -/
theorem Reports.before {job : Job β} {next : β → Job α} (hjob : job.Reports rule Fault told)
    (hnext : ∀ b, (next b).Reports rule Fault []) : (job >>= next).Reports rule Fault told := by
  have both := hjob.bind hnext
  rwa [List.append_nil] at both

theorem Reports.map {job : Job β} (hjob : job.Reports rule Fault told) (make : β → α) :
    (do return make (← job)).Reports rule Fault told :=
  hjob.before fun b => reports_pure (make b)

/-- A job that is attempted leaves what it reported, and its fault if it failed. -/
theorem Reports.of_attempt {job : Job α} (hjob : job.Reports rule Fault told) {s t : JobState}
    {result : Except Malformed α} (inRule : s.context.ruleName = rule)
    (h : job.attempt s = (.ok result, t)) :
    ∃ first, first <+: told ∧ t.diagnostics = s.diagnostics ++ first ∧
      (∀ a, result = .ok a → first = told) ∧ ∀ c, result = .error c → Fault c := by
  have run := hjob s inRule
  unfold attempt at h
  rcases hrun : job s with ⟨(error | construct) | a, s'⟩ <;> rw [hrun] at h run <;> cases h
  · obtain ⟨⟨first, isFirst, hs'⟩, fault⟩ := run
    refine ⟨first, isFirst, hs', nofun, fun c same => ?_⟩
    cases same
    exact fault construct rfl
  · exact ⟨told, List.prefix_refl told, run.2, fun _ _ => rfl, fun c same => by cases same⟩

theorem reports_context {next : Context → Job α}
    (h : ∀ c, c.ruleName = rule → (next c).Reports rule Fault told) :
    (Job.context >>= next).Reports rule Fault told :=
  fun s inRule => h s.context inRule s inRule

theorem reports_modifyContext {change : Context → Context} (shift : Context.Shift change) :
    (Job.modifyContext change).Reports rule Fault [] :=
  fun s inRule => ⟨(shift.ruleName s.context).trans inRule, (List.append_nil _).symm⟩

theorem reports_report (d : Diagnostic) : (Job.report d).Reports rule Fault [d] :=
  fun _ inRule => ⟨inRule, rfl⟩

theorem reports_recordVisits (p : Point) (count : Nat) :
    (Job.recordVisits p count).Reports rule Fault [] :=
  fun _ inRule => ⟨inRule, (List.append_nil _).symm⟩

theorem Reports.within {enter leave : Context → Context} {job : Job α}
    (henter : Context.Shift enter) (hleave : Context.Shift leave)
    (hjob : job.Reports rule Fault told) :
    (Job.within enter leave job).Reports rule Fault told := by
  intro s inRule
  have run := hjob { s with context := enter s.context } ((henter.ruleName _).trans inRule)
  unfold Job.within
  rcases hbody : job { s with context := enter s.context } with ⟨failure | a, s'⟩ <;>
    rw [hbody] at run
  · exact run
  · exact ⟨(hleave.ruleName _).trans run.1, run.2⟩

theorem reports_declare (field : Field) :
    (Job.modifyRule (·.declare field)).Reports rule Fault [] := by
  rintro ⟨⟨root, rules, alt, blocks, treeLevel⟩, ds, vs⟩ inRule
  cases rules with
  | nil =>
      exact ⟨⟨[], List.nil_prefix, (List.append_nil _).symm⟩, fun c same => by cases same⟩
  | cons f rest => exact ⟨inRule, (List.append_nil _).symm⟩

theorem reports_mapM {job : α → Job β} (hjob : ∀ a, (job a).Reports rule Fault [])
    (as : List α) : (as.mapM job).Reports rule Fault [] := by
  induction as with
  | nil => exact reports_pure _
  | cons a rest ih =>
      rw [List.mapM_cons]
      exact (hjob a).andThen fun _ => ih.andThen fun _ => reports_pure _

end Job

end RecognizerModel
