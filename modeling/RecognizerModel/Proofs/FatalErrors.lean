import RecognizerModel.Proofs.RuleIsolation

/-! Which fatal errors end a parser job. A grammar may not support a parser or have no rules for
one; apart from that a job comes to its end, unless an extension breaks its contract. There is
always a rule on the stack when one is asked for. -/
namespace RecognizerModel

namespace Job

/-- With a rule on the stack a local job ends with no fatal error but those of its cause. -/
theorem Local.cause_of_fatal {Cause : BuildError → Prop} {job : Job α} (h : job.Local Cause)
    {s t : JobState} {error : BuildError} (inRule : s.context.rules ≠ [])
    (hrun : job s = (.error (.fatal error), t)) : Cause error := by
  induction h generalizing s t with
  | pure | malformed | modifyContext | report | recordVisits => cases hrun
  | fatal cause =>
      cases hrun
      exact cause
  | @andThen _ _ job next hlocal _ hjob hnext =>
      rw [bind_run] at hrun
      rcases hfirst : job s with ⟨_ | a, s'⟩
      · rw [hfirst] at hrun
        cases hrun
        exact hjob inRule hfirst
      · rw [hfirst] at hrun
        have same := hlocal.sameButContext s
        rw [hfirst] at same
        exact hnext a ⟨s, s', hfirst⟩ (same.ne_nil inRule) hrun
  | context _ _ hnext => exact hnext s.context inRule hrun
  | @within _ enter leave job henter _ _ hjob =>
      have inside : (enter s.context).rules ≠ [] := by rwa [henter.rules]
      unfold Job.within at hrun
      rcases hbody : job { s with context := enter s.context } with ⟨answer, s'⟩
      rw [hbody] at hrun
      cases hrun
      exact hjob inside hbody
  | declare field =>
      -- the one step that asks for a rule, and there is one
      obtain ⟨⟨root, rules, alt, blocks, treeLevel⟩, ds, vs⟩ := s
      cases rules with
      | nil => exact absurd rfl inRule
      | cons f rest => cases hrun

/-- Whether a job fails from a state only with fatal errors of a cause. -/
def Raises (job : Job α) (Cause : BuildError → Prop) (s : JobState) : Prop :=
  ∀ failure t, job s = (.error failure, t) → ∃ error, failure = .fatal error ∧ Cause error

variable {Cause : BuildError → Prop} {s : JobState}

theorem raises_of_ok {job : Job α} {a : α} {t : JobState} (h : job s = (.ok a, t)) :
    job.Raises Cause s := by
  intro failure t' hrun
  rw [h] at hrun
  cases hrun

theorem raises_pure (a : α) : (Pure.pure a : Job α).Raises Cause s :=
  raises_of_ok rfl

theorem raises_modifyContext (change : Context → Context) :
    (Job.modifyContext change).Raises Cause s :=
  raises_of_ok rfl

theorem raises_recordVisits (p : Point) (count : Nat) :
    (Job.recordVisits p count).Raises Cause s :=
  raises_of_ok rfl

theorem raises_takeDiagnostics : Job.takeDiagnostics.Raises Cause s :=
  raises_of_ok rfl

theorem Raises.bind {job : Job α} {next : α → Job β} (hjob : job.Raises Cause s)
    (hnext : ∀ a t, job s = (.ok a, t) → (next a).Raises Cause t) :
    (job >>= next).Raises Cause s := by
  intro failure t hrun
  rw [bind_run] at hrun
  rcases hfirst : job s with ⟨cause | a, s'⟩
  · rw [hfirst] at hrun
    cases hrun
    exact hjob failure t hfirst
  · rw [hfirst] at hrun
    exact hnext a s' hfirst failure t hrun

/-- A malformed construct is caught. -/
theorem Local.raises_attempt {job : Job α} (h : job.Local Cause) (inRule : s.context.rules ≠ []) :
    job.attempt.Raises Cause s := by
  intro failure t hrun
  unfold attempt at hrun
  rcases hjob : job s with ⟨(error | construct) | a, s'⟩ <;> rw [hjob] at hrun <;> cases hrun
  exact ⟨error, rfl, h.cause_of_fatal inRule hjob⟩

end Job

namespace Setup

open Job (Raises)

variable (setup : Setup) {s : JobState}

theorem raises_visit (p : Point) (node : p.Node)
    (held : setup.chain.validate = true → p.Anchored node) :
    (setup.visit p node).Raises setup.Breach s := by
  refine (Job.raises_recordVisits p _).bind fun _ _ _ => ?_
  split
  · exact Job.raises_pure _
  · next error h =>
    intro failure t hrun
    cases hrun
    exact ⟨error, rfl, breach_of_fold held h⟩

theorem raises_closeRule (rule : Rule) (outcome : RuleOutcome) (inRule : s.context.rules ≠ []) :
    (setup.closeRule rule outcome).Raises setup.Breach s := by
  refine (Job.raises_modifyContext _).bind fun _ s₁ hreset => ?_
  cases hreset
  refine (setup.raises_visit .rulePostamble _ nofun).bind fun postamble s₂ hpostamble => ?_
  obtain ⟨visits, rfl⟩ := eq_of_visit_ok hpostamble
  obtain ⟨f, rest, hrules⟩ := List.exists_cons_of_ne_nil inRule
  have hpop : Job.popRule ⟨s.context.resetRuleState, s.diagnostics, visits⟩ =
      (.ok f, ⟨{ s.context.resetRuleState with rules := rest }, s.diagnostics, visits⟩) := by
    simp only [Job.popRule, Context.popRule?, Context.resetRuleState, hrules]
  exact (Job.raises_of_ok hpop).bind fun _ _ _ => Job.raises_pure _

theorem raises_settle {Cause : BuildError → Prop} (name : String)
    (result : Except Malformed (List Op)) (inRule : s.context.rules ≠ []) :
    (settle name result).Raises Cause s := by
  obtain ⟨⟨root, rules, alt, blocks, treeLevel⟩, ds, vs⟩ := s
  obtain ⟨f, rest, rfl⟩ := List.exists_cons_of_ne_nil inRule
  cases result <;> exact Job.raises_of_ok rfl

/-- A rule that is built ends the job only by a breach of contract. -/
theorem raises_buildRule (rule : Rule) (index : Nat) :
    (setup.buildRule setup.walkRule rule index).Raises setup.Breach s := by
  rw [buildRule_eq]
  refine (setup.raises_visit .rule _ nofun).bind fun f s₁ _ => ?_
  refine (Job.raises_modifyContext _).bind fun _ s₂ hpush => ?_
  have pushed : s₂.context.rules ≠ [] := by
    cases hpush
    exact List.cons_ne_nil _ _
  have hlocal := setup.walkRule_local rule
  refine (hlocal.raises_attempt pushed).bind fun result s₃ hwalk => ?_
  have walked : s₃.context.rules ≠ [] := by
    rw [Job.state_of_attempt_ok hwalk]
    exact (hlocal.sameButContext s₂).ne_nil pushed
  refine (raises_settle (rule.name.getD "") result walked).bind fun outcome s₄ hsettle => ?_
  have settled : s₄.context.rules ≠ [] := by
    rw [← List.length_pos_iff] at walked ⊢
    rwa [length_rules_of_settle hsettle]
  exact setup.raises_closeRule rule outcome settled

theorem raises_buildRules (index : Nat) (rules : List Rule) :
    (setup.buildRules setup.walkRule index rules).Raises setup.Breach s := by
  induction rules generalizing index s with
  | nil => exact Job.raises_pure _
  | cons rule rest ih =>
      refine (setup.raises_buildRule rule index).bind fun built s' _ => ?_
      exact (ih (index + 1)).bind fun _ _ _ => Job.raises_pure _

/-- Behind the checks only the extensions can end a job. -/
theorem raises_parserModel (h : setup.checkJob .parser s = (.ok (), s)) :
    setup.parserModel.Raises setup.Breach s := by
  refine (Job.raises_of_ok h).bind fun _ s₁ _ => ?_
  refine (setup.raises_visit .parserFile _ nofun).bind fun file s₂ _ => ?_
  refine (Job.raises_modifyContext _).bind fun _ s₃ _ => ?_
  refine (setup.raises_visit .parser _ nofun).bind fun table s₄ _ => ?_
  refine (setup.raises_buildRules 0 _).bind fun built s₅ _ => ?_
  exact Job.raises_takeDiagnostics.bind fun _ _ _ => Job.raises_pure _

/-- Without support for a parser, or without rules for one, the checks end the job at once. -/
theorem checkJob_parser_eq (s : JobState) :
    setup.checkJob .parser s =
      if setup.grammar.kind.supports .parser = false then
        (.error (.fatal (.unsupportedRecognizer setup.grammar.name setup.grammar.kind .parser)), s)
      else if setup.grammar.rulesFor .parser = [] then
        (.error (.fatal (.emptyGrammar setup.grammar.name .parser)), s)
      else (.ok (), s) := by
  unfold checkJob
  cases setup.grammar.kind.supports .parser with
  | false => rfl
  | true => cases setup.grammar.rulesFor .parser <;> rfl

theorem parserModel_of_refused {failure : Failure}
    (h : setup.checkJob .parser s = (.error failure, s)) :
    setup.parserModel s = (.error failure, s) := by
  unfold parserModel parserModelWith
  rw [Job.bind_run, h]

/-- A parser job as a whole ends only with fatal errors. -/
theorem fatal_of_parserModel {failure : Failure} {t : JobState}
    (h : setup.parserModel s = (.error failure, t)) : ∃ error, failure = .fatal error := by
  have check := setup.checkJob_parser_eq s
  split at check
  · cases (setup.parserModel_of_refused check).symm.trans h
    exact ⟨_, rfl⟩
  · split at check
    · cases (setup.parserModel_of_refused check).symm.trans h
      exact ⟨_, rfl⟩
    · obtain ⟨error, same, _⟩ := setup.raises_parserModel check failure t h
      exact ⟨error, same⟩

theorem raises_checkJob (kind : RecognizerKind) :
    (setup.checkJob kind).Raises (fun _ => True) s := by
  intro failure t hrun
  unfold checkJob at hrun
  cases kind
  all_goals
    dsimp only at hrun
    split at hrun
    · cases hrun
      exact ⟨_, rfl, True.intro⟩
    · split at hrun
      · cases hrun
        exact ⟨_, rfl, True.intro⟩
      · cases hrun

theorem raises_lexerModel : setup.lexerModel.Raises (fun _ => True) s := by
  have visited {p : Point} (node : p.Node)
      (held : setup.chain.validate = true → p.Anchored node) {s : JobState} :
      (setup.visit p node).Raises (fun _ => True) s := fun failure t hrun =>
    (setup.raises_visit p node held failure t hrun).imp fun _ raised => raised.imp_right fun _ =>
      True.intro
  refine (setup.raises_checkJob .lexer).bind fun _ s₁ _ => ?_
  refine (visited (p := .lexerFile) _ nofun).bind fun file s₂ _ => ?_
  refine (Job.raises_modifyContext _).bind fun _ s₃ _ => ?_
  exact (visited (p := .lexer) _ nofun).bind fun _ _ _ => Job.raises_pure _

/-- A lexer job as a whole ends only with fatal errors. -/
theorem fatal_of_lexerModel {failure : Failure} {t : JobState}
    (h : setup.lexerModel s = (.error failure, t)) : ∃ error, failure = .fatal error :=
  (setup.raises_lexerModel failure t h).imp fun _ raised => raised.1

/-- A parser job refuses a grammar that does not support a parser, and otherwise one without rules
for it. Every other job comes to its end or stops at an extension that, under validation, breaks its
contract. It never lacks a rule on the stack. -/
theorem parserModel_result (setup : Setup) :
    ((setup.parserModel .empty).1 =
        .error (.fatal (.unsupportedRecognizer setup.grammar.name setup.grammar.kind .parser)) ↔
      setup.grammar.kind.supports .parser = false) ∧
    ((setup.parserModel .empty).1 = .error (.fatal (.emptyGrammar setup.grammar.name .parser)) ↔
      setup.grammar.kind.supports .parser = true ∧ setup.grammar.rulesFor .parser = []) ∧
    ((∃ model, (setup.parserModel .empty).1 = .ok model) ∨
        (∃ error, (setup.parserModel .empty).1 = .error (.fatal error) ∧ setup.Breach error) ↔
      setup.grammar.kind.supports .parser = true ∧ setup.grammar.rulesFor .parser ≠ []) ∧
    (setup.parserModel .empty).1 ≠ .error (.fatal .ruleStackEmpty) := by
  have check := setup.checkJob_parser_eq .empty
  cases supported : setup.grammar.kind.supports .parser with
  | false =>
      rw [if_pos supported] at check
      rw [setup.parserModel_of_refused check]
      have unbroken : ¬setup.Breach
          (.unsupportedRecognizer setup.grammar.name setup.grammar.kind .parser) := nofun
      simp [unbroken]
  | true =>
      rw [if_neg (by simp [supported])] at check
      by_cases empty : setup.grammar.rulesFor .parser = []
      · rw [if_pos empty] at check
        rw [setup.parserModel_of_refused check]
        have unbroken : ¬setup.Breach (.emptyGrammar setup.grammar.name .parser) := nofun
        simp [unbroken, empty]
      · rw [if_neg empty] at check
        have raises := setup.raises_parserModel check
        rcases hrun : setup.parserModel .empty with ⟨failure | model, t⟩
        · obtain ⟨error, rfl, breach⟩ := raises failure t hrun
          have violation := breach
          cases violation
          simp [empty, breach]
        · simp [empty]

end Setup

end RecognizerModel
