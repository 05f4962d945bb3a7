import RecognizerModel.Proofs.Contracts
import RecognizerModel.Proofs.LocalJob
import RecognizerModel.Proofs.Outcome

/-! The walk over a rule is local, whatever the extensions are, and the only fatal errors that it
raises are breaches of contract. -/
namespace RecognizerModel

open Job (Local)

theorem Context.shift_enterAlt (alt : Alt) (num : Nat) :
    Context.Shift fun c => { c with alt := some ⟨c.ruleName, num, alt.refs⟩ } :=
  ⟨fun _ => rfl, fun _ _ => rfl⟩

theorem Context.shift_pushBlock (decision : Option Nat) : Context.Shift (·.pushBlock decision) :=
  ⟨fun _ => rfl, fun _ _ => rfl⟩

theorem Context.shift_popBlock : Context.Shift .popBlock :=
  ⟨fun _ => rfl, fun _ _ => rfl⟩

theorem Context.shift_leaveChoice (alt : Option CurrentAlt) :
    Context.Shift fun c => { c.popBlock with alt } :=
  ⟨fun _ => rfl, fun _ _ => rfl⟩

theorem Context.shift_enterTree : Context.Shift .enterTree :=
  ⟨fun _ => rfl, fun _ _ => rfl⟩

theorem Context.shift_exitTree : Context.Shift .exitTree :=
  ⟨fun _ => rfl, fun _ _ => rfl⟩

@[simp] theorem Op.kind_addLabel (op : Op) (label : String) :
    (op.addLabel label).kind = op.kind := by
  cases op <;> rfl

/-- The kind of the operation that a reference stands for. -/
def Reference.opKind : Reference → OpKind
  | rule _ => .invokeRule
  | token _ => .matchToken
  | literal _ => .matchLiteral

theorem Job.Answers.of_bind {job : Job α} {next : α → Job β} {b : β}
    (h : (job >>= next).Answers b) : ∃ a, job.Answers a ∧ (next a).Answers b := by
  obtain ⟨s, t, h⟩ := h
  obtain ⟨a, s', hjob, hnext⟩ := Job.exists_of_bind_ok h
  exact ⟨a, ⟨s, s', hjob⟩, ⟨s', t, hnext⟩⟩

theorem Job.Answers.eq_of_pure {a b : α} (h : (Pure.pure a : Job α).Answers b) : b = a := by
  obtain ⟨s, t, h⟩ := h
  cases h
  rfl

namespace Setup

variable (setup : Setup)

theorem visit_local (p : Point) (node : p.Node)
    (held : setup.chain.validate = true → p.Anchored node) :
    (setup.visit p node).Local setup.Breach := by
  unfold visit
  refine (Local.recordVisits p _).bind fun _ => ?_
  split
  · exact .pure _
  · next error h => exact .fatal (breach_of_fold held h)

theorem fold_of_visit {setup : Setup} {p : Point} {node after : p.Node}
    (h : (setup.visit p node).Answers after) :
    (setup.chain.fold p p.anchor? node).outcome = .ok after := by
  obtain ⟨_, _, h⟩ := h.of_bind
  split at h
  · next hfold =>
    cases h.eq_of_pure
    exact hfold
  · obtain ⟨_, _, h⟩ := h
    cases h

theorem anchored_of_visit {p : Point} {node after : p.Node}
    (validate : setup.chain.validate = true) (held : p.Anchored node)
    (h : (setup.visit p node).Answers after) : p.Anchored after :=
  anchored_of_fold validate held (fold_of_visit h)

theorem tokenType_local (name : String) (place : Place) (p : Point) :
    (setup.tokenType name place p).Local setup.Breach := by
  unfold tokenType
  split
  · exact .pure _
  · exact .malformed _ _ _

theorem referenceOp_local (r : Reference) : (setup.referenceOp r).Local setup.Breach := by
  unfold referenceOp
  split
  all_goals split
  · exact .pure _
  · exact .malformed _ _ _
  · exact (setup.tokenType_local _ _ _).bind fun _ => .pure _
  · exact .malformed _ _ _
  · exact (setup.tokenType_local _ _ _).bind fun _ => .pure _
  · exact .malformed _ _ _

theorem applyLabel_local {Cause : BuildError → Prop} (op : Op) (label : Option Label) :
    (applyLabel op label).Local Cause := by
  unfold applyLabel
  split
  · exact .pure _
  · split
    · exact .malformed _ _ _
    · exact (Local.declare _).bind fun _ => .pure _

theorem defineImplicitLabel_local (op : Op) :
    (setup.defineImplicitLabel op).Local setup.Breach := by
  unfold defineImplicitLabel
  split
  · exact .pure _
  · exact (Local.declare _).bind fun _ => .pure _

theorem needsImplicitLabel_local (span : Span) (op : Op) :
    (setup.needsImplicitLabel span op).Local setup.Breach := by
  unfold needsImplicitLabel
  exact .context (fun _ => (Local.recordVisits _ _).bind fun _ => .pure _) fun _ _ => rfl

theorem labelIfNeeded_local (span : Span) (op : Op) :
    (setup.labelIfNeeded span op).Local setup.Breach := by
  unfold labelIfNeeded
  split
  · refine (setup.needsImplicitLabel_local span op).bind fun needed => ?_
    split
    · exact setup.defineImplicitLabel_local op
    · exact .pure _
  · exact .pure _

theorem kind_of_referenceOp {r : Reference} {op : Op} (h : (setup.referenceOp r).Answers op) :
    op.kind = r.opKind := by
  match r with
  | .rule ⟨_, some _, _, _⟩ =>
      cases h.eq_of_pure
      rfl
  | .token ⟨_, some _, _, _⟩ | .literal ⟨_, some _⟩ =>
      obtain ⟨ttype, _, h⟩ := h.of_bind
      cases h.eq_of_pure
      rfl
  | .rule ⟨_, none, _, _⟩ | .token ⟨_, none, _, _⟩ | .literal ⟨_, none⟩ =>
      obtain ⟨_, _, h⟩ := h
      cases h

theorem kind_of_applyLabel {op labeled : Op} {label : Option Label}
    (h : (applyLabel op label).Answers labeled) : labeled.kind = op.kind := by
  match label with
  | none =>
      cases h.eq_of_pure
      rfl
  | some ⟨_, _, some name⟩ =>
      obtain ⟨_, _, h⟩ := h.of_bind
      cases h.eq_of_pure
      exact op.kind_addLabel name
  | some ⟨_, _, none⟩ =>
      obtain ⟨_, _, h⟩ := h
      cases h

theorem kind_of_defineImplicitLabel {op labeled : Op}
    (h : (setup.defineImplicitLabel op).Answers labeled) : labeled.kind = op.kind := by
  unfold defineImplicitLabel at h
  split at h
  · cases h.eq_of_pure
    rfl
  · next label _ =>
    obtain ⟨_, _, h⟩ := h.of_bind
    cases h.eq_of_pure
    exact op.kind_addLabel label

theorem kind_of_labelIfNeeded {span : Span} {op labeled : Op}
    (h : (setup.labelIfNeeded span op).Answers labeled) : labeled.kind = op.kind := by
  unfold labelIfNeeded at h
  split at h
  · obtain ⟨needed, _, h⟩ := h.of_bind
    cases needed with
    | true => exact setup.kind_of_defineImplicitLabel h
    | false =>
        cases h.eq_of_pure
        rfl
  · cases h.eq_of_pure
    rfl

theorem anchored_singleton {kind : OpKind} {op : Op} (h : op.kind = kind) :
    Subject.Holds kind .ops [op] :=
  ⟨op, List.mem_singleton_self op, h⟩

/-- The operation of a reference has the kind that stays in the list at each of its points. -/
theorem reference_local (r : Reference) (label : Option Label) :
    (setup.reference r label).Local setup.Breach := by
  unfold reference
  refine (setup.referenceOp_local r).andThen fun plain hplain => ?_
  refine (applyLabel_local plain label).andThen fun op hop => ?_
  refine (setup.labelIfNeeded_local _ op).andThen fun labeled hlabeled => ?_
  have kind : labeled.kind = r.opKind :=
    (setup.kind_of_labelIfNeeded hlabeled).trans
      ((kind_of_applyLabel hop).trans (setup.kind_of_referenceOp hplain))
  cases r with
  | rule r =>
      have held : Point.ruleRef.Anchored [labeled] := by
        rintro _ ⟨⟩
        exact anchored_singleton kind
      refine (setup.visit_local .ruleRef _ fun _ => held).andThen fun ops hops => ?_
      have stays : setup.chain.validate = true → Point.ruleRef.Anchored ops := fun validate =>
        setup.anchored_of_visit validate held hops
      split
      · exact .pure _
      · exact setup.visit_local .leafRule ops stays
  | token t =>
      have held : Point.tokenRef.Anchored [labeled] := by
        rintro _ ⟨⟩
        exact anchored_singleton kind
      refine (setup.visit_local .tokenRef _ fun _ => held).andThen fun ops hops => ?_
      have stays : setup.chain.validate = true → Point.tokenRef.Anchored ops := fun validate =>
        setup.anchored_of_visit validate held hops
      split
      · exact .pure _
      · exact setup.visit_local .leafToken ops stays
  | literal l =>
      refine setup.visit_local .stringRef _ fun _ => ?_
      rintro _ ⟨⟩
      exact anchored_singleton kind

theorem rootReference_local (r : Reference) (ops : List Op) :
    (setup.rootReference r ops).Local setup.Breach := by
  unfold rootReference
  split
  · exact setup.visit_local .rootRule ops nofun
  · exact setup.visit_local .rootToken ops nofun

theorem action_local (c : CodeNode) : (setup.action c).Local setup.Breach := by
  unfold action
  split
  · exact setup.visit_local .action _ nofun
  · exact .malformed _ _ _

theorem forcedAction_local (c : CodeNode) : (setup.forcedAction c).Local setup.Breach := by
  unfold forcedAction
  split
  · exact setup.visit_local .forcedAction _ nofun
  · exact .malformed _ _ _

theorem predicate_local (c : CodeNode) : (setup.predicate c).Local setup.Breach := by
  unfold predicate
  split
  · exact setup.visit_local .predicate _ nofun
  · exact .malformed _ _ _

theorem alternative_local (alt : Alt) (num : Nat) :
    (setup.alternative alt num).Local setup.Breach :=
  (Local.modifyContext (Context.shift_enterAlt alt num)).bind fun _ =>
    setup.visit_local .alternative _ nofun

theorem epsilon_local (alt : Alt) (num : Nat) : (setup.epsilon alt num).Local setup.Breach :=
  (Local.modifyContext (Context.shift_enterAlt alt num)).bind fun _ =>
    setup.visit_local .epsilon _ nofun

theorem finishAlternative_local (block : Alternative) (ops : List Op) :
    (setup.finishAlternative block ops).Local setup.Breach :=
  setup.visit_local .finishAlternative _ nofun

theorem local_mapM {Cause : BuildError → Prop} {job : α → Job β}
    (hjob : ∀ a, (job a).Local Cause) (as : List α) : (as.mapM job).Local Cause := by
  induction as with
  | nil => exact .pure _
  | cons a rest ih =>
      rw [List.mapM_cons]
      exact (hjob a).bind fun _ => ih.bind fun _ => .pure _

theorem ll1Tests_local (site : ChoiceSite) (count : Nat) (p : Point) :
    (setup.ll1Tests site count p).Local setup.Breach := by
  unfold ll1Tests
  split
  · exact .malformed _ _ _
  · split
    · exact .malformed _ _ _
    · split
      · refine local_mapM (fun look => setup.visit_local .ll1Test _ fun _ => ?_) _
        rintro _ ⟨⟩
        exact anchored_singleton rfl
      · exact .malformed _ _ _

theorem visitChoice_local (c : Choice) (kind : ChoiceKind) :
    (setup.visitChoice c kind).Local setup.Breach := by
  unfold visitChoice
  split
  · exact setup.visit_local .choiceBlock c nofun
  · exact setup.visit_local .ebnfBlock c nofun
  · exact setup.visit_local .ll1ChoiceBlock c nofun
  · exact setup.visit_local .ll1EbnfBlock c nofun
  · exact setup.visit_local .llStarChoiceBlock c nofun
  · exact setup.visit_local .llStarEbnfBlock c nofun

theorem choice_local (kind : ChoiceKind) (site : ChoiceSite) (alts : List Alternative) :
    (setup.choice kind site alts).Local setup.Breach := by
  unfold choice
  dsimp only
  split
  · split
    · exact (setup.ll1Tests_local site _ _).bind fun _ => setup.visitChoice_local _ kind
    · exact (Local.pure _).bind fun _ => setup.visitChoice_local _ kind
  · exact .malformed _ _ _

theorem strategy_local (site : ChoiceSite) : (setup.strategy site).Local setup.Breach := by
  have unclassified (detail : String) :
      (do let context ← Job.context
          Job.report (.ofUnclassified context.ruleName site.place.span detail)
          return Strategy.generic : Job Strategy).Local setup.Breach :=
    .context (fun _ => (Local.report _).bind fun _ => .pure _) fun _ _ => rfl
  unfold strategy
  dsimp only
  split
  · exact unclassified _
  · split
    · exact .pure _
    · exact unclassified _

theorem insideChoice_local {Cause : BuildError → Prop} (decision : Option Nat) {body : Job α}
    (hbody : body.Local Cause) : (insideChoice decision body).Local Cause := by
  unfold insideChoice
  refine .context (fun before => ?_) fun _ _ => rfl
  refine (Local.modifyContext (Context.shift_pushBlock decision)).bind fun _ => ?_
  refine hbody.bind fun result => ?_
  exact (Local.modifyContext (Context.shift_leaveChoice before.alt)).bind fun _ => .pure result

theorem treeRewrite_local (ops : List Op) : (setup.treeRewrite ops).Local setup.Breach :=
  .context (fun _ => setup.visit_local .treeRewrite _ nofun) fun _ _ => rfl

theorem rewriteOptional_local (referenced : List String) (ops : List Op) :
    (setup.rewriteOptional referenced ops).Local setup.Breach :=
  .context (fun _ => setup.visit_local .rewriteOptional _ nofun) fun _ _ => rfl

theorem rewriteClosure_local (referenced : List String) (ops : List Op) :
    (setup.rewriteClosure referenced ops).Local setup.Breach :=
  .context (fun _ => setup.visit_local .rewriteClosure _ nofun) fun _ _ => rfl

theorem rewriteTree_local (root children : List Op) :
    (setup.rewriteTree root children).Local setup.Breach :=
  .context (fun _ => setup.visit_local .rewriteTree _ nofun) fun _ _ => rfl

theorem rewriteToken_local (place : Place) (name : Option String) (isRoot : Bool)
    (arg : Option String) : (setup.rewriteToken place name isRoot arg).Local setup.Breach := by
  unfold rewriteToken
  split
  · exact .malformed _ _ _
  · refine (setup.tokenType_local _ _ _).bind fun ttype => ?_
    refine .context (fun _ => setup.visit_local .rewriteTokenRef _ fun _ => ?_) fun _ _ => rfl
    rintro _ ⟨⟩
    exact anchored_singleton rfl

theorem rewriteReference_local (isRoot : Bool) (r : Reference) :
    (setup.rewriteReference isRoot r).Local setup.Breach := by
  unfold rewriteReference
  split
  · unfold rewriteRule
    split
    · exact .malformed _ _ _
    · refine .context (fun _ => setup.visit_local .rewriteRuleRef _ fun _ => ?_) fun _ _ => rfl
      rintro _ ⟨⟩
      exact anchored_singleton rfl
  · exact setup.rewriteToken_local _ _ _ _
  · exact setup.rewriteToken_local _ _ _ _

theorem labeledReference_local (element : Element) :
    (setup.labeledReference element).Local setup.Breach := by
  unfold labeledReference
  split
  · exact (setup.reference_local _ _).bind fun _ => .pure _
  · exact .malformed _ _ _

mutual

theorem rewriteElement_local (isRoot : Bool) :
    ∀ element : RewriteElement, (setup.rewriteElement isRoot element).Local setup.Breach
  | .reference r => by
      rw [rewriteElement]
      exact setup.rewriteReference_local isRoot r
  | .tree span [] => by
      rw [rewriteElement]
      exact .within Context.shift_enterTree Context.shift_exitTree (.malformed _ _ _)
  | .tree span (first :: rest) => by
      rw [rewriteElement]
      refine .within Context.shift_enterTree Context.shift_exitTree ?_
      refine (rewriteElement_local true first).bind fun root => ?_
      refine (rewriteElements_local rest).bind fun children => ?_
      exact (setup.rewriteTree_local root children).bind fun _ => .pure _
  | .optional span referenced elements => by
      rw [rewriteElement]
      refine (Local.within (Context.shift_pushBlock none) Context.shift_popBlock
        (rewriteElements_local elements)).bind fun ops => ?_
      exact (setup.rewriteOptional_local referenced ops).bind fun _ => .pure _
  | .closure span referenced elements => by
      rw [rewriteElement]
      refine (Local.within (Context.shift_pushBlock none) Context.shift_popBlock
        (rewriteElements_local elements)).bind fun ops => ?_
      exact (setup.rewriteClosure_local referenced ops).bind fun _ => .pure _

theorem rewriteElements_local :
    ∀ elements : List RewriteElement, (setup.rewriteElements elements).Local setup.Breach
  | [] => .pure _
  | element :: rest => by
      rw [rewriteElements]
      refine (rewriteElement_local false element).bind fun ops => ?_
      exact (rewriteElements_local rest).bind fun _ => .pure _

end

theorem rewriteOf_local (rewrite : Option Rewrite) :
    (setup.rewriteOf rewrite).Local setup.Breach := by
  unfold rewriteOf
  split
  · exact .pure _
  · refine (setup.rewriteElements_local _).bind fun body => ?_
    exact (setup.treeRewrite_local body).bind fun _ => .pure _

mutual

theorem walkElement_local : ∀ element : Element, (setup.walkElement element).Local setup.Breach
  | .reference r => by
      rw [walkElement]
      exact setup.reference_local r none
  | .action c => by
      rw [walkElement]
      exact setup.action_local c
  | .forcedAction c => by
      rw [walkElement]
      exact setup.forcedAction_local c
  | .predicate c => by
      rw [walkElement]
      exact setup.predicate_local c
  | .epsilon span => by
      rw [walkElement]
      exact .pure _
  | .block b => by
      rw [walkElement]
      exact walkBlock_local b
  | .ebnf kind span decision none => by
      rw [walkElement]
      exact .malformed _ _ _
  | .ebnf kind span decision (some ⟨bodySpan, bodyDecision, alts⟩) => by
      rw [walkElement]
      dsimp only
      split
      · exact .malformed _ _ _
      · refine (insideChoice_local _ (walkAlts_local 1 alts)).bind fun branches => ?_
        refine (setup.strategy_local _).bind fun strategy => ?_
        exact (setup.choice_local _ _ branches).bind fun _ => .pure _
  | .root span none => by
      rw [walkElement]
      exact .malformed _ _ _
  | .root span (some operand) => by
      rw [walkElement]
      exact (setup.labeledReference_local operand).bind fun built =>
        setup.rootReference_local built.1 built.2
  | .bang span none => by
      rw [walkElement]
      exact .malformed _ _ _
  | .bang span (some operand) => by
      rw [walkElement]
      exact walkElement_local operand
  | .labeled label operand => by
      rw [walkElement]
      exact (setup.labeledReference_local _).bind fun _ => .pure _

theorem walkElements_local :
    ∀ elements : List Element, (setup.walkElements elements).Local setup.Breach
  | [] => .pure _
  | element :: rest => by
      rw [walkElements]
      refine (walkElement_local element).bind fun ops => ?_
      exact (walkElements_local rest).bind fun _ => .pure _

theorem walkBlock_local : ∀ block : Block, (setup.walkBlock block).Local setup.Breach
  | ⟨span, decision, []⟩ => by
      rw [walkBlock]
      exact .malformed _ _ _
  | ⟨span, decision, [alt]⟩ => by
      rw [walkBlock]
      exact (walkAlt_local 1 alt).bind fun _ => .pure _
  | ⟨span, decision, alt :: next :: rest⟩ => by
      rw [walkBlock]
      · refine (insideChoice_local decision (walkAlts_local 1 _)).bind fun branches => ?_
        refine (setup.strategy_local _).bind fun strategy => ?_
        exact (setup.choice_local _ _ branches).bind fun _ => .pure _
      · simp
      · simp

theorem walkAlts_local :
    ∀ (num : Nat) (alts : List Alt), (setup.walkAlts num alts).Local setup.Breach
  | _, [] => .pure _
  | num, alt :: rest => by
      rw [walkAlts]
      refine (walkAlt_local num alt).bind fun branch => ?_
      exact (walkAlts_local (num + 1) rest).bind fun _ => .pure _

theorem walkAlt_local : ∀ (num : Nat) (alt : Alt), (setup.walkAlt num alt).Local setup.Breach
  | num, ⟨span, elements, rewrite, strangers, refs⟩ => by
      unfold walkAlt
      dsimp only
      split
      · exact .malformed _ _ _
      · split
        · exact .malformed _ _ _
        · exact setup.epsilon_local _ num
        · refine (setup.alternative_local _ num).bind fun block => ?_
          refine (walkElements_local elements).bind fun ops => ?_
          exact (setup.rewriteOf_local _).bind fun rest => setup.finishAlternative_local block _

end

theorem walkRule_local (rule : Rule) : (setup.walkRule rule).Local setup.Breach := by
  unfold walkRule
  split
  · exact setup.walkBlock_local _
  · exact .malformed _ _ _

end Setup

end RecognizerModel
