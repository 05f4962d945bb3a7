import RecognizerModel.Proofs.DeclaringJob
import RecognizerModel.Proofs.RuleIsolation

/-! The labels that a walk declares. Fields go to the rule on the stack on the way through the walk,
while the operations that carry the labels travel back up from it. Both stay in step at any depth:
each part of a walk declares the labels that its operations carry, in the same order. -/
namespace RecognizerModel

open Job (KeepsFields Declares DeclaresLabels)
open Op (Labeled)

theorem declares_applyLabel {op : Op} {labels : List String} (h : op.labels? = some labels)
    (label : Option Label) : (applyLabel op label).Declares labels fun op labels =>
      op.labels? = some labels := by
  unfold applyLabel
  split
  · exact Job.declares_pure h
  · split
    · exact Job.declares_malformed _ _ _
    · next name _ =>
      refine (Job.declares_declare _).bind fun _ _ declared => Job.declares_pure ?_
      rw [declared, Op.name_field]
      exact Op.labels?_addLabel_append h name

theorem declares_insideChoice {body : Job α} {leaves : α → List Op} (decision : Option Nat)
    (hbody : body.DeclaresLabels leaves) : (insideChoice decision body).DeclaresLabels leaves := by
  refine Job.declares_context fun before => ?_
  refine (Job.keepsFields_modifyContext (Context.shift_pushBlock decision)).bind fun _ _ => ?_
  refine hbody.bind fun result labels labeled => ?_
  refine (Job.keepsFields_modifyContext (Context.shift_leaveChoice before.alt)).bind fun _ _ => ?_
  exact Job.declares_pure labeled

namespace Setup

variable (setup : Setup)

theorem keepsFields_visit (p : Point) (node : p.Node) : (setup.visit p node).KeepsFields := by
  intro s after t hrun
  obtain ⟨visits, rfl⟩ := eq_of_visit_ok hrun
  rfl

theorem keepsFields_tokenType (name : String) (place : Place) (p : Point) :
    (setup.tokenType name place p).KeepsFields := by
  unfold tokenType
  split
  · exact Job.keepsFields_pure _
  · exact Job.keepsFields_malformed _ _ _

theorem keepsFields_referenceOp (r : Reference) : (setup.referenceOp r).KeepsFields := by
  match r with
  | .rule ⟨_, some _, _, _⟩ => exact Job.keepsFields_pure _
  | .token ⟨_, some _, _, _⟩ | .literal ⟨_, some _⟩ =>
      exact (setup.keepsFields_tokenType _ _ _).step fun _ => Job.keepsFields_pure _
  | .rule ⟨_, none, _, _⟩ | .token ⟨_, none, _, _⟩ | .literal ⟨_, none⟩ =>
      exact Job.keepsFields_malformed _ _ _

theorem labels?_of_referenceOp {r : Reference} {op : Op} (h : (setup.referenceOp r).Answers op) :
    op.labels? = some [] := by
  match r with
  | .rule ⟨_, some _, _, _⟩ =>
      cases h.eq_of_pure
      rfl
  | .token ⟨_, some _, _, _⟩ | .literal ⟨_, some _⟩ =>
      obtain ⟨ttype, _, h⟩ := h.of_bind
      cases h.eq_of_pure
      rfl
  | .rule ⟨_, none, _, _⟩ | .token ⟨_, none, _, _⟩ | .literal ⟨_, none⟩ =>
      obtain ⟨_, _, h⟩ := h
      cases h

theorem keepsFields_needsImplicitLabel (span : Span) (op : Op) :
    (setup.needsImplicitLabel span op).KeepsFields :=
  Job.keepsFields_context fun _ => (Job.keepsFields_recordVisits _ _).step fun _ =>
    Job.keepsFields_pure _

theorem declares_labelIfNeeded {op : Op} {labels : List String} (h : op.labels? = some labels)
    (span : Span) : (setup.labelIfNeeded span op).Declares labels fun op labels =>
      op.labels? = some labels := by
  unfold labelIfNeeded
  split
  · refine (setup.keepsFields_needsImplicitLabel span op).bind fun needed _ => ?_
    split
    · unfold defineImplicitLabel
      split
      · exact Job.declares_pure h
      · next label _ =>
        refine (Job.declares_declare _).bind fun _ _ declared => Job.declares_pure ?_
        rw [declared, Op.name_field]
        exact Op.labels?_addLabel_append h label
    · exact Job.declares_pure h
  · exact Job.declares_pure h

theorem keepsFields_enterAlt (alt : Alt) (num : Nat) : (enterAlt alt num).KeepsFields :=
  Job.keepsFields_modifyContext (Context.shift_enterAlt alt num)

theorem keepsFields_strategy (site : ChoiceSite) : (setup.strategy site).KeepsFields := by
  have unclassified (detail : String) :
      (do let context ← Job.context
          Job.report (.ofUnclassified context.ruleName site.place.span detail)
          return Strategy.generic : Job Strategy).KeepsFields :=
    Job.keepsFields_context fun _ => (Job.keepsFields_report _).step fun _ =>
      Job.keepsFields_pure _
  unfold strategy
  dsimp only
  split
  · exact unclassified _
  · split
    · exact Job.keepsFields_pure _
    · exact unclassified _

section

variable {setup} (keeps : ∀ e ∈ setup.chain.extensions, e.KeepsLabels)

include keeps

/-- Extensions that leave labels as they are leave them in step with the fields. -/
theorem declares_visit (p : Point) (node : p.Node) {labels : List String}
    (h : Labeled (p.subject.leaves node) labels) :
    (setup.visit p node).Declares labels fun after labels =>
      Labeled (p.subject.leaves after) labels :=
  (setup.keepsFields_visit p node).declares fun _ answers =>
    Chain.of_pass_ok (P := fun node => Labeled (p.subject.leaves node) labels)
      (fun e he node h _ => keeps e he p node labels h) h (fold_of_visit answers)

theorem declares_reference (r : Reference) (label : Option Label) :
    (setup.reference r label).DeclaresLabels Op.leavesIn := by
  unfold reference
  refine (setup.keepsFields_referenceOp r).bind fun op hop => ?_
  refine (declares_applyLabel (setup.labels?_of_referenceOp hop) label).bind fun op _ h => ?_
  refine (setup.declares_labelIfNeeded h _).bind fun op _ h => ?_
  have labeled := Labeled.of_labels? h
  cases r with
  | rule r =>
      refine (declares_visit keeps .ruleRef [op] labeled).bind fun ops _ labeled => ?_
      split
      · exact Job.declares_pure labeled
      · exact declares_visit keeps .leafRule ops labeled
  | token t =>
      refine (declares_visit keeps .tokenRef [op] labeled).bind fun ops _ labeled => ?_
      split
      · exact Job.declares_pure labeled
      · exact declares_visit keeps .leafToken ops labeled
  | literal l => exact declares_visit keeps .stringRef [op] labeled

theorem declares_rootReference (r : Reference) {ops : List Op} {labels : List String}
    (h : Labeled (Op.leavesIn ops) labels) :
    (setup.rootReference r ops).Declares labels fun ops labels =>
      Labeled (Op.leavesIn ops) labels := by
  unfold rootReference
  split
  · exact declares_visit keeps .rootRule ops h
  · exact declares_visit keeps .rootToken ops h

theorem declares_labeledReference (element : Element) :
    (setup.labeledReference element).DeclaresLabels fun built => Op.leavesIn built.2 := by
  unfold labeledReference
  split
  · exact (declares_reference keeps _ _).map fun _ => rfl
  · exact Job.declares_malformed _ _ _

theorem declares_action (c : CodeNode) : (setup.action c).DeclaresLabels Op.leavesIn := by
  unfold action
  split
  · exact declares_visit keeps .action _ (.of_bare rfl rfl rfl)
  · exact Job.declares_malformed _ _ _

theorem declares_forcedAction (c : CodeNode) :
    (setup.forcedAction c).DeclaresLabels Op.leavesIn := by
  unfold forcedAction
  split
  · exact declares_visit keeps .forcedAction _ (.of_bare rfl rfl rfl)
  · exact Job.declares_malformed _ _ _

theorem declares_predicate (c : CodeNode) : (setup.predicate c).DeclaresLabels Op.leavesIn := by
  unfold predicate
  split
  · exact declares_visit keeps .predicate _ (.of_bare rfl rfl rfl)
  · exact Job.declares_malformed _ _ _

theorem declares_ll1Tests (site : ChoiceSite) (count : Nat) (p : Point) :
    (setup.ll1Tests site count p).DeclaresLabels Op.leavesInEach := by
  unfold ll1Tests
  split
  · exact Job.declares_malformed _ _ _
  · split
    · exact Job.declares_malformed _ _ _
    · split
      · refine Job.declaresLabels_mapM (fun look => ?_) _
        unfold ll1Test
        exact declares_visit keeps .ll1Test _ (.of_bare rfl rfl rfl)
      · exact Job.declares_malformed _ _ _

theorem declares_visitChoice {c : Choice} {labels : List String}
    (h : Labeled (Op.choice c).leaves labels) (kind : ChoiceKind) :
    (setup.visitChoice c kind).Declares labels fun c labels =>
      Labeled (Op.choice c).leaves labels := by
  unfold visitChoice
  split
  · exact declares_visit keeps .choiceBlock c h
  · exact declares_visit keeps .ebnfBlock c h
  · exact declares_visit keeps .ll1ChoiceBlock c h
  · exact declares_visit keeps .ll1EbnfBlock c h
  · exact declares_visit keeps .llStarChoiceBlock c h
  · exact declares_visit keeps .llStarEbnfBlock c h

theorem declares_choice (kind : ChoiceKind) (site : ChoiceSite) {alts : List Alternative}
    {labels : List String} (h : Labeled (Alternative.leavesIn alts) labels) :
    (setup.choice kind site alts).Declares labels fun c labels =>
      Labeled (Op.choice c).leaves labels := by
  have visited (tests : List (List Op)) {labels : List String}
      (labeled : Labeled (Alternative.leavesIn alts ++ Op.leavesInEach tests) labels) :
      (setup.visitChoice ⟨kind, site.decision, site.ebnf, alts, tests, []⟩ kind).Declares labels
        fun c labels => Labeled (Op.choice c).leaves labels := by
    refine declares_visitChoice keeps ?_ kind
    rwa [Op.leaves, Op.leavesIn, List.append_nil]
  unfold choice
  dsimp only
  split
  · split
    · exact ((declares_ll1Tests keeps site _ _).after h).bind fun tests _ => visited tests
    · refine visited [] ?_
      rwa [Op.leavesInEach, List.append_nil]
  · exact Job.declares_malformed _ _ _

/-- The choice of a site once its alternatives are there. -/
theorem declares_choose (site : ChoiceSite) (ebnf : Bool) {alts : List Alternative}
    {labels : List String} (h : Labeled (Alternative.leavesIn alts) labels) :
    (do let strategy ← setup.strategy site
        return [.choice (← setup.choice ⟨strategy, ebnf⟩ site alts)] : Job (List Op)).Declares
      labels fun ops labels => Labeled (Op.leavesIn ops) labels := by
  refine (setup.keepsFields_strategy site).bind fun strategy _ => ?_
  refine (declares_choice keeps ⟨strategy, ebnf⟩ site h).bind fun c _ labeled => ?_
  exact Job.declares_pure (by rwa [Op.leavesIn_singleton])

theorem declares_treeRewrite {ops : List Op} {labels : List String}
    (h : Labeled (Op.leavesIn ops) labels) :
    (setup.treeRewrite ops).Declares labels fun rewrite labels =>
      Labeled (Op.leavesIn [.treeRewrite rewrite]) labels :=
  Job.declares_context fun c => by
    simp only [Op.leavesIn_singleton]
    exact declares_visit keeps .treeRewrite ⟨c.blockLevel, ops⟩ h

theorem declares_rewriteOptional (referenced : List String) {ops : List Op}
    {labels : List String} (h : Labeled (Op.leavesIn ops) labels) :
    (setup.rewriteOptional referenced ops).Declares labels fun body labels =>
      Labeled (Op.leavesIn [.rewriteOptional body]) labels :=
  Job.declares_context fun c => by
    simp only [Op.leavesIn_singleton]
    exact declares_visit keeps .rewriteOptional ⟨c.blockLevel, referenced, ops⟩ h

theorem declares_rewriteClosure (referenced : List String) {ops : List Op}
    {labels : List String} (h : Labeled (Op.leavesIn ops) labels) :
    (setup.rewriteClosure referenced ops).Declares labels fun body labels =>
      Labeled (Op.leavesIn [.rewriteClosure body]) labels :=
  Job.declares_context fun c => by
    simp only [Op.leavesIn_singleton]
    exact declares_visit keeps .rewriteClosure ⟨c.blockLevel, referenced, ops⟩ h

theorem declares_rewriteTree {root children : List Op} {labels : List String}
    (h : Labeled (Op.leavesIn root ++ Op.leavesIn children) labels) :
    (setup.rewriteTree root children).Declares labels fun tree labels =>
      Labeled (Op.leavesIn [.rewriteTree tree]) labels :=
  Job.declares_context fun c => by
    simp only [Op.leavesIn_singleton]
    exact declares_visit keeps .rewriteTree ⟨c.treeLevel, c.blockLevel, root, children⟩ h

theorem declares_rewriteToken (place : Place) (name : Option String) (isRoot : Bool)
    (arg : Option String) :
    (setup.rewriteToken place name isRoot arg).DeclaresLabels Op.leavesIn := by
  unfold rewriteToken
  split
  · exact Job.declares_malformed _ _ _
  · refine (setup.keepsFields_tokenType _ _ _).bind fun ttype _ => ?_
    exact Job.declares_context fun _ =>
      declares_visit keeps .rewriteTokenRef _ (.of_bare rfl rfl rfl)

theorem declares_rewriteReference (isRoot : Bool) (r : Reference) :
    (setup.rewriteReference isRoot r).DeclaresLabels Op.leavesIn := by
  unfold rewriteReference
  split
  · unfold rewriteRule
    split
    · exact Job.declares_malformed _ _ _
    · exact Job.declares_context fun _ =>
        declares_visit keeps .rewriteRuleRef _ (.of_bare rfl rfl rfl)
  · exact declares_rewriteToken keeps _ _ _ _
  · exact declares_rewriteToken keeps _ _ _ _

end

mutual

theorem declares_rewriteElement {setup : Setup}
    (keeps : ∀ e ∈ setup.chain.extensions, e.KeepsLabels) (isRoot : Bool) :
    ∀ element : RewriteElement,
      (setup.rewriteElement isRoot element).DeclaresLabels Op.leavesIn
  | .reference r => by
      rw [rewriteElement]
      exact declares_rewriteReference keeps isRoot r
  | .tree span [] => by
      rw [rewriteElement]
      exact .within Context.shift_enterTree Context.shift_exitTree
        (Job.declares_malformed _ _ _)
  | .tree span (first :: rest) => by
      rw [rewriteElement]
      refine .within Context.shift_enterTree Context.shift_exitTree ?_
      -- the children are built behind the root, so their labels come behind its labels
      refine (declares_rewriteElement keeps true first).bind fun root labels hroot => ?_
      refine ((declares_rewriteElements keeps rest).after hroot).bind fun children _ both => ?_
      exact (declares_rewriteTree keeps both).bind fun _ _ labeled => Job.declares_pure labeled
  | .optional span referenced elements => by
      rw [rewriteElement]
      refine (Declares.within (Context.shift_pushBlock none) Context.shift_popBlock
        (declares_rewriteElements keeps elements)).bind fun ops _ inner => ?_
      exact (declares_rewriteOptional keeps referenced inner).bind fun _ _ labeled =>
        Job.declares_pure labeled
  | .closure span referenced elements => by
      rw [rewriteElement]
      refine (Declares.within (Context.shift_pushBlock none) Context.shift_popBlock
        (declares_rewriteElements keeps elements)).bind fun ops _ inner => ?_
      exact (declares_rewriteClosure keeps referenced inner).bind fun _ _ labeled =>
        Job.declares_pure labeled

theorem declares_rewriteElements {setup : Setup}
    (keeps : ∀ e ∈ setup.chain.extensions, e.KeepsLabels) :
    ∀ elements : List RewriteElement,
      (setup.rewriteElements elements).DeclaresLabels Op.leavesIn
  | [] => Job.declares_pure .nil
  | element :: rest => by
      rw [rewriteElements]
      exact (declares_rewriteElement keeps false element).both
        (declares_rewriteElements keeps rest) Op.leavesIn_append

end

theorem declares_rewriteOf {setup : Setup}
    (keeps : ∀ e ∈ setup.chain.extensions, e.KeepsLabels) (rewrite : Option Rewrite) :
    (setup.rewriteOf rewrite).DeclaresLabels Op.leavesIn := by
  unfold rewriteOf
  split
  · exact Job.declares_pure .nil
  · refine (declares_rewriteElements keeps _).bind fun body _ inner => ?_
    exact (declares_treeRewrite keeps inner).bind fun _ _ labeled => Job.declares_pure labeled

mutual

theorem declares_walkElement {setup : Setup}
    (keeps : ∀ e ∈ setup.chain.extensions, e.KeepsLabels) :
    ∀ element : Element, (setup.walkElement element).DeclaresLabels Op.leavesIn
  | .reference r => by
      rw [walkElement]
      exact declares_reference keeps r none
  | .action c => by
      rw [walkElement]
      exact declares_action keeps c
  | .forcedAction c => by
      rw [walkElement]
      exact declares_forcedAction keeps c
  | .predicate c => by
      rw [walkElement]
      exact declares_predicate keeps c
  | .epsilon span => by
      rw [walkElement]
      exact Job.declares_pure (.of_bare rfl rfl rfl)
  | .block b => by
      rw [walkElement]
      exact declares_walkBlock keeps b
  | .ebnf kind span decision none => by
      rw [walkElement]
      exact Job.declares_malformed _ _ _
  | .ebnf kind span decision (some ⟨bodySpan, bodyDecision, alts⟩) => by
      rw [walkElement]
      dsimp only
      split
      · exact Job.declares_malformed _ _ _
      · refine (declares_insideChoice _ (declares_walkAlts keeps 1 alts)).bind
          fun branches _ labeled => ?_
        exact declares_choose keeps _ true labeled
  | .root span none => by
      rw [walkElement]
      exact Job.declares_malformed _ _ _
  | .root span (some operand) => by
      rw [walkElement]
      exact (declares_labeledReference keeps operand).bind fun built _ labeled =>
        declares_rootReference keeps built.1 labeled
  | .bang span none => by
      rw [walkElement]
      exact Job.declares_malformed _ _ _
  | .bang span (some operand) => by
      rw [walkElement]
      exact declares_walkElement keeps operand
  | .labeled label operand => by
      rw [walkElement]
      exact (declares_labeledReference keeps _).map fun _ => rfl

theorem declares_walkElements {setup : Setup}
    (keeps : ∀ e ∈ setup.chain.extensions, e.KeepsLabels) :
    ∀ elements : List Element, (setup.walkElements elements).DeclaresLabels Op.leavesIn
  | [] => Job.declares_pure .nil
  | element :: rest => by
      rw [walkElements]
      exact (declares_walkElement keeps element).both
        (declares_walkElements keeps rest) Op.leavesIn_append

theorem declares_walkBlock {setup : Setup}
    (keeps : ∀ e ∈ setup.chain.extensions, e.KeepsLabels) :
    ∀ block : Block, (setup.walkBlock block).DeclaresLabels Op.leavesIn
  | ⟨span, decision, []⟩ => by
      rw [walkBlock]
      exact Job.declares_malformed _ _ _
  | ⟨span, decision, [alt]⟩ => by
      rw [walkBlock]
      exact (declares_walkAlt keeps 1 alt).map fun _ => rfl
  | ⟨span, decision, alt :: next :: rest⟩ => by
      rw [walkBlock]
      · refine (declares_insideChoice decision (declares_walkAlts keeps 1 _)).bind
          fun branches _ labeled => ?_
        exact declares_choose keeps _ false labeled
      · simp
      · simp

theorem declares_walkAlts {setup : Setup}
    (keeps : ∀ e ∈ setup.chain.extensions, e.KeepsLabels) :
    ∀ (num : Nat) (alts : List Alt),
      (setup.walkAlts num alts).DeclaresLabels Alternative.leavesIn
  | _, [] => Job.declares_pure .nil
  | num, alt :: rest => by
      rw [walkAlts]
      exact (declares_walkAlt keeps num alt).both (declares_walkAlts keeps (num + 1) rest)
        fun ⟨_, _⟩ _ => rfl

theorem declares_walkAlt {setup : Setup}
    (keeps : ∀ e ∈ setup.chain.extensions, e.KeepsLabels) :
    ∀ (num : Nat) (alt : Alt),
      (setup.walkAlt num alt).DeclaresLabels fun branch => Op.leavesIn branch.ops
  | num, ⟨span, elements, rewrite, strangers, refs⟩ => by
      unfold walkAlt
      dsimp only
      split
      · exact Job.declares_malformed _ _ _
      · split
        · exact Job.declares_malformed _ _ _
        · exact (keepsFields_enterAlt _ num).bind fun _ _ =>
            declares_visit keeps .epsilon _ (.of_bare rfl rfl rfl)
        · refine ((keepsFields_enterAlt _ num).step fun _ =>
            setup.keepsFields_visit .alternative _).bind fun block _ => ?_
          refine (declares_walkElements keeps elements).bind fun ops _ own => ?_
          refine ((declares_rewriteOf keeps _).after own).bind fun rest _ both => ?_
          refine declares_visit keeps .finishAlternative _ ?_
          change Labeled (Op.leavesIn (ops ++ rest)) _
          rwa [Op.leavesIn_append]

end

/-- A walk that comes to its end has declared the labels in the code of the rule. -/
theorem declares_walkRule {setup : Setup} (keeps : ∀ e ∈ setup.chain.extensions, e.KeepsLabels)
    (rule : Rule) : (setup.walkRule rule).DeclaresLabels Op.leavesIn := by
  unfold walkRule
  split
  · exact declares_walkBlock keeps _
  · exact Job.declares_malformed _ _ _

end Setup

end RecognizerModel
