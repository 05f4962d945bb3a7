import RecognizerModel.Proofs.FillingJob

/-! What a walk declares. At each site that it comes to it declares the field of that site, so that
the fields of a rule are in the order of its references, up to where the walk breaks off. -/
namespace RecognizerModel

open Job (KeepsRules Fills)

theorem fills_insideChoice {spot : Spot} {fields : List Field} {body : Job α}
    (decision : Option Nat) (hbody : body.Fills spot.inBlock fields) :
    (insideChoice decision body).Fills spot fields := by
  intro s stands
  have inside := hbody { s with context := s.context.pushBlock decision }
    (stands.pushBlock decision)
  refine Eq.trans ?_ inside
  change ((do
    let result ← body
    Job.modifyContext fun c => { c.popBlock with alt := s.context.alt }
    return result) { s with context := s.context.pushBlock decision }).2.context.rules = _
  rw [Job.bind_run]
  rcases body { s with context := s.context.pushBlock decision } with ⟨failure | a, t⟩ <;> rfl

namespace Setup

variable (setup : Setup)

theorem keepsRules_visit (p : Point) (node : p.Node) : (setup.visit p node).KeepsRules := by
  refine (Job.keepsRules_recordVisits p _).bind fun _ => ?_
  cases (setup.chain.fold p p.anchor? node).outcome with
  | ok node => exact Job.keepsRules_pure node
  | error error => exact Job.keepsRules_fatal error

theorem keepsRules_tokenType (name : String) (place : Place) (p : Point) :
    (setup.tokenType name place p).KeepsRules := by
  unfold tokenType
  split
  · exact Job.keepsRules_pure _
  · exact Job.keepsRules_malformed _ _ _

theorem keepsRules_referenceOp (r : Reference) : (setup.referenceOp r).KeepsRules := by
  match r with
  | .rule ⟨_, some _, _, _⟩ => exact Job.keepsRules_pure _
  | .token ⟨_, some _, _, _⟩ | .literal ⟨_, some _⟩ =>
      exact (setup.keepsRules_tokenType _ _ _).bind fun _ => Job.keepsRules_pure _
  | .rule ⟨_, none, _, _⟩ | .token ⟨_, none, _, _⟩ | .literal ⟨_, none⟩ =>
      exact Job.keepsRules_malformed _ _ _

theorem keepsRules_needsImplicitLabel (span : Span) (op : Op) :
    (setup.needsImplicitLabel span op).KeepsRules :=
  Job.keepsRules_context fun _ => (Job.keepsRules_recordVisits _ _).bind fun _ =>
    Job.keepsRules_pure _

theorem keepsRules_rootReference (r : Reference) (ops : List Op) :
    (setup.rootReference r ops).KeepsRules := by
  cases r <;> exact setup.keepsRules_visit _ _

theorem keepsRules_action (c : CodeNode) : (setup.action c).KeepsRules := by
  unfold action
  split
  · exact setup.keepsRules_visit _ _
  · exact Job.keepsRules_malformed _ _ _

theorem keepsRules_forcedAction (c : CodeNode) : (setup.forcedAction c).KeepsRules := by
  unfold forcedAction
  split
  · exact setup.keepsRules_visit _ _
  · exact Job.keepsRules_malformed _ _ _

theorem keepsRules_predicate (c : CodeNode) : (setup.predicate c).KeepsRules := by
  unfold predicate
  split
  · exact setup.keepsRules_visit _ _
  · exact Job.keepsRules_malformed _ _ _

theorem keepsRules_enterAlt (alt : Alt) (num : Nat) : (enterAlt alt num).KeepsRules :=
  Job.keepsRules_modifyContext (Context.shift_enterAlt alt num)

theorem keepsRules_strategy (site : ChoiceSite) : (setup.strategy site).KeepsRules := by
  have unclassified (detail : String) :
      (do let context ← Job.context
          Job.report (.ofUnclassified context.ruleName site.place.span detail)
          return Strategy.generic : Job Strategy).KeepsRules :=
    Job.keepsRules_context fun _ => (Job.keepsRules_report _).bind fun _ => Job.keepsRules_pure _
  unfold strategy
  dsimp only
  split
  · exact unclassified _
  · split
    · exact Job.keepsRules_pure _
    · exact unclassified _

theorem keepsRules_ll1Tests (site : ChoiceSite) (count : Nat) (p : Point) :
    (setup.ll1Tests site count p).KeepsRules := by
  unfold ll1Tests
  split
  · exact Job.keepsRules_malformed _ _ _
  · split
    · exact Job.keepsRules_malformed _ _ _
    · split
      · exact Job.keepsRules_mapM (fun look => setup.keepsRules_visit _ _) _
      · exact Job.keepsRules_malformed _ _ _

theorem keepsRules_choice (kind : ChoiceKind) (site : ChoiceSite) (alts : List Alternative) :
    (setup.choice kind site alts).KeepsRules := by
  have shown (c : Choice) : (setup.visitChoice c kind).KeepsRules := by
    obtain ⟨_ | _ | _, _ | _⟩ := kind <;> exact setup.keepsRules_visit _ _
  unfold choice
  split
  · split
    · exact (setup.keepsRules_ll1Tests _ _ _).bind fun _ => shown _
    · exact (Job.keepsRules_pure _).bind fun _ => shown _
  · exact Job.keepsRules_malformed _ _ _

/-- What a choice takes behind its alternatives. -/
theorem keepsRules_choose (site : ChoiceSite) (ebnf : Bool) (alts : List Alternative) :
    (do let strategy ← setup.strategy site
        return [.choice (← setup.choice ⟨strategy, ebnf⟩ site alts)] :
      Job (List Op)).KeepsRules :=
  (setup.keepsRules_strategy site).bind fun _ => (setup.keepsRules_choice _ site alts).bind fun _ =>
    Job.keepsRules_pure _

theorem keepsRules_rewriteToken (place : Place) (name : Option String) (isRoot : Bool)
    (arg : Option String) : (setup.rewriteToken place name isRoot arg).KeepsRules := by
  unfold rewriteToken
  split
  · exact Job.keepsRules_malformed _ _ _
  · exact (setup.keepsRules_tokenType _ _ _).bind fun _ => Job.keepsRules_context fun _ =>
      setup.keepsRules_visit _ _

theorem keepsRules_rewriteReference (isRoot : Bool) (r : Reference) :
    (setup.rewriteReference isRoot r).KeepsRules := by
  match r with
  | .rule ⟨_, none, _, _⟩ => exact Job.keepsRules_malformed _ _ _
  | .rule ⟨_, some _, _, _⟩ => exact Job.keepsRules_context fun _ => setup.keepsRules_visit _ _
  | .token t => exact setup.keepsRules_rewriteToken _ _ _ _
  | .literal l => exact setup.keepsRules_rewriteToken _ _ _ _

mutual

/-- A rewrite declares nothing. -/
theorem keepsRules_rewriteElement (isRoot : Bool) :
    ∀ element : RewriteElement, (setup.rewriteElement isRoot element).KeepsRules
  | .reference r => by
      rw [rewriteElement]
      exact setup.keepsRules_rewriteReference isRoot r
  | .tree span [] => by
      rw [rewriteElement]
      exact fun _ => rfl
  | .tree span (first :: rest) => by
      rw [rewriteElement]
      refine KeepsRules.within Context.shift_enterTree Context.shift_exitTree ?_
      refine (keepsRules_rewriteElement true first).bind fun root => ?_
      refine (keepsRules_rewriteElements rest).bind fun children => ?_
      exact (Job.keepsRules_context fun _ => setup.keepsRules_visit _ _).bind fun _ =>
        Job.keepsRules_pure _
  | .optional span referenced elements => by
      rw [rewriteElement]
      refine ((keepsRules_rewriteElements elements).within (Context.shift_pushBlock none)
        Context.shift_popBlock).bind fun ops => ?_
      exact (Job.keepsRules_context fun _ => setup.keepsRules_visit _ _).bind fun _ =>
        Job.keepsRules_pure _
  | .closure span referenced elements => by
      rw [rewriteElement]
      refine ((keepsRules_rewriteElements elements).within (Context.shift_pushBlock none)
        Context.shift_popBlock).bind fun ops => ?_
      exact (Job.keepsRules_context fun _ => setup.keepsRules_visit _ _).bind fun _ =>
        Job.keepsRules_pure _

theorem keepsRules_rewriteElements :
    ∀ elements : List RewriteElement, (setup.rewriteElements elements).KeepsRules
  | [] => Job.keepsRules_pure _
  | element :: rest => by
      rw [rewriteElements]
      exact (keepsRules_rewriteElement false element).bind fun _ =>
        (keepsRules_rewriteElements rest).bind fun _ => Job.keepsRules_pure _

end

theorem keepsRules_rewriteOf (rewrite : Option Rewrite) :
    (setup.rewriteOf rewrite).KeepsRules := by
  cases rewrite with
  | none => exact Job.keepsRules_pure _
  | some rewrite =>
      refine (setup.keepsRules_rewriteElements rewrite.elements).bind fun ops => ?_
      exact (Job.keepsRules_context fun _ => setup.keepsRules_visit _ _).bind fun _ =>
        Job.keepsRules_pure _

variable {spot : Spot}

theorem fills_defineImplicitLabel (op : Op) :
    (setup.defineImplicitLabel op).Fills spot
      ((setup.implicitLabel? op).map (op.field false ·)).toList := by
  unfold defineImplicitLabel
  cases setup.implicitLabel? op with
  | none => exact (Job.keepsRules_pure _).fills
  | some label => exact (Job.fills_declare _).andThen fun _ => Job.keepsRules_pure _

theorem fills_labels {op : Op} (h : op.labels? = some []) (span : Span) (label : Option Label) :
    (applyLabel op label >>= setup.labelIfNeeded span).Fills spot
      (setup.labelField? spot.refs span op label).toList := by
  have unlabeled : op.isUnlabeled := by
    unfold Op.isUnlabeled
    rw [h]
  match label with
  | none =>
      change (setup.labelIfNeeded span op).Fills _ _
      unfold labelIfNeeded labelField?
      rw [if_pos unlabeled]
      refine (setup.keepsRules_needsImplicitLabel span op).step
        (setup.follows_needsImplicitLabel unlabeled span) ?_
      cases setup.labelNeeded spot.refs span op with
      | true => exact setup.fills_defineImplicitLabel op
      | false => exact (Job.keepsRules_pure op).fills
  | some ⟨_, _, none⟩ => exact (Job.keepsRules_malformed _ _ _).fills
  | some ⟨isList, place, some name⟩ =>
      change ((Job.modifyRule (·.declare (op.field isList name)) >>= fun _ =>
        pure (op.addLabel name)) >>= setup.labelIfNeeded span).Fills _ _
      rw [bind_assoc]
      refine (Job.fills_declare _).andThen fun _ => ?_
      -- what has its label already is asked no more
      rw [pure_bind, labelIfNeeded, isUnlabeled_addLabel h name]
      exact Job.keepsRules_pure _

/-- A reference of which nothing can be built declares nothing. -/
theorem fills_reference (nearest : List String) (r : Reference) (label : Option Label) :
    (setup.reference r label).Fills spot
      ([ReferenceSite.mk r label nearest spot.refs].filterMap setup.field?) := by
  have follows : (setup.referenceOp r).Follows spot (setup.plainOp r) spot.refs :=
    setup.follows_referenceOp r
  have keeps := setup.keepsRules_referenceOp r
  have one : [ReferenceSite.mk r label nearest spot.refs].filterMap setup.field? =
      (setup.field? ⟨r, label, nearest, spot.refs⟩).toList := by
    rw [List.filterMap_cons]
    cases setup.field? ⟨r, label, nearest, spot.refs⟩ <;> rfl
  rw [one, field?]
  unfold reference
  cases hop : setup.plainOp r with
  | error construct =>
      rw [hop] at follows
      exact keeps.stops follows _
  | ok op =>
      rw [hop] at follows
      have unlabeled := setup.labels?_of_plainOp hop
      refine keeps.step follows ?_
      rw [← bind_assoc]
      refine (setup.fills_labels unlabeled r.place.span label).andThen fun op => ?_
      cases r with
      | rule r =>
          refine (setup.keepsRules_visit .ruleRef [op]).bind fun ops => ?_
          split
          · exact Job.keepsRules_pure _
          · exact setup.keepsRules_visit .leafRule ops
      | token t =>
          refine (setup.keepsRules_visit .tokenRef [op]).bind fun ops => ?_
          split
          · exact Job.keepsRules_pure _
          · exact setup.keepsRules_visit .leafToken ops
      | literal l => exact setup.keepsRules_visit .stringRef [op]

theorem fills_labeledReference (nearest : List String) (element : Element) :
    (setup.labeledReference element).Fills spot
      ((element.labeledSites nearest spot.refs).filterMap setup.field?) := by
  unfold labeledReference Element.labeledSites
  obtain ⟨operand, label⟩ := element.splitLabel
  cases operand with
  | reference r =>
      exact (setup.fills_reference nearest r label).andThen fun _ => Job.keepsRules_pure _
  | _ => exact (Job.keepsRules_malformed _ _ _).fills

/-- What is reached in an alternative does not hang on the names around it. -/
theorem reached_withRefs (spot : Spot) (refs : List String) (alt : Alt) :
    alt.reached setup { spot with refs } = alt.reached setup spot := by
  obtain ⟨span, elements, rewrite, _ | ⟨stranger, strangers⟩, names⟩ := alt <;>
    rw [Alt.reached, Alt.reached]

namespace KeepsContracts

variable {setup : Setup}

mutual

theorem fills_walkElement (keeps : setup.KeepsContracts) (spot : Spot) (nearest : List String) :
    ∀ element : Element, (setup.walkElement element).Fills spot
      ((element.reached setup spot nearest).filterMap setup.field?)
  | .reference r => by
      rw [walkElement, Element.reached]
      exact setup.fills_reference nearest r none
  | .action c => by
      rw [walkElement, Element.reached]
      · exact (setup.keepsRules_action c).fills
      all_goals simp
  | .forcedAction c => by
      rw [walkElement, Element.reached]
      · exact (setup.keepsRules_forcedAction c).fills
      all_goals simp
  | .predicate c => by
      rw [walkElement, Element.reached]
      · exact (setup.keepsRules_predicate c).fills
      all_goals simp
  | .epsilon span => by
      rw [walkElement, Element.reached]
      · exact (Job.keepsRules_pure _).fills
      all_goals simp
  | .block b => by
      rw [walkElement, Element.reached]
      exact keeps.fills_walkBlock spot b
  | .ebnf kind span decision none | .root span none | .bang span none => by
      rw [walkElement, Element.reached]
      · exact (Job.keepsRules_malformed _ _ _).fills
      all_goals simp
  | .ebnf kind span decision (some ⟨bodySpan, bodyDecision, alts⟩) => by
      rw [walkElement, Element.reached]
      dsimp only
      cases alts with
      | nil =>
          rw [Alt.reachedIn]
          exact (Job.keepsRules_malformed _ _ _).fills
      | cons alt rest =>
          have inside := keeps.fills_walkAlts spot.inBlock spot.refs 1 (alt :: rest)
          exact (fills_insideChoice _ inside).andThen fun branches =>
            setup.keepsRules_choose _ true branches
  | .root span (some operand) => by
      rw [walkElement, Element.reached]
      exact (setup.fills_labeledReference nearest operand).andThen fun built =>
        setup.keepsRules_rootReference built.1 built.2
  | .bang span (some operand) => by
      rw [walkElement, Element.reached]
      exact keeps.fills_walkElement spot nearest operand
  | .labeled label operand => by
      rw [walkElement, Element.reached]
      exact (setup.fills_labeledReference nearest _).andThen fun _ => Job.keepsRules_pure _

theorem fills_walkElements (keeps : setup.KeepsContracts) (spot : Spot) (nearest : List String) :
    ∀ elements : List Element, (setup.walkElements elements).Fills spot
      ((Element.reachedIn setup spot nearest elements).filterMap setup.field?)
  | [] => by
      rw [Element.reachedIn]
      exact (Job.keepsRules_pure _).fills
  | element :: rest => by
      rw [walkElements, Element.reachedIn]
      refine (keeps.fills_walkElement spot nearest element).bind_sites
        (keeps.follows_walkElement spot element) fun ops => ?_
      exact (keeps.fills_walkElements _ nearest rest).andThen fun _ => Job.keepsRules_pure _

theorem fills_walkBlock (keeps : setup.KeepsContracts) (spot : Spot) :
    ∀ block : Block, (setup.walkBlock block).Fills spot
      ((block.reached setup spot).filterMap setup.field?)
  | ⟨span, decision, []⟩ => by
      rw [walkBlock, Block.reached, Alt.reachedIn]
      · exact (Job.keepsRules_malformed _ _ _).fills
      · simp
  | ⟨span, decision, [alt]⟩ => by
      rw [walkBlock, Block.reached]
      exact (keeps.fills_walkAlt spot 1 alt).andThen fun _ => Job.keepsRules_pure _
  | ⟨span, decision, alt :: next :: rest⟩ => by
      rw [walkBlock, Block.reached]
      · have inside := keeps.fills_walkAlts spot.inBlock spot.refs 1 (alt :: next :: rest)
        exact (fills_insideChoice _ inside).andThen fun branches =>
          setup.keepsRules_choose _ false branches
      all_goals simp

theorem fills_walkAlts (keeps : setup.KeepsContracts) (spot : Spot) :
    ∀ (refs : List String) (num : Nat) (alts : List Alt),
      (setup.walkAlts num alts).Fills { spot with refs }
        ((Alt.reachedIn setup spot num alts).filterMap setup.field?)
  | _, _, [] => by
      rw [Alt.reachedIn]
      exact (Job.keepsRules_pure _).fills
  | refs, num, alt :: rest => by
      have first := keeps.fills_walkAlt { spot with refs } num alt
      have follows := keeps.follows_walkAlt { spot with refs } num alt
      rw [reached_withRefs] at first
      rw [branch_withRefs] at follows
      rw [walkAlts, Alt.reachedIn]
      refine first.bind_sites follows fun alternative => ?_
      exact (keeps.fills_walkAlts spot alt.refsAfter (num + 1) rest).andThen fun _ =>
        Job.keepsRules_pure _

theorem fills_walkAlt (keeps : setup.KeepsContracts) (spot : Spot) :
    ∀ (num : Nat) (alt : Alt), (setup.walkAlt num alt).Fills spot
      ((alt.reached setup spot).filterMap setup.field?)
  | num, ⟨span, elements, rewrite, stranger :: strangers, refs⟩ => by
      rw [Alt.reached]
      unfold walkAlt
      exact (Job.keepsRules_malformed _ _ _).fills
  | num, ⟨span, elements, rewrite, [], refs⟩ => by
      have inside := keeps.fills_walkElements { spot with refs } refs elements
      rw [Alt.reached]
      unfold walkAlt
      dsimp only
      split
      · exact (Job.keepsRules_malformed _ _ _).fills
      · exact ((keepsRules_enterAlt _ num).bind fun _ => setup.keepsRules_visit _ _).fills
      · let alt : Alt := ⟨span, elements, rewrite, [], refs⟩
        have follows : (setup.alternative alt num).Follows spot
            (.ok (setup.decorated .alternative ⟨num, []⟩)) refs :=
          (follows_enterAlt alt num).step (keeps.follows_visit .alternative _)
        have begun : (setup.alternative alt num).KeepsRules :=
          (keepsRules_enterAlt alt num).bind fun _ => setup.keepsRules_visit _ _
        refine begun.step follows ?_
        refine inside.andThen fun ops => ?_
        exact (setup.keepsRules_rewriteOf _).bind fun _ => setup.keepsRules_visit _ _

end

/-- The walk over a rule declares the fields of the sites that it comes to. -/
theorem fills_walkRule (keeps : setup.KeepsContracts) (rule : Rule) :
    (setup.walkRule rule).Fills .start ((rule.reached setup).filterMap setup.field?) := by
  unfold walkRule Rule.reached
  cases rule.block with
  | some block => exact keeps.fills_walkBlock .start block
  | none => exact (Job.keepsRules_malformed _ _ _).fills

end KeepsContracts

end Setup

end RecognizerModel
