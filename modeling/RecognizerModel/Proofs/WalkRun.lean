import RecognizerModel.Proofs.Following
import RecognizerModel.Proofs.LocalWalk

/-! The walk does what the translation says, as long as the extensions keep their contracts. -/
namespace RecognizerModel

/-- The alternative at hand before a choice is at hand again after it. -/
theorem follows_insideChoice {spot : Spot} {refs : List String} {body : Job α}
    {result : Translated α} (decision : Option Nat)
    (hbody : body.Follows spot.inBlock result refs) :
    (insideChoice decision body).Follows spot result spot.refs := by
  intro s stands
  have run := hbody { s with context := s.context.pushBlock decision } (stands.pushBlock decision)
  change Job.Reaches ((do
    let result ← body
    Job.modifyContext fun c => { c.popBlock with alt := s.context.alt }
    return result) { s with context := s.context.pushBlock decision }) _ _
  rw [Job.bind_run]
  rcases hrun : body { s with context := s.context.pushBlock decision } with ⟨answer, t⟩
  rw [hrun] at run
  cases result with
  | ok a =>
      obtain ⟨rfl, inside⟩ := run
      exact ⟨rfl, inside.leaveChoice stands⟩
  | error construct =>
      obtain rfl : answer = _ := run
      rfl

namespace Setup

variable (setup : Setup) {spot : Spot}

theorem follows_tokenType (name : String) (place : Place) (p : Point) :
    (setup.tokenType name place p).Follows spot (setup.typeOf name place p) spot.refs := by
  unfold tokenType typeOf
  cases setup.grammar.vocabulary.type? name with
  | some ttype => exact Job.follows_pure _
  | none => exact Job.follows_malformed _ _ _

theorem follows_referenceOp (r : Reference) :
    (setup.referenceOp r).Follows spot (setup.plainOp r) spot.refs := by
  match r with
  | .rule ⟨_, some _, _, _⟩ => exact Job.follows_pure _
  | .token ⟨_, some _, _, _⟩ | .literal ⟨_, some _⟩ =>
      exact (setup.follows_tokenType _ _ _).bind fun _ => Job.follows_pure _
  | .rule ⟨_, none, _, _⟩ | .token ⟨_, none, _, _⟩ | .literal ⟨_, none⟩ =>
      exact Job.follows_malformed _ _ _

/-- What a reference stands for can carry a label and has none. -/
theorem labels?_of_plainOp {r : Reference} {op : Op} (h : setup.plainOp r = .ok op) :
    op.labels? = some [] := by
  match r with
  | .rule ⟨_, some _, _, _⟩ =>
      cases h
      rfl
  | .token ⟨_, some _, _, _⟩ | .literal ⟨_, some _⟩ =>
      obtain ⟨ttype, _, h⟩ := bind_eq_ok.mp h
      cases h
      rfl
  | .rule ⟨_, none, _, _⟩ | .token ⟨_, none, _, _⟩ | .literal ⟨_, none⟩ => cases h

theorem exists_implicitLabel {op : Op} (h : op.labels? = some []) :
    ∃ name, setup.implicitLabel? op = some name := by
  cases op <;> first | exact ⟨_, rfl⟩ | cases h

theorem isUnlabeled_addLabel {op : Op} (h : op.labels? = some []) (label : String) :
    (op.addLabel label).isUnlabeled = false := by
  cases op <;> cases h <;> rfl

theorem follows_defineImplicitLabel (op : Op) :
    (setup.defineImplicitLabel op).Follows spot (.ok (setup.withImplicitLabel op)) spot.refs := by
  unfold defineImplicitLabel withImplicitLabel
  cases setup.implicitLabel? op with
  | none => exact Job.follows_pure _
  | some label =>
      exact (Job.follows_declare _).step (Job.follows_pure _)

theorem follows_needsImplicitLabel {op : Op} (h : op.isUnlabeled) (span : Span) :
    (setup.needsImplicitLabel span op).Follows spot
      (.ok (setup.labelNeeded spot.refs span op)) spot.refs := by
  refine Job.follows_context fun c stands => ?_
  have referred : (op.isUnlabeled && op.referredName?.any fun name =>
      c.alt.any (·.refersTo name)) = op.referredName?.any spot.refs.contains := by
    rw [h, Bool.true_and]
    congr 1
    funext name
    exact stands.refersTo name
  rw [referred]
  exact (Job.follows_recordVisits _ _).bind fun _ => Job.follows_pure _

/-- The explicit label first, and then an implicit one if that is still needed. -/
theorem follows_labels {op : Op} (h : op.labels? = some []) (span : Span)
    (label : Option Label) :
    (applyLabel op label >>= setup.labelIfNeeded span).Follows spot
      (setup.labeled spot.refs span op label) spot.refs := by
  have unlabeled : op.isUnlabeled := by
    unfold Op.isUnlabeled
    rw [h]
  match label with
  | none =>
      change (setup.labelIfNeeded span op).Follows _ _ _
      unfold labelIfNeeded labeled
      rw [if_pos unlabeled]
      refine (setup.follows_needsImplicitLabel unlabeled span).step ?_
      cases setup.labelNeeded spot.refs span op with
      | true => exact setup.follows_defineImplicitLabel op
      | false => exact Job.follows_pure op
  | some ⟨_, _, none⟩ => exact fun _ _ => rfl
  | some ⟨isList, place, some name⟩ =>
      have declared : (applyLabel op (some ⟨isList, place, some name⟩)).Follows spot
          (.ok (op.addLabel name)) spot.refs :=
        (Job.follows_declare _).step (Job.follows_pure _)
      refine declared.step ?_
      unfold labelIfNeeded
      rw [isUnlabeled_addLabel h name]
      exact Job.follows_pure _

theorem follows_strategy (site : ChoiceSite) :
    (setup.strategy site).Follows spot (.ok (setup.kindAt site).strategy) spot.refs := by
  have unclassified (detail : String) :
      (do let context ← Job.context
          Job.report (.ofUnclassified context.ruleName site.place.span detail)
          return Strategy.generic : Job Strategy).Follows spot (.ok .generic) spot.refs :=
    Job.follows_context fun _ _ => (Job.follows_report _).bind fun _ => Job.follows_pure _
  unfold strategy kindAt classAt?
  cases site.decision with
  | none => exact unclassified _
  | some n =>
      dsimp only [Option.bind_some]
      cases setup.grammar.classify n with
      | none => exact unclassified _
      | some c => exact Job.follows_pure _

/-- Tests are made where sets of lookahead are known and nowhere else. -/
theorem isLl1_kindAt (site : ChoiceSite) :
    (setup.kindAt site).isLl1 = (setup.lookaheadAt? site).isSome := by
  unfold kindAt lookaheadAt?
  match setup.classAt? site with
  | none | some ⟨.generic, _⟩ | some ⟨.ll1, _⟩ | some ⟨.llStar, _⟩ => rfl

theorem lookaheadAt?_eq_some_iff {site : ChoiceSite} {sets : List LookaheadSet} :
    setup.lookaheadAt? site = some sets ↔
      ∃ n, site.decision = some n ∧ setup.grammar.classify n = some (.ll1 sets) := by
  rw [← Option.bind_eq_some_iff]
  change setup.lookaheadAt? site = some sets ↔ setup.classAt? site = some (.ll1 sets)
  unfold lookaheadAt?
  split
  · next hclass => simp [hclass, Classification.ll1]
  · next other => exact iff_of_false nofun (other sets)

theorem follows_enterAlt (alt : Alt) (num : Nat) :
    (enterAlt alt num).Follows spot (.ok ()) alt.refs :=
  Job.follows_modifyContext fun _ stands =>
    ⟨stands.rules, rfl, stands.levels, stands.treeLevel⟩

/-- The body of an optional or repeated rewrite. -/
theorem follows_nestedRewrite {body : Job α} {result : Translated α}
    (hbody : body.Follows spot.inBlock result spot.refs) :
    (Job.within (.pushBlock none) .popBlock body).Follows spot result spot.refs :=
  Job.Follows.within (fun _ stands => stands.pushBlock none)
    (fun c (inside : c.StandsAt spot.inBlock) => inside.popBlock) hbody

/-- An alternative brings its own references along. -/
theorem branch_withRefs (spot : Spot) (refs : List String) (num : Nat) (alt : Alt) :
    setup.branch { spot with refs } num alt = setup.branch spot num alt := by
  rw [branch.eq_def, branch.eq_def]

theorem branches_withRefs (spot : Spot) (refs : List String) (num : Nat) (alts : List Alt) :
    setup.branches { spot with refs } num alts = setup.branches spot num alts := by
  induction alts generalizing num with
  | nil => rfl
  | cons alt rest ih => rw [branches, branches, branch_withRefs, ih]

theorem kind_of_plainOp {r : Reference} {op : Op} (h : setup.plainOp r = .ok op) :
    op.kind = r.opKind := by
  match r with
  | .rule ⟨_, some _, _, _⟩ =>
      cases h
      rfl
  | .token ⟨_, some _, _, _⟩ | .literal ⟨_, some _⟩ =>
      obtain ⟨ttype, _, h⟩ := bind_eq_ok.mp h
      cases h
      rfl
  | .rule ⟨_, none, _, _⟩ | .token ⟨_, none, _, _⟩ | .literal ⟨_, none⟩ => cases h

/-- A label is added to an operation or the operation stays as it is. -/
theorem eq_or_eq_addLabel_of_labeled {setup : Setup} {refs : List String} {span : Span}
    {op labeled : Op} {label : Option Label} (h : setup.labeled refs span op label = .ok labeled) :
    labeled = op ∨ ∃ name, labeled = op.addLabel name := by
  match label with
  | none =>
      cases h
      unfold withImplicitLabel
      split
      · split
        · exact .inr ⟨_, rfl⟩
        · exact .inl rfl
      · exact .inl rfl
  | some ⟨_, _, some name⟩ =>
      cases h
      exact .inr ⟨name, rfl⟩
  | some ⟨_, _, none⟩ => cases h

theorem kind_of_labeled {refs : List String} {span : Span} {op labeled : Op}
    {label : Option Label} (h : setup.labeled refs span op label = .ok labeled) :
    labeled.kind = op.kind := by
  rcases eq_or_eq_addLabel_of_labeled h with rfl | ⟨name, rfl⟩
  · rfl
  · exact op.kind_addLabel name

/-- Whether operations come back from the extensions as these make them, as long as they hold what
validation wants to stay in them. -/
def PassesOps (setup : Setup) : Prop :=
  ∀ (p : Point) (ops : p.Node), p.subject = .ops →
    (setup.chain.validate = true → p.Anchored ops) →
      (setup.chain.fold p p.anchor? ops).outcome = .ok (setup.decorated p ops)

namespace PassesOps

variable {setup : Setup} (passes : setup.PassesOps)

include passes

theorem follows_visit (p : Point) {ops : p.Node} (isOps : p.subject = .ops)
    (held : setup.chain.validate = true → p.Anchored ops) :
    (setup.visit p ops).Follows spot (.ok (setup.decorated p ops)) spot.refs := by
  refine (Job.follows_recordVisits p _).step ?_
  rw [passes p ops isOps held]
  exact Job.follows_pure _

theorem anchored_decorated (p : Point) {ops : p.Node} (isOps : p.subject = .ops)
    (held : setup.chain.validate = true → p.Anchored ops) (validate : setup.chain.validate = true) :
    p.Anchored (setup.decorated p ops) :=
  anchored_of_fold validate (held validate) (passes p ops isOps held)

/-- The operation of a reference has the kind that stays in the list at each of its points. -/
theorem follows_reference (r : Reference) (label : Option Label) :
    (setup.reference r label).Follows spot (setup.referenceCode spot.refs r label) spot.refs := by
  refine (setup.follows_referenceOp r).bind_of_ok fun plain hplain => ?_
  rw [← bind_assoc]
  refine (setup.follows_labels (setup.labels?_of_plainOp hplain) r.place.span label).bind_of_ok
    fun op hop => ?_
  have kind : op.kind = r.opKind :=
    (setup.kind_of_labeled hop).trans (setup.kind_of_plainOp hplain)
  match r with
  | .rule ⟨_, _, _, marked⟩ =>
      have held : Point.ruleRef.Anchored [op] := by
        rintro _ ⟨⟩
        exact anchored_singleton kind
      have stays := passes.anchored_decorated .ruleRef rfl fun _ => held
      cases marked with
      | true =>
          refine (passes.follows_visit .ruleRef rfl fun _ => held).bind fun _ => ?_
          exact Job.follows_pure _
      | false =>
          refine (passes.follows_visit .ruleRef rfl fun _ => held).step ?_
          exact passes.follows_visit .leafRule rfl stays
  | .token ⟨_, _, _, marked⟩ =>
      have held : Point.tokenRef.Anchored [op] := by
        rintro _ ⟨⟩
        exact anchored_singleton kind
      have stays := passes.anchored_decorated .tokenRef rfl fun _ => held
      cases marked with
      | true =>
          refine (passes.follows_visit .tokenRef rfl fun _ => held).bind fun _ => ?_
          exact Job.follows_pure _
      | false =>
          refine (passes.follows_visit .tokenRef rfl fun _ => held).step ?_
          exact passes.follows_visit .leafToken rfl stays
  | .literal _ =>
      refine passes.follows_visit .stringRef rfl fun _ => ?_
      rintro _ ⟨⟩
      exact anchored_singleton kind

theorem follows_rootReference (r : Reference) (ops : List Op) :
    (setup.rootReference r ops).Follows spot (.ok (setup.decoratedRoot r ops)) spot.refs := by
  cases r with
  | rule r => exact passes.follows_visit .rootRule rfl nofun
  | token t => exact passes.follows_visit .rootToken rfl nofun
  | literal l => exact passes.follows_visit .rootToken rfl nofun

theorem follows_labeledReference (element : Element) :
    (setup.labeledReference element).Follows spot
      (setup.labeledReferenceCode spot.refs element) spot.refs := by
  unfold labeledReference labeledReferenceCode
  obtain ⟨operand, label⟩ := element.splitLabel
  cases operand with
  | reference r => exact (passes.follows_reference r label).bind fun _ => Job.follows_pure _
  | _ => exact Job.follows_malformed _ _ _

end PassesOps

namespace KeepsContracts

variable {setup : Setup}

section

variable (keeps : setup.KeepsContracts)

include keeps

theorem follows_visit (p : Point) (node : p.Node) :
    (setup.visit p node).Follows spot (.ok (setup.decorated p node)) spot.refs := by
  refine (Job.follows_recordVisits p _).step ?_
  rw [keeps p node]
  exact Job.follows_pure _

theorem passesOps : setup.PassesOps :=
  fun p ops _ _ => keeps p ops

theorem follows_action (c : CodeNode) :
    (setup.action c).Follows spot (setup.actionCode c) spot.refs := by
  match c with
  | ⟨_, some _⟩ => exact keeps.follows_visit .action _
  | ⟨_, none⟩ => exact Job.follows_malformed _ _ _

theorem follows_forcedAction (c : CodeNode) :
    (setup.forcedAction c).Follows spot (setup.forcedActionCode c) spot.refs := by
  match c with
  | ⟨_, some _⟩ => exact keeps.follows_visit .forcedAction _
  | ⟨_, none⟩ => exact Job.follows_malformed _ _ _

theorem follows_predicate (c : CodeNode) :
    (setup.predicate c).Follows spot (setup.predicateCode c) spot.refs := by
  match c with
  | ⟨_, some _⟩ => exact keeps.follows_visit .predicate _
  | ⟨_, none⟩ => exact Job.follows_malformed _ _ _

theorem follows_visitChoice (c : Choice) (kind : ChoiceKind) :
    (setup.visitChoice c kind).Follows spot (.ok (setup.decoratedChoice c kind)) spot.refs := by
  obtain ⟨_ | _ | _, _ | _⟩ := kind <;> apply keeps.follows_visit

theorem follows_ll1Tests {site : ChoiceSite} {sets : List LookaheadSet}
    (h : setup.lookaheadAt? site = some sets) (count : Nat) :
    (setup.ll1Tests site count (.ofChoice (setup.kindAt site))).Follows spot
      (setup.testsAt site count) spot.refs := by
  obtain ⟨n, hdecision, hclass⟩ := setup.lookaheadAt?_eq_some_iff.mp h
  unfold ll1Tests testsAt
  simp only [hdecision, hclass, h]
  by_cases fits : sets.length = count
  · rw [if_pos fits, if_pos (c := (Classification.ll1 sets).lookahead.length = count) fits]
    exact Job.follows_mapM (fun look => keeps.follows_visit .ll1Test _) sets
  · rw [if_neg fits, if_neg (c := (Classification.ll1 sets).lookahead.length = count) fits]
    exact Job.follows_malformed _ _ _

theorem follows_choice (site : ChoiceSite) (alts : List Alternative) :
    (setup.choice (setup.kindAt site) site alts).Follows spot (setup.choiceAt site alts)
      spot.refs := by
  have fits : (setup.kindAt site).ebnf = site.ebnf.isSome := rfl
  unfold choice
  dsimp only
  rw [if_pos fits, isLl1_kindAt]
  cases hlook : setup.lookaheadAt? site with
  | some sets =>
      exact (keeps.follows_ll1Tests hlook alts.length).bind fun _ =>
        keeps.follows_visitChoice _ _
  | none =>
      have untested : setup.testsAt site alts.length = .ok [] := by
        simp only [testsAt, hlook]
      unfold choiceAt
      rw [untested]
      exact (Job.follows_pure _).bind fun _ => keeps.follows_visitChoice _ _

/-- The choice of a site once its alternatives are there. -/
theorem follows_choose (site : ChoiceSite) (alts : List Alternative) :
    (do let strategy ← setup.strategy site
        return [.choice (← setup.choice ⟨strategy, site.ebnf.isSome⟩ site alts)] :
      Job (List Op)).Follows spot
      (do return [.choice (← setup.choiceAt site alts)]) spot.refs := by
  refine (setup.follows_strategy site).step ?_
  exact (keeps.follows_choice site alts).bind fun _ => Job.follows_pure _

theorem follows_treeRewrite (ops : List Op) :
    (setup.treeRewrite ops).Follows spot
      (.ok (setup.decorated .treeRewrite ⟨spot.blockLevel, ops⟩)) spot.refs :=
  Job.follows_context fun c stands => by
    rw [stands.blockLevel_eq]
    exact keeps.follows_visit .treeRewrite _

theorem follows_rewriteOptional (referenced : List String) (ops : List Op) :
    (setup.rewriteOptional referenced ops).Follows spot
      (.ok (setup.decorated .rewriteOptional ⟨spot.blockLevel, referenced, ops⟩)) spot.refs :=
  Job.follows_context fun c stands => by
    rw [stands.blockLevel_eq]
    exact keeps.follows_visit .rewriteOptional _

theorem follows_rewriteClosure (referenced : List String) (ops : List Op) :
    (setup.rewriteClosure referenced ops).Follows spot
      (.ok (setup.decorated .rewriteClosure ⟨spot.blockLevel, referenced, ops⟩)) spot.refs :=
  Job.follows_context fun c stands => by
    rw [stands.blockLevel_eq]
    exact keeps.follows_visit .rewriteClosure _

theorem follows_rewriteTree (root children : List Op) :
    (setup.rewriteTree root children).Follows spot
      (.ok (setup.decorated .rewriteTree ⟨spot.trees, spot.blockLevel, root, children⟩))
      spot.refs :=
  Job.follows_context fun c stands => by
    rw [stands.blockLevel_eq, stands.treeLevel]
    exact keeps.follows_visit .rewriteTree _

theorem follows_rewriteToken (place : Place) (name : Option String) (isRoot : Bool)
    (arg : Option String) :
    (setup.rewriteToken place name isRoot arg).Follows spot
      (setup.rewriteTokenCode spot place name isRoot arg) spot.refs := by
  cases name with
  | none => exact Job.follows_malformed _ _ _
  | some name =>
      refine (setup.follows_tokenType name place _).bind fun ttype => ?_
      refine Job.follows_context fun c stands => ?_
      rw [stands.blockLevel_eq, stands.treeLevel]
      exact keeps.follows_visit .rewriteTokenRef _

theorem follows_rewriteReference (isRoot : Bool) (r : Reference) :
    (setup.rewriteReference isRoot r).Follows spot
      (setup.rewriteReferenceCode spot isRoot r) spot.refs := by
  match r with
  | .rule ⟨_, none, _, _⟩ => exact Job.follows_malformed _ _ _
  | .rule ⟨_, some _, _, _⟩ =>
      refine Job.follows_context fun c stands => ?_
      rw [stands.blockLevel_eq, stands.treeLevel]
      exact keeps.follows_visit .rewriteRuleRef _
  | .token t => exact keeps.follows_rewriteToken _ _ _ _
  | .literal l => exact keeps.follows_rewriteToken _ _ _ _

end

mutual

theorem follows_rewriteElement (keeps : setup.KeepsContracts) (spot : Spot) (isRoot : Bool) :
    ∀ element : RewriteElement, (setup.rewriteElement isRoot element).Follows spot
      (setup.rewriteElementCode spot isRoot element) spot.refs
  | .reference r => by
      rw [rewriteElement, rewriteElementCode]
      exact keeps.follows_rewriteReference isRoot r
  | .tree span [] => by
      rw [rewriteElement, rewriteElementCode]
      exact fun _ _ => rfl
  | .tree span (first :: rest) => by
      rw [rewriteElement, rewriteElementCode]
      refine Job.Follows.within (fun _ => .enterTree) (fun _ => .exitTree) ?_
      refine (keeps.follows_rewriteElement spot.inTree true first).bind fun root => ?_
      refine (keeps.follows_rewriteElements spot.inTree rest).bind fun children => ?_
      exact (keeps.follows_rewriteTree root children).bind fun _ => Job.follows_pure _
  | .optional span referenced elements => by
      rw [rewriteElement, rewriteElementCode]
      refine (follows_nestedRewrite (keeps.follows_rewriteElements spot.inBlock elements)).bind
        fun ops => ?_
      exact (keeps.follows_rewriteOptional referenced ops).bind fun _ => Job.follows_pure _
  | .closure span referenced elements => by
      rw [rewriteElement, rewriteElementCode]
      refine (follows_nestedRewrite (keeps.follows_rewriteElements spot.inBlock elements)).bind
        fun ops => ?_
      exact (keeps.follows_rewriteClosure referenced ops).bind fun _ => Job.follows_pure _

theorem follows_rewriteElements (keeps : setup.KeepsContracts) (spot : Spot) :
    ∀ elements : List RewriteElement, (setup.rewriteElements elements).Follows spot
      (setup.rewriteElementsCode spot elements) spot.refs
  | [] => Job.follows_pure _
  | element :: rest => by
      rw [rewriteElements, rewriteElementsCode]
      refine (keeps.follows_rewriteElement spot false element).bind fun ops => ?_
      exact (keeps.follows_rewriteElements spot rest).bind fun _ => Job.follows_pure _

end

theorem follows_rewriteOf (keeps : setup.KeepsContracts) {spot : Spot}
    (rewrite : Option Rewrite) :
    (setup.rewriteOf rewrite).Follows spot (setup.rewriteCode spot rewrite) spot.refs := by
  cases rewrite with
  | none => exact Job.follows_pure _
  | some rewrite =>
      refine (keeps.follows_rewriteElements spot rewrite.elements).bind fun ops => ?_
      exact (keeps.follows_treeRewrite ops).bind fun _ => Job.follows_pure _

mutual

theorem follows_walkElement (keeps : setup.KeepsContracts) (spot : Spot) :
    ∀ element : Element, (setup.walkElement element).Follows spot
      (setup.elementCode spot element) (element.refsAfter spot.refs)
  | .reference r => by
      rw [walkElement, elementCode]
      exact keeps.passesOps.follows_reference r none
  | .action c => by
      rw [walkElement, elementCode]
      exact keeps.follows_action c
  | .forcedAction c => by
      rw [walkElement, elementCode]
      exact keeps.follows_forcedAction c
  | .predicate c => by
      rw [walkElement, elementCode]
      exact keeps.follows_predicate c
  | .epsilon span => by
      rw [walkElement, elementCode]
      exact Job.follows_pure _
  | .block b => by
      rw [walkElement, elementCode]
      exact keeps.follows_walkBlock spot b
  | .ebnf kind span decision none => by
      rw [walkElement, elementCode]
      exact Job.follows_malformed _ _ _
  | .ebnf kind span decision (some ⟨bodySpan, bodyDecision, alts⟩) => by
      rw [walkElement, elementCode]
      dsimp only
      cases alts with
      | nil => exact Job.follows_malformed _ _ _
      | cons alt rest =>
          obtain ⟨refs, hbranches⟩ := keeps.follows_walkAlts spot.inBlock 1 (alt :: rest)
          refine (follows_insideChoice _ hbranches).bind fun branches => ?_
          exact keeps.follows_choose _ branches
  | .root span none => by
      rw [walkElement, elementCode]
      exact Job.follows_malformed _ _ _
  | .root span (some operand) => by
      rw [walkElement, elementCode]
      refine (keeps.passesOps.follows_labeledReference operand).bind fun built => ?_
      exact keeps.passesOps.follows_rootReference built.1 built.2
  | .bang span none => by
      rw [walkElement, elementCode]
      exact Job.follows_malformed _ _ _
  | .bang span (some operand) => by
      rw [walkElement, elementCode]
      exact keeps.follows_walkElement spot operand
  | .labeled label operand => by
      rw [walkElement, elementCode]
      exact (keeps.passesOps.follows_labeledReference _).bind fun _ => Job.follows_pure _

theorem follows_walkElements (keeps : setup.KeepsContracts) (spot : Spot) :
    ∀ elements : List Element, (setup.walkElements elements).Follows spot
      (setup.elementsCode spot elements) (Element.refsAfterAll spot.refs elements)
  | [] => Job.follows_pure _
  | element :: rest => by
      rw [walkElements, elementsCode]
      refine (keeps.follows_walkElement spot element).bind fun ops => ?_
      exact (keeps.follows_walkElements _ rest).bind fun _ => Job.follows_pure _

theorem follows_walkBlock (keeps : setup.KeepsContracts) (spot : Spot) :
    ∀ block : Block, (setup.walkBlock block).Follows spot
      (setup.blockCode spot block) (block.refsAfter spot.refs)
  | ⟨span, decision, []⟩ => by
      rw [walkBlock, blockCode]
      exact Job.follows_malformed _ _ _
  | ⟨span, decision, [alt]⟩ => by
      rw [walkBlock, blockCode]
      -- no choice is left here, so nothing brings back the alternative around the block
      exact (keeps.follows_walkAlt spot 1 alt).bind fun _ => Job.follows_pure _
  | ⟨span, decision, alt :: next :: rest⟩ => by
      rw [walkBlock, blockCode]
      · obtain ⟨refs, hbranches⟩ := keeps.follows_walkAlts spot.inBlock 1 (alt :: next :: rest)
        refine (follows_insideChoice _ hbranches).bind fun branches => ?_
        exact keeps.follows_choose _ branches
      all_goals simp

theorem follows_walkAlts (keeps : setup.KeepsContracts) (spot : Spot) :
    ∀ (num : Nat) (alts : List Alt), ∃ refs,
      (setup.walkAlts num alts).Follows spot (setup.branches spot num alts) refs
  | _, [] => ⟨_, Job.follows_pure _⟩
  | num, alt :: rest => by
      obtain ⟨refs, hrest⟩ :=
        keeps.follows_walkAlts { spot with refs := alt.refsAfter } (num + 1) rest
      -- each alternative sets its own names, so those that the one before it leaves do not count
      rw [walkAlts, branches, ← setup.branches_withRefs spot alt.refsAfter]
      exact ⟨refs, (keeps.follows_walkAlt spot num alt).bind fun _ => hrest.bind fun _ =>
        Job.follows_pure _⟩

theorem follows_walkAlt (keeps : setup.KeepsContracts) (spot : Spot) :
    ∀ (num : Nat) (alt : Alt), (setup.walkAlt num alt).Follows spot
      (setup.branch spot num alt) alt.refsAfter
  | num, ⟨span, elements, rewrite, strangers, refs⟩ => by
      unfold walkAlt
      dsimp only
      split
      · rw [branch]
        exact Job.follows_malformed _ _ _
      · split
        · rw [branch]
          exact Job.follows_malformed _ _ _
        · rw [branch]
          exact (follows_enterAlt _ num).step (keeps.follows_visit .epsilon _)
        · rw [branch]
          · refine ((follows_enterAlt _ num).step (keeps.follows_visit .alternative _)).step ?_
            refine (keeps.follows_walkElements _ elements).bind fun ops => ?_
            exact (keeps.follows_rewriteOf _).bind fun _ => keeps.follows_visit .finishAlternative _
          all_goals assumption

end

end KeepsContracts

end Setup

end RecognizerModel
