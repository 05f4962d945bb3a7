import RecognizerModel.Proofs.ReportingJob
import RecognizerModel.Proofs.Spans
import RecognizerModel.Proofs.Translation

/-! What a walk reports. It warns about each choice without a classified decision once the choice is
due, so the warnings come in the order of the parts of the rule, and a walk that fails has given the
first of them. It fails inside of the rule, and never for want of a token in the vocabulary. -/
namespace RecognizerModel

open Job (Reports)
open Malformed (FaultIn)

/-- What is no reference under a label is at fault itself. -/
theorem Element.place_of_splitLabel {element other : Element} {label : Option Label}
    (h : element.splitLabel = (other, label)) :
    (label.map Label.place).getD other.place = element.place := by
  unfold splitLabel at h
  split at h <;> cases h <;> rfl

variable {name : String} {P : Span → Prop} {told : List Diagnostic}

theorem reports_applyLabel (op : Op) {label : Option Label}
    (spans : ∀ l, label = some l → P l.span) :
    (applyLabel op label).Reports name (FaultIn P) [] := by
  unfold applyLabel
  split
  · exact Job.reports_pure _
  · next l =>
    split
    · exact Job.reports_malformed (Malformed.faultIn_of_take (spans l rfl) (by decide))
    · exact (Job.reports_declare _).andThen fun _ => Job.reports_pure _

theorem reports_insideChoice {Fault : Malformed → Prop} {body : Job α} (decision : Option Nat)
    (hbody : body.Reports name Fault told) :
    (insideChoice decision body).Reports name Fault told := by
  refine Job.reports_context fun before _ => ?_
  refine (Job.reports_modifyContext (Context.shift_pushBlock decision)).andThen fun _ => ?_
  refine hbody.before fun result => ?_
  exact (Job.reports_modifyContext (Context.shift_leaveChoice before.alt)).andThen fun _ =>
    Job.reports_pure _

namespace Setup

variable (setup : Setup)

theorem reports_visit {Fault : Malformed → Prop} (p : Point) (node : p.Node) :
    (setup.visit p node).Reports name Fault [] := by
  refine (Job.reports_recordVisits _ _).andThen fun _ => ?_
  split
  · exact Job.reports_pure _
  · exact Job.reports_fatal _

theorem reports_tokenType {text : String}
    (known : ∃ ttype, setup.grammar.vocabulary.type? text = some ttype) (place : Place)
    (p : Point) : (setup.tokenType text place p).Reports name (FaultIn P) [] := by
  obtain ⟨ttype, htype⟩ := known
  unfold tokenType
  rw [htype]
  exact Job.reports_pure _

theorem reports_referenceOp {r : Reference} (known : setup.grammar.Covers r)
    (span : P r.place.span) : (setup.referenceOp r).Reports name (FaultIn P) [] := by
  match r with
  | .rule ⟨_, some _, _, _⟩ => exact Job.reports_pure _
  | .token ⟨_, some text, _, _⟩ | .literal ⟨_, some text⟩ =>
      exact (setup.reports_tokenType (known text rfl) _ _).andThen fun _ => Job.reports_pure _
  | .rule ⟨_, none, _, _⟩ | .token ⟨_, none, _, _⟩ | .literal ⟨_, none⟩ =>
      exact Job.reports_malformed (Malformed.faultIn_of_take span (by decide))

theorem reports_labelIfNeeded {Fault : Malformed → Prop} (span : Span) (op : Op) :
    (setup.labelIfNeeded span op).Reports name Fault [] := by
  have needed : (setup.needsImplicitLabel span op).Reports name Fault [] :=
    Job.reports_context fun _ _ => (Job.reports_recordVisits _ _).andThen fun _ =>
      Job.reports_pure _
  unfold labelIfNeeded
  split
  · refine needed.andThen fun needed => ?_
    split
    · unfold defineImplicitLabel
      split
      · exact Job.reports_pure _
      · exact (Job.reports_declare _).andThen fun _ => Job.reports_pure _
    · exact Job.reports_pure _
  · exact Job.reports_pure _

theorem reports_reference {r : Reference} {label : Option Label} (known : setup.grammar.Covers r)
    (span : P r.place.span) (labelSpan : ∀ l, label = some l → P l.span) :
    (setup.reference r label).Reports name (FaultIn P) [] := by
  unfold reference
  refine (setup.reports_referenceOp known span).andThen fun op => ?_
  refine (reports_applyLabel op labelSpan).andThen fun op => ?_
  refine (setup.reports_labelIfNeeded _ op).andThen fun op => ?_
  cases r with
  | rule r =>
      refine (setup.reports_visit .ruleRef [op]).andThen fun ops => ?_
      split
      · exact Job.reports_pure _
      · exact setup.reports_visit .leafRule ops
  | token t =>
      refine (setup.reports_visit .tokenRef [op]).andThen fun ops => ?_
      split
      · exact Job.reports_pure _
      · exact setup.reports_visit .leafToken ops
  | literal l => exact setup.reports_visit .stringRef [op]

theorem reports_rootReference {Fault : Malformed → Prop} (r : Reference) (ops : List Op) :
    (setup.rootReference r ops).Reports name Fault [] := by
  unfold rootReference
  split
  · exact setup.reports_visit .rootRule ops
  · exact setup.reports_visit .rootToken ops

/-- Code stands for the reports of an action, a forced action and a predicate. -/
theorem reports_action {c : CodeNode} (span : P c.span) :
    (setup.action c).Reports name (FaultIn P) [] := by
  unfold action
  split
  · exact setup.reports_visit .action _
  · exact Job.reports_malformed (Malformed.faultIn_of_take span (by decide))

theorem reports_forcedAction {c : CodeNode} (span : P c.span) :
    (setup.forcedAction c).Reports name (FaultIn P) [] := by
  unfold forcedAction
  split
  · exact setup.reports_visit .forcedAction _
  · exact Job.reports_malformed (Malformed.faultIn_of_take span (by decide))

theorem reports_predicate {c : CodeNode} (span : P c.span) :
    (setup.predicate c).Reports name (FaultIn P) [] := by
  unfold predicate
  split
  · exact setup.reports_visit .predicate _
  · exact Job.reports_malformed (Malformed.faultIn_of_take span (by decide))

theorem reports_ll1Tests {site : ChoiceSite} (span : P site.place.span) (count : Nat) (p : Point) :
    (setup.ll1Tests site count p).Reports name (FaultIn P) [] := by
  unfold ll1Tests
  split
  · exact Job.reports_malformed (Malformed.faultIn_of_take span (by decide))
  · split
    · exact Job.reports_malformed (Malformed.faultIn_of_take span (by simp [toString]))
    · split
      · exact Job.reports_mapM (fun look => setup.reports_visit .ll1Test _) _
      · exact Job.reports_malformed (Malformed.faultIn_of_take span (by simp [toString]))

theorem reports_visitChoice {Fault : Malformed → Prop} (c : Choice) (kind : ChoiceKind) :
    (setup.visitChoice c kind).Reports name Fault [] := by
  unfold visitChoice
  split
  · exact setup.reports_visit .choiceBlock c
  · exact setup.reports_visit .ebnfBlock c
  · exact setup.reports_visit .ll1ChoiceBlock c
  · exact setup.reports_visit .ll1EbnfBlock c
  · exact setup.reports_visit .llStarChoiceBlock c
  · exact setup.reports_visit .llStarEbnfBlock c

theorem reports_choice {kind : ChoiceKind} {site : ChoiceSite} (fits : kind.ebnf = site.ebnf.isSome)
    (span : P site.place.span) (alts : List Alternative) :
    (setup.choice kind site alts).Reports name (FaultIn P) [] := by
  unfold choice
  dsimp only
  rw [if_pos fits]
  split
  · exact (setup.reports_ll1Tests span _ _).andThen fun _ => setup.reports_visitChoice _ kind
  · exact setup.reports_visitChoice _ kind

/-- A site gets its warning when its strategy is asked for. -/
theorem reports_strategy {Fault : Malformed → Prop} (site : ChoiceSite) :
    (setup.strategy site).Reports name Fault (site.warning? setup.grammar name).toList := by
  have unclassified (detail : String) :
      (do let context ← Job.context
          Job.report (.ofUnclassified context.ruleName site.place.span detail)
          return Strategy.generic : Job Strategy).Reports name Fault
        [.ofUnclassified name site.place.span detail] :=
    Job.reports_context fun c inRule => by
      rw [inRule]
      exact (Job.reports_report _).map _
  unfold strategy ChoiceSite.warning?
  dsimp only
  rcases site.decision with _ | n
  · exact unclassified _
  · dsimp only
    cases setup.grammar.classify n with
    | none => exact unclassified _
    | some c => exact Job.reports_pure _

/-- The choice of a site once its alternatives are there. -/
theorem reports_choose {site : ChoiceSite} {ebnf : Bool} (fits : ebnf = site.ebnf.isSome)
    (span : P site.place.span) (alts : List Alternative) :
    (do let strategy ← setup.strategy site
        return [.choice (← setup.choice ⟨strategy, ebnf⟩ site alts)] : Job (List Op)).Reports
      name (FaultIn P) (site.warning? setup.grammar name).toList :=
  (setup.reports_strategy site).before fun _ => (setup.reports_choice fits span alts).map _

theorem reports_rewriteToken {place : Place} {text : Option String}
    (known : ∀ t, text = some t → ∃ ttype, setup.grammar.vocabulary.type? t = some ttype)
    (span : P place.span) (isRoot : Bool) (arg : Option String) :
    (setup.rewriteToken place text isRoot arg).Reports name (FaultIn P) [] := by
  unfold rewriteToken
  split
  · exact Job.reports_malformed (Malformed.faultIn_of_take span (by decide))
  · refine (setup.reports_tokenType (known _ rfl) _ _).andThen fun _ => ?_
    exact Job.reports_context fun _ _ => setup.reports_visit .rewriteTokenRef _

theorem reports_rewriteReference {r : Reference} (known : setup.grammar.Covers r)
    (span : P r.place.span) (isRoot : Bool) :
    (setup.rewriteReference isRoot r).Reports name (FaultIn P) [] := by
  unfold rewriteReference
  split
  · unfold rewriteRule
    split
    · exact Job.reports_malformed (Malformed.faultIn_of_take span (by decide))
    · exact Job.reports_context fun _ _ => setup.reports_visit .rewriteRuleRef _
  · exact setup.reports_rewriteToken known span _ _
  · exact setup.reports_rewriteToken known span _ _

variable {setup : Setup}

mutual

theorem reports_rewriteElement (isRoot : Bool) :
    ∀ element : RewriteElement, element.AllRefs setup.grammar.Covers → element.AllSpans P →
      (setup.rewriteElement isRoot element).Reports name (FaultIn P) []
  | .reference r, known, spans => by
      rw [rewriteElement]
      exact setup.reports_rewriteReference known spans isRoot
  | .tree span [], _, spans => by
      rw [rewriteElement]
      exact .within Context.shift_enterTree Context.shift_exitTree
        (Job.reports_malformed (Malformed.faultIn_of_take spans.1 (by decide)))
  | .tree span (first :: rest), known, spans => by
      rw [rewriteElement]
      refine .within Context.shift_enterTree Context.shift_exitTree ?_
      refine (reports_rewriteElement true first known.1 spans.2.1).andThen fun root => ?_
      refine (reports_rewriteElements rest known.2 spans.2.2).andThen fun children => ?_
      have tree : (setup.rewriteTree root children).Reports name (FaultIn P) [] :=
        Job.reports_context fun _ _ => setup.reports_visit .rewriteTree _
      exact tree.map _
  | .optional span referenced elements, known, spans => by
      rw [rewriteElement]
      refine (Reports.within (Context.shift_pushBlock none) Context.shift_popBlock
        (reports_rewriteElements elements known spans.2)).andThen fun ops => ?_
      have body : (setup.rewriteOptional referenced ops).Reports name (FaultIn P) [] :=
        Job.reports_context fun _ _ => setup.reports_visit .rewriteOptional _
      exact body.map _
  | .closure span referenced elements, known, spans => by
      rw [rewriteElement]
      refine (Reports.within (Context.shift_pushBlock none) Context.shift_popBlock
        (reports_rewriteElements elements known spans.2)).andThen fun ops => ?_
      have body : (setup.rewriteClosure referenced ops).Reports name (FaultIn P) [] :=
        Job.reports_context fun _ _ => setup.reports_visit .rewriteClosure _
      exact body.map _

theorem reports_rewriteElements :
    ∀ elements : List RewriteElement, RewriteElement.AllRefsIn setup.grammar.Covers elements →
      RewriteElement.AllSpansIn P elements →
        (setup.rewriteElements elements).Reports name (FaultIn P) []
  | [], _, _ => Job.reports_pure _
  | element :: rest, known, spans => by
      rw [rewriteElements]
      refine (reports_rewriteElement false element known.1 spans.1).andThen fun ops => ?_
      exact (reports_rewriteElements rest known.2 spans.2).map _

end

theorem reports_rewriteOf {rewrite : Option Rewrite}
    (known : ∀ r, rewrite = some r → r.AllRefs setup.grammar.Covers)
    (spans : ∀ r, rewrite = some r → RewriteElement.AllSpansIn P r.elements) :
    (setup.rewriteOf rewrite).Reports name (FaultIn P) [] := by
  unfold rewriteOf
  split
  · exact Job.reports_pure _
  · next r =>
    refine (reports_rewriteElements r.elements (known r rfl) (spans r rfl)).andThen fun body => ?_
    have whole : (setup.treeRewrite body).Reports name (FaultIn P) [] :=
      Job.reports_context fun _ _ => setup.reports_visit .treeRewrite _
    exact whole.map _

/-- A reference under a label or a mark gives no warning, and anything else fails. -/
theorem reports_labeledReference (element : Element)
    (known : element.AllRefs setup.grammar.Covers) (spans : element.AllSpans P)
    (blocks trees : Nat) :
    (setup.labeledReference element).Reports name (FaultIn P)
      (Part.warnings setup.grammar name (element.parts blocks trees)) := by
  unfold labeledReference
  split
  · next r label split =>
    obtain ⟨rfl, rfl⟩ | ⟨l, rfl, rfl⟩ := Element.eq_of_splitLabel split
    · refine (setup.reports_reference known spans ?_).map _
      nofun
    · refine (setup.reports_reference known spans.2 fun l' same => ?_).map _
      cases same
      exact spans.1
  · next other label _ split =>
    refine Job.reports_malformed (Malformed.faultIn_of_take ?_ (by decide))
    rw [Element.place_of_splitLabel split]
    exact spans.here

mutual

/-- An element warns about its choices in the order of its parts. -/
theorem reports_walkElement {blocks trees : Nat} :
    ∀ element : Element, element.AllRefs setup.grammar.Covers → element.AllSpans P →
      (setup.walkElement element).Reports name (FaultIn P)
        (Part.warnings setup.grammar name (element.parts blocks trees))
  | .reference r, known, spans => by
      rw [walkElement]
      exact setup.reports_reference known spans nofun
  | .action c, _, span => by
      rw [walkElement]
      exact setup.reports_action span
  | .forcedAction c, _, span => by
      rw [walkElement]
      exact setup.reports_forcedAction span
  | .predicate c, _, span => by
      rw [walkElement]
      exact setup.reports_predicate span
  | .epsilon span, _, _ => by
      rw [walkElement]
      exact Job.reports_pure _
  | .block b, known, spans => by
      rw [walkElement, Element.parts]
      exact reports_walkBlock b known spans
  | .ebnf kind span decision none, _, spans => by
      rw [walkElement]
      exact Job.reports_malformed (Malformed.faultIn_of_take spans (by decide))
  | .ebnf kind span decision (some ⟨bodySpan, bodyDecision, alts⟩), known, spans => by
      rw [walkElement, Element.parts]
      dsimp only
      split
      · exact Job.reports_malformed (Malformed.faultIn_of_take spans.2.1 (by decide))
      · next nonempty =>
        have enough : 1 ≤ alts.length := by simpa [Nat.one_le_iff_ne_zero] using nonempty
        rw [Part.warnings_append, Part.warnings_ofCount _ _ enough]
        refine (reports_insideChoice _ (reports_walkAlts 1 alts known spans.2.2)).bind
          fun branches => ?_
        exact setup.reports_choose rfl spans.1 branches
  | .root span none, _, spans => by
      rw [walkElement]
      exact Job.reports_malformed (Malformed.faultIn_of_take spans (by decide))
  | .root span (some operand), known, spans => by
      rw [walkElement, Element.parts]
      exact (reports_labeledReference operand known spans.2 blocks trees).before fun built =>
        setup.reports_rootReference built.1 built.2
  | .bang span none, _, spans => by
      rw [walkElement]
      exact Job.reports_malformed (Malformed.faultIn_of_take spans (by decide))
  | .bang span (some operand), known, spans => by
      rw [walkElement, Element.parts]
      exact reports_walkElement operand known spans.2
  | .labeled label operand, known, spans => by
      rw [walkElement]
      exact (reports_labeledReference _ known spans blocks trees).map _

theorem reports_walkElements {blocks trees : Nat} :
    ∀ elements : List Element, Element.AllRefsIn setup.grammar.Covers elements →
      Element.AllSpansIn P elements →
        (setup.walkElements elements).Reports name (FaultIn P)
          (Part.warnings setup.grammar name (Element.partsIn blocks trees elements))
  | [], _, _ => Job.reports_pure _
  | element :: rest, known, spans => by
      rw [walkElements, Element.partsIn, Part.warnings_append]
      refine (reports_walkElement element known.1 spans.1).bind fun ops => ?_
      exact (reports_walkElements rest known.2 spans.2).map _

theorem reports_walkBlock {blocks trees : Nat} :
    ∀ block : Block, block.AllRefs setup.grammar.Covers → block.AllSpans P →
      (setup.walkBlock block).Reports name (FaultIn P)
        (Part.warnings setup.grammar name (block.parts blocks trees))
  | ⟨span, decision, []⟩, _, spans => by
      rw [walkBlock]
      exact Job.reports_malformed (Malformed.faultIn_of_take spans.1 (by decide))
  | ⟨span, decision, [alt]⟩, known, spans => by
      have inlined : Block.parts blocks trees ⟨span, decision, [alt]⟩ =
          alt.parts blocks trees := by
        simp [Block.parts, Alt.partsIn, Part.ofCount]
      rw [walkBlock, inlined]
      exact (reports_walkAlt 1 alt known.1 spans.2.1).map _
  | ⟨span, decision, alt :: next :: rest⟩, known, spans => by
      have enough : 2 ≤ (alt :: next :: rest).length := Nat.le_add_left 2 _
      rw [Block.parts, Part.warnings_append, Part.warnings_ofCount _ _ enough, walkBlock]
      · refine (reports_insideChoice _ (reports_walkAlts 1 _ known spans.2)).bind
          fun branches => ?_
        exact setup.reports_choose rfl spans.1 branches
      · simp
      · simp

/-- The alternatives of a block warn one after the other. -/
theorem reports_walkAlts {blocks trees : Nat} :
    ∀ (num : Nat) (alts : List Alt), Alt.AllRefsIn setup.grammar.Covers alts →
      Alt.AllSpansIn P alts → (setup.walkAlts num alts).Reports name (FaultIn P)
        (Part.warnings setup.grammar name (Alt.partsIn blocks trees alts))
  | _, [], _, _ => Job.reports_pure _
  | num, alt :: rest, known, spans => by
      rw [walkAlts, Alt.partsIn, Part.warnings_append]
      refine (reports_walkAlt num alt known.1 spans.1).bind fun branch => ?_
      exact (reports_walkAlts (num + 1) rest known.2 spans.2).map _

theorem reports_walkAlt {blocks trees : Nat} :
    ∀ (num : Nat) (alt : Alt), alt.AllRefs setup.grammar.Covers → alt.AllSpans P →
      (setup.walkAlt num alt).Reports name (FaultIn P)
        (Part.warnings setup.grammar name (alt.parts blocks trees))
  | num, ⟨span, elements, rewrite, strangers, refs⟩, known, spans => by
      have enter : (enterAlt ⟨span, elements, rewrite, strangers, refs⟩ num).Reports name
          (FaultIn P) [] := Job.reports_modifyContext (Context.shift_enterAlt _ num)
      obtain ⟨span, elementSpans, rewriteSpans, strangerSpans⟩ := spans
      unfold walkAlt
      dsimp only
      split
      · next stranger _ =>
        exact Job.reports_malformed (Malformed.faultIn_of_take
          (strangerSpans stranger (List.mem_cons_self ..)) (by simp [toString]))
      · split
        · exact Job.reports_malformed (Malformed.faultIn_of_take span (by decide))
        · exact enter.andThen fun _ => setup.reports_visit .epsilon _
        · refine (enter.andThen fun _ => setup.reports_visit .alternative _).andThen
            fun block => ?_
          rw [Alt.parts_eq, Part.warnings_append, Part.warnings_rewrite, List.append_nil]
          refine (reports_walkElements elements known.1 elementSpans).before fun ops => ?_
          refine (reports_rewriteOf known.2 rewriteSpans).andThen fun rest => ?_
          exact setup.reports_visit .finishAlternative _

end

/-- The walk of a rule warns about the choices of its block. -/
theorem reports_walkRule {rule : Rule}
    (known : ∀ block, rule.block = some block → block.AllRefs setup.grammar.Covers)
    (span : P rule.span) (spans : ∀ block, rule.block = some block → block.AllSpans P) :
    (setup.walkRule rule).Reports name (FaultIn P) (Part.warnings setup.grammar name
      ((rule.block.map (Block.parts 0 0)).getD [])) := by
  unfold walkRule
  split
  · next block hblock =>
    rw [hblock]
    exact reports_walkBlock block (known block hblock) (spans block hblock)
  · exact Job.reports_malformed (Malformed.faultIn_of_take span (by decide))

end Setup

end RecognizerModel
