import RecognizerModel.Proofs.Coupling

/-! Two walks side by side. Jobs that are coupled where they show nodes to their extensions, build
references and choose a strategy stay together on the whole walk. -/
namespace RecognizerModel

/-- An alternative that is more than an epsilon and holds nothing strange is walked element by
element, and then comes its rewrite. -/
theorem Setup.walkAlt_eq (setup : Setup) (num : Nat) {span : Span} {elements : List Element}
    {rewrite : Option Rewrite} {refs : List String} (some : ¬(elements = [] ∧ rewrite = none))
    (more : ∀ s, ¬(elements = [.epsilon s] ∧ rewrite = none)) :
    setup.walkAlt num ⟨span, elements, rewrite, [], refs⟩ = (do
      let block ← setup.alternative ⟨span, elements, rewrite, [], refs⟩ num
      let ops ← setup.walkElements elements
      setup.finishAlternative block (ops ++ (← setup.rewriteOf rewrite))) := by
  rw [Setup.walkAlt.eq_def]
  dsimp only
  split
  · exact absurd ⟨rfl, rfl⟩ some
  · next s => exact absurd ⟨rfl, rfl⟩ (more s)
  · rfl

namespace Coupling

theorem coupled_applyLabel {C : Coupling} (op : Op) (label : Option Label) :
    C.Coupled Eq (applyLabel op label) (applyLabel op (label.map (Label.moved C.move))) := by
  match label with
  | none => exact coupled_pure rfl
  | some ⟨isList, span, none⟩ =>
      exact coupled_malformed (Label.place ⟨isList, span, none⟩) _ _
  | some ⟨isList, span, some name⟩ => exact (coupled_declare _).map fun _ _ _ => rfl

/-- Whether jobs under two setups stay together where they show nodes to their extensions. -/
structure Visits (C : Coupling) (first second : Setup) : Prop where
  vocabulary : second.grammar.vocabulary = first.grammar.vocabulary
  labelTarget : second.labelTarget = first.labelTarget
  visit (p : Point) {node node' : p.Node} : C.nodes p.subject node node' →
    C.Coupled (C.nodes p.subject) (first.visit p node) (second.visit p node')

namespace Visits

variable {C : Coupling} {first second : Setup}

theorem tokenType (h : C.Visits first second) (name : String) (place : Place) (p : Point) :
    C.Coupled Eq (first.tokenType name place p)
      (second.tokenType name (place.moved C.move) p) := by
  unfold Setup.tokenType
  rw [h.vocabulary]
  cases first.grammar.vocabulary.type? name with
  | none => exact coupled_malformed _ _ _
  | some ttype => exact coupled_pure rfl

theorem rootReference (h : C.Visits first second) (r : Reference) {ops ops' : List Op}
    (related : C.nodes .ops ops ops') : C.Coupled (C.nodes .ops) (first.rootReference r ops)
      (second.rootReference (r.moved C.move) ops') := by
  cases r with
  | rule r => exact h.visit .rootRule related
  | token t => exact h.visit .rootToken related
  | literal l => exact h.visit .rootToken related

theorem referenceOp (h : C.Visits first second) (r : Reference) :
    C.Coupled Eq (first.referenceOp r) (second.referenceOp (r.moved C.move)) := by
  match r with
  | .rule ⟨span, none, _, _⟩ => exact coupled_malformed ⟨.node .ruleRef, span⟩ _ _
  | .token ⟨span, none, _, _⟩ => exact coupled_malformed ⟨.node .tokenRef, span⟩ _ _
  | .literal ⟨span, none⟩ => exact coupled_malformed ⟨.node .stringLiteral, span⟩ _ _
  | .rule ⟨_, some name, _, _⟩ =>
      refine coupled_pure ?_
      rw [h.labelTarget]
  | .token ⟨span, some name, _, _⟩ =>
      exact (h.tokenType name ⟨.node .tokenRef, span⟩ .tokenRef).map fun _ _ same => by rw [same]
  | .literal ⟨span, some text⟩ =>
      exact (h.tokenType text ⟨.node .stringLiteral, span⟩ .stringRef).map fun _ _ same => by
        rw [same]

theorem defineImplicitLabel (h : C.Visits first second) (op : Op) :
    C.Coupled Eq (first.defineImplicitLabel op) (second.defineImplicitLabel op) := by
  have same : second.implicitLabel? op = first.implicitLabel? op := by
    unfold Setup.implicitLabel?
    rw [h.labelTarget]
  unfold Setup.defineImplicitLabel
  rw [same]
  cases first.implicitLabel? op with
  | none => exact coupled_pure rfl
  | some label => exact (coupled_declare _).map fun _ _ _ => rfl

/-- Labels go on alike if the extensions ask for them alike. -/
theorem labelIfNeeded (h : C.Visits first second) (wants : ∀ span op,
    second.chain.wantsLabel (C.move span) op = first.chain.wantsLabel span op) (span : Span)
    (op : Op) : C.Coupled Eq (first.labelIfNeeded span op)
      (second.labelIfNeeded (C.move span) op) := by
  have needed : C.Coupled Eq (first.needsImplicitLabel span op)
      (second.needsImplicitLabel (C.move span) op) :=
    coupled_context fun c c' contexts => (coupled_recordVisits _ _ _ _).map fun _ _ _ => by
      rw [contexts.alt, wants]
  unfold Setup.labelIfNeeded
  split
  · refine needed.bind fun b b' same => ?_
    subst same
    cases b with
    | true => exact h.defineImplicitLabel op
    | false => exact coupled_pure rfl
  · exact coupled_pure rfl

/-- References are built alike as far as their labels go on alike. -/
theorem reference (h : C.Visits first second)
    (labels : ∀ span op, C.Coupled (fun op op' => C.nodes .ops [op] [op'])
      (first.labelIfNeeded span op) (second.labelIfNeeded (C.move span) op))
    (r : Reference) (label : Option Label) : C.Coupled (C.nodes .ops) (first.reference r label)
      (second.reference (r.moved C.move) (label.map (Label.moved C.move))) := by
  unfold Setup.reference
  refine (h.referenceOp r).bind fun op op' same => ?_
  subst same
  refine (coupled_applyLabel op label).bind fun op op' same => ?_
  subst same
  rw [r.place_moved]
  refine (labels _ op).bind fun op op' related => ?_
  cases r with
  | rule r =>
      refine (h.visit .ruleRef related).bind fun ops ops' related => ?_
      cases hmark : r.marked with
      | true => simpa [Reference.moved, hmark] using coupled_pure related
      | false => simpa [Reference.moved, hmark] using h.visit .leafRule related
  | token t =>
      refine (h.visit .tokenRef related).bind fun ops ops' related => ?_
      cases hmark : t.marked with
      | true => simpa [Reference.moved, hmark] using coupled_pure related
      | false => simpa [Reference.moved, hmark] using h.visit .leafToken related
  | literal l => exact h.visit .stringRef related

theorem ll1Tests (h : C.Visits first second)
    (classify : ∀ n, second.grammar.classify n = first.grammar.classify n) (site : ChoiceSite)
    (count : Nat) (p : Point) : C.Coupled (List.Forall₂ (C.nodes .ops))
      (first.ll1Tests site count p) (second.ll1Tests (site.moved C.move) count p) := by
  obtain ⟨place, decision, ebnf⟩ := site
  cases decision with
  | none => exact coupled_malformed place _ _
  | some n =>
      unfold Setup.ll1Tests
      simp only [ChoiceSite.moved, classify]
      cases first.grammar.classify n with
      | none => exact coupled_malformed place _ _
      | some c =>
          dsimp only
          split
          · refine coupled_mapM (fun look => ?_) c.lookahead
            unfold Setup.ll1Test
            rw [h.vocabulary]
            exact h.visit .ll1Test (C.refl _)
          · exact coupled_malformed place _ _

theorem visitChoice (h : C.Visits first second) {c c' : Choice} (related : C.nodes .choice c c')
    (kind : ChoiceKind) :
    C.Coupled (C.nodes .choice) (first.visitChoice c kind) (second.visitChoice c' kind) := by
  obtain ⟨_ | _ | _, _ | _⟩ := kind
  · exact h.visit .choiceBlock related
  · exact h.visit .ebnfBlock related
  · exact h.visit .ll1ChoiceBlock related
  · exact h.visit .ll1EbnfBlock related
  · exact h.visit .llStarChoiceBlock related
  · exact h.visit .llStarEbnfBlock related

theorem strategy (classify : ∀ n, second.grammar.classify n = first.grammar.classify n)
    (site : ChoiceSite) :
    C.Coupled Eq (first.strategy site) (second.strategy (site.moved C.move)) := by
  have unclassified (detail : String) : C.Coupled Eq
      (do let context ← Job.context
          Job.report (.ofUnclassified context.ruleName site.place.span detail)
          return Strategy.generic)
      (do let context ← Job.context
          Job.report (.ofUnclassified context.ruleName (C.move site.place.span) detail)
          return Strategy.generic) := by
    refine coupled_context fun c c' contexts => ?_
    rw [contexts.ruleName]
    exact (coupled_report (.ofUnclassified c.ruleName site.place.span detail)).map fun _ _ _ => rfl
  obtain ⟨place, decision, ebnf⟩ := site
  cases decision with
  | none => exact unclassified _
  | some n =>
      unfold Setup.strategy
      simp only [ChoiceSite.moved, classify]
      cases first.grammar.classify n with
      | none => exact unclassified _
      | some c => exact coupled_pure rfl

/-- Choices are made alike if the decisions have the same classes. -/
theorem choose (h : C.Visits first second)
    (classify : ∀ n, second.grammar.classify n = first.grammar.classify n) {site : ChoiceSite}
    {ebnf : Bool} {alts alts' : List Alternative} (fits : ebnf = site.ebnf.isSome)
    (related : List.Forall₂ (C.nodes .alternative) alts alts') : C.Coupled (C.nodes .ops)
      (do let strategy ← first.strategy site
          return [.choice (← first.choice ⟨strategy, ebnf⟩ site alts)])
      (do let strategy ← second.strategy (site.moved C.move)
          return [.choice (← second.choice ⟨strategy, ebnf⟩ (site.moved C.move) alts')]) := by
  refine (strategy classify site).bind fun strategy _ same => ?_
  subst same
  have choice : C.Coupled (C.nodes .choice) (first.choice ⟨strategy, ebnf⟩ site alts)
      (second.choice ⟨strategy, ebnf⟩ (site.moved C.move) alts') := by
    unfold Setup.choice
    simp only [ChoiceSite.moved, fits, if_true, related.length_eq]
    split
    · exact (h.ll1Tests classify site _ _).bind fun tests tests' hs =>
        h.visitChoice (C.inChoice _ _ _ related hs) _
    · exact (coupled_pure .nil).bind fun tests tests' hs =>
        h.visitChoice (C.inChoice _ _ _ related hs) _
  exact choice.map fun _ _ => C.ofChoice

theorem action (h : C.Visits first second) (c : CodeNode) :
    C.Coupled (C.nodes .ops) (first.action c) (second.action (c.moved C.move)) := by
  obtain ⟨span, _ | code⟩ := c
  · exact coupled_malformed ⟨.node .action, span⟩ _ _
  · exact h.visit .action (C.refl _)

theorem forcedAction (h : C.Visits first second) (c : CodeNode) :
    C.Coupled (C.nodes .ops) (first.forcedAction c) (second.forcedAction (c.moved C.move)) := by
  obtain ⟨span, _ | code⟩ := c
  · exact coupled_malformed ⟨.node .forcedAction, span⟩ _ _
  · exact h.visit .forcedAction (C.refl _)

theorem predicate (h : C.Visits first second) (c : CodeNode) :
    C.Coupled (C.nodes .ops) (first.predicate c) (second.predicate (c.moved C.move)) := by
  obtain ⟨span, _ | code⟩ := c
  · exact coupled_malformed ⟨.node .predicate, span⟩ _ _
  · exact h.visit .predicate (C.refl _)

theorem rewriteToken (h : C.Visits first second) (place : Place) (name : Option String)
    (isRoot : Bool) (arg : Option String) :
    C.Coupled (C.nodes .ops) (first.rewriteToken place name isRoot arg)
      (second.rewriteToken (place.moved C.move) name isRoot arg) := by
  cases name with
  | none => exact coupled_malformed _ _ _
  | some name =>
      refine (h.tokenType name place .rewriteTokenRef).bind fun ttype _ same => ?_
      subst same
      refine coupled_context fun c c' contexts => ?_
      rw [contexts.blockLevel, contexts.treeLevel]
      exact h.visit .rewriteTokenRef (C.refl _)

theorem rewriteReference (h : C.Visits first second) (isRoot : Bool) (r : Reference) :
    C.Coupled (C.nodes .ops) (first.rewriteReference isRoot r)
      (second.rewriteReference isRoot (r.moved C.move)) := by
  match r with
  | .rule ⟨span, none, _, _⟩ => exact coupled_malformed ⟨.node .ruleRef, span⟩ _ _
  | .rule ⟨_, some name, _, _⟩ =>
      refine coupled_context fun c c' contexts => ?_
      rw [contexts.blockLevel, contexts.treeLevel]
      exact h.visit .rewriteRuleRef (C.refl _)
  | .token t => exact h.rewriteToken (Reference.token t).place _ _ _
  | .literal l => exact h.rewriteToken (Reference.literal l).place _ _ _

theorem treeRewrite (h : C.Visits first second) {ops ops' : List Op}
    (related : C.nodes .ops ops ops') :
    C.Coupled (C.nodes .treeRewrite) (first.treeRewrite ops) (second.treeRewrite ops') := by
  refine coupled_context fun c c' contexts => ?_
  rw [contexts.blockLevel]
  exact h.visit .treeRewrite (C.inWhole _ related)

theorem rewriteOptional (h : C.Visits first second) (referenced : List String) {ops ops' : List Op}
    (related : C.nodes .ops ops ops') : C.Coupled (C.nodes .rewriteOptional)
      (first.rewriteOptional referenced ops) (second.rewriteOptional referenced ops') := by
  refine coupled_context fun c c' contexts => ?_
  rw [contexts.blockLevel]
  exact h.visit .rewriteOptional (C.inOptional _ _ related)

theorem rewriteClosure (h : C.Visits first second) (referenced : List String) {ops ops' : List Op}
    (related : C.nodes .ops ops ops') : C.Coupled (C.nodes .rewriteClosure)
      (first.rewriteClosure referenced ops) (second.rewriteClosure referenced ops') := by
  refine coupled_context fun c c' contexts => ?_
  rw [contexts.blockLevel]
  exact h.visit .rewriteClosure (C.inClosure _ _ related)

theorem rewriteTree (h : C.Visits first second) {root root' children children' : List Op}
    (hroot : C.nodes .ops root root') (hchildren : C.nodes .ops children children') :
    C.Coupled (C.nodes .rewriteTree) (first.rewriteTree root children)
      (second.rewriteTree root' children') := by
  refine coupled_context fun c c' contexts => ?_
  rw [contexts.blockLevel, contexts.treeLevel]
  exact h.visit .rewriteTree (C.inTree _ _ hroot hchildren)

mutual

theorem rewriteElement (h : C.Visits first second) (isRoot : Bool) : ∀ element : RewriteElement,
    C.Coupled (C.nodes .ops) (first.rewriteElement isRoot element)
      (second.rewriteElement isRoot (element.moved C.move))
  | .reference r => by
      rw [RewriteElement.moved, Setup.rewriteElement, Setup.rewriteElement]
      exact h.rewriteReference isRoot r
  | .tree span [] => by
      rw [RewriteElement.moved, RewriteElement.movedAll, Setup.rewriteElement, Setup.rewriteElement]
      refine Coupled.within (fun _ _ contexts => contexts.enterTree)
        (fun _ _ contexts => contexts.exitTree) ?_
      exact coupled_malformed ⟨.node .rewriteTree, span⟩ _ _
  | .tree span (element :: rest) => by
      rw [RewriteElement.moved, RewriteElement.movedAll, Setup.rewriteElement, Setup.rewriteElement]
      refine Coupled.within (fun _ _ contexts => contexts.enterTree)
        (fun _ _ contexts => contexts.exitTree) ?_
      refine (h.rewriteElement true element).bind fun root root' hroot => ?_
      refine (h.rewriteElements rest).bind fun children children' hchildren => ?_
      exact (h.rewriteTree hroot hchildren).map fun _ _ => C.ofTree
  | .optional span referenced elements => by
      rw [RewriteElement.moved, Setup.rewriteElement, Setup.rewriteElement]
      refine (Coupled.within (fun _ _ contexts => contexts.pushBlock none)
        (fun _ _ contexts => contexts.popBlock) (h.rewriteElements elements)).bind
          fun ops ops' related => ?_
      exact (h.rewriteOptional referenced related).map fun _ _ => C.ofOptional
  | .closure span referenced elements => by
      rw [RewriteElement.moved, Setup.rewriteElement, Setup.rewriteElement]
      refine (Coupled.within (fun _ _ contexts => contexts.pushBlock none)
        (fun _ _ contexts => contexts.popBlock) (h.rewriteElements elements)).bind
          fun ops ops' related => ?_
      exact (h.rewriteClosure referenced related).map fun _ _ => C.ofClosure

theorem rewriteElements (h : C.Visits first second) : ∀ elements : List RewriteElement,
    C.Coupled (C.nodes .ops) (first.rewriteElements elements)
      (second.rewriteElements (RewriteElement.movedAll C.move elements))
  | [] => coupled_pure (C.refl _)
  | element :: rest => by
      rw [RewriteElement.movedAll, Setup.rewriteElements, Setup.rewriteElements]
      refine (h.rewriteElement false element).bind fun ops ops' related => ?_
      exact (h.rewriteElements rest).map fun _ _ others => C.append related others

end

theorem rewriteOf (h : C.Visits first second) (rewrite : Option Rewrite) :
    C.Coupled (C.nodes .ops) (first.rewriteOf rewrite)
      (second.rewriteOf (rewrite.map (Rewrite.moved C.move))) := by
  cases rewrite with
  | none => exact coupled_pure (C.refl _)
  | some rewrite =>
      refine (h.rewriteElements rewrite.elements).bind fun body body' related => ?_
      exact (h.treeRewrite related).map fun _ _ => C.ofWhole

theorem alternative (h : C.Visits first second) (alt : Alt) (num : Nat) :
    C.Coupled (C.nodes .alternative) (first.alternative alt num)
      (second.alternative (alt.moved C.move) num) :=
  (coupled_modifyContext fun _ _ contexts => by
    cases alt
    exact contexts.enterAlt num _).bind fun _ _ _ => h.visit .alternative (C.refl _)

theorem epsilon (h : C.Visits first second) (alt : Alt) (num : Nat) :
    C.Coupled (C.nodes .alternative) (first.epsilon alt num)
      (second.epsilon (alt.moved C.move) num) :=
  (coupled_modifyContext fun _ _ contexts => by
    cases alt
    exact contexts.enterAlt num _).bind fun _ _ _ => h.visit .epsilon (C.refl _)

end Visits

/-- Whether jobs under two setups stay together on a walk: where they show nodes, build references
and choose. -/
structure Walks (C : Coupling) (first second : Setup) : Prop extends C.Visits first second where
  reference (r : Reference) (label : Option Label) : C.Coupled (C.nodes .ops)
    (first.reference r label) (second.reference (r.moved C.move) (label.map (Label.moved C.move)))
  choose {site : ChoiceSite} {ebnf : Bool} {alts alts' : List Alternative} :
    ebnf = site.ebnf.isSome → List.Forall₂ (C.nodes .alternative) alts alts' →
      C.Coupled (C.nodes .ops)
        (do let strategy ← first.strategy site
            return [.choice (← first.choice ⟨strategy, ebnf⟩ site alts)])
        (do let strategy ← second.strategy (site.moved C.move)
            return [.choice (← second.choice ⟨strategy, ebnf⟩ (site.moved C.move) alts')])

namespace Walks

variable {C : Coupling} {first second : Setup}

theorem labeledReference (h : C.Walks first second) (element : Element) :
    C.Coupled (fun (built built' : Reference × List Op) =>
        built'.1 = built.1.moved C.move ∧ C.nodes .ops built.2 built'.2)
      (first.labeledReference element) (second.labeledReference (element.moved C.move)) := by
  unfold Setup.labeledReference
  rw [element.splitLabel_moved]
  rcases element.splitLabel with ⟨operand, label⟩
  -- both fail at the label, or at the operand if there is none
  have wrong : C.Coupled
      (fun (built built' : Reference × List Op) =>
        built'.1 = built.1.moved C.move ∧ C.nodes .ops built.2 built'.2)
      (Job.malformed ((label.map Label.place).getD operand.place) none
        "expected a rule, token or literal reference" : Job (Reference × List Op))
      (Job.malformed (((label.map (Label.moved C.move)).map Label.place).getD
        (operand.moved C.move).place) none "expected a rule, token or literal reference") := by
    have place : ((label.map (Label.moved C.move)).map Label.place).getD
        (operand.moved C.move).place =
          ((label.map Label.place).getD operand.place).moved C.move := by
      cases label <;> simp
    rw [place]
    exact coupled_malformed _ _ _
  cases operand with
  | reference r => exact (h.reference r label).map fun _ _ related => ⟨rfl, related⟩
  | ebnf kind span decision body => cases body <;> exact wrong
  | root span operand | bang span operand => cases operand <;> exact wrong
  | labeled label operand => cases operand <;> exact wrong
  | _ => exact wrong

mutual

theorem walkElement (h : C.Walks first second) : ∀ element : Element,
    C.Coupled (C.nodes .ops) (first.walkElement element) (second.walkElement (element.moved C.move))
  | .reference r => by
      rw [Element.moved, Setup.walkElement, Setup.walkElement]
      exact h.reference r none
  | .action c => by
      rw [Element.moved, Setup.walkElement, Setup.walkElement]
      exact h.action c
  | .forcedAction c => by
      rw [Element.moved, Setup.walkElement, Setup.walkElement]
      exact h.forcedAction c
  | .predicate c => by
      rw [Element.moved, Setup.walkElement, Setup.walkElement]
      exact h.predicate c
  | .epsilon span => by
      rw [Element.moved, Setup.walkElement, Setup.walkElement]
      exact coupled_pure (C.refl _)
  | .block b => by
      rw [Element.moved, Setup.walkElement, Setup.walkElement]
      exact h.walkBlock b
  | .ebnf kind span decision none => by
      rw [Element.moved, Setup.walkElement, Setup.walkElement]
      exact coupled_malformed ⟨.node kind.nodeKind, span⟩ _ _
  | .ebnf kind span decision (some ⟨bodySpan, bodyDecision, []⟩) => by
      rw [Element.moved, Block.moved, Setup.walkElement, Setup.walkElement]
      exact coupled_malformed ⟨.node .block, bodySpan⟩ _ _
  | .ebnf kind span decision (some ⟨bodySpan, bodyDecision, alt :: rest⟩) => by
      rw [Element.moved, Block.moved, Setup.walkElement, Setup.walkElement]
      exact ((h.walkAlts 1 (alt :: rest)).insideChoice _).bind fun alts alts' related =>
        h.choose rfl related
  | .root span none => by
      rw [Element.moved, Setup.walkElement, Setup.walkElement]
      exact coupled_malformed ⟨.node .root, span⟩ _ _
  | .root span (some operand) => by
      rw [Element.moved, Setup.walkElement, Setup.walkElement]
      refine (h.labeledReference operand).bind fun ⟨r, ops⟩ ⟨r', ops'⟩ ⟨same, related⟩ => ?_
      subst same
      exact h.rootReference r related
  | .bang span none => by
      rw [Element.moved, Setup.walkElement, Setup.walkElement]
      exact coupled_malformed ⟨.node .bang, span⟩ _ _
  | .bang span (some operand) => by
      rw [Element.moved, Setup.walkElement, Setup.walkElement]
      exact h.walkElement operand
  | .labeled label none => by
      rw [Element.moved, Setup.walkElement, Setup.walkElement]
      exact (h.labeledReference (.labeled label none)).map fun _ _ related => related.2
  | .labeled label (some operand) => by
      rw [Element.moved, Setup.walkElement, Setup.walkElement]
      exact (h.labeledReference (.labeled label (some operand))).map fun _ _ related => related.2

theorem walkElements (h : C.Walks first second) : ∀ elements : List Element,
    C.Coupled (C.nodes .ops) (first.walkElements elements)
      (second.walkElements (Element.movedAll C.move elements))
  | [] => coupled_pure (C.refl _)
  | element :: rest => by
      rw [Element.movedAll, Setup.walkElements, Setup.walkElements]
      refine (h.walkElement element).bind fun ops ops' related => ?_
      exact (h.walkElements rest).map fun _ _ others => C.append related others

theorem walkBlock (h : C.Walks first second) : ∀ b : Block,
    C.Coupled (C.nodes .ops) (first.walkBlock b) (second.walkBlock (b.moved C.move))
  | ⟨span, decision, []⟩ => by
      rw [Block.moved, Alt.movedAll, Setup.walkBlock, Setup.walkBlock]
      exact coupled_malformed ⟨.node .block, span⟩ _ _
  | ⟨span, decision, [alt]⟩ => by
      rw [Block.moved, Alt.movedAll, Alt.movedAll, Setup.walkBlock, Setup.walkBlock]
      exact (h.walkAlt 1 alt).map fun _ _ => C.opsOf
  | ⟨span, decision, alt :: next :: rest⟩ => by
      rw [Block.moved, Setup.walkBlock, Setup.walkBlock]
      · exact ((h.walkAlts 1 (alt :: next :: rest)).insideChoice decision).bind
          fun alts alts' related => h.choose rfl related
      all_goals simp [Alt.movedAll]

theorem walkAlts (h : C.Walks first second) : ∀ (num : Nat) (alts : List Alt),
    C.Coupled (List.Forall₂ (C.nodes .alternative)) (first.walkAlts num alts)
      (second.walkAlts num (Alt.movedAll C.move alts))
  | _, [] => coupled_pure .nil
  | num, alt :: rest => by
      rw [Alt.movedAll, Setup.walkAlts, Setup.walkAlts]
      refine (h.walkAlt num alt).bind fun branch branch' related => ?_
      exact (h.walkAlts (num + 1) rest).map fun _ _ others => .cons related others

theorem walkAlt (h : C.Walks first second) : ∀ (num : Nat) (alt : Alt),
    C.Coupled (C.nodes .alternative) (first.walkAlt num alt) (second.walkAlt num (alt.moved C.move))
  | num, ⟨span, elements, rewrite, stranger :: others, refs⟩ => by
      rw [Alt.moved, List.map_cons, Setup.walkAlt, Setup.walkAlt]
      exact coupled_malformed _ _ _
  | num, ⟨span, elements, rewrite, [], refs⟩ => by
      by_cases empty : elements = [] ∧ rewrite = none
      · obtain ⟨rfl, rfl⟩ := empty
        exact coupled_malformed ⟨.node .alt, span⟩ _ _
      by_cases epsilon : ∃ s, elements = [.epsilon s] ∧ rewrite = none
      · obtain ⟨s, rfl, rfl⟩ := epsilon
        exact h.epsilon ⟨span, [.epsilon s], none, [], refs⟩ num
      -- the move makes it neither empty nor an epsilon, so the second walk takes the same way
      have moved : ¬(Element.movedAll C.move elements = [] ∧
          rewrite.map (Rewrite.moved C.move) = none) := by
        simpa using empty
      have movedMore (s : Span) : ¬(Element.movedAll C.move elements = [.epsilon s] ∧
          rewrite.map (Rewrite.moved C.move) = none) := by
        rintro ⟨here, none⟩
        obtain ⟨s', hs'⟩ := Element.exists_of_movedAll_eq_epsilon C.move here
        exact epsilon ⟨s', hs', Option.map_eq_none_iff.mp none⟩
      rw [Alt.moved, List.map_nil, Setup.walkAlt_eq first num empty (not_exists.mp epsilon),
        Setup.walkAlt_eq second num moved movedMore]
      refine (h.alternative ⟨span, elements, rewrite, [], refs⟩ num).bind fun block block' hb => ?_
      refine (h.walkElements elements).bind fun ops ops' hops => ?_
      refine (h.rewriteOf rewrite).bind fun rewritten rewritten' hrewritten => ?_
      exact h.visit .finishAlternative (C.fill hb (C.append hops hrewritten))

end

theorem walkRule (h : C.Walks first second) (rule : Rule) : C.Coupled (C.nodes .ops)
    (first.walkRule rule) (second.walkRule (rule.moved C.move)) := by
  unfold Setup.walkRule
  obtain ⟨span, name, args, returns, locals, actions, block⟩ := rule
  cases block with
  | none => exact coupled_malformed ⟨.node .rule, span⟩ _ _
  | some block => exact h.walkBlock block

end Walks

end Coupling

end RecognizerModel
