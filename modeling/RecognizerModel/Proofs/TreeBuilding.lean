import RecognizerModel.Proofs.TreeGrafts

/-! Tree building is a conservative extension. A job that builds trees says the same of its rules,
and its code is that of a job without extensions with operations on the tree put in. -/
namespace RecognizerModel

theorem Element.markedReferences_of_splitLabel {element : Element} {r : Reference}
    {label : Option Label} (h : element.splitLabel = (.reference r, label)) (mark : TreeMark) :
    element.markedReferences mark = [⟨r, mark⟩] := by
  obtain ⟨rfl, _⟩ | ⟨l, rfl, _⟩ := Element.eq_of_splitLabel h
  · rw [markedReferences]
  · rw [markedReferences, markedReferences]

namespace Setup

variable {g : Grammar} {target : Target} {validate : Bool}

/-- Whether operations of which each stands for a marked reference become a result under the marks,
given that every reference was told of its mark. -/
def GraftsTo (g : Grammar) (target : Target) (validate : Bool) (marked : List MarkedReference)
    (ops : List Op) (Result : List Op → Prop) : Prop :=
  (∀ m ∈ marked, m.IsTold) →
    Op.GraftedTo (plain g target validate) (marked.map MarkedReference.mark) ops Result

/-- A reference below a mark that is not the root's. -/
theorem graftsTo_labeledReference {refs : List String} {element : Element} {mark : TreeMark}
    {built : Reference × List Op} (other : mark ≠ .root)
    (h : (plain g target validate).labeledReferenceCode refs element = .ok built) :
    GraftsTo g target validate (element.markedReferences mark) built.2 fun grafted =>
      (treeing g target false).labeledReferenceCode refs element = .ok (built.1, grafted) := by
  obtain ⟨label, hsplit, hcode⟩ := exists_reference_of_labeledReferenceCode h
  rw [Element.markedReferences_of_splitLabel hsplit]
  intro told
  refine (graftedTo_reference (told _ (List.mem_singleton_self _)) other hcode).imp
    fun grafted code => ?_
  rw [labeledReferenceCode_eq hsplit, code]
  rfl

theorem graftsTo_labeledRoot {refs : List String} {element : Element}
    {built : Reference × List Op}
    (h : (plain g target validate).labeledReferenceCode refs element = .ok built) :
    GraftsTo g target validate (element.markedReferences .root) built.2 fun grafted => ∃ ops,
      (treeing g target false).labeledReferenceCode refs element = .ok (built.1, ops) ∧
        grafted = (treeing g target false).decoratedRoot built.1 ops := by
  obtain ⟨label, hsplit, hcode⟩ := exists_reference_of_labeledReferenceCode h
  rw [Element.markedReferences_of_splitLabel hsplit]
  intro told
  refine (graftedTo_rootReference (told _ (List.mem_singleton_self _)) hcode).imp ?_
  rintro _ ⟨ops, code, rfl⟩
  refine ⟨ops, ?_, rfl⟩
  rw [labeledReferenceCode_eq hsplit, code]
  rfl

/-- Nothing is matched in a rewrite, so nothing is put in. -/
theorem graftedTo_rewrite {spot : Spot} {rewrite : Option Rewrite} {ops : List Op}
    (h : (plain g target validate).rewriteCode spot rewrite = .ok ops) :
    Op.GraftedTo (plain g target validate) [] ops
      ((treeing g target false).rewriteCode spot rewrite = .ok ·) := by
  have alike : RewritesAlike (plain g target validate) (treeing g target false) := by
    refine ⟨rfl, fun p node rewrite => ?_⟩
    cases p <;> first | rfl | cases rewrite
  have code := (alike.rewriteCode spot rewrite).trans h
  cases rewrite with
  | none =>
      cases h
      exact Op.graftedTo_nil code
  | some r =>
      obtain ⟨body, _, h⟩ := bind_eq_ok.mp h
      cases h
      exact Op.graftedTo_leaf (fun _ => rfl) code

theorem decoratedChoice_treeing (c : Choice) (kind : ChoiceKind) :
    (treeing g target false).decoratedChoice c kind = c := by
  obtain ⟨_ | _ | _, _ | _⟩ := kind <;> rfl

/-- Tree building does not look at a choice. -/
theorem choiceAt_treeing {site : ChoiceSite} {alts alts' : List Alternative} {c : Choice}
    (h : (plain g target validate).choiceAt site alts = .ok c) (same : alts'.length = alts.length) :
    (treeing g target false).choiceAt site alts' = .ok { c with alts := alts' } := by
  obtain ⟨tests, htests, h⟩ := bind_eq_ok.mp h
  rw [decoratedChoice_plain] at h
  cases h
  rw [← same] at htests
  exact bind_eq_ok.mpr ⟨tests, htests, congrArg Except.ok (decoratedChoice_treeing _ _)⟩

/-- A choice between alternatives that are put together from grafted operations. -/
theorem GraftsTo.choice {marked : List MarkedReference} {site : ChoiceSite}
    {spot : Spot} {num : Nat} {alts : List Alt} {built : List Alternative} {c : Choice}
    {Result : List Op → Prop}
    (inside : (∀ m ∈ marked, m.IsTold) → Alternative.GraftedTo (plain g target validate)
      (marked.map MarkedReference.mark) built
      ((treeing g target false).branches spot num alts = .ok ·))
    (length : built.length = alts.length)
    (hc : (plain g target validate).choiceAt site built = .ok c)
    (result : ∀ built c, (treeing g target false).branches spot num alts = .ok built →
      (treeing g target false).choiceAt site built = .ok c → Result [.choice c]) :
    GraftsTo g target validate marked [.choice c] Result := by
  intro told
  obtain ⟨rfl, _⟩ := eq_of_choiceAt hc
  refine (inside told).choice fun alts' halts => result alts' _ halts ?_
  exact choiceAt_treeing hc ((length_branches halts).trans length.symm)

/-- Whether what tree building makes of code comes out of it by the marks of the syntax. -/
theorem compositional_grafts : Compositional g target validate
    (fun spot element ops => ∀ mark, mark ≠ .root →
      GraftsTo g target validate (element.markedReferences mark) ops
        ((treeing g target false).elementCode spot element = .ok ·))
    (fun spot elements ops =>
      GraftsTo g target validate (Element.markedReferencesIn .unmarked elements) ops
        ((treeing g target false).elementsCode spot elements = .ok ·))
    (fun spot block ops => GraftsTo g target validate block.markedReferences ops
      ((treeing g target false).blockCode spot block = .ok ·))
    (fun spot num alt ops => GraftsTo g target validate alt.markedReferences ops fun ops =>
      (treeing g target false).branch spot num alt = .ok ⟨num, ops⟩)
    (fun spot num alts built => built.length = alts.length ∧
      ((∀ m ∈ Alt.markedReferencesIn alts, m.IsTold) →
        Alternative.GraftedTo (plain g target validate)
          ((Alt.markedReferencesIn alts).map MarkedReference.mark) built
          ((treeing g target false).branches spot num alts = .ok ·))) where
  reference hops mark other told := by
    rw [Element.markedReferences] at told ⊢
    simp only [elementCode]
    exact graftedTo_reference (told _ (List.mem_singleton_self _)) other hops
  action _ _ _ := Op.graftedTo_leaf (fun _ => rfl) rfl
  forcedAction _ _ _ := Op.graftedTo_leaf (fun _ => rfl) rfl
  predicate _ _ _ := Op.graftedTo_leaf (fun _ => rfl) rfl
  epsilon _ _ _ := Op.graftedTo_leaf (fun _ => rfl) rfl
  block inside _ _ := by
    simp only [elementCode, Element.markedReferences]
    exact inside
  ebnf nonempty inside hc mark other := by
    rw [Element.markedReferences, Block.markedReferences]
    refine .choice inside.2 inside.1 hc fun built c hbuilt hc => ?_
    rw [elementCode_ebnf _ _ _ _ _ _ _ nonempty]
    exact bind_eq_ok.mpr ⟨built, hbuilt, bind_eq_ok.mpr ⟨c, hc, rfl⟩⟩
  root hbuilt mark other told := by
    rw [Element.markedReferences] at told ⊢
    refine (graftsTo_labeledRoot hbuilt told).imp ?_
    rintro _ ⟨ops, code, rfl⟩
    rw [elementCode]
    exact bind_eq_ok.mpr ⟨_, code, rfl⟩
  bang inside mark other told := by
    rw [Element.markedReferences] at told ⊢
    simp only [elementCode]
    exact inside .bang (by decide) told
  labeled hbuilt mark other told := by
    refine (graftsTo_labeledReference other hbuilt told).imp fun grafted code => ?_
    rw [elementCode]
    exact bind_eq_ok.mpr ⟨_, code, rfl⟩
  noElements _ := Op.graftedTo_nil rfl
  elements first others told := by
    rw [Element.markedReferencesIn] at told ⊢
    obtain ⟨here, behind⟩ := List.forall_mem_append.mp told
    rw [List.map_append]
    refine (first .unmarked (by decide) here).append (others behind)
      fun grafted grafted' hfirst hothers => ?_
    rw [elementsCode]
    exact bind_eq_ok.mpr ⟨grafted, hfirst, bind_eq_ok.mpr ⟨grafted', hothers, rfl⟩⟩
  inlined inside told := by
    rw [Block.markedReferences, Alt.markedReferencesIn, Alt.markedReferencesIn,
      List.append_nil] at told ⊢
    refine (inside told).imp fun grafted hinlined => ?_
    rw [blockCode]
    exact bind_eq_ok.mpr ⟨_, hinlined, rfl⟩
  choice several inside hc := by
    rw [Block.markedReferences]
    refine .choice inside.2 inside.1 hc fun built c hbuilt hc => ?_
    rw [blockCode_eq _ _ _ _ several]
    exact bind_eq_ok.mpr ⟨built, hbuilt, bind_eq_ok.mpr ⟨c, hc, rfl⟩⟩
  alt nonempty inside hrewritten told := by
    rw [Alt.markedReferences] at told ⊢
    rw [← List.append_nil (List.map _ _)]
    refine (inside told).append (graftedTo_rewrite hrewritten)
      fun ops rewritten hops hrewritten => ?_
    rw [branch_eq (fun _ => rfl) (fun _ => rfl) (fun _ => rfl) nonempty]
    exact bind_eq_ok.mpr ⟨ops, hops, bind_eq_ok.mpr ⟨rewritten, hrewritten, rfl⟩⟩
  noAlts := ⟨rfl, fun _ => Alternative.graftedTo_nil rfl⟩
  alts first others := by
    refine ⟨congrArg (· + 1) others.1, fun told => ?_⟩
    rw [Alt.markedReferencesIn] at told ⊢
    obtain ⟨here, behind⟩ := List.forall_mem_append.mp told
    rw [List.map_append]
    refine (first here).alternative (others.2 behind) fun ops rest hops hrest => ?_
    rw [branches]
    exact bind_eq_ok.mpr ⟨_, hops, bind_eq_ok.mpr ⟨_, hrest, rfl⟩⟩

/-- The code of a rule with trees is the code without them, with the operations on the tree that the
marks of its references ask for. -/
theorem graftAll_of_ruleCode {n : Node} (rule : n.kind = .rule) {code : List Op}
    (h : (plain g target validate).ruleCode (.ofNode n) = .ok code) :
    ∃ grafted, (treeing g target false).ruleCode (.ofNode n) = .ok grafted ∧
      Op.graftAll (plain g target validate) (n.markedReferences.map MarkedReference.mark) code =
        (grafted, []) := by
  obtain ⟨block, hblock, grafts⟩ := compositional_grafts.of_ruleCode h
  have marked := Rule.markedReferences_block rule
  rw [hblock, Option.map_some, Option.getD_some] at marked
  rw [marked] at grafts
  obtain ⟨grafted, hcode, hgrafted⟩ := grafts fun _ => Node.isTold_of_mem_markedReferences
  refine ⟨grafted, ?_, ?_⟩
  · unfold ruleCode
    rw [hblock]
    exact hcode
  · rw [← List.append_nil (List.map _ _)]
    exact hgrafted []

end Setup

/-- Whether an operation matches a reference, labels aside. -/
def MarkedReference.MatchedBy (g : Grammar) (target : Target) (m : MarkedReference) (op : Op) :
    Prop :=
  g.bareReference? target m.reference = some [op.bare]

namespace Setup

variable {g : Grammar} {target : Target} {validate : Bool}

theorem matchedBy_of_referenceCode {refs : List String} {r : Reference} {label : Option Label}
    {ops : List Op} (h : (plain g target validate).referenceCode refs r label = .ok ops)
    (mark : TreeMark) :
    List.Forall₂ (MarkedReference.MatchedBy g target) [⟨r, mark⟩] (Op.matchedIn ops) := by
  have labeled := matchesAt_of_referenceCode h []
  generalize Op.matchedIn ops = matched at labeled ⊢
  cases labeled with
  | cons first rest =>
      cases rest
      exact .cons first.gives.bare .nil

theorem matchedBy_of_labeledReferenceCode {refs : List String} {element : Element}
    {built : Reference × List Op}
    (h : (plain g target validate).labeledReferenceCode refs element = .ok built)
    (mark : TreeMark) :
    List.Forall₂ (MarkedReference.MatchedBy g target) (element.markedReferences mark)
      (Op.matchedIn built.2) := by
  obtain ⟨label, hsplit, hcode⟩ := exists_reference_of_labeledReferenceCode h
  rw [Element.markedReferences_of_splitLabel hsplit]
  exact matchedBy_of_referenceCode hcode mark

/-- The operations that match something are for the marked references, in order. -/
theorem compositional_matchedBy : Compositional g target validate
    (fun _ element ops => ∀ mark, List.Forall₂ (MarkedReference.MatchedBy g target)
      (element.markedReferences mark) (Op.matchedIn ops))
    (fun _ elements ops => List.Forall₂ (MarkedReference.MatchedBy g target)
      (Element.markedReferencesIn .unmarked elements) (Op.matchedIn ops))
    (fun _ block ops => List.Forall₂ (MarkedReference.MatchedBy g target) block.markedReferences
      (Op.matchedIn ops))
    (fun _ _ alt ops => List.Forall₂ (MarkedReference.MatchedBy g target) alt.markedReferences
      (Op.matchedIn ops))
    (fun _ _ alts built => List.Forall₂ (MarkedReference.MatchedBy g target)
      (Alt.markedReferencesIn alts) (Alternative.matchedIn built)) where
  reference hops mark := by
    rw [Element.markedReferences]
    exact matchedBy_of_referenceCode hops mark
  action _ := .nil
  forcedAction _ := .nil
  predicate _ := .nil
  epsilon _ := .nil
  block inside _ := by rwa [Element.markedReferences]
  ebnf _ inside hc _ := by
    rwa [Element.markedReferences, Block.markedReferences, matchedIn_of_choiceAt hc]
  root hbuilt _ := by
    rw [Element.markedReferences]
    exact matchedBy_of_labeledReferenceCode hbuilt .root
  bang inside _ := by
    rw [Element.markedReferences]
    exact inside .bang
  labeled hbuilt mark := matchedBy_of_labeledReferenceCode hbuilt mark
  noElements := .nil
  elements first others := by
    rw [Element.markedReferencesIn, Op.matchedIn_append]
    exact List.rel_append (first .unmarked) others
  inlined inside := by
    rwa [Block.markedReferences, Alt.markedReferencesIn, Alt.markedReferencesIn, List.append_nil]
  choice _ inside hc := by rwa [Block.markedReferences, matchedIn_of_choiceAt hc]
  alt _ inside hrewritten := by
    rw [Alt.markedReferences, Op.matchedIn_append, matchedIn_of_rewriteCode hrewritten,
      List.append_nil]
    exact inside
  noAlts := .nil
  alts first others := by
    rw [Alt.markedReferencesIn, Alternative.matchedIn]
    exact List.rel_append first others

theorem matchedBy_of_ruleCode {n : Node} (rule : n.kind = .rule) {code : List Op}
    (h : (plain g target validate).ruleCode (.ofNode n) = .ok code) :
    List.Forall₂ (MarkedReference.MatchedBy g target) n.markedReferences (Op.matchedIn code) := by
  obtain ⟨block, hblock, matched⟩ := compositional_matchedBy.of_ruleCode h
  have marked := Rule.markedReferences_block rule
  rw [hblock, Option.map_some, Option.getD_some] at marked
  rwa [marked] at matched

theorem Makes.of_same_model {setup setup' : Setup} {index : Nat} {f : RuleFunction}
    {outcome : RuleOutcome}
    (same : (setup'.parserModel .empty).1 = (setup.parserModel .empty).1)
    (makes : setup.Makes index f outcome) : setup'.Makes index f outcome := by
  obtain ⟨model, table, s, hrun, made⟩ := makes
  rw [hrun] at same
  exact ⟨model, table, (setup'.parserModel .empty).2, Prod.ext same rfl, made⟩

theorem Makes.outcome_eq {setup setup' : Setup} {index : Nat} {f f' : RuleFunction}
    {outcome outcome' : RuleOutcome}
    (same : (setup'.parserModel .empty).1.map ParserModel.reports =
      (setup.parserModel .empty).1.map ParserModel.reports)
    (makes : setup.Makes index f outcome) (makes' : setup'.Makes index f' outcome') :
    outcome' = outcome := by
  obtain ⟨model, table, s, hrun, _, _, houtcome⟩ := makes
  obtain ⟨model', table', s', hrun', _, _, houtcome'⟩ := makes'
  rw [hrun, hrun'] at same
  have outcomes := congrArg Prod.fst (Except.ok.inj same)
  exact Option.some.inj (houtcome'.symm.trans ((congrArg (·[index]?) outcomes).trans houtcome))

/-- What a job with tree building makes of a rule that it translates. -/
theorem exists_makes_treeing (g : Grammar) (target : Target) (validate : Bool) {index : Nat}
    {rule : Rule} (hrule : (g.rulesFor .parser)[index]? = some rule) :
    ∃ f outcome, (treeing g target validate).Makes index f outcome ∧
      ∀ code, (treeing g target false).ruleCode rule = .ok code → f.code = code := by
  obtain ⟨b, alone, makes⟩ := (treeing_keepsContracts g target).makes_alone
    (fun _ noFuncs => noFuncs) hrule
  obtain ⟨b', alone', _, hcode⟩ := (treeing_keepsContracts g target).buildAlone_eq rule index
  rw [alone] at alone'
  cases alone'
  refine ⟨_, _, makes.of_same_model (treeing_unvalidated g target validate), fun code h => ?_⟩
  rw [hcode, h]
  rfl

/-- Tree building is a conservative extension. The outcomes and the diagnostics of a parser job stay
the same, and so does its fatal error if it has one. The code of a rule that is built gets labels
and operations on the tree as the marks of its references say, which stand for what the rule
matches in order. -/
theorem conservative_treeing (g : Grammar) (target : Target) (validate : Bool) :
    ((treeing g target validate).parserModel .empty).1.map ParserModel.reports =
      ((plain g target validate).parserModel .empty).1.map ParserModel.reports ∧
    ∀ (index : Nat) (n : Node) (rule : Rule), n.rule? = some rule →
      (g.rulesFor .parser)[index]? = some rule →
      ∃ f f' outcome, (plain g target validate).Makes index f outcome ∧
        (treeing g target validate).Makes index f' outcome ∧ (outcome.isBuilt →
          List.Forall₂ (MarkedReference.MatchedBy g target) n.markedReferences
            (Op.matchedIn f.code) ∧
          Op.graftAll (plain g target validate) (n.markedReferences.map MarkedReference.mark)
            f.code = (f'.code, [])) := by
  refine ⟨reports_of_treeing g target validate, fun index n rule made hrule => ?_⟩
  obtain ⟨kind, rfl⟩ := Node.rule?_eq_some_iff.mp made
  obtain ⟨f, outcome, makes, hcode⟩ := plain_makes_code g target validate hrule
  obtain ⟨f', outcome', makes', hcode'⟩ := exists_makes_treeing g target validate hrule
  obtain rfl := makes.outcome_eq (reports_of_treeing g target validate) makes'
  refine ⟨f, f', outcome', makes, makes', fun built => ?_⟩
  obtain ⟨grafted, hgrafted, grafts⟩ := graftAll_of_ruleCode kind (hcode built)
  rw [hcode' grafted hgrafted]
  exact ⟨matchedBy_of_ruleCode kind (hcode built), grafts⟩

end Setup

/-- A rule with a reference under each mark. -/
def Grammar.markedTerms : Grammar :=
  (load ("(PARSER_GRAMMAR P(RULE a(BLOCK(ALT(RULE_REF a)(CLOSURE(BLOCK(ALT" ++
    "(ROOT(STRING_LITERAL '+'))(BANG(ASSIGN x(TOKEN_REF X))))))))))")).toOption.get
    (by decide +kernel)

namespace Setup

theorem conservative_markedTerms :
    ((treeing .markedTerms .java true).parserModel .empty).1.map ParserModel.reports =
      ((plain .markedTerms .java true).parserModel .empty).1.map ParserModel.reports ∧
    ∃ (n : Node) (rule : Rule) (f f' : RuleFunction) (outcome : RuleOutcome),
      n.rule? = some rule ∧ (Grammar.markedTerms.rulesFor .parser)[0]? = some rule ∧
      (plain .markedTerms .java true).Makes 0 f outcome ∧
      (treeing .markedTerms .java true).Makes 0 f' outcome ∧ outcome.isBuilt ∧
      (Op.matchedIn f.code).length = 3 ∧
      List.Forall₂ (MarkedReference.MatchedBy .markedTerms .java) n.markedReferences
        (Op.matchedIn f.code) ∧
      Op.graftAll (plain .markedTerms .java true) (n.markedReferences.map MarkedReference.mark)
        f.code = (f'.code, []) := by
  have evaluated : ((Grammar.markedTerms.rulesFor .parser)[0]?.bind fun rule =>
      ((plain .markedTerms .java true).ruleCode rule).toOption.map fun code =>
        (Op.matchedIn code).length) = some 3 := by decide +kernel
  obtain ⟨n, rule, f, outcome, _, same, hrule, makes, built, seen⟩ :=
    exists_node_makes_of_map evaluated
  obtain ⟨reports, each⟩ := conservative_treeing .markedTerms .java true
  obtain ⟨f₁, f', outcome', makes', treed, grafts⟩ := each 0 n rule same hrule
  obtain ⟨rfl, rfl⟩ := makes.unique makes'
  exact ⟨reports, n, rule, f, f', outcome, same, hrule, makes, treed, built, seen, grafts built⟩

end Setup

end RecognizerModel
