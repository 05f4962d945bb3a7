import RecognizerModel.Proofs.LoadedGrammar
import RecognizerModel.Proofs.RuleRun

/-! The translation without extensions. -/
namespace RecognizerModel

namespace Setup

variable {g : Grammar} {target : Target} {validate : Bool}

theorem plain_decorated (p : Point) (node : p.Node) :
    (plain g target validate).decorated p node = node := rfl

theorem decoratedReference_plain (r : Reference) (ops : List Op) :
    (plain g target validate).decoratedReference r ops = ops := by
  cases r with
  | rule r => exact ite_self ops
  | token t => exact ite_self ops
  | literal l => rfl

theorem decoratedRoot_plain (r : Reference) (ops : List Op) :
    (plain g target validate).decoratedRoot r ops = ops := by
  cases r <;> rfl

theorem decoratedChoice_plain (c : Choice) (kind : ChoiceKind) :
    (plain g target validate).decoratedChoice c kind = c := by
  obtain ⟨_ | _ | _, _ | _⟩ := kind <;> rfl

theorem type?_of_typeOf {setup : Setup} {name : String} {place : Place} {p : Point} {ttype : Int}
    (h : setup.typeOf name place p = .ok ttype) :
    setup.grammar.vocabulary.type? name = some ttype := by
  unfold typeOf at h
  split at h
  · next htype =>
    cases h
    exact htype
  · cases h

/-- A reference gives one operation, under at most one label. -/
theorem exists_of_referenceCode {refs : List String} {r : Reference} {label : Option Label}
    {ops : List Op} (h : (plain g target validate).referenceCode refs r label = .ok ops) :
    ∃ op labeled, (plain g target validate).plainOp r = .ok op ∧
      (labeled = op ∨ ∃ name, labeled = op.addLabel name) ∧ ops = [labeled] := by
  obtain ⟨op, hop, h⟩ := bind_eq_ok.mp h
  obtain ⟨labeled, hlabeled, h⟩ := bind_eq_ok.mp h
  rw [decoratedReference_plain] at h
  cases h
  exact ⟨op, labeled, hop, eq_or_eq_addLabel_of_labeled hlabeled, rfl⟩

/-- A choice says what is known of its site. Where one token of lookahead is enough there are as
many tests as alternatives. -/
theorem eq_of_choiceAt {site : ChoiceSite} {alts : List Alternative} {c : Choice}
    (h : (plain g target validate).choiceAt site alts = .ok c) :
    c = ⟨(plain g target validate).kindAt site, site.decision, site.ebnf, alts,
        (((plain g target validate).lookaheadAt? site).getD []).map fun look =>
          [.testSet look.types (look.tokenNames g.vocabulary)], []⟩ ∧
      ∀ sets, (plain g target validate).lookaheadAt? site = some sets →
        sets.length = alts.length := by
  obtain ⟨tests, htests, h⟩ := bind_eq_ok.mp h
  rw [decoratedChoice_plain] at h
  cases h
  unfold testsAt at htests
  cases hlook : (plain g target validate).lookaheadAt? site with
  | none =>
      rw [hlook] at htests
      cases htests
      exact ⟨rfl, nofun⟩
  | some sets =>
      rw [hlook] at htests
      dsimp only at htests
      split at htests
      · next fits =>
        cases htests
        exact ⟨rfl, by rintro _ ⟨⟩; exact fits⟩
      · cases htests

theorem branch_plain {spot : Spot} {num : Nat} {span : Span} {elements : List Element}
    {rewrite : Option Rewrite} {refs : List String} (nonempty : elements ≠ [] ∨ rewrite ≠ none) :
    (plain g target validate).branch spot num ⟨span, elements, rewrite, [], refs⟩ = (do
      let ops ← (plain g target validate).elementsCode { spot with refs } elements
      let rewritten ← (plain g target validate).rewriteCode
        { spot with refs := Element.refsAfterAll refs elements } rewrite
      return ⟨num, ops ++ rewritten⟩) :=
  branch_eq (fun _ => rfl) (fun _ => rfl) (fun _ => rfl) nonempty

theorem eq_of_branch_plain {spot : Spot} {num : Nat} {span : Span} {elements : List Element}
    {rewrite : Option Rewrite} {strangers : List Place} {refs : List String} {built : Alternative}
    (h : (plain g target validate).branch spot num ⟨span, elements, rewrite, strangers, refs⟩ =
      .ok built) :
    strangers = [] ∧ (elements ≠ [] ∨ rewrite ≠ none) ∧ ∃ ops rewritten,
      (plain g target validate).elementsCode { spot with refs } elements = .ok ops ∧
        (plain g target validate).rewriteCode
          { spot with refs := Element.refsAfterAll refs elements } rewrite = .ok rewritten ∧
        built = ⟨num, ops ++ rewritten⟩ := by
  cases strangers with
  | cons stranger _ =>
      rw [branch] at h
      cases h
  | nil =>
      by_cases nonempty : elements ≠ [] ∨ rewrite ≠ none
      · rw [branch_plain nonempty] at h
        obtain ⟨ops, hops, h⟩ := bind_eq_ok.mp h
        obtain ⟨rewritten, hrewritten, h⟩ := bind_eq_ok.mp h
        cases h
        exact ⟨rfl, nonempty, ops, rewritten, hops, hrewritten, rfl⟩
      · obtain ⟨rfl, rfl⟩ : elements = [] ∧ rewrite = none := by simpa using nonempty
        rw [branch] at h
        cases h

/-- Relations between the elements of a rewrite at a spot and the operations that they are
translated to, which hold of an element if they hold of its parts. -/
structure RewriteCompositional (g : Grammar) (target : Target) (validate : Bool)
    (R : Spot → Bool → RewriteElement → List Op → Prop)
    (Rs : Spot → List RewriteElement → List Op → Prop) : Prop where
  reference {spot : Spot} {isRoot : Bool} {r : Reference} {ops : List Op} :
    (plain g target validate).rewriteReferenceCode spot isRoot r = .ok ops →
      R spot isRoot (.reference r) ops
  tree {spot : Spot} {isRoot : Bool} {span : Span} {first : RewriteElement}
      {rest : List RewriteElement} {root children : List Op} :
    R spot.inTree true first root → Rs spot.inTree rest children →
      R spot isRoot (.tree span (first :: rest))
        [.rewriteTree ⟨spot.inTree.trees, spot.blockLevel, root, children⟩]
  optional {spot : Spot} {isRoot : Bool} {span : Span} {referenced : List String}
      {elements : List RewriteElement} {ops : List Op} :
    Rs spot.inBlock elements ops → R spot isRoot (.optional span referenced elements)
      [.rewriteOptional ⟨spot.blockLevel, referenced, ops⟩]
  closure {spot : Spot} {isRoot : Bool} {span : Span} {referenced : List String}
      {elements : List RewriteElement} {ops : List Op} :
    Rs spot.inBlock elements ops → R spot isRoot (.closure span referenced elements)
      [.rewriteClosure ⟨spot.blockLevel, referenced, ops⟩]
  noElements {spot : Spot} : Rs spot [] []
  elements {spot : Spot} {element : RewriteElement} {rest : List RewriteElement}
      {first others : List Op} :
    R spot false element first → Rs spot rest others → Rs spot (element :: rest) (first ++ others)

namespace RewriteCompositional

variable {R : Spot → Bool → RewriteElement → List Op → Prop}
  {Rs : Spot → List RewriteElement → List Op → Prop}

mutual

theorem of_rewriteElementCode (h : RewriteCompositional g target validate R Rs) :
    ∀ (element : RewriteElement) {spot : Spot} {isRoot : Bool} {ops : List Op},
      (plain g target validate).rewriteElementCode spot isRoot element = .ok ops →
        R spot isRoot element ops
  | .reference r, _, _, _, built => by
      rw [rewriteElementCode] at built
      exact h.reference built
  | .tree _ [], _, _, _, built => by
      rw [rewriteElementCode] at built
      cases built
  | .tree _ (first :: rest), _, _, _, built => by
      rw [rewriteElementCode] at built
      obtain ⟨root, hroot, built⟩ := bind_eq_ok.mp built
      obtain ⟨children, hchildren, built⟩ := bind_eq_ok.mp built
      cases built
      exact h.tree (h.of_rewriteElementCode first hroot) (h.of_rewriteElementsCode rest hchildren)
  | .optional _ referenced elements, _, _, _, built => by
      rw [rewriteElementCode] at built
      obtain ⟨body, hbody, built⟩ := bind_eq_ok.mp built
      cases built
      exact h.optional (h.of_rewriteElementsCode elements hbody)
  | .closure _ referenced elements, _, _, _, built => by
      rw [rewriteElementCode] at built
      obtain ⟨body, hbody, built⟩ := bind_eq_ok.mp built
      cases built
      exact h.closure (h.of_rewriteElementsCode elements hbody)

theorem of_rewriteElementsCode (h : RewriteCompositional g target validate R Rs) :
    ∀ (elements : List RewriteElement) {spot : Spot} {ops : List Op},
      (plain g target validate).rewriteElementsCode spot elements = .ok ops → Rs spot elements ops
  | [], _, _, built => by
      cases built
      exact h.noElements
  | element :: rest, _, _, built => by
      rw [rewriteElementsCode] at built
      obtain ⟨first, hfirst, built⟩ := bind_eq_ok.mp built
      obtain ⟨others, hothers, built⟩ := bind_eq_ok.mp built
      cases built
      exact h.elements (h.of_rewriteElementCode element hfirst)
        (h.of_rewriteElementsCode rest hothers)

end

/-- Of a rewrite the elements count, and the operation for the whole comes on top. -/
theorem of_rewriteCode (h : RewriteCompositional g target validate R Rs) {spot : Spot}
    {rewrite : Option Rewrite} {ops : List Op}
    (built : (plain g target validate).rewriteCode spot rewrite = .ok ops) :
    rewrite = none ∧ ops = [] ∨ ∃ r body, rewrite = some r ∧ Rs spot r.elements body ∧
      ops = [.treeRewrite ⟨spot.blockLevel, body⟩] := by
  cases rewrite with
  | none =>
      cases built
      exact .inl ⟨rfl, rfl⟩
  | some r =>
      obtain ⟨body, hbody, built⟩ := bind_eq_ok.mp built
      cases built
      exact .inr ⟨r, body, rfl, h.of_rewriteElementsCode r.elements hbody, rfl⟩

end RewriteCompositional

/-- Relations between syntax at a spot and the operations that it is translated to, which hold of a
construct if they hold of its parts. -/
structure Compositional (g : Grammar) (target : Target) (validate : Bool)
    (E : Spot → Element → List Op → Prop) (Es : Spot → List Element → List Op → Prop)
    (B : Spot → Block → List Op → Prop) (A : Spot → Nat → Alt → List Op → Prop)
    (As : Spot → Nat → List Alt → List Alternative → Prop) : Prop where
  reference {spot : Spot} {r : Reference} {ops : List Op} :
    (plain g target validate).referenceCode spot.refs r none = .ok ops → E spot (.reference r) ops
  action {spot : Spot} {span : Span} {code : String} :
    E spot (.action ⟨span, some code⟩) [.action code]
  forcedAction {spot : Spot} {span : Span} {code : String} :
    E spot (.forcedAction ⟨span, some code⟩) [.forcedAction code]
  predicate {spot : Spot} {span : Span} {code : String} :
    E spot (.predicate ⟨span, some code⟩) [.predicate code]
  epsilon {spot : Spot} {span : Span} : E spot (.epsilon span) [.epsilon]
  block {spot : Spot} {b : Block} {ops : List Op} : B spot b ops → E spot (.block b) ops
  ebnf {spot : Spot} {kind : EbnfKind} {span bodySpan : Span} {decision bodyDecision : Option Nat}
      {alts : List Alt} {built : List Alternative} {c : Choice} :
    let body : Block := ⟨bodySpan, bodyDecision, alts⟩
    alts ≠ [] → As spot.inBlock 1 alts built → (plain g target validate).choiceAt
      (.ofEbnf kind span decision (some body)) built = .ok c →
        E spot (.ebnf kind span decision (some body)) [.choice c]
  root {spot : Spot} {span : Span} {operand : Element} {built : Reference × List Op} :
    (plain g target validate).labeledReferenceCode spot.refs operand = .ok built →
      E spot (.root span (some operand)) built.2
  bang {spot : Spot} {span : Span} {operand : Element} {ops : List Op} :
    E spot operand ops → E spot (.bang span (some operand)) ops
  labeled {spot : Spot} {label : Label} {operand : Option Element}
      {built : Reference × List Op} :
    (plain g target validate).labeledReferenceCode spot.refs (.labeled label operand) = .ok built →
      E spot (.labeled label operand) built.2
  noElements {spot : Spot} : Es spot [] []
  elements {spot : Spot} {element : Element} {rest : List Element} {first others : List Op} :
    E spot element first → Es { spot with refs := element.refsAfter spot.refs } rest others →
      Es spot (element :: rest) (first ++ others)
  inlined {spot : Spot} {span : Span} {decision : Option Nat} {alt : Alt} {ops : List Op} :
    A spot 1 alt ops → B spot ⟨span, decision, [alt]⟩ ops
  choice {spot : Spot} {span : Span} {decision : Option Nat} {alts : List Alt}
      {built : List Alternative} {c : Choice} :
    2 ≤ alts.length → As spot.inBlock 1 alts built →
      (plain g target validate).choiceAt (.ofBlock ⟨span, decision, alts⟩) built = .ok c →
        B spot ⟨span, decision, alts⟩ [.choice c]
  alt {spot : Spot} {num : Nat} {span : Span} {elements : List Element}
      {rewrite : Option Rewrite} {refs : List String} {ops rewritten : List Op} :
    (elements ≠ [] ∨ rewrite ≠ none) → Es { spot with refs } elements ops →
      (plain g target validate).rewriteCode
        { spot with refs := Element.refsAfterAll refs elements } rewrite = .ok rewritten →
          A spot num ⟨span, elements, rewrite, [], refs⟩ (ops ++ rewritten)
  noAlts {spot : Spot} {num : Nat} : As spot num [] []
  alts {spot : Spot} {num : Nat} {alt : Alt} {rest : List Alt} {ops : List Op}
      {others : List Alternative} :
    A spot num alt ops → As spot (num + 1) rest others →
      As spot num (alt :: rest) (⟨num, ops⟩ :: others)

namespace Compositional

variable {E : Spot → Element → List Op → Prop} {Es : Spot → List Element → List Op → Prop}
  {B : Spot → Block → List Op → Prop} {A : Spot → Nat → Alt → List Op → Prop}
  {As : Spot → Nat → List Alt → List Alternative → Prop}

mutual

theorem of_elementCode (h : Compositional g target validate E Es B A As) :
    ∀ (element : Element) {spot : Spot} {ops : List Op},
      (plain g target validate).elementCode spot element = .ok ops → E spot element ops
  | .reference r, _, _, built => by
      rw [elementCode] at built
      exact h.reference built
  | .action ⟨_, some code⟩, _, _, built => by
      cases built
      exact h.action
  | .forcedAction ⟨_, some code⟩, _, _, built => by
      cases built
      exact h.forcedAction
  | .predicate ⟨_, some code⟩, _, _, built => by
      cases built
      exact h.predicate
  | .action ⟨_, none⟩, _, _, built | .forcedAction ⟨_, none⟩, _, _, built
  | .predicate ⟨_, none⟩, _, _, built => by
      cases built
  | .epsilon _, _, _, built => by
      cases built
      exact h.epsilon
  | .block b, _, _, built => by
      rw [elementCode] at built
      exact h.block (h.of_blockCode b built)
  | .ebnf _ _ _ none, _, _, built | .ebnf _ _ _ (some ⟨_, _, []⟩), _, _, built => by
      rw [elementCode] at built
      cases built
  | .ebnf _ _ _ (some ⟨_, _, alt :: rest⟩), _, _, built => by
      rw [elementCode] at built
      obtain ⟨alts, halts, built⟩ := bind_eq_ok.mp built
      obtain ⟨c, hc, built⟩ := bind_eq_ok.mp built
      cases built
      exact h.ebnf (List.cons_ne_nil alt rest) (h.of_branches 1 (alt :: rest) halts) hc
  | .root _ none, _, _, built | .bang _ none, _, _, built => by
      rw [elementCode] at built
      cases built
  | .root _ (some operand), _, _, built => by
      rw [elementCode] at built
      obtain ⟨⟨r, ops⟩, hoperand, built⟩ := bind_eq_ok.mp built
      dsimp only at built
      rw [decoratedRoot_plain] at built
      cases built
      exact h.root hoperand
  | .bang _ (some operand), _, _, built => by
      rw [elementCode] at built
      exact h.bang (h.of_elementCode operand built)
  | .labeled label operand, _, _, built => by
      rw [elementCode] at built
      obtain ⟨operand, hoperand, built⟩ := bind_eq_ok.mp built
      cases built
      exact h.labeled hoperand

theorem of_elementsCode (h : Compositional g target validate E Es B A As) :
    ∀ (elements : List Element) {spot : Spot} {ops : List Op},
      (plain g target validate).elementsCode spot elements = .ok ops → Es spot elements ops
  | [], _, _, built => by
      cases built
      exact h.noElements
  | element :: rest, _, _, built => by
      rw [elementsCode] at built
      obtain ⟨first, hfirst, built⟩ := bind_eq_ok.mp built
      obtain ⟨others, hothers, built⟩ := bind_eq_ok.mp built
      cases built
      exact h.elements (h.of_elementCode element hfirst) (h.of_elementsCode rest hothers)

theorem of_blockCode (h : Compositional g target validate E Es B A As) :
    ∀ (block : Block) {spot : Spot} {ops : List Op},
      (plain g target validate).blockCode spot block = .ok ops → B spot block ops
  | ⟨_, _, []⟩, _, _, built => by
      rw [blockCode] at built
      cases built
  | ⟨_, _, [alt]⟩, _, _, built => by
      rw [blockCode] at built
      obtain ⟨inlined, hinlined, built⟩ := bind_eq_ok.mp built
      cases built
      exact h.inlined (h.of_branch alt hinlined).2
  | ⟨_, _, alt :: next :: rest⟩, _, _, built => by
      rw [blockCode] at built
      · obtain ⟨alts, halts, built⟩ := bind_eq_ok.mp built
        obtain ⟨c, hc, built⟩ := bind_eq_ok.mp built
        cases built
        have several : 2 ≤ (alt :: next :: rest).length := Nat.le_add_left 2 rest.length
        exact h.choice several (h.of_branches 1 (alt :: next :: rest) halts) hc
      all_goals simp

theorem of_branches (h : Compositional g target validate E Es B A As) :
    ∀ (num : Nat) (alts : List Alt) {spot : Spot} {built : List Alternative},
      (plain g target validate).branches spot num alts = .ok built → As spot num alts built
  | _, [], _, _, built => by
      cases built
      exact h.noAlts
  | num, alt :: rest, _, _, built => by
      rw [branches] at built
      obtain ⟨⟨n, ops⟩, hfirst, built⟩ := bind_eq_ok.mp built
      obtain ⟨others, hothers, built⟩ := bind_eq_ok.mp built
      cases built
      obtain ⟨rfl, first⟩ := h.of_branch alt hfirst
      exact h.alts first (h.of_branches _ rest hothers)

theorem of_branch (h : Compositional g target validate E Es B A As) :
    ∀ (alt : Alt) {spot : Spot} {num : Nat} {built : Alternative},
      (plain g target validate).branch spot num alt = .ok built →
        built.num = num ∧ A spot num alt built.ops
  | ⟨span, elements, rewrite, strangers, refs⟩, _, _, _, built => by
      obtain ⟨rfl, nonempty, ops, rewritten, hops, hrewritten, rfl⟩ := eq_of_branch_plain built
      exact ⟨rfl, h.alt nonempty (h.of_elementsCode elements hops) hrewritten⟩

end

/-- A rule of which code was made has a block that is related to it. -/
theorem of_ruleCode (h : Compositional g target validate E Es B A As) {rule : Rule}
    {code : List Op} (built : (plain g target validate).ruleCode rule = .ok code) :
    ∃ block, rule.block = some block ∧ B .start block code := by
  unfold ruleCode at built
  cases hblock : rule.block with
  | none =>
      rw [hblock] at built
      cases built
  | some block =>
      rw [hblock] at built
      exact ⟨block, rfl, h.of_blockCode block built⟩

end Compositional

/-- The code of a rule that is built is the translation. -/
theorem plain_makes_code (g : Grammar) (target : Target) (validate : Bool) {index : Nat}
    {rule : Rule} (hrule : (g.rulesFor .parser)[index]? = some rule) :
    ∃ f outcome, (plain g target validate).Makes index f outcome ∧
      (outcome.isBuilt → (plain g target validate).ruleCode rule = .ok f.code) := by
  obtain ⟨f, makes, hcode⟩ := plain_makes g target validate hrule
  refine ⟨f, _, makes, fun built => ?_⟩
  cases htranslated : (plain g target validate).ruleCode rule with
  | ok code =>
      rw [htranslated] at hcode
      rw [hcode]
      rfl
  | error construct =>
      rw [htranslated] at built
      cases built

/-- A rule that can be translated is built. -/
theorem exists_makes_of_isSome {index : Nat}
    (h : ((g.rulesFor .parser)[index]?.bind fun rule =>
      ((plain g target validate).ruleCode rule).toOption).isSome) :
    ∃ rule f outcome, (g.rulesFor .parser)[index]? = some rule ∧
      (plain g target validate).Makes index f outcome ∧ outcome.isBuilt ∧
      (plain g target validate).ruleCode rule = .ok f.code := by
  obtain ⟨code, h⟩ := Option.isSome_iff_exists.mp h
  obtain ⟨rule, hrule, h⟩ := Option.bind_eq_some_iff.mp h
  have hcode := eq_ok_of_toOption h
  obtain ⟨f, makes, hf⟩ := plain_makes g target validate hrule
  have same : f.code = code := by
    rw [hf, hcode]
    rfl
  refine ⟨rule, f, _, hrule, makes, ?_, ?_⟩
  · rw [hcode]
    rfl
  · rw [hcode, same]

/-- A rule that cannot be translated is not built. -/
theorem exists_makes_of_isNone {index : Nat}
    (h : ((g.rulesFor .parser)[index]?.map fun rule =>
      ((plain g target validate).ruleCode rule).toOption.isNone) = some true) :
    ∃ rule f outcome, (g.rulesFor .parser)[index]? = some rule ∧
      (plain g target validate).Makes index f outcome ∧ outcome.isBuilt = false := by
  obtain ⟨rule, hrule, none⟩ := Option.map_eq_some_iff.mp h
  obtain ⟨f, makes, _⟩ := plain_makes g target validate hrule
  refine ⟨rule, f, _, hrule, makes, ?_⟩
  cases hcode : (plain g target validate).ruleCode rule with
  | ok code =>
      rw [hcode] at none
      cases none
  | error construct => rfl

/-- What can be translated, with the node that the rule was made of. -/
theorem exists_node_makes_of_isSome {index : Nat}
    (h : ((g.rulesFor .parser)[index]?.bind fun rule =>
      ((plain g target validate).ruleCode rule).toOption).isSome) :
    ∃ n rule f outcome, n ∈ g.root.inner.nodes ∧ n.rule? = some rule ∧
      (g.rulesFor .parser)[index]? = some rule ∧
      (plain g target validate).Makes index f outcome ∧ outcome.isBuilt ∧
      (plain g target validate).ruleCode rule = .ok f.code := by
  obtain ⟨rule, f, outcome, hrule, made⟩ := exists_makes_of_isSome h
  obtain ⟨n, hn, same⟩ :=
    List.mem_filterMap.mp (List.mem_filter.mp (List.mem_of_getElem? hrule)).1
  exact ⟨n, rule, f, outcome, hn, same, hrule, made⟩

/-- The same where something is known of the code. -/
theorem exists_node_makes_of_map {index : Nat} {view : List Op → β} {seen : β}
    (h : ((g.rulesFor .parser)[index]?.bind fun rule =>
      ((plain g target validate).ruleCode rule).toOption.map view) = some seen) :
    ∃ n rule f outcome, n ∈ g.root.inner.nodes ∧ n.rule? = some rule ∧
      (g.rulesFor .parser)[index]? = some rule ∧
      (plain g target validate).Makes index f outcome ∧ outcome.isBuilt ∧ view f.code = seen := by
  obtain ⟨rule, hrule, hview⟩ := Option.bind_eq_some_iff.mp h
  obtain ⟨code, hcode, rfl⟩ := Option.map_eq_some_iff.mp hview
  have translated : ((g.rulesFor .parser)[index]?.bind fun rule =>
      ((plain g target validate).ruleCode rule).toOption).isSome := by
    rw [hrule, Option.bind_some, hcode]
    rfl
  obtain ⟨n, rule', f, outcome, hn, same, hrule', makes, built, hcode'⟩ :=
    exists_node_makes_of_isSome translated
  obtain rfl : rule = rule' := Option.some.inj (hrule.symm.trans hrule')
  rw [eq_ok_of_toOption hcode] at hcode'
  cases hcode'
  exact ⟨n, rule, f, outcome, hn, same, hrule, makes, built, rfl⟩

theorem makes_inlinedBefore : ∃ rule f outcome,
    (Grammar.inlinedBefore.rulesFor .parser)[0]? = some rule ∧
      (plain .inlinedBefore .java true).Makes 0 f outcome ∧ outcome.isBuilt ∧
      (plain .inlinedBefore .java true).ruleCode rule = .ok f.code :=
  exists_makes_of_isSome (by decide +kernel)

end Setup

/-- A rule with a choice, a repeated block and a rewrite, and one that breaks off behind a token. -/
def Grammar.choiceAndBroken : Grammar :=
  (load ("(PARSER_GRAMMAR P(RULE a(BLOCK(ALT(TOKEN_REF X)(CLOSURE(BLOCK(ALT(RULE_REF b))))" ++
    "(REWRITE(REWRITE_TREE(TOKEN_REF X))))(ALT(TOKEN_REF Y))))" ++
    "(RULE b(BLOCK(ALT(TOKEN_REF X)(ROOT)))))")).toOption.get (by decide +kernel)

namespace Setup

theorem makes_choiceAndBroken : ∃ n rule f outcome, n ∈ Grammar.choiceAndBroken.root.inner.nodes ∧
    n.rule? = some rule ∧ (Grammar.choiceAndBroken.rulesFor .parser)[0]? = some rule ∧
      (plain .choiceAndBroken .java true).Makes 0 f outcome ∧ outcome.isBuilt ∧
      f.code.map (fun | .choice c => c.alts.map (·.ops.map Op.kind) | _ => []) =
        [[[.matchToken, .choice, .treeRewrite], [.matchToken]]] :=
  exists_node_makes_of_map (by decide +kernel)

end Setup

end RecognizerModel
