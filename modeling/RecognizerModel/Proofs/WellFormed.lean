import RecognizerModel.Proofs.CodeTokens
import RecognizerModel.Proofs.PlainTranslation

/-! Of which syntax a rule can be built: one condition on the syntax that the walk comes to, which
all the errors on its way together leave over. -/
namespace RecognizerModel

/-- Whether a rule or token reference has a name and a literal its text. -/
def Reference.IsNamed : Reference → Prop
  | .rule r => r.name ≠ none
  | .token t => t.name ≠ none
  | .literal l => l.text ≠ none

/-- Whether an element is a named reference under at most one label, which has a name too. -/
def Element.IsLabeledReference (element : Element) : Prop :=
  ∃ r label, element.splitLabel = (.reference r, label) ∧ r.IsNamed ∧
    ∀ l, label = some l → l.name ≠ none

mutual

def RewriteElement.WellFormed : RewriteElement → Prop
  | .reference r => r.IsNamed
  | .tree _ elements => elements ≠ [] ∧ RewriteElement.AllWellFormed elements
  | .optional _ _ elements | .closure _ _ elements => RewriteElement.AllWellFormed elements

def RewriteElement.AllWellFormed : List RewriteElement → Prop
  | [] => True
  | element :: rest => element.WellFormed ∧ RewriteElement.AllWellFormed rest

end

/-- Whether a site whose decision needs one token of lookahead has a set for each alternative. -/
def Grammar.LookaheadFits (g : Grammar) (site : ChoiceSite) (count : Nat) : Prop :=
  ∀ n sets, site.decision = some n → g.classify n = some (.ll1 sets) → sets.length = count

mutual

/-- Whether an element and all that the walk comes to below it can be built. -/
def Element.WellFormed (g : Grammar) : Element → Prop
  | .reference r => r.IsNamed
  | .action c | .forcedAction c | .predicate c => c.code ≠ none
  | .epsilon _ => True
  | .block b => b.WellFormed g
  | .ebnf kind span decision (some ⟨bodySpan, bodyDecision, alts⟩) =>
    let body : Block := ⟨bodySpan, bodyDecision, alts⟩
    alts ≠ [] ∧ Alt.AllWellFormed g alts ∧
      g.LookaheadFits (.ofEbnf kind span decision (some body)) alts.length
  | .root _ (some operand) => operand.IsLabeledReference
  | .bang _ (some operand) => operand.WellFormed g
  | .labeled label (some operand) => (Element.labeled label (some operand)).IsLabeledReference
  | .ebnf _ _ _ none | .root _ none | .bang _ none | .labeled _ none => False

def Element.AllWellFormed (g : Grammar) : List Element → Prop
  | [] => True
  | element :: rest => element.WellFormed g ∧ Element.AllWellFormed g rest

/-- A block with one alternative is no choice, so its decision does not count. -/
def Block.WellFormed (g : Grammar) : Block → Prop
  | ⟨_, _, []⟩ => False
  | ⟨_, _, [alt]⟩ => alt.WellFormed g
  | ⟨span, decision, alts⟩ =>
    Alt.AllWellFormed g alts ∧ g.LookaheadFits (.ofBlock ⟨span, decision, alts⟩) alts.length

def Alt.AllWellFormed (g : Grammar) : List Alt → Prop
  | [] => True
  | alt :: rest => alt.WellFormed g ∧ Alt.AllWellFormed g rest

def Alt.WellFormed (g : Grammar) : Alt → Prop
  | ⟨_, elements, rewrite, strangers, _⟩ =>
    strangers = [] ∧ (elements ≠ [] ∨ rewrite ≠ none) ∧ Element.AllWellFormed g elements ∧
      ∀ r, rewrite = some r → RewriteElement.AllWellFormed r.elements

end

def Rule.WellFormed (g : Grammar) (rule : Rule) : Prop :=
  ∃ block, rule.block = some block ∧ block.WellFormed g

/-- Whether a translation comes to its end. -/
def Translated.Succeeds (result : Translated α) : Prop :=
  ∃ a, result = .ok a

theorem Element.AllRefs.of_splitLabel {P : Reference → Prop} {element : Element} {r : Reference}
    {label : Option Label} (h : element.AllRefs P)
    (hsplit : element.splitLabel = (.reference r, label)) : P r := by
  obtain ⟨rfl, _⟩ | ⟨l, rfl, _⟩ := Element.eq_of_splitLabel hsplit
  · exact h
  · simpa only [Element.AllRefs] using h

namespace Translated

theorem succeeds_ok (a : α) : Succeeds (.ok a) ↔ True :=
  ⟨fun _ => trivial, fun _ => ⟨a, rfl⟩⟩

theorem succeeds_malformed (place : Place) (p : Option Point) (detail : String) :
    Succeeds (malformed place p detail : Translated α) ↔ False :=
  ⟨nofun, nofun⟩

/-- Two steps succeed if each does. -/
theorem succeeds_bind {result : Translated α} {next : α → Translated β} {P Q : Prop}
    (first : result.Succeeds ↔ P) (second : ∀ a, result = .ok a → ((next a).Succeeds ↔ Q)) :
    Succeeds (result >>= next) ↔ P ∧ Q := by
  constructor
  · rintro ⟨b, h⟩
    obtain ⟨a, hresult, hnext⟩ := bind_eq_ok.mp h
    exact ⟨first.mp ⟨a, hresult⟩, (second a hresult).mp ⟨b, hnext⟩⟩
  · rintro ⟨hP, hQ⟩
    obtain ⟨a, hresult⟩ := first.mpr hP
    obtain ⟨b, hnext⟩ := (second a hresult).mpr hQ
    exact ⟨b, bind_eq_ok.mpr ⟨a, hresult, hnext⟩⟩

theorem succeeds_map {result : Translated α} {f : α → β} :
    Succeeds (result >>= fun a => pure (f a)) ↔ result.Succeeds := by
  have both : Succeeds (result >>= fun a => pure (f a)) ↔ result.Succeeds ∧ True :=
    succeeds_bind Iff.rfl fun a _ => succeeds_ok (f a)
  rw [both, and_true]

end Translated

namespace Setup

open Translated

variable {g : Grammar} {target : Target} {validate : Bool}

theorem succeeds_typeOf {setup : Setup} {name : String} (place : Place) (p : Point)
    (h : ∃ ttype, setup.grammar.vocabulary.type? name = some ttype) :
    (setup.typeOf name place p).Succeeds ↔ True := by
  obtain ⟨ttype, h⟩ := h
  unfold typeOf
  rw [h]
  exact succeeds_ok ttype

theorem succeeds_plainOp {setup : Setup} {r : Reference} (known : setup.grammar.Covers r) :
    (setup.plainOp r).Succeeds ↔ r.IsNamed := by
  match r with
  | .rule ⟨_, some name, _, _⟩ => exact (succeeds_ok _).trans (by simp [Reference.IsNamed])
  | .token ⟨_, some name, _, _⟩ | .literal ⟨_, some name⟩ =>
      refine (succeeds_map.trans (succeeds_typeOf _ _ (known name rfl))).trans ?_
      simp [Reference.IsNamed]
  | .rule ⟨_, none, _, _⟩ | .token ⟨_, none, _, _⟩ | .literal ⟨_, none⟩ =>
      exact (succeeds_malformed _ _ _).trans (by simp [Reference.IsNamed])

theorem succeeds_labeled {setup : Setup} {refs : List String} {span : Span} {op : Op}
    {label : Option Label} :
    (setup.labeled refs span op label).Succeeds ↔ ∀ l, label = some l → l.name ≠ none := by
  match label with
  | none => exact (succeeds_ok _).trans (by simp)
  | some ⟨_, _, some name⟩ => exact (succeeds_ok _).trans (by simp)
  | some ⟨_, _, none⟩ => exact (succeeds_malformed _ _ _).trans (by simp)

theorem succeeds_referenceCode {setup : Setup} {refs : List String} {r : Reference}
    {label : Option Label} (known : setup.grammar.Covers r) :
    (setup.referenceCode refs r label).Succeeds ↔
      r.IsNamed ∧ ∀ l, label = some l → l.name ≠ none :=
  succeeds_bind (succeeds_plainOp known) fun _ _ => succeeds_map.trans succeeds_labeled

theorem succeeds_labeledReferenceCode {setup : Setup} {refs : List String} {element : Element}
    (known : element.AllRefs setup.grammar.Covers) :
    (setup.labeledReferenceCode refs element).Succeeds ↔ element.IsLabeledReference := by
  constructor
  · rintro ⟨built, h⟩
    obtain ⟨label, hsplit, hcode⟩ := exists_reference_of_labeledReferenceCode h
    exact ⟨built.1, label, hsplit,
      (succeeds_referenceCode (known.of_splitLabel hsplit)).mp ⟨built.2, hcode⟩⟩
  · rintro ⟨r, label, hsplit, named⟩
    unfold labeledReferenceCode
    rw [hsplit]
    exact succeeds_map.mpr ((succeeds_referenceCode (known.of_splitLabel hsplit)).mpr named)

theorem succeeds_choiceAt {site : ChoiceSite} {alts : List Alternative} :
    ((plain g target validate).choiceAt site alts).Succeeds ↔
      g.LookaheadFits site alts.length := by
  refine succeeds_map.trans ?_
  unfold testsAt
  have known (n : Nat) (sets : List LookaheadSet) (hdecision : site.decision = some n)
      (hclass : g.classify n = some (.ll1 sets)) :
      (plain g target validate).lookaheadAt? site = some sets :=
    (plain g target validate).lookaheadAt?_eq_some_iff.mpr ⟨n, hdecision, hclass⟩
  cases hlook : (plain g target validate).lookaheadAt? site with
  | none =>
      refine (succeeds_ok _).trans (iff_of_true trivial fun n sets hdecision hclass => ?_)
      cases hlook.symm.trans (known n sets hdecision hclass)
  | some sets =>
      dsimp only
      by_cases fits : sets.length = alts.length
      · rw [if_pos fits]
        refine (succeeds_ok _).trans (iff_of_true trivial fun n sets' hdecision hclass => ?_)
        cases hlook.symm.trans (known n sets' hdecision hclass)
        exact fits
      · rw [if_neg fits]
        obtain ⟨n, hdecision, hclass⟩ :=
          (plain g target validate).lookaheadAt?_eq_some_iff.mp hlook
        exact (succeeds_malformed _ _ _).trans
          (iff_of_false id fun h => fits (h n sets hdecision hclass))

theorem succeeds_rewriteReferenceCode {spot : Spot} {isRoot : Bool} {r : Reference}
    (known : g.Covers r) :
    ((plain g target validate).rewriteReferenceCode spot isRoot r).Succeeds ↔ r.IsNamed := by
  match r with
  | .rule ⟨_, some name, _, _⟩ => exact (succeeds_ok _).trans (by simp [Reference.IsNamed])
  | .token ⟨_, some name, _, _⟩ | .literal ⟨_, some name⟩ =>
      refine (succeeds_map.trans (succeeds_typeOf _ _ (known name rfl))).trans ?_
      simp [Reference.IsNamed]
  | .rule ⟨_, none, _, _⟩ | .token ⟨_, none, _, _⟩ | .literal ⟨_, none⟩ =>
      exact (succeeds_malformed _ _ _).trans (by simp [Reference.IsNamed])

mutual

theorem succeeds_rewriteElementCode : ∀ (element : RewriteElement) {spot : Spot} {isRoot : Bool},
    element.AllRefs g.Covers →
      (((plain g target validate).rewriteElementCode spot isRoot element).Succeeds ↔
        element.WellFormed)
  | .reference r, _, _, known => by
      rw [rewriteElementCode, RewriteElement.WellFormed]
      exact succeeds_rewriteReferenceCode known
  | .tree _ [], _, _, _ => by
      rw [rewriteElementCode, RewriteElement.WellFormed]
      exact (succeeds_malformed _ _ _).trans (by simp)
  | .tree _ (first :: rest), _, _, known => by
      rw [rewriteElementCode, RewriteElement.WellFormed, RewriteElement.AllWellFormed]
      refine (succeeds_bind (succeeds_rewriteElementCode first known.1) fun _ _ =>
        succeeds_map.trans (succeeds_rewriteElementsCode rest known.2)).trans ?_
      simp
  | .optional _ _ elements, _, _, known => by
      rw [rewriteElementCode, RewriteElement.WellFormed]
      exact succeeds_map.trans (succeeds_rewriteElementsCode elements known)
  | .closure _ _ elements, _, _, known => by
      rw [rewriteElementCode, RewriteElement.WellFormed]
      exact succeeds_map.trans (succeeds_rewriteElementsCode elements known)

theorem succeeds_rewriteElementsCode : ∀ (elements : List RewriteElement) {spot : Spot},
    RewriteElement.AllRefsIn g.Covers elements →
      (((plain g target validate).rewriteElementsCode spot elements).Succeeds ↔
        RewriteElement.AllWellFormed elements)
  | [], _, _ => succeeds_ok _
  | element :: rest, _, known => by
      rw [rewriteElementsCode, RewriteElement.AllWellFormed]
      exact succeeds_bind (succeeds_rewriteElementCode element known.1) fun _ _ =>
        succeeds_map.trans (succeeds_rewriteElementsCode rest known.2)

end

theorem succeeds_rewriteCode {spot : Spot} {rewrite : Option Rewrite}
    (known : ∀ r, rewrite = some r → r.AllRefs g.Covers) :
    ((plain g target validate).rewriteCode spot rewrite).Succeeds ↔
      ∀ r, rewrite = some r → RewriteElement.AllWellFormed r.elements := by
  cases rewrite with
  | none => exact (succeeds_ok _).trans (by simp)
  | some r =>
      refine (succeeds_map.trans (succeeds_rewriteElementsCode r.elements (known r rfl))).trans ?_
      simp

mutual

theorem succeeds_elementCode : ∀ (element : Element) {spot : Spot}, element.AllRefs g.Covers →
    (((plain g target validate).elementCode spot element).Succeeds ↔ element.WellFormed g)
  | .reference r, _, known => by
      rw [elementCode, Element.WellFormed]
      have covered : (plain g target validate).grammar.Covers r := known
      exact (succeeds_referenceCode covered).trans (by simp)
  | .action ⟨_, some _⟩, _, _ | .forcedAction ⟨_, some _⟩, _, _ | .predicate ⟨_, some _⟩, _, _ => by
      rw [elementCode, Element.WellFormed]
      exact (succeeds_ok _).trans (by simp)
  | .action ⟨_, none⟩, _, _ | .forcedAction ⟨_, none⟩, _, _ | .predicate ⟨_, none⟩, _, _ => by
      rw [elementCode, Element.WellFormed]
      exact (succeeds_malformed _ _ _).trans (by simp)
  | .epsilon _, _, _ => succeeds_ok _
  | .block b, _, known => by
      rw [elementCode, Element.WellFormed]
      exact succeeds_blockCode b known
  | .ebnf _ _ _ none, _, _ => by
      rw [elementCode, Element.WellFormed]
      exact succeeds_malformed _ _ _
  | .ebnf _ _ _ (some ⟨_, _, []⟩), _, _ => by
      rw [elementCode, Element.WellFormed]
      exact (succeeds_malformed _ _ _).trans (by simp)
  | .ebnf kind span decision (some ⟨bodySpan, bodyDecision, alt :: rest⟩), _, known => by
      rw [elementCode, Element.WellFormed]
      refine (succeeds_bind (succeeds_branches 1 (alt :: rest) known) fun alts halts => ?_).trans
        (and_iff_right (List.cons_ne_nil alt rest)).symm
      rw [← length_branches halts]
      exact succeeds_map.trans succeeds_choiceAt
  | .root _ none, _, _ | .bang _ none, _, _ => by
      rw [elementCode, Element.WellFormed]
      exact succeeds_malformed _ _ _
  | .root _ (some operand), _, known => by
      rw [elementCode, Element.WellFormed]
      exact succeeds_map.trans (succeeds_labeledReferenceCode known)
  | .bang _ (some operand), _, known => by
      rw [elementCode, Element.WellFormed]
      exact succeeds_elementCode operand known
  | .labeled label none, _, _ => by
      rw [elementCode, Element.WellFormed]
      exact succeeds_malformed _ _ _
  | .labeled label (some operand), _, known => by
      rw [elementCode, Element.WellFormed]
      exact succeeds_map.trans (succeeds_labeledReferenceCode known)

theorem succeeds_elementsCode : ∀ (elements : List Element) {spot : Spot},
    Element.AllRefsIn g.Covers elements →
      (((plain g target validate).elementsCode spot elements).Succeeds ↔
        Element.AllWellFormed g elements)
  | [], _, _ => succeeds_ok _
  | element :: rest, _, known => by
      rw [elementsCode, Element.AllWellFormed]
      exact succeeds_bind (succeeds_elementCode element known.1) fun _ _ =>
        succeeds_map.trans (succeeds_elementsCode rest known.2)

theorem succeeds_blockCode : ∀ (block : Block) {spot : Spot}, block.AllRefs g.Covers →
    (((plain g target validate).blockCode spot block).Succeeds ↔ block.WellFormed g)
  | ⟨_, _, []⟩, _, _ => by
      rw [blockCode, Block.WellFormed]
      exact succeeds_malformed _ _ _
  | ⟨_, _, [alt]⟩, _, known => by
      rw [blockCode, Block.WellFormed]
      exact succeeds_map.trans (succeeds_branch alt known.1)
  | ⟨span, decision, alt :: next :: rest⟩, _, known => by
      rw [blockCode, Block.WellFormed]
      · refine succeeds_bind (succeeds_branches 1 (alt :: next :: rest) known) fun alts halts => ?_
        rw [← length_branches halts]
        exact succeeds_map.trans succeeds_choiceAt
      all_goals simp

theorem succeeds_branches : ∀ (num : Nat) (alts : List Alt) {spot : Spot},
    Alt.AllRefsIn g.Covers alts →
      (((plain g target validate).branches spot num alts).Succeeds ↔ Alt.AllWellFormed g alts)
  | _, [], _, _ => succeeds_ok _
  | num, alt :: rest, _, known => by
      rw [branches, Alt.AllWellFormed]
      exact succeeds_bind (succeeds_branch alt known.1) fun _ _ =>
        succeeds_map.trans (succeeds_branches (num + 1) rest known.2)

theorem succeeds_branch : ∀ (alt : Alt) {spot : Spot} {num : Nat}, alt.AllRefs g.Covers →
    (((plain g target validate).branch spot num alt).Succeeds ↔ alt.WellFormed g)
  | ⟨span, elements, rewrite, strangers, refs⟩, spot, num, known => by
      rw [Alt.WellFormed]
      cases strangers with
      | cons stranger _ =>
          rw [branch]
          exact (succeeds_malformed _ _ _).trans (by simp)
      | nil =>
          by_cases nonempty : elements ≠ [] ∨ rewrite ≠ none
          · rw [branch_plain nonempty]
            refine (succeeds_bind (succeeds_elementsCode elements known.1) fun _ _ =>
              succeeds_map.trans (succeeds_rewriteCode known.2)).trans ?_
            simp only [nonempty, true_and]
          · obtain ⟨rfl, rfl⟩ : elements = [] ∧ rewrite = none := by simpa using nonempty
            rw [branch]
            exact (succeeds_malformed _ _ _).trans (by simp)

end

theorem succeeds_ruleCode {rule : Rule}
    (known : ∀ block, rule.block = some block → block.AllRefs g.Covers) :
    ((plain g target validate).ruleCode rule).Succeeds ↔ rule.WellFormed g := by
  unfold ruleCode Rule.WellFormed
  cases hblock : rule.block with
  | none => exact (succeeds_malformed _ _ _).trans (by simp)
  | some block =>
      refine (succeeds_blockCode block (known block hblock)).trans ?_
      simp

/-- Without extensions a rule of a loaded grammar is built if and only if it is well formed.
Otherwise it has no code, and its diagnostic is about the first construct on the way that cannot be
built. Code that is missing is a missing token. -/
theorem built_iff_wellFormed {g : Grammar} (loaded : g.Loaded) (target : Target)
    (validate : Bool) {index : Nat} {rule : Rule}
    (hrule : (g.rulesFor .parser)[index]? = some rule) :
    (∃ f outcome, (plain g target validate).Makes index f outcome ∧
      (outcome.isBuilt ↔ rule.WellFormed g) ∧
      (¬rule.WellFormed g → f.code = [] ∧
        ∃ fault, (plain g target validate).ruleCode rule = .error fault ∧
          outcome = .failed (rule.name.getD "") (.ofMalformed (rule.name.getD "") fault))) ∧
    ∀ n ∈ g.root.descendants, n.inner.code? = none ↔ n.inner.first? .code = none := by
  have wellFormed : ((plain g target validate).ruleCode rule).Succeeds ↔ rule.WellFormed g :=
    succeeds_ruleCode fun _ hblock => loaded.covers (List.mem_of_getElem? hrule) hblock
  obtain ⟨f, makes, hcode⟩ := plain_makes g target validate hrule
  refine ⟨⟨f, _, makes, ?_, ?_⟩, fun n hn => loaded.code?_eq_none_iff hn⟩
  · rw [← wellFormed]
    cases (plain g target validate).ruleCode rule with
    | ok code => exact iff_of_true rfl ⟨code, rfl⟩
    | error fault => exact iff_of_false nofun nofun
  · intro malformed
    rw [← wellFormed] at malformed
    cases htranslated : (plain g target validate).ruleCode rule with
    | ok code => exact absurd ⟨code, htranslated⟩ malformed
    | error fault =>
        rw [htranslated] at hcode
        exact ⟨hcode, fault, rfl, rfl⟩

/-- The rule with a choice is well formed, and the other one breaks off. -/
theorem built_iff_wellFormed_choiceAndBroken : Grammar.choiceAndBroken.Loaded ∧
    ∃ whole broken f f' outcome outcome' fault,
      (Grammar.choiceAndBroken.rulesFor .parser)[0]? = some whole ∧
      (Grammar.choiceAndBroken.rulesFor .parser)[1]? = some broken ∧
      (plain .choiceAndBroken .java true).Makes 0 f outcome ∧ outcome.isBuilt ∧
      whole.WellFormed .choiceAndBroken ∧
      (plain .choiceAndBroken .java true).Makes 1 f' outcome' ∧ outcome'.isBuilt = false ∧
      ¬broken.WellFormed .choiceAndBroken ∧ f'.code = [] ∧
      (plain .choiceAndBroken .java true).ruleCode broken = .error fault ∧
      outcome' = .failed (broken.name.getD "") (.ofMalformed (broken.name.getD "") fault) := by
  have loaded : Grammar.choiceAndBroken.Loaded := Grammar.loaded_get _
  obtain ⟨_, whole, f, outcome, _, _, hwhole, makes, built, _⟩ := makes_choiceAndBroken
  obtain ⟨⟨_, _, same, wellFormed, _⟩, _⟩ := built_iff_wellFormed loaded .java true hwhole
  obtain ⟨rfl, rfl⟩ := makes.unique same
  have untranslated : ((Grammar.choiceAndBroken.rulesFor .parser)[1]?.map fun rule =>
      ((plain .choiceAndBroken .java true).ruleCode rule).toOption.isNone) = some true := by
    decide +kernel
  obtain ⟨broken, f', outcome', hbroken, makes', unbuilt⟩ := exists_makes_of_isNone untranslated
  obtain ⟨⟨_, _, same, wellFormed', failed⟩, _⟩ := built_iff_wellFormed loaded .java true hbroken
  obtain ⟨rfl, rfl⟩ := makes'.unique same
  have malformed : ¬broken.WellFormed .choiceAndBroken := by
    rw [← wellFormed', unbuilt]
    nofun
  obtain ⟨empty, fault, hfault, told⟩ := failed malformed
  exact ⟨loaded, whole, broken, f, f', outcome, outcome', fault, hwhole, hbroken, makes, built,
    wellFormed.mp built, makes', unbuilt, malformed, empty, hfault, told⟩

end Setup

end RecognizerModel
