import RecognizerModel.Proofs.ReferenceLabels

/-! How far a walk comes. It comes to the references of a rule in order, up to the first construct
of which nothing can be built. -/
namespace RecognizerModel

namespace Translated

/-- What comes behind a result; behind a failure there is nothing. -/
def behind (result : Translated α) (more : List β) : List β :=
  match result with
  | .ok _ => more
  | .error _ => []

theorem filterMap_behind (f : β → Option γ) (result : Translated α) (more : List β) :
    (result.behind more).filterMap f = result.behind (more.filterMap f) := by
  cases result <;> rfl

/-- Whether of a list some part in front is reached, and all of it if there is a result. -/
structure Covers (result : Translated α) (reached all : List β) : Prop where
  front : reached <+: all
  whole : ∀ a, result = .ok a → reached = all

variable {result : Translated α} {next : α → Translated γ} {reached all reached' all' : List β}

theorem covers_all (result : Translated α) (all : List β) : result.Covers all all :=
  ⟨List.prefix_refl all, fun _ _ => rfl⟩

theorem covers_nothing (construct : Malformed) (all : List β) :
    Covers (.error construct : Translated α) [] all :=
  ⟨List.nil_prefix, nofun⟩

theorem Covers.bind (h : result.Covers reached all)
    (hnext : ∀ a, result = .ok a → (next a).Covers reached' all') :
    (result >>= next).Covers (reached ++ result.behind reached') (all ++ all') := by
  cases result with
  | ok a =>
      have rest := hnext a rfl
      obtain rfl := h.whole a rfl
      refine ⟨(List.prefix_append_right_inj reached).mpr rest.front, fun c done => ?_⟩
      exact congrArg (reached ++ ·) (rest.whole c done)
  | error construct =>
      refine ⟨?_, nofun⟩
      simpa [behind] using h.front.trans (List.prefix_append all all')

/-- What is done to a result later on comes to nothing new. -/
theorem Covers.andThen (h : result.Covers reached all) (next : α → Translated γ) :
    (result >>= next).Covers reached all := by
  refine ⟨h.front, fun c done => ?_⟩
  obtain ⟨a, hresult, _⟩ := bind_eq_ok.mp done
  exact h.whole a hresult

end Translated

/-- The site of a reference under at most one label; there is none at anything else. -/
def Element.labeledSites (nearest atHand : List String) (element : Element) : List ReferenceSite :=
  match element.splitLabel with
  | (.reference r, label) => [⟨r, label, nearest, atHand⟩]
  | _ => []

mutual

/-- The sites at and below an element that the walk comes to, in order. Where it breaks off at a
reference, that is the last one. -/
def Element.reached (setup : Setup) (spot : Spot) (nearest : List String) :
    Element → List ReferenceSite
  | .reference r => [⟨r, none, nearest, spot.refs⟩]
  | .block b => b.reached setup spot
  | .ebnf _ _ _ (some ⟨_, _, alts⟩) => Alt.reachedIn setup spot.inBlock 1 alts
  | .root _ (some operand) => operand.labeledSites nearest spot.refs
  | .bang _ (some operand) => operand.reached setup spot nearest
  | .labeled label operand => (Element.labeled label operand).labeledSites nearest spot.refs
  | _ => []

def Element.reachedIn (setup : Setup) (spot : Spot) (nearest : List String) :
    List Element → List ReferenceSite
  | [] => []
  | element :: rest =>
    element.reached setup spot nearest ++ (setup.elementCode spot element).behind
      (Element.reachedIn setup { spot with refs := element.refsAfter spot.refs } nearest rest)

def Block.reached (setup : Setup) (spot : Spot) : Block → List ReferenceSite
  | ⟨_, _, [alt]⟩ => alt.reached setup spot
  | ⟨_, _, alts⟩ => Alt.reachedIn setup spot.inBlock 1 alts

def Alt.reachedIn (setup : Setup) (spot : Spot) (num : Nat) : List Alt → List ReferenceSite
  | [] => []
  | alt :: rest =>
    alt.reached setup spot ++
      (setup.branch spot num alt).behind (Alt.reachedIn setup spot (num + 1) rest)

/-- Nothing is reached in an alternative that holds something strange. -/
def Alt.reached (setup : Setup) (spot : Spot) : Alt → List ReferenceSite
  | ⟨_, _, _, _ :: _, _⟩ => []
  | ⟨_, elements, _, [], refs⟩ => Element.reachedIn setup { spot with refs } refs elements

end

def Rule.reached (setup : Setup) (rule : Rule) : List ReferenceSite :=
  match rule.block with
  | some block => block.reached setup .start
  | none => []

namespace Setup

open Translated (covers_all covers_nothing)

variable (setup : Setup)

theorem covers_labeledReference (refs nearest : List String) (element : Element) :
    (setup.labeledReferenceCode refs element).Covers (element.labeledSites nearest refs)
      (element.sites nearest refs) := by
  unfold labeledReferenceCode Element.labeledSites
  rcases hsplit : element.splitLabel with ⟨operand, label⟩
  cases operand with
  | reference r =>
      obtain ⟨rfl, rfl⟩ | ⟨l, rfl, rfl⟩ := Element.eq_of_splitLabel hsplit
      all_goals
        rw [Element.sites]
        exact covers_all _ _
  | _ => exact covers_nothing _ _

mutual

theorem covers_element (spot : Spot) (nearest : List String) : ∀ element : Element,
    (setup.elementCode spot element).Covers (element.reached setup spot nearest)
      (element.sites nearest spot.refs)
  | .reference r => by
      rw [Element.reached, Element.sites]
      exact covers_all _ _
  | .action _ | .forcedAction _ | .predicate _ | .epsilon _ | .ebnf _ _ _ none | .root _ none
  | .bang _ none => by
      simp only [Element.reached, Element.sites]
      exact covers_all _ _
  | .block b => by
      rw [elementCode, Element.reached, Element.sites]
      exact covers_block spot b
  | .ebnf kind span decision (some ⟨bodySpan, bodyDecision, []⟩) => by
      rw [Element.reached, Element.sites, Block.sites]
      exact covers_all _ _
  | .ebnf kind span decision (some ⟨bodySpan, bodyDecision, alt :: rest⟩) => by
      rw [elementCode_ebnf _ _ _ _ _ _ _ (List.cons_ne_nil alt rest), Element.reached,
        Element.sites, Block.sites]
      exact (covers_alts spot.inBlock 1 (alt :: rest)).andThen _
  | .root span (some operand) => by
      rw [elementCode, Element.reached, Element.sites]
      exact (setup.covers_labeledReference _ _ operand).andThen _
  | .bang span (some operand) => by
      rw [elementCode, Element.reached, Element.sites]
      exact covers_element spot nearest operand
  | .labeled label operand => by
      rw [elementCode, Element.reached]
      exact (setup.covers_labeledReference _ _ _).andThen _

theorem covers_elements (spot : Spot) (nearest : List String) : ∀ elements : List Element,
    (setup.elementsCode spot elements).Covers (Element.reachedIn setup spot nearest elements)
      (Element.sitesIn nearest spot.refs elements)
  | [] => by
      rw [Element.reachedIn, Element.sitesIn]
      exact covers_all _ _
  | element :: rest => by
      rw [elementsCode, Element.reachedIn, Element.sitesIn]
      exact (covers_element spot nearest element).bind fun _ _ =>
        (covers_elements _ nearest rest).andThen _

theorem covers_block (spot : Spot) : ∀ block : Block,
    (setup.blockCode spot block).Covers (block.reached setup spot) block.sites
  | ⟨span, decision, []⟩ => by
      rw [Block.sites, Block.reached]
      · exact covers_all _ _
      · nofun
  | ⟨span, decision, [alt]⟩ => by
      rw [blockCode, Block.reached, Block.sites, Alt.sitesIn, Alt.sitesIn, List.append_nil]
      exact (covers_alt spot 1 alt).andThen _
  | ⟨span, decision, alt :: next :: rest⟩ => by
      rw [blockCode_eq _ _ _ _ (by simp), Block.reached, Block.sites]
      · exact (covers_alts spot.inBlock 1 (alt :: next :: rest)).andThen _
      · simp

theorem covers_alts (spot : Spot) : ∀ (num : Nat) (alts : List Alt),
    (setup.branches spot num alts).Covers (Alt.reachedIn setup spot num alts) (Alt.sitesIn alts)
  | _, [] => by
      rw [Alt.reachedIn, Alt.sitesIn]
      exact covers_all _ _
  | num, alt :: rest => by
      rw [branches, Alt.reachedIn, Alt.sitesIn]
      exact (covers_alt spot num alt).bind fun _ _ => (covers_alts spot (num + 1) rest).andThen _

theorem covers_alt (spot : Spot) : ∀ (num : Nat) (alt : Alt),
    (setup.branch spot num alt).Covers (alt.reached setup spot) alt.sites
  | num, ⟨span, elements, rewrite, stranger :: strangers, refs⟩ => by
      rw [branch, Alt.reached]
      exact covers_nothing _ _
  | num, ⟨span, elements, rewrite, [], refs⟩ => by
      have inside := covers_elements { spot with refs } refs elements
      rw [branch.eq_def, Alt.reached, Alt.sites]
      dsimp only
      split
      · next h => cases h
      · exact ⟨inside.front, nofun⟩
      · next h =>
        cases h
        exact ⟨inside.front, fun _ _ => inside.whole _ rfl⟩
      · next h =>
        cases h
        exact inside.andThen _

end

/-- The walk over a rule comes to the sites of the rule in order, and to all of them if the rule is
built. -/
theorem covers_rule (rule : Rule) :
    (setup.ruleCode rule).Covers (rule.reached setup) rule.sites := by
  unfold ruleCode Rule.reached Rule.sites
  cases rule.block with
  | some block => exact setup.covers_block .start block
  | none => exact covers_all _ _

end Setup

end RecognizerModel
