import Mathlib.Data.List.Forall2
import RecognizerModel.Proofs.BareTranslation

/-! The labels of matched references. An action refers to a reference of its alternative by its
name, and then the reference needs a label. Which names are referred to is asked of the alternative
at hand, and behind an inlined block that is no longer the one around the reference. -/
namespace RecognizerModel

namespace Reference

/-- The name by which an action refers to what is matched. -/
def referredName? : Reference → Option String
  | rule r => r.name
  | token t => t.name
  | literal _ => none

/-- The labels of a reference that has no explicit one, if actions refer to the given names. -/
def implicitLabels (target : Target) (refs : List String) : Reference → List String
  | rule ⟨_, some name, _, _⟩ => if name ∈ refs then [target.ruleLabel name] else []
  | token ⟨_, some name, _, _⟩ => if name ∈ refs then [target.tokenLabel name] else []
  | _ => []

end Reference

/-- A reference that the walk comes to, the label that it is under, the names that actions refer to
in the innermost alternative around it, and those of the alternative at hand. -/
structure ReferenceSite where
  reference : Reference
  label : Option Label
  nearest : List String
  atHand : List String

namespace ReferenceSite

/-- The labels at a site if actions refer to the given names. -/
def labels (target : Target) (site : ReferenceSite) (refs : List String) : List String :=
  match site.label with
  | some label => label.name.toList
  | none => site.reference.implicitLabels target refs

/-- Whether the alternative around the site refers to what is matched there and the alternative at
hand does not. -/
def IsForgotten (site : ReferenceSite) : Prop :=
  site.label = none ∧ ∃ name, site.reference.referredName? = some name ∧
    name ∈ site.nearest ∧ name ∉ site.atHand

/-- The alternative at hand stands for the one around the site unless the site is forgotten. -/
theorem labels_atHand_iff (target : Target) {site : ReferenceSite}
    (within : site.atHand ⊆ site.nearest) :
    site.labels target site.atHand = site.labels target site.nearest ↔ ¬site.IsForgotten := by
  obtain ⟨r, label, nearest, atHand⟩ := site
  have named (name : String) (l : String) :
      ((if name ∈ atHand then [l] else []) = if name ∈ nearest then [l] else []) ↔
        ¬(name ∈ nearest ∧ name ∉ atHand) := by
    by_cases held : name ∈ atHand
    · simp only [held, within held, if_true, not_true_eq_false, and_false, not_false_eq_true]
    · by_cases near : name ∈ nearest <;> simp [held, near]
  match label, r with
  | some _, _ => exact iff_of_true rfl fun forgotten => nomatch forgotten.1
  | none, .rule ⟨_, some name, _, _⟩ | none, .token ⟨_, some name, _, _⟩ =>
      simpa [IsForgotten, labels, Reference.referredName?, Reference.implicitLabels] using
        named name _
  | none, .rule ⟨_, none, _, _⟩ | none, .token ⟨_, none, _, _⟩ | none, .literal _ =>
      exact iff_of_true rfl fun ⟨_, _, name, _⟩ => nomatch name

end ReferenceSite

mutual

/-- The sites at and below an element, in order. -/
def Element.sites (nearest atHand : List String) : Element → List ReferenceSite
  | .reference r => [⟨r, none, nearest, atHand⟩]
  | .block b | .ebnf _ _ _ (some b) => b.sites
  | .root _ (some operand) | .bang _ (some operand) => operand.sites nearest atHand
  | .labeled label (some (.reference r)) => [⟨r, some label, nearest, atHand⟩]
  | _ => []

def Element.sitesIn (nearest atHand : List String) : List Element → List ReferenceSite
  | [] => []
  | element :: rest =>
    element.sites nearest atHand ++ Element.sitesIn nearest (element.refsAfter atHand) rest

def Block.sites : Block → List ReferenceSite
  | ⟨_, _, alts⟩ => Alt.sitesIn alts

def Alt.sitesIn : List Alt → List ReferenceSite
  | [] => []
  | alt :: rest => alt.sites ++ Alt.sitesIn rest

/-- An alternative is at hand from its first element on. -/
def Alt.sites : Alt → List ReferenceSite
  | ⟨_, elements, _, _, refs⟩ => Element.sitesIn refs refs elements

end

def Rule.sites (rule : Rule) : List ReferenceSite :=
  match rule.block with
  | some block => block.sites
  | none => []

mutual

/-- The operations that match a reference, at and below an operation and in order. -/
def Op.matched : Op → List Op
  | .matchToken name ttype labels => [.matchToken name ttype labels]
  | .invokeRule name ctxType args labels => [.invokeRule name ctxType args labels]
  | .matchLiteral literal ttype labels => [.matchLiteral literal ttype labels]
  | .choice ⟨_, _, _, alts, _, _⟩ => Alternative.matchedIn alts
  | _ => []

def Op.matchedIn : List Op → List Op
  | [] => []
  | op :: rest => op.matched ++ Op.matchedIn rest

def Alternative.matchedIn : List Alternative → List Op
  | [] => []
  | ⟨_, ops⟩ :: rest => Op.matchedIn ops ++ Alternative.matchedIn rest

end

theorem Op.matchedIn_append (ops rest : List Op) :
    Op.matchedIn (ops ++ rest) = Op.matchedIn ops ++ Op.matchedIn rest := by
  induction ops with
  | nil => rfl
  | cons op ops ih => rw [List.cons_append, matchedIn, ih, matchedIn, List.append_assoc]

theorem Op.labels?_addLabel {op : Op} (h : op.labels? = some []) (label : String) :
    (op.addLabel label).labels? = some [label] := by
  cases op <;> cases h <;> rfl

/-- Whether an operation matches the reference of a site and has the labels that the site gives. -/
structure ReferenceSite.Gives (g : Grammar) (target : Target) (site : ReferenceSite) (op : Op) :
    Prop where
  bare : g.bareReference? target site.reference = some [op.bare]
  labels : op.labels? = some (site.labels target site.atHand)

theorem Node.attributeRefs_of_mem_inner {n m : Node} (hm : m ∈ n.inner.nodes) :
    m.attributeRefs ⊆ n.attributeRefs := by
  intro name hname
  obtain ⟨d, hd, hname⟩ := List.mem_flatMap.mp (List.mem_eraseDups.mp hname)
  exact List.mem_eraseDups.mpr
    (List.mem_flatMap.mpr ⟨d, Node.descendants_of_mem_inner hm hd, hname⟩)

/-- Whether the names of the alternative at hand are among those of the alternative around. -/
def ReferenceSite.IsWithin (site : ReferenceSite) : Prop :=
  site.atHand ⊆ site.nearest

/-- Whether an element in an alternative that refers to at least some names leaves no other names at
hand. -/
def Element.StaysWithin (names : List String) (element : Element) : Prop :=
  ∀ nearest atHand, names ⊆ nearest → atHand ⊆ nearest → element.refsAfter atHand ⊆ nearest ∧
    ∀ site ∈ element.sites nearest atHand, site.IsWithin

def Block.StaysWithin (names : List String) (b : Block) : Prop :=
  (∀ nearest atHand, names ⊆ nearest → atHand ⊆ nearest → b.refsAfter atHand ⊆ nearest) ∧
    ∀ site ∈ b.sites, site.IsWithin

def Alt.StaysWithin (names : List String) (alt : Alt) : Prop :=
  alt.refsAfter ⊆ names ∧ ∀ site ∈ alt.sites, site.IsWithin

theorem Element.staysWithin_all {names : List String} {elements : List Element}
    (each : ∀ e ∈ elements, e.StaysWithin names) {atHand : List String} (held : atHand ⊆ names) :
    Element.refsAfterAll atHand elements ⊆ names ∧
      ∀ site ∈ Element.sitesIn names atHand elements, site.IsWithin := by
  induction elements generalizing atHand with
  | nil => simpa [Element.refsAfterAll, Element.sitesIn] using held
  | cons e rest ih =>
      obtain ⟨first, others⟩ := List.forall_mem_cons.mp each
      obtain ⟨after, here⟩ := first names atHand (List.Subset.refl _) held
      obtain ⟨last, below⟩ := ih others after
      rw [Element.refsAfterAll, Element.sitesIn]
      exact ⟨last, List.forall_mem_append.mpr ⟨here, below⟩⟩

theorem Alt.mem_sitesIn {alts : List Alt} {site : ReferenceSite} (h : site ∈ Alt.sitesIn alts) :
    ∃ alt ∈ alts, site ∈ alt.sites := by
  induction alts with
  | nil => cases h
  | cons alt rest ih =>
      rw [Alt.sitesIn] at h
      rcases List.mem_append.mp h with h | h
      · exact ⟨alt, List.mem_cons_self .., h⟩
      · obtain ⟨other, hother, h⟩ := ih h
        exact ⟨other, List.mem_cons_of_mem _ hother, h⟩

theorem hereditary_staysWithin : Hereditary
    (fun n e => e.StaysWithin n.attributeRefs)
    (fun n b => b.StaysWithin n.attributeRefs)
    (fun n a => a.StaysWithin n.attributeRefs) where
  reference _ _ _ _ held := ⟨held, List.forall_mem_singleton.mpr held⟩
  action _ _ _ _ held := ⟨held, by simp [Element.sites]⟩
  forcedAction _ _ _ _ held := ⟨held, by simp [Element.sites]⟩
  predicate _ _ _ _ held := ⟨held, by simp [Element.sites]⟩
  epsilon _ _ _ held := ⟨held, by simp [Element.sites]⟩
  block b nearest atHand names held := ⟨b.1 nearest atHand names held, b.2⟩
  ebnf {_ _ body} _ made nearest atHand names held := by
    refine ⟨held, ?_⟩
    cases body with
    | none => simp [Element.sites]
    | some b =>
        obtain ⟨m, hm, within⟩ := made b rfl
        exact within.2
  root {_ operand} made nearest atHand names held := by
    refine ⟨held, ?_⟩
    cases operand with
    | none => simp [Element.sites]
    | some e =>
        obtain ⟨m, hm, within⟩ := made e rfl
        have inner := List.Subset.trans (Node.attributeRefs_of_mem_inner hm) names
        rw [Element.sites]
        exact (within nearest atHand inner held).2
  bang {_ operand} made nearest atHand names held := by
    cases operand with
    | none => exact ⟨held, by simp [Element.sites]⟩
    | some e =>
        obtain ⟨m, hm, within⟩ := made e rfl
        have inner := List.Subset.trans (Node.attributeRefs_of_mem_inner hm) names
        rw [Element.sites, Element.refsAfter]
        exact within nearest atHand inner held
  labeled {_ label operand} _ _ nearest atHand names held := by
    refine ⟨held, ?_⟩
    cases operand with
    | none => simp [Element.sites]
    | some e =>
        cases e with
        | reference r => exact List.forall_mem_singleton.mpr held
        | _ => simp [Element.sites]
  alts {n alts} made := by
    refine ⟨fun nearest atHand names held => ?_, fun site hsite => ?_⟩
    · match alts with
      | [alt] =>
          obtain ⟨m, hm, within⟩ := made alt (List.mem_singleton_self _)
          have inner := List.Subset.trans (Node.attributeRefs_of_mem_inner hm) names
          exact List.Subset.trans within.1 inner
      | [] | _ :: _ :: _ => exact held
    · obtain ⟨alt, halt, hsite⟩ := Alt.mem_sitesIn hsite
      obtain ⟨m, hm, within⟩ := made alt halt
      exact within.2 site hsite
  elements _ made _ _ := by
    refine Element.staysWithin_all (fun e he => ?_) (List.Subset.refl _)
    obtain ⟨m, hm, within⟩ := made e he
    intro nearest atHand names
    exact within nearest atHand (List.Subset.trans (Node.attributeRefs_of_mem_inner hm) names)

/-- In every rule the names of the alternative at hand are among those of the alternative around. -/
theorem Grammar.isWithin_of_mem_sites {g : Grammar} {kind : RecognizerKind} {rule : Rule}
    (hrule : rule ∈ g.rulesFor kind) {site : ReferenceSite} (hsite : site ∈ rule.sites) :
    site.IsWithin := by
  obtain ⟨n, _, rfl⟩ := exists_node_of_mem_rulesFor hrule
  unfold Rule.sites at hsite
  split at hsite
  · next b hblock =>
    obtain ⟨m, _, within⟩ := hereditary_staysWithin.body n.inner b (List.mem_of_head? hblock)
    exact within.2 site hsite
  · cases hsite

namespace Setup

variable {g : Grammar} {target : Target} {validate : Bool}

theorem labelNeeded_plain (refs : List String) (span : Span) (op : Op) :
    (plain g target validate).labelNeeded refs span op = op.referredName?.any refs.contains :=
  Bool.or_false _

theorem labels?_of_referred {refs : List String} {span : Span} {op : Op} {name label : String}
    (unlabeled : op.labels? = some []) (referred : op.referredName? = some name)
    (implicit : (plain g target validate).implicitLabel? op = some label) :
    (if (plain g target validate).labelNeeded refs span op
      then (plain g target validate).withImplicitLabel op else op).labels? =
        some (if name ∈ refs then [label] else []) := by
  rw [labelNeeded_plain, referred, Option.any_some, withImplicitLabel, implicit]
  by_cases held : name ∈ refs
  · rw [if_pos (List.contains_iff_mem.mpr held), if_pos held]
    exact Op.labels?_addLabel unlabeled label
  · rw [if_neg (mt List.contains_iff_mem.mp held), if_neg held, unlabeled]

/-- Without an explicit label it is the names at hand that decide. -/
theorem labels?_implicit {refs : List String} {span : Span} {r : Reference} {op : Op}
    (h : (plain g target validate).plainOp r = .ok op) :
    (if (plain g target validate).labelNeeded refs span op
      then (plain g target validate).withImplicitLabel op else op).labels? =
        some (r.implicitLabels target refs) := by
  have unlabeled := labels?_of_plainOp _ h
  match r with
  | .rule ⟨_, some name, _, _⟩ =>
      cases h
      exact labels?_of_referred unlabeled rfl rfl
  | .token ⟨_, some name, _, _⟩ =>
      obtain ⟨ttype, _, h⟩ := bind_eq_ok.mp h
      cases h
      exact labels?_of_referred unlabeled rfl rfl
  | .literal ⟨_, some text⟩ =>
      obtain ⟨ttype, _, h⟩ := bind_eq_ok.mp h
      cases h
      rw [labelNeeded_plain]
      rfl
  | .rule ⟨_, none, _, _⟩ | .token ⟨_, none, _, _⟩ | .literal ⟨_, none⟩ => cases h

theorem labels?_of_labeled {refs : List String} {span : Span} {r : Reference} {op labeled : Op}
    {label : Option Label} (hop : (plain g target validate).plainOp r = .ok op)
    (h : (plain g target validate).labeled refs span op label = .ok labeled)
    (nearest : List String) :
    labeled.labels? = some (ReferenceSite.labels target ⟨r, label, nearest, refs⟩ refs) := by
  match label with
  | none =>
      cases h
      exact labels?_implicit hop
  | some ⟨_, _, some name⟩ =>
      cases h
      exact Op.labels?_addLabel (labels?_of_plainOp _ hop) name
  | some ⟨_, _, none⟩ => cases h

theorem matchedIn_of_labels? {op : Op} {labels : List String} (h : op.labels? = some labels) :
    Op.matchedIn [op] = [op] := by
  cases op <;> first | rfl | cases h

/-- Whether an operation is that of a site, with the explicit label or with the implicit one if that
is needed. -/
def MatchesAt (setup : Setup) (site : ReferenceSite) (op : Op) : Prop :=
  ∃ unlabeled, setup.plainOp site.reference = .ok unlabeled ∧
    setup.labeled site.atHand site.reference.place.span unlabeled site.label = .ok op

theorem MatchesAt.gives {site : ReferenceSite} {op : Op}
    (h : (plain g target validate).MatchesAt site op) : site.Gives g target op := by
  obtain ⟨unlabeled, hop, hlabeled⟩ := h
  refine ⟨?_, labels?_of_labeled hop hlabeled site.nearest⟩
  rw [bare_of_labeled hlabeled]
  exact bareReference_of_plainOp hop

/-- A reference gives one operation, which is that of its site. -/
theorem matchesAt_of_referenceCode {refs : List String} {r : Reference} {label : Option Label}
    {ops : List Op} (h : (plain g target validate).referenceCode refs r label = .ok ops)
    (nearest : List String) :
    List.Forall₂ (plain g target validate).MatchesAt [⟨r, label, nearest, refs⟩]
      (Op.matchedIn ops) := by
  obtain ⟨op, hop, h⟩ := bind_eq_ok.mp h
  obtain ⟨labeled, hlabeled, h⟩ := bind_eq_ok.mp h
  rw [decoratedReference_plain] at h
  cases h
  rw [matchedIn_of_labels? (labels?_of_labeled hop hlabeled nearest)]
  exact .cons ⟨op, hop, hlabeled⟩ .nil

theorem matchesAt_of_labeledReferenceCode {refs : List String} {element : Element}
    {built : Reference × List Op}
    (h : (plain g target validate).labeledReferenceCode refs element = .ok built)
    (nearest : List String) :
    List.Forall₂ (plain g target validate).MatchesAt (element.sites nearest refs)
      (Op.matchedIn built.2) := by
  obtain ⟨label, hsplit, hcode⟩ := exists_reference_of_labeledReferenceCode h
  have labeled := matchesAt_of_referenceCode hcode nearest
  obtain ⟨rfl, rfl⟩ | ⟨l, rfl, rfl⟩ := Element.eq_of_splitLabel hsplit
  · rwa [Element.sites]
  · rwa [Element.sites]

/-- A rewrite matches nothing. -/
theorem matchedIn_of_rewriteCode {spot : Spot} {rewrite : Option Rewrite} {ops : List Op}
    (h : (plain g target validate).rewriteCode spot rewrite = .ok ops) :
    Op.matchedIn ops = [] := by
  cases rewrite with
  | none =>
      cases h
      rfl
  | some rewrite =>
      obtain ⟨body, _, h⟩ := bind_eq_ok.mp h
      cases h
      rfl

theorem matchedIn_of_choiceAt {site : ChoiceSite} {alts : List Alternative} {c : Choice}
    (h : (plain g target validate).choiceAt site alts = .ok c) :
    Op.matchedIn [.choice c] = Alternative.matchedIn alts := by
  obtain ⟨rfl, _⟩ := eq_of_choiceAt h
  exact List.append_nil _

theorem compositional_matchesAt : Compositional g target validate
    (fun spot element ops => ∀ nearest, List.Forall₂ (plain g target validate).MatchesAt
      (element.sites nearest spot.refs) (Op.matchedIn ops))
    (fun spot elements ops => ∀ nearest, List.Forall₂ (plain g target validate).MatchesAt
      (Element.sitesIn nearest spot.refs elements) (Op.matchedIn ops))
    (fun _ block ops =>
      List.Forall₂ (plain g target validate).MatchesAt block.sites (Op.matchedIn ops))
    (fun _ _ alt ops =>
      List.Forall₂ (plain g target validate).MatchesAt alt.sites (Op.matchedIn ops))
    (fun _ _ alts built => List.Forall₂ (plain g target validate).MatchesAt (Alt.sitesIn alts)
      (Alternative.matchedIn built)) where
  reference hops nearest := by
    rw [Element.sites]
    exact matchesAt_of_referenceCode hops nearest
  action _ := .nil
  forcedAction _ := .nil
  predicate _ := .nil
  epsilon _ := .nil
  block inside _ := by rwa [Element.sites]
  ebnf _ inside hc _ := by rwa [Element.sites, Block.sites, matchedIn_of_choiceAt hc]
  root hbuilt nearest := by
    rw [Element.sites]
    exact matchesAt_of_labeledReferenceCode hbuilt nearest
  bang inside nearest := by
    rw [Element.sites]
    exact inside nearest
  labeled hbuilt nearest := matchesAt_of_labeledReferenceCode hbuilt nearest
  noElements _ := .nil
  elements first others nearest := by
    rw [Element.sitesIn, Op.matchedIn_append]
    exact List.rel_append (first nearest) (others nearest)
  inlined inside := by rwa [Block.sites, Alt.sitesIn, Alt.sitesIn, List.append_nil]
  choice _ inside hc := by rwa [Block.sites, matchedIn_of_choiceAt hc]
  alt _ inside hrewritten := by
    rw [Alt.sites, Op.matchedIn_append, matchedIn_of_rewriteCode hrewritten, List.append_nil]
    exact inside _
  noAlts := .nil
  alts first others := by
    rw [Alt.sitesIn, Alternative.matchedIn]
    exact List.rel_append first others

/-- The operations that match something are those of the sites, in order. -/
theorem matchesAt_of_ruleCode {rule : Rule} {code : List Op}
    (h : (plain g target validate).ruleCode rule = .ok code) :
    List.Forall₂ (plain g target validate).MatchesAt rule.sites
      (Op.matchedIn code) := by
  obtain ⟨block, hblock, labeled⟩ := compositional_matchesAt.of_ruleCode h
  unfold Rule.sites
  rw [hblock]
  exact labeled

/-- Without extensions the operations of a built rule that match something are those of its sites in
order. Each has its explicit label or, if the alternative at hand refers to it, its implicit one.
These are the labels for the alternative around it unless its site is forgotten. -/
theorem labels_of_built (g : Grammar) (target : Target) (validate : Bool) {index : Nat}
    {rule : Rule} (hrule : (g.rulesFor .parser)[index]? = some rule) :
    ∃ f outcome, (plain g target validate).Makes index f outcome ∧ (outcome.isBuilt →
      List.Forall₂ (fun site op => g.bareReference? target site.reference = some [op.bare] ∧
          op.labels? = some (site.labels target site.atHand) ∧
          (op.labels? = some (site.labels target site.nearest) ↔ ¬site.IsForgotten))
        rule.sites (Op.matchedIn f.code)) := by
  obtain ⟨f, makes, hcode⟩ := plain_makes g target validate hrule
  refine ⟨f, _, makes, fun built => ?_⟩
  cases htranslated : (plain g target validate).ruleCode rule with
  | ok code =>
      rw [htranslated] at hcode
      rw [hcode]
      have within : ∀ site ∈ rule.sites, site.IsWithin := fun _ hsite =>
        Grammar.isWithin_of_mem_sites (List.mem_of_getElem? hrule) hsite
      refine ((List.forall₂_and_left _ _).mpr ⟨within, matchesAt_of_ruleCode htranslated⟩).imp ?_
      rintro site op ⟨within, labeled⟩
      have gives := labeled.gives
      refine ⟨gives.bare, gives.labels, ?_⟩
      rw [gives.labels, Option.some.injEq]
      exact ReferenceSite.labels_atHand_iff target within
  | error construct =>
      rw [htranslated] at built
      cases built

theorem labels_of_built_inlinedBefore : ∃ rule f outcome,
    (Grammar.inlinedBefore.rulesFor .parser)[0]? = some rule ∧
      (plain .inlinedBefore .java true).Makes 0 f outcome ∧ outcome.isBuilt ∧
      List.Forall₂ (fun site op =>
          Grammar.inlinedBefore.bareReference? .java site.reference = some [op.bare] ∧
          op.labels? = some (site.labels .java site.atHand) ∧
          (op.labels? = some (site.labels .java site.nearest) ↔ ¬site.IsForgotten))
        rule.sites (Op.matchedIn f.code) := by
  obtain ⟨rule, f, outcome, hrule, makes, built, _⟩ := makes_inlinedBefore
  obtain ⟨f', outcome', makes', labels⟩ := labels_of_built .inlinedBefore .java true hrule
  obtain ⟨rfl, rfl⟩ := makes.unique makes'
  exact ⟨rule, f, outcome, hrule, makes, built, labels built⟩

/-- Behind the inlined block the token that the action refers to gets no label. -/
theorem inlinedBefore_forgets : Grammar.inlinedBefore.Loaded ∧ ∃ rule f outcome site op,
    (Grammar.inlinedBefore.rulesFor .parser)[0]? = some rule ∧
      (plain .inlinedBefore .java true).Makes 0 f outcome ∧ outcome.isBuilt ∧
      rule.sites[1]? = some site ∧ (Op.matchedIn f.code)[1]? = some op ∧
      site.label = none ∧ site.reference.referredName? = some "ID" ∧ "ID" ∈ site.nearest ∧
      op.referredName? = some "ID" ∧ op.labels? = some [] := by
  have evaluated : ((Grammar.inlinedBefore.rulesFor .parser)[0]?.bind fun rule =>
      ((plain .inlinedBefore .java true).ruleCode rule).toOption.bind fun code =>
        rule.sites[1]?.bind fun site => (Op.matchedIn code)[1]?.map fun op =>
          (site.label, site.reference.referredName?, site.nearest, op.referredName?, op.labels?)) =
      some (none, some "ID", ["ID"], some "ID", some []) := by decide +kernel
  obtain ⟨rule, f, outcome, hrule, makes, built, hcode⟩ := makes_inlinedBefore
  rw [hrule, Option.bind_some, hcode] at evaluated
  obtain ⟨_, ⟨⟩, h⟩ := Option.bind_eq_some_iff.mp evaluated
  obtain ⟨site, hsite, h⟩ := Option.bind_eq_some_iff.mp h
  obtain ⟨op, hop, h⟩ := Option.map_eq_some_iff.mp h
  simp only [Prod.mk.injEq] at h
  obtain ⟨hlabel, hname, hnearest, hreferred, hlabels⟩ := h
  refine ⟨Grammar.inlinedBefore_loaded, rule, f, outcome, site, op, hrule, makes, built, hsite,
    hop, hlabel, hname, ?_, hreferred, hlabels⟩
  rw [hnearest]
  exact List.mem_singleton_self _

end Setup

end RecognizerModel
