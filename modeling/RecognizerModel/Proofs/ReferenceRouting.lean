import RecognizerModel.Proofs.ChainFold
import RecognizerModel.Proofs.EnclosingNodes

/-! Which extensions see a reference, and in which order. The nodes around a reference say it: its
label, and whether the next node around that is no label marks it as a root or leaves it out. -/
namespace RecognizerModel

namespace Subject

theorem role_eq_of_ops {s : Subject} (h : s = .ops) (before after : s.Node) :
    s.role after = s.role before := by
  subst h
  rfl

end Subject

namespace Chain

variable {p : Point} {extensions : List Extension} {ops : p.Node}

/-- Operations from which no extension takes what has to stay come back as all extensions make
them. -/
theorem outcome_of_anchored (isOps : p.subject = .ops)
    (keeps : ∀ e ∈ extensions, ∀ node, ¬e.RemovesAnchor p node) (held : p.Anchored ops) :
    (pass p (.ofSubject p.anchor? p.subject) (·.hook p) extensions ops).outcome =
      .ok (extensions.foldl (fun node e => e.hook p node) ops) := by
  induction extensions generalizing ops with
  | nil => rfl
  | cons e rest ih =>
    obtain ⟨here, others⟩ := List.forall_mem_cons.mp keeps
    have stays : p.Anchored (e.hook p ops) := by
      by_contra lost
      exact here ops ⟨held, lost⟩
    have allowed : p.subject.Allows p.anchor? ops (e.hook p ops) :=
      ⟨Subject.role_eq_of_ops isOps _ _, fun _ => stays⟩
    rw [pass_cons_of_none (Contract.ofSubject_eq_none allowed), List.foldl_cons]
    exact ih others stays

theorem outcome_of_free :
    (pass p .free (·.hook p) extensions ops).outcome =
      .ok (extensions.foldl (fun node e => e.hook p node) ops) := by
  rw [pass_of_kept fun _ _ => rfl, stage, List.take_length]

end Chain

namespace Setup

/-- Whether nothing is validated or no extension takes away an operation that has to stay. -/
def KeepsAnchors (setup : Setup) : Prop :=
  setup.chain.validate = false ∨
    ∀ e ∈ setup.chain.extensions, ∀ (p : Point) (node : p.Node), ¬e.RemovesAnchor p node

theorem KeepsAnchors.passesOps {setup : Setup} (keeps : setup.KeepsAnchors) : setup.PassesOps := by
  intro p ops isOps held
  unfold Chain.fold
  cases validate : setup.chain.validate with
  | false => exact Chain.outcome_of_free
  | true =>
    rcases keeps with off | keeps
    · cases validate.symm.trans off
    · exact Chain.outcome_of_anchored isOps (fun e he => keeps e he p) (held validate)

/-- Whether a label is asked for: by an action that refers to what is matched, or by an
extension. -/
def AsksForLabel (setup : Setup) (refs : List String) (span : Span) (op : Op) : Prop :=
  (∃ name, op.referredName? = some name ∧ name ∈ refs) ∨
    ∃ e ∈ setup.chain.extensions, e.wantsLabel span op = true

/-- What becomes of an operation under its explicit label or, without one, if it is asked for a
label and if it is not. -/
inductive Labels (setup : Setup) (refs : List String) (span : Span) (op : Op) :
    Option Label → Op → Prop
  | explicit {label : Label} {name : String} (named : label.name = some name) :
      Labels setup refs span op (some label) (op.addLabel name)
  | implicit {name : String} (asked : setup.AsksForLabel refs span op)
      (named : setup.implicitLabel? op = some name) :
      Labels setup refs span op none (op.addLabel name)
  | unlabeled (unasked : ¬setup.AsksForLabel refs span op) : Labels setup refs span op none op

theorem labelNeeded_iff {setup : Setup} {refs : List String} {span : Span} {op : Op} :
    setup.labelNeeded refs span op = true ↔ setup.AsksForLabel refs span op := by
  cases h : op.referredName? <;> simp [labelNeeded, AsksForLabel, Chain.wantsLabel, h]

theorem labels_of_labeled {setup : Setup} {refs : List String} {span : Span} {op labeled : Op}
    {label : Option Label} (plain : op.labels? = some [])
    (h : setup.labeled refs span op label = .ok labeled) :
    setup.Labels refs span op label labeled := by
  match label with
  | some ⟨_, _, some name⟩ =>
    cases h
    exact .explicit rfl
  | some ⟨_, _, none⟩ => cases h
  | none =>
    cases h
    split
    · next needed =>
      obtain ⟨name, hname⟩ := setup.exists_implicitLabel plain
      unfold withImplicitLabel
      rw [hname]
      exact .implicit (labelNeeded_iff.mp needed) hname
    · next unneeded => exact .unlabeled fun asked => unneeded (labelNeeded_iff.mpr asked)

/-- What the extensions at the own point of a reference make of its operations. -/
def throughPrimary (setup : Setup) : Reference → List Op → List Op
  | .rule _ => setup.decorated .ruleRef
  | .token _ => setup.decorated .tokenRef
  | .literal _ => setup.decorated .stringRef

/-- What those at the point for leaves make of them; a literal is never shown there. -/
def throughLeaf (setup : Setup) : Reference → List Op → List Op
  | .rule _ => setup.decorated .leafRule
  | .token _ => setup.decorated .leafToken
  | .literal _ => id

/-- What those at the point for roots make of them. -/
def throughRoot (setup : Setup) : Reference → List Op → List Op
  | .rule _ => setup.decorated .rootRule
  | .token _ | .literal _ => setup.decorated .rootToken

/-- The way of the operations of a reference inside of a node of a kind. -/
def routed (setup : Setup) (enclosing : Option NodeKind) (r : Reference) (ops : List Op) :
    List Op :=
  let ops := setup.throughPrimary r ops
  let ops :=
    if enclosing = some .root ∨ enclosing = some .bang then ops else setup.throughLeaf r ops
  if enclosing = some .root then setup.throughRoot r ops else ops

end Setup

open Position

namespace Setup

variable {setup : Setup} {g : Grammar} {spot : Spot} {r : Reference} {around : List Node}

/-- The walk over a reference with its labels and marks does what the translation says. -/
theorem PassesOps.follows_inside (passes : setup.PassesOps) (r : Reference)
    (wraps : ∀ n ∈ around, n.kind.isWrapper = true) :
    (setup.walkElement (r.inside around)).Follows spot
      (setup.elementCode spot (r.inside around)) spot.refs := by
  induction around using List.reverseRecOn with
  | nil =>
    have same : r.inside [] = .reference r := rfl
    rw [same, walkElement, elementCode]
    exact passes.follows_reference r none
  | append_singleton around n ih =>
    have inner := ih fun m hm => wraps m (List.mem_append_left _ hm)
    rw [r.inside_concat]
    rcases Node.wrap_cases (wraps n (by simp)) (r.inside around) with
      ⟨-, label, made⟩ | ⟨-, made⟩ | ⟨-, made⟩
    · rw [made, walkElement, elementCode]
      exact (passes.follows_labeledReference _).bind fun _ => Job.follows_pure _
    · rw [made, walkElement, elementCode]
      refine (passes.follows_labeledReference _).bind fun built => ?_
      exact passes.follows_rootReference built.1 built.2
    · rw [made, walkElement, elementCode]
      exact inner

theorem referenceCode_eq {refs : List String} {op labeled : Op} {label : Option Label}
    (hop : setup.plainOp r = .ok op)
    (hlabeled : setup.labeled refs r.place.span op label = .ok labeled) :
    setup.referenceCode refs r label = .ok (setup.decoratedReference r [labeled]) := by
  exact bind_eq_ok.mpr ⟨op, hop, bind_eq_ok.mpr ⟨labeled, hlabeled, rfl⟩⟩

/-- The translation of a reference with its labels and marks. It is shown to the extensions as a
root if and only if the innermost node around that is no label marks it as one. -/
theorem elementCode_inside (spot : Spot) {p : Position} {n : Node} {rest : List Node} {op : Op}
    (split : p.above = around ++ n :: rest) (wraps : ∀ n ∈ around, n.kind.isWrapper = true)
    (other : n.kind.isLabel = false) (noRoot : n.kind ≠ .root)
    (wf : (r.inside around).WellFormed g) (hop : setup.plainOp r = .ok op) :
    ∃ labeled, setup.labeled spot.refs r.place.span op p.label? = .ok labeled ∧
      setup.elementCode spot (r.inside around) =
        .ok (if p.enclosing? = some .root
          then setup.decoratedRoot r (setup.decoratedReference r [labeled])
          else setup.decoratedReference r [labeled]) := by
  induction around using List.reverseRecOn generalizing n rest with
  | nil =>
    have unlabeled : p.label? = none := label?_of_split split other
    obtain ⟨labeled, hlabeled⟩ : ∃ labeled,
        setup.labeled spot.refs r.place.span op none = .ok labeled := ⟨_, rfl⟩
    refine ⟨labeled, unlabeled ▸ hlabeled, ?_⟩
    have same : r.inside [] = .reference r := rfl
    rw [if_neg (enclosing?_ne_root split nofun other noRoot), same, elementCode]
    exact referenceCode_eq hop hlabeled
  | append_singleton around m ih =>
    have split' : p.above = around ++ m :: n :: rest := by simp [split]
    have inner : ∀ m ∈ around, m.kind.isWrapper = true :=
      fun m hm => wraps m (List.mem_append_left _ hm)
    rcases Node.wrap_cases (wraps m (by simp)) (r.inside around) with
      ⟨-, label, made⟩ | ⟨isRoot, made⟩ | ⟨isBang, made⟩
    all_goals rw [← r.inside_concat] at made
    · rw [made, Element.WellFormed, ← made] at wf
      obtain ⟨labels, -, hsplit, named⟩ := Reference.splitLabel_inside wraps wf
      rw [← label?_of_split split other] at hsplit named
      obtain ⟨labeled, hlabeled⟩ := succeeds_labeled.mpr named
      refine ⟨labeled, hlabeled, ?_⟩
      rw [if_neg (enclosing?_ne_root split labels other noRoot), made, elementCode, ← made,
        labeledReferenceCode_eq hsplit, referenceCode_eq hop hlabeled]
      rfl
    · have other' : m.kind.isLabel = false := by rw [isRoot]; rfl
      rw [made] at wf ⊢
      rw [Element.WellFormed] at wf
      obtain ⟨labels, -, hsplit, named⟩ := Reference.splitLabel_inside inner wf
      rw [← label?_of_split split' other'] at hsplit named
      obtain ⟨labeled, hlabeled⟩ := succeeds_labeled.mpr named
      refine ⟨labeled, hlabeled, ?_⟩
      have rooted : p.enclosing? = some .root :=
        isRoot ▸ enclosing?_of_labels split' labels other'
      rw [if_pos rooted, elementCode, labeledReferenceCode_eq hsplit,
        referenceCode_eq hop hlabeled]
      rfl
    · rw [made] at wf ⊢
      rw [Element.WellFormed] at wf
      rw [elementCode]
      exact ih split' inner (by rw [isBang]; rfl) (by simp [isBang]) wf

/-- The way of a reference goes by the nodes around it as by the mark that is handed down. -/
theorem routed_eq {node : Node} {above : List Node}
    (hr : node.reference? (markInside above).isSet = some r) (ops : List Op) :
    setup.routed (enclosing? ⟨node, above⟩) r ops =
      if enclosing? ⟨node, above⟩ = some .root
      then setup.decoratedRoot r (setup.decoratedReference r ops)
      else setup.decoratedReference r ops := by
  have told := isSet_markInside_iff node above
  generalize (markInside above).isSet = marked at hr told
  generalize enclosing? ⟨node, above⟩ = enclosing at told ⊢
  obtain ⟨kind, span, inner⟩ := node
  cases kind with
  | ruleRef | tokenRef =>
    cases hr
    unfold routed
    simp only [← told]
    rfl
  | stringLiteral =>
    cases hr
    unfold routed
    split <;> rfl
  | _ => cases hr

theorem isNamed_of_wellFormed (wraps : ∀ n ∈ around, n.kind.isWrapper = true)
    (wf : (r.inside around).WellFormed g) : r.IsNamed := by
  induction around using List.reverseRecOn with
  | nil => exact (Element.WellFormed.eq_def ..).mp wf
  | append_singleton around m ih =>
    have inner : ∀ m ∈ around, m.kind.isWrapper = true :=
      fun m hm => wraps m (List.mem_append_left _ hm)
    rcases Node.wrap_cases (wraps m (by simp)) (r.inside around) with
      ⟨-, label, made⟩ | ⟨-, made⟩ | ⟨-, made⟩
    all_goals rw [← r.inside_concat] at made
    · rw [made, Element.WellFormed, ← made] at wf
      exact (Reference.splitLabel_inside wraps wf).2.1
    · rw [made, Element.WellFormed] at wf
      exact (Reference.splitLabel_inside inner wf).2.1
    · rw [made, Element.WellFormed] at wf
      exact ih inner wf

theorem referenceOp_run (setup : Setup) (r : Reference) (s : JobState) :
    setup.referenceOp r s = ((setup.plainOp r).mapError .malformed, s) := by
  have typed (name : String) (place : Place) (p : Point) :
      setup.tokenType name place p s = ((setup.typeOf name place p).mapError .malformed, s) := by
    unfold tokenType typeOf
    cases setup.grammar.vocabulary.type? name <;> rfl
  match r with
  | .rule ⟨_, some _, _, _⟩ | .rule ⟨_, none, _, _⟩ | .token ⟨_, none, _, _⟩
  | .literal ⟨_, none⟩ => rfl
  | .token ⟨_, some name, _, _⟩ | .literal ⟨_, some name⟩ =>
    simp only [referenceOp, plainOp, Job.bind_run, typed]
    cases setup.typeOf name _ _ <;> rfl

theorem succeeds_inside (known : setup.grammar.Covers r)
    (wraps : ∀ n ∈ around, n.kind.isWrapper = true) :
    (setup.elementCode spot (r.inside around)).Succeeds ↔
      (r.inside around).WellFormed setup.grammar := by
  induction around using List.reverseRecOn with
  | nil =>
    have same : r.inside [] = .reference r := rfl
    rw [same, elementCode, Element.WellFormed]
    exact (succeeds_referenceCode known).trans (by simp)
  | append_singleton around n ih =>
    have inner := ih fun m hm => wraps m (List.mem_append_left _ hm)
    have covered : (r.inside around).AllRefs setup.grammar.Covers := r.allRefs_inside known
    rw [r.inside_concat]
    rcases Node.wrap_cases (wraps n (by simp)) (r.inside around) with
      ⟨-, label, made⟩ | ⟨-, made⟩ | ⟨-, made⟩
    · rw [made, elementCode, Element.WellFormed]
      refine Translated.succeeds_map.trans (succeeds_labeledReferenceCode ?_)
      rwa [Element.AllRefs]
    · rw [made, elementCode, Element.WellFormed]
      exact Translated.succeeds_map.trans (succeeds_labeledReferenceCode covered)
    · rw [made, elementCode, Element.WellFormed]
      exact inner

theorem AsksForLabel.of_perm {chain : Chain} {refs : List String} {span : Span} {op : Op}
    (perm : chain.extensions.Perm setup.chain.extensions) :
    { setup with chain }.AsksForLabel refs span op ↔ setup.AsksForLabel refs span op := by
  unfold AsksForLabel
  simp only [perm.mem_iff]

/-- In which order the extensions are does not matter for labels. -/
theorem Labels.of_perm {chain : Chain} {refs : List String} {span : Span} {op labeled : Op}
    {label : Option Label} (h : setup.Labels refs span op label labeled)
    (perm : chain.extensions.Perm setup.chain.extensions) :
    { setup with chain }.Labels refs span op label labeled := by
  cases h with
  | explicit named => exact .explicit named
  | implicit asked named => exact .implicit ((AsksForLabel.of_perm perm).mpr asked) named
  | unlabeled unasked => exact .unlabeled (mt (AsksForLabel.of_perm perm).mp unasked)

end Setup

namespace Setup

variable {setup : Setup} {r : Reference}

/-- The operation of a well-formed reference gets its label and goes its way, whatever is said of
the rule so far. -/
theorem KeepsAnchors.exists_routed {p : Position} {alt : Node} {above : List Node}
    (keeps : setup.KeepsAnchors) (covered : setup.grammar.Covers r)
    (hr : p.node.reference? (markInside p.above).isSet = some r)
    (split : p.above = p.wrappers ++ alt :: above) (isAlt : alt.kind = .alt)
    (wf : (r.inside p.wrappers).WellFormed setup.grammar) :
    ∃ op, (∀ s, setup.referenceOp r s = (.ok op, s)) ∧ op.labels? = some [] ∧
      ∀ spot, ∃ labeled, setup.Labels spot.refs r.place.span op p.label? labeled ∧
        ∀ s, s.context.StandsAt spot → ∃ t, t.context.StandsAt spot ∧
          setup.walkElement (r.inside p.wrappers) s =
            (.ok (setup.routed p.enclosing? r [labeled]), t) := by
  have wraps : ∀ n ∈ p.wrappers, n.kind.isWrapper = true := fun _ => isWrapper_of_mem_wrappers
  obtain ⟨op, hop⟩ := (succeeds_plainOp covered).mpr (isNamed_of_wellFormed wraps wf)
  have plain := labels?_of_plainOp setup hop
  refine ⟨op, fun s => by rw [referenceOp_run, hop]; rfl, plain, fun spot => ?_⟩
  obtain ⟨labeled, hlabeled, code⟩ := elementCode_inside spot split wraps
    (by rw [isAlt]; rfl) (by simp [isAlt]) wf hop
  refine ⟨labeled, labels_of_labeled plain hlabeled, fun s stands => ?_⟩
  have run := keeps.passesOps.follows_inside r wraps s stands
  rw [code, ← routed_eq hr] at run
  exact ⟨_, run.2, Prod.ext run.1 rfl⟩

theorem KeepsAnchors.exists_malformed {around : List Node} {spot : Spot} {s : JobState}
    (keeps : setup.KeepsAnchors) (covered : setup.grammar.Covers r)
    (wraps : ∀ n ∈ around, n.kind.isWrapper = true)
    (malformed : ¬(r.inside around).WellFormed setup.grammar) (stands : s.context.StandsAt spot) :
    ∃ construct, (setup.walkElement (r.inside around) s).1 = .error (.malformed construct) := by
  have run := keeps.passesOps.follows_inside r wraps s stands
  cases translated : setup.elementCode spot (r.inside around) with
  | ok ops => exact absurd ((succeeds_inside covered wraps).mp ⟨ops, translated⟩) malformed
  | error construct =>
    rw [translated] at run
    exact ⟨construct, run⟩

/-- A reference that the walk comes to is an element of an alternative with its labels and marks.
If that is well formed, its operation has the explicit label or, without one, the implicit label if
it is asked for, and passes the extensions at the points that the nodes around name, and at no
others. The order of the extensions does not matter for the label. -/
theorem routed_of_walked (loaded : setup.grammar.Loaded) (keeps : setup.KeepsAnchors) {n : Node}
    (hn : n ∈ setup.grammar.root.inner.nodes) {p : Position} (hp : p ∈ n.walked)
    {m : MarkedReference} (hm : p.markedReference? = some m) :
    let r := m.reference
    let element := r.inside p.wrappers
    (∃ alt above, p.above = p.wrappers ++ alt :: above ∧ alt.kind = .alt ∧
        ⟨alt, above⟩ ∈ n.walked ∧ element ∈ Element.ofForest false alt.inner) ∧
      (element.WellFormed setup.grammar →
        ∃ op, (∀ s, setup.referenceOp r s = (.ok op, s)) ∧ op.labels? = some [] ∧
          ∀ spot, ∃ labeled,
            (∀ chain : Chain, chain.extensions.Perm setup.chain.extensions →
              { setup with chain }.Labels spot.refs r.place.span op p.label? labeled) ∧
            ∀ s, s.context.StandsAt spot → ∃ t, t.context.StandsAt spot ∧
              setup.walkElement element s =
                (.ok (setup.routed p.enclosing? r [labeled]), t)) ∧
      (¬element.WellFormed setup.grammar → ∀ spot s, s.context.StandsAt spot →
        ∃ construct, (setup.walkElement element s).1 = .error (.malformed construct)) := by
  obtain ⟨outside, r, hr, rfl⟩ := exists_reference_of_markedReference? hm
  have placed := Node.exists_alternative_of_walked hp hm
  have covered : setup.grammar.Covers r :=
    loaded.refsOf_covers p.node
      (Node.descendants_of_mem_inner hn (n.mem_descendants_of_mem_walked hp)) _ r hr
  refine ⟨placed, fun wf => ?_, fun malformed _ _ stands =>
    keeps.exists_malformed covered (fun _ => isWrapper_of_mem_wrappers) malformed stands⟩
  obtain ⟨alt, above, split, isAlt, -, -⟩ := placed
  obtain ⟨op, made, plain, routed⟩ := keeps.exists_routed covered hr split isAlt wf
  refine ⟨op, made, plain, fun spot => ?_⟩
  obtain ⟨labeled, labels, run⟩ := routed spot
  exact ⟨labeled, fun _ perm => labels.of_perm perm, run⟩

end Setup

/-- Puts its name behind the operations of a token at each point where it sees them. -/
def Extension.signing (name : String) (wants : Bool) : Extension where
  name
  hook
    | .tokenRef, ops => ops ++ [.action s!"{name}.token"]
    | .leafToken, ops => ops ++ [.action s!"{name}.leaf"]
    | .rootToken, ops => ops ++ [.action s!"{name}.root"]
    | _, node => node
  wantsLabel _ _ := wants

theorem Extension.not_removesAnchor_signing (name : String) (wants : Bool) (p : Point)
    (node : p.Node) : ¬(signing name wants).RemovesAnchor p node := by
  rintro ⟨held, lost⟩
  refine lost fun kind hkind => ?_
  have here := held kind hkind
  cases p with
  | tokenRef | leafToken | rootToken =>
    obtain ⟨op, hop, same⟩ := here
    exact ⟨op, List.mem_append_left _ hop, same⟩
  | _ => exact here

/-- A rule with a token and a labeled token that is marked as a root. -/
def Grammar.labeledRoot : Grammar :=
  (load ("(PARSER_GRAMMAR P(RULE a(BLOCK(ALT" ++
    "(TOKEN_REF A)(ROOT(ASSIGN y(TOKEN_REF B)))))))")).toOption.get (by decide +kernel)

namespace Setup

def signed : Setup where
  grammar := .labeledRoot
  target := .java
  chain := ⟨[.signing "first" false, .signing "second" true], true⟩

theorem keepsAnchors_signed : signed.KeepsAnchors := by
  refine .inr fun e he p node => ?_
  rcases List.mem_pair.mp he with rfl | rfl
  all_goals exact Extension.not_removesAnchor_signing _ _ p node

/-- The labeled root is shown to both extensions as a token and then to both as a root. -/
theorem routed_of_walked_signed :
    let s : JobState := { JobState.empty with context := Context.empty.pushRule default }
    ∃ n ∈ signed.grammar.root.inner.nodes, ∃ p ∈ n.walked, ∃ m op t,
      p.markedReference? = some m ∧ p.enclosing? = some .root ∧
      (m.reference.inside p.wrappers).WellFormed signed.grammar ∧
      signed.referenceOp m.reference s = (.ok op, s) ∧
      signed.walkElement (m.reference.inside p.wrappers) s =
        (.ok [op.addLabel "y", .action "first.token", .action "second.token",
          .action "first.root", .action "second.root"], t) := by
  intro s
  have evaluated : (signed.grammar.root.inner.nodes.any fun n => n.walked.any fun p =>
      p.markedReference?.any fun m =>
        p.enclosing? == some .root && p.label?.bind Label.name == some "y" &&
          m.reference matches .token _ &&
            (signed.walkElement (m.reference.inside p.wrappers) s).1.toOption.isSome) = true := by
    decide +kernel
  simp only [List.any_eq_true, Option.any_eq_true, Bool.and_eq_true, beq_iff_eq] at evaluated
  obtain ⟨n, hn, p, hp, m, hm, ⟨⟨root, label⟩, token⟩, succeeds⟩ := evaluated
  have loaded : Grammar.labeledRoot.Loaded := Grammar.loaded_get _
  obtain ⟨-, routed, malformed⟩ := routed_of_walked loaded keepsAnchors_signed hn hp hm
  have stands : s.context.StandsAt .start := Context.standsAt_start none default
  have wf : (m.reference.inside p.wrappers).WellFormed signed.grammar := by
    by_contra ill
    obtain ⟨construct, fails⟩ := malformed ill .start s stands
    rw [fails] at succeeds
    cases succeeds
  obtain ⟨op, made, -, routed⟩ := routed wf
  obtain ⟨labeled, labels, run⟩ := routed .start
  obtain ⟨t, -, run⟩ := run s stands
  refine ⟨n, hn, p, hp, m, op, t, hm, root, wf, made s, ?_⟩
  obtain ⟨l, hl, hname⟩ := Option.bind_eq_some_iff.mp label
  have labels := labels signed.chain (.refl _)
  rw [hl] at labels
  cases labels with
  | explicit named =>
    cases named.symm.trans hname
    rw [run, root]
    cases hr : m.reference with
    | token ref => rfl
    | rule | literal =>
      rw [hr] at token
      cases token

end Setup

end RecognizerModel
