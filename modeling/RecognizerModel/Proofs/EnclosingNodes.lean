import Mathlib.Data.List.Induction
import Mathlib.Data.List.TakeWhile
import RecognizerModel.Proofs.TreeMarks
import RecognizerModel.Proofs.WellFormed

/-! The labels and marks around a reference. Those directly around it make one element of it, which
is an element of an alternative. The innermost of the nodes around that is no label says whether the
reference is marked. -/
namespace RecognizerModel

namespace NodeKind

def isLabel : NodeKind → Bool
  | assign | plusAssign => true
  | _ => false

/-- Whether a node of this kind labels or marks its operand. -/
def isWrapper (kind : NodeKind) : Bool :=
  kind.isLabel || kind == .root || kind == .bang

end NodeKind

/-- The element that a node makes of its operand. -/
def Node.wrap (n : Node) (operand : Element) : Element :=
  match n.kind, n.label? with
  | .root, _ => .root n.span (some operand)
  | .bang, _ => .bang n.span (some operand)
  | _, some label => .labeled label (some operand)
  | _, none => operand

/-- The element that nodes around a reference make of it, the innermost of them first. -/
def Reference.inside (r : Reference) (around : List Node) : Element :=
  around.foldl (fun operand n => n.wrap operand) (.reference r)

theorem Reference.inside_concat (r : Reference) (around : List Node) (n : Node) :
    r.inside (around ++ [n]) = n.wrap (r.inside around) :=
  List.foldl_concat ..

namespace Position

/-- The labels and marks directly around a position, innermost first. -/
def wrappers (p : Position) : List Node :=
  p.above.takeWhile (·.kind.isWrapper)

theorem isWrapper_of_mem_wrappers {p : Position} {n : Node} (h : n ∈ p.wrappers) :
    n.kind.isWrapper = true := by
  have wraps := List.mem_takeWhile_imp h
  exact wraps

/-- The label that a position is directly inside of. -/
def label? (p : Position) : Option Label :=
  p.above.head?.bind Node.label?

/-- The kind of the innermost node around a position that is no label. -/
def enclosing? (p : Position) : Option NodeKind :=
  (p.above.find? (!·.kind.isLabel)).map Node.kind

end Position

namespace Element

variable {kind : NodeKind} {span : Span} {inner rest : Forest}

theorem ofForest_taken (h : kind.isElement = true) (marked : Bool) :
    ∃ e, ofForest marked (.node kind span inner rest) = e :: ofForest marked rest := by
  cases kind <;> first | exact ⟨_, rfl⟩ | cases h

theorem ofForest_reference {marked : Bool} {r : Reference}
    (h : Node.reference? marked ⟨kind, span, inner⟩ = some r) :
    ofForest marked (.node kind span inner rest) = .reference r :: ofForest marked rest := by
  cases kind <;> cases h <;> rfl

theorem ofForest_wrapper {mark : TreeMark} {operand : Element} (wraps : kind.isWrapper = true)
    (h : (ofForest (mark.below kind).isSet inner).head? = some operand) :
    ofForest mark.isSet (.node kind span inner rest) =
      Node.wrap ⟨kind, span, inner⟩ operand :: ofForest mark.isSet rest := by
  cases kind with
  | root | bang =>
    rw [TreeMark.below] at h
    simp only [ofForest, Node.wrap]
    rw [← h]
    rfl
  | assign | plusAssign =>
    rw [TreeMark.below] at h
    simp only [ofForest, Node.wrap, Node.reference?, Node.label?, h]
  | _ => cases wraps

end Element

namespace Slot

/-- The elements that the walk comes to in a row when it looks for some of them. -/
def elementsOf (slot : Slot) (marked : Bool) (f : Forest) : List Element :=
  match slot with
  | .elements => Element.ofForest marked f
  | .operand => (Element.ofForest marked f).head?.toList
  | _ => []

variable {slot : Slot} {kind : NodeKind} {marked : Bool}

theorem elementsOf_passed {span : Span} {inner rest : Forest} (h : slot.takes kind = false) :
    slot.elementsOf marked (.node kind span inner rest) = slot.elementsOf marked rest := by
  cases slot with
  | elements => exact Element.ofForest_passed h marked
  | operand => exact congrArg (·.head?.toList) (Element.ofForest_passed h marked)
  | _ => rfl

theorem mem_elementsOf {f : Forest} {element : Element} {others : List Element}
    (slots : slot = .elements ∨ slot = .operand)
    (h : Element.ofForest marked f = element :: others) : element ∈ slot.elementsOf marked f := by
  rcases slots with rfl | rfl <;> simp [elementsOf, h]

theorem of_takes_wrapper (taken : slot.takes kind = true) (wraps : kind.isWrapper = true) :
    slot = .elements ∨ slot = .operand := by
  cases kind with
  | root | bang | assign | plusAssign =>
    cases slot <;> first | exact .inl rfl | exact .inr rfl | cases taken
  | _ => cases wraps

theorem of_takes_reference {n : Node} {r : Reference} (taken : slot.takes n.kind = true)
    (hr : n.reference? marked = some r) (outside : slot ≠ .rewriteElements) :
    slot = .elements ∨ slot = .operand := by
  obtain ⟨kind, span, inner⟩ := n
  cases kind with
  | ruleRef | tokenRef | stringLiteral =>
    cases slot <;>
      first | exact .inl rfl | exact .inr rfl | exact absurd rfl outside | cases taken
  | _ => cases hr

/-- A row that goes on behind what is taken of it. -/
theorem mem_elementsOf_of_rest {span : Span} {inner rest : Forest} {element : Element}
    (taken : slot.takes kind = true) (goesOn : slot.isSingle = false)
    (h : element ∈ slot.elementsOf marked rest) :
    element ∈ slot.elementsOf marked (.node kind span inner rest) := by
  cases slot with
  | elements =>
    obtain ⟨e, split⟩ := Element.ofForest_taken taken marked
    rw [elementsOf, split]
    exact List.mem_cons_of_mem _ h
  | operand => cases goesOn
  | _ => cases h

/-- What is looked for in an element of a rewrite is inside of the rewrite. -/
theorem inRewrite_below {n : Node} {above : List Node} {below : Slot}
    (taken : slot.takes n.kind = true)
    (inside : slot = .rewriteElements → Position.inRewrite above = true)
    (hbelow : below ∈ n.kind.slots) :
    below = .rewriteElements → Position.inRewrite (n :: above) = true := by
  rintro rfl
  obtain ⟨kind, span, inner⟩ := n
  cases kind with
  | rewrite => rfl
  | rewriteTree | rewriteOptional | rewriteClosure =>
    refine Position.inRewrite_cons _ (inside ?_)
    cases slot <;> first | rfl | cases taken
  | _ => simp [NodeKind.slots] at hbelow

end Slot

namespace Position

/-- Whether a reference at a position is, with its labels and marks, an element of an alternative
that is one of the given positions. -/
def InAlternative (p : Position) (r : Reference) (positions : List Position) : Prop :=
  ∃ around alt above, p.above = around ++ alt :: above ∧
    (∀ n ∈ around, n.kind.isWrapper = true) ∧ alt.kind = .alt ∧ ⟨alt, above⟩ ∈ positions ∧
      r.inside around ∈ Element.ofForest false alt.inner

theorem InAlternative.mono {p : Position} {r : Reference} {positions more : List Position}
    (h : p.InAlternative r positions) (sub : positions ⊆ more) : p.InAlternative r more := by
  obtain ⟨around, alt, above, split, wraps, isAlt, hmem, element⟩ := h
  exact ⟨around, alt, above, split, wraps, isAlt, sub hmem, element⟩

/-- Whether a reference at a position is, with its labels and marks, an element directly in a
row. -/
def InRow (p : Position) (r : Reference) (above : List Node) (slot : Slot) (f : Forest) : Prop :=
  ∃ around, p.above = around ++ above ∧ (∀ n ∈ around, n.kind.isWrapper = true) ∧
    r.inside around ∈ slot.elementsOf (markInside above).isSet f

/-- An operand is an element with what is around it, and an element of an alternative is there. -/
theorem InRow.leave {p : Position} {r : Reference} {n : Node} {above : List Node}
    {slot below : Slot} {rest : Forest} (h : p.InRow r (n :: above) below n.inner)
    (taken : slot.takes n.kind = true) (hbelow : below ∈ n.kind.slots) :
    p.InRow r above slot (.node n.kind n.span n.inner rest) ∨
      p.InAlternative r [⟨n, above⟩] := by
  obtain ⟨around, split, wraps, element⟩ := h
  rw [markInside_cons] at element
  cases below with
  | operand =>
    left
    have wrapper : n.kind.isWrapper = true := by
      obtain ⟨kind, span, inner⟩ := n
      cases kind <;> first | rfl | simp [NodeKind.slots] at hbelow
    have made : Element.ofForest (markInside above).isSet (.node n.kind n.span n.inner rest) =
        n.wrap (r.inside around) :: _ :=
      Element.ofForest_wrapper wrapper (Option.mem_toList.mp element)
    refine ⟨around ++ [n], by simp [split], ?_, ?_⟩
    · exact List.forall_mem_append.mpr ⟨wraps, by simpa using wrapper⟩
    · rw [r.inside_concat]
      exact Slot.mem_elementsOf (Slot.of_takes_wrapper taken wrapper) made
  | elements =>
    right
    have isAlt : n.kind = .alt := by
      obtain ⟨kind, span, inner⟩ := n
      cases kind <;> first | rfl | simp [NodeKind.slots] at hbelow
    rw [isAlt] at element
    exact ⟨around, n, above, split, wraps, isAlt, List.mem_singleton_self _, element⟩
  | _ => cases element

end Position

open Position

/-- A reference that the walk comes to in a row is directly in the row or in an alternative inside
of it. -/
theorem Forest.inRow_or_inAlternative {f : Forest} {above : List Node} {slot : Slot} {p : Position}
    {r : Reference} (hp : p ∈ f.walked above slot) (outside : inRewrite p.above = false)
    (inside : slot = .rewriteElements → inRewrite above = true)
    (hr : p.node.reference? (markInside p.above).isSet = some r) :
    p.InRow r above slot f ∨ p.InAlternative r (f.walked above slot) := by
  induction f generalizing above slot with
  | nil => cases hp
  | token t rest ih =>
    refine (ih hp inside).imp (fun here => ?_) id
    cases slot <;> exact here
  | node kind span inner rest ihInner ihRest =>
    cases taken : slot.takes kind with
    | false =>
      rw [walked_passed taken] at hp ⊢
      refine (ihRest hp inside).imp (fun here => ?_) id
      unfold InRow
      rwa [Slot.elementsOf_passed taken]
    | true =>
      let n : Node := ⟨kind, span, inner⟩
      have whole : (node kind span inner rest).walked above slot =
          (kind.slots.flatMap fun below => inner.walked (n :: above) below) ++
            ⟨n, above⟩ :: if slot.isSingle then [] else rest.walked above slot := by
        rw [walked, if_pos taken]
      have self : [⟨n, above⟩] ⊆ (node kind span inner rest).walked above slot := by
        simp [whole]
      have within {below : Slot} (hbelow : below ∈ kind.slots) :
          inner.walked (n :: above) below ⊆ (node kind span inner rest).walked above slot := by
        rw [whole]
        exact fun q hq => List.mem_append_left _ (List.mem_flatMap.mpr ⟨below, hbelow, hq⟩)
      rw [whole] at hp
      rcases List.mem_append.mp hp with hp | hp
      · obtain ⟨below, hbelow, hp⟩ := List.mem_flatMap.mp hp
        have deeper : below = .rewriteElements → inRewrite (n :: above) = true :=
          Slot.inRewrite_below taken inside hbelow
        rcases ihInner hp deeper with here | there
        · exact (here.leave taken hbelow).imp id fun there => there.mono self
        · exact .inr (there.mono (within hbelow))
      rcases List.mem_cons.mp hp with rfl | hp
      · left
        have slots : slot ≠ .rewriteElements := by
          intro isRewrite
          cases (inside isRewrite).symm.trans outside
        have here : Element.ofForest (markInside above).isSet (node kind span inner rest) =
            .reference r :: _ := Element.ofForest_reference hr
        exact ⟨[], rfl, fun _ h => absurd h List.not_mem_nil,
          Slot.mem_elementsOf (Slot.of_takes_reference taken hr slots) here⟩
      · cases single : slot.isSingle with
        | true => simp [single] at hp
        | false =>
          rw [single] at hp
          refine (ihRest hp inside).imp ?_ fun there => there.mono ?_
          · rintro ⟨around, split, wraps, element⟩
            exact ⟨around, split, wraps, Slot.mem_elementsOf_of_rest taken single element⟩
          · rw [whole, single]
            exact fun q hq => List.mem_append_right _ (List.mem_cons_of_mem _ hq)

namespace Position

/-- A mark is set by the innermost node around that is no label. -/
theorem isSet_markInside_iff (node : Node) (above : List Node) :
    (markInside above).isSet = true ↔
      enclosing? ⟨node, above⟩ = some .root ∨ enclosing? ⟨node, above⟩ = some .bang := by
  induction above with
  | nil => simp [markInside, enclosing?, TreeMark.isSet]
  | cons n above ih =>
    obtain ⟨kind, span, inner⟩ := n
    rw [markInside_cons]
    unfold enclosing? at ih ⊢
    rw [List.find?_cons]
    cases kind with
    | assign | plusAssign => exact ih
    | _ => simp [TreeMark.below, NodeKind.isLabel, TreeMark.isSet]

variable {p : Position} {around rest : List Node} {n : Node}

theorem enclosing?_of_labels (split : p.above = around ++ n :: rest)
    (labels : ∀ m ∈ around, m.kind.isLabel = true) (other : n.kind.isLabel = false) :
    p.enclosing? = some n.kind := by
  have none : around.find? (!·.kind.isLabel) = none := by simpa using labels
  rw [enclosing?, split, List.find?_append, none, Option.none_or, List.find?_cons, other]
  rfl

theorem enclosing?_ne_root (split : p.above = around ++ n :: rest)
    (labels : ∀ m ∈ around, m.kind.isLabel = true) (other : n.kind.isLabel = false)
    (noRoot : n.kind ≠ .root) : p.enclosing? ≠ some .root := by
  rw [enclosing?_of_labels split labels other]
  exact fun same => noRoot (Option.some.inj same)

theorem label?_of_split (split : p.above = around ++ n :: rest) (other : n.kind.isLabel = false) :
    p.label? = around.head?.bind Node.label? := by
  rw [label?, split]
  cases around with
  | cons m around => rfl
  | nil =>
    obtain ⟨kind, span, inner⟩ := n
    cases kind <;> first | rfl | cases other

end Position

theorem Position.exists_reference_of_markedReference? {p : Position} {m : MarkedReference}
    (h : p.markedReference? = some m) :
    inRewrite p.above = false ∧ ∃ r, p.node.reference? (markInside p.above).isSet = some r ∧
      ⟨r, markInside p.above⟩ = m := by
  cases outside : inRewrite p.above with
  | true => rw [markedReference?_of_inRewrite outside] at h; cases h
  | false =>
    rw [markedReference?_eq outside] at h
    exact ⟨rfl, Option.map_eq_some_iff.mp h⟩

namespace Node

variable {n : Node} {operand : Element}

theorem wrap_cases (wraps : n.kind.isWrapper = true) (operand : Element) :
    (n.kind.isLabel = true ∧ ∃ label, n.wrap operand = .labeled label (some operand)) ∨
      (n.kind = .root ∧ n.wrap operand = .root n.span (some operand)) ∨
        n.kind = .bang ∧ n.wrap operand = .bang n.span (some operand) := by
  obtain ⟨kind, span, inner⟩ := n
  cases kind with
  | assign | plusAssign => exact .inl ⟨rfl, _, rfl⟩
  | root => exact .inr (.inl ⟨rfl, rfl⟩)
  | bang => exact .inr (.inr ⟨rfl, rfl⟩)
  | _ => cases wraps

theorem wrap_ne_reference (wraps : n.kind.isWrapper = true) (r : Reference) :
    n.wrap operand ≠ .reference r := by
  rcases wrap_cases wraps operand with ⟨-, label, made⟩ | ⟨-, made⟩ | ⟨-, made⟩
  all_goals
    rw [made]
    exact nofun

theorem of_wrap_eq_labeled {label : Label} {other : Element} (wraps : n.kind.isWrapper = true)
    (h : n.wrap operand = .labeled label (some other)) :
    n.kind.isLabel = true ∧ n.label? = some label ∧ operand = other := by
  obtain ⟨kind, span, inner⟩ := n
  cases kind with
  | root | bang => cases h
  | assign | plusAssign =>
    cases h
    exact ⟨rfl, rfl, rfl⟩
  | _ => cases wraps

end Node

namespace Reference

variable {r other : Reference} {around : List Node}

theorem allRefs_inside {P : Reference → Prop} (h : P r) : (r.inside around).AllRefs P := by
  induction around using List.reverseRecOn with
  | nil => exact h
  | append_singleton around n ih =>
    rw [inside_concat]
    obtain ⟨kind, span, inner⟩ := n
    cases kind <;> exact ih

theorem inside_eq_reference (wraps : ∀ n ∈ around, n.kind.isWrapper = true)
    (h : r.inside around = .reference other) : around = [] ∧ r = other := by
  rcases List.eq_nil_or_concat around with rfl | ⟨inner, n, rfl⟩
  · cases h
    exact ⟨rfl, rfl⟩
  · rw [List.concat_eq_append, inside_concat] at h
    exact absurd h (Node.wrap_ne_reference (wraps n (by simp)) other)

/-- Around a reference that is allowed as an operand there is at most a label. -/
theorem splitLabel_inside (wraps : ∀ n ∈ around, n.kind.isWrapper = true)
    (h : (r.inside around).IsLabeledReference) :
    (∀ n ∈ around, n.kind.isLabel = true) ∧ r.IsNamed ∧
      (r.inside around).splitLabel = (.reference r, around.head?.bind Node.label?) ∧
        ∀ l, around.head?.bind Node.label? = some l → l.name ≠ none := by
  obtain ⟨other, label, split, isNamed, named⟩ := h
  rcases Element.eq_of_splitLabel split with ⟨same, rfl⟩ | ⟨l, same, rfl⟩
  · obtain ⟨rfl, rfl⟩ := inside_eq_reference wraps same
    exact ⟨nofun, isNamed, rfl, nofun⟩
  · rcases List.eq_nil_or_concat around with rfl | ⟨inner, n, rfl⟩
    · cases same
    · rw [List.concat_eq_append] at wraps same split ⊢
      rw [inside_concat] at same
      obtain ⟨isLabel, label, same⟩ := Node.of_wrap_eq_labeled (wraps n (by simp)) same
      obtain ⟨rfl, rfl⟩ := inside_eq_reference (fun m hm => wraps m (by simp [hm])) same
      rw [List.nil_append] at split ⊢
      rw [split, List.head?_cons, Option.bind_some, label]
      exact ⟨by simpa using isLabel, isNamed, rfl, named⟩

end Reference

/-- A reference that the walk comes to in a rule is an element of an alternative with the labels
and marks that are directly around it. -/
theorem Node.exists_alternative_of_walked {n : Node} {p : Position} (hp : p ∈ n.walked)
    {m : MarkedReference} (hm : p.markedReference? = some m) :
    ∃ alt above, p.above = p.wrappers ++ alt :: above ∧ alt.kind = .alt ∧
      ⟨alt, above⟩ ∈ n.walked ∧
        m.reference.inside p.wrappers ∈ Element.ofForest false alt.inner := by
  obtain ⟨outside, r, hr, rfl⟩ := exists_reference_of_markedReference? hm
  rcases Forest.inRow_or_inAlternative hp outside nofun hr with
    ⟨_, _, _, none⟩ | ⟨around, alt, above, split, wraps, isAlt, hmem, element⟩
  · cases none
  · have same : p.wrappers = around := by
      rw [wrappers, split, List.takeWhile_append_of_pos wraps, List.takeWhile_cons_of_neg]
      · exact List.append_nil around
      · rw [isAlt]
        decide
    rw [same]
    exact ⟨alt, above, split, isAlt, hmem, element⟩

end RecognizerModel
