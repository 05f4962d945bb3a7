import RecognizerModel.Proofs.Positions

/-! How the references of a rule are marked for the tree that is built from them. A mark is looked
for among the nodes around a reference, and it is also handed down to the reference by the walk. -/
namespace RecognizerModel

/-- What becomes of a reference in the tree under construction. -/
inductive TreeMark where
  | unmarked
  /-- It becomes the root. -/
  | root
  /-- It stays out of the tree. -/
  | bang
deriving DecidableEq, Repr, Inhabited

namespace TreeMark

def isSet (mark : TreeMark) : Bool :=
  mark != .unmarked

/-- The mark directly inside a node that itself has the given mark. -/
def below (mark : TreeMark) : NodeKind → TreeMark
  | .root => .root
  | .bang => .bang
  | .assign | .plusAssign => mark
  | _ => .unmarked

@[simp] theorem isSet_root : isSet .root = true := rfl

@[simp] theorem isSet_bang : isSet .bang = true := rfl

end TreeMark

/-- A reference that is matched, with its mark. -/
structure MarkedReference where
  reference : Reference
  mark : TreeMark
deriving DecidableEq, Repr, Inhabited

/-- Whether the reference was told of its mark. A literal is not. -/
def MarkedReference.IsTold (m : MarkedReference) : Prop :=
  match m.reference with
  | .rule r => r.marked = m.mark.isSet
  | .token t => t.marked = m.mark.isSet
  | .literal _ => True

mutual

/-- The references at or below an element that has the given mark, in order. Those of rewrites are
not matched. -/
def Element.markedReferences (mark : TreeMark) : Element → List MarkedReference
  | .reference r => [⟨r, mark⟩]
  | .block b | .ebnf _ _ _ (some b) => b.markedReferences
  | .root _ (some operand) => operand.markedReferences .root
  | .bang _ (some operand) => operand.markedReferences .bang
  | .labeled _ (some operand) => operand.markedReferences mark
  | _ => []

def Element.markedReferencesIn (mark : TreeMark) : List Element → List MarkedReference
  | [] => []
  | element :: rest => element.markedReferences mark ++ Element.markedReferencesIn mark rest

def Block.markedReferences : Block → List MarkedReference
  | ⟨_, _, alts⟩ => Alt.markedReferencesIn alts

def Alt.markedReferencesIn : List Alt → List MarkedReference
  | [] => []
  | alt :: rest => alt.markedReferences ++ Alt.markedReferencesIn rest

def Alt.markedReferences : Alt → List MarkedReference
  | ⟨_, elements, _, _, _⟩ => Element.markedReferencesIn .unmarked elements

end

namespace Position

/-- The mark that something has inside of nodes, of which the innermost comes first. -/
def markInside (above : List Node) : TreeMark :=
  above.foldr (fun n mark => mark.below n.kind) .unmarked

/-- The reference that is matched at a position, if there is one. -/
def markedReference? (p : Position) : Option MarkedReference :=
  if inRewrite p.above then none
  else (p.node.reference? (markInside p.above).isSet).map fun r => ⟨r, markInside p.above⟩

theorem markedReference?_of_inRewrite {p : Position} (inside : inRewrite p.above = true) :
    p.markedReference? = none :=
  if_pos inside

theorem markedReference?_eq {n : Node} {above : List Node} (outside : inRewrite above = false) :
    markedReference? ⟨n, above⟩ =
      (n.reference? (markInside above).isSet).map fun r => ⟨r, markInside above⟩ :=
  if_neg (by simp [outside])

theorem markInside_cons (n : Node) (above : List Node) :
    markInside (n :: above) = (markInside above).below n.kind := rfl

theorem isTold_of_markedReference? {p : Position} {m : MarkedReference}
    (h : p.markedReference? = some m) : m.IsTold := by
  unfold markedReference? at h
  split at h
  · cases h
  · obtain ⟨⟨kind, span, inner⟩, above⟩ := p
    obtain ⟨r, hr, rfl⟩ := Option.map_eq_some_iff.mp h
    cases kind <;> cases hr <;> first | rfl | trivial

end Position

open Position

namespace Forest

/-- The references that are matched in a row, where the walk comes to them. -/
def matchedIn (above : List Node) (slot : Slot) (f : Forest) : List MarkedReference :=
  (f.walked above slot).filterMap Position.markedReference?

theorem matchedIn_taken {above : List Node} {slot : Slot} {kind : NodeKind} {span : Span}
    {inner rest : Forest} (taken : slot.takes kind = true) :
    (node kind span inner rest).matchedIn above slot =
      (kind.slots.flatMap fun below => inner.matchedIn (⟨kind, span, inner⟩ :: above) below) ++
        ((Position.markedReference? ⟨⟨kind, span, inner⟩, above⟩).toList ++
          if slot.isSingle then [] else rest.matchedIn above slot) :=
  filterMap_walked_taken Position.markedReference? taken

theorem matchedIn_passed {above : List Node} {slot : Slot} {kind : NodeKind} {span : Span}
    {inner rest : Forest} (passed : slot.takes kind = false) :
    (node kind span inner rest).matchedIn above slot = rest.matchedIn above slot :=
  congrArg (List.filterMap Position.markedReference?) (walked_passed passed)

/-- Nothing is matched in a rewrite. -/
theorem matchedIn_of_inRewrite (f : Forest) {above : List Node} (slot : Slot)
    (inside : inRewrite above = true) : f.matchedIn above slot = [] := by
  induction f generalizing above slot with
  | nil => rfl
  | token t rest ih => exact ih slot inside
  | node kind span inner rest ihInner ihRest =>
      cases h : slot.takes kind with
      | false => rw [matchedIn_passed h, ihRest slot inside]
      | true =>
          have below (slot : Slot) : inner.matchedIn (⟨kind, span, inner⟩ :: above) slot = [] :=
            ihInner slot (inRewrite_cons _ inside)
          rw [matchedIn_taken h, markedReference?_of_inRewrite inside, ihRest slot inside]
          simp [below]

theorem matchedIn_rewrite (f : Forest) (above : List Node) : f.matchedIn above .rewrite = [] := by
  induction f with
  | nil => rfl
  | token t rest ih => exact ih
  | node kind span inner rest _ ih =>
      cases kind with
      | rewrite =>
          have inside : inRewrite (⟨.rewrite, span, inner⟩ :: above) = true := rfl
          have here : markedReference? ⟨⟨.rewrite, span, inner⟩, above⟩ = none := ite_self none
          rw [matchedIn_taken rfl, here]
          simp [NodeKind.slots, Slot.isSingle, matchedIn_of_inRewrite inner _ inside]
      | _ => exact (matchedIn_passed rfl).trans ih

end Forest

namespace Element

theorem markedReferences_ebnf (mark : TreeMark) (kind : EbnfKind) (span : Span)
    (decision : Option Nat) (body : Option Block) :
    (ebnf kind span decision body).markedReferences mark =
      (body.map Block.markedReferences).getD [] := by
  cases body <;> rfl

theorem markedReferences_root (mark : TreeMark) (span : Span) (operand : Option Element) :
    (root span operand).markedReferences mark =
      (operand.map (markedReferences .root)).getD [] := by
  cases operand <;> rfl

theorem markedReferences_bang (mark : TreeMark) (span : Span) (operand : Option Element) :
    (bang span operand).markedReferences mark =
      (operand.map (markedReferences .bang)).getD [] := by
  cases operand <;> rfl

theorem markedReferences_labeled (mark : TreeMark) (label : Label) (operand : Option Element) :
    (labeled label operand).markedReferences mark =
      (operand.map (markedReferences mark)).getD [] := by
  cases operand <;> rfl

end Element

/-- Whether the references in what is made of a row, with the marks that are handed down to them,
are those where the walk comes to them, with the marks that they have there. -/
structure Forest.MarksAgree (f : Forest) : Prop where
  elements {above : List Node} : inRewrite above = false →
    Element.markedReferencesIn (markInside above)
      (Element.ofForest (markInside above).isSet f) = f.matchedIn above .elements
  operand {above : List Node} : inRewrite above = false →
    ((Element.ofForest (markInside above).isSet f).head?.map
      (Element.markedReferences (markInside above))).getD [] = f.matchedIn above .operand
  body {above : List Node} : inRewrite above = false →
    ((Block.ofForest f).head?.map Block.markedReferences).getD [] = f.matchedIn above .body
  alternatives {above : List Node} : inRewrite above = false →
    Alt.markedReferencesIn (Alt.ofForest f) = f.matchedIn above .alternatives

section

variable {above : List Node} {kind : NodeKind} {span : Span} {inner rest : Forest}

theorem Position.markedReference?_of_reference? (outside : inRewrite above = false)
    (h : Node.reference? (markInside above).isSet ⟨kind, span, inner⟩ = none) :
    markedReference? ⟨⟨kind, span, inner⟩, above⟩ = none := by
  rw [markedReference?_eq outside, h]
  rfl

theorem Element.exists_markedReferences (inside : inner.MarksAgree)
    (outside : inRewrite above = false) (h : kind.isElement = true) : ∃ e,
      ofForest (markInside above).isSet (.node kind span inner rest) =
          e :: ofForest (markInside above).isSet rest ∧
        e.markedReferences (markInside above) =
          (kind.slots.flatMap fun below => inner.matchedIn (⟨kind, span, inner⟩ :: above) below) ++
            (markedReference? ⟨⟨kind, span, inner⟩, above⟩).toList := by
  have below (other : kind ≠ .rewrite) : inRewrite (⟨kind, span, inner⟩ :: above) = false :=
    inRewrite_cons_of_ne _ other outside
  cases kind with
  | ruleRef | tokenRef | stringLiteral =>
      refine ⟨_, rfl, ?_⟩
      rw [markedReference?_eq outside]
      rfl
  | action | forcedAction | predicate | epsilon =>
      refine ⟨_, rfl, ?_⟩
      rw [markedReference?_of_reference? outside rfl]
      rfl
  | block =>
      refine ⟨_, rfl, ?_⟩
      rw [markedReference?_of_reference? outside rfl]
      simpa [markedReferences, Block.markedReferences, NodeKind.slots] using
        inside.alternatives (below (by decide))
  | optional | closure | positiveClosure =>
      refine ⟨_, rfl, ?_⟩
      rw [markedReference?_of_reference? outside rfl]
      simpa [markedReferences_ebnf, NodeKind.slots] using inside.body (below (by decide))
  | root =>
      refine ⟨_, rfl, ?_⟩
      rw [markedReference?_of_reference? outside rfl]
      simpa [markInside_cons, TreeMark.below, markedReferences_root, NodeKind.slots] using
        inside.operand (below (by decide))
  | bang =>
      refine ⟨_, rfl, ?_⟩
      rw [markedReference?_of_reference? outside rfl]
      simpa [markInside_cons, TreeMark.below, markedReferences_bang, NodeKind.slots] using
        inside.operand (below (by decide))
  | assign | plusAssign =>
      refine ⟨_, rfl, ?_⟩
      rw [markedReference?_of_reference? outside rfl]
      simpa [markInside_cons, TreeMark.below, markedReferences_labeled, NodeKind.slots] using
        inside.operand (below (by decide))
  | _ => cases h

theorem Forest.MarksAgree.node (inside : inner.MarksAgree) (others : rest.MarksAgree) :
    (Forest.node kind span inner rest).MarksAgree where
  elements {above} outside := by
    cases h : Slot.elements.takes kind with
    | false =>
        rw [Element.ofForest_passed h, matchedIn_passed h]
        exact others.elements outside
    | true =>
        obtain ⟨e, he, same⟩ := Element.exists_markedReferences inside outside h
        rw [he, matchedIn_taken h, Element.markedReferencesIn, same, others.elements outside,
          List.append_assoc]
        rfl
  operand {above} outside := by
    cases h : Slot.operand.takes kind with
    | false =>
        rw [Element.ofForest_passed h, matchedIn_passed h]
        exact others.operand outside
    | true =>
        obtain ⟨e, he, same⟩ := Element.exists_markedReferences inside outside h
        rw [he, matchedIn_taken h, ← List.append_assoc, ← same]
        exact (List.append_nil _).symm
  body {above} outside := by
    cases kind with
    | block =>
        have below := inside.alternatives (inRewrite_cons_of_ne ⟨.block, span, inner⟩ (by simp)
          outside)
        rw [matchedIn_taken rfl, markedReference?_of_reference? outside rfl]
        simpa [Block.ofForest, Block.markedReferences, NodeKind.slots, Slot.isSingle] using below
    | _ => exact (others.body outside).trans (matchedIn_passed rfl).symm
  alternatives {above} outside := by
    cases kind with
    | alt =>
        have below := inside.elements (inRewrite_cons_of_ne ⟨.alt, span, inner⟩ (by simp) outside)
        rw [matchedIn_taken rfl, markedReference?_of_reference? outside rfl,
          ← others.alternatives outside]
        simp [Alt.ofForest, Alt.markedReferencesIn, Alt.markedReferences, NodeKind.slots,
          Slot.isSingle, matchedIn_rewrite, ← below]
        rfl
    | _ => exact (others.alternatives outside).trans (matchedIn_passed rfl).symm

end

theorem Forest.marksAgree (f : Forest) : f.MarksAgree := by
  induction f with
  | nil => exact ⟨fun _ => rfl, fun _ => rfl, fun _ => rfl, fun _ => rfl⟩
  | token t rest ih => exact ⟨ih.elements, ih.operand, ih.body, ih.alternatives⟩
  | node kind span inner rest inside others => exact inside.node others

/-- The references that are matched inside of a rule, in order and each with its mark. -/
def Node.markedReferences (n : Node) : List MarkedReference :=
  n.walked.filterMap Position.markedReference?

theorem Rule.markedReferences_block {n : Node} (rule : n.kind = .rule) :
    ((ofNode n).block.map Block.markedReferences).getD [] = n.markedReferences := by
  obtain ⟨kind, span, inner⟩ := n
  obtain rfl : kind = .rule := rule
  have outside : inRewrite [⟨.rule, span, inner⟩] = false := rfl
  exact inner.marksAgree.body outside

theorem Node.isTold_of_mem_markedReferences {n : Node} {m : MarkedReference}
    (h : m ∈ n.markedReferences) : m.IsTold := by
  obtain ⟨p, _, hm⟩ := List.mem_filterMap.mp h
  exact isTold_of_markedReference? hm

end RecognizerModel
