import RecognizerModel.Proofs.Positions

/-! The parts of a rule that become choices, and those of its rewrites with their levels. They are
found at the positions of the nodes, and in the same order in what is made of the nodes. -/
namespace RecognizerModel

/-- What an operation in a rewrite is made of. -/
inductive RewriteItem where
  /-- The rewrite of an alternative as a whole. -/
  | whole
  | tree
  | optional (referenced : List String)
  | closure (referenced : List String)
  | reference (c : Constituent)
deriving DecidableEq, Repr, Inhabited

/-- A part of a rewrite at its levels. -/
structure RewritePart where
  item : RewriteItem
  treeLevel : Nat
  blockLevel : Nat
deriving DecidableEq, Repr, Inhabited

/-- A part of a rule that becomes an operation around others or at a level. -/
inductive Part where
  /-- A choice between `count` alternatives. -/
  | choice (site : ChoiceSite) (count : Nat)
  | rewrite (part : RewritePart)
deriving DecidableEq, Repr, Inhabited

namespace Part

def choice? : Part → Option (ChoiceSite × Nat)
  | choice site count => some (site, count)
  | rewrite _ => none

def rewrite? : Part → Option RewritePart
  | choice .. => none
  | rewrite part => some part

/-- A choice if there are enough alternatives. -/
def ofCount (least : Nat) (site : ChoiceSite) (count : Nat) : List Part :=
  if least ≤ count then [.choice site count] else []

end Part

namespace Position

/-- What a node is in a rewrite; references are parts of one only inside of it. -/
def item? (p : Position) : Option RewriteItem :=
  match p.node.kind with
  | .rewrite => some .whole
  | .rewriteTree => some .tree
  | .rewriteOptional => some (.optional p.node.referencedNames)
  | .rewriteClosure => some (.closure p.node.referencedNames)
  | .ruleRef | .tokenRef | .stringLiteral =>
    if inRewrite p.above then some (.reference p.node.constituent) else none
  | _ => none

def rewritePart? (p : Position) : Option RewritePart :=
  p.item?.map fun item => ⟨item, p.treeLevel, p.blockLevel⟩

def part? (p : Position) : Option Part :=
  if p.isChoice then some (.choice p.site p.count) else p.rewritePart?.map .rewrite

/-- No choice is made in a rewrite. -/
theorem item?_of_isChoice {p : Position} (h : p.isChoice = true) : p.item? = none := by
  obtain ⟨⟨kind, span, inner⟩, above⟩ := p
  cases kind <;> first | rfl | cases h

theorem choice?_part? (p : Position) :
    p.part?.bind Part.choice? = if p.isChoice then some (p.site, p.count) else none := by
  unfold part?
  split
  · rfl
  · cases p.rewritePart? <;> rfl

theorem rewrite?_part? (p : Position) : p.part?.bind Part.rewrite? = p.rewritePart? := by
  unfold part?
  split
  · next choice =>
    rw [rewritePart?, item?_of_isChoice choice]
    rfl
  · cases p.rewritePart? <;> rfl

theorem part?_of_item? {p : Position} {item : RewriteItem} (choice : p.isChoice = false)
    (h : p.item? = some item) : p.part? = some (.rewrite ⟨item, p.treeLevel, p.blockLevel⟩) := by
  unfold part? rewritePart?
  rw [choice, h]
  rfl

theorem item?_of_reference? {n : Node} {above : List Node} {r : Reference}
    (h : n.reference? false = some r) (inside : inRewrite above = true) :
    item? ⟨n, above⟩ = some (.reference r.constituent) := by
  obtain ⟨kind, span, inner⟩ := n
  cases kind <;> cases h <;> exact if_pos inside

end Position

mutual

/-- The parts of a rewrite element inside of so many blocks and trees, those inside first. -/
def RewriteElement.parts (blocks trees : Nat) : RewriteElement → List RewritePart
  | .reference r => [⟨.reference r.constituent, trees, blocks - 1⟩]
  | .tree _ elements =>
    RewriteElement.partsIn blocks (trees + 1) elements ++ [⟨.tree, trees + 1, blocks - 1⟩]
  | .optional _ referenced elements =>
    RewriteElement.partsIn (blocks + 1) trees elements ++
      [⟨.optional referenced, trees, blocks - 1⟩]
  | .closure _ referenced elements =>
    RewriteElement.partsIn (blocks + 1) trees elements ++ [⟨.closure referenced, trees, blocks - 1⟩]

def RewriteElement.partsIn (blocks trees : Nat) : List RewriteElement → List RewritePart
  | [] => []
  | element :: rest => element.parts blocks trees ++ RewriteElement.partsIn blocks trees rest

end

def Rewrite.parts (blocks trees : Nat) (rewrite : Rewrite) : List RewritePart :=
  RewriteElement.partsIn blocks trees rewrite.elements ++ [⟨.whole, trees, blocks - 1⟩]

mutual

/-- The parts of an element inside of so many blocks and trees, those inside first. -/
def Element.parts (blocks trees : Nat) : Element → List Part
  | .block b => b.parts blocks trees
  | .ebnf kind span decision (some ⟨bodySpan, bodyDecision, alts⟩) =>
    let site := ChoiceSite.ofEbnf kind span decision (some ⟨bodySpan, bodyDecision, alts⟩)
    Alt.partsIn (blocks + 1) trees alts ++ Part.ofCount 1 site alts.length
  | .root _ (some operand) | .bang _ (some operand) | .labeled _ (some operand) =>
    operand.parts blocks trees
  | _ => []

def Element.partsIn (blocks trees : Nat) : List Element → List Part
  | [] => []
  | element :: rest => element.parts blocks trees ++ Element.partsIn blocks trees rest

/-- A block with one alternative is no choice, and what is inside is no deeper for it. -/
def Block.parts (blocks trees : Nat) : Block → List Part
  | ⟨span, decision, alts⟩ =>
    Alt.partsIn (if 2 ≤ alts.length then blocks + 1 else blocks) trees alts ++
      Part.ofCount 2 (.ofBlock ⟨span, decision, alts⟩) alts.length

def Alt.partsIn (blocks trees : Nat) : List Alt → List Part
  | [] => []
  | alt :: rest => alt.parts blocks trees ++ Alt.partsIn blocks trees rest

def Alt.parts (blocks trees : Nat) : Alt → List Part
  | ⟨_, elements, none, _, _⟩ => Element.partsIn blocks trees elements
  | ⟨_, elements, some rewrite, _, _⟩ =>
    Element.partsIn blocks trees elements ++ (rewrite.parts blocks trees).map .rewrite

end

namespace Forest

/-- The parts that the walk comes to in a row. -/
def parts (above : List Node) (slot : Slot) (f : Forest) : List Part :=
  (f.walked above slot).filterMap Position.part?

theorem parts_taken {above : List Node} {slot : Slot} {kind : NodeKind} {span : Span}
    {inner rest : Forest} (taken : slot.takes kind = true) :
    (node kind span inner rest).parts above slot =
      (kind.slots.flatMap fun below => inner.parts (⟨kind, span, inner⟩ :: above) below) ++
        ((Position.part? ⟨⟨kind, span, inner⟩, above⟩).toList ++
          if slot.isSingle then [] else rest.parts above slot) :=
  filterMap_walked_taken Position.part? taken

theorem parts_passed {above : List Node} {slot : Slot} {kind : NodeKind} {span : Span}
    {inner rest : Forest} (passed : slot.takes kind = false) :
    (node kind span inner rest).parts above slot = rest.parts above slot :=
  congrArg (List.filterMap Position.part?) (walked_passed passed)

end Forest

open Position

theorem Alt.length_ofForest (f : Forest) :
    (Alt.ofForest f).length = (f.nodes.filter (·.kind == .alt)).length := by
  induction f with
  | nil => rfl
  | token t rest ih => exact ih
  | node kind span inner rest _ ih =>
      cases kind with
      | alt => simp [Alt.ofForest, Forest.nodes, ih]
      | _ => exact ih

theorem Block.head?_ofForest (f : Forest) : (Block.ofForest f).head? =
    (f.firstNode? .block).map fun n => ⟨n.span, n.inner.decision?, Alt.ofForest n.inner⟩ := by
  induction f with
  | nil => rfl
  | token t rest ih => exact ih
  | node kind span inner rest _ ih =>
      cases kind with
      | block => rfl
      | _ => exact ih

/-- The parts of a rewrite are those at the positions inside of it. -/
theorem RewriteElement.partsIn_ofForest : ∀ (f : Forest) {above : List Node},
    inRewrite above = true → (partsIn (openBlocks above) (openTrees above) (ofForest f)).map
      .rewrite = f.parts above .rewriteElements
  | .nil, _, _ => rfl
  | .token _ rest, _, inside => partsIn_ofForest rest inside
  | .node kind span inner rest, above, inside => by
      have others := partsIn_ofForest rest inside
      have below := partsIn_ofForest inner (inRewrite_cons ⟨kind, span, inner⟩ inside)
      rw [openBlocks_cons, openTrees_cons] at below
      have named {r : Reference} (h : Node.reference? false ⟨kind, span, inner⟩ = some r) :=
        item?_of_reference? h inside
      cases kind with
      | rewriteTree | rewriteOptional | rewriteClosure =>
          rw [Forest.parts_taken rfl, ← others, part?_of_item? rfl rfl]
          simp [ofForest, partsIn, parts, ← below, opensBlock, NodeKind.isEbnf, NodeKind.slots,
            Slot.isSingle, treeLevel, blockLevel, openTrees_cons]
      | ruleRef | tokenRef | stringLiteral =>
          rw [Forest.parts_taken rfl, ← others, part?_of_item? rfl (named rfl)]
          simp [ofForest, partsIn, parts, Node.reference?, NodeKind.slots, Slot.isSingle,
            treeLevel, blockLevel, openTrees_cons]
      | _ => exact others.trans (Forest.parts_passed rfl).symm

/-- Of a row with rewrites the first counts. -/
theorem Rewrite.parts_firstNode? (f : Forest) (above : List Node) :
    ((f.firstNode? .rewrite).map fun n =>
      ((ofNode n).parts (openBlocks above) (openTrees above)).map Part.rewrite).getD [] =
        f.parts above .rewrite := by
  induction f with
  | nil => rfl
  | token t rest ih => exact ih
  | node kind span inner rest _ ih =>
      cases kind with
      | rewrite =>
          have inside : inRewrite (⟨.rewrite, span, inner⟩ :: above) = true := rfl
          have below := RewriteElement.partsIn_ofForest inner inside
          rw [openBlocks_cons, openTrees_cons] at below
          rw [Forest.parts_taken rfl, part?_of_item? rfl rfl]
          simp [Forest.firstNode?, Forest.nodes, ofNode, parts, ← below, opensBlock,
            NodeKind.isEbnf, NodeKind.slots, Slot.isSingle, treeLevel, blockLevel, openTrees_cons]
      | _ => exact ih.trans (Forest.parts_passed rfl).symm

theorem Element.parts_ebnf (blocks trees : Nat) (kind : EbnfKind) (span : Span)
    (decision : Option Nat) (body : Option Block) :
    (ebnf kind span decision body).parts blocks trees = (body.map fun b =>
      Alt.partsIn (blocks + 1) trees b.alts ++
        Part.ofCount 1 (.ofEbnf kind span decision (some b)) b.alts.length).getD [] := by
  rcases body with _ | ⟨bodySpan, bodyDecision, alts⟩ <;> rfl

theorem Element.parts_root (blocks trees : Nat) (span : Span) (operand : Option Element) :
    (root span operand).parts blocks trees = (operand.map (parts blocks trees)).getD [] := by
  cases operand <;> rfl

theorem Element.parts_bang (blocks trees : Nat) (span : Span) (operand : Option Element) :
    (bang span operand).parts blocks trees = (operand.map (parts blocks trees)).getD [] := by
  cases operand <;> rfl

theorem Element.parts_labeled (blocks trees : Nat) (label : Label) (operand : Option Element) :
    (labeled label operand).parts blocks trees = (operand.map (parts blocks trees)).getD [] := by
  cases operand <;> rfl

theorem Alt.parts_eq (blocks trees : Nat) (span : Span) (elements : List Element)
    (rewrite : Option Rewrite) (strangers : List Place) (refs : List String) :
    parts blocks trees ⟨span, elements, rewrite, strangers, refs⟩ =
      Element.partsIn blocks trees elements ++
        (rewrite.map fun rewrite => (rewrite.parts blocks trees).map .rewrite).getD [] := by
  cases rewrite with
  | none => exact (List.append_nil _).symm
  | some rewrite => rfl

/-- Whether what is made of a row has the parts that the walk comes to in it, in an alternative,
under an operator and elsewhere. -/
structure Forest.PartsAgree (f : Forest) : Prop where
  elements {above : List Node} (marked : Bool) : inRewrite above = false →
    inOperator above = false → Element.partsIn (openBlocks above) (openTrees above)
      (Element.ofForest marked f) = f.parts above .elements
  operand {above : List Node} (marked : Bool) : inRewrite above = false →
    inOperator above = false → ((Element.ofForest marked f).head?.map
      (Element.parts (openBlocks above) (openTrees above))).getD [] = f.parts above .operand
  body {above : List Node} : inRewrite above = false → inOperator above = false →
    ((Block.ofForest f).head?.map (Block.parts (openBlocks above) (openTrees above))).getD [] =
      f.parts above .body
  operatorBody {above : List Node} : inRewrite above = false → inOperator above = true →
    ((Block.ofForest f).head?.map fun b =>
      Alt.partsIn (openBlocks above) (openTrees above) b.alts).getD [] = f.parts above .body
  alternatives {above : List Node} : inRewrite above = false →
    Alt.partsIn (openBlocks above) (openTrees above) (Alt.ofForest f) = f.parts above .alternatives

section

variable {above : List Node} {kind : NodeKind} {span : Span} {inner rest : Forest}

/-- A node outside of rewrites is a part of a rule if it is a choice. -/
theorem Position.part?_eq_none (outside : inRewrite above = false) (h : kind.isElement = true)
    (choice : isChoice ⟨⟨kind, span, inner⟩, above⟩ = false) :
    part? ⟨⟨kind, span, inner⟩, above⟩ = none := by
  have none : rewritePart? ⟨⟨kind, span, inner⟩, above⟩ = none := by
    cases kind <;> first | (simp [rewritePart?, item?, outside]; done) | cases h
  rw [part?, choice, none]
  rfl

/-- A block by itself is a choice if it has two alternatives. -/
theorem Block.parts_eq (inside : inner.PartsAgree) (outside : inRewrite above = false)
    (free : inOperator above = false) :
    parts (openBlocks above) (openTrees above) ⟨span, inner.decision?, Alt.ofForest inner⟩ =
      inner.parts (⟨.block, span, inner⟩ :: above) .alternatives ++
        (part? ⟨⟨.block, span, inner⟩, above⟩).toList := by
  have alternatives : (Node.alternatives ⟨.block, span, inner⟩).length =
      (Alt.ofForest inner).length := (Alt.length_ofForest inner).symm
  have count : count ⟨⟨.block, span, inner⟩, above⟩ = (Alt.ofForest inner).length := by
    simp [Position.count, body?, NodeKind.isEbnf, free, alternatives]
  have opens : opensBlock ⟨⟨.block, span, inner⟩, above⟩ =
      decide (2 ≤ (Node.alternatives ⟨.block, span, inner⟩).length) := by
    rw [opensBlock, free]
    rfl
  have below := inside.alternatives (inRewrite_cons_of_ne ⟨.block, span, inner⟩ nofun outside)
  rw [openBlocks_cons, openTrees_cons, opens, alternatives] at below
  by_cases several : 2 ≤ (Alt.ofForest inner).length
  · have choice : isChoice ⟨⟨.block, span, inner⟩, above⟩ = true := by
      simp [isChoice, least, NodeKind.isEbnf, count, several]
    have site : site ⟨⟨.block, span, inner⟩, above⟩ =
        .ofBlock ⟨span, inner.decision?, Alt.ofForest inner⟩ := by
      simp [Position.site, body?, NodeKind.isEbnf, free, ChoiceSite.ofBlock, Node.ebnfKind?,
        Node.place, Block.place]
    simp [parts, several, Part.ofCount, ← below, part?, choice, count, site]
  · have choice : isChoice ⟨⟨.block, span, inner⟩, above⟩ = false := by
      simpa [isChoice, least, NodeKind.isEbnf, count] using several
    simp [parts, several, Part.ofCount, ← below, part?_eq_none outside rfl choice]

/-- An operator is a choice if its block has an alternative. -/
theorem Element.parts_operator (inside : inner.PartsAgree) (outside : inRewrite above = false)
    {op : EbnfKind} (operator : Node.ebnfKind? ⟨kind, span, inner⟩ = some op) :
    (ebnf op span inner.decision? (Block.ofForest inner).head?).parts (openBlocks above)
        (openTrees above) =
      inner.parts (⟨kind, span, inner⟩ :: above) .body ++
        (part? ⟨⟨kind, span, inner⟩, above⟩).toList := by
  obtain ⟨isEbnf, element, rfl⟩ :
      kind.isEbnf = true ∧ kind.isElement = true ∧ op.nodeKind = kind := by
    cases kind <;> cases operator <;> exact ⟨rfl, rfl, rfl⟩
  have other : op.nodeKind ≠ .rewrite := by cases op <;> nofun
  have opens : opensBlock ⟨⟨op.nodeKind, span, inner⟩, above⟩ = true := by
    simp [opensBlock, isEbnf]
  have noTree : (op.nodeKind == .rewriteTree) = false := by cases op <;> rfl
  have below := inside.operatorBody (inRewrite_cons_of_ne ⟨op.nodeKind, span, inner⟩ other outside)
    isEbnf
  rw [openBlocks_cons, openTrees_cons, opens, Block.head?_ofForest] at below
  have body : body? ⟨⟨op.nodeKind, span, inner⟩, above⟩ = inner.firstNode? .block := by
    rw [body?, if_pos isEbnf]
  rw [parts_ebnf, Block.head?_ofForest]
  cases hbody : inner.firstNode? .block with
  | none =>
      have choice : isChoice ⟨⟨op.nodeKind, span, inner⟩, above⟩ = false := by
        simp [isChoice, least, isEbnf, Position.count, body, hbody]
      rw [hbody] at below
      simp [← below, part?_eq_none outside element choice]
  | some m =>
      have count : count ⟨⟨op.nodeKind, span, inner⟩, above⟩ = (Alt.ofForest m.inner).length := by
        simp [Position.count, body, hbody, Node.alternatives, Alt.length_ofForest]
      rw [hbody] at below
      by_cases any : 1 ≤ (Alt.ofForest m.inner).length
      · have choice : isChoice ⟨⟨op.nodeKind, span, inner⟩, above⟩ = true := by
          simpa [isChoice, least, isEbnf, count] using any
        have site : site ⟨⟨op.nodeKind, span, inner⟩, above⟩ = .ofEbnf op span inner.decision?
            (some ⟨m.span, m.inner.decision?, Alt.ofForest m.inner⟩) := by
          simp [Position.site, body, hbody, ChoiceSite.ofEbnf, operator, Node.place]
        simp [← below, noTree, Part.ofCount, any, part?, choice, count, site]
      · have choice : isChoice ⟨⟨op.nodeKind, span, inner⟩, above⟩ = false := by
          simpa [isChoice, least, isEbnf, count] using any
        simp [← below, noTree, Part.ofCount, any, part?_eq_none outside element choice]

/-- A node that is an element has the parts that the walk comes to inside and is at most one more
itself. -/
theorem Element.exists_parts (inside : inner.PartsAgree) (outside : inRewrite above = false)
    (free : inOperator above = false) (h : kind.isElement = true) (marked : Bool) : ∃ e,
      ofForest marked (.node kind span inner rest) = e :: ofForest marked rest ∧
        e.parts (openBlocks above) (openTrees above) =
          (kind.slots.flatMap fun below => inner.parts (⟨kind, span, inner⟩ :: above) below) ++
            (part? ⟨⟨kind, span, inner⟩, above⟩).toList := by
  have operand (mark : Bool) (other : kind ≠ .rewrite) (closed : kind.isEbnf = false)
      (same : openBlocks (⟨kind, span, inner⟩ :: above) = openBlocks above)
      (noTree : kind ≠ .rewriteTree) :
      ((ofForest mark inner).head?.map (parts (openBlocks above) (openTrees above))).getD [] =
        inner.parts (⟨kind, span, inner⟩ :: above) .operand := by
    have below := inside.operand mark
      (inRewrite_cons_of_ne ⟨kind, span, inner⟩ other outside) closed
    rwa [same, openTrees_cons, if_neg (by simpa using noTree)] at below
  cases kind with
  | ruleRef | tokenRef | stringLiteral | action | forcedAction | predicate | epsilon =>
      refine ⟨_, rfl, ?_⟩
      rw [part?_eq_none outside rfl rfl]
      rfl
  | block =>
      refine ⟨_, rfl, ?_⟩
      simp [parts, Block.parts_eq inside outside free, NodeKind.slots]
  | optional | closure | positiveClosure =>
      refine ⟨_, rfl, ?_⟩
      simpa [NodeKind.slots] using parts_operator inside outside rfl
  | root | bang =>
      refine ⟨_, rfl, ?_⟩
      rw [part?_eq_none outside rfl rfl]
      simpa [parts_root, parts_bang, NodeKind.slots] using
        operand true (by decide) rfl (openBlocks_cons _ _) (by decide)
  | assign | plusAssign =>
      refine ⟨_, rfl, ?_⟩
      rw [part?_eq_none outside rfl rfl]
      simpa [parts_labeled, NodeKind.slots] using
        operand marked (by decide) rfl (openBlocks_cons _ _) (by decide)
  | _ => cases h

theorem Forest.PartsAgree.node (inside : inner.PartsAgree) (others : rest.PartsAgree) :
    (Forest.node kind span inner rest).PartsAgree where
  elements {above} marked outside free := by
    cases h : Slot.elements.takes kind with
    | false =>
        rw [Element.ofForest_passed h, parts_passed h]
        exact others.elements marked outside free
    | true =>
        obtain ⟨e, he, same⟩ := Element.exists_parts inside outside free h marked
        rw [he, parts_taken h, Element.partsIn, same, others.elements marked outside free,
          List.append_assoc]
        rfl
  operand {above} marked outside free := by
    cases h : Slot.operand.takes kind with
    | false =>
        rw [Element.ofForest_passed h, parts_passed h]
        exact others.operand marked outside free
    | true =>
        obtain ⟨e, he, same⟩ := Element.exists_parts inside outside free h marked
        rw [he, parts_taken h, ← List.append_assoc, ← same]
        exact (List.append_nil _).symm
  body {above} outside free := by
    cases kind with
    | block =>
        rw [parts_taken rfl]
        simp [Block.ofForest, Block.parts_eq inside outside free, NodeKind.slots, Slot.isSingle]
    | _ => exact (others.body outside free).trans (parts_passed rfl).symm
  operatorBody {above} outside operator := by
    cases kind with
    | block =>
        have below :=
          inside.alternatives (inRewrite_cons_of_ne ⟨.block, span, inner⟩ (by simp) outside)
        rw [openBlocks_cons, openTrees_cons] at below
        have choice : isChoice ⟨⟨.block, span, inner⟩, above⟩ = false := by
          simp [isChoice, least, NodeKind.isEbnf, Position.count, body?, operator]
        rw [parts_taken rfl, part?_eq_none outside rfl choice]
        simpa [Block.ofForest, opensBlock, NodeKind.isEbnf, operator, NodeKind.slots,
          Slot.isSingle] using below
    | _ => exact (others.operatorBody outside operator).trans (parts_passed rfl).symm
  alternatives {above} outside := by
    cases kind with
    | alt =>
        have within := inRewrite_cons_of_ne ⟨.alt, span, inner⟩ (by simp) outside
        have elements := inside.elements false within rfl
        have rewrite := Rewrite.parts_firstNode? inner (⟨.alt, span, inner⟩ :: above)
        have here : part? ⟨⟨.alt, span, inner⟩, above⟩ = none := rfl
        rw [openBlocks_cons, openTrees_cons] at elements rewrite
        rw [parts_taken rfl, here, ← others.alternatives outside]
        simp [Alt.ofForest, Alt.partsIn, Alt.parts_eq, ← elements, ← rewrite, opensBlock,
          NodeKind.isEbnf, NodeKind.slots, Slot.isSingle, Function.comp_def]
    | _ => exact (others.alternatives outside).trans (parts_passed rfl).symm

end

theorem Forest.partsAgree (f : Forest) : f.PartsAgree := by
  induction f with
  | nil => exact ⟨fun _ _ _ => rfl, fun _ _ _ => rfl, fun _ _ => rfl, fun _ _ => rfl, fun _ => rfl⟩
  | token t rest ih => exact ⟨ih.elements, ih.operand, ih.body, ih.operatorBody, ih.alternatives⟩
  | node kind span inner rest inside others => exact inside.node others

/-- What is made of a rule has the parts that the walk comes to inside the rule. -/
theorem Rule.parts_block {n : Node} (rule : n.kind = .rule) :
    ((ofNode n).block.map (Block.parts 0 0)).getD [] = n.walked.filterMap Position.part? := by
  obtain ⟨kind, span, inner⟩ := n
  obtain rfl : kind = .rule := rule
  have outside : inRewrite [⟨.rule, span, inner⟩] = false := rfl
  have body := inner.partsAgree.body outside rfl
  rw [openBlocks_cons, openTrees_cons] at body
  exact body

end RecognizerModel
