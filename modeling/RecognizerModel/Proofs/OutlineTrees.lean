import Mathlib.Algebra.Order.Group.Multiset
import RecognizerModel.Model.Outline
import RecognizerModel.Proofs.BuiltParts

/-! What the lines of an outline stand for. Operations and the headings inside of them form a tree,
and an outline has the items of the tree in order, each at its level of nesting. -/
namespace RecognizerModel

/-- Names behind a text that opens a bracket. -/
def bracketed (lead : String) (names : List String) : String :=
  lead ++ ", ".intercalate names ++ "]"

/-- The line of an operation by itself. -/
def Op.title : Op → String
  | .matchToken name _ labels => s!"match {name}" ++ labelsSuffix labels
  | .invokeRule name _ args labels =>
    s!"invoke {name}" ++ parenthesized "" args ++ labelsSuffix labels
  | .matchLiteral literal _ labels => s!"match {literal}" ++ labelsSuffix labels
  | .action code => s!"action {code}"
  | .forcedAction code => s!"forced-action {code}"
  | .predicate code => s!"sempred {code}"
  | .epsilon => "epsilon"
  | .choice c => choiceTitle c.kind c.decision c.ebnf
  | .testSet _ names => "test " ++ " ".intercalate names
  | .addLeaf label => s!"add-leaf {label}"
  | .becomeRoot label => s!"become-root {label}"
  | .treeRewrite _ => "rewrite"
  | .rewriteOptional r => bracketed "rewrite-optional [" r.referenced
  | .rewriteClosure r => bracketed "rewrite-closure [" r.referenced
  | .rewriteTree _ => "rewrite-tree"
  | .rewriteToken token _ isRoot arg _ _ =>
    s!"rewrite-token {token}" ++ rootMark isRoot ++ parenthesized " " arg
  | .rewriteRule rule isRoot _ _ => s!"rewrite-rule {rule}" ++ rootMark isRoot

/-- What has a line of its own: an operation, or a heading over operations inside of one. -/
inductive OutlineItem where
  | op (operation : Op)
  | alternative (num : Nat)
  | preamble
  | root
  | children

namespace OutlineItem

def title : OutlineItem → String
  | op operation => operation.title
  | alternative num => s!"alt {num}"
  | preamble => "preamble"
  | root => "root"
  | children => "children"

end OutlineItem

/-- An item with what is nested in it. -/
inductive OutlineTree where
  | node (item : OutlineItem) (below : List OutlineTree)

mutual

/-- The items of a tree with their levels, each before those nested in it. -/
def OutlineTree.entries (level : Nat) : OutlineTree → List (Nat × OutlineItem)
  | .node item below => (level, item) :: OutlineTree.entriesIn (level + 1) below

def OutlineTree.entriesIn (level : Nat) : List OutlineTree → List (Nat × OutlineItem)
  | [] => []
  | tree :: rest => tree.entries level ++ OutlineTree.entriesIn level rest

end

mutual

/-- The operations and headings in an operation. -/
def Op.subtrees : Op → List OutlineTree
  | .choice ⟨_, _, _, alts, tests, preamble⟩ =>
    (if preamble.isEmpty then [] else [.node .preamble (Op.trees preamble)]) ++
      Alternative.trees (Choice.testTrees tests) alts
  | .treeRewrite ⟨_, ops⟩ | .rewriteOptional ⟨_, _, ops⟩ | .rewriteClosure ⟨_, _, ops⟩ =>
    Op.trees ops
  | .rewriteTree ⟨_, _, root, children⟩ =>
    .node .root (Op.trees root) ::
      if children.isEmpty then [] else [.node .children (Op.trees children)]
  | _ => []

/-- The trees of operations. -/
def Op.trees : List Op → List OutlineTree
  | [] => []
  | op :: rest => .node (.op op) op.subtrees :: Op.trees rest

def Choice.testTrees : List (List Op) → List (List OutlineTree)
  | [] => []
  | test :: rest => Op.trees test :: Choice.testTrees rest

/-- The alternatives of a choice, each with its test as far as there are tests. -/
def Alternative.trees (tests : List (List OutlineTree)) : List Alternative → List OutlineTree
  | [] => []
  | ⟨num, ops⟩ :: rest =>
    .node (.alternative num) (tests.headD [] ++ Op.trees ops) :: Alternative.trees tests.tail rest

end

namespace OutlineTree

theorem entriesIn_append (level : Nat) (trees others : List OutlineTree) :
    entriesIn level (trees ++ others) = entriesIn level trees ++ entriesIn level others := by
  induction trees with
  | nil => rfl
  | cons tree trees ih => rw [List.cons_append, entriesIn, ih, entriesIn, List.append_assoc]

mutual

theorem entries_add (level deeper : Nat) : ∀ tree : OutlineTree,
    tree.entries (level + deeper) = (tree.entries level).map fun entry => (entry.1 + deeper, entry.2)
  | .node item below => by
      rw [entries, entries, Nat.add_right_comm, entriesIn_add (level + 1) deeper below, List.map_cons]

/-- What stands deeper is the same otherwise. -/
theorem entriesIn_add (level deeper : Nat) : ∀ trees : List OutlineTree,
    entriesIn (level + deeper) trees =
      (entriesIn level trees).map fun entry => (entry.1 + deeper, entry.2)
  | [] => rfl
  | tree :: rest => by
      rw [entriesIn, entriesIn, entries_add level deeper tree, entriesIn_add level deeper rest,
        List.map_append]

end

/-- The items of trees in order. -/
def itemsIn (trees : List OutlineTree) : List OutlineItem :=
  (entriesIn 0 trees).map Prod.snd

@[simp]
theorem itemsIn_nil : itemsIn [] = [] :=
  rfl

@[simp]
theorem itemsIn_cons (item : OutlineItem) (below rest : List OutlineTree) :
    itemsIn (.node item below :: rest) = item :: (itemsIn below ++ itemsIn rest) := by
  rw [itemsIn, entriesIn, entries, entriesIn_add 0 1 below]
  simp [itemsIn, Function.comp_def]

@[simp]
theorem itemsIn_append (trees others : List OutlineTree) :
    itemsIn (trees ++ others) = itemsIn trees ++ itemsIn others := by
  rw [itemsIn, entriesIn_append, List.map_append, itemsIn, itemsIn]

/-- The lines of a row of trees. -/
def linesIn (level : Nat) (trees : List OutlineTree) : List OutlineLine :=
  (entriesIn level trees).map fun entry => ⟨entry.1, entry.2.title⟩

@[simp]
theorem linesIn_nil (level : Nat) : linesIn level [] = [] :=
  rfl

@[simp]
theorem linesIn_cons (level : Nat) (item : OutlineItem) (below rest : List OutlineTree) :
    linesIn level (.node item below :: rest) =
      ⟨level, item.title⟩ :: (linesIn (level + 1) below ++ linesIn level rest) := by
  simp [linesIn, entriesIn, entries]

@[simp]
theorem linesIn_append (level : Nat) (trees others : List OutlineTree) :
    linesIn level (trees ++ others) = linesIn level trees ++ linesIn level others := by
  simp [linesIn, entriesIn_append]

theorem linesIn_add (level deeper : Nat) (trees : List OutlineTree) :
    linesIn (level + deeper) trees =
      (linesIn level trees).map fun line => ⟨line.depth + deeper, line.text⟩ := by
  simp [linesIn, entriesIn_add]

/-- A heading that is left out if nothing stands under it. -/
@[simp]
theorem linesIn_heading (level : Nat) (item : OutlineItem) (ops : List Op) :
    linesIn level (if ops.isEmpty then [] else [.node item (Op.trees ops)]) =
      if ops.isEmpty then [] else ⟨level, item.title⟩ :: linesIn (level + 1) (Op.trees ops) := by
  split <;> simp

end OutlineTree

open OutlineTree

mutual

theorem Op.outline_eq (depth : Nat) : ∀ op : Op,
    op.outline depth = ⟨depth, op.title⟩ :: linesIn (depth + 1) op.subtrees
  | .matchToken .. | .invokeRule .. | .matchLiteral .. | .action _ | .forcedAction _ | .predicate _
  | .epsilon | .testSet .. | .addLeaf _ | .becomeRoot _ | .rewriteToken .. | .rewriteRule .. => rfl
  | .choice ⟨_, _, _, alts, tests, preamble⟩ => by
      have branches := Alternative.outlineAll_eq (depth + 1) (Choice.testTrees tests) alts
      rw [← Choice.outlineTests_eq (depth + 2) tests] at branches
      rw [Op.outline, Choice.outline, Op.outlineAll_eq (depth + 2) preamble, branches, Op.subtrees,
        linesIn_append, linesIn_heading]
      rfl
  | .treeRewrite ⟨_, ops⟩ => by
      rw [Op.outline, TreeRewrite.outline, Op.outlineAll_eq (depth + 1) ops, Op.subtrees]
      rfl
  | .rewriteOptional ⟨_, _, ops⟩ => by
      rw [Op.outline, RewriteOptional.outline, Op.outlineAll_eq (depth + 1) ops, Op.subtrees]
      rfl
  | .rewriteClosure ⟨_, _, ops⟩ => by
      rw [Op.outline, RewriteClosure.outline, Op.outlineAll_eq (depth + 1) ops, Op.subtrees]
      rfl
  | .rewriteTree ⟨_, _, root, children⟩ => by
      rw [Op.outline, RewriteTree.outline, Op.outlineAll_eq (depth + 2) root,
        Op.outlineAll_eq (depth + 2) children, Op.subtrees, linesIn_cons, linesIn_heading]
      rfl

/-- The outline of operations has the items of their trees in order, each at its level. -/
theorem Op.outlineAll_eq (depth : Nat) : ∀ ops : List Op,
    Op.outlineAll depth ops = linesIn depth (Op.trees ops)
  | [] => rfl
  | op :: rest => by
      rw [Op.outlineAll, Op.outline_eq depth op, Op.outlineAll_eq depth rest, Op.trees, linesIn_cons]
      rfl

theorem Choice.outlineTests_eq (depth : Nat) : ∀ tests : List (List Op),
    Choice.outlineTests depth tests = (Choice.testTrees tests).map (linesIn depth)
  | [] => rfl
  | test :: rest => by
      rw [Choice.outlineTests, Op.outlineAll_eq depth test, Choice.outlineTests_eq depth rest]
      rfl

theorem Alternative.outlineAll_eq (depth : Nat) (tests : List (List OutlineTree)) :
    ∀ alts : List Alternative,
      Alternative.outlineAll depth (tests.map (linesIn (depth + 1))) alts =
        linesIn depth (Alternative.trees tests alts)
  | [] => rfl
  | ⟨num, ops⟩ :: rest => by
      have others := Alternative.outlineAll_eq depth tests.tail rest
      rw [Alternative.outlineAll, ← List.map_tail, others, Op.outlineAll_eq (depth + 1) ops]
      cases tests <;> simp [Alternative.trees, OutlineItem.title]

end

/-- The headings of an operation over the operations in it. -/
def Op.headings : Op → List OutlineItem
  | .choice c => (if c.preamble.isEmpty then [] else [.preamble]) ++ c.alts.map (.alternative ·.num)
  | .rewriteTree t => .root :: if t.children.isEmpty then [] else [.children]
  | _ => []

/-- Operations, each with its headings. -/
def Op.itemsOf (ops : List Op) : List OutlineItem :=
  ops.flatMap fun op => .op op :: op.headings

namespace Op

theorem itemsOf_append (ops rest : List Op) : itemsOf (ops ++ rest) = itemsOf ops ++ itemsOf rest :=
  List.flatMap_append

/-- Whether each test of a choice belongs to one of its alternatives. -/
def IsCovered (op : Op) : Prop :=
  ∀ c ∈ op.choice?, c.tests.length ≤ c.alts.length

instance (op : Op) : Decidable op.IsCovered :=
  inferInstanceAs (Decidable (∀ c ∈ op.choice?, c.tests.length ≤ c.alts.length))

/-- An operation stands behind those in it and in front of its headings. -/
theorem perm_of_nested {op : Op} {inner : List Op} {items : List OutlineItem}
    (same : op.nested = inner ++ [op]) (inside : items.Perm (op.headings ++ itemsOf inner)) :
    (.op op :: items).Perm (itemsOf op.nested) := by
  rw [same, itemsOf_append]
  apply (inside.cons _).trans
  have turned : (.op op :: op.headings ++ itemsOf inner).Perm
      (itemsOf inner ++ .op op :: op.headings) := List.perm_append_comm
  simpa [itemsOf] using turned

/-- A heading is there if anything stands under it. -/
theorem itemsIn_heading (item : OutlineItem) (ops : List Op) :
    itemsIn (if ops.isEmpty then [] else [.node item (trees ops)]) =
      (if ops.isEmpty then [] else [item]) ++ itemsIn (trees ops) := by
  cases ops <;> simp [trees]

end Op

theorem Choice.length_testTrees (tests : List (List Op)) :
    (Choice.testTrees tests).length = tests.length := by
  induction tests with
  | nil => rfl
  | cons test rest ih => rw [testTrees, List.length_cons, ih, List.length_cons]

mutual

theorem Op.perm_subtrees : ∀ op : Op, (∀ o ∈ op.nested, o.IsCovered) →
    (.op op :: itemsIn op.subtrees).Perm (Op.itemsOf op.nested)
  | .matchToken .., _ | .invokeRule .., _ | .matchLiteral .., _ | .action _, _ | .forcedAction _, _
  | .predicate _, _ | .epsilon, _ | .testSet .., _ | .addLeaf _, _ | .becomeRoot _, _
  | .rewriteToken .., _ | .rewriteRule .., _ => .refl _
  | .choice ⟨kind, decision, ebnf, alts, tests, preamble⟩, covered => by
      rw [Op.nested, List.forall_mem_append, List.forall_mem_append, List.forall_mem_append] at covered
      obtain ⟨⟨inAlts, inTests, inPreamble⟩, here⟩ := covered
      have short : (Choice.testTrees tests).length ≤ alts.length := by
        rw [Choice.length_testTrees]
        exact here _ (List.mem_singleton_self _) _ rfl
      have before := Op.perm_trees preamble inPreamble
      have testing := Choice.perm_testTrees tests inTests
      have branches := Alternative.perm_trees alts (Choice.testTrees tests) short inAlts
      apply Op.perm_of_nested rfl
      rw [Op.subtrees, itemsIn_append, Op.itemsIn_heading, Op.headings]
      simp only [← Multiset.coe_eq_coe, ← Multiset.coe_add, Op.itemsOf_append] at before testing branches ⊢
      rw [before, branches, testing]
      ac_rfl
  | .treeRewrite ⟨_, ops⟩, covered | .rewriteOptional ⟨_, _, ops⟩, covered
  | .rewriteClosure ⟨_, _, ops⟩, covered => by
      rw [Op.nested, List.forall_mem_append] at covered
      exact Op.perm_of_nested rfl (Op.perm_trees ops covered.1)
  | .rewriteTree ⟨_, _, root, children⟩, covered => by
      rw [Op.nested, List.forall_mem_append, List.forall_mem_append] at covered
      have atRoot := Op.perm_trees root covered.1.1
      have behind := Op.perm_trees children covered.1.2
      apply Op.perm_of_nested rfl
      rw [Op.subtrees, itemsIn_cons, Op.itemsIn_heading, Op.headings, Op.itemsOf_append]
      rw [List.cons_append]
      apply List.Perm.cons
      simp only [← Multiset.coe_eq_coe, ← Multiset.coe_add] at atRoot behind ⊢
      rw [atRoot, behind]
      ac_rfl

theorem Op.perm_trees : ∀ ops : List Op, (∀ o ∈ Op.nestedIn ops, o.IsCovered) →
    (itemsIn (Op.trees ops)).Perm (Op.itemsOf (Op.nestedIn ops))
  | [], _ => .refl _
  | op :: rest, covered => by
      rw [Op.nestedIn, List.forall_mem_append] at covered
      rw [Op.trees, itemsIn_cons, Op.nestedIn, Op.itemsOf_append]
      exact (Op.perm_subtrees op covered.1).append (Op.perm_trees rest covered.2)

theorem Choice.perm_testTrees : ∀ tests : List (List Op),
    (∀ o ∈ Op.nestedInEach tests, o.IsCovered) →
    ((Choice.testTrees tests).flatMap itemsIn).Perm (Op.itemsOf (Op.nestedInEach tests))
  | [], _ => .refl _
  | test :: rest, covered => by
      rw [Op.nestedInEach, List.forall_mem_append] at covered
      rw [Choice.testTrees, List.flatMap_cons, Op.nestedInEach, Op.itemsOf_append]
      exact (Op.perm_trees test covered.1).append (Choice.perm_testTrees rest covered.2)

theorem Alternative.perm_trees : ∀ (alts : List Alternative) (tests : List (List OutlineTree)),
    tests.length ≤ alts.length → (∀ o ∈ Alternative.nestedIn alts, o.IsCovered) →
    (itemsIn (Alternative.trees tests alts)).Perm
      (alts.map (.alternative ·.num) ++
        (tests.flatMap itemsIn ++ Op.itemsOf (Alternative.nestedIn alts)))
  | [], tests, short, _ => by
      cases List.eq_nil_of_length_eq_zero (Nat.le_zero.mp short)
      exact .refl _
  | ⟨num, ops⟩ :: rest, tests, short, covered => by
      rw [Alternative.nestedIn, List.forall_mem_append] at covered
      have inside := Op.perm_trees ops covered.1
      have others := Alternative.perm_trees rest tests.tail (by simp at short ⊢; omega) covered.2
      have split : tests.flatMap itemsIn =
          itemsIn (tests.headD []) ++ tests.tail.flatMap itemsIn := by
        cases tests <;> simp
      rw [Alternative.trees, itemsIn_cons, itemsIn_append, List.map_cons, List.cons_append,
        Alternative.nestedIn, split]
      apply List.Perm.cons
      simp only [← Multiset.coe_eq_coe, ← Multiset.coe_add, Op.itemsOf_append] at inside others ⊢
      rw [inside, others]
      ac_rfl

end

end RecognizerModel
