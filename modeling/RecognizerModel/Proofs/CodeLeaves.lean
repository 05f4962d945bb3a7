import RecognizerModel.Build.Model

/-! The operations of code that hold no others, and the labels on them. -/
namespace RecognizerModel

mutual

/-- The operations at and below an operation that hold no others, depth first. -/
def Op.leaves : Op → List Op
  | .choice ⟨_, _, _, alts, tests, preamble⟩ =>
    Alternative.leavesIn alts ++ (Op.leavesInEach tests ++ Op.leavesIn preamble)
  | .treeRewrite ⟨_, ops⟩ => Op.leavesIn ops
  | .rewriteOptional ⟨_, _, ops⟩ => Op.leavesIn ops
  | .rewriteClosure ⟨_, _, ops⟩ => Op.leavesIn ops
  | .rewriteTree ⟨_, _, root, children⟩ => Op.leavesIn root ++ Op.leavesIn children
  | op => [op]

def Op.leavesIn : List Op → List Op
  | [] => []
  | op :: rest => op.leaves ++ Op.leavesIn rest

def Op.leavesInEach : List (List Op) → List Op
  | [] => []
  | ops :: rest => Op.leavesIn ops ++ Op.leavesInEach rest

def Alternative.leavesIn : List Alternative → List Op
  | [] => []
  | ⟨_, ops⟩ :: rest => Op.leavesIn ops ++ Alternative.leavesIn rest

end

/-- The operations that hold no others in what is seen at a point. -/
def Subject.leaves : (s : Subject) → s.Node → List Op
  | alternative, alt => Op.leavesIn alt.ops
  | choice, c => (Op.choice c).leaves
  | ops, list => Op.leavesIn list
  | treeRewrite, rewrite => (Op.treeRewrite rewrite).leaves
  | rewriteOptional, body => (Op.rewriteOptional body).leaves
  | rewriteClosure, body => (Op.rewriteClosure body).leaves
  | rewriteTree, tree => (Op.rewriteTree tree).leaves
  | _, _ => []

namespace Op

theorem leavesIn_append (ops rest : List Op) :
    leavesIn (ops ++ rest) = leavesIn ops ++ leavesIn rest := by
  induction ops with
  | nil => rfl
  | cons op ops ih => rw [List.cons_append, leavesIn, ih, leavesIn, List.append_assoc]

@[simp] theorem leavesIn_singleton (op : Op) : leavesIn [op] = op.leaves :=
  List.append_nil _

theorem leavesInEach_map_singleton {f : α → Op} (leaf : ∀ a, (f a).leaves = [f a]) (as : List α) :
    leavesInEach (as.map fun a => [f a]) = as.map f := by
  induction as with
  | nil => rfl
  | cons a rest ih =>
      rw [List.map_cons, leavesInEach, ih, leavesIn_singleton, leaf]
      rfl

/-- What carries labels holds no further operations. -/
theorem leaves_of_labels? {op : Op} {labels : List String} (h : op.labels? = some labels) :
    op.leaves = [op] := by
  cases op <;> first | rfl | cases h

/-- The label of which an operation adds what it holds to the tree under construction. -/
def treeLabel? : Op → Option String
  | addLeaf label | becomeRoot label => some label
  | _ => none

/-- The labels of all operations that can carry some, in order. -/
def labelsIn (ops : List Op) : List String :=
  (leavesIn ops).flatMap fun op => op.labels?.getD []

/-- The labels from which trees are built, in order. -/
def treeLabelsIn (ops : List Op) : List String :=
  (leavesIn ops).filterMap treeLabel?

/-- Whether an operation that holds no others builds a tree from a label. -/
structure OnLabel (op : Op) (label : String) : Prop where
  leaf : op.leaves = [op]
  bare : op.labels? = none
  tree : op.treeLabel? = some label

theorem onLabel_addLeaf (label : String) : (addLeaf label).OnLabel label :=
  ⟨rfl, rfl, rfl⟩

theorem onLabel_becomeRoot (label : String) : (becomeRoot label).OnLabel label :=
  ⟨rfl, rfl, rfl⟩

/-- Whether operations carry labels in the given order and build trees from no others. -/
structure Labeled (leaves : List Op) (labels : List String) : Prop where
  carried : leaves.flatMap (fun op => op.labels?.getD []) = labels
  tree : leaves.filterMap treeLabel? ⊆ labels

namespace Labeled

variable {leaves others : List Op} {labels labels' : List String}

theorem nil : Labeled [] [] :=
  ⟨rfl, List.Subset.refl _⟩

theorem append (h : Labeled leaves labels) (h' : Labeled others labels') :
    Labeled (leaves ++ others) (labels ++ labels') where
  carried := by rw [List.flatMap_append, h.carried, h'.carried]
  tree := by
    rw [List.filterMap_append]
    exact List.append_subset.mpr ⟨List.subset_append_of_subset_left _ h.tree,
      List.subset_append_of_subset_right _ h'.tree⟩

/-- An operation that can carry labels builds no tree. -/
theorem of_labels? {op : Op} (h : op.labels? = some labels) : Labeled (leavesIn [op]) labels := by
  rw [leavesIn_singleton, leaves_of_labels? h]
  have none : op.treeLabel? = none := by cases op <;> first | rfl | cases h
  exact ⟨by simp [h], by simp [none]⟩

theorem of_bare {op : Op} (leaf : op.leaves = [op]) (bare : op.labels? = none)
    (none : op.treeLabel? = none) : Labeled (leavesIn [op]) [] := by
  rw [leavesIn_singleton, leaf]
  exact ⟨by simp [bare], by simp [none]⟩

/-- An operation on a label may stand wherever the label is carried. -/
theorem insert {op : Op} {label : String} (on : op.OnLabel label) (held : label ∈ labels)
    (h : Labeled (leaves ++ others) labels) : Labeled (leaves ++ (op.leaves ++ others)) labels where
  carried := by simpa [on.leaf, on.bare] using h.carried
  tree := by
    have tree := h.tree
    rw [List.filterMap_append] at tree
    obtain ⟨before, behind⟩ := List.append_subset.mp tree
    rw [on.leaf, List.filterMap_append, List.singleton_append, List.filterMap_cons, on.tree]
    exact List.append_subset.mpr ⟨before, List.cons_subset.mpr ⟨held, behind⟩⟩

end Labeled

theorem labels?_addLabel_append {op : Op} {labels : List String} (h : op.labels? = some labels)
    (label : String) : (op.addLabel label).labels? = some (labels ++ [label]) := by
  cases op <;> cases h <;> rfl

/-- An operation put behind the label that it is on leaves the labels as they are. -/
theorem Labeled.insertAfterLabel {make : String → Op} (on : ∀ label, (make label).OnLabel label)
    (before : List Op) {ops : List Op} {labels : List String}
    (h : Labeled (before ++ leavesIn ops) labels) :
    Labeled (before ++ leavesIn (RecognizerModel.insertAfterLabel make ops)) labels := by
  induction ops generalizing before with
  | nil => exact h
  | cons op rest ih =>
      unfold RecognizerModel.insertAfterLabel
      rw [leavesIn, ← List.append_assoc] at h
      split
      · next label hlabel =>
        obtain ⟨carried, hcarried, first⟩ := Option.bind_eq_some_iff.mp hlabel
        have held : label ∈ labels := by
          rw [← h.carried, leaves_of_labels? hcarried]
          simp [hcarried, List.mem_of_head? first]
        rw [leavesIn, leavesIn, ← List.append_assoc]
        exact h.insert (on label) held
      · rw [leavesIn, ← List.append_assoc]
        exact ih (before ++ op.leaves) h

end Op

/-- Whether an extension leaves the labels in what it sees as they are and builds trees from no
others. -/
def Extension.KeepsLabels (e : Extension) : Prop :=
  ∀ (p : Point) (node : p.Node) (labels : List String),
    Op.Labeled (p.subject.leaves node) labels →
      Op.Labeled (p.subject.leaves (e.hook p node)) labels

theorem Extension.treeBuilding_keepsLabels : treeBuilding.KeepsLabels := by
  intro p node labels h
  cases p with
  | leafRule | leafToken => exact Op.Labeled.insertAfterLabel Op.onLabel_addLeaf [] h
  | rootRule | rootToken => exact Op.Labeled.insertAfterLabel Op.onLabel_becomeRoot [] h
  | _ => exact h

end RecognizerModel
