import RecognizerModel.Build.Extension

/-!
Output trees built on the way. Every reference gets a label; one without a mark becomes a leaf, and
one that is marked as the root becomes the new root.
-/
namespace RecognizerModel

/-- Puts an operation on the first label right behind the operation that carries it. Without a label
the list stays as it is. -/
def insertAfterLabel (make : String → Op) : List Op → List Op
  | [] => []
  | op :: rest =>
    match op.label? with
    | some label => op :: make label :: rest
    | none => op :: insertAfterLabel make rest

def Extension.treeBuilding : Extension where
  name := "tree-building"
  hook
    | .leafRule, ops | .leafToken, ops => insertAfterLabel .addLeaf ops
    | .rootToken, ops | .rootRule, ops => insertAfterLabel .becomeRoot ops
    | _, node => node
  wantsLabel _ op := op.labels?.isSome

end RecognizerModel
