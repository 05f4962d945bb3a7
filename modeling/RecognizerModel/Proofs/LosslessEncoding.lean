import RecognizerModel.Model.Encode
import RecognizerModel.Proofs.JsonObjects

/-! The JSON form of a model loses nothing. Which members an object has depends on its form alone,
so the tag and the members of two equal objects are compared one by one, down to the leaves. -/
namespace RecognizerModel

open Json

/-- A key that a value can be read from again belongs to no other value. -/
theorem injective_of_read {key : K → String} (read : String → Option K)
    (h : ∀ k, read (key k) = some k) : Function.Injective key :=
  fun a b same => Option.some.inj ((h a).symm.trans (same ▸ h b))

theorem ChoiceKind.key_injective : Function.Injective key :=
  injective_of_read ofKey? fun
    | ⟨strategy, ebnf⟩ => by cases strategy <;> cases ebnf <;> rfl

theorem EbnfKind.key_injective : Function.Injective key :=
  injective_of_read ofKey? fun kind => by cases kind <;> rfl

theorem OpKind.key_injective : Function.Injective key :=
  injective_of_read ofKey? fun kind => by cases kind <;> rfl

theorem RewriteShape.key_injective : Function.Injective key :=
  injective_of_read ofKey? fun shape => by cases shape <;> rfl

theorem RecognizerKind.name_injective : Function.Injective name := by
  intro a b same
  cases a <;> cases b <;> first | rfl | exact absurd same (by decide)

theorem FieldKind.key_injective : Function.Injective key := by
  intro a b same
  cases a <;> cases b <;> first | rfl | exact absurd same (by decide)

/-! The members that are no objects. -/

theorem faithful_ofStrings : Faithful ofStrings :=
  faithful_str.ofList

theorem faithful_text? : Faithful (ofOption str) :=
  faithful_str.ofOption fun _ => nofun

theorem faithful_decision : Faithful (ofOption ofNat) :=
  faithful_ofNat.ofOption fun _ => nofun

theorem faithful_ebnf : Faithful (ofOption fun kind : EbnfKind => str kind.key) :=
  (faithful_str.comp EbnfKind.key_injective).ofOption fun _ => nofun

@[simp] theorem same_ofNat_iff {m n : Nat} : (ofNat m).Same (ofNat n) ↔ m = n :=
  faithful_ofNat.same_iff m n

@[simp] theorem same_ofStrings_iff {as bs : List String} :
    (ofStrings as).Same (ofStrings bs) ↔ as = bs :=
  faithful_ofStrings.same_iff as bs

@[simp] theorem same_text?_iff {s t : Option String} :
    (ofOption str s).Same (ofOption str t) ↔ s = t :=
  faithful_text?.same_iff s t

@[simp] theorem same_types_iff {as bs : List Int} :
    (ofList int as).Same (ofList int bs) ↔ as = bs :=
  faithful_int.ofList.same_iff as bs

@[simp] theorem distinctKeys_ofNat (n : Nat) : (ofNat n).DistinctKeys :=
  faithful_ofNat.distinctKeys n

@[simp] theorem distinctKeys_ofStrings (as : List String) : (ofStrings as).DistinctKeys :=
  faithful_ofStrings.distinctKeys as

@[simp] theorem distinctKeys_text? (s : Option String) : (ofOption str s).DistinctKeys :=
  faithful_text?.distinctKeys s

@[simp] theorem distinctKeys_types (as : List Int) : (ofList int as).DistinctKeys :=
  faithful_int.ofList.distinctKeys as

/-- The members of an operation beside its tag. -/
def OpKind.memberNames : OpKind → List String
  | matchToken => ["name", "ttype", "labels"]
  | invokeRule => ["name", "ctx_type", "args", "labels"]
  | matchLiteral => ["literal", "ttype", "labels"]
  | action | forcedAction => ["code"]
  | predicate => ["predicate"]
  | epsilon => []
  | choice => ["kind", "decision", "ebnf", "alts", "alt_tests", "preamble"]
  | testSet => ["ttypes", "token_names"]
  | addLeaf | becomeRoot => ["label"]
  | treeRewrite => ["code_block_level", "ops"]
  | rewriteOptional | rewriteClosure => ["code_block_level", "referenced", "ops"]
  | rewriteTree => ["tree_level", "code_block_level", "root", "children"]
  | rewriteToken => ["token", "ttype", "is_root", "arg", "tree_level", "code_block_level"]
  | rewriteRule => ["rule", "is_root", "tree_level", "code_block_level"]

def OpKind.tags : Tags OpKind where
  tag := "op"
  key := key
  names := memberNames
  injective := key_injective
  nodup kind := by cases kind <;> decide

theorem Choice.map_fst_jsonFields (c : Choice) :
    c.jsonFields.map Prod.fst = OpKind.choice.memberNames := by
  cases c
  rfl

theorem TreeRewrite.map_fst_jsonFields (r : TreeRewrite) :
    r.jsonFields.map Prod.fst = OpKind.treeRewrite.memberNames := by
  cases r
  rfl

theorem RewriteOptional.map_fst_jsonFields (r : RewriteOptional) :
    r.jsonFields.map Prod.fst = OpKind.rewriteOptional.memberNames := by
  cases r
  rfl

theorem RewriteClosure.map_fst_jsonFields (r : RewriteClosure) :
    r.jsonFields.map Prod.fst = OpKind.rewriteClosure.memberNames := by
  cases r
  rfl

theorem RewriteTree.map_fst_jsonFields (r : RewriteTree) :
    r.jsonFields.map Prod.fst = OpKind.rewriteTree.memberNames := by
  cases r
  rfl

theorem Op.map_fst_jsonFields (op : Op) : op.jsonFields.map Prod.fst = op.kind.memberNames := by
  cases op with
  | choice c => exact c.map_fst_jsonFields
  | treeRewrite r => exact r.map_fst_jsonFields
  | rewriteOptional r => exact r.map_fst_jsonFields
  | rewriteClosure r => exact r.map_fst_jsonFields
  | rewriteTree r => exact r.map_fst_jsonFields
  | _ => rfl

theorem Alternative.same_iff (alt other : Alternative) : alt.toJson.Same other.toJson ↔
    alt.num = other.num ∧ List.Forall₂ Same (Op.jsonItems alt.ops) (Op.jsonItems other.ops) := by
  have distinct : ["alt_num", "ops"].Nodup := by decide
  refine Iff.trans (same_obj_iff rfl distinct) ?_
  simp [Op.listToJson]

mutual

/-- Operations of one kind are told apart by the members beside the tag. -/
theorem Op.eq_of_same (op other : Op) (same : op.toJson.Same other.toJson) : op = other := by
  obtain ⟨kind, values⟩ :=
    (OpKind.tags.same_iff op.map_fst_jsonFields other.map_fst_jsonFields).mp same
  cases op <;> cases other <;> cases kind
  case choice.choice.refl c c' => exact congrArg Op.choice (Choice.eq_of_same c c' values)
  case treeRewrite.treeRewrite.refl r r' =>
    exact congrArg Op.treeRewrite (TreeRewrite.eq_of_same r r' values)
  case rewriteOptional.rewriteOptional.refl r r' =>
    exact congrArg Op.rewriteOptional (RewriteOptional.eq_of_same r r' values)
  case rewriteClosure.rewriteClosure.refl r r' =>
    exact congrArg Op.rewriteClosure (RewriteClosure.eq_of_same r r' values)
  case rewriteTree.rewriteTree.refl r r' =>
    exact congrArg Op.rewriteTree (RewriteTree.eq_of_same r r' values)
  case epsilon.epsilon.refl => rfl
  all_goals simpa [Op.jsonFields] using values

theorem Op.items_eq_of_same : ∀ ops others : List Op,
    List.Forall₂ Same (Op.jsonItems ops) (Op.jsonItems others) → ops = others
  | [], [], _ => rfl
  | op :: rest, other :: others, .cons first each => by
      rw [Op.eq_of_same op other first, Op.items_eq_of_same rest others each]

theorem Choice.eq_of_same : ∀ c other : Choice,
    List.Forall₂ Same (c.jsonFields.map Prod.snd) (other.jsonFields.map Prod.snd) → c = other
  | ⟨_, _, _, alts, tests, preamble⟩, ⟨_, _, _, alts', tests', preamble'⟩, values => by
      simp only [Choice.jsonFields, List.map_cons, List.map_nil, List.forall₂_cons, same_str_iff,
        ChoiceKind.key_injective.eq_iff, faithful_decision.same_iff, faithful_ebnf.same_iff,
        same_arr_iff] at values
      obtain ⟨rfl, rfl, rfl, halts, htests, hpreamble, -⟩ := values
      rw [Alternative.items_eq_of_same alts alts' halts,
        Choice.tests_eq_of_same tests tests' htests,
        Op.items_eq_of_same preamble preamble' hpreamble]

theorem Choice.tests_eq_of_same : ∀ tests others : List (List Op),
    List.Forall₂ Same (Choice.jsonTests tests) (Choice.jsonTests others) → tests = others
  | [], [], _ => rfl
  | test :: rest, other :: others, .cons first each => by
      rw [Op.items_eq_of_same test other (same_arr_iff.mp first),
        Choice.tests_eq_of_same rest others each]

theorem Alternative.items_eq_of_same : ∀ alts others : List Alternative,
    List.Forall₂ Same (Alternative.jsonItems alts) (Alternative.jsonItems others) → alts = others
  | [], [], _ => rfl
  | [], ⟨_, _⟩ :: _, each => nomatch each
  | ⟨_, ops⟩ :: rest, ⟨_, ops'⟩ :: others, .cons first each => by
      obtain ⟨rfl, hops⟩ := (Alternative.same_iff ⟨_, ops⟩ ⟨_, ops'⟩).mp first
      rw [Op.items_eq_of_same ops ops' hops, Alternative.items_eq_of_same rest others each]

theorem TreeRewrite.eq_of_same : ∀ r other : TreeRewrite,
    List.Forall₂ Same (r.jsonFields.map Prod.snd) (other.jsonFields.map Prod.snd) → r = other
  | ⟨_, ops⟩, ⟨_, ops'⟩, values => by
      simp only [TreeRewrite.jsonFields, List.map_cons, List.forall₂_cons, same_ofNat_iff,
        same_arr_iff] at values
      obtain ⟨rfl, hops, -⟩ := values
      rw [Op.items_eq_of_same ops ops' hops]

theorem RewriteOptional.eq_of_same : ∀ r other : RewriteOptional,
    List.Forall₂ Same (r.jsonFields.map Prod.snd) (other.jsonFields.map Prod.snd) → r = other
  | ⟨_, _, ops⟩, ⟨_, _, ops'⟩, values => by
      simp only [RewriteOptional.jsonFields, List.map_cons, List.forall₂_cons, same_ofNat_iff,
        same_ofStrings_iff, same_arr_iff] at values
      obtain ⟨rfl, rfl, hops, -⟩ := values
      rw [Op.items_eq_of_same ops ops' hops]

theorem RewriteClosure.eq_of_same : ∀ r other : RewriteClosure,
    List.Forall₂ Same (r.jsonFields.map Prod.snd) (other.jsonFields.map Prod.snd) → r = other
  | ⟨_, _, ops⟩, ⟨_, _, ops'⟩, values => by
      simp only [RewriteClosure.jsonFields, List.map_cons, List.forall₂_cons, same_ofNat_iff,
        same_ofStrings_iff, same_arr_iff] at values
      obtain ⟨rfl, rfl, hops, -⟩ := values
      rw [Op.items_eq_of_same ops ops' hops]

theorem RewriteTree.eq_of_same : ∀ r other : RewriteTree,
    List.Forall₂ Same (r.jsonFields.map Prod.snd) (other.jsonFields.map Prod.snd) → r = other
  | ⟨_, _, root, children⟩, ⟨_, _, root', children'⟩, values => by
      simp only [RewriteTree.jsonFields, List.map_cons, List.forall₂_cons, same_ofNat_iff,
        same_arr_iff] at values
      obtain ⟨rfl, rfl, hroot, hchildren, -⟩ := values
      rw [Op.items_eq_of_same root root' hroot, Op.items_eq_of_same children children' hchildren]

end

mutual

/-- The tag of an operation stands under a name of its own, at any depth. -/
theorem Op.distinctKeys_fields : ∀ op : Op, ∀ value ∈ op.jsonFields.map Prod.snd,
    value.DistinctKeys
  | .choice c => Choice.distinctKeys_fields c
  | .treeRewrite r => TreeRewrite.distinctKeys_fields r
  | .rewriteOptional r => RewriteOptional.distinctKeys_fields r
  | .rewriteClosure r => RewriteClosure.distinctKeys_fields r
  | .rewriteTree r => RewriteTree.distinctKeys_fields r
  | .matchToken .. | .invokeRule .. | .matchLiteral .. | .action _ | .forcedAction _
  | .predicate _ | .epsilon | .testSet .. | .addLeaf _ | .becomeRoot _ | .rewriteToken ..
  | .rewriteRule .. => by simp [Op.jsonFields]

theorem Op.distinctKeys_items : ∀ ops : List Op, ∀ item ∈ Op.jsonItems ops, item.DistinctKeys
  | [] => by simp [Op.jsonItems]
  | op :: rest => List.forall_mem_cons.mpr
      ⟨OpKind.tags.distinctKeys op.map_fst_jsonFields (Op.distinctKeys_fields op),
        Op.distinctKeys_items rest⟩

theorem Choice.distinctKeys_fields : ∀ c : Choice, ∀ value ∈ c.jsonFields.map Prod.snd,
    value.DistinctKeys
  | ⟨_, decision, ebnf, alts, tests, preamble⟩ => by
      simpa [Choice.jsonFields] using ⟨faithful_decision.distinctKeys decision,
        faithful_ebnf.distinctKeys ebnf, .arr (Alternative.distinctKeys_items alts),
        .arr (Choice.distinctKeys_tests tests), .arr (Op.distinctKeys_items preamble)⟩

theorem Choice.distinctKeys_tests : ∀ tests : List (List Op), ∀ test ∈ Choice.jsonTests tests,
    test.DistinctKeys
  | [] => by simp [Choice.jsonTests]
  | test :: rest => List.forall_mem_cons.mpr
      ⟨.arr (Op.distinctKeys_items test), Choice.distinctKeys_tests rest⟩

theorem Alternative.distinctKeys_items : ∀ alts : List Alternative,
    ∀ item ∈ Alternative.jsonItems alts, item.DistinctKeys
  | [] => by simp [Alternative.jsonItems]
  | ⟨_, ops⟩ :: rest => List.forall_mem_cons.mpr
      ⟨.obj (by simp) (by simpa using .arr (Op.distinctKeys_items ops)),
        Alternative.distinctKeys_items rest⟩

theorem TreeRewrite.distinctKeys_fields : ∀ r : TreeRewrite, ∀ value ∈ r.jsonFields.map Prod.snd,
    value.DistinctKeys
  | ⟨_, ops⟩ => by
      simpa [TreeRewrite.jsonFields] using .arr (Op.distinctKeys_items ops)

theorem RewriteOptional.distinctKeys_fields : ∀ r : RewriteOptional,
    ∀ value ∈ r.jsonFields.map Prod.snd, value.DistinctKeys
  | ⟨_, _, ops⟩ => by
      simpa [RewriteOptional.jsonFields] using .arr (Op.distinctKeys_items ops)

theorem RewriteClosure.distinctKeys_fields : ∀ r : RewriteClosure,
    ∀ value ∈ r.jsonFields.map Prod.snd, value.DistinctKeys
  | ⟨_, _, ops⟩ => by
      simpa [RewriteClosure.jsonFields] using .arr (Op.distinctKeys_items ops)

theorem RewriteTree.distinctKeys_fields : ∀ r : RewriteTree, ∀ value ∈ r.jsonFields.map Prod.snd,
    value.DistinctKeys
  | ⟨_, _, root, children⟩ => by
      simpa [RewriteTree.jsonFields] using
        ⟨.arr (Op.distinctKeys_items root), .arr (Op.distinctKeys_items children)⟩

end

/-! The objects of a model, from operations up to files. -/

theorem Op.faithful : Faithful Op.toJson :=
  .of_same Op.eq_of_same fun op =>
    OpKind.tags.distinctKeys op.map_fst_jsonFields (Op.distinctKeys_fields op)

/-- Two kinds with the same members are told apart by their tags alone. -/
example : ¬(Op.action "f();").toJson.Same (Op.forcedAction "f();").toJson :=
  fun same => nomatch (Op.faithful.same_iff _ _).mp same

theorem Op.faithful_list : Faithful Op.listToJson :=
  .of_same (fun ops others same => Op.items_eq_of_same ops others (same_arr_iff.mp same))
    fun ops => .arr (Op.distinctKeys_items ops)

theorem Choice.faithful : Faithful Choice.toJson :=
  .ofFields OpKind.choice.memberNames (by decide) map_fst_jsonFields eq_of_same distinctKeys_fields

/-- Rewrites are tagged with their shape. -/
def RewriteShape.tags : Tags RewriteShape where
  tag := "shape"
  key := key
  names
    | optional => OpKind.rewriteOptional.memberNames
    | closure => OpKind.rewriteClosure.memberNames
    | tree => OpKind.rewriteTree.memberNames
  injective := key_injective
  nodup shape := by cases shape <;> decide

theorem ShapedRewrite.faithful : Faithful ShapedRewrite.toJson := by
  refine RewriteShape.tags.faithful shape (fun r => ?_) (fun r r' shape values => ?_) fun r => ?_
  · cases r with
    | optional body => exact body.map_fst_jsonFields
    | closure body => exact body.map_fst_jsonFields
    | tree t => exact t.map_fst_jsonFields
  · cases r <;> cases r' <;> cases shape
    case optional.optional.refl body body' =>
      exact congrArg optional (RewriteOptional.eq_of_same body body' values)
    case closure.closure.refl body body' =>
      exact congrArg closure (RewriteClosure.eq_of_same body body' values)
    case tree.tree.refl t t' => exact congrArg tree (RewriteTree.eq_of_same t t' values)
  · cases r with
    | optional body => exact body.distinctKeys_fields
    | closure body => exact body.distinctKeys_fields
    | tree t => exact t.distinctKeys_fields

theorem Attribute.faithful : Faithful Attribute.toJson := by
  refine .ofFields ["name", "type_name"] (by decide) (fun _ => rfl) (fun a b values => ?_) ?_
  · cases a
    cases b
    simpa using values
  · simp

theorem Field.faithful : Faithful Field.toJson := by
  refine .ofFields ["kind", "name", "type_name"] (by decide) (fun _ => rfl) (fun a b values => ?_) ?_
  · cases a
    cases b
    simpa [FieldKind.key_injective.eq_iff] using values
  · simp

theorem ContextDecl.faithful : Faithful ContextDecl.toJson := by
  refine .ofFields ["name", "fields"] (by decide) (fun _ => rfl) (fun a b values => ?_) fun a => ?_
  · cases a
    cases b
    simpa [Field.faithful.ofList.same_iff] using values
  · simp [Field.faithful.ofList.distinctKeys]

theorem RuleFunction.faithful : Faithful RuleFunction.toJson := by
  have attributes := Attribute.faithful.ofList
  have context := ContextDecl.faithful.ofOption fun _ => nofun
  refine .ofFields ["name", "index", "ctx_type", "args", "returns", "locals", "code", "postamble",
    "rule_ctx"] (by decide) (fun _ => rfl) (fun f g values => ?_) fun f => ?_
  · cases f
    cases g
    simpa [attributes.same_iff, Op.faithful_list.same_iff, context.same_iff] using values
  · simp [attributes.distinctKeys, Op.faithful_list.distinctKeys, context.distinctKeys]

/-- Tables of rules are tagged with the recognizer that they are of. -/
def RecognizerKind.tags : Tags RecognizerKind where
  tag := "kind"
  key := name
  names
    | parser => ["name", "token_names", "rule_names", "members", "funcs"]
    | lexer => ["name", "token_names", "rule_names", "modes"]
  injective := name_injective
  nodup kind := by cases kind <;> decide

theorem Recognizer.faithful : Faithful Recognizer.toJson := by
  have funcs := RuleFunction.faithful.ofList
  refine RecognizerKind.tags.faithful kind (fun r => ?_) (fun r r' kind values => ?_) fun r => ?_
  · cases r <;> rfl
  · cases r <;> cases r' <;> cases kind
    case parser.parser.refl table table' =>
      cases table
      cases table'
      simpa [ParserTable.jsonFields, funcs.same_iff] using values
    case lexer.lexer.refl table table' =>
      cases table
      cases table'
      simpa [LexerTable.jsonFields] using values
  · cases r with
    | parser table => simp [ParserTable.jsonFields, funcs.distinctKeys]
    | lexer table => simp [LexerTable.jsonFields]

theorem RecognizerFile.faithful : Faithful RecognizerFile.toJson := by
  refine .ofFields ["file_name", "grammar_name", "header", "recognizer"] (by decide) (fun _ => rfl)
    (fun a b values => ?_) fun a => ?_
  · cases a
    cases b
    simpa [Recognizer.faithful.same_iff] using values
  · simp [Recognizer.faithful.distinctKeys]

/-- The JSON of a model tells everything: two files, functions, lists of operations, choices,
rewrites or fields are equal if their JSON is, objects taken as maps. No object has two
members with one name, so no tag hides a member, and no two forms share a tag. -/
theorem faithful_model :
    (Faithful RecognizerFile.toJson ∧ Faithful RuleFunction.toJson ∧ Faithful Op.listToJson ∧
      Faithful Choice.toJson ∧ Faithful ShapedRewrite.toJson ∧ Faithful Field.toJson) ∧
    Function.Injective OpKind.key ∧ Function.Injective RewriteShape.key ∧
      Function.Injective RecognizerKind.name :=
  ⟨⟨RecognizerFile.faithful, RuleFunction.faithful, Op.faithful_list, Choice.faithful,
    ShapedRewrite.faithful, Field.faithful⟩, OpKind.key_injective,
    RewriteShape.key_injective, RecognizerKind.name_injective⟩

end RecognizerModel
