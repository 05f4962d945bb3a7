import RecognizerModel.Proofs.ContextFields
import RecognizerModel.Proofs.ReferenceLabels

/-! The fields that are declared for a rule, and what its context keeps of them. Of the fields of a
name it keeps the first. -/
namespace RecognizerModel

namespace Field

/-- The fields of a list without those whose name came before. -/
def firsts : List Field → List Field
  | [] => []
  | field :: rest => field :: (firsts rest).filter (·.name != field.name)

/-- Of the fields of a name the first is kept. -/
theorem filter_firsts (name : String) (fields : List Field) :
    (firsts fields).filter (·.name == name) = (fields.find? (·.name == name)).toList := by
  induction fields with
  | nil => rfl
  | cons field rest ih =>
      by_cases h : field.name = name
      · subst h
        simp [firsts, List.filter_filter]
      · have other : ∀ f : Field, (f.name == name && f.name != field.name) = (f.name == name) := by
          intro f
          by_cases same : f.name = name
          · simp [same, Ne.symm h]
          · simp [same]
        simp [firsts, h, List.filter_filter, other, ih]

theorem any_firsts (name : String) (fields : List Field) :
    (firsts fields).any (·.name == name) = fields.any (·.name == name) := by
  have kept : (∃ f, f ∈ (firsts fields).filter (·.name == name)) ↔
      (fields.find? (·.name == name)).isSome := by
    rw [filter_firsts]
    cases fields.find? (·.name == name) <;> simp
  rw [Bool.eq_iff_iff]
  simpa only [List.any_eq_true, List.mem_filter, List.find?_isSome] using kept

theorem firsts_append (fields more : List Field) :
    firsts (fields ++ more) =
      firsts fields ++ (firsts more).filter fun f => !fields.any (·.name == f.name) := by
  induction fields with
  | nil => simp [firsts]
  | cons field rest ih =>
      rw [List.cons_append, firsts, ih, firsts, List.filter_append, List.filter_filter]
      simp [Bool.not_or, bne, Bool.beq_comm]

theorem mem_names_firsts {name : String} {fields : List Field} :
    name ∈ (firsts fields).map Field.name ↔ name ∈ fields.map Field.name := by
  have same := any_firsts name fields
  rw [Bool.eq_iff_iff, List.any_eq_true, List.any_eq_true] at same
  simpa only [beq_iff_eq, ← List.mem_map] using same

/-- More fields make no difference if their names are there already. -/
theorem firsts_append_eq_iff {fields more : List Field} :
    firsts (fields ++ more) = firsts fields ↔ ∀ f ∈ more, f.name ∈ fields.map Field.name := by
  have known (f : Field) : ¬(!fields.any (·.name == f.name)) = true ↔
      f.name ∈ fields.map Field.name := by simp
  have each (fs : List Field) : (∀ f ∈ fs, f.name ∈ fields.map Field.name) ↔
      ∀ name ∈ fs.map Field.name, name ∈ fields.map Field.name := List.forall_mem_map.symm
  rw [firsts_append, List.append_right_eq_self, List.filter_eq_nil_iff]
  simp only [known]
  rw [each, each]
  simp only [mem_names_firsts]

end Field

open RecognizerModel.Field (firsts)

theorem ContextDecl.fields_declare {ctx : ContextDecl} {fields : List Field}
    (h : ctx.fields = firsts fields) (field : Field) :
    (ctx.declare field).fields = firsts (fields ++ [field]) := by
  unfold declare
  rw [Field.firsts_append, h, Field.any_firsts]
  cases known : fields.any (·.name == field.name) <;> simp [firsts, h, known, -List.any_eq_true]

namespace RuleFunction

/-- The fields of the context; none without a context. -/
def fields (f : RuleFunction) : List Field :=
  (f.context.map ContextDecl.fields).getD []

def declareAll (f : RuleFunction) (fields : List Field) : RuleFunction :=
  fields.foldl declare f

theorem declareAll_append (f : RuleFunction) (fields more : List Field) :
    f.declareAll (fields ++ more) = (f.declareAll fields).declareAll more :=
  List.foldl_append

theorem fields_declareAll {f : RuleFunction} {fields : List Field} (h : f.fields = firsts fields)
    (more : List Field) : (f.declareAll more).fields = firsts (fields ++ more) := by
  induction more generalizing f fields with
  | nil => simpa [declareAll] using h
  | cons field rest ih =>
      have declared : (f.declare field).fields = firsts (fields ++ [field]) := by
        refine ContextDecl.fields_declare ?_ field
        rw [← h, RuleFunction.fields]
        cases f.context <;> rfl
      rw [List.append_cons]
      exact ih declared

theorem ofRule_eq (rule : Rule) (name : String) (index : Nat) :
    ofRule rule name index = { empty name index with
      args := (rule.args.map Attribute.parseList).getD []
      returns := (rule.returns.map Attribute.parseList).getD []
      locals := (rule.locals.map Attribute.parseList).getD []
      context := (ofRule rule name index).context } := by
  obtain ⟨context, h⟩ := exists_declareAttributes { empty name index with
    args := (rule.args.map Attribute.parseList).getD []
    returns := (rule.returns.map Attribute.parseList).getD []
    locals := (rule.locals.map Attribute.parseList).getD [] }
  unfold ofRule
  dsimp only
  rw [h]

/-- A function starts with the attributes of its rule as its fields. -/
theorem fields_ofRule (rule : Rule) (name : String) (index : Nat) :
    (ofRule rule name index).fields = firsts (rule.attributes.map .ofAttribute) := by
  have start : fields { empty name index with
      args := (rule.args.map Attribute.parseList).getD []
      returns := (rule.returns.map Attribute.parseList).getD []
      locals := (rule.locals.map Attribute.parseList).getD [] } = firsts [] := rfl
  have declared := fields_declareAll start (rule.attributes.map .ofAttribute)
  simpa [declareAll, List.foldl_map, ofRule, declareAttributes, Rule.attributes] using declared

theorem finish_eq (f : RuleFunction) (ctxType : String) (postamble : List Op) :
    f.finish ctxType postamble = { f with
      ctxType
      postamble
      context := if f.fields = [] then none else some ⟨ctxType, f.fields⟩ } := by
  unfold finish dropEmptyContext fields
  cases f.context with
  | none => rfl
  | some ctx => cases h : ctx.fields <;> simp [Option.filter, h]

end RuleFunction

namespace Setup

/-- The field that is declared for an operation at a reference: under the explicit label or, for
want of one, under the implicit label if that is needed. -/
def labelField? (setup : Setup) (refs : List String) (span : Span) (op : Op) :
    Option Label → Option Field
  | some label => label.name.map (op.field label.isList ·)
  | none =>
    if setup.labelNeeded refs span op then
      (setup.implicitLabel? op).map (op.field false ·)
    else none

/-- The field that is declared at a site, if there is one. -/
def field? (setup : Setup) (site : ReferenceSite) : Option Field :=
  match setup.plainOp site.reference with
  | .ok op => setup.labelField? site.atHand site.reference.place.span op site.label
  | .error _ => none

end Setup

end RecognizerModel
