import Mathlib.Data.List.Induction
import RecognizerModel.Proofs.DeclaredFields

/-! The context of a rule function over its whole history. However often it is dropped and comes
back, it holds what was declared, each name as it was declared first. -/
namespace RecognizerModel

namespace Field

theorem find?_firsts (name : String) (fields : List Field) :
    (firsts fields).find? (·.name == name) = fields.find? (·.name == name) := by
  rw [← List.head?_filter, filter_firsts]
  cases fields.find? (·.name == name) <;> rfl

theorem nodup_names_firsts (fields : List Field) : ((firsts fields).map Field.name).Nodup := by
  induction fields with
  | nil => exact List.nodup_nil
  | cons field rest ih =>
      rw [firsts, List.map_cons, List.nodup_cons]
      refine ⟨?_, ih.sublist (List.filter_sublist.map _)⟩
      rw [List.mem_map]
      rintro ⟨other, h, same⟩
      have differs := (List.mem_filter.mp h).2
      simp [same] at differs

theorem firsts_eq_nil_iff {fields : List Field} : firsts fields = [] ↔ fields = [] := by
  cases fields <;> simp [firsts]

end Field

open RecognizerModel.Field (firsts)

/-- What may be done to the context of a rule function. -/
inductive ContextStep where
  | declare (field : Field)
  | dropEmpty
  | setType (ctxType : String)
deriving DecidableEq

namespace ContextStep

def apply (f : RuleFunction) : ContextStep → RuleFunction
  | declare field => f.declare field
  | dropEmpty => f.dropEmptyContext
  | setType ctxType => { f with ctxType }

def field? : ContextStep → Option Field
  | declare field => some field
  | dropEmpty | setType _ => none

/-- All fields that are declared, in the order of their declaration. -/
def declared (steps : List ContextStep) : List Field :=
  steps.filterMap field?

theorem declared_append_singleton (steps : List ContextStep) (step : ContextStep) :
    declared (steps ++ [step]) = declared steps ++ step.field?.toList := by
  rw [declared, declared, List.filterMap_append]
  cases h : step.field? <;> simp [h]

end ContextStep

namespace RuleFunction

open ContextStep

def after (f : RuleFunction) (steps : List ContextStep) : RuleFunction :=
  steps.foldl ContextStep.apply f

theorem fields_dropEmptyContext (f : RuleFunction) : f.dropEmptyContext.fields = f.fields := by
  unfold dropEmptyContext fields
  cases f.context with
  | none => rfl
  | some ctx => cases h : ctx.fields <;> simp [Option.filter, h]

theorem fields_apply {f : RuleFunction} {fields : List Field} (h : f.fields = firsts fields)
    (step : ContextStep) : (step.apply f).fields = firsts (fields ++ step.field?.toList) := by
  cases step with
  | declare field => exact fields_declareAll h [field]
  | dropEmpty =>
      rw [field?, Option.toList_none, List.append_nil, ← h]
      exact fields_dropEmptyContext f
  | setType ctxType =>
      rw [field?, Option.toList_none, List.append_nil, ← h]
      rfl

/-- Only a context without fields is dropped, and it is back with the next field. -/
theorem context_apply_eq_none_iff {f : RuleFunction} {step : ContextStep} :
    (step.apply f).context = none ↔
      step.field? = none ∧ (f.context = none ∨ step = .dropEmpty ∧ f.fields = []) := by
  cases step with
  | declare field => simp [apply, field?, RuleFunction.declare]
  | dropEmpty =>
      unfold apply dropEmptyContext fields
      cases f.context with
      | none => simp [field?]
      | some ctx => simp [field?]
  | setType ctxType => simp [apply, field?]

variable (name : String) (index : Nat) (steps : List ContextStep)

theorem after_append_singleton (f : RuleFunction) (step : ContextStep) :
    f.after (steps ++ [step]) = step.apply (f.after steps) := by
  simp [after]

theorem fields_after : ((empty name index).after steps).fields = firsts (declared steps) := by
  induction steps using List.reverseRecOn with
  | nil => rfl
  | append_singleton steps step ih =>
      rw [after_append_singleton, fields_apply ih, declared_append_singleton]

theorem context_after_eq_none_iff : ((empty name index).after steps).context = none ↔
    declared steps = [] ∧ .dropEmpty ∈ steps := by
  induction steps using List.reverseRecOn with
  | nil => simp [after, empty]
  | append_singleton steps step ih =>
      rw [after_append_singleton, context_apply_eq_none_iff, ih, fields_after,
        Field.firsts_eq_nil_iff, declared_append_singleton, List.append_eq_nil_iff,
        Option.toList_eq_nil_iff, List.mem_append, List.mem_singleton, eq_comm (a := step)]
      tauto

theorem get?_after (fieldName : String) :
    ((empty name index).after steps).context.bind (·.get? fieldName) =
      (declared steps).find? (·.name == fieldName) := by
  rw [← Field.find?_firsts, ← fields_after name index]
  unfold fields ContextDecl.get?
  cases ((empty name index).after steps).context <;> rfl

/-- Whatever is done to the context of a new rule function, and in whatever order, it has the fields
that were declared, the first of each name, and finds a name as it was declared first. It is gone
exactly if nothing was ever declared and it was dropped. -/
theorem context_of_history :
    ((empty name index).after steps).fields = firsts (declared steps) ∧
      (((empty name index).after steps).fields.map Field.name).Nodup ∧
      (∀ fieldName, ((empty name index).after steps).context.bind (·.get? fieldName) =
        (declared steps).find? (·.name == fieldName)) ∧
      (((empty name index).after steps).context = none ↔
        declared steps = [] ∧ .dropEmpty ∈ steps) := by
  refine ⟨fields_after name index steps, ?_, get?_after name index steps,
    context_after_eq_none_iff name index steps⟩
  rw [fields_after]
  exact Field.nodup_names_firsts _

/-- The context is dropped, comes back with its first field and keeps it. -/
example : ((empty "a" 0).after [.dropEmpty, .setType "AContext", .declare (.token "x"),
      .dropEmpty, .declare (.tokenList "x"), .declare (.tokenList "y")]).fields =
    [.token "x", .tokenList "y"] := by
  decide

end RuleFunction

end RecognizerModel
