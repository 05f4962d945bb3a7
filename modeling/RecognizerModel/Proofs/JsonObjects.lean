import Mathlib.Data.List.Forall2
import RecognizerModel.Json

/-! Equality of JSON values. An object is a map from names to values, so the order of its members
does not count, and of several members with one name only the last does. -/
namespace RecognizerModel

namespace Json

/-- The member of a name. -/
def member? (name : String) : List (String × Json) → Option Json
  | [] => none
  | (key, value) :: rest => (member? name rest).or (if key = name then some value else none)

/-- Equality as JSON: of arrays item by item, of objects member by member. -/
inductive Same : Json → Json → Prop where
  | null : Same null null
  | bool (value : Bool) : Same (bool value) (bool value)
  | int (value : Int) : Same (int value) (int value)
  | str (value : String) : Same (str value) (str value)
  | arr {items others : List Json} (each : List.Forall₂ Same items others) :
      Same (arr items) (arr others)
  | obj {fields others : List (String × Json)}
      (each : ∀ name, Option.Rel Same (member? name fields) (member? name others)) :
      Same (obj fields) (obj others)

/-- No object of the value has two members with one name, however deep it lies. -/
inductive DistinctKeys : Json → Prop where
  | null : DistinctKeys null
  | bool (value : Bool) : DistinctKeys (bool value)
  | int (value : Int) : DistinctKeys (int value)
  | str (value : String) : DistinctKeys (str value)
  | arr {items : List Json} (each : ∀ item ∈ items, DistinctKeys item) : DistinctKeys (arr items)
  | obj {fields : List (String × Json)} (nodup : (fields.map Prod.fst).Nodup)
      (each : ∀ value ∈ fields.map Prod.snd, DistinctKeys value) : DistinctKeys (obj fields)

attribute [simp] DistinctKeys.bool DistinctKeys.int DistinctKeys.str

mutual

theorem Same.refl : ∀ value : Json, value.Same value
  | .null => .null
  | .bool value => .bool value
  | .int value => .int value
  | .str value => .str value
  | .arr items => .arr (Same.refl_items items)
  | .obj fields => .obj (Same.refl_members fields)

theorem Same.refl_items : ∀ items : List Json, List.Forall₂ Same items items
  | [] => .nil
  | item :: rest => .cons (Same.refl item) (Same.refl_items rest)

theorem Same.refl_members : ∀ (fields : List (String × Json)) (name : String),
    Option.Rel Same (member? name fields) (member? name fields)
  | [], _ => .none
  | (key, value) :: rest, name => by
      have others := Same.refl_members rest name
      rw [member?]
      cases h : member? name rest with
      | some found => rwa [h] at others
      | none =>
          split
          · exact .some (Same.refl value)
          · exact .none

end

section

variable {a b : Json} {items others : List Json} {fields gs : List (String × Json)}

@[simp] theorem same_bool_iff {a b : Bool} : (bool a).Same (bool b) ↔ a = b :=
  ⟨fun h => by cases h; rfl, fun h => h ▸ .bool a⟩

@[simp] theorem same_int_iff {a b : Int} : (int a).Same (int b) ↔ a = b :=
  ⟨fun h => by cases h; rfl, fun h => h ▸ .int a⟩

@[simp] theorem same_str_iff {a b : String} : (str a).Same (str b) ↔ a = b :=
  ⟨fun h => by cases h; rfl, fun h => h ▸ .str a⟩

@[simp] theorem same_arr_iff : (arr items).Same (arr others) ↔ List.Forall₂ Same items others :=
  ⟨fun h => by cases h; assumption, .arr⟩

theorem same_null_iff : a.Same null ↔ a = null :=
  ⟨fun h => by cases h; rfl, fun h => h ▸ .null⟩

theorem null_same_iff : null.Same a ↔ a = null :=
  ⟨fun h => by cases h; rfl, fun h => h ▸ .null⟩

theorem member?_eq_none {name : String} (h : name ∉ fields.map Prod.fst) :
    member? name fields = none := by
  induction fields with
  | nil => rfl
  | cons field rest ih =>
      obtain ⟨key, value⟩ := field
      rw [List.map_cons, List.mem_cons, not_or] at h
      rw [member?, ih h.2, if_neg (Ne.symm h.1)]
      rfl

/-- The first member, if its name does not come again. -/
theorem member?_cons_self {name : String} (h : name ∉ fields.map Prod.fst) :
    member? name ((name, a) :: fields) = some a := by
  rw [member?, member?_eq_none h, if_pos rfl]
  rfl

theorem member?_cons_of_ne {name key : String} (h : key ≠ name) :
    member? name ((key, a) :: fields) = member? name fields := by
  rw [member?, if_neg h, Option.or_none]

/-- Members under the same distinct names are the same one by one. -/
theorem forall_rel_member?_iff : ∀ {fields gs : List (String × Json)},
    fields.map Prod.fst = gs.map Prod.fst → (fields.map Prod.fst).Nodup →
    ((∀ name, Option.Rel Same (member? name fields) (member? name gs)) ↔
      List.Forall₂ Same (fields.map Prod.snd) (gs.map Prod.snd))
  | [], [], _, _ => ⟨fun _ => .nil, fun _ _ => .none⟩
  | (key, value) :: fields, (_, other) :: gs, names, nodup => by
      obtain ⟨rfl, others⟩ := List.cons.inj names
      obtain ⟨new, distinct⟩ := List.nodup_cons.mp nodup
      have new' : key ∉ gs.map Prod.fst := others ▸ new
      rw [List.map_cons, List.map_cons, List.forall₂_cons, ← forall_rel_member?_iff others distinct]
      constructor
      · intro each
        have first := each key
        rw [member?_cons_self new, member?_cons_self new'] at first
        refine ⟨by cases first; assumption, fun name => ?_⟩
        by_cases here : key = name
        · rw [← here, member?_eq_none new, member?_eq_none new']
          exact .none
        · simpa only [member?_cons_of_ne here] using each name
      · rintro ⟨first, each⟩ name
        by_cases here : key = name
        · rw [← here, member?_cons_self new, member?_cons_self new']
          exact .some first
        · simpa only [member?_cons_of_ne here] using each name

theorem same_obj_iff (names : fields.map Prod.fst = gs.map Prod.fst)
    (nodup : (fields.map Prod.fst).Nodup) :
    (obj fields).Same (obj gs) ↔ List.Forall₂ Same (fields.map Prod.snd) (gs.map Prod.snd) := by
  rw [← forall_rel_member?_iff names nodup]
  exact ⟨fun h => by cases h; assumption, .obj⟩

end

/-- An encoding that no two values share and whose objects never hold a name twice. -/
structure Faithful (encode : α → Json) : Prop where
  same_iff (a b : α) : (encode a).Same (encode b) ↔ a = b
  distinctKeys (a : α) : (encode a).DistinctKeys

namespace Faithful

theorem of_same {encode : α → Json} (h : ∀ a b, (encode a).Same (encode b) → a = b)
    (distinct : ∀ a, (encode a).DistinctKeys) : Faithful encode :=
  ⟨fun a b => ⟨h a b, fun same => same ▸ Same.refl _⟩, distinct⟩

theorem comp {encode : α → Json} (h : Faithful encode) {f : β → α}
    (injective : Function.Injective f) : Faithful fun b => encode (f b) :=
  ⟨fun _ _ => (h.same_iff _ _).trans injective.eq_iff, fun b => h.distinctKeys (f b)⟩

/-- Objects that all have their members under the same names, if the members tell the values. -/
theorem ofFields (names : List String) {fields : α → List (String × Json)} (nodup : names.Nodup)
    (map_fst : ∀ a, (fields a).map Prod.fst = names)
    (eq_of_same : ∀ a b,
      List.Forall₂ Same ((fields a).map Prod.snd) ((fields b).map Prod.snd) → a = b)
    (distinct : ∀ a, ∀ value ∈ (fields a).map Prod.snd, value.DistinctKeys) :
    Faithful fun a => obj (fields a) := by
  have nodup (a : α) : ((fields a).map Prod.fst).Nodup := map_fst a ▸ nodup
  refine .of_same (fun a b same => eq_of_same a b ?_) fun a => .obj (nodup a) (distinct a)
  exact (same_obj_iff ((map_fst a).trans (map_fst b).symm) (nodup a)).mp same

theorem ofList {encode : α → Json} (h : Faithful encode) : Faithful (ofList encode) where
  same_iff items others := by
    rw [Json.ofList, Json.ofList, same_arr_iff, List.forall₂_map_left_iff,
      List.forall₂_map_right_iff, ← List.forall₂_eq_eq_eq]
    simp only [h.same_iff]
  distinctKeys items := .arr fun item hitem => by
    obtain ⟨a, _, rfl⟩ := List.mem_map.mp hitem
    exact h.distinctKeys a

/-- What may be missing is told apart too, unless its own JSON is that of what is missing. -/
theorem ofOption {encode : α → Json} (h : Faithful encode) (present : ∀ a, encode a ≠ null) :
    Faithful (ofOption encode) where
  same_iff
    | none, none => iff_of_true .null rfl
    | none, some b => iff_of_false (fun same => present b (null_same_iff.mp same)) nofun
    | some a, none => iff_of_false (fun same => present a (same_null_iff.mp same)) nofun
    | some a, some b => (h.same_iff a b).trans Option.some_inj.symm
  distinctKeys
    | none => .null
    | some a => h.distinctKeys a

end Faithful

theorem faithful_str : Faithful str :=
  ⟨fun _ _ => same_str_iff, .str⟩

theorem faithful_int : Faithful int :=
  ⟨fun _ _ => same_int_iff, .int⟩

theorem faithful_ofNat : Faithful ofNat :=
  ⟨fun _ _ => same_int_iff.trans Int.ofNat_inj, fun _ => .int _⟩

/-- How values of several forms are tagged: the name of the member that holds the tag, the tag of
each form and the names of the members beside it. -/
structure Tags (Form : Type) where
  tag : String
  key : Form → String
  names : Form → List String
  injective : Function.Injective key
  nodup : ∀ form, (tag :: names form).Nodup

namespace Tags

variable (t : Tags Form) {a b : Form} {fields others : List (String × Json)}

/-- The object of a form with these members beside the tag. -/
def tagged (form : Form) (fields : List (String × Json)) : Json :=
  obj ((t.tag, str (t.key form)) :: fields)

/-- The tag of an object tells its form. -/
theorem form_eq_of_same (ha : fields.map Prod.fst = t.names a)
    (hb : others.map Prod.fst = t.names b)
    (same : (t.tagged a fields).Same (t.tagged b others)) : a = b := by
  obtain ⟨newA, -⟩ := List.nodup_cons.mp (t.nodup a)
  obtain ⟨newB, -⟩ := List.nodup_cons.mp (t.nodup b)
  cases same with
  | obj each =>
      have keys := each t.tag
      rw [member?_cons_self (ha ▸ newA), member?_cons_self (hb ▸ newB)] at keys
      cases keys with
      | some same => exact t.injective (same_str_iff.mp same)

/-- Tagged objects are the same if they are of one form and their other members are the same. -/
theorem same_iff (ha : fields.map Prod.fst = t.names a) (hb : others.map Prod.fst = t.names b) :
    (t.tagged a fields).Same (t.tagged b others) ↔
      a = b ∧ List.Forall₂ Same (fields.map Prod.snd) (others.map Prod.snd) := by
  have members (form : a = b) : (t.tagged a fields).Same (t.tagged b others) ↔
      List.Forall₂ Same (fields.map Prod.snd) (others.map Prod.snd) := by
    subst form
    rw [tagged, tagged, same_obj_iff (by simp only [List.map_cons, ha, hb])
      (by simpa only [List.map_cons, ha] using t.nodup a)]
    simp
  constructor
  · intro same
    have form := t.form_eq_of_same ha hb same
    exact ⟨form, (members form).mp same⟩
  · rintro ⟨form, each⟩
    exact (members form).mpr each

/-- No member stands under the name of the tag. -/
theorem distinctKeys (h : fields.map Prod.fst = t.names a)
    (each : ∀ value ∈ fields.map Prod.snd, value.DistinctKeys) :
    (t.tagged a fields).DistinctKeys := by
  refine .obj (by simpa only [List.map_cons, h] using t.nodup a) fun value hvalue => ?_
  rcases List.mem_cons.mp hvalue with rfl | inside
  · exact .str _
  · exact each value inside

theorem faithful (form : α → Form) {fields : α → List (String × Json)}
    (names : ∀ a, (fields a).map Prod.fst = t.names (form a))
    (eq_of_same : ∀ a b, form a = form b →
      List.Forall₂ Same ((fields a).map Prod.snd) ((fields b).map Prod.snd) → a = b)
    (distinct : ∀ a, ∀ value ∈ (fields a).map Prod.snd, value.DistinctKeys) :
    Faithful fun a => t.tagged (form a) (fields a) := by
  refine .of_same (fun a b same => ?_) fun a => t.distinctKeys (names a) (distinct a)
  obtain ⟨sameForm, each⟩ := (t.same_iff (names a) (names b)).mp same
  exact eq_of_same a b sameForm each

end Tags

end Json

end RecognizerModel
