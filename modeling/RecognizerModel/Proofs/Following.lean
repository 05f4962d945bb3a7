import RecognizerModel.Proofs.Translation

/-! Jobs that do what a translation says. A job follows a translation if from every state that
stands where the translation was made it answers the same and leaves things as they stood, but for
the alternative at hand. -/
namespace RecognizerModel

/-- Whether construction stands at a spot inside a rule. -/
structure Context.StandsAt (c : Context) (spot : Spot) : Prop where
  rules : c.rules ≠ []
  refs : (c.alt.map CurrentAlt.refs).getD [] = spot.refs
  levels : c.blocks.map OpenBlock.level = (List.range spot.blocks).reverse
  treeLevel : c.treeLevel = spot.trees

namespace Context.StandsAt

variable {c : Context} {spot : Spot}

theorem refersTo (h : c.StandsAt spot) (name : String) :
    c.alt.any (·.refersTo name) = spot.refs.contains name := by
  rw [← h.refs]
  cases c.alt <;> rfl

theorem length_blocks (h : c.StandsAt spot) : c.blocks.length = spot.blocks := by
  have lengths := congrArg List.length h.levels
  simpa using lengths

theorem blockLevel_eq (h : c.StandsAt spot) : c.blockLevel = spot.blockLevel := by
  have levels := h.levels
  unfold Context.blockLevel Spot.blockLevel
  cases hblocks : c.blocks with
  | nil =>
      have none := h.length_blocks
      rw [hblocks] at none
      rw [← none]
      rfl
  | cons block rest =>
      have some := h.length_blocks
      rw [hblocks] at some
      rw [hblocks, ← some, List.length_cons, List.range_succ, List.reverse_append] at levels
      rw [← some, List.length_cons, Nat.add_sub_cancel]
      exact (List.cons.inj levels).1

theorem pushBlock (h : c.StandsAt spot) (decision : Option Nat) :
    (c.pushBlock decision).StandsAt spot.inBlock where
  rules := h.rules
  refs := h.refs
  levels := by
    simp only [Context.pushBlock, Context.nextBlock, Spot.inBlock, List.map_cons, h.levels,
      h.length_blocks, List.range_succ, List.reverse_append, List.reverse_singleton,
      List.singleton_append]
  treeLevel := h.treeLevel

theorem popBlock (h : c.StandsAt spot.inBlock) : c.popBlock.StandsAt spot where
  rules := h.rules
  refs := h.refs
  levels := by
    have levels := congrArg List.tail h.levels
    simpa [Spot.inBlock, List.range_succ, Context.popBlock] using levels
  treeLevel := h.treeLevel

/-- Behind a choice the alternative in front of it is at hand. -/
theorem leaveChoice {before : Context} {refs : List String}
    (h : c.StandsAt { spot.inBlock with refs }) (hbefore : before.StandsAt spot) :
    { c.popBlock with alt := before.alt }.StandsAt spot := by
  have inside : c.StandsAt ({ spot with refs } : Spot).inBlock := h
  exact ⟨h.rules, hbefore.refs, inside.popBlock.levels, h.treeLevel⟩

theorem enterTree (h : c.StandsAt spot) : c.enterTree.StandsAt spot.inTree :=
  ⟨h.rules, h.refs, h.levels, congrArg (· + 1) h.treeLevel⟩

theorem exitTree (h : c.StandsAt spot.inTree) : c.exitTree.StandsAt spot :=
  ⟨h.rules, h.refs, h.levels, congrArg (· - 1) h.treeLevel⟩

end Context.StandsAt

namespace Job

/-- Whether a run came to what a translation says, and to a spot if it came to an end. -/
def Reaches (run : Except Failure α × JobState) (spot : Spot) : Translated α → Prop
  | .ok a => run.1 = .ok a ∧ run.2.context.StandsAt spot
  | .error construct => run.1 = .error (.malformed construct)

/-- Whether a job does what a translation says of a spot; `refs` are the names referred to by the
alternative that is at hand afterwards. -/
def Follows (job : Job α) (spot : Spot) (result : Translated α) (refs : List String) : Prop :=
  ∀ s, s.context.StandsAt spot → Reaches (job s) { spot with refs } result

variable {spot : Spot} {refs : List String}

theorem follows_pure (a : α) : (Pure.pure a : Job α).Follows spot (.ok a) spot.refs :=
  fun _ h => ⟨rfl, h⟩

theorem follows_malformed (place : Place) (p : Option Point) (detail : String) :
    (Job.malformed place p detail : Job α).Follows spot
      (RecognizerModel.malformed place p detail) refs :=
  fun _ _ => rfl

theorem Follows.bind_of_ok {job : Job α} {next : α → Job β} {result : Translated α}
    {f : α → Translated β} {between : List String} (hjob : job.Follows spot result between)
    (hnext : ∀ a, result = .ok a → (next a).Follows { spot with refs := between } (f a) refs) :
    (job >>= next).Follows spot (result >>= f) refs := by
  intro s stands
  have first := hjob s stands
  rw [bind_run]
  rcases hrun : job s with ⟨answer, t⟩
  rw [hrun] at first
  cases result with
  | ok a =>
      obtain ⟨rfl, stands'⟩ := first
      exact hnext a rfl t stands'
  | error construct =>
      obtain rfl : answer = _ := first
      rfl

theorem Follows.bind {job : Job α} {next : α → Job β} {result : Translated α}
    {f : α → Translated β} {between : List String} (hjob : job.Follows spot result between)
    (hnext : ∀ a, (next a).Follows { spot with refs := between } (f a) refs) :
    (job >>= next).Follows spot (result >>= f) refs :=
  hjob.bind_of_ok fun a _ => hnext a

/-- A step of which it is known what it answers. -/
theorem Follows.step {job : Job α} {next : α → Job β} {a : α} {result : Translated β}
    {between : List String} (hjob : job.Follows spot (.ok a) between)
    (hnext : (next a).Follows { spot with refs := between } result refs) :
    (job >>= next).Follows spot result refs := by
  refine hjob.bind_of_ok (f := fun _ => result) fun b h => ?_
  cases h
  exact hnext

/-- A job that reads where it stands. -/
theorem follows_context {next : Context → Job α} {result : Translated α}
    (h : ∀ c, c.StandsAt spot → (next c).Follows spot result refs) :
    (Job.context >>= next).Follows spot result refs :=
  fun s stands => h s.context stands s stands

theorem follows_modifyContext {change : Context → Context}
    (h : ∀ c, c.StandsAt spot → (change c).StandsAt { spot with refs }) :
    (Job.modifyContext change).Follows spot (.ok ()) refs :=
  fun _ stands => ⟨rfl, h _ stands⟩

theorem follows_declare (field : Field) :
    (Job.modifyRule (·.declare field)).Follows spot (.ok ()) spot.refs := by
  rintro ⟨⟨root, rules, alt, blocks, treeLevel⟩, ds, vs⟩ stands
  cases rules with
  | nil => exact absurd rfl stands.rules
  | cons f rest =>
      exact ⟨rfl, List.cons_ne_nil _ _, stands.refs, stands.levels, stands.treeLevel⟩

theorem follows_report (d : Diagnostic) : (Job.report d).Follows spot (.ok ()) spot.refs :=
  fun _ stands => ⟨rfl, stands⟩

theorem follows_recordVisits (p : Point) (count : Nat) :
    (Job.recordVisits p count).Follows spot (.ok ()) spot.refs :=
  fun _ stands => ⟨rfl, stands⟩

/-- A job inside of something that is entered before it and left after it. -/
theorem Follows.within {enter leave : Context → Context} {job : Job α} {inside : Spot}
    {result : Translated α} (henter : ∀ c : Context, c.StandsAt spot → (enter c).StandsAt inside)
    (hleave : ∀ c : Context, c.StandsAt { inside with refs } →
      (leave c).StandsAt { spot with refs })
    (hjob : job.Follows inside result refs) :
    (Job.within enter leave job).Follows spot result refs := by
  intro s stands
  have run := hjob { s with context := enter s.context } (henter _ stands)
  unfold Job.within
  rcases hrun : job { s with context := enter s.context } with ⟨answer, t⟩
  rw [hrun] at run
  cases result with
  | ok a => exact ⟨run.1, hleave _ run.2⟩
  | error construct => exact run

theorem follows_mapM {job : α → Job β} {f : α → β}
    (h : ∀ a, (job a).Follows spot (.ok (f a)) spot.refs) (as : List α) :
    (as.mapM job).Follows spot (.ok (as.map f)) spot.refs := by
  induction as with
  | nil => exact follows_pure _
  | cons a rest ih =>
      rw [List.mapM_cons]
      exact (h a).bind fun _ => ih.bind fun _ => follows_pure _

end Job

end RecognizerModel
