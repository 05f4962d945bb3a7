import RecognizerModel.Build.Job

/-! Results and jobs taken apart at their steps: what comes to its end did so in each step. -/
namespace RecognizerModel

theorem bind_eq_ok {ε α β : Type} {result : Except ε α} {f : α → Except ε β} {b : β} :
    result >>= f = .ok b ↔ ∃ a, result = .ok a ∧ f a = .ok b := by
  cases result with
  | ok a => exact ⟨fun h => ⟨a, rfl, h⟩, by rintro ⟨_, ⟨⟩, h⟩; exact h⟩
  | error cause => exact ⟨nofun, by rintro ⟨_, ⟨⟩, _⟩⟩

theorem bind_eq_error {ε α β : Type} {result : Except ε α} {f : α → Except ε β} {cause : ε} :
    result >>= f = .error cause ↔
      result = .error cause ∨ ∃ a, result = .ok a ∧ f a = .error cause := by
  cases result with
  | ok a =>
      refine ⟨fun h => .inr ⟨a, rfl, h⟩, ?_⟩
      rintro (h | ⟨_, ⟨⟩, h⟩)
      · cases h
      · exact h
  | error other =>
      refine ⟨fun h => ?_, ?_⟩
      · cases h
        exact .inl rfl
      · rintro (h | ⟨_, ⟨⟩, _⟩)
        cases h
        rfl

theorem eq_ok_of_toOption {ε α : Type} {result : Except ε α} {a : α}
    (h : result.toOption = some a) : result = .ok a := by
  cases result with
  | ok b =>
      cases h
      rfl
  | error cause => cases h

namespace Job

theorem exists_of_bind_ok {job : Job α} {next : α → Job β} {s t : JobState} {b : β}
    (h : (job >>= next) s = (.ok b, t)) :
    ∃ a s', job s = (.ok a, s') ∧ next a s' = (.ok b, t) := by
  rw [bind_run] at h
  rcases hrun : job s with ⟨_ | a, s'⟩
  · rw [hrun] at h
    cases h
  · rw [hrun] at h
    exact ⟨a, s', rfl, h⟩

theorem bind_of_ok {job : Job α} {next : α → Job β} {s t : JobState} {a : α}
    (h : job s = (.ok a, t)) : (job >>= next) s = next a t := by
  rw [bind_run, h]

/-- A job that is attempted leaves the state that it leaves by itself. -/
theorem state_of_attempt_ok {job : Job α} {s t : JobState} {result : Except Malformed α}
    (h : job.attempt s = (.ok result, t)) : t = (job s).2 := by
  unfold attempt at h
  rcases hrun : job s with ⟨(_ | _) | _, s'⟩ <;> rw [hrun] at h <;> cases h <;> rfl

theorem eq_error_of_attempt {job : Job α} {s t : JobState} {c : Malformed}
    (h : job.attempt s = (.ok (.error c), t)) : job s = (.error (.malformed c), t) := by
  unfold attempt at h
  rcases hrun : job s with ⟨(_ | _) | _, s'⟩ <;> rw [hrun] at h <;> cases h
  rfl

theorem eq_ok_of_attempt {job : Job α} {s t : JobState} {a : α}
    (h : job.attempt s = (.ok (.ok a), t)) : job s = (.ok a, t) := by
  unfold attempt at h
  rcases hrun : job s with ⟨(_ | _) | _, s'⟩ <;> rw [hrun] at h <;> cases h
  rfl

end Job

end RecognizerModel
