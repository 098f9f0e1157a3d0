/-
  ModJanus.Lib.Mealy

  Machines that may put something out at a step.

  The outputs of a run are read off its steps: `outputs_append` cuts a run in two, and
  `mem_outputs_iff` says which step each output comes from.  `outputs_eq_of_related` is the
  rule for two machines that cannot be told apart.
-/
import Mathlib.Data.List.Basic

namespace Mealy

variable {σ α β : Type*} (step : σ → α → σ × Option β)

/-- The state after a run. -/
def state (s : σ) (as : List α) : σ := as.foldl (fun s a => (step s a).1) s

/-- What a run puts out, in order. -/
def outputs : σ → List α → List β
  | _, [] => []
  | s, a :: rest => (step s a).2.toList ++ outputs (step s a).1 rest

variable {step} {s : σ} {a : α} {as bs : List α} {b : β}

@[simp] theorem state_nil : state step s [] = s := rfl

@[simp] theorem state_cons : state step s (a :: as) = state step (step s a).1 as := rfl

theorem state_append : state step s (as ++ bs) = state step (state step s as) bs :=
  List.foldl_append

theorem state_concat : state step s (as ++ [a]) = (step (state step s as) a).1 := by
  rw [state_append]
  rfl

theorem outputs_append :
    outputs step s (as ++ bs) = outputs step s as ++ outputs step (state step s as) bs := by
  induction as generalizing s with
  | nil => rfl
  | cons a as ih => rw [List.cons_append, outputs, outputs, ih, List.append_assoc, state_cons]

/-- An output comes from a step, in the state that the steps before it led to. -/
theorem mem_outputs_iff : b ∈ outputs step s as ↔
    ∃ front a back, as = front ++ a :: back ∧ (step (state step s front) a).2 = some b := by
  induction as generalizing s with
  | nil => simp [outputs]
  | cons a as ih =>
      rw [outputs, List.mem_append, Option.mem_toList, ih]
      constructor
      · rintro (hfirst | ⟨front, a', back, rfl, hlater⟩)
        · exact ⟨[], a, as, rfl, hfirst⟩
        · exact ⟨a :: front, a', back, rfl, hlater⟩
      · rintro ⟨front, a', back, has, hout⟩
        cases front with
        | nil =>
            cases has
            exact .inl hout
        | cons c front =>
            cases has
            exact .inr ⟨front, a', back, rfl, hout⟩

/-- Two machines that stay related and put out the same at every step put out the same in
    every run. -/
theorem outputs_eq_of_related {τ : Type*} {step' : τ → α → τ × Option β} {R : σ → τ → Prop}
    (hstep : ∀ s t a, R s t → R (step s a).1 (step' t a).1 ∧ (step s a).2 = (step' t a).2)
    {t : τ} (h : R s t) : outputs step s as = outputs step' t as := by
  induction as generalizing s t with
  | nil => rfl
  | cons a as ih =>
      obtain ⟨hnext, hout⟩ := hstep s t a h
      rw [outputs, outputs, hout, ih hnext]

end Mealy
