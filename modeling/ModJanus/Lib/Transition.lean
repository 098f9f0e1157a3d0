/-
  ModJanus.Lib.Transition

  Runs of a partial step function.

  A system is a function `step : σ → α → Option σ`: `none` says that the action
  cannot be taken in that state.  `Reach step guard init` holds of the states
  reached from `init` by actions that all meet `guard`; a guard that is always
  true gives every run, a stronger one the runs whose environment keeps a
  promise.  The induction over runs is done here once: `Reach.invariant` is the
  rule for invariants and `Reach.simulate` the rule for a second system that
  follows the first one.  `exec` runs given actions; `exec_invariant`,
  `exec_kept_iff`, `exec_since_iff` and `exec_count_le` are its rules.
-/
import Mathlib.Logic.Basic
import Mathlib.Tactic.TypeStar

namespace Transition

variable {σ α τ β : Type*}

/-- The states reached from an initial state by steps that all meet `guard`. -/
inductive Reach (step : σ → α → Option σ) (guard : σ → α → Prop) (init : σ → Prop) : σ → Prop where
  | start {s : σ} : init s → Reach step guard init s
  | next {s s' : σ} {a : α} :
      Reach step guard init s → guard s a → step s a = some s' → Reach step guard init s'

/-- The guard of an unrestricted run. -/
def Always : σ → α → Prop := fun _ _ => True

instance (s : σ) (a : α) : Decidable (Always s a) := isTrue trivial

/-- Take a list of actions in order, as long as each meets the guard. -/
def exec (step : σ → α → Option σ) (guard : σ → α → Prop) [∀ s a, Decidable (guard s a)] :
    σ → List α → Option σ
  | s, [] => some s
  | s, a :: rest =>
      if guard s a then (step s a).bind (exec step guard · rest) else none

variable {step : σ → α → Option σ} {guard guard' : σ → α → Prop} {init : σ → Prop}

/-! ## The invariant rule -/

/-- What holds initially and is kept by every guarded step holds in every state
    reached. -/
theorem Reach.invariant {I : σ → Prop} (hinit : ∀ s, init s → I s)
    (hstep : ∀ s a s', I s → guard s a → step s a = some s' → I s')
    {s : σ} (h : Reach step guard init s) : I s := by
  induction h with
  | start h0 => exact hinit _ h0
  | next _ hg hs ih => exact hstep _ _ _ ih hg hs

/-- The invariant rule with a second invariant that is already known. -/
theorem Reach.invariant_of {I J : σ → Prop} (hJ : ∀ s, Reach step guard init s → J s)
    (hinit : ∀ s, init s → I s)
    (hstep : ∀ s a s', J s → I s → guard s a → step s a = some s' → I s')
    {s : σ} (h : Reach step guard init s) : I s := by
  induction h with
  | start h0 => exact hinit _ h0
  | next hr hg hs ih => exact hstep _ _ _ (hJ _ hr) ih hg hs

/-- A weaker guard reaches at least as much. -/
theorem Reach.mono (hg : ∀ s a, guard s a → guard' s a) {s : σ}
    (h : Reach step guard init s) : Reach step guard' init s := by
  induction h with
  | start h0 => exact .start h0
  | next _ hga hs ih => exact .next ih (hg _ _ hga) hs

/-! ## Concrete runs -/

section Exec

variable [∀ s a, Decidable (guard s a)] {s s' : σ} {as : List α}

/-- The first action of a run is a guarded step to the state that the others start in. -/
theorem exec_cons_eq_some {a : α} :
    exec step guard s (a :: as) = some s' ↔
      guard s a ∧ ∃ v, step s a = some v ∧ exec step guard v as = some s' := by
  rw [exec, Option.ite_none_right_eq_some, Option.bind_eq_some_iff]

/-- The actions of a second list are taken in the state that the first one leads to. -/
theorem exec_append (as bs : List α) :
    exec step guard s (as ++ bs) =
      (exec step guard s as).bind fun v => exec step guard v bs := by
  induction as generalizing s with
  | nil => rfl
  | cons a as ih =>
      rw [List.cons_append, exec, exec]
      split
      · rw [Option.bind_assoc]
        congr 1
        funext v
        exact ih
      · rfl

/-- The last action of a list is taken in the state that the others lead to. -/
theorem exec_concat (as : List α) (a : α) :
    exec step guard s (as ++ [a]) =
      (exec step guard s as).bind fun v => if guard v a then step v a else none := by
  rw [exec_append]
  congr 1
  funext v
  simp [exec]

/-- The last action of a run is a guarded step from the state that the others lead to. -/
theorem exec_concat_eq_some {a : α} :
    exec step guard s (as ++ [a]) = some s' ↔
      ∃ v, exec step guard s as = some v ∧ guard v a ∧ step v a = some s' := by
  simp only [exec_concat, Option.bind_eq_some_iff, Option.ite_none_right_eq_some]

/-- A list of actions that can all be taken leads from a reached state to a reached
    state. -/
theorem Reach.exec (h : Reach step guard init s)
    (hrun : Transition.exec step guard s as = some s') : Reach step guard init s' := by
  induction as generalizing s with
  | nil =>
      cases hrun
      exact h
  | cons a as ih =>
      obtain ⟨hg, v, hv, hrun⟩ := exec_cons_eq_some.mp hrun
      exact ih (.next h hg hv) hrun

/-- The invariant rule for a run of given actions. -/
theorem exec_invariant {I : σ → Prop}
    (hstep : ∀ s a s', I s → guard s a → step s a = some s' → I s') (h : I s)
    (hrun : exec step guard s as = some s') : I s' := by
  have hreach : Reach step guard (s = ·) s' := (Reach.start rfl).exec hrun
  refine hreach.invariant ?_ hstep
  rintro _ rfl
  exact h

/-- A property that a step keeps unless it spoils it holds at the end of a run exactly when
    it holds at the start and no step of the run spoils it. -/
theorem exec_kept_iff {P : σ → Prop} {Spoils : σ → α → Prop}
    (hstep : ∀ s a s', guard s a → step s a = some s' → (P s' ↔ P s ∧ ¬ Spoils s a))
    (hrun : exec step guard s as = some s') :
    P s' ↔ P s ∧ ∀ before a later v, as = before ++ a :: later →
      exec step guard s before = some v → ¬ Spoils v a := by
  induction as generalizing s with
  | nil =>
      cases hrun
      refine (and_iff_left ?_).symm
      intro before a later v has
      simp at has
  | cons a as ih =>
      obtain ⟨hg, u, hu, hrun⟩ := exec_cons_eq_some.mp hrun
      rw [ih hrun, hstep s a u hg hu, and_assoc]
      refine and_congr_right fun _ => ?_
      constructor
      · -- the step is the first one, or one of the others
        rintro ⟨hfirst, hothers⟩ before b later v has hv
        cases before with
        | nil =>
            cases has
            cases hv
            exact hfirst
        | cons c before =>
            cases has
            obtain ⟨-, w, hw, hv⟩ := exec_cons_eq_some.mp hv
            rw [hu, Option.some.injEq] at hw
            subst hw
            exact hothers before b later v rfl hv
      · intro hall
        refine ⟨hall [] a as s rfl rfl, ?_⟩
        intro before b later v has hv
        refine hall (a :: before) b later v (by rw [has, List.cons_append]) ?_
        exact exec_cons_eq_some.mpr ⟨hg, u, hu, hv⟩

/-- No step of a run that begins in `s` is a bad one. -/
def Never (step : σ → α → Option σ) (guard : σ → α → Prop) [∀ s a, Decidable (guard s a)]
    (Bad : σ → α → Prop) (s : σ) (as : List α) : Prop :=
  ∀ before a later v, as = before ++ a :: later → exec step guard s before = some v → ¬ Bad v a

theorem never_nil {Bad : σ → α → Prop} : Never step guard Bad s [] := by
  intro before a later v has
  simp at has

theorem never_cons {Bad : σ → α → Prop} {a : α} {u : σ} (hg : guard s a) (hu : step s a = some u) :
    Never step guard Bad s (a :: as) ↔ ¬ Bad s a ∧ Never step guard Bad u as := by
  constructor
  · intro h
    refine ⟨h [] a as s rfl rfl, ?_⟩
    intro before b later v has hv
    refine h (a :: before) b later v (by rw [has, List.cons_append]) ?_
    exact exec_cons_eq_some.mpr ⟨hg, u, hu, hv⟩
  · rintro ⟨hfirst, hothers⟩ before b later v has hv
    cases before with
    | nil =>
        cases has
        cases hv
        exact hfirst
    | cons c before =>
        cases has
        obtain ⟨-, w, hw, hv⟩ := exec_cons_eq_some.mp hv
        rw [hu, Option.some.injEq] at hw
        subst hw
        exact hothers before b later v rfl hv

/-- Some step of a run is a bad one. -/
theorem not_never_iff {Bad : σ → α → Prop} :
    ¬ Never step guard Bad s as ↔ ∃ before a later v,
      as = before ++ a :: later ∧ exec step guard s before = some v ∧ Bad v a := by
  unfold Never
  simp only [not_forall, not_not, exists_prop]

/-- Under an invariant, a property that a step keeps unless it spoils it holds at the end of a
    run exactly when it holds at the start and no step of the run spoils it. -/
theorem exec_unspoiled_iff {I P : σ → Prop} {Spoils : σ → α → Prop}
    (hI : ∀ s a s', I s → guard s a → step s a = some s' → I s')
    (hstep : ∀ s a s', I s → guard s a → step s a = some s' → (P s' ↔ P s ∧ ¬ Spoils s a))
    (h0 : I s) (hrun : exec step guard s as = some s') :
    P s' ↔ P s ∧ Never step guard Spoils s as := by
  induction as generalizing s with
  | nil =>
      cases hrun
      exact (and_iff_left never_nil).symm
  | cons a as ih =>
      obtain ⟨hg, u, hu, hrun⟩ := exec_cons_eq_some.mp hrun
      rw [ih (hI s a u h0 hg hu) hrun, hstep s a u h0 hg hu, never_cons hg hu, and_assoc]

/-- A property that some steps establish and some spoil holds at the end of a run exactly
    when it held at the start or a step established it, and no step spoiled it since. -/
theorem exec_since_iff {I P : σ → Prop} {Makes Spoils : σ → α → Prop}
    (hI : ∀ s a s', I s → guard s a → step s a = some s' → I s')
    (hstep : ∀ s a s', I s → guard s a → step s a = some s' →
      (P s' ↔ Makes s a ∨ (P s ∧ ¬ Spoils s a)))
    (h0 : I s) (hrun : exec step guard s as = some s') :
    P s' ↔ (P s ∧ Never step guard Spoils s as) ∨
      ∃ before a later v u, as = before ++ a :: later ∧ exec step guard s before = some v ∧
        step v a = some u ∧ Makes v a ∧ Never step guard Spoils u later := by
  induction as generalizing s with
  | nil =>
      cases hrun
      simp [never_nil]
  | cons a as ih =>
      obtain ⟨hg, u, hu, hrun⟩ := exec_cons_eq_some.mp hrun
      rw [ih (hI s a u h0 hg hu) hrun, hstep s a u h0 hg hu, never_cons hg hu]
      constructor
      · rintro (⟨hmakes | ⟨hs, hspared⟩, hnever⟩ |
          ⟨before, b, later, v, w, has, hv, hw, hmakes, hnever⟩)
        · exact .inr ⟨[], a, as, s, u, rfl, rfl, hu, hmakes, hnever⟩
        · exact .inl ⟨hs, hspared, hnever⟩
        · exact .inr ⟨a :: before, b, later, v, w, by rw [has, List.cons_append],
            exec_cons_eq_some.mpr ⟨hg, u, hu, hv⟩, hw, hmakes, hnever⟩
      · rintro (⟨hs, hspared, hnever⟩ | ⟨before, b, later, v, w, has, hv, hw, hmakes, hnever⟩)
        · exact .inl ⟨.inr ⟨hs, hspared⟩, hnever⟩
        · cases before with
          | nil =>
              -- the first step establishes it
              cases has
              cases hv
              rw [hu, Option.some.injEq] at hw
              subst hw
              exact .inl ⟨.inl hmakes, hnever⟩
          | cons c before =>
              cases has
              obtain ⟨-, u', hu', hv⟩ := exec_cons_eq_some.mp hv
              rw [hu, Option.some.injEq] at hu'
              subst hu'
              exact .inr ⟨before, b, later, v, w, rfl, hv, hw, hmakes, hnever⟩

/-- The rule for what is bounded by a potential: one that never falls, and rises by `d`
    with each action that is counted, has risen by `d` for each of them. -/
theorem exec_count_le {f : σ → Int} {d : Int} {p : α → Bool} {I : σ → Prop}
    (hI : ∀ s a s', I s → guard s a → step s a = some s' → I s')
    (hstep : ∀ s a s', I s → guard s a → step s a = some s' →
      f s + (if p a then d else 0) ≤ f s')
    (h0 : I s) (hrun : exec step guard s as = some s') : f s + as.countP p * d ≤ f s' := by
  induction as generalizing s with
  | nil =>
      cases hrun
      simp
  | cons a as ih =>
      obtain ⟨hg, u, hu, hrun⟩ := exec_cons_eq_some.mp hrun
      have hfirst := hstep s a u h0 hg hu
      have hothers := ih (hI s a u h0 hg hu) hrun
      rw [List.countP_cons]
      split at hfirst
      · next hp =>
          rw [if_pos hp, Int.natCast_add, Int.add_mul]
          omega
      · next hp =>
          rw [if_neg hp, Nat.add_zero]
          omega

end Exec

/-- A run of concrete actions that ends in a state where the test `p` passes. -/
theorem reach_of_exec (step : σ → α → Option σ) (guard : σ → α → Prop)
    [∀ s a, Decidable (guard s a)] {s₀ : σ} (h0 : init s₀) (as : List α) (p : σ → Bool)
    (hrun : (exec step guard s₀ as).map p = some true) :
    ∃ s, Reach step guard init s ∧ p s = true := by
  obtain ⟨s, hs, hp⟩ := Option.map_eq_some_iff.mp hrun
  exact ⟨s, (Reach.start h0).exec hs, hp⟩

/-! ## Simulation -/

/-- If every guarded step is a guarded move of a second system or leaves its
    state as it is, the second system follows every run. -/
theorem Reach.simulate {step' : τ → β → Option τ} {guardT : τ → β → Prop} {initT : τ → Prop}
    (f : σ → τ) {J : σ → Prop} (hJ : ∀ s, Reach step guard init s → J s)
    (hinit : ∀ s, init s → initT (f s))
    (hstep : ∀ s a s', J s → guard s a → step s a = some s' →
      f s' = f s ∨ ∃ b, guardT (f s) b ∧ step' (f s) b = some (f s'))
    {s : σ} (h : Reach step guard init s) : Reach step' guardT initT (f s) := by
  induction h with
  | start h0 => exact .start (hinit _ h0)
  | next hr hg hs ih =>
      rcases hstep _ _ _ (hJ _ hr) hg hs with heq | ⟨b, hgb, hsb⟩
      · rw [heq]
        exact ih
      · exact .next ih hgb hsb

end Transition
