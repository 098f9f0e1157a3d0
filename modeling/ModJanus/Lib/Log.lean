/-
  ModJanus.Lib.Log

  What has to come first in a log.

  A system that only ever adds to a log is safe in time when each entry of some kind
  finds in front of it what it needs: `Guarded kind needs log`.  What a step adds is
  known through its `Effect`, two equivalences: whether it asks for what is needed,
  and whether it grants it.  The run rules then say of a whole run that the log ends up
  guarded exactly when no step asks before some step has granted.
-/
import Mathlib.Data.List.Infix

namespace Log

variable {α : Type*} {asks : List α → α → Prop} {needs : List α → Prop}

/-- Every entry that asks for it stands behind a log that has what is needed. -/
def Guarded (asks : List α → α → Prop) (needs : List α → Prop) (log : List α) : Prop :=
  ∀ before a later, log = before ++ a :: later → asks before a → needs before

theorem guarded_nil : Guarded asks needs [] := by
  intro before a later h
  simp at h

/-- One more entry is checked against the log that it is added to. -/
theorem guarded_concat {log : List α} {a : α} :
    Guarded asks needs (log ++ [a]) ↔ Guarded asks needs log ∧ (asks log a → needs log) := by
  refine ⟨fun h => ⟨?_, h log a [] rfl⟩, ?_⟩
  · intro before b later heq
    exact h before b (later ++ [a]) (by rw [heq]; simp)
  · rintro ⟨hlog, ha⟩ before b later heq hb
    -- the entry is one of the old ones, or the new one
    rcases List.append_eq_append_iff.mp heq with ⟨rest, rfl, hrest⟩ | ⟨rest, rfl, hrest⟩
    · cases rest with
      | nil =>
          obtain ⟨rfl, -⟩ := List.cons_eq_cons.mp hrest
          rw [List.append_nil] at hb ⊢
          exact ha hb
      | cons c rest => simp at hrest
    · cases rest with
      | nil =>
          obtain ⟨rfl, -⟩ := List.cons_eq_cons.mp hrest
          rw [List.append_nil] at ha
          exact ha hb
      | cons c rest =>
          obtain ⟨rfl, -⟩ := List.cons_eq_cons.mp hrest
          exact hlog before b rest rfl hb

/-- Entries that ask for nothing change nothing. -/
theorem guarded_append {log added : List α} (h : ∀ a ∈ added, ∀ before, ¬ asks before a) :
    Guarded asks needs (log ++ added) ↔ Guarded asks needs log := by
  induction added generalizing log with
  | nil => rw [List.append_nil]
  | cons a added ih =>
      have hadded : ∀ b ∈ added, ∀ before, ¬ asks before b :=
        fun b hb => h b (List.mem_cons_of_mem a hb)
      rw [show log ++ a :: added = (log ++ [a]) ++ added by simp, ih hadded, guarded_concat]
      exact and_iff_left fun ha => absurd ha (h a List.mem_cons_self log)

/-! ## Two entries next to each other -/

/-- A pair that does not start in one part and end in the other is in one of them. -/
theorem pair_infix_append {a b : α} {log added : List α} (h : added.head? ≠ some b) :
    [a, b] <:+: log ++ added ↔ [a, b] <:+: log ∨ [a, b] <:+: added := by
  constructor
  · intro hpair
    induction log with
    | nil => exact .inr hpair
    | cons c log ih =>
        rw [List.cons_append, List.infix_cons_iff] at hpair
        rcases hpair with hpre | hin
        · obtain ⟨rfl, hb⟩ := List.cons_prefix_cons.mp hpre
          cases log with
          | nil =>
              -- the pair would end in the first entry of the second part
              cases added with
              | nil => simp at hb
              | cons d added =>
                  obtain ⟨rfl, -⟩ := List.cons_prefix_cons.mp hb
                  simp at h
          | cons d log =>
              obtain ⟨rfl, -⟩ := List.cons_prefix_cons.mp hb
              exact .inl ⟨[], log, rfl⟩
        · exact (ih hin).imp_left fun hlog => hlog.trans (List.suffix_cons c log).isInfix
  · rintro (hlog | hadded)
    · exact hlog.trans (List.prefix_append log added).isInfix
    · exact hadded.trans (List.suffix_append log added).isInfix

/-! ## Steps -/

/-- What a step does to a log: it asks for what is needed, or grants it. -/
structure Effect (asks : List α → α → Prop) (needs : List α → Prop) (log log' : List α)
    (demands grants : Prop) : Prop where
  guarded : Guarded asks needs log' ↔ Guarded asks needs log ∧ (demands → needs log)
  needs : needs log' ↔ needs log ∨ grants

/-- A step that neither asks nor grants. -/
theorem Effect.idle {log log' : List α} {demands grants : Prop}
    (hguarded : Guarded asks needs log' ↔ Guarded asks needs log)
    (hneeds : needs log' ↔ needs log) (hdemands : ¬ demands) (hgrants : ¬ grants) :
    Effect asks needs log log' demands grants :=
  ⟨by rw [hguarded, and_iff_left fun h => absurd h hdemands],
    by rw [hneeds, or_iff_left hgrants]⟩

theorem Effect.congr {log log' : List α} {demands demands' grants grants' : Prop}
    (h : Effect asks needs log log' demands grants) (hdemands : demands ↔ demands')
    (hgrants : grants ↔ grants') : Effect asks needs log log' demands' grants' := by
  rw [← propext hdemands, ← propext hgrants]
  exact h

/-! ## Runs -/

section Run

variable {σ β : Type*} (step : σ → β → σ) (log : σ → List α)

/-- Some step of the run is one of these. -/
def Occurs (happens : σ → β → Prop) (s : σ) (steps : List β) : Prop :=
  ¬ Guarded (fun before b => happens (before.foldl step s) b) (fun _ => False) steps

theorem occurs_concat {happens : σ → β → Prop} {s : σ} {steps : List β} {b : β} :
    Occurs step happens s (steps ++ [b]) ↔
      Occurs step happens s steps ∨ happens (steps.foldl step s) b := by
  rw [Occurs, guarded_concat, not_and_or]
  exact or_congr_right Classical.not_not

/-- No step of the run demands before some step has granted. -/
def GrantedFirst (demands grants : σ → β → Prop) (s : σ) (steps : List β) : Prop :=
  Guarded (fun before b => demands (before.foldl step s) b) (Occurs step grants s) steps

variable {demands grants : σ → β → Prop}
  (heffect : ∀ s b, Effect asks needs (log s) (log (step s b)) (demands s b) (grants s b))

include heffect

/-- What is needed is there at the end if it was at the start, or some step granted
    it. -/
theorem needs_run (s : σ) (steps : List β) :
    needs (log (steps.foldl step s)) ↔ needs (log s) ∨ Occurs step grants s steps := by
  induction steps using List.reverseRecOn with
  | nil => simp [Occurs, guarded_nil]
  | append_singleton steps b ih =>
      rw [List.foldl_concat, (heffect _ b).needs, ih, occurs_concat, or_assoc]

/-- A log that starts without what is needed ends up guarded exactly when no step
    demands before some step has granted. -/
theorem guarded_run {s : σ} (hneeds : ¬ needs (log s)) (hguarded : Guarded asks needs (log s))
    (steps : List β) :
    Guarded asks needs (log (steps.foldl step s)) ↔
      GrantedFirst step demands grants s steps := by
  induction steps using List.reverseRecOn with
  | nil => exact ⟨fun _ => guarded_nil, fun _ => hguarded⟩
  | append_singleton steps b ih =>
      rw [List.foldl_concat, (heffect _ b).guarded, ih, needs_run step log heffect,
        GrantedFirst, GrantedFirst, guarded_concat, or_iff_right hneeds]

end Run

end Log
