import Mathlib.Logic.Function.Basic
import Mathlib.Data.List.Infix

/-! Threads that take atomic steps on a shared state, in any order. A thread is what it does in each of
its phases; a schedule says which thread takes the next step. -/

namespace Interleave

variable {ι σ π : Type} [DecidableEq ι]

/-- The shared state and the phase that every thread is in. -/
structure Config (ι σ π : Type) where
  shared : σ
  phase : ι → π

namespace Config

variable (act : ι → π → σ → π × σ)

/-- Thread `i` takes its next step. -/
def step (c : Config ι σ π) (i : ι) : Config ι σ π where
  shared := (act i (c.phase i) c.shared).2
  phase := Function.update c.phase i (act i (c.phase i) c.shared).1

/-- The threads take steps in the order of a schedule. -/
def run (c : Config ι σ π) (schedule : List ι) : Config ι σ π := schedule.foldl (step act) c

/-- Every step of the schedule is taken in a state that allows it. -/
def RunMeets (allowed : Config ι σ π → ι → Prop) : Config ι σ π → List ι → Prop
  | _, [] => True
  | c, i :: schedule => allowed c i ∧ RunMeets allowed (c.step act i) schedule

variable {act}

@[simp] theorem run_nil (c : Config ι σ π) : c.run act [] = c := rfl

@[simp] theorem run_cons (c : Config ι σ π) (i : ι) (schedule : List ι) :
    c.run act (i :: schedule) = (c.step act i).run act schedule := rfl

theorem run_append (c : Config ι σ π) (schedule later : List ι) :
    c.run act (schedule ++ later) = (c.run act schedule).run act later := List.foldl_append

theorem step_eq {c : Config ι σ π} {i : ι} {p : π} {s : σ} (h : act i (c.phase i) c.shared = (p, s)) :
    c.step act i = ⟨s, Function.update c.phase i p⟩ := by
  rw [step, h]

@[simp] theorem step_phase_self (c : Config ι σ π) (i : ι) :
    (c.step act i).phase i = (act i (c.phase i) c.shared).1 := Function.update_self ..

theorem step_phase_of_ne (c : Config ι σ π) {i j : ι} (h : j ≠ i) : (c.step act i).phase j = c.phase j :=
  Function.update_of_ne h ..

/-- A part of an allowed run from its start is allowed. -/
theorem RunMeets.of_append {allowed : Config ι σ π → ι → Prop} {c : Config ι σ π} {schedule later : List ι}
    (h : RunMeets act allowed c (schedule ++ later)) : RunMeets act allowed c schedule := by
  induction schedule generalizing c with
  | nil => trivial
  | cons i schedule ih => exact ⟨h.1, ih h.2⟩

theorem RunMeets.append {allowed : Config ι σ π → ι → Prop} {c : Config ι σ π} {schedule later : List ι}
    (h : RunMeets act allowed c schedule) (hlater : RunMeets act allowed (c.run act schedule) later) :
    RunMeets act allowed c (schedule ++ later) := by
  induction schedule generalizing c with
  | nil => exact hlater
  | cons i schedule ih => exact ⟨h.1, ih h.2 hlater⟩

/-- What every allowed step keeps holds after an allowed run. -/
theorem RunMeets.invariant {allowed : Config ι σ π → ι → Prop} {P : Config ι σ π → Prop}
    (hstep : ∀ c i, P c → allowed c i → P (c.step act i)) {c : Config ι σ π} {schedule : List ι}
    (h : RunMeets act allowed c schedule) (hc : P c) : P (c.run act schedule) := by
  induction schedule generalizing c with
  | nil => exact hc
  | cons i schedule ih => exact ih h.2 (hstep c i hc h.1)

/-- What every step keeps holds after every run. -/
theorem invariant_run {P : Config ι σ π → Prop} (hstep : ∀ c i, P c → P (c.step act i)) {c : Config ι σ π} (hc : P c)
    (schedule : List ι) : P (c.run act schedule) := by
  induction schedule generalizing c with
  | nil => exact hc
  | cons i schedule ih => exact ih (hstep c i hc)

theorem run_phase_of_notMem {c : Config ι σ π} {schedule : List ι} {i : ι} (h : i ∉ schedule) :
    (c.run act schedule).phase i = c.phase i := by
  induction schedule generalizing c with
  | nil => rfl
  | cons j schedule ih =>
      rw [List.mem_cons, not_or] at h
      rw [run_cons, ih h.2, step_phase_of_ne c h.1]

/-- When each thread of a schedule takes one step, it takes it from the phase it was in, on a shared state with
whatever property these steps keep. -/
theorem run_once {P : σ → Prop} {c : Config ι σ π} {schedule : List ι} (hnodup : schedule.Nodup) (hc : P c.shared)
    (hstep : ∀ i ∈ schedule, ∀ s, P s → P (act i (c.phase i) s).2) :
    P (c.run act schedule).shared ∧
      ∀ i ∈ schedule, ∃ s, P s ∧ (c.run act schedule).phase i = (act i (c.phase i) s).1 := by
  induction schedule generalizing c with
  | nil => exact ⟨hc, fun i hi => absurd hi List.not_mem_nil⟩
  | cons i schedule ih =>
      rw [List.nodup_cons] at hnodup
      have hother : ∀ j ∈ schedule, (c.step act i).phase j = c.phase j := by
        intro j hj
        apply step_phase_of_ne
        rintro rfl
        exact hnodup.1 hj
      have hlater : ∀ j ∈ schedule, ∀ s, P s → P (act j ((c.step act i).phase j) s).2 := by
        intro j hj s hs
        rw [hother j hj]
        exact hstep j (List.mem_cons_of_mem _ hj) s hs
      obtain ⟨hshared, hphases⟩ := ih hnodup.2 (hstep i List.mem_cons_self _ hc) hlater
      refine ⟨hshared, fun j hj => ?_⟩
      rcases List.mem_cons.mp hj with rfl | hj
      · refine ⟨c.shared, hc, ?_⟩
        rw [run_cons, run_phase_of_notMem hnodup.1, step_phase_self]
      · obtain ⟨s, hs, hphase⟩ := hphases j hj
        exact ⟨s, hs, by rw [run_cons, hphase, hother j hj]⟩

end Config

end Interleave
