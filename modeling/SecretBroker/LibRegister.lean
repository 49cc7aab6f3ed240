import Mathlib

/-! Read-modify-write operations on one cell, each split into a read and a later write, under every
interleaving of these steps. An interleaving is serial in effect as long as every write is still
the one its operation would compute from the cell it overwrites. -/

namespace Register

variable {σ ρ ι : Type}

/-- What an operation does once it has read the cell: return at once, or write a value in a later
step and return then. -/
inductive Plan (σ ρ : Type) where
  | done (result : ρ)
  | write (value : σ) (result : ρ)

/-- An operation: a read followed by what its plan says, or a removal in one step. -/
inductive Op (σ ρ : Type) where
  | update (plan : Option σ → Plan σ ρ)
  | remove (result : Bool → ρ)

/-- The same plan with another result. -/
def Plan.map {ρ' : Type} (f : ρ → ρ') : Plan σ ρ → Plan σ ρ'
  | .done r => .done (f r)
  | .write v r => .write v (f r)

/-- The same operation with another result. -/
def Op.map {ρ' : Type} (f : ρ → ρ') : Op σ ρ → Op σ ρ'
  | .update plan => .update fun cell => (plan cell).map f
  | .remove result => .remove fun existed => f (result existed)

/-- The operation in one piece. -/
def Op.run : Op σ ρ → Option σ → Option σ × ρ
  | .update plan, cell =>
      match plan cell with
      | .done r => (cell, r)
      | .write v r => (some v, r)
  | .remove result, cell => (none, result cell.isSome)

/-- Operations one after the other. -/
def runAll : List (Op σ ρ) → Option σ → Option σ × List ρ
  | [], cell => (cell, [])
  | op :: ops, cell => ((runAll ops (op.run cell).1).1, (op.run cell).2 :: (runAll ops (op.run cell).1).2)

/-- How far an operation has come: not started, between its read and its write, or returned. -/
inductive Phase (σ ρ : Type) where
  | ready
  | pending (value : σ) (result : ρ)
  | returned (result : ρ)

structure Config (σ ρ ι : Type) where
  cell : Option σ
  phase : ι → Phase σ ρ

/-- Every operation still to start. -/
def Config.start (cell : Option σ) : Config σ ρ ι := ⟨cell, fun _ => .ready⟩

variable [DecidableEq ι]

/-- The next step of one operation; an operation that has returned takes none. -/
def Config.step (ops : ι → Op σ ρ) (c : Config σ ρ ι) (i : ι) : Config σ ρ ι :=
  match c.phase i with
  | .ready =>
      match ops i with
      | .update plan =>
          match plan c.cell with
          | .done r => { c with phase := Function.update c.phase i (.returned r) }
          | .write v r => { c with phase := Function.update c.phase i (.pending v r) }
      | .remove result => ⟨none, Function.update c.phase i (.returned (result c.cell.isSome))⟩
  | .pending v r => ⟨some v, Function.update c.phase i (.returned r)⟩
  | .returned _ => c

/-- The steps of a schedule, which names the operation that moves next. -/
def Config.run (ops : ι → Op σ ρ) : Config σ ρ ι → List ι → Config σ ρ ι
  | c, [] => c
  | c, i :: rest => (c.step ops i).run ops rest

/-- Before it writes, an operation's value and result are what it would compute from the cell now. -/
def Config.Current (ops : ι → Op σ ρ) (c : Config σ ρ ι) (i : ι) : Prop :=
  ∀ v r, c.phase i = .pending v r → ∃ plan, ops i = .update plan ∧ plan c.cell = .write v r

/-- Every write of the schedule is current when it is made. -/
def Config.RunCurrent (ops : ι → Op σ ρ) : Config σ ρ ι → List ι → Prop
  | _, [] => True
  | c, i :: rest => c.Current ops i ∧ (c.step ops i).RunCurrent ops rest

/-- All operations have returned. -/
def Config.Complete (c : Config σ ρ ι) : Prop := ∀ i, ∃ r, c.phase i = .returned r

/-- The operations that have returned, one after the other in some order, have the same results and
leave the same value. -/
def Serializable (ops : ι → Op σ ρ) (cell : Option σ) (c : Config σ ρ ι) : Prop :=
  ∃ (order : List ι) (results : List ρ), order.Nodup ∧ (∀ i, i ∈ order ↔ ∃ r, c.phase i = .returned r) ∧
    List.Forall₂ (fun i r => c.phase i = .returned r) order results ∧
    runAll (order.map ops) cell = (c.cell, results)

theorem Op.run_map {ρ' : Type} (f : ρ → ρ') (op : Op σ ρ) (cell : Option σ) :
    (op.map f).run cell = ((op.run cell).1, f (op.run cell).2) := by
  cases op with
  | remove result => rfl
  | update plan =>
      simp only [Op.map, Op.run]
      cases plan cell <;> rfl

/-- A step leaves the other operations where they are. -/
theorem Config.step_phase_ne (ops : ι → Op σ ρ) (c : Config σ ρ ι) {i j : ι} (h : j ≠ i) :
    (c.step ops i).phase j = c.phase j := by
  cases hphase : c.phase i with
  | returned r => simp only [step, hphase]
  | pending v r => simp only [step, hphase, Function.update_of_ne h]
  | ready =>
      cases hop : ops i with
      | remove result => simp only [step, hphase, hop, Function.update_of_ne h]
      | update plan =>
          cases hplan : plan c.cell <;> simp only [step, hphase, hop, hplan, Function.update_of_ne h]

theorem Config.step_returned (ops : ι → Op σ ρ) (c : Config σ ρ ι) {i j : ι} {r : ρ}
    (h : c.phase j = .returned r) : (c.step ops i).phase j = .returned r := by
  by_cases hij : j = i
  · subst hij
    simp only [step, h]
  · rw [step_phase_ne ops c hij, h]

theorem Config.run_returned (ops : ι → Op σ ρ) {c : Config σ ρ ι} {j : ι} {r : ρ}
    (h : c.phase j = .returned r) (sched : List ι) : (c.run ops sched).phase j = .returned r := by
  induction sched generalizing c with
  | nil => exact h
  | cons i rest ih => exact ih (c.step_returned ops h)

/-- One step returns from its operation with the effect of the whole operation on the present cell,
or it changes neither the cell nor what has returned. -/
theorem Config.step_cases (ops : ι → Op σ ρ) (c : Config σ ρ ι) (i : ι) (hcur : c.Current ops i) :
    (∃ r, (∀ r', c.phase i ≠ .returned r') ∧ (c.step ops i).phase i = .returned r ∧
      (ops i).run c.cell = ((c.step ops i).cell, r)) ∨
    ((c.step ops i).cell = c.cell ∧
      ∀ r, (c.step ops i).phase i = .returned r ↔ c.phase i = .returned r) := by
  cases hphase : c.phase i with
  | returned r =>
      refine Or.inr ⟨by simp only [step, hphase], fun r' => ?_⟩
      simp only [step, hphase]
  | pending v r =>
      obtain ⟨plan, hop, hplan⟩ := hcur v r hphase
      refine Or.inl ⟨r, fun r' => by simp, by simp only [step, hphase, Function.update_self], ?_⟩
      simp only [step, hphase, hop, Op.run, hplan]
  | ready =>
      cases hop : ops i with
      | remove result =>
          refine Or.inl ⟨result c.cell.isSome, fun r' => by simp, ?_, ?_⟩
          · simp only [step, hphase, hop, Function.update_self]
          · simp only [step, hphase, hop, Op.run]
      | update plan =>
          cases hplan : plan c.cell with
          | done r =>
              refine Or.inl ⟨r, fun r' => by simp, ?_, ?_⟩
              · simp only [step, hphase, hop, hplan, Function.update_self]
              · simp only [step, hphase, hop, hplan, Op.run]
          | write v r =>
              refine Or.inr ⟨by simp only [step, hphase, hop, hplan], fun r' => ?_⟩
              simp only [step, hphase, hop, hplan, Function.update_self, reduceCtorEq]

/-- The operations that a current run completes, in the order of their last steps, have together the
effect and the results that they have one after the other. -/
theorem Config.run_serial (ops : ι → Op σ ρ) (sched : List ι) (c : Config σ ρ ι)
    (hcur : c.RunCurrent ops sched) :
    ∃ (order : List ι) (results : List ρ), order.Nodup ∧
      (∀ i, i ∈ order ↔ (∀ r, c.phase i ≠ .returned r) ∧ ∃ r, (c.run ops sched).phase i = .returned r) ∧
      List.Forall₂ (fun i r => (c.run ops sched).phase i = .returned r) order results ∧
      runAll (order.map ops) c.cell = ((c.run ops sched).cell, results) := by
  induction sched generalizing c with
  | nil =>
      refine ⟨[], [], List.nodup_nil, fun i => ?_, List.Forall₂.nil, rfl⟩
      simp only [List.not_mem_nil, run, false_iff, not_and, not_exists]
      exact fun h r => h r
  | cons i rest ih =>
      obtain ⟨hnow, hrest⟩ := hcur
      obtain ⟨order, results, hnodup, hmem, hres, hrun⟩ := ih (c.step ops i) hrest
      rcases c.step_cases ops i hnow with ⟨r, hbefore, hafter, heffect⟩ | ⟨hcell, hphase⟩
      · -- the step returns: its operation comes first in the order
        refine ⟨i :: order, r :: results, List.nodup_cons.mpr ⟨fun h => ?_, hnodup⟩, fun j => ?_,
          List.Forall₂.cons (run_returned ops hafter rest) hres, ?_⟩
        · exact ((hmem i).mp h).1 r hafter
        · by_cases hj : j = i
          · subst hj
            simp only [List.mem_cons, true_or, true_iff]
            exact ⟨hbefore, r, run_returned ops hafter rest⟩
          · rw [List.mem_cons, or_iff_right hj, hmem j, step_phase_ne ops c hj]
            rfl
        · rw [List.map_cons, runAll, heffect, hrun]
          rfl
      · refine ⟨order, results, hnodup, fun j => ?_, hres, ?_⟩
        · rw [hmem j]
          by_cases hj : j = i
          · subst hj
            simp only [ne_eq, hphase]
            rfl
          · rw [step_phase_ne ops c hj]
            rfl
        · rw [← hcell, hrun]
          rfl

/-- The beginning of a current run is current. -/
theorem Config.RunCurrent.of_isPrefix {ops : ι → Op σ ρ} {sched reached : List ι} {c : Config σ ρ ι}
    (h : c.RunCurrent ops sched) (hreached : reached <+: sched) : c.RunCurrent ops reached := by
  induction reached generalizing sched c with
  | nil => trivial
  | cons i rest ih =>
      obtain ⟨later, rfl⟩ := hreached
      exact ⟨h.1, ih h.2 ⟨later, rfl⟩⟩

/-- **No lost update.** A run in which every write is current when it is made is serializable. -/
theorem serializable_of_current (ops : ι → Op σ ρ) (cell : Option σ) (sched : List ι)
    (hcur : (Config.start cell).RunCurrent ops sched) :
    Serializable ops cell ((Config.start cell).run ops sched) := by
  obtain ⟨order, results, hnodup, hmem, hres, hrun⟩ := Config.run_serial ops sched _ hcur
  refine ⟨order, results, hnodup, fun i => ?_, hres, hrun⟩
  rw [hmem i]
  refine and_iff_right fun r => ?_
  simp only [Config.start, ne_eq, reduceCtorEq, not_false_eq_true]

/-- A property of the cell that every operation keeps holds of the cell after all of them. -/
theorem runAll_invariant {P : Option σ → Prop} {ops : List (Op σ ρ)}
    (hops : ∀ op ∈ ops, ∀ cell, P cell → P (op.run cell).1) {cell : Option σ} (h : P cell) :
    P (runAll ops cell).1 := by
  induction ops generalizing cell with
  | nil => exact h
  | cons op ops ih =>
      exact ih (fun op' hop => hops op' (List.mem_cons_of_mem _ hop)) (hops op List.mem_cons_self cell h)

/-- A property that one of the operations establishes and the others keep holds at the end. -/
theorem runAll_establishes {P : Option σ → Prop} {ops : List (Op σ ρ)}
    (hops : ∀ op ∈ ops, ∀ cell, P cell → P (op.run cell).1) {op : Op σ ρ} (hop : op ∈ ops)
    (hest : ∀ cell, P (op.run cell).1) (cell : Option σ) : P (runAll ops cell).1 := by
  induction ops generalizing cell with
  | nil => cases hop
  | cons op' ops ih =>
      have hrest : ∀ op ∈ ops, ∀ cell, P cell → P (op.run cell).1 := fun op'' h =>
        hops op'' (List.mem_cons_of_mem _ h)
      rcases List.mem_cons.mp hop with rfl | hop
      · exact runAll_invariant hrest (hest cell)
      · exact ih hrest hop (op'.run cell).1

omit [DecidableEq ι] in
/-- In a serializable run, what a returned operation establishes and every operation keeps holds. -/
theorem Serializable.establishes {ops : ι → Op σ ρ} {cell : Option σ} {c : Config σ ρ ι}
    (h : Serializable ops cell c) {P : Option σ → Prop} (hops : ∀ i cell, P cell → P ((ops i).run cell).1)
    {i : ι} {r : ρ} (hi : c.phase i = .returned r) (hest : ∀ cell, P ((ops i).run cell).1) : P c.cell := by
  obtain ⟨order, results, -, hmem, -, hrun⟩ := h
  have hkeep : ∀ op ∈ order.map ops, ∀ cell, P cell → P (op.run cell).1 := by
    intro op hop
    obtain ⟨j, -, rfl⟩ := List.mem_map.mp hop
    exact hops j
  have hlast := runAll_establishes hkeep (List.mem_map_of_mem ((hmem i).mpr ⟨r, hi⟩)) hest cell
  rwa [hrun] at hlast

/-- The value after comes from the value before by `R`, and nothing appears in an empty cell. -/
def Follows (R : σ → σ → Prop) (before after : Option σ) : Prop :=
  ∀ v', after = some v' → ∃ v, before = some v ∧ R v v'

instance {R : σ → σ → Prop} [IsPreorder σ R] : IsPreorder (Option σ) (Follows R) where
  refl _ v h := ⟨v, h, refl_of R v⟩
  trans _ _ _ h h' v₃ h₃ := by
    obtain ⟨v₂, h₂, hR'⟩ := h' v₃ h₃
    obtain ⟨v₁, h₁, hR⟩ := h v₂ h₂
    exact ⟨v₁, h₁, trans_of R hR hR'⟩

/-- Whatever the cell holds, the operation changes it by `R` or removes it. -/
def Op.Within (R : σ → σ → Prop) (op : Op σ ρ) : Prop := ∀ cell, Follows R cell (op.run cell).1

theorem Op.within_remove (R : σ → σ → Prop) (result : Bool → ρ) : (Op.remove result : Op σ ρ).Within R := by
  intro cell v' h
  cases h

theorem Op.within_update {R : σ → σ → Prop} [IsPreorder σ R] {plan : Option σ → Plan σ ρ}
    (hnone : ∀ v r, plan none ≠ .write v r) (hsome : ∀ stored v r, plan (some stored) = .write v r → R stored v) :
    (Op.update plan).Within R := by
  intro cell
  simp only [Op.run]
  cases hplan : plan cell with
  | done r => exact refl_of (Follows R) cell
  | write v r =>
      cases cell with
      | none => exact absurd hplan (hnone v r)
      | some stored =>
          rintro v' ⟨⟩
          exact ⟨stored, rfl, hsome stored v r hplan⟩

theorem Op.Within.map {ρ' : Type} {R : σ → σ → Prop} {op : Op σ ρ} (h : op.Within R) (f : ρ → ρ') :
    (op.map f).Within R := by
  intro cell
  rw [Op.run_map]
  exact h cell

theorem Op.Within.mono {R R' : σ → σ → Prop} {op : Op σ ρ} (h : op.Within R) (himp : ∀ v v', R v v' → R' v v') :
    op.Within R' := by
  intro cell v' hv'
  obtain ⟨v, hv, hR⟩ := h cell v' hv'
  exact ⟨v, hv, himp v v' hR⟩

end Register
