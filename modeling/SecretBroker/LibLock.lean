import SecretBroker.LibEffect

/-! Tasks that share a state under read-write locks. A task awaits guards, drops them, looks at the shared
state and changes it. A read guard is granted when no write guard is held, a write guard when no guard is
held at all. A task that runs alone ends, or comes to wait for a lock that it holds itself. -/

namespace Lock

inductive Mode where
  | read
  | write
  deriving DecidableEq, Repr

/-- What a task does next, up to its result. -/
inductive Task (ι σ α : Type) where
  | ret (a : α)
  | acquire (lock : ι) (mode : Mode) (rest : Task ι σ α)
  | release (lock : ι) (mode : Mode) (rest : Task ι σ α)
  | look (rest : σ → Task ι σ α)
  | update (f : σ → σ) (rest : Task ι σ α)

variable {ι σ ε α β : Type}

/-- A guard is granted next to the guards that are held. -/
def Grants (held : List (ι × Mode)) (lock : ι) : Mode → Prop
  | .read => (lock, .write) ∉ held
  | .write => (lock, .read) ∉ held ∧ (lock, .write) ∉ held

instance [DecidableEq ι] (held : List (ι × Mode)) (lock : ι) (mode : Mode) : Decidable (Grants held lock mode) :=
  match mode with
  | .read => inferInstanceAs (Decidable ((lock, Mode.write) ∉ held))
  | .write => inferInstanceAs (Decidable ((lock, Mode.read) ∉ held ∧ (lock, Mode.write) ∉ held))

theorem exists_held_of_not_grants {held : List (ι × Mode)} {lock : ι} {mode : Mode} (h : ¬ Grants held lock mode) :
    ∃ mode', (lock, mode') ∈ held := by
  by_contra hnone
  push Not at hnone
  cases mode with
  | read => exact h (hnone .write)
  | write => exact h ⟨hnone .read, hnone .write⟩

/-- A task that runs alone: the guards it holds, the shared state and what is left to do. -/
structure Config (ι σ α : Type) where
  held : List (ι × Mode)
  shared : σ
  task : Task ι σ α

variable [DecidableEq ι]

inductive Step : Config ι σ α → Config ι σ α → Prop
  | acquire {held : List (ι × Mode)} {s : σ} {lock : ι} {mode : Mode} {rest : Task ι σ α} (h : Grants held lock mode) :
      Step ⟨held, s, .acquire lock mode rest⟩ ⟨(lock, mode) :: held, s, rest⟩
  | release (held : List (ι × Mode)) (s : σ) (lock : ι) (mode : Mode) (rest : Task ι σ α) :
      Step ⟨held, s, .release lock mode rest⟩ ⟨held.erase (lock, mode), s, rest⟩
  | look (held : List (ι × Mode)) (s : σ) (rest : σ → Task ι σ α) : Step ⟨held, s, .look rest⟩ ⟨held, s, rest s⟩
  | update (held : List (ι × Mode)) (s : σ) (f : σ → σ) (rest : Task ι σ α) :
      Step ⟨held, s, .update f rest⟩ ⟨held, f s, rest⟩

abbrev Steps : Config ι σ α → Config ι σ α → Prop := Relation.ReflTransGen Step

/-- The task waits for a guard that is not granted, and holds a guard on the same lock. -/
def Config.WaitsOnItself (c : Config ι σ α) : Prop :=
  ∃ lock mode rest, c.task = .acquire lock mode rest ∧ ¬ Grants c.held lock mode ∧ ∃ mode', (lock, mode') ∈ c.held

instance (c : Config ι σ α) : Decidable c.WaitsOnItself :=
  match c with
  | ⟨held, _, .acquire lock mode rest⟩ =>
      if h : Grants held lock mode then
        isFalse fun ⟨_, _, _, htask, hrefused, _⟩ => by cases htask; exact hrefused h
      else isTrue ⟨lock, mode, rest, rfl, h, exists_held_of_not_grants h⟩
  | ⟨_, _, .ret _⟩ => isFalse fun ⟨_, _, _, htask, _⟩ => by cases htask
  | ⟨_, _, .release _ _ _⟩ => isFalse fun ⟨_, _, _, htask, _⟩ => by cases htask
  | ⟨_, _, .look _⟩ => isFalse fun ⟨_, _, _, htask, _⟩ => by cases htask
  | ⟨_, _, .update _ _⟩ => isFalse fun ⟨_, _, _, htask, _⟩ => by cases htask

namespace Task

/-- The configuration in which a run stops: the task has ended, or the next guard is not granted. -/
def exec : Task ι σ α → List (ι × Mode) → σ → Config ι σ α
  | .ret a, held, s => ⟨held, s, .ret a⟩
  | .acquire lock mode rest, held, s =>
      if Grants held lock mode then rest.exec ((lock, mode) :: held) s else ⟨held, s, .acquire lock mode rest⟩
  | .release lock mode rest, held, s => rest.exec (held.erase (lock, mode)) s
  | .look rest, held, s => (rest s).exec held s
  | .update f rest, held, s => rest.exec held (f s)

theorem steps_exec (t : Task ι σ α) (held : List (ι × Mode)) (s : σ) : Steps ⟨held, s, t⟩ (t.exec held s) := by
  induction t generalizing held s with
  | ret a => exact .refl
  | acquire lock mode rest ih =>
      rw [exec]
      split_ifs with hgrants
      · exact Relation.ReflTransGen.head (.acquire hgrants) (ih _ s)
      · exact .refl
  | release lock mode rest ih => exact Relation.ReflTransGen.head (.release held s lock mode rest) (ih _ s)
  | look rest ih => exact Relation.ReflTransGen.head (.look held s rest) (ih s held s)
  | update f rest ih => exact Relation.ReflTransGen.head (.update held s f rest) (ih held (f s))

end Task

/-- A step does not change where the run stops. -/
theorem Step.exec_eq {c c' : Config ι σ α} (h : Step c c') :
    c'.task.exec c'.held c'.shared = c.task.exec c.held c.shared := by
  cases h with
  | acquire hgrants => rw [Task.exec, if_pos hgrants]
  | release => rfl
  | look => rfl
  | update => rfl

theorem Steps.exec_eq {c c' : Config ι σ α} (h : Steps c c') :
    c'.task.exec c'.held c'.shared = c.task.exec c.held c.shared := by
  induction h with
  | refl => rfl
  | tail _ hstep ih => exact hstep.exec_eq.trans ih

theorem Config.WaitsOnItself.exec_eq {c : Config ι σ α} (h : c.WaitsOnItself) : c.task.exec c.held c.shared = c := by
  obtain ⟨held, s, t⟩ := c
  obtain ⟨lock, mode, rest, rfl, hrefused, -⟩ := h
  exact if_neg hrefused

/-- Some reachable configuration waits on itself exactly if the run stops in one. -/
theorem exists_waits_iff {c : Config ι σ α} :
    (∃ c', Steps c c' ∧ c'.WaitsOnItself) ↔ (c.task.exec c.held c.shared).WaitsOnItself := by
  constructor
  · intro ⟨c', hsteps, hwaits⟩
    rw [← hsteps.exec_eq, hwaits.exec_eq]
    exact hwaits
  · intro h
    exact ⟨_, c.task.steps_exec c.held c.shared, h⟩

/-- The task ends with a result exactly if the run stops with it. -/
theorem exists_ret_iff {c : Config ι σ α} {a : α} :
    (∃ c', Steps c c' ∧ c'.task = .ret a) ↔ (c.task.exec c.held c.shared).task = .ret a := by
  constructor
  · intro ⟨c', hsteps, hret⟩
    rw [← hsteps.exec_eq, hret]
    rfl
  · intro h
    exact ⟨_, c.task.steps_exec c.held c.shared, h⟩

namespace Task

protected def bind : Task ι σ α → (α → Task ι σ β) → Task ι σ β
  | .ret a, k => k a
  | .acquire lock mode rest, k => .acquire lock mode (rest.bind k)
  | .release lock mode rest, k => .release lock mode (rest.bind k)
  | .look rest, k => .look fun s => (rest s).bind k
  | .update f rest, k => .update f (rest.bind k)

/-- What a task does if every guard is granted. -/
def run : Task ι σ α → σ → α × σ
  | .ret a, s => (a, s)
  | .acquire _ _ rest, s => rest.run s
  | .release _ _ rest, s => rest.run s
  | .look rest, s => (rest s).run s
  | .update f rest, s => rest.run (f s)

omit [DecidableEq ι] in
theorem run_bind (t : Task ι σ α) (k : α → Task ι σ β) (s : σ) : (t.bind k).run s = (k (t.run s).1).run (t.run s).2 := by
  induction t generalizing s with
  | ret a => rfl
  | acquire lock mode rest ih => exact ih s
  | release lock mode rest ih => exact ih s
  | look rest ih => exact ih s s
  | update f rest ih => exact ih (f s)

theorem exec_bind_of_ret {t : Task ι σ α} {k : α → Task ι σ β} {held held' : List (ι × Mode)} {s s' : σ} {a : α}
    (h : t.exec held s = ⟨held', s', .ret a⟩) : (t.bind k).exec held s = (k a).exec held' s' := by
  induction t generalizing held s with
  | ret b =>
      cases h
      rfl
  | acquire lock mode rest ih =>
      rw [exec] at h
      split_ifs at h with hgrants
      · rw [Task.bind, exec, if_pos hgrants]
        exact ih h
      · cases h
  | release lock mode rest ih => exact ih h
  | look rest ih => exact ih s h
  | update f rest ih => exact ih h

/-- A task that waits also waits as a part of a longer one. -/
theorem exec_bind_waits {t : Task ι σ α} (k : α → Task ι σ β) {held : List (ι × Mode)} {s : σ}
    (h : (t.exec held s).WaitsOnItself) : ((t.bind k).exec held s).WaitsOnItself := by
  induction t generalizing held s with
  | ret b =>
      obtain ⟨lock, mode, rest, htask, -⟩ := h
      cases htask
  | acquire lock mode rest ih =>
      rw [exec] at h
      rw [Task.bind, exec]
      split_ifs at h ⊢ with hgrants
      · exact ih h
      · exact ⟨lock, mode, rest.bind k, rfl, hgrants, exists_held_of_not_grants hgrants⟩
  | release lock mode rest ih => exact ih h
  | look rest ih => exact ih s h
  | update f rest ih => exact ih h

end Task

/-- A task that fails with an `ε` or returns an `α`. -/
def Routine (ι σ ε α : Type) := Task ι σ (Except ε α)

namespace Routine

protected def pure (a : α) : Routine ι σ ε α := .ret (.ok a)

/-- Go on after a success; a failure ends the routine. -/
protected def bind (m : Routine ι σ ε α) (f : α → Routine ι σ ε β) : Routine ι σ ε β :=
  Task.bind m fun
    | .ok a => f a
    | .error e => .ret (.error e)

instance : Monad (Routine ι σ ε) where
  pure := Routine.pure
  bind := Routine.bind

def lift (x : Except ε α) : Routine ι σ ε α := .ret x

/-- Read the shared state. -/
def look : Routine ι σ ε σ := Task.look fun s => .ret (.ok s)

/-- Change the shared state. -/
def update (f : σ → σ) : Routine ι σ ε Unit := Task.update f (.ret (.ok ()))

/-- Run under a guard, which is dropped at the end, also after a failure. -/
def holding (lock : ι) (mode : Mode) (m : Routine ι σ ε α) : Routine ι σ ε α :=
  .acquire lock mode (Task.bind m fun r => .release lock mode (.ret r))

/-- Go on with the result, whatever it is. -/
def handle (m : Routine ι σ ε α) (f : Except ε α → Routine ι σ ε β) : Routine ι σ ε β := Task.bind m f

/-- The routine as a computation on the shared state. -/
def toEff (m : Routine ι σ ε α) : Eff σ ε α := Task.run m

section

omit [DecidableEq ι]

@[simp] theorem toEff_pure (a : α) : (pure a : Routine ι σ ε α).toEff = pure a := rfl

@[simp] theorem toEff_lift (x : Except ε α) : (lift x : Routine ι σ ε α).toEff = Eff.lift x := by
  funext s
  rw [Eff.lift_apply]
  rfl

@[simp] theorem toEff_look : (look : Routine ι σ ε σ).toEff = Eff.read := rfl

@[simp] theorem toEff_update (f : σ → σ) : (update f : Routine ι σ ε Unit).toEff = Eff.modify f := rfl

@[simp] theorem toEff_bind (m : Routine ι σ ε α) (f : α → Routine ι σ ε β) :
    (m >>= f).toEff = m.toEff >>= fun a => (f a).toEff := by
  funext s
  rcases h : m.toEff s with ⟨e | a, s'⟩
  · rw [Eff.bind_of_error h]
    refine (Task.run_bind m _ s).trans ?_
    rw [show Task.run m s = (.error e, s') from h]
    rfl
  · rw [Eff.bind_of_ok h]
    refine (Task.run_bind m _ s).trans ?_
    rw [show Task.run m s = (.ok a, s') from h]
    rfl

@[simp] theorem toEff_holding (lock : ι) (mode : Mode) (m : Routine ι σ ε α) : (holding lock mode m).toEff = m.toEff := by
  funext s
  exact Task.run_bind m _ s

theorem toEff_handle (m : Routine ι σ ε α) (f : Except ε α → Routine ι σ ε β) (s : σ) :
    (handle m f).toEff s = (f (m.toEff s).1).toEff (m.toEff s).2 := Task.run_bind m f s

end

/-- The routine ends with the guards that it was started with. -/
def Ends (m : Routine ι σ ε α) (held : List (ι × Mode)) (s : σ) (r : Except ε α) (s' : σ) : Prop :=
  Task.exec m held s = ⟨held, s', .ret r⟩

/-- The routine comes to wait for a lock that its task holds. -/
def Blocks (m : Routine ι σ ε α) (held : List (ι × Mode)) (s : σ) : Prop := (Task.exec m held s).WaitsOnItself

variable {m : Routine ι σ ε α} {held : List (ι × Mode)} {s s' s'' : σ} {r : Except ε α} {lock : ι} {mode : Mode}

theorem Ends.not_blocks (h : m.Ends held s r s') : ¬ m.Blocks held s := by
  intro hblocks
  obtain ⟨lock, mode, rest, htask, -⟩ := hblocks
  rw [h] at htask
  cases htask

theorem ends_lift (x : Except ε α) : (lift x : Routine ι σ ε α).Ends held s x s := rfl

theorem ends_pure (a : α) : (pure a : Routine ι σ ε α).Ends held s (.ok a) s := rfl

theorem ends_look : (look : Routine ι σ ε σ).Ends held s (.ok s) s := rfl

/-- After a part that ends with a value, the rest goes on with it. -/
theorem Ends.exec_bind {f : α → Routine ι σ ε β} {a : α} (hm : m.Ends held s (.ok a) s') :
    Task.exec (m >>= f : Routine ι σ ε β) held s = Task.exec (f a) held s' := Task.exec_bind_of_ret hm

theorem ends_bind {f : α → Routine ι σ ε β} {a : α} {r : Except ε β} (hm : m.Ends held s (.ok a) s')
    (hf : (f a).Ends held s' r s'') : (m >>= f).Ends held s r s'' := hm.exec_bind.trans hf

theorem ends_bind_error {f : α → Routine ι σ ε β} {e : ε} (hm : m.Ends held s (.error e) s') :
    (m >>= f).Ends held s (.error e) s' := Task.exec_bind_of_ret hm

/-- Parts that only check come together in one check. -/
theorem exec_check_bind {γ : Type} {f : α → Routine ι σ ε γ} {y : α → Except ε β} {k : β → Routine ι σ ε γ}
    (hm : m.Ends held s r s)
    (hf : ∀ a, Task.exec (f a) held s = Task.exec (lift (y a) >>= k : Routine ι σ ε γ) held s) :
    Task.exec (m >>= f : Routine ι σ ε γ) held s = Task.exec (lift (r >>= y) >>= k : Routine ι σ ε γ) held s := by
  cases r with
  | error e => exact ends_bind_error hm
  | ok a => exact hm.exec_bind.trans (hf a)

theorem ends_handle {f : Except ε α → Routine ι σ ε β} {r' : Except ε β} (hm : m.Ends held s r s')
    (hf : (f r).Ends held s' r' s'') : (handle m f).Ends held s r' s'' := (Task.exec_bind_of_ret hm).trans hf

theorem ends_holding (hgrants : Grants held lock mode) (hm : m.Ends ((lock, mode) :: held) s r s') :
    (holding lock mode m).Ends held s r s' := by
  change Task.exec (.acquire lock mode _) held s = _
  rw [Task.exec, if_pos hgrants, Task.exec_bind_of_ret hm, Task.exec, Task.exec, List.erase_cons_head]

theorem blocks_bind_left (f : α → Routine ι σ ε β) (hm : m.Blocks held s) : (m >>= f).Blocks held s :=
  Task.exec_bind_waits _ hm

theorem blocks_bind {f : α → Routine ι σ ε β} {a : α} (hm : m.Ends held s (.ok a) s') (hf : (f a).Blocks held s') :
    (m >>= f).Blocks held s := by
  rwa [Blocks, hm.exec_bind]

theorem blocks_handle_left (f : Except ε α → Routine ι σ ε β) (hm : m.Blocks held s) : (handle m f).Blocks held s :=
  Task.exec_bind_waits _ hm

theorem blocks_holding (hgrants : Grants held lock mode) (hm : m.Blocks ((lock, mode) :: held) s) :
    (holding lock mode m).Blocks held s := by
  change (Task.exec (.acquire lock mode _) held s).WaitsOnItself
  rw [Task.exec, if_pos hgrants]
  exact Task.exec_bind_waits _ hm

theorem blocks_holding_of_not_grants (hrefused : ¬ Grants held lock mode) (m : Routine ι σ ε α) :
    (holding lock mode m).Blocks held s := by
  change (Task.exec (.acquire lock mode _) held s).WaitsOnItself
  rw [Task.exec, if_neg hrefused]
  exact ⟨lock, mode, _, rfl, hrefused, exists_held_of_not_grants hrefused⟩

end Routine

end Lock
