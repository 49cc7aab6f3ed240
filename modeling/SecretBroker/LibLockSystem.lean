import SecretBroker.LibLock

/-! Several tasks at once, under read-write locks with fair queues: who asks first is served first, so a
waiting writer also keeps later readers waiting. If every task takes its locks in the order of a rank, then
no run gets stuck and every run ends, whichever task is chosen to take the next step. -/

namespace Lock

variable {κ ι σ α β ε : Type}

/-- A task under way: the guards it holds and what is left to do. -/
structure Worker (ι σ α : Type) where
  held : List (ι × Mode)
  task : Task ι σ α

/-- Tasks that share a state. Each lock has a queue of the tasks that wait for it. -/
structure System (κ ι σ α : Type) where
  shared : σ
  worker : κ → Worker ι σ α
  queue : ι → List κ

/-- A worker takes the next step of its task, once it may. -/
inductive Move [DecidableEq ι] : σ → Worker ι σ α → σ → Worker ι σ α → Prop
  | acquire (s : σ) (held : List (ι × Mode)) (lock : ι) (mode : Mode) (rest : Task ι σ α) :
      Move s ⟨held, .acquire lock mode rest⟩ s ⟨(lock, mode) :: held, rest⟩
  | release (s : σ) (held : List (ι × Mode)) (lock : ι) (mode : Mode) (rest : Task ι σ α) :
      Move s ⟨held, .release lock mode rest⟩ s ⟨held.erase (lock, mode), rest⟩
  | look (s : σ) (held : List (ι × Mode)) (rest : σ → Task ι σ α) : Move s ⟨held, .look rest⟩ s ⟨held, rest s⟩
  | update (s : σ) (held : List (ι × Mode)) (f : σ → σ) (rest : Task ι σ α) :
      Move s ⟨held, .update f rest⟩ (f s) ⟨held, rest⟩

/-- What the worker waits for, if it waits. -/
def Worker.Awaits (w : Worker ι σ α) (lock : ι) (mode : Mode) : Prop := ∃ rest, w.task = .acquire lock mode rest

/-- The task has come to its end. -/
def Worker.Returned (w : Worker ι σ α) : Prop := ∃ a, w.task = .ret a

namespace System

variable [DecidableEq κ] [DecidableEq ι]

/-- No guard that anyone holds stands against this one. -/
def Free (c : System κ ι σ α) (lock : ι) (mode : Mode) : Prop := ∀ k, Grants (c.worker k).held lock mode

/-- One step of the system: a worker joins a queue, the first in a queue gets its guard, or a worker that
waits for nothing moves. -/
inductive Step : System κ ι σ α → System κ ι σ α → Prop
  | wait {c : System κ ι σ α} {k : κ} {lock : ι} {mode : Mode} (hawaits : (c.worker k).Awaits lock mode)
      (hnew : k ∉ c.queue lock) : Step c { c with queue := Function.update c.queue lock (c.queue lock ++ [k]) }
  | grant {c : System κ ι σ α} {k : κ} {ks : List κ} {lock : ι} {mode : Mode} {w : Worker ι σ α}
      (hawaits : (c.worker k).Awaits lock mode) (hfirst : c.queue lock = k :: ks) (hfree : c.Free lock mode)
      (hmove : Move c.shared (c.worker k) c.shared w) :
      Step c ⟨c.shared, Function.update c.worker k w, Function.update c.queue lock ks⟩
  | move {c : System κ ι σ α} {k : κ} {s : σ} {w : Worker ι σ α} (hbusy : ∀ lock mode, ¬ (c.worker k).Awaits lock mode)
      (hmove : Move c.shared (c.worker k) s w) : Step c ⟨s, Function.update c.worker k w, c.queue⟩

abbrev Steps : System κ ι σ α → System κ ι σ α → Prop := Relation.ReflTransGen Step

/-- All tasks at their start. -/
def start (s : σ) (tasks : κ → Task ι σ α) : System κ ι σ α := ⟨s, fun k => ⟨[], tasks k⟩, fun _ => []⟩

/-- Either nobody moves or one worker does, and the others stay as they are. -/
theorem Step.still_or_move {c c' : System κ ι σ α} (h : Step c c') :
    (c'.shared = c.shared ∧ c'.worker = c.worker) ∨
      ∃ k, Move c.shared (c.worker k) c'.shared (c'.worker k) ∧ ∀ j ≠ k, c'.worker j = c.worker j := by
  cases h with
  | wait => exact Or.inl ⟨rfl, rfl⟩
  | @grant k ks lock mode w hawaits hfirst hfree hmove =>
      refine Or.inr ⟨k, ?_, fun j hj => Function.update_of_ne hj _ _⟩
      simpa only [Function.update_self] using hmove
  | @move k s w hbusy hmove =>
      refine Or.inr ⟨k, ?_, fun j hj => Function.update_of_ne hj _ _⟩
      simpa only [Function.update_self] using hmove

/-- What every step keeps holds in every reachable configuration. -/
theorem Steps.invariant {P : System κ ι σ α → Prop} (hstep : ∀ c c', Step c c' → P c → P c') {c c' : System κ ι σ α}
    (h : Steps c c') (hc : P c) : P c' := by
  induction h with
  | refl => exact hc
  | tail _ hlast ih => exact hstep _ _ hlast ih

end System

/-- The same routine under another error type. -/
def Routine.mapError {ε' : Type} (f : ε → ε') (m : Routine ι σ ε α) : Routine ι σ ε' α :=
  Task.bind m fun r => .ret (r.mapError f)

theorem Routine.toEff_mapError {ε' : Type} (f : ε → ε') (m : Routine ι σ ε α) :
    (mapError f m).toEff = Eff.mapError f m.toEff := by
  funext s
  refine (Task.run_bind m _ s).trans ?_
  rcases h : m.toEff s with ⟨e | a, s'⟩
  · rw [Eff.mapError_of_error h, show Task.run m s = (.error e, s') from h]
    rfl
  · rw [Eff.mapError_of_ok h, show Task.run m s = (.ok a, s') from h]
    rfl

namespace Task

variable [DecidableEq ι] (rank : ι → ℕ)

/-- The task takes a lock only above all locks that it holds. Started with some guards it ends with others. -/
def Climbs : Task ι σ α → List (ι × Mode) → List (ι × Mode) → Prop
  | .ret _, held, final => held = final
  | .acquire lock mode rest, held, final =>
      (∀ guard ∈ held, rank guard.1 < rank lock) ∧ rest.Climbs ((lock, mode) :: held) final
  | .release lock mode rest, held, final => rest.Climbs (held.erase (lock, mode)) final
  | .look rest, held, final => ∀ s, (rest s).Climbs held final
  | .update _ rest, held, final => rest.Climbs held final

variable {rank}

theorem Climbs.bind {t : Task ι σ α} {k : α → Task ι σ β} {held middle final : List (ι × Mode)}
    (ht : t.Climbs rank held middle) (hk : ∀ a, (k a).Climbs rank middle final) : (t.bind k).Climbs rank held final := by
  induction t generalizing held with
  | ret a =>
      cases ht
      exact hk a
  | acquire lock mode rest ih => exact ⟨ht.1, ih ht.2⟩
  | release lock mode rest ih => exact ih ht
  | look rest ih => exact fun s => ih s (ht s)
  | update f rest ih => exact ih ht

end Task

namespace Routine

variable [DecidableEq ι] {rank : ι → ℕ} {held : List (ι × Mode)} {m : Routine ι σ ε α}

/-- The routine takes its locks in order and drops them all. -/
def Climbs (rank : ι → ℕ) (m : Routine ι σ ε α) (held : List (ι × Mode)) : Prop := Task.Climbs rank m held held

theorem climbs_lift (x : Except ε α) : (lift x : Routine ι σ ε α).Climbs rank held := rfl

theorem climbs_pure (a : α) : (pure a : Routine ι σ ε α).Climbs rank held := rfl

theorem climbs_look : (look : Routine ι σ ε σ).Climbs rank held := fun _ => rfl

theorem climbs_update (f : σ → σ) : (update f : Routine ι σ ε Unit).Climbs rank held := rfl

theorem climbs_bind {f : α → Routine ι σ ε β} (hm : m.Climbs rank held) (hf : ∀ a, (f a).Climbs rank held) :
    (m >>= f).Climbs rank held := by
  apply Task.Climbs.bind hm
  intro r
  cases r with
  | ok a => exact hf a
  | error e => exact rfl

theorem climbs_mapError {ε' : Type} {f : ε → ε'} (hm : m.Climbs rank held) : (mapError f m).Climbs rank held :=
  Task.Climbs.bind hm fun _ => rfl

theorem climbs_holding {lock : ι} (mode : Mode) (habove : ∀ guard ∈ held, rank guard.1 < rank lock)
    (hm : m.Climbs rank ((lock, mode) :: held)) : (holding lock mode m).Climbs rank held := by
  refine ⟨habove, Task.Climbs.bind hm fun r => ?_⟩
  rw [Task.Climbs, Task.Climbs, List.erase_cons_head]

end Routine

namespace System

variable [DecidableEq κ] [DecidableEq ι] {rank : ι → ℕ}

/-- Every task keeps to the order of the locks, and those in a queue wait for its lock. -/
structure Orderly (rank : ι → ℕ) (c : System κ ι σ α) : Prop where
  climbs : ∀ k, (c.worker k).task.Climbs rank (c.worker k).held []
  waiting : ∀ lock, ∀ k ∈ c.queue lock, ∃ mode, (c.worker k).Awaits lock mode
  nodup : ∀ lock, (c.queue lock).Nodup

omit [DecidableEq κ] in
theorem orderly_start (s : σ) {tasks : κ → Task ι σ α} (h : ∀ k, (tasks k).Climbs rank [] []) :
    (start s tasks).Orderly rank :=
  ⟨h, fun _ _ hk => absurd hk List.not_mem_nil, fun _ => List.nodup_nil⟩

omit [DecidableEq κ] in
theorem climbs_of_move {s s' : σ} {w w' : Worker ι σ α} (h : Move s w s' w') (hw : w.task.Climbs rank w.held []) :
    w'.task.Climbs rank w'.held [] := by
  cases h with
  | acquire => exact hw.2
  | release => exact hw
  | look => exact hw s
  | update => exact hw

theorem Step.climbs {c c' : System κ ι σ α} (h : Step c c')
    (hc : ∀ k, (c.worker k).task.Climbs rank (c.worker k).held []) :
    ∀ k, (c'.worker k).task.Climbs rank (c'.worker k).held [] := by
  intro j
  rcases h.still_or_move with ⟨-, hworker⟩ | ⟨k, hmove, hothers⟩
  · rw [hworker]
    exact hc j
  · by_cases hj : j = k
    · subst hj
      exact climbs_of_move hmove (hc j)
    · rw [hothers j hj]
      exact hc j

/-- A worker that has moved waits for nothing, or has left the queue; the others keep their places. -/
theorem Step.orderly {c c' : System κ ι σ α} (h : Step c c') (hc : c.Orderly rank) : c'.Orderly rank := by
  refine ⟨h.climbs hc.climbs, ?_, ?_⟩
  · intro lock j hj
    cases h with
    | @wait k lock' mode hawaits hnew =>
        by_cases hlock : lock = lock'
        · subst hlock
          simp only [Function.update_self, List.mem_append, List.mem_singleton] at hj
          rcases hj with hj | rfl
          · exact hc.waiting lock j hj
          · exact ⟨mode, hawaits⟩
        · simp only [Function.update_of_ne hlock] at hj
          exact hc.waiting lock j hj
    | @grant k ks lock' mode w hawaits hfirst hfree hmove =>
        have hnodup := hc.nodup lock'
        rw [hfirst, List.nodup_cons] at hnodup
        -- the worker that was served is in no queue any more
        have hne : j ≠ k ∧ j ∈ c.queue lock := by
          by_cases hlock : lock = lock'
          · subst hlock
            simp only [Function.update_self] at hj
            exact ⟨fun hjk => hnodup.1 (hjk ▸ hj), hfirst ▸ List.mem_cons_of_mem k hj⟩
          · simp only [Function.update_of_ne hlock] at hj
            refine ⟨fun hjk => ?_, hj⟩
            obtain ⟨mode', rest, htask⟩ := hc.waiting lock j hj
            obtain ⟨rest', htask'⟩ := hawaits
            rw [hjk, htask'] at htask
            cases htask
            exact hlock rfl
        simp only [Function.update_of_ne hne.1]
        exact hc.waiting lock j hne.2
    | @move k s w hbusy hmove =>
        obtain ⟨mode, hawaits⟩ := hc.waiting lock j hj
        have hne : j ≠ k := fun hjk => hbusy lock mode (hjk ▸ hawaits)
        simp only [Function.update_of_ne hne]
        exact ⟨mode, hawaits⟩
  · intro lock
    cases h with
    | @wait k lock' mode hawaits hnew =>
        by_cases hlock : lock = lock'
        · subst hlock
          simp only [Function.update_self]
          exact List.nodup_append'.mpr ⟨hc.nodup lock, List.nodup_singleton k, List.disjoint_singleton.mpr hnew⟩
        · simp only [Function.update_of_ne hlock]
          exact hc.nodup lock
    | @grant k ks lock' mode w hawaits hfirst hfree hmove =>
        by_cases hlock : lock = lock'
        · subst hlock
          simp only [Function.update_self]
          exact (List.nodup_cons.mp (hfirst ▸ hc.nodup lock)).2
        · simp only [Function.update_of_ne hlock]
          exact hc.nodup lock
    | move => exact hc.nodup lock

/-! ### One task at a time -/

omit [DecidableEq κ] [DecidableEq ι] in
/-- The locks below which a task keeps do not stand in its way. -/
theorem grants_of_below {held : List (ι × Mode)} {lock : ι} {mode : Mode}
    (h : ∀ guard ∈ held, rank guard.1 < rank lock) : Grants held lock mode := by
  have hfree : ∀ mode', (lock, mode') ∉ held := fun mode' hmem => lt_irrefl _ (h _ hmem)
  cases mode with
  | read => exact hfree .write
  | write => exact ⟨hfree .read, hfree .write⟩

/-- A step that does not wait, before the rest of a run. -/
theorem steps_of_move {c c' : System κ ι σ α} {k : κ} {s : σ} {w w' : Worker ι σ α} (hk : c.worker k = w)
    (hbusy : ∀ lock mode, ¬ w.Awaits lock mode) (hmove : Move c.shared w s w')
    (hrest : Steps ⟨s, Function.update c.worker k w', c.queue⟩ c') : Steps c c' := by
  subst hk
  exact .head (.move hbusy hmove) hrest

/-- A guard that is free is given to the only one who waits for it. -/
theorem steps_of_grant {c c' : System κ ι σ α} {k : κ} {held : List (ι × Mode)} {lock : ι} {mode : Mode}
    {rest : Task ι σ α} (hk : c.worker k = ⟨held, .acquire lock mode rest⟩) (hqueue : c.queue lock = [])
    (hfree : c.Free lock mode)
    (hrest : Steps ⟨c.shared, Function.update c.worker k ⟨(lock, mode) :: held, rest⟩, c.queue⟩ c') : Steps c c' := by
  have hawaits : (c.worker k).Awaits lock mode := ⟨rest, congrArg Worker.task hk⟩
  have hmove : Move c.shared (c.worker k) c.shared ⟨(lock, mode) :: held, rest⟩ := by
    rw [hk]
    exact .acquire _ _ _ _ _
  have hfirst : Function.update c.queue lock (c.queue lock ++ [k]) lock = [k] := by
    rw [Function.update_self, hqueue, List.nil_append]
  have hleft : Function.update (Function.update c.queue lock (c.queue lock ++ [k])) lock [] = c.queue := by
    rw [Function.update_idem, ← hqueue, Function.update_eq_self]
  refine .head (.wait hawaits (hqueue ▸ List.not_mem_nil)) (.head (.grant hawaits hfirst hfree hmove) ?_)
  simpa only [hleft] using hrest

omit [DecidableEq ι] in
theorem held_update_of_ne {worker : κ → Worker ι σ α} {k : κ} (h : ∀ j ≠ k, (worker j).held = []) (w : Worker ι σ α) :
    ∀ j ≠ k, (Function.update worker k w j).held = [] := by
  intro j hj
  rw [Function.update_of_ne hj]
  exact h j hj

/-- While the others hold nothing, a task can run to its end, and then it has done what it does when every
guard is granted. -/
theorem steps_alone {c : System κ ι σ α} {k : κ} (hqueue : ∀ lock, c.queue lock = [])
    (hothers : ∀ j ≠ k, (c.worker j).held = []) {held : List (ι × Mode)} {t : Task ι σ α}
    (hk : c.worker k = ⟨held, t⟩) (hclimbs : t.Climbs rank held []) :
    Steps c ⟨(t.run c.shared).2, Function.update c.worker k ⟨[], .ret (t.run c.shared).1⟩, c.queue⟩ := by
  induction t generalizing c held with
  | ret a =>
      obtain rfl : held = [] := hclimbs
      rw [Task.run, ← hk, Function.update_eq_self]
  | acquire lock mode rest ih =>
      have hfree : c.Free lock mode := by
        intro j
        by_cases hj : j = k
        · subst hj
          rw [hk]
          exact grants_of_below hclimbs.1
        · have hnone : ∀ guard ∈ ([] : List (ι × Mode)), rank guard.1 < rank lock := fun _ h => absurd h List.not_mem_nil
          rw [hothers j hj]
          exact grants_of_below hnone
      refine steps_of_grant hk (hqueue lock) hfree ?_
      have hrest := ih (c := ⟨c.shared, Function.update c.worker k ⟨(lock, mode) :: held, rest⟩, c.queue⟩) hqueue
        (held_update_of_ne hothers _) (Function.update_self ..) hclimbs.2
      rwa [Function.update_idem] at hrest
  | release lock mode rest ih =>
      refine steps_of_move hk (fun _ _ ⟨_, htask⟩ => by cases htask) (.release _ _ _ _ _) ?_
      have hrest := ih (c := ⟨c.shared, Function.update c.worker k ⟨held.erase (lock, mode), rest⟩, c.queue⟩) hqueue
        (held_update_of_ne hothers _) (Function.update_self ..) hclimbs
      rwa [Function.update_idem] at hrest
  | look rest ih =>
      refine steps_of_move hk (fun _ _ ⟨_, htask⟩ => by cases htask) (.look _ _ _) ?_
      have hrest := ih c.shared (c := ⟨c.shared, Function.update c.worker k ⟨held, rest c.shared⟩, c.queue⟩) hqueue
        (held_update_of_ne hothers _) (Function.update_self ..) (hclimbs c.shared)
      rwa [Function.update_idem] at hrest
  | update f rest ih =>
      refine steps_of_move hk (fun _ _ ⟨_, htask⟩ => by cases htask) (.update _ _ _ _) ?_
      have hrest := ih (c := ⟨f c.shared, Function.update c.worker k ⟨held, rest⟩, c.queue⟩) hqueue
        (held_update_of_ne hothers _) (Function.update_self ..) hclimbs
      rwa [Function.update_idem] at hrest

/-- A worker that does not wait and has not returned can move. -/
theorem exists_step_of_busy {c : System κ ι σ α} {k : κ} (hreturned : ¬ (c.worker k).Returned)
    (hbusy : ∀ lock mode, ¬ (c.worker k).Awaits lock mode) : ∃ c', Step c c' := by
  have hmove : ∃ s w, Move c.shared (c.worker k) s w := by
    rcases hworker : c.worker k with ⟨held, a | ⟨lock, mode, rest⟩ | ⟨lock, mode, rest⟩ | rest | ⟨f, rest⟩⟩
    · exact absurd ⟨a, congrArg Worker.task hworker⟩ hreturned
    · exact absurd ⟨rest, congrArg Worker.task hworker⟩ (hbusy lock mode)
    · exact ⟨_, _, .release c.shared held lock mode rest⟩
    · exact ⟨_, _, .look c.shared held rest⟩
    · exact ⟨_, _, .update c.shared held f rest⟩
  obtain ⟨s, w, hmove⟩ := hmove
  exact ⟨_, .move hbusy hmove⟩

/-- If the first in a queue cannot be served, then someone holds the lock. -/
theorem exists_holder {c : System κ ι σ α} (hc : c.Orderly rank) (hstuck : ∀ c', ¬ Step c c') {k : κ} {lock : ι}
    {mode : Mode} (hawaits : (c.worker k).Awaits lock mode) : ∃ j mode', (lock, mode') ∈ (c.worker j).held := by
  have hqueued : k ∈ c.queue lock := by
    by_contra hnew
    exact hstuck _ (.wait hawaits hnew)
  obtain ⟨first, ks, hfirst⟩ := List.exists_cons_of_ne_nil (List.ne_nil_of_mem hqueued)
  have hmem : first ∈ c.queue lock := hfirst ▸ List.mem_cons_self
  obtain ⟨mode₀, hawaits₀⟩ := hc.waiting lock first hmem
  have hbusy : ¬ c.Free lock mode₀ := by
    intro hfree
    obtain ⟨rest, htask⟩ := hawaits₀
    have hmove : Move c.shared ⟨(c.worker first).held, (c.worker first).task⟩ c.shared
        ⟨(lock, mode₀) :: (c.worker first).held, rest⟩ := by
      rw [htask]
      exact .acquire _ _ _ _ _
    exact hstuck _ (.grant ⟨rest, htask⟩ hfirst hfree hmove)
  simp only [Free, not_forall] at hbusy
  obtain ⟨j, hrefused⟩ := hbusy
  obtain ⟨mode', hheld⟩ := exists_held_of_not_grants hrefused
  exact ⟨j, mode', hheld⟩

/-- The rank of the lock that a worker waits for, counted from one. -/
def Worker.height (rank : ι → ℕ) (w : Worker ι σ α) : ℕ :=
  match w.task with
  | .acquire lock _ _ => rank lock + 1
  | _ => 0

/-- **No deadlock.** While a task has not returned, some step can be taken. -/
theorem Orderly.exists_step [Finite κ] {c : System κ ι σ α} (hc : c.Orderly rank) {k : κ}
    (hk : ¬ (c.worker k).Returned) : ∃ c', Step c c' := by
  by_contra hstuck
  push Not at hstuck
  have hwaits : ∀ j, ¬ (c.worker j).Returned → ∃ lock mode, (c.worker j).Awaits lock mode := by
    intro j hj
    by_contra hbusy
    push Not at hbusy
    obtain ⟨c', hstep⟩ := exists_step_of_busy hj hbusy
    exact hstuck c' hstep
  -- among the workers that wait, one waits for a lock of the highest rank
  have : Nonempty κ := ⟨k⟩
  obtain ⟨top, htop⟩ := Finite.exists_max fun j => Worker.height rank (c.worker j)
  obtain ⟨lock, mode, rest, htask⟩ := hwaits k hk
  have hpos : 0 < Worker.height rank (c.worker top) := by
    refine lt_of_lt_of_le ?_ (htop k)
    rw [Worker.height, htask]
    exact Nat.succ_pos _
  have htopWaits : ¬ (c.worker top).Returned := by
    rintro ⟨a, ha⟩
    rw [Worker.height, ha] at hpos
    exact lt_irrefl 0 hpos
  obtain ⟨lock₀, mode₀, rest₀, htask₀⟩ := hwaits top htopWaits
  -- whoever holds that lock waits for one above it
  obtain ⟨j, mode', hheld⟩ := exists_holder hc hstuck ⟨rest₀, htask₀⟩
  have hclimbs := hc.climbs j
  have hj : ¬ (c.worker j).Returned := by
    rintro ⟨a, ha⟩
    rw [ha] at hclimbs
    rw [show (c.worker j).held = [] from hclimbs] at hheld
    cases hheld
  obtain ⟨lock₁, mode₁, rest₁, htask₁⟩ := hwaits j hj
  rw [htask₁] at hclimbs
  have habove : rank lock₀ < rank lock₁ := hclimbs.1 _ hheld
  have hle := htop j
  simp only [Worker.height, htask₀, htask₁] at hle
  omega

omit [DecidableEq κ] [DecidableEq ι] in
/-- What is left to do after one step of a task. -/
inductive Next : Task ι σ α → Task ι σ α → Prop
  | acquire (lock : ι) (mode : Mode) (rest : Task ι σ α) : Next rest (.acquire lock mode rest)
  | release (lock : ι) (mode : Mode) (rest : Task ι σ α) : Next rest (.release lock mode rest)
  | look (rest : σ → Task ι σ α) (s : σ) : Next (rest s) (.look rest)
  | update (f : σ → σ) (rest : Task ι σ α) : Next rest (.update f rest)

omit [DecidableEq κ] in
theorem next_of_move {s s' : σ} {w w' : Worker ι σ α} (h : Move s w s' w') : Next w'.task w.task := by
  cases h with
  | acquire => exact .acquire _ _ _
  | release => exact .release _ _ _
  | look => exact .look _ _
  | update => exact .update _ _

omit [DecidableEq κ] [DecidableEq ι] in
theorem wellFounded_next : WellFounded (Next : Task ι σ α → Task ι σ α → Prop) := by
  refine ⟨fun t => ?_⟩
  induction t with
  | ret a => exact ⟨_, fun t' h => by cases h⟩
  | acquire lock mode rest ih => exact ⟨_, fun t' h => by cases h; exact ih⟩
  | release lock mode rest ih => exact ⟨_, fun t' h => by cases h; exact ih⟩
  | look rest ih => exact ⟨_, fun t' h => by cases h; exact ih _⟩
  | update f rest ih => exact ⟨_, fun t' h => by cases h; exact ih⟩

/-- How far a worker is: its task, and whether it still has to join a queue. -/
noncomputable def progress (c : System κ ι σ α) (k : κ) : Task ι σ α × Bool :=
  ((c.worker k).task, open Classical in decide (∀ lock, k ∉ c.queue lock))

/-- One worker gets further, first in its task and then in its queue. -/
abbrev Shrinks : (κ → Task ι σ α × Bool) → (κ → Task ι σ α × Bool) → Prop :=
  Pi.Lex WellOrderingRel fun {_} => Prod.Lex Next (· < ·)

omit [DecidableEq κ] [DecidableEq ι] in
theorem wellFounded_shrinks [Finite κ] :
    WellFounded (Shrinks : (κ → Task ι σ α × Bool) → (κ → Task ι σ α × Bool) → Prop) :=
  Pi.Lex.wellFounded _ fun _ => WellFounded.prod_lex wellFounded_next wellFounded_lt

omit [DecidableEq κ] [DecidableEq ι] in
theorem progress_congr {c c' : System κ ι σ α} {j : κ} (hworker : c'.worker j = c.worker j)
    (hqueue : ∀ lock, j ∈ c'.queue lock ↔ j ∈ c.queue lock) : progress c' j = progress c j :=
  Prod.ext (congrArg Worker.task hworker) (decide_eq_decide.mpr (forall_congr' fun lock => not_congr (hqueue lock)))

/-- Every step gets one worker further and leaves the others where they are. -/
theorem Step.shrinks {c c' : System κ ι σ α} (h : Step c c') (hc : c.Orderly rank) :
    Shrinks (progress c') (progress c) := by
  classical
  have hirrefl : ∀ {j k : κ}, WellOrderingRel j k → j ≠ k := fun hjk heq => irrefl_of WellOrderingRel _ (heq ▸ hjk)
  cases h with
  | @wait k lock mode hawaits hnew =>
      refine ⟨k, fun j hj => progress_congr rfl fun lock' => ?_, ?_⟩
      · by_cases hlock : lock' = lock
        · subst hlock
          simp [hirrefl hj]
        · simp [hlock]
      · have hfalse : progress { c with queue := Function.update c.queue lock (c.queue lock ++ [k]) } k =
            ((c.worker k).task, false) := by
          refine Prod.ext rfl (decide_eq_false fun hnone => hnone lock ?_)
          simp
        have htrue : progress c k = ((c.worker k).task, true) := by
          refine Prod.ext rfl (decide_eq_true fun lock' hmem => ?_)
          obtain ⟨mode', rest', htask'⟩ := hc.waiting lock' k hmem
          obtain ⟨rest, htask⟩ := hawaits
          rw [htask] at htask'
          cases htask'
          exact hnew hmem
        rw [hfalse, htrue]
        exact .right _ Bool.false_lt_true
  | @grant k ks lock mode w hawaits hfirst hfree hmove =>
      refine ⟨k, fun j hj => progress_congr (Function.update_of_ne (hirrefl hj) _ _) fun lock' => ?_, .left _ _ ?_⟩
      · by_cases hlock : lock' = lock
        · subst hlock
          simp [hfirst, hirrefl hj]
        · simp [hlock]
      · simp only [Function.update_self]
        exact next_of_move hmove
  | @move k s w hbusy hmove =>
      refine ⟨k, fun j hj => progress_congr (Function.update_of_ne (hirrefl hj) _ _) fun _ => Iff.rfl, .left _ _ ?_⟩
      simp only [Function.update_self]
      exact next_of_move hmove

/-- A run that goes on for as long as it can, whoever is chosen for the next step. -/
def Maximal (run : ℕ → System κ ι σ α) : Prop :=
  ∀ n, Step (run n) (run (n + 1)) ∨ (∀ c, ¬ Step (run n) c) ∧ run (n + 1) = run n

/-- Every configuration starts a maximal run. -/
theorem exists_maximal (c : System κ ι σ α) : ∃ run, run 0 = c ∧ Maximal run := by
  classical
  let next : System κ ι σ α → System κ ι σ α := fun c => if h : ∃ c', Step c c' then h.choose else c
  refine ⟨fun n => next^[n] c, rfl, fun n => ?_⟩
  simp only [Function.iterate_succ_apply']
  by_cases h : ∃ c', Step (next^[n] c) c'
  · left
    simp only [next, dif_pos h]
    exact h.choose_spec
  · right
    exact ⟨fun c' hstep => h ⟨c', hstep⟩, dif_neg h⟩

theorem Maximal.orderly {run : ℕ → System κ ι σ α} (hrun : Maximal run) (h₀ : (run 0).Orderly rank) (n : ℕ) :
    (run n).Orderly rank := by
  induction n with
  | zero => exact h₀
  | succ n ih =>
      rcases hrun n with hstep | ⟨-, hsame⟩
      · exact hstep.orderly ih
      · rw [hsame]
        exact ih

/-- **Completion.** Every maximal run comes to a point where all tasks have returned. -/
theorem Maximal.exists_returned [Finite κ] {run : ℕ → System κ ι σ α} (hrun : Maximal run)
    (h₀ : (run 0).Orderly rank) : ∃ n, ∀ k, ((run n).worker k).Returned := by
  by_contra hnever
  push Not at hnever
  have hsteps : ∀ n, Step (run n) (run (n + 1)) := by
    intro n
    obtain ⟨k, hk⟩ := hnever n
    obtain ⟨c, hstep⟩ := (hrun.orderly h₀ n).exists_step hk
    exact (hrun n).resolve_right fun hstuck => hstuck.1 c hstep
  have hshrinks : ∀ n, Shrinks (progress (run (n + 1))) (progress (run n)) := fun n =>
    (hsteps n).shrinks (hrun.orderly h₀ n)
  exact (wellFounded_iff_isEmpty_descending_chain.mp wellFounded_shrinks).false ⟨fun n => progress (run n), hshrinks⟩

end System

end Lock
