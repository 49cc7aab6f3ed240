import SecretBroker.LibLockSystem

/-! Rely and guarantee for tasks that share a state. A task is judged alone: between two of its own steps the
state may change in the ways it relies on, and every change it makes itself is one it guarantees. If what
each task guarantees is what the others rely on, then the judgement holds for all of them together, in every
order of their steps. -/

namespace Lock

variable {κ ι σ α β ε : Type}

/-- What others may do keeps the assertion. -/
def Stable (rely : σ → σ → Prop) (P : σ → Prop) : Prop := ∀ s t, P s → rely s t → P t

theorem Stable.steps {rely : σ → σ → Prop} {P : σ → Prop} (hP : Stable rely P) {s t : σ} (hs : P s)
    (h : Relation.ReflTransGen rely s t) : P t := by
  induction h with
  | refl => exact hs
  | tail _ hlast ih => exact hP _ _ ih hlast

namespace Task

variable (rely guar : σ → σ → Prop)

/-- From a state with `P`, the task makes guaranteed changes only, and its result meets `Q` in the state that
it then finds. -/
def Meets (Q : α → σ → Prop) : Task ι σ α → (σ → Prop) → Prop
  | .ret a, P => ∀ s, P s → Q a s
  | .acquire _ _ rest, P => rest.Meets Q P
  | .release _ _ rest, P => rest.Meets Q P
  | .look rest, P => ∀ s, P s → (rest s).Meets Q fun t => P t ∧ Relation.ReflTransGen rely s t
  | .update f rest, P =>
      (∀ s, P s → guar s (f s)) ∧ rest.Meets Q fun t => ∃ s, P s ∧ Relation.ReflTransGen rely (f s) t

variable {rely guar} {Q : α → σ → Prop} {P : σ → Prop}

theorem Meets.weaken {t : Task ι σ α} (h : t.Meets rely guar Q P) {P' : σ → Prop} (hP : ∀ s, P' s → P s) :
    t.Meets rely guar Q P' := by
  induction t generalizing P P' with
  | ret a => exact fun s hs => h s (hP s hs)
  | acquire lock mode rest ih => exact ih h hP
  | release lock mode rest ih => exact ih h hP
  | look rest ih => exact fun s hs => ih s (h s (hP s hs)) fun t ht => ⟨hP t ht.1, ht.2⟩
  | update f rest ih =>
      refine ⟨fun s hs => h.1 s (hP s hs), ih h.2 ?_⟩
      rintro t ⟨s, hs, hsteps⟩
      exact ⟨s, hP s hs, hsteps⟩

theorem Meets.conclude {t : Task ι σ α} (h : t.Meets rely guar Q P) {R : α → σ → Prop} (hR : ∀ a s, Q a s → R a s) :
    t.Meets rely guar R P := by
  induction t generalizing P with
  | ret a => exact fun s hs => hR a s (h s hs)
  | acquire lock mode rest ih => exact ih h
  | release lock mode rest ih => exact ih h
  | look rest ih => exact fun s hs => ih s (h s hs)
  | update f rest ih => exact ⟨h.1, ih h.2⟩

/-- Nothing is asked of a task that is never started. -/
theorem meets_of_never {t : Task ι σ α} (h : ∀ s, ¬ P s) : t.Meets rely guar Q P := by
  induction t generalizing P with
  | ret a => exact fun s hs => absurd hs (h s)
  | acquire lock mode rest ih => exact ih h
  | release lock mode rest ih => exact ih h
  | look rest ih => exact fun s hs => absurd hs (h s)
  | update f rest ih => exact ⟨fun s hs => absurd hs (h s), ih fun t ⟨s, hs, _⟩ => h s hs⟩

theorem Meets.bind {t : Task ι σ α} (h : t.Meets rely guar Q P) {k : α → Task ι σ β} {R : β → σ → Prop}
    (hk : ∀ a, (k a).Meets rely guar R (Q a)) : (t.bind k).Meets rely guar R P := by
  induction t generalizing P with
  | ret a => exact (hk a).weaken h
  | acquire lock mode rest ih => exact ih h
  | release lock mode rest ih => exact ih h
  | look rest ih => exact fun s hs => ih s (h s hs)
  | update f rest ih => exact ⟨h.1, ih h.2⟩

/-- What nobody's steps destroy is still true at the end. -/
theorem Meets.frame {t : Task ι σ α} (h : t.Meets rely guar Q P) {F : σ → Prop} (hrely : Stable rely F)
    (hguar : Stable guar F) : t.Meets rely guar (fun a s => Q a s ∧ F s) fun s => P s ∧ F s := by
  induction t generalizing P with
  | ret a => exact fun s hs => ⟨h s hs.1, hs.2⟩
  | acquire lock mode rest ih => exact ih h
  | release lock mode rest ih => exact ih h
  | look rest ih => exact fun s hs => (ih s (h s hs.1)).weaken fun t ht => ⟨⟨ht.1.1, ht.2⟩, ht.1.2⟩
  | update f rest ih =>
      refine ⟨fun s hs => h.1 s hs.1, (ih h.2).weaken ?_⟩
      rintro t ⟨s, hs, hsteps⟩
      have hchanged : F (f s) := hguar s (f s) hs.2 (h.1 s hs.1)
      exact ⟨⟨s, hs.1, hsteps⟩, hrely.steps hchanged hsteps⟩

/-- After a step of its own, a task is judged from what it then knows. -/
theorem Meets.move [DecidableEq ι] {s s' : σ} {w w' : Worker ι σ α} (hmove : Move s w s' w')
    (h : w.task.Meets rely guar Q P) (hP : Stable rely P) (hs : P s) :
    (s' = s ∨ guar s s') ∧ ∃ P', Stable rely P' ∧ P' s' ∧ w'.task.Meets rely guar Q P' := by
  cases hmove with
  | acquire => exact ⟨Or.inl rfl, P, hP, hs, h⟩
  | release => exact ⟨Or.inl rfl, P, hP, hs, h⟩
  | look =>
      refine ⟨Or.inl rfl, _, ?_, ⟨hs, .refl⟩, h s hs⟩
      exact fun t u ht htu => ⟨hP t u ht.1 htu, ht.2.tail htu⟩
  | update =>
      refine ⟨Or.inr (h.1 s hs), _, ?_, ⟨s, hs, .refl⟩, h.2⟩
      rintro t u ⟨s₀, hs₀, hsteps⟩ htu
      exact ⟨s₀, hs₀, hsteps.tail htu⟩

end Task

namespace Routine

variable {rely guar : σ → σ → Prop} {P : σ → Prop} {m : Routine ι σ ε α} {Q : Except ε α → σ → Prop}

def Meets (rely guar : σ → σ → Prop) (m : Routine ι σ ε α) (P : σ → Prop) (Q : Except ε α → σ → Prop) : Prop :=
  Task.Meets rely guar Q m P

theorem meets_lift {x : Except ε α} (h : ∀ s, P s → Q x s) : (lift x : Routine ι σ ε α).Meets rely guar P Q := h

theorem meets_pure {a : α} (h : ∀ s, P s → Q (.ok a) s) : (pure a : Routine ι σ ε α).Meets rely guar P Q := h

/-- The state that was read is one from which the present state was reached. -/
theorem meets_look {Q : Except ε σ → σ → Prop}
    (h : ∀ s t, P s → P t → Relation.ReflTransGen rely s t → Q (.ok s) t) :
    (look : Routine ι σ ε σ).Meets rely guar P Q := fun s hs t ht => h s t hs ht.1 ht.2

theorem meets_update {f : σ → σ} {Q : Except ε Unit → σ → Prop} (hguar : ∀ s, P s → guar s (f s))
    (h : ∀ s t, P s → Relation.ReflTransGen rely (f s) t → Q (.ok ()) t) :
    (update f : Routine ι σ ε Unit).Meets rely guar P Q :=
  ⟨hguar, fun t ⟨s, hs, hsteps⟩ => h s t hs hsteps⟩

theorem meets_bind {f : α → Routine ι σ ε β} {R : Except ε β → σ → Prop} (hm : m.Meets rely guar P Q)
    (hf : ∀ a, (f a).Meets rely guar (Q (.ok a)) R) (herror : ∀ e s, Q (.error e) s → R (.error e) s) :
    (m >>= f).Meets rely guar P R := by
  apply Task.Meets.bind hm
  intro r
  cases r with
  | ok a => exact hf a
  | error e => exact herror e

/-- The rest may use that the check has passed. -/
theorem meets_check {x : Except ε α} {f : α → Routine ι σ ε β} {R : Except ε β → σ → Prop}
    (hf : ∀ a, x = .ok a → (f a).Meets rely guar P R) (herror : ∀ e s, P s → R (.error e) s) :
    (lift x >>= f).Meets rely guar P R := by
  cases x with
  | ok a => exact hf a rfl
  | error e => exact herror e

theorem meets_return {f : α → β} {R : β → σ → Prop} {Q : α → σ → Prop}
    (hm : m.Meets rely guar P fun r s => ∀ a, r = .ok a → Q a s) (h : ∀ a s, Q a s → R (f a) s) :
    (do let a ← m; return f a : Routine ι σ ε β).Meets rely guar P fun r s => ∀ b, r = .ok b → R b s := by
  refine meets_bind hm (fun a => meets_pure fun s hs b hb => ?_) fun e s _ b hb => by cases hb
  cases hb
  exact h a s (hs a rfl)

/-- What is known at the start, and says nothing about the state, may be used throughout. -/
theorem meets_fact {φ : Prop} (hfact : ∀ s, P s → φ) (hm : φ → m.Meets rely guar P Q) : m.Meets rely guar P Q := by
  by_cases h : φ
  · exact hm h
  · exact Task.meets_of_never fun s hs => h (hfact s hs)

theorem meets_mapError {ε' : Type} {f : ε → ε'} {R : Except ε' α → σ → Prop} (hm : m.Meets rely guar P Q)
    (h : ∀ r s, Q r s → R (r.mapError f) s) : (mapError f m).Meets rely guar P R :=
  Task.Meets.bind hm fun r s hs => h r s hs

theorem meets_holding {lock : ι} {mode : Mode} (hm : m.Meets rely guar P Q) :
    (holding lock mode m).Meets rely guar P Q :=
  Task.Meets.bind hm fun _ _ hs => hs

theorem Meets.frame (hm : m.Meets rely guar P Q) {F : σ → Prop} (hrely : Stable rely F) (hguar : Stable guar F) :
    m.Meets rely guar (fun s => P s ∧ F s) fun r s => Q r s ∧ F s := Task.Meets.frame hm hrely hguar

theorem Meets.conclude {R : Except ε α → σ → Prop} (hm : m.Meets rely guar P Q) (hR : ∀ r s, Q r s → R r s) :
    m.Meets rely guar P R := Task.Meets.conclude hm hR

theorem Meets.weaken {P' : σ → Prop} (hm : m.Meets rely guar P Q) (hP : ∀ s, P' s → P s) :
    m.Meets rely guar P' Q := Task.Meets.weaken hm hP

end Routine

namespace System

variable [DecidableEq κ] [DecidableEq ι] {rely guar : κ → σ → σ → Prop} {Q : κ → α → σ → Prop}

/-- Every worker is judged from something that it knows about the present state. -/
def Meets (rely guar : κ → σ → σ → Prop) (Q : κ → α → σ → Prop) (c : System κ ι σ α) : Prop :=
  ∀ k, ∃ P, Stable (rely k) P ∧ P c.shared ∧ (c.worker k).task.Meets (rely k) (guar k) (Q k) P

theorem Step.meets (hagree : ∀ j k, j ≠ k → ∀ s t, guar j s t → rely k s t) {c c' : System κ ι σ α} (h : Step c c')
    (hc : c.Meets rely guar Q) : c'.Meets rely guar Q := by
  rcases h.still_or_move with ⟨hshared, hworker⟩ | ⟨k, hmove, hothers⟩
  · intro j
    rw [hshared, hworker]
    exact hc j
  · obtain ⟨P, hP, hs, hmeets⟩ := hc k
    obtain ⟨hchange, hnext⟩ := hmeets.move hmove hP hs
    intro j
    by_cases hj : j = k
    · subst hj
      exact hnext
    · obtain ⟨P', hP', hs', hmeets'⟩ := hc j
      rw [hothers j hj]
      refine ⟨P', hP', ?_, hmeets'⟩
      rcases hchange with hsame | hguar
      · rwa [hsame]
      · exact hP' _ _ hs' (hagree k j (Ne.symm hj) _ _ hguar)

/-- Whatever the order of the steps, a task that has returned meets its judgement. -/
theorem Steps.returned_meets (hagree : ∀ j k, j ≠ k → ∀ s t, guar j s t → rely k s t) {s : σ} {tasks : κ → Task ι σ α}
    (hstart : ∀ k, ∃ P, Stable (rely k) P ∧ P s ∧ (tasks k).Meets (rely k) (guar k) (Q k) P) {c : System κ ι σ α}
    (h : Steps (start s tasks) c) {k : κ} {a : α} (hk : (c.worker k).task = .ret a) : Q k a c.shared := by
  have hc : c.Meets rely guar Q := Steps.invariant (fun _ _ hstep => hstep.meets hagree) h hstart
  obtain ⟨P, -, hs, hmeets⟩ := hc k
  rw [hk] at hmeets
  exact hmeets c.shared hs

end System

end Lock
