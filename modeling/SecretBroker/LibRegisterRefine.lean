import SecretBroker.LibRegister

/-! Operations on cells that hold encoded values. Each of them does to the encoding what another operation does
to the value, or it fails and writes nothing. Whatever order their steps are taken in, the encoded cells follow
cells of plain values on which an operation that failed was never started. So they do if the changes are buffered: then
a stop undoes the last of them, up to the last flush. -/

namespace Register

variable {κ σ τ ρ ρ' ι : Type}

/-- Cells under keys, and how far every operation has come. -/
structure Store (κ σ ρ ι : Type) where
  cell : κ → Option σ
  phase : ι → Phase σ ρ

/-- What the operations on one key see. -/
def Store.at (s : Store κ σ ρ ι) (k : κ) : Config σ ρ ι := ⟨s.cell k, s.phase⟩

/-- Where the next step of an operation takes its cell and itself. -/
def Phase.next (op : Op σ ρ) (cell : Option σ) : Phase σ ρ → Option σ × Phase σ ρ
  | .ready =>
      match op with
      | .update plan =>
          match plan cell with
          | .done r => (cell, .returned r)
          | .write v r => (cell, .pending v r)
      | .remove result => (none, .returned (result cell.isSome))
  | .pending v r => (some v, .returned r)
  | .returned r => (cell, .returned r)

/-- Whether the next step of an operation changes its cell. -/
def Phase.changes (op : Op σ ρ) : Phase σ ρ → Bool
  | .ready =>
      match op with
      | .update _ => false
      | .remove _ => true
  | .pending _ _ => true
  | .returned _ => false

/-- A store with the cells as they were before each change since the last flush, the last one first, and the
operations that are still to flush. -/
structure Buffered (κ σ ρ ι : Type) extends Store κ σ ρ ι where
  earlier : List (κ → Option σ)
  unflushed : ι → Bool

/-- The cells as they are on disk, and every operation still to start. -/
def Buffered.opened (cell : κ → Option σ) : Buffered κ σ ρ ι := ⟨⟨cell, fun _ => .ready⟩, [], fun _ => false⟩

/-- What a stop can leave: a part of the changes since the last flush is lost, from some change on. -/
def Buffered.Survives (s : Buffered κ σ ρ ι) (cell : κ → Option σ) : Prop := cell ∈ s.cell :: s.earlier

/-- The result of an operation that has returned and is not still to flush. -/
def Buffered.answer? (s : Buffered κ σ ρ ι) (i : ι) : Option ρ :=
  match s.phase i with
  | .returned r => if s.unflushed i then none else some r
  | _ => none

section Step

variable [DecidableEq κ] [DecidableEq ι]

/-- The next step of one operation, on the cell of its key. -/
def Store.step (keys : ι → κ) (ops : ι → Op σ ρ) (s : Store κ σ ρ ι) (i : ι) : Store κ σ ρ ι where
  cell := Function.update s.cell (keys i) ((s.at (keys i)).step ops i).cell
  phase := ((s.at (keys i)).step ops i).phase

/-- The next step of one operation, which has to be flushed if it changes the cell. -/
def Buffered.step (keys : ι → κ) (ops : ι → Op σ ρ) (s : Buffered κ σ ρ ι) (i : ι) : Buffered κ σ ρ ι where
  toStore := s.toStore.step keys ops i
  earlier := if (s.phase i).changes (ops i) then s.cell :: s.earlier else s.earlier
  unflushed := if (s.phase i).changes (ops i) then Function.update s.unflushed i true else s.unflushed

/-- One operation flushes. If it works, then everything that was changed so far is on disk. -/
def Buffered.flush (s : Buffered κ σ ρ ι) (i : ι) (works : Bool) : Buffered κ σ ρ ι where
  toStore := s.toStore
  earlier := if works then [] else s.earlier
  unflushed := Function.update s.unflushed i false

theorem Config.step_eq_next (ops : ι → Op σ ρ) (c : Config σ ρ ι) (i : ι) :
    c.step ops i = ⟨((c.phase i).next (ops i) c.cell).1,
      Function.update c.phase i ((c.phase i).next (ops i) c.cell).2⟩ := by
  cases hphase : c.phase i with
  | returned r =>
      have hsame : Function.update c.phase i (.returned r) = c.phase := by rw [← hphase, Function.update_eq_self]
      simp only [Config.step, hphase, Phase.next, hsame]
  | pending v r => simp only [Config.step, hphase, Phase.next]
  | ready =>
      cases hop : ops i with
      | remove result => simp only [Config.step, hphase, hop, Phase.next]
      | update plan => cases hplan : plan c.cell <;> simp only [Config.step, hphase, hop, hplan, Phase.next]

theorem Store.step_eq_next (keys : ι → κ) (ops : ι → Op σ ρ) (s : Store κ σ ρ ι) (i : ι) :
    s.step keys ops i = ⟨Function.update s.cell (keys i) ((s.phase i).next (ops i) (s.cell (keys i))).1,
      Function.update s.phase i ((s.phase i).next (ops i) (s.cell (keys i))).2⟩ := by
  rw [Store.step, Config.step_eq_next]
  rfl

end Step

section Relations

variable (Rep : τ → σ → Prop) (Res : ρ' → ρ → Prop) (Fails : ρ' → Prop)

/-- The same plan on encoded values, or a failure at once. -/
inductive Plan.Refines : Plan τ ρ' → Plan σ ρ → Prop
  | done {r' : ρ'} {r : ρ} (hres : Res r' r) : Refines (.done r') (.done r)
  | write {v' : τ} {v : σ} {r' : ρ'} {r : ρ} (hrep : Rep v' v) (hres : Res r' r) : Refines (.write v' r') (.write v r)
  | fail {r' : ρ'} {plan : Plan σ ρ} (hfails : Fails r') : Refines (.done r') plan

/-- The same operation on encoded values, or one that always fails. -/
inductive Op.Refines : Op τ ρ' → Op σ ρ → Prop
  | update {plan' : Option τ → Plan τ ρ'} {plan : Option σ → Plan σ ρ}
      (h : ∀ cell' cell, Option.Rel Rep cell' cell → Plan.Refines Rep Res Fails (plan' cell') (plan cell)) :
      Refines (.update plan') (.update plan)
  | remove {result' : Bool → ρ'} {result : Bool → ρ} (h : ∀ existed, Res (result' existed) (result existed)) :
      Refines (.remove result') (.remove result)
  | fail {r' : ρ'} {op : Op σ ρ} (hfails : Fails r') : Refines (.update fun _ => .done r') op

/-- Two operations that are equally far, or one that has failed and one that was not started. -/
inductive Phase.Refines : Phase τ ρ' → Phase σ ρ → Prop
  | ready : Refines .ready .ready
  | pending {v' : τ} {v : σ} {r' : ρ'} {r : ρ} (hrep : Rep v' v) (hres : Res r' r) :
      Refines (.pending v' r') (.pending v r)
  | returned {r' : ρ'} {r : ρ} (hres : Res r' r) : Refines (.returned r') (.returned r)
  | failed {r' : ρ'} (hfails : Fails r') : Refines (.returned r') .ready

/-- The cells hold encodings of the other ones, and all operations are equally far. -/
structure Store.Refines (Res : ι → ρ' → ρ → Prop) (Fails : ι → ρ' → Prop) (s' : Store κ τ ρ' ι)
    (s : Store κ σ ρ ι) : Prop where
  cell : ∀ k, Option.Rel Rep (s'.cell k) (s.cell k)
  phase : ∀ i, Phase.Refines Rep (Res i) (Fails i) (s'.phase i) (s.phase i)

/-- The same for the cells before each change. -/
structure Buffered.Refines (Res : ι → ρ' → ρ → Prop) (Fails : ι → ρ' → Prop) (s' : Buffered κ τ ρ' ι)
    (s : Buffered κ σ ρ ι) : Prop where
  store : Store.Refines Rep Res Fails s'.toStore s.toStore
  earlier : List.Forall₂ (fun cell' cell => ∀ k, Option.Rel Rep (cell' k) (cell k)) s'.earlier s.earlier
  unflushed : s'.unflushed = s.unflushed

end Relations

variable {Rep : τ → σ → Prop} {Res : ρ' → ρ → Prop} {Fails : ρ' → Prop}

theorem isSome_eq_of_rel {cell' : Option τ} {cell : Option σ} (h : Option.Rel Rep cell' cell) :
    cell'.isSome = cell.isSome := by
  cases h with
  | some _ => rfl
  | none => rfl

/-- The next step is the other operation's next step, or a failure that it does not take part in. -/
theorem Phase.Refines.next {op' : Op τ ρ'} {op : Op σ ρ} (hop : Op.Refines Rep Res Fails op' op) {cell' : Option τ}
    {cell : Option σ} (hcell : Option.Rel Rep cell' cell) {p' : Phase τ ρ'} {p : Phase σ ρ}
    (h : Phase.Refines Rep Res Fails p' p) :
    (Option.Rel Rep (p'.next op' cell').1 cell ∧ Phase.Refines Rep Res Fails (p'.next op' cell').2 p ∧
        p'.changes op' = false) ∨
      (Option.Rel Rep (p'.next op' cell').1 (p.next op cell).1 ∧
        Phase.Refines Rep Res Fails (p'.next op' cell').2 (p.next op cell).2 ∧ p'.changes op' = p.changes op) := by
  cases h with
  | pending hrep hres => exact .inr ⟨.some hrep, .returned hres, rfl⟩
  | returned hres => exact .inr ⟨hcell, .returned hres, rfl⟩
  | failed hfails => exact .inl ⟨hcell, .failed hfails, rfl⟩
  | ready =>
      cases hop with
      | fail hfails => exact .inl ⟨hcell, .failed hfails, rfl⟩
      | @remove result' result hresult =>
          refine .inr ⟨.none, .returned ?_, rfl⟩
          rw [isSome_eq_of_rel hcell]
          exact hresult _
      | @update plan' plan hplan =>
          have hplans := hplan cell' cell hcell
          simp only [Phase.next]
          -- the plans made from the two cells decide together
          generalize plan' cell' = q' at hplans ⊢
          generalize plan cell = q at hplans ⊢
          cases hplans with
          | done hres => exact .inr ⟨hcell, .returned hres, rfl⟩
          | write hrep hres => exact .inr ⟨hcell, .pending hrep hres, rfl⟩
          | fail hfails => exact .inl ⟨hcell, .failed hfails, rfl⟩

theorem rel_update {α β γ : Type} [DecidableEq α] {R : α → β → γ → Prop} {f : α → β} {g : α → γ} (h : ∀ x, R x (f x) (g x))
    {a : α} {b : β} {c : γ} (hbc : R a b c) (x : α) : R x (Function.update f a b x) (Function.update g a c x) := by
  by_cases hx : x = a
  · subst hx
    rwa [Function.update_self, Function.update_self]
  · rw [Function.update_of_ne hx, Function.update_of_ne hx]
    exact h x

/-- A step is followed by the same step, or by none if the operation fails in it. -/
theorem Store.Refines.step [DecidableEq κ] [DecidableEq ι] {Res : ι → ρ' → ρ → Prop} {Fails : ι → ρ' → Prop}
    {s' : Store κ τ ρ' ι} {s : Store κ σ ρ ι} (h : Store.Refines Rep Res Fails s' s) (keys : ι → κ) (ops' : ι → Op τ ρ')
    (ops : ι → Op σ ρ) (i : ι) (hop : Op.Refines Rep (Res i) (Fails i) (ops' i) (ops i)) :
    (Store.Refines Rep Res Fails (s'.step keys ops' i) s ∧ (s'.phase i).changes (ops' i) = false) ∨
      (Store.Refines Rep Res Fails (s'.step keys ops' i) (s.step keys ops i) ∧
        (s'.phase i).changes (ops' i) = (s.phase i).changes (ops i)) := by
  rw [Store.step_eq_next, Store.step_eq_next]
  rcases (h.phase i).next hop (h.cell (keys i)) with ⟨hcell, hphase, hchanges⟩ | ⟨hcell, hphase, hchanges⟩
  · -- the other store is its own update by what it has there
    refine .inl ⟨⟨fun k => ?_, fun j => ?_⟩, hchanges⟩
    · have hk : Option.Rel Rep _ (Function.update s.cell (keys i) (s.cell (keys i)) k) :=
        rel_update (R := fun _ => Option.Rel Rep) h.cell hcell k
      rwa [Function.update_eq_self] at hk
    · have hj : Phase.Refines Rep (Res j) (Fails j) _ (Function.update s.phase i (s.phase i) j) :=
        rel_update (R := fun j => Phase.Refines Rep (Res j) (Fails j)) h.phase hphase j
      rwa [Function.update_eq_self] at hj
  · exact .inr ⟨⟨rel_update (R := fun _ => Option.Rel Rep) h.cell hcell,
      rel_update (R := fun j => Phase.Refines Rep (Res j) (Fails j)) h.phase hphase⟩, hchanges⟩

section Buffered

variable {Res : ι → ρ' → ρ → Prop} {Fails : ι → ρ' → Prop} {s' : Buffered κ τ ρ' ι} {s : Buffered κ σ ρ ι}

theorem Buffered.refines_opened {cell' : κ → Option τ} {cell : κ → Option σ} (h : ∀ k, Option.Rel Rep (cell' k) (cell k)) :
    Buffered.Refines Rep Res Fails (.opened cell') (.opened cell) := ⟨⟨h, fun _ => .ready⟩, .nil, rfl⟩

/-- What a stop leaves of one store, it can leave of the other. -/
theorem Buffered.Refines.survives (h : Buffered.Refines Rep Res Fails s' s) {cell' : κ → Option τ}
    (hcell : s'.Survives cell') : ∃ cell, s.Survives cell ∧ ∀ k, Option.Rel Rep (cell' k) (cell k) := by
  have hall : List.Forall₂ (fun cell' cell => ∀ k, Option.Rel Rep (cell' k) (cell k)) (s'.cell :: s'.earlier)
      (s.cell :: s.earlier) := .cons h.store.cell h.earlier
  unfold Buffered.Survives at hcell ⊢
  generalize s'.cell :: s'.earlier = cells' at hall hcell
  generalize s.cell :: s.earlier = cells at hall
  induction hall with
  | nil => cases hcell
  | @cons c' c _ _ hrel _ ih =>
      rcases List.mem_cons.mp hcell with rfl | hmem
      · exact ⟨c, List.mem_cons_self, hrel⟩
      · obtain ⟨cell, hcell, hrel⟩ := ih hmem
        exact ⟨cell, List.mem_cons_of_mem _ hcell, hrel⟩

/-- An answer is the other operation's, or one of a failure. -/
theorem Buffered.Refines.answer? (h : Buffered.Refines Rep Res Fails s' s) {i : ι} {r' : ρ'}
    (hr' : s'.answer? i = some r') : Fails i r' ∨ ∃ r, s.answer? i = some r ∧ Res i r' r := by
  have hphase := h.store.phase i
  unfold Buffered.answer? at hr' ⊢
  rw [h.unflushed] at hr'
  generalize s'.phase i = p' at hphase hr'
  generalize s.phase i = p at hphase ⊢
  cases hphase with
  | ready => cases hr'
  | pending hrep hres => cases hr'
  | @returned x' x hres =>
      by_cases hflush : s.unflushed i = true
      · simp only [hflush, if_true] at hr'
        cases hr'
      · simp only [hflush] at hr' ⊢
        cases hr'
        exact .inr ⟨x, rfl, hres⟩
  | @failed x' hfails =>
      by_cases hflush : s.unflushed i = true
      · simp only [hflush, if_true] at hr'
        cases hr'
      · simp only [hflush] at hr'
        cases hr'
        exact .inl hfails

variable [DecidableEq ι]

theorem Buffered.Refines.flush (h : Buffered.Refines Rep Res Fails s' s) (i : ι) (works : Bool) :
    Buffered.Refines Rep Res Fails (s'.flush i works) (s.flush i works) := by
  refine ⟨h.store, ?_, by simp only [Buffered.flush, h.unflushed]⟩
  cases works with
  | true => exact .nil
  | false => exact h.earlier

theorem Buffered.Refines.step [DecidableEq κ] (h : Buffered.Refines Rep Res Fails s' s) (keys : ι → κ) (ops' : ι → Op τ ρ')
    (ops : ι → Op σ ρ) (i : ι) (hop : Op.Refines Rep (Res i) (Fails i) (ops' i) (ops i)) :
    Buffered.Refines Rep Res Fails (s'.step keys ops' i) s ∨
      Buffered.Refines Rep Res Fails (s'.step keys ops' i) (s.step keys ops i) := by
  rcases h.store.step keys ops' ops i hop with ⟨hstore, hchanges⟩ | ⟨hstore, hchanges⟩
  · refine .inl ⟨hstore, ?_, ?_⟩
    · simp only [Buffered.step, hchanges]
      exact h.earlier
    · simp only [Buffered.step, hchanges]
      exact h.unflushed
  · refine .inr ⟨hstore, ?_, ?_⟩
    · simp only [Buffered.step, hchanges]
      split_ifs
      · exact .cons h.store.cell h.earlier
      · exact h.earlier
    · simp only [Buffered.step, hchanges, h.unflushed]

end Buffered

/-- Another result on both sides. -/
theorem Op.Refines.map {ρ₂ ρ₂' : Type} {Res₂ : ρ₂' → ρ₂ → Prop} {Fails₂ : ρ₂' → Prop} {op' : Op τ ρ'} {op : Op σ ρ}
    (h : Op.Refines Rep Res Fails op' op) {f' : ρ' → ρ₂'} {f : ρ → ρ₂} (hres : ∀ r' r, Res r' r → Res₂ (f' r') (f r))
    (hfails : ∀ r', Fails r' → Fails₂ (f' r')) : Op.Refines Rep Res₂ Fails₂ (op'.map f') (op.map f) := by
  cases h with
  | remove hresult => exact .remove fun existed => hres _ _ (hresult existed)
  | fail hfail => exact .fail (hfails _ hfail)
  | @update plan' plan hplan =>
      refine .update fun cell' cell hcell => ?_
      have hplans := hplan cell' cell hcell
      generalize plan' cell' = q' at hplans ⊢
      generalize plan cell = q at hplans ⊢
      cases hplans with
      | done hr => exact .done (hres _ _ hr)
      | write hrep hr => exact .write hrep (hres _ _ hr)
      | fail hfail => exact .fail (hfails _ hfail)

end Register
