import SecretBroker.LibDouble
import SecretBroker.SecurityForged

/-! Requests that are refused. A handler that works on an existing handle makes its one change to the record in the last
step that can fail; before that it only loads the record. A load reads the record, sets the time of the last access and
writes all of it back, so everything else is left as it was exactly if the record reads back as it was written. That is
not so for every number in its metadata. -/

open Wire Register

namespace SecretBroker

/-- The record has been written and read back some times, and its last access set: all that loads do. -/
def Accessed (serde : Serde) (r r' : StoredEnvelopeRecord) : Prop :=
  ∃ (n : ℕ) (t : Option DateTime), r' = { serde.reload^[n] r with lastAccessed := t }

section

variable {serde : Serde} {r r' r'' : StoredEnvelopeRecord}

/-- Reading a record does not depend on its last access. -/
theorem reload_iterate_lastAccessed (serde : Serde) (n : ℕ) (r : StoredEnvelopeRecord) (t : Option DateTime) :
    serde.reload^[n] { r with lastAccessed := t } = { serde.reload^[n] r with lastAccessed := t } := by
  induction n generalizing r with
  | zero => rfl
  | succ n ih => exact ih (serde.reload r)

theorem accessed_refl (serde : Serde) (r : StoredEnvelopeRecord) : Accessed serde r r := ⟨0, r.lastAccessed, rfl⟩

theorem Accessed.trans (h : Accessed serde r r') (h' : Accessed serde r' r'') : Accessed serde r r'' := by
  obtain ⟨n, t, rfl⟩ := h
  obtain ⟨m, u, rfl⟩ := h'
  refine ⟨m + n, u, ?_⟩
  rw [reload_iterate_lastAccessed, Function.iterate_add_apply]

theorem accessed_accessed (env : Env) (d : LoadDraws) (r : StoredEnvelopeRecord) :
    Accessed env.serde r (accessed env d r) :=
  ⟨1, some d.accessedAt, rfl⟩

end

/-- The records are the same but for accesses, and so is everything else. -/
structure SameButAccess (serde : Serde) (s s' : Broker) : Prop where
  records : ∀ id, Option.Rel (Accessed serde) (s.records id) (s'.records id)
  rest : s' = { s with records := s'.records }

theorem rel_accessed_refl (serde : Serde) (cell : Option StoredEnvelopeRecord) :
    Option.Rel (Accessed serde) cell cell := by
  cases cell with
  | none => exact .none
  | some r => exact .some (accessed_refl serde r)

theorem rel_accessed_trans {serde : Serde} {cell cell' cell'' : Option StoredEnvelopeRecord}
    (h : Option.Rel (Accessed serde) cell cell') (h' : Option.Rel (Accessed serde) cell' cell'') :
    Option.Rel (Accessed serde) cell cell'' := by
  cases h with
  | none => exact h'
  | some hr =>
      cases h' with
      | some hr' => exact .some (hr.trans hr')

instance (serde : Serde) : IsPreorder Broker (SameButAccess serde) where
  refl s := ⟨fun id => rel_accessed_refl serde (s.records id), rfl⟩
  trans s s' s'' h h' := ⟨fun id => rel_accessed_trans (h.records id) (h'.records id), by rw [h'.rest, h.rest]⟩

variable {env : Env}

theorem sameButAccess_putRecord {serde : Serde} {s : Broker} {id : Uuid} {cell : Option StoredEnvelopeRecord}
    (h : Option.Rel (Accessed serde) (s.records id) cell) : SameButAccess serde s (s.putRecord id cell) := by
  refine ⟨fun id' => ?_, rfl⟩
  by_cases hid : id' = id
  · subst hid
    rwa [Broker.putRecord_records_self]
  · rw [Broker.putRecord_records_of_ne hid]
    exact rel_accessed_refl serde _

theorem AccessStep.sameButAccess {s s' : Broker} (h : AccessStep env s s') : SameButAccess env.serde s s' := by
  cases h with
  | load hr d =>
      apply sameButAccess_putRecord
      rw [hr]
      exact .some (accessed_accessed env d _)

theorem AccessSteps.sameButAccess {s s' : Broker} (h : AccessSteps env s s') : SameButAccess env.serde s s' := by
  induction h with
  | refl => exact refl_of (SameButAccess env.serde) s
  | tail _ hstep ih => exact trans_of (SameButAccess env.serde) ih hstep.sameButAccess

/-- A request that creates no handle and fails has only accessed records. -/
theorem Call.spares {call : Call} (hcall : call.issuance = none) (hdisks : ∀ disk ∈ call.disks, disk.Atomic)
    {s s' : Broker} {e : Failure} (h : call.exec env s = (.error e, s')) : SameButAccess env.serde s s' :=
  ((call.exec_acts env (List.mem_singleton_self call) s).spares ⟨Option.map_eq_none_iff.mp hcall, hdisks⟩ e s'
    h).sameButAccess

/-- The record with its redeem token consumed. -/
def consumed (r : StoredEnvelopeRecord) : StoredEnvelopeRecord :=
  { r with redeemUsed := true, redeemNonce := none, redeemBinding := none }

/-- What serde_json reads of the text that it has written for a number: without the feature for exact numbers it divides
the digits by a power of ten, as doubles. Numbers that are written with a sign or an exponent are left out here. -/
def rereadNumber (bits : UInt64) : UInt64 :=
  match Double.toDecimal bits.toNat with
  | some (digits, places) => UInt64.ofNat (Double.ofParts digits places)
  | none => bits

mutual

/-- What serde_json reads of the text that it has written for a document. -/
def rereadValue : Value → Value
  | .float bits => .float (rereadNumber bits)
  | .array items => .array (rereadItems items)
  | .object members => .object (rereadMembers members)
  | v => v

def rereadItems : List Value → List Value
  | [] => []
  | v :: items => rereadValue v :: rereadItems items

def rereadMembers : List (String × Value) → List (String × Value)
  | [] => []
  | (key, v) :: members => (key, rereadValue v) :: rereadMembers members

end

end SecretBroker
