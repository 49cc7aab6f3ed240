import SecretBroker.CryptoEngine

/-! The tables of the key manager. A generation that passes its checks puts one active key into them, under
an id drawn for it; everything else about the broker stays as it was. -/

open Wire

namespace SecretBroker

/-- The id of a key pair. -/
def keyIdOf (id : Uuid) : String := "keypair_" ++ id.toString

theorem keyIdOf_injective : Function.Injective keyIdOf := by
  intro id id' h
  have hlist := congrArg String.toList h
  rw [keyIdOf, keyIdOf, String.toList_append, String.toList_append, List.append_cancel_left_eq] at hlist
  exact Uuid.toString_injective (String.toList_inj.mp hlist)

/-- The key pair that `generate_key_pair` makes once its checks have passed. -/
def newKeyPair (env : Env) (d : KeyPairDraws) (algorithm : String) : Except Failure KeyPair := do
  let (publicKey, privateKey) ← (generateKeys env d algorithm).mapError .anyhow
  let encryptedPrivateKey ← (encryptPrivateKey env privateKey d.nonce).mapError .anyhow
  let expiresAt ← calculateExpiry env d.expiryNow
  return { keyId := "keypair_" ++ d.keyId.toString, publicKey, privateKey := encryptedPrivateKey, algorithm,
           createdAt := d.createdAt, expiresAt }

/-- The entry of a new key. -/
def newKeyMetadata (pair : KeyPair) (customerId : String) : KeyMetadata where
  keyId := pair.keyId
  algorithm := pair.algorithm
  createdAt := pair.createdAt
  expiresAt := pair.expiresAt
  customerId := customerId
  usageCount := 0
  lastUsedAt := none
  status := .active

/-- The broker with a new key in its tables. -/
def Broker.addKey (s : Broker) (pair : KeyPair) (customerId : String) : Broker :=
  { s with
    keyPairs := insertKeyPair pair s.keyPairs
    keyMetadata := insertKeyMetadata (newKeyMetadata pair customerId) s.keyMetadata }

variable {env : Env} {d : KeyPairDraws} {algorithm customerId : String}

theorem newKeyPair_eq_ok {pair : KeyPair} (h : newKeyPair env d algorithm = .ok pair) :
    pair.keyId = keyIdOf d.keyId ∧ pair.algorithm = algorithm := by
  simp only [newKeyPair, Eff.except_bind_eq_ok, pure, Except.pure, Except.ok.injEq] at h
  obtain ⟨_, -, _, -, _, -, rfl⟩ := h
  exact ⟨rfl, rfl⟩

/-- The checks of a generation and the key that it makes, from the table that it finds. -/
def admitKeyPair (env : Env) (d : KeyPairDraws) (algorithm customerId : String) (keyMetadata : List KeyMetadata) :
    Except Failure KeyPair := do
  (validatePostQuantumAlgorithm env algorithm).mapError .anyhow
  (checkKeyLimits env keyMetadata customerId).mapError .anyhow
  newKeyPair env d algorithm

theorem admitKeyPair_eq_ok {keyMetadata : List KeyMetadata} {pair : KeyPair} :
    admitKeyPair env d algorithm customerId keyMetadata = .ok pair ↔
      validatePostQuantumAlgorithm env algorithm = .ok () ∧
      customerKeyCount keyMetadata customerId < env.crypto.maxKeysPerCustomer.toNat ∧
      newKeyPair env d algorithm = .ok pair := by
  simp only [admitKeyPair, checkKeyLimits, Eff.except_bind_eq_ok, Eff.except_mapError_eq_ok, Eff.rejectIf_eq_ok, not_le,
    Unique.exists_iff, PUnit.default_eq_unit]

/-- At the limit of its customer, no key is admitted. -/
theorem admitKeyPair_at_limit {keyMetadata : List KeyMetadata}
    (hvalid : validatePostQuantumAlgorithm env algorithm = .ok ())
    (hlimit : env.crypto.maxKeysPerCustomer.toNat ≤ customerKeyCount keyMetadata customerId) :
    admitKeyPair env d algorithm customerId keyMetadata =
      .error (.anyhow ("Maximum key limit reached for customer: " ++ customerId)) := by
  rw [admitKeyPair, hvalid, checkKeyLimits, Eff.rejectIf, if_pos hlimit]
  rfl

/-- A generation is its checks, and then one change of the tables. -/
theorem generateKeyPair_eq : generateKeyPair env d algorithm customerId = (do
    let s ← Eff.read
    let pair ← Eff.lift (admitKeyPair env d algorithm customerId s.keyMetadata)
    Eff.modify fun s => s.addKey pair customerId
    return pair) := by
  funext s
  simp only [generateKeyPair, admitKeyPair, newKeyPair, Eff.lift_bind, bind_assoc]
  cases validatePostQuantumAlgorithm env algorithm with
  | error e => rfl
  | ok u => rfl

theorem generateKeyPair_of_ok {pair : KeyPair} {s : Broker}
    (h : admitKeyPair env d algorithm customerId s.keyMetadata = .ok pair) :
    generateKeyPair env d algorithm customerId s = (.ok pair, s.addKey pair customerId) := by
  rw [generateKeyPair_eq, Eff.bind_of_ok (Eff.read_apply s), h]
  rfl

theorem generateKeyPair_of_error {e : Failure} {s : Broker}
    (h : admitKeyPair env d algorithm customerId s.keyMetadata = .error e) :
    generateKeyPair env d algorithm customerId s = (.error e, s) := by
  rw [generateKeyPair_eq, Eff.bind_of_ok (Eff.read_apply s), h]
  rfl

/-- No entry of the table has this id. -/
def Unused (keyId : String) (keyMetadata : List KeyMetadata) : Prop := ∀ m ∈ keyMetadata, m.keyId ≠ keyId

theorem insertKeyMetadata_of_unused {m : KeyMetadata} {keyMetadata : List KeyMetadata} (h : Unused m.keyId keyMetadata) :
    insertKeyMetadata m keyMetadata = m :: keyMetadata := by
  have hfilter : keyMetadata.filter (fun m' => m'.keyId ≠ m.keyId) = keyMetadata := by
    apply List.filter_eq_self.mpr
    intro m' hm'
    exact decide_eq_true (h m' hm')
  rw [insertKeyMetadata, hfilter]

theorem find?_insertKeyPair_self (pair : KeyPair) (pairs : List KeyPair) :
    (insertKeyPair pair pairs).find? (fun p => p.keyId = pair.keyId) = some pair :=
  List.find?_cons_of_pos (decide_eq_true rfl)

theorem find?_insertKeyPair_of_ne {pair : KeyPair} {keyId : String} (h : keyId ≠ pair.keyId) (pairs : List KeyPair) :
    (insertKeyPair pair pairs).find? (fun p => p.keyId = keyId) = pairs.find? fun p => p.keyId = keyId := by
  rw [insertKeyPair, List.find?_cons_of_neg (by simpa using h.symm), List.find?_filter]
  congr 1
  funext p
  by_cases hp : p.keyId = keyId
  · simp [hp, h]
  · simp [hp]

/-- An entry is found under its id if no id occurs twice. -/
theorem find?_keyId {keyMetadata : List KeyMetadata} (hnodup : (keyMetadata.map (·.keyId)).Nodup) {m : KeyMetadata}
    (hm : m ∈ keyMetadata) : keyMetadata.find? (fun m' => m'.keyId = m.keyId) = some m := by
  induction keyMetadata with
  | nil => cases hm
  | cons first rest ih =>
      rw [List.map_cons, List.nodup_cons] at hnodup
      rcases List.mem_cons.mp hm with rfl | hrest
      · exact List.find?_cons_of_pos (decide_eq_true rfl)
      · have hne : first.keyId ≠ m.keyId := fun heq => hnodup.1 (heq ▸ List.mem_map_of_mem hrest)
        rw [List.find?_cons_of_neg (by simpa using hne)]
        exact ih hnodup.2 hrest

end SecretBroker
