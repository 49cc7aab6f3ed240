import SecretBroker.KeyTable
import SecretBroker.LibLock
import SecretBroker.PlainBroker

/-! The rotation of expired keys. The key manager keeps its tables under read-write locks; `rotate_key` calls
`generate_key_pair` while it holds read guards on both tables, and the generation asks for write guards on
them. A key that is not refused before that point blocks the rotation for good. -/

open Wire Lock

namespace SecretBroker

namespace KeyManager

/-- The locks of the key manager. -/
inductive LockId where
  | keyPairs
  | keyMetadata
  | masterKey
  | rng
  deriving DecidableEq, Repr

variable (env : Env)

/-- `check_key_limits`. -/
def checkKeyLimits (customerId : String) : Routine LockId Broker Failure Unit :=
  .holding .keyMetadata .read do
    let s ← Routine.look
    Routine.lift ((SecretBroker.checkKeyLimits env s.keyMetadata customerId).mapError .anyhow)

/-- `encrypt_private_key`. -/
def encryptPrivateKey (privateKey : Bytes) (nonce : Block 12) : Routine LockId Broker Failure Bytes :=
  .holding .masterKey .read <| .holding .rng .write <|
    Routine.lift ((SecretBroker.encryptPrivateKey env privateKey nonce).mapError .anyhow)

/-- The end of `generate_key_pair`: both tables are locked, and then changed. -/
def storeKeyPair (pair : KeyPair) (customerId : String) : Routine LockId Broker Failure KeyPair :=
  .holding .keyPairs .write <| .holding .keyMetadata .write do
    Routine.update fun s => s.addKey pair customerId
    return pair

/-- `generate_key_pair`. -/
def generateKeyPair (d : KeyPairDraws) (algorithm customerId : String) : Routine LockId Broker Failure KeyPair := do
  Routine.lift ((validatePostQuantumAlgorithm env algorithm).mapError .anyhow)
  checkKeyLimits env customerId
  let (publicKey, privateKey) ← Routine.lift ((generateKeys env d algorithm).mapError .anyhow)
  let encryptedPrivateKey ← encryptPrivateKey env privateKey d.nonce
  let expiresAt ← Routine.lift (calculateExpiry env d.expiryNow)
  storeKeyPair
    { keyId := "keypair_" ++ d.keyId.toString, publicKey, privateKey := encryptedPrivateKey, algorithm,
      createdAt := d.createdAt, expiresAt } customerId

/-- The table with a key marked as rotated. -/
def retire (keyId : String) (keyMetadata : List KeyMetadata) : List KeyMetadata :=
  keyMetadata.map fun m => if m.keyId = keyId then { m with status := .rotated } else m

/-- The table with a note at a new key of which key it replaces. -/
def noteRotatedFrom (newKeyId keyId : String) (keyMetadata : List KeyMetadata) : List KeyMetadata :=
  keyMetadata.map fun m =>
    if m.keyId = newKeyId then
      { m with metadata := ("rotated_from", keyId) :: m.metadata.filter fun entry => entry.1 ≠ "rotated_from" }
    else m

/-- `rotate_key`. Both read guards are held to its end, and the entry of the new key is unwrapped. -/
def rotateKey (d : KeyPairDraws) (keyId : String) : Routine LockId Broker Failure Unit :=
  .holding .keyPairs .read <| .holding .keyMetadata .read do
    let s ← Routine.look
    match s.keyPairs.find? fun p => p.keyId = keyId, s.keyMetadata.find? fun m => m.keyId = keyId with
    | some pair, some metadata => do
        let newPair ← generateKeyPair env d pair.algorithm metadata.customerId
        .holding .keyMetadata .write do
          Routine.update fun s => { s with keyMetadata := retire keyId s.keyMetadata }
          let s ← Routine.look
          Routine.lift (Eff.rejectIf (∀ m ∈ s.keyMetadata, m.keyId ≠ newPair.keyId) .panic)
          Routine.update fun s => { s with keyMetadata := noteRotatedFrom newPair.keyId keyId s.keyMetadata }
    | _, _ => return ()

/-- An active key whose expiry has passed. -/
def ExpiredAt (now : DateTime) (m : KeyMetadata) : Prop := m.status = .active ∧ ∃ expiry ∈ m.expiresAt, expiry < now

instance (now : DateTime) (m : KeyMetadata) : Decidable (ExpiredAt now m) :=
  inferInstanceAs (Decidable (m.status = .active ∧ ∃ expiry ∈ m.expiresAt, expiry < now))

def expiredKeys (now : DateTime) (keyMetadata : List KeyMetadata) : List String :=
  (keyMetadata.filter fun m => ExpiredAt now m).map (·.keyId)

/-- The loop of `rotate_expired_keys`: a key that cannot be rotated is only logged, but a panic ends the task. -/
def rotateKeys (draws : String → KeyPairDraws) : List String → Routine LockId Broker Failure Unit
  | [] => return ()
  | keyId :: keyIds => .handle (rotateKey env (draws keyId) keyId) fun
      | .error .panic => .lift (.error .panic)
      | _ => rotateKeys draws keyIds

/-- `rotate_expired_keys`. The table is a hash map, so its keys come in some `order`. -/
def rotateExpiredKeys (draws : String → KeyPairDraws) (order : List String → List String) (now : DateTime) :
    Routine LockId Broker Failure Unit := do
  let expired ← Routine.holding .keyMetadata .read do
    let s ← Routine.look
    return order (expiredKeys now s.keyMetadata)
  rotateKeys env draws expired

variable {env} {held : List (LockId × Mode)} {s : Broker} {d : KeyPairDraws} {algorithm customerId : String}

theorem ends_checkKeyLimits (hmetadata : Grants held LockId.keyMetadata .read) :
    (checkKeyLimits env customerId).Ends held s
      ((SecretBroker.checkKeyLimits env s.keyMetadata customerId).mapError .anyhow) s := by
  apply Routine.ends_holding hmetadata
  exact Routine.ends_bind Routine.ends_look (Routine.ends_lift _)

theorem ends_encryptPrivateKey {privateKey : Bytes} {nonce : Block 12} (hmaster : Grants held LockId.masterKey .read)
    (hrng : Grants held LockId.rng .write) :
    (encryptPrivateKey env privateKey nonce).Ends held s
      ((SecretBroker.encryptPrivateKey env privateKey nonce).mapError .anyhow) s := by
  apply Routine.ends_holding hmaster
  have hrng' : Grants ((LockId.masterKey, Mode.read) :: held) LockId.rng .write := by
    simpa [Grants] using hrng
  exact Routine.ends_holding hrng' (Routine.ends_lift _)

/-- Up to the point where the tables are locked for writing, a generation is its checks. -/
theorem exec_generateKeyPair (hmetadata : Grants held LockId.keyMetadata .read)
    (hmaster : Grants held LockId.masterKey .read) (hrng : Grants held LockId.rng .write) :
    Task.exec (generateKeyPair env d algorithm customerId) held s =
      Task.exec (Routine.lift (admitKeyPair env d algorithm customerId s.keyMetadata) >>= fun pair =>
        storeKeyPair pair customerId : Routine LockId Broker Failure KeyPair) held s := by
  rw [generateKeyPair, admitKeyPair, newKeyPair]
  refine Routine.exec_check_bind (Routine.ends_lift _) fun _ => ?_
  refine Routine.exec_check_bind (ends_checkKeyLimits hmetadata) fun _ => ?_
  refine Routine.exec_check_bind (Routine.ends_lift _) fun keys => ?_
  refine Routine.exec_check_bind (ends_encryptPrivateKey hmaster hrng) fun encrypted => ?_
  exact Routine.exec_check_bind (Routine.ends_lift _) fun expiresAt => rfl

/-- The guards that `rotate_key` holds while it generates the new key. -/
def rotationGuards : List (LockId × Mode) := [(.keyMetadata, .read), (.keyPairs, .read)]

/-- Under these guards a generation ends if it is refused. -/
theorem generateKeyPair_ends {e : Failure} (h : admitKeyPair env d algorithm customerId s.keyMetadata = .error e) :
    (generateKeyPair env d algorithm customerId).Ends rotationGuards s (.error e) s := by
  refine (exec_generateKeyPair (by decide) (by decide) (by decide)).trans ?_
  rw [h]
  rfl

/-- Otherwise it waits for the tables, which the rotation itself has locked. -/
theorem generateKeyPair_blocks {pair : KeyPair} (h : admitKeyPair env d algorithm customerId s.keyMetadata = .ok pair) :
    (generateKeyPair env d algorithm customerId).Blocks rotationGuards s := by
  have hrefused : ¬ Grants rotationGuards LockId.keyPairs .write := by decide
  rw [Routine.Blocks, exec_generateKeyPair (by decide) (by decide) (by decide), h]
  exact Routine.blocks_holding_of_not_grants hrefused _

variable {keyId : String}

/-- The key cannot be rotated: it is not in the tables, or the generation of a new one is refused. -/
def Refused (env : Env) (d : KeyPairDraws) (keyId : String) (s : Broker) : Prop :=
  ∀ pair metadata, s.keyPairs.find? (fun p => p.keyId = keyId) = some pair →
    s.keyMetadata.find? (fun m => m.keyId = keyId) = some metadata →
    ∃ e ≠ .panic, SecretBroker.generateKeyPair env d pair.algorithm metadata.customerId s = (.error e, s)

section

variable {pair : KeyPair} {metadata : KeyMetadata} (hpair : s.keyPairs.find? (fun p => p.keyId = keyId) = some pair)
  (hmetadata : s.keyMetadata.find? (fun m => m.keyId = keyId) = some metadata)

include hpair hmetadata

theorem rotateKey_ends {e : Failure} (h : admitKeyPair env d pair.algorithm metadata.customerId s.keyMetadata = .error e) :
    (rotateKey env d keyId).Ends [] s (.error e) s := by
  apply Routine.ends_holding (by decide)
  apply Routine.ends_holding (by decide)
  apply Routine.ends_bind Routine.ends_look
  simp only [hpair, hmetadata]
  exact Routine.ends_bind_error (generateKeyPair_ends h)

theorem rotateKey_blocks {newPair : KeyPair}
    (h : admitKeyPair env d pair.algorithm metadata.customerId s.keyMetadata = .ok newPair) :
    (rotateKey env d keyId).Blocks [] s := by
  apply Routine.blocks_holding (by decide)
  apply Routine.blocks_holding (by decide)
  apply Routine.blocks_bind Routine.ends_look
  simp only [hpair, hmetadata]
  exact Routine.blocks_bind_left _ (generateKeyPair_blocks h)

end

theorem rotateKey_ends_of_absent (d : KeyPairDraws) (h : s.keyPairs.find? (fun p => p.keyId = keyId) = none ∨
    s.keyMetadata.find? (fun m => m.keyId = keyId) = none) : (rotateKey env d keyId).Ends [] s (.ok ()) s := by
  apply Routine.ends_holding (by decide)
  apply Routine.ends_holding (by decide)
  apply Routine.ends_bind Routine.ends_look
  rcases h with h | h
  · simp only [h]
    exact Routine.ends_pure ()
  · cases s.keyPairs.find? fun p => p.keyId = keyId with
    | none => exact Routine.ends_pure ()
    | some pair =>
        simp only [h]
        exact Routine.ends_pure ()

/-- A refused key is left as it is; the attempt to rotate another one panics or blocks. -/
theorem rotateKey_cases (env : Env) (d : KeyPairDraws) (keyId : String) (s : Broker) :
    (Refused env d keyId s ∧ ∃ r ≠ .error .panic, (rotateKey env d keyId).Ends [] s r s) ∨
      (¬ Refused env d keyId s ∧
        ((rotateKey env d keyId).Ends [] s (.error .panic) s ∨ (rotateKey env d keyId).Blocks [] s)) := by
  cases hpair : s.keyPairs.find? fun p => p.keyId = keyId with
  | none =>
      refine Or.inl ⟨fun pair _ h => ?_, .ok (), by simp, rotateKey_ends_of_absent d (Or.inl hpair)⟩
      cases hpair.symm.trans h
  | some pair =>
  cases hmetadata : s.keyMetadata.find? fun m => m.keyId = keyId with
  | none =>
      refine Or.inl ⟨fun _ metadata _ h => ?_, .ok (), by simp, rotateKey_ends_of_absent d (Or.inr hmetadata)⟩
      cases hmetadata.symm.trans h
  | some metadata =>
  cases hadmitted : admitKeyPair env d pair.algorithm metadata.customerId s.keyMetadata with
  | ok newPair =>
      refine Or.inr ⟨fun hrefused => ?_, Or.inr (rotateKey_blocks hpair hmetadata hadmitted)⟩
      obtain ⟨e, -, hgenerate⟩ := hrefused pair metadata hpair hmetadata
      rw [generateKeyPair_of_ok hadmitted] at hgenerate
      cases hgenerate
  | error e =>
  have hends := rotateKey_ends hpair hmetadata hadmitted
  by_cases hpanic : e = .panic
  · subst hpanic
    refine Or.inr ⟨fun hrefused => ?_, Or.inl hends⟩
    obtain ⟨e, hne, hgenerate⟩ := hrefused pair metadata hpair hmetadata
    rw [generateKeyPair_of_error hadmitted] at hgenerate
    cases hgenerate
    exact hne rfl
  · refine Or.inl ⟨fun pair' metadata' hpair' hmetadata' => ?_, .error e, by simpa using hpanic, hends⟩
    rw [hpair] at hpair'
    rw [hmetadata] at hmetadata'
    cases hpair'
    cases hmetadata'
    exact ⟨e, hpanic, generateKeyPair_of_error hadmitted⟩

/-- The loop goes on after everything but a panic. -/
theorem exec_rotateKeys_cons {draws : String → KeyPairDraws} {keyIds : List String} {r : Except Failure Unit}
    (h : (rotateKey env (draws keyId) keyId).Ends [] s r s) (hr : r ≠ .error .panic) :
    Task.exec (rotateKeys env draws (keyId :: keyIds)) [] s = Task.exec (rotateKeys env draws keyIds) [] s := by
  refine (Task.exec_bind_of_ret h).trans ?_
  cases r with
  | ok u => rfl
  | error e =>
      cases e with
      | panic => exact absurd rfl hr
      | service e => rfl
      | anyhow message => rfl

/-- The loop returns if every key is refused, and panics or blocks if not. -/
theorem rotateKeys_cases (env : Env) (draws : String → KeyPairDraws) (keyIds : List String) (s : Broker) :
    ((∀ keyId ∈ keyIds, Refused env (draws keyId) keyId s) ∧ (rotateKeys env draws keyIds).Ends [] s (.ok ()) s) ∨
      ((¬ ∀ keyId ∈ keyIds, Refused env (draws keyId) keyId s) ∧
        ((rotateKeys env draws keyIds).Ends [] s (.error .panic) s ∨ (rotateKeys env draws keyIds).Blocks [] s)) := by
  induction keyIds with
  | nil => exact Or.inl ⟨fun _ h => absurd h List.not_mem_nil, Routine.ends_pure ()⟩
  | cons keyId keyIds ih =>
      rw [List.forall_mem_cons]
      rcases rotateKey_cases env (draws keyId) keyId s with ⟨hrefused, r, hr, hends⟩ | ⟨hnot, hpanics | hblocks⟩
      · rw [Routine.Ends, Routine.Ends, Routine.Blocks, exec_rotateKeys_cons hends hr, and_iff_right hrefused]
        exact ih
      · exact Or.inr ⟨fun h => hnot h.1, Or.inl (Routine.ends_handle hpanics (Routine.ends_lift _))⟩
      · exact Or.inr ⟨fun h => hnot h.1, Or.inr (Routine.blocks_handle_left _ hblocks)⟩

/-- The rotation is its loop over the keys that it finds expired. -/
theorem exec_rotateExpiredKeys (env : Env) (draws : String → KeyPairDraws) (order : List String → List String)
    (now : DateTime) (s : Broker) :
    Task.exec (rotateExpiredKeys env draws order now) [] s =
      Task.exec (rotateKeys env draws (order (expiredKeys now s.keyMetadata))) [] s := by
  apply Routine.Ends.exec_bind
  apply Routine.ends_holding (by decide)
  exact Routine.ends_bind Routine.ends_look (Routine.ends_pure _)

/-- A rotation that runs alone ends and never waits for a lock that it holds, exactly if every expired key is
refused before its replacement is stored. -/
theorem rotateExpiredKeys_completes_iff (env : Env) (draws : String → KeyPairDraws) (order : List String → List String)
    (horder : ∀ l, (order l).Perm l) (now : DateTime) (s : Broker) :
    ((∃ c, Steps ⟨[], s, rotateExpiredKeys env draws order now⟩ c ∧ c.task = .ret (.ok ())) ∧
        ∀ c, Steps ⟨[], s, rotateExpiredKeys env draws order now⟩ c → ¬ c.WaitsOnItself) ↔
      ∀ keyId ∈ expiredKeys now s.keyMetadata, Refused env (draws keyId) keyId s := by
  have hmem : (∀ keyId ∈ order (expiredKeys now s.keyMetadata), Refused env (draws keyId) keyId s) ↔
      ∀ keyId ∈ expiredKeys now s.keyMetadata, Refused env (draws keyId) keyId s :=
    forall_congr' fun keyId => imp_congr (horder _).mem_iff Iff.rfl
  rw [exists_ret_iff, ← hmem]
  have hwaits : (∀ c, Steps ⟨[], s, rotateExpiredKeys env draws order now⟩ c → ¬ c.WaitsOnItself) ↔
      ¬ (Task.exec (rotateExpiredKeys env draws order now) [] s).WaitsOnItself := by
    rw [← exists_waits_iff (c := ⟨[], s, rotateExpiredKeys env draws order now⟩)]
    push Not
    rfl
  rw [hwaits, exec_rotateExpiredKeys]
  rcases rotateKeys_cases env draws (order (expiredKeys now s.keyMetadata)) s with
    ⟨hrefused, hends⟩ | ⟨hnot, hpanics | hblocks⟩
  · exact iff_of_true ⟨congrArg Config.task hends, hends.not_blocks⟩ hrefused
  · refine iff_of_false (fun h => ?_) hnot
    have hret := h.1
    rw [hpanics] at hret
    cases hret
  · exact iff_of_false (fun h => h.2 hblocks) hnot

/-- The plain broker with keys that expire after a day, and a limit on them. -/
def rotatingEnv (limit : UInt32) : Env :=
  { plainEnv with crypto := { plainEnv.crypto with keyRotationEnabled := true, maxKeysPerCustomer := limit } }

/-- Draws of a fresh id with blank randomness. -/
def drawsOf (keyId : Uuid) : KeyPairDraws := ⟨blank 64, blank 32, keyId, blank 12, ⟨0, 0⟩, ⟨0, 0⟩⟩

/-- One key, generated at time zero. -/
def oneKey (limit : UInt32) : Broker :=
  (SecretBroker.generateKeyPair (rotatingEnv limit) (drawsOf (.filled 1)) "dilithium5" "customer" Broker.empty).2

/-- After two days. -/
def twoDays : DateTime := ⟨172800, 0⟩

theorem rotateExpiredKeys_completes_at_limit :
    (∃ m ∈ (oneKey 1).keyMetadata, ExpiredAt twoDays m) ∧
    (∃ c, Steps ⟨[], oneKey 1, rotateExpiredKeys (rotatingEnv 1) (fun _ => drawsOf (.filled 2)) id twoDays⟩ c ∧
      c.task = .ret (.ok ())) ∧
    ∀ c, Steps ⟨[], oneKey 1, rotateExpiredKeys (rotatingEnv 1) (fun _ => drawsOf (.filled 2)) id twoDays⟩ c →
      ¬ c.WaitsOnItself := by
  refine ⟨by decide +kernel, (rotateExpiredKeys_completes_iff (rotatingEnv 1) _ id List.Perm.refl twoDays
    (oneKey 1)).mpr ?_⟩
  intro keyId _ pair metadata hpair hmetadata
  have halgorithm : ∀ p ∈ (oneKey 1).keyPairs, validatePostQuantumAlgorithm (rotatingEnv 1) p.algorithm = .ok () := by
    decide +kernel
  have hlimit : ∀ m ∈ (oneKey 1).keyMetadata,
      (rotatingEnv 1).crypto.maxKeysPerCustomer.toNat ≤ customerKeyCount (oneKey 1).keyMetadata m.customerId := by
    decide +kernel
  refine ⟨_, by simp, generateKeyPair_of_error (admitKeyPair_at_limit (halgorithm pair ?_) (hlimit metadata ?_))⟩
  · exact List.mem_of_find?_eq_some hpair
  · exact List.mem_of_find?_eq_some hmetadata

/-- With room for one more key, the rotation comes to wait for the table of key pairs, which it has locked. -/
theorem rotateExpiredKeys_waits_on_itself :
    (∃ m ∈ (oneKey 100).keyMetadata, ExpiredAt twoDays m) ∧
    ∃ c, Steps ⟨[], oneKey 100, rotateExpiredKeys (rotatingEnv 100) (fun _ => drawsOf (.filled 2)) id twoDays⟩ c ∧
      c.WaitsOnItself :=
  ⟨by decide +kernel, exists_waits_iff.mpr (by decide +kernel)⟩

end KeyManager

end SecretBroker
