import SecretBroker.CompletenessWire
import SecretBroker.KeyReplacement
import SecretBroker.LibRely
import SecretBroker.Server
import SecretBroker.SigningKeys

/-! The key manager under concurrent requests. Each request locks the tables one after the other, always in the
same order, so no set of requests can block each other, unlike the rotation of expired keys. What a request
answers about a key stays true, whatever the other requests do in between. -/

open Wire Lock

namespace SecretBroker

namespace Proto

structure CryptoSignRequest where
  keyId : String
  data : Bytes

structure CryptoSignResponse where
  signature : Bytes
  deriving DecidableEq, Repr

structure CryptoVerifyRequest where
  keyId : String
  data : Bytes
  signature : Bytes

structure CryptoVerifyResponse where
  valid : Bool
  deriving DecidableEq, Repr

structure CryptoKeygenRequest where
  algorithm : String
  customerId : String

structure CryptoKeygenResponse where
  keyId : String
  publicKey : Bytes
  algorithm : String
  deriving DecidableEq, Repr

structure CryptoPubkeyRequest where
  keyId : String

structure CryptoPubkeyResponse where
  keyId : String
  publicKey : Bytes
  deriving DecidableEq, Repr

end Proto

namespace KeyManager

section

variable (env : Env)

/-- `update_key_usage`. -/
def updateKeyUsage (keyId : String) (now : DateTime) : Routine LockId Broker Failure Unit :=
  .holding .keyMetadata .write <| Routine.update fun s => s.useKey keyId now

/-- `decrypt_private_key`. The length is looked at before the master key is locked. -/
def decryptPrivateKey (encryptedKey : Bytes) : Routine LockId Broker Failure Bytes := do
  Routine.lift (Eff.rejectIf (encryptedKey.length < 12) (.anyhow "Invalid encrypted key format"))
  .holding .masterKey .read <| Routine.lift ((SecretBroker.decryptPrivateKey env encryptedKey).mapError .anyhow)

/-- `sign_data`. The key pairs stay locked until the use has been noted. -/
def signData (checkNow usageNow : DateTime) (data : Bytes) (keyId : String) : Routine LockId Broker Failure Bytes :=
  .holding .keyPairs .read do
    let s ← Routine.look
    let pair ← Routine.lift (Eff.okOr (s.keyPair? keyId) (keyNotFound keyId))
    Routine.lift (Eff.rejectIf (isKeyExpired pair checkNow) (expiredKeyError env keyId pair))
    let privateKey ← decryptPrivateKey env pair.privateKey
    let signature ← Routine.lift ((signWithAlgorithm env pair.algorithm data privateKey).mapError .anyhow)
    updateKeyUsage keyId usageNow
    return signature

/-- Only a valid signature counts as a use of the key. -/
def noteIfValid (valid : Bool) (keyId : String) (now : DateTime) : Routine LockId Broker Failure Unit :=
  if valid then updateKeyUsage keyId now else Routine.lift (.ok ())

/-- `verify_signature`. -/
def verifySignature (checkNow usageNow : DateTime) (data signature : Bytes) (keyId : String) :
    Routine LockId Broker Failure Bool :=
  .holding .keyPairs .read do
    let s ← Routine.look
    let pair ← Routine.lift (Eff.okOr (s.keyPair? keyId) (keyNotFound keyId))
    Routine.lift (Eff.rejectIf (isKeyExpired pair checkNow) (expiredKeyError env keyId pair))
    let valid ← Routine.lift ((verifyWithAlgorithm env pair.algorithm data signature pair.publicKey).mapError .anyhow)
    noteIfValid valid keyId usageNow
    return valid

/-- `get_public_key`. -/
def getPublicKey (usageNow : DateTime) (keyId : String) : Routine LockId Broker Failure Bytes :=
  .holding .keyPairs .read do
    let s ← Routine.look
    let pair ← Routine.lift (Eff.okOr (s.keyPair? keyId) (keyNotFound keyId))
    updateKeyUsage keyId usageNow
    return pair.publicKey

/-- `health_check`: the two counts are read one after the other, and a difference is only logged. -/
def healthCheck : Routine LockId Broker Failure Unit := do
  let _keyPairsCount ← Routine.holding .keyPairs .read do
    let s ← Routine.look
    return s.keyPairs.length
  let _metadataCount ← Routine.holding .keyMetadata .read do
    let s ← Routine.look
    return s.keyMetadata.length
  return ()

/-- The part of `persist_secret_v2_with_lifecycle` that makes a key for an envelope and signs the envelope with it. -/
def signEnvelope (d : KeyPairDraws) (checkNow usageNow : DateTime) (envelopeBytes : Bytes) (customerId : String) :
    Routine LockId Broker Failure (KeyPair × Bytes) := do
  let keyPair ← generateKeyPair env d "dilithium5" customerId
  let signature ← signData env checkNow usageNow envelopeBytes keyPair.keyId
  return (keyPair, signature)

end

section

variable (env : Env)

theorem toEff_decryptPrivateKey (encryptedKey : Bytes) :
    (decryptPrivateKey env encryptedKey).toEff =
      Eff.lift ((SecretBroker.decryptPrivateKey env encryptedKey).mapError .anyhow) := by
  simp only [decryptPrivateKey, Routine.toEff_bind, Routine.toEff_lift, Routine.toEff_holding, Eff.rejectIf]
  split_ifs with hshort
  · -- the function itself refuses such a key with the same message
    rw [SecretBroker.decryptPrivateKey, takeBytes, if_neg (not_le.mpr hshort)]
    rfl
  · rfl

/-- With its locks granted, a signature is the one of the crypto engine. -/
theorem toEff_signData (checkNow usageNow : DateTime) (data : Bytes) (keyId : String) :
    (signData env checkNow usageNow data keyId).toEff = SecretBroker.signData env checkNow usageNow data keyId := by
  simp only [signData, updateKeyUsage, SecretBroker.signData, Routine.toEff_bind, Routine.toEff_lift,
    Routine.toEff_holding, Routine.toEff_look, Routine.toEff_update, Routine.toEff_pure, toEff_decryptPrivateKey]
  rfl

theorem toEff_signEnvelope (d : KeyPairDraws) (checkNow usageNow : DateTime) (envelopeBytes : Bytes)
    (customerId : String) : (signEnvelope env d checkNow usageNow envelopeBytes customerId).toEff = do
      let keyPair ← SecretBroker.generateKeyPair env d "dilithium5" customerId
      let signature ← SecretBroker.signData env checkNow usageNow envelopeBytes keyPair.keyId
      return (keyPair, signature) := by
  simp only [signEnvelope, Routine.toEff_bind, toEff_generateKeyPair, toEff_signData, Routine.toEff_pure]

end

section

variable (env : ServerEnv)

/-- A text without the white space around it, which must not be empty. -/
def requiredText (value error : String) : Except RpcError String := do
  Eff.rejectIf (trim value = "") (.status .invalidArgument error)
  return trim value

def defaultCustomerId (value : String) : String := if trim value = "" then "default" else trim value

/-- `crypto_sign`. -/
def cryptoSign (checkNow usageNow : DateTime) (context : Option BrokerClientContext) (req : Proto.CryptoSignRequest) :
    Routine LockId Broker RpcError Proto.CryptoSignResponse := do
  let _ ← Routine.lift (brokerContext context)
  let keyId ← Routine.lift (requiredText req.keyId "key_id is required")
  let signature ← (signData env.toEnv checkNow usageNow req.data keyId).mapError (svcErr env)
  return { signature }

/-- `crypto_verify`. -/
def cryptoVerify (checkNow usageNow : DateTime) (context : Option BrokerClientContext)
    (req : Proto.CryptoVerifyRequest) : Routine LockId Broker RpcError Proto.CryptoVerifyResponse := do
  let _ ← Routine.lift (brokerContext context)
  let keyId ← Routine.lift (requiredText req.keyId "key_id is required")
  let valid ← (verifySignature env.toEnv checkNow usageNow req.data req.signature keyId).mapError (svcErr env)
  return { valid }

/-- `crypto_keygen`. -/
def cryptoKeygen (d : KeyPairDraws) (context : Option BrokerClientContext) (req : Proto.CryptoKeygenRequest) :
    Routine LockId Broker RpcError Proto.CryptoKeygenResponse := do
  let _ ← Routine.lift (brokerContext context)
  let algorithm ← Routine.lift (requiredText req.algorithm "algorithm is required")
  let keyPair ← (generateKeyPair env.toEnv d algorithm (defaultCustomerId req.customerId)).mapError (svcErr env)
  return { keyId := keyPair.keyId, publicKey := keyPair.publicKey, algorithm := keyPair.algorithm }

/-- `crypto_pubkey`. -/
def cryptoPubkey (usageNow : DateTime) (context : Option BrokerClientContext) (req : Proto.CryptoPubkeyRequest) :
    Routine LockId Broker RpcError Proto.CryptoPubkeyResponse := do
  let _ ← Routine.lift (brokerContext context)
  let keyId ← Routine.lift (requiredText req.keyId "key_id is required")
  let publicKey ← (getPublicKey usageNow keyId).mapError (svcErr env)
  return { keyId, publicKey }

end

/-- A request that reaches the key manager, with what it draws. -/
inductive KeyCall where
  | keygen (d : KeyPairDraws) (context : Option BrokerClientContext) (req : Proto.CryptoKeygenRequest)
  | sign (checkNow usageNow : DateTime) (context : Option BrokerClientContext) (req : Proto.CryptoSignRequest)
  | verify (checkNow usageNow : DateTime) (context : Option BrokerClientContext) (req : Proto.CryptoVerifyRequest)
  | pubkey (usageNow : DateTime) (context : Option BrokerClientContext) (req : Proto.CryptoPubkeyRequest)
  | envelope (d : KeyPairDraws) (checkNow usageNow : DateTime) (envelopeBytes : Bytes) (customerId : String)
  | health

inductive KeyReply where
  | key (response : Proto.CryptoKeygenResponse)
  | signature (response : Proto.CryptoSignResponse)
  | verdict (response : Proto.CryptoVerifyResponse)
  | publicKey (response : Proto.CryptoPubkeyResponse)
  | signedEnvelope (keyPair : KeyPair) (signature : Bytes)
  | healthy

namespace KeyCall

/-- What a request does, guard by guard. -/
def task (env : ServerEnv) : KeyCall → Routine LockId Broker RpcError KeyReply
  | .keygen d context req => do return .key (← cryptoKeygen env d context req)
  | .sign checkNow usageNow context req => do return .signature (← cryptoSign env checkNow usageNow context req)
  | .verify checkNow usageNow context req => do return .verdict (← cryptoVerify env checkNow usageNow context req)
  | .pubkey usageNow context req => do return .publicKey (← cryptoPubkey env usageNow context req)
  | .envelope d checkNow usageNow envelopeBytes customerId => do
      let (keyPair, signature) ← (signEnvelope env.toEnv d checkNow usageNow envelopeBytes customerId).mapError
        fun e => svcServiceErr e.asCrypto
      return .signedEnvelope keyPair signature
  | .health => do
      (healthCheck).mapError (svcErr env)
      return .healthy

/-- The UUID that a request draws for a key. -/
def draws : KeyCall → Option Uuid
  | .keygen d _ _ => some d.keyId
  | .envelope d _ _ _ _ => some d.keyId
  | _ => none

end KeyCall

/-- The place of a lock in the order in which the requests take them. -/
def LockId.rank : LockId → ℕ
  | .keyPairs => 0
  | .masterKey => 1
  | .rng => 2
  | .keyMetadata => 3

section

variable {env : Env} {held : List (LockId × Mode)}

theorem climbs_updateKeyUsage {keyId : String} {now : DateTime}
    (h : ∀ guard ∈ held, guard.1.rank < LockId.keyMetadata.rank) :
    (updateKeyUsage keyId now).Climbs LockId.rank held :=
  Routine.climbs_holding .write h (Routine.climbs_update _)

theorem climbs_decryptPrivateKey {encryptedKey : Bytes} (h : ∀ guard ∈ held, guard.1.rank < LockId.masterKey.rank) :
    (decryptPrivateKey env encryptedKey).Climbs LockId.rank held := by
  refine Routine.climbs_bind (Routine.climbs_lift _) fun _ => ?_
  exact Routine.climbs_holding .read h (Routine.climbs_lift _)

theorem climbs_generateKeyPair {d : KeyPairDraws} {algorithm customerId : String} :
    (generateKeyPair env d algorithm customerId).Climbs LockId.rank [] := by
  have hlimits : (checkKeyLimits env customerId).Climbs LockId.rank [] :=
    Routine.climbs_holding .read (by decide) (Routine.climbs_bind Routine.climbs_look fun _ => Routine.climbs_lift _)
  have hencrypt : ∀ privateKey, (encryptPrivateKey env privateKey d.nonce).Climbs LockId.rank [] := fun _ =>
    Routine.climbs_holding .read (by decide) (Routine.climbs_holding .write (by decide) (Routine.climbs_lift _))
  have hstore : ∀ pair, (storeKeyPair pair customerId).Climbs LockId.rank [] := fun _ =>
    Routine.climbs_holding .write (by decide) (Routine.climbs_holding .write (by decide)
      (Routine.climbs_bind (Routine.climbs_update _) fun _ => Routine.climbs_pure _))
  refine Routine.climbs_bind (Routine.climbs_lift _) fun _ => Routine.climbs_bind hlimits fun _ => ?_
  refine Routine.climbs_bind (Routine.climbs_lift _) fun _ => Routine.climbs_bind (hencrypt _) fun _ => ?_
  exact Routine.climbs_bind (Routine.climbs_lift _) fun _ => hstore _

theorem climbs_signData {checkNow usageNow : DateTime} {data : Bytes} {keyId : String} :
    (signData env checkNow usageNow data keyId).Climbs LockId.rank [] := by
  refine Routine.climbs_holding .read (by decide) (Routine.climbs_bind Routine.climbs_look fun _ => ?_)
  refine Routine.climbs_bind (Routine.climbs_lift _) fun _ => Routine.climbs_bind (Routine.climbs_lift _) fun _ => ?_
  refine Routine.climbs_bind (climbs_decryptPrivateKey (by decide)) fun _ => ?_
  refine Routine.climbs_bind (Routine.climbs_lift _) fun _ => ?_
  exact Routine.climbs_bind (climbs_updateKeyUsage (by decide)) fun _ => Routine.climbs_pure _

theorem climbs_verifySignature {checkNow usageNow : DateTime} {data signature : Bytes} {keyId : String} :
    (verifySignature env checkNow usageNow data signature keyId).Climbs LockId.rank [] := by
  refine Routine.climbs_holding .read (by decide) (Routine.climbs_bind Routine.climbs_look fun _ => ?_)
  refine Routine.climbs_bind (Routine.climbs_lift _) fun _ => Routine.climbs_bind (Routine.climbs_lift _) fun _ => ?_
  refine Routine.climbs_bind (Routine.climbs_lift _) fun valid => Routine.climbs_bind ?_ fun _ => Routine.climbs_pure _
  cases valid with
  | true => exact climbs_updateKeyUsage (by decide)
  | false => exact Routine.climbs_lift _

theorem climbs_getPublicKey {usageNow : DateTime} {keyId : String} :
    (getPublicKey usageNow keyId).Climbs LockId.rank [] := by
  refine Routine.climbs_holding .read (by decide) (Routine.climbs_bind Routine.climbs_look fun _ => ?_)
  refine Routine.climbs_bind (Routine.climbs_lift _) fun _ => ?_
  exact Routine.climbs_bind (climbs_updateKeyUsage (by decide)) fun _ => Routine.climbs_pure _

theorem climbs_healthCheck : healthCheck.Climbs LockId.rank [] := by
  refine Routine.climbs_bind (Routine.climbs_holding .read (by decide)
    (Routine.climbs_bind Routine.climbs_look fun _ => Routine.climbs_pure _)) fun _ => ?_
  exact Routine.climbs_bind (Routine.climbs_holding .read (by decide)
    (Routine.climbs_bind Routine.climbs_look fun _ => Routine.climbs_pure _)) fun _ => Routine.climbs_pure _

end

/-- Every request takes its locks in order and drops them all. -/
theorem KeyCall.climbs (env : ServerEnv) (call : KeyCall) : (call.task env).Climbs LockId.rank [] := by
  cases call with
  | keygen d context req =>
      refine Routine.climbs_bind ?_ fun _ => Routine.climbs_pure _
      refine Routine.climbs_bind (Routine.climbs_lift _) fun _ => Routine.climbs_bind (Routine.climbs_lift _) fun _ => ?_
      exact Routine.climbs_bind (Routine.climbs_mapError climbs_generateKeyPair) fun _ => Routine.climbs_pure _
  | sign checkNow usageNow context req =>
      refine Routine.climbs_bind ?_ fun _ => Routine.climbs_pure _
      refine Routine.climbs_bind (Routine.climbs_lift _) fun _ => Routine.climbs_bind (Routine.climbs_lift _) fun _ => ?_
      exact Routine.climbs_bind (Routine.climbs_mapError climbs_signData) fun _ => Routine.climbs_pure _
  | verify checkNow usageNow context req =>
      refine Routine.climbs_bind ?_ fun _ => Routine.climbs_pure _
      refine Routine.climbs_bind (Routine.climbs_lift _) fun _ => Routine.climbs_bind (Routine.climbs_lift _) fun _ => ?_
      exact Routine.climbs_bind (Routine.climbs_mapError climbs_verifySignature) fun _ => Routine.climbs_pure _
  | pubkey usageNow context req =>
      refine Routine.climbs_bind ?_ fun _ => Routine.climbs_pure _
      refine Routine.climbs_bind (Routine.climbs_lift _) fun _ => Routine.climbs_bind (Routine.climbs_lift _) fun _ => ?_
      exact Routine.climbs_bind (Routine.climbs_mapError climbs_getPublicKey) fun _ => Routine.climbs_pure _
  | envelope d checkNow usageNow envelopeBytes customerId =>
      refine Routine.climbs_bind (Routine.climbs_mapError ?_) fun _ => Routine.climbs_pure _
      refine Routine.climbs_bind climbs_generateKeyPair fun _ => ?_
      exact Routine.climbs_bind climbs_signData fun _ => Routine.climbs_pure _
  | health => exact Routine.climbs_bind (Routine.climbs_mapError climbs_healthCheck) fun _ => Routine.climbs_pure _

/-- The requests at their start. -/
def startCalls {κ : Type} (env : ServerEnv) (s : Broker) (calls : κ → KeyCall) :
    System κ LockId Broker (Except RpcError KeyReply) := .start s fun k => (calls k).task env

section

variable {κ : Type} [DecidableEq κ] (env : ServerEnv)

/-- A request that nobody interferes with does what it does when every lock is granted. -/
theorem startCalls_alone (calls : κ → KeyCall) (s : Broker) (k : κ) :
    System.Steps (startCalls env s calls) ⟨(((calls k).task env).toEff s).2, Function.update
      (startCalls env s calls).worker k ⟨[], .ret (((calls k).task env).toEff s).1⟩, fun _ => []⟩ :=
  System.steps_alone (c := startCalls env s calls) (fun _ => rfl) (fun _ _ => rfl) rfl ((calls k).climbs env)

/-- **Concurrent requests to the key manager are all answered**: however many there are, on whatever tables,
and whoever is served next at each step. -/
theorem keyCalls_answered [Finite κ] (calls : κ → KeyCall) (s : Broker)
    {run : ℕ → System κ LockId Broker (Except RpcError KeyReply)} (hstart : run 0 = startCalls env s calls)
    (hrun : System.Maximal run) : ∃ n, ∀ k, ((run n).worker k).Returned := by
  apply hrun.exists_returned
  rw [hstart]
  exact System.orderly_start s fun k => (calls k).climbs env

end

def plainKeyDraws : KeyPairDraws := ⟨blank 64, blank 32, .filled 1, blank 12, ⟨0, 0⟩, ⟨0, 0⟩⟩

/-- A key is made, and a signature is asked of it in the meantime. -/
def plainKeyCalls : Bool → KeyCall
  | true => .keygen plainKeyDraws (some plainContext) ⟨"dilithium5", "customer"⟩
  | false => .sign ⟨0, 0⟩ ⟨0, 0⟩ (some plainContext) ⟨keyIdOf plainKeyDraws.keyId, [1, 2, 3]⟩

theorem keyCalls_answered_plain : ∃ run, run 0 = startCalls plainServer Broker.empty plainKeyCalls ∧
    System.Maximal run ∧ ∃ n, ∀ k, ((run n).worker k).Returned := by
  obtain ⟨run, hstart, hrun⟩ := System.exists_maximal (startCalls plainServer Broker.empty plainKeyCalls)
  exact ⟨run, hstart, hrun, keyCalls_answered plainServer plainKeyCalls Broker.empty hstart hrun⟩

/-! ### What a request knows between its steps -/

section

variable {env : Env} {others own : Uuid → Prop} {keyId : String}

/-- The key is in the table, and all keys there were generated. -/
def Knows (env : Env) (keyId : String) (pair : KeyPair) (s : Broker) : Prop :=
  s.AllGenerated env ∧ s.keyPair? keyId = some pair

theorem Knows.steps {pair : KeyPair} {s t : Broker} (h : Knows env keyId pair s) (hsteps : KeySteps env others s t) :
    Knows env keyId pair t := by
  refine ⟨?_, hsteps.keyPair? h.2⟩
  exact Stable.steps (fun _ _ hs hstep => hstep.allGenerated hs) h.1 hsteps

/-- The key is in the table beside its entry, and all keys there were generated. -/
def Stored (env : Env) (pair : KeyPair) (customerId : String) (s : Broker) : Prop :=
  s.AllGenerated env ∧ s.StoresKey pair customerId

theorem Stored.knows {pair : KeyPair} {customerId : String} {s : Broker} (h : Stored env pair customerId s) :
    Knows env pair.keyId pair s := ⟨h.1, h.2.1⟩

theorem stable_stored (ids : Uuid → Prop) (pair : KeyPair) (customerId : String) :
    Stable (KeyStep env ids) (Stored env pair customerId) :=
  fun _ _ hs hstep => ⟨hstep.allGenerated hs.1, hstep.storesKey hs.2⟩

/-- Looking a key up. -/
theorem meets_findKey {β : Type} {f : KeyPair → Routine LockId Broker Failure β} {R : Except Failure β → Broker → Prop}
    (hf : ∀ pair, (f pair).Meets (KeyStep env others) (KeyStep env own) (Knows env keyId pair) R)
    (herror : ∀ e s, R (.error e) s) :
    Routine.Meets (KeyStep env others) (KeyStep env own) (do
      let s ← Routine.look
      let pair ← Routine.lift (Eff.okOr (s.keyPair? keyId) (keyNotFound keyId))
      f pair) (Broker.AllGenerated env) R := by
  refine Routine.meets_bind (Q := fun r t => ∀ s, r = .ok s → ∀ pair, s.keyPair? keyId = some pair →
    Knows env keyId pair t) (Routine.meets_look ?_) (fun s => ?_) (fun e t _ => herror e t)
  · rintro s t hs - hsteps s' hs' pair hpair
    cases hs'
    exact Knows.steps ⟨hs, hpair⟩ hsteps
  · refine Routine.meets_check (fun pair hpair => ?_) (fun e t _ => herror e t)
    exact (hf pair).weaken fun t ht => ht s rfl pair (Eff.okOr_eq_ok.mp hpair)

theorem meets_updateKeyUsage {now : DateTime} {keyId' : String} {pair : KeyPair} :
    (updateKeyUsage keyId' now).Meets (KeyStep env others) (KeyStep env own) (Knows env keyId pair)
      fun _ => Knows env keyId pair := by
  refine Routine.meets_holding (Routine.meets_update (fun s _ => .use s keyId' now) ?_)
  exact fun s t hs hsteps => Knows.steps (s := s.useKey keyId' now) hs hsteps

theorem meets_decryptPrivateKey {P : Broker → Prop} {encryptedKey : Bytes} :
    (decryptPrivateKey env encryptedKey).Meets (KeyStep env others) (KeyStep env own) P fun r s =>
      P s ∧ ∀ privateKey, r = .ok privateKey → SecretBroker.decryptPrivateKey env encryptedKey = .ok privateKey := by
  refine Routine.meets_check (fun _ _ => Routine.meets_holding (Routine.meets_lift fun s hs => ⟨hs, ?_⟩))
    (fun e s hs => ⟨hs, fun _ h => by cases h⟩)
  exact fun _ h => Eff.except_mapError_eq_ok.mp h

/-- A signature that is returned verifies with a key that is in the table. -/
theorem meets_signData (hlaw : env.Lawful) {checkNow usageNow : DateTime} {data : Bytes} :
    (signData env checkNow usageNow data keyId).Meets (KeyStep env others) (KeyStep env own) (Broker.AllGenerated env)
      fun r s => ∀ signature, r = .ok signature → ∃ pair, Knows env keyId pair s ∧
        verifyWithAlgorithm env pair.algorithm data signature pair.publicKey = .ok true := by
  refine Routine.meets_holding (meets_findKey (fun pair => ?_) fun _ _ _ h => by cases h)
  refine Routine.meets_check (fun _ _ => ?_) (fun _ _ _ _ h => by cases h)
  refine Routine.meets_bind meets_decryptPrivateKey (fun privateKey => ?_) (fun _ _ _ _ h => by cases h)
  refine Routine.meets_check (fun signature hsign => ?_) (fun _ _ _ _ h => by cases h)
  rw [Eff.except_mapError_eq_ok] at hsign
  -- the two halves belong together, since the pair was generated
  refine Routine.meets_fact (fun s hs => (hs.1.1 keyId pair hs.1.2).verifies hlaw (hs.2 privateKey rfl) hsign)
    fun hverifies => ?_
  refine Routine.meets_bind (meets_updateKeyUsage.weaken fun s hs => hs.1)
    (fun _ => Routine.meets_pure fun s hs signature' h => ?_) (fun _ _ _ _ h => by cases h)
  cases h
  exact ⟨pair, hs, hverifies⟩

theorem meets_verifySignature {checkNow usageNow : DateTime} {data signature : Bytes} :
    (verifySignature env checkNow usageNow data signature keyId).Meets (KeyStep env others) (KeyStep env own)
      (Broker.AllGenerated env) fun r s => ∀ valid, r = .ok valid → ∃ pair, Knows env keyId pair s ∧
        verifyWithAlgorithm env pair.algorithm data signature pair.publicKey = .ok valid := by
  refine Routine.meets_holding (meets_findKey (fun pair => ?_) fun _ _ _ h => by cases h)
  refine Routine.meets_check (fun _ _ => ?_) (fun _ _ _ _ h => by cases h)
  refine Routine.meets_check (fun valid hvalid => ?_) (fun _ _ _ _ h => by cases h)
  rw [Eff.except_mapError_eq_ok] at hvalid
  refine Routine.meets_bind (Q := fun _ => Knows env keyId pair) ?_
    (fun _ => Routine.meets_pure fun s hs valid' h => ?_) (fun _ _ _ _ h => by cases h)
  · cases valid with
    | true => exact meets_updateKeyUsage
    | false => exact Routine.meets_lift fun s hs => hs
  · cases h
    exact ⟨pair, hs, hvalid⟩

theorem meets_getPublicKey {usageNow : DateTime} :
    (getPublicKey usageNow keyId).Meets (KeyStep env others) (KeyStep env own) (Broker.AllGenerated env)
      fun r s => ∀ publicKey, r = .ok publicKey → ∃ pair, Knows env keyId pair s ∧ pair.publicKey = publicKey := by
  refine Routine.meets_holding (meets_findKey (fun pair => ?_) fun _ _ _ h => by cases h)
  refine Routine.meets_bind meets_updateKeyUsage (fun _ => Routine.meets_pure fun s hs publicKey h => ?_)
    (fun _ _ _ _ h => by cases h)
  cases h
  exact ⟨pair, hs, rfl⟩

/-- All keys were generated, and the id that was drawn is free. -/
def Ready (env : Env) (id : Uuid) (s : Broker) : Prop := s.AllGenerated env ∧ s.keyPair? (keyIdOf id) = none

theorem meets_storeKeyPair {d : KeyPairDraws} (hown : own d.keyId) {algorithm customerId : String} {pair : KeyPair}
    (hnew : newKeyPair env d algorithm = .ok pair) :
    (storeKeyPair pair customerId).Meets (KeyStep env others) (KeyStep env own) (Ready env d.keyId)
      fun r s => ∀ stored, r = .ok stored → stored = pair ∧ Stored env pair customerId s := by
  refine Routine.meets_holding (Routine.meets_holding (Routine.meets_bind (Q := fun _ => Stored env pair customerId)
    (Routine.meets_update (fun s hs => .add hown hnew hs.2) fun s t hs hsteps => ?_)
    (fun _ => Routine.meets_pure fun s hs stored h => ?_) fun _ _ _ _ h => by cases h))
  · have hstep : KeyStep env own s (s.addKey pair customerId) := .add hown hnew hs.2
    exact (stable_stored others pair customerId).steps ⟨hstep.allGenerated hs.1, s.addKey_storesKey pair customerId⟩ hsteps
  · cases h
    exact ⟨rfl, hs⟩

/-- A key that is returned is in the table, with its entry. -/
theorem meets_generateKeyPair {d : KeyPairDraws} (hown : own d.keyId) {algorithm customerId : String} :
    (generateKeyPair env d algorithm customerId).Meets (KeyStep env others) (KeyStep env own) (Ready env d.keyId)
      fun r s => ∀ pair, r = .ok pair → Stored env pair customerId s ∧ newKeyPair env d algorithm = .ok pair := by
  refine Routine.meets_check (fun _ _ => ?_) (fun _ _ _ _ h => by cases h)
  refine Routine.meets_bind (Q := fun _ => Ready env d.keyId) ?_ (fun _ => ?_) (fun _ _ _ _ h => by cases h)
  · refine Routine.meets_holding (Routine.meets_bind (Q := fun _ => Ready env d.keyId) ?_ (fun _ => ?_) fun _ _ hs => hs)
    · exact Routine.meets_look fun s t _ ht _ => ht
    · exact Routine.meets_lift fun s hs => hs
  refine Routine.meets_check (fun keys hkeys => ?_) (fun _ _ _ _ h => by cases h)
  obtain ⟨publicKey, privateKey⟩ := keys
  refine Routine.meets_bind (Q := fun r s => Ready env d.keyId s ∧
      r = (SecretBroker.encryptPrivateKey env privateKey d.nonce).mapError .anyhow) ?_ (fun encrypted => ?_)
    (fun _ _ _ _ h => by cases h)
  · exact Routine.meets_holding (Routine.meets_holding (Routine.meets_lift fun s hs => ⟨hs, rfl⟩))
  refine Routine.meets_check (fun expiresAt hexpires => ?_) (fun _ _ _ _ h => by cases h)
  refine Routine.meets_fact (fun s hs => hs.2.symm) fun hencrypted => ?_
  have hnew : newKeyPair env d algorithm = .ok
      { keyId := "keypair_" ++ d.keyId.toString, publicKey, privateKey := encrypted, algorithm,
        createdAt := d.createdAt, expiresAt } := by
    simp only [newKeyPair, hkeys, hencrypted, hexpires, Eff.ok_bind]
    rfl
  refine Routine.Meets.weaken (Routine.Meets.conclude (meets_storeKeyPair hown hnew) fun r s hs pair h => ?_)
    fun s hs => hs.1
  obtain ⟨rfl, hstored⟩ := hs pair h
  exact ⟨hstored, hnew⟩

/-- A key that is known to be in the table signs for itself. -/
theorem meets_signData_stored (hlaw : env.Lawful) {pair : KeyPair} {customerId : String} {checkNow usageNow : DateTime}
    {data : Bytes} :
    (signData env checkNow usageNow data pair.keyId).Meets (KeyStep env others) (KeyStep env own)
      (Stored env pair customerId) fun r s => ∀ signature, r = .ok signature → Stored env pair customerId s ∧
        verifyWithAlgorithm env pair.algorithm data signature pair.publicKey = .ok true := by
  refine Routine.Meets.weaken (Routine.Meets.conclude (Routine.Meets.frame (meets_signData hlaw)
    (stable_stored others pair customerId) (stable_stored own pair customerId)) ?_) fun s hs => ⟨hs.1, hs⟩
  intro r s hs signature h
  obtain ⟨found, hknows, hverifies⟩ := hs.1 signature h
  have hsame : some found = some pair := hknows.2.symm.trans hs.2.knows.2
  cases hsame
  exact ⟨hs.2, hverifies⟩

/-- An envelope that is signed verifies with the public key that is stored beside it, and the key stays in the
table. -/
theorem meets_signEnvelope (hlaw : env.Lawful) {d : KeyPairDraws} (hown : own d.keyId) {checkNow usageNow : DateTime}
    {envelopeBytes : Bytes} {customerId : String} :
    (signEnvelope env d checkNow usageNow envelopeBytes customerId).Meets (KeyStep env others) (KeyStep env own)
      (Ready env d.keyId) fun r s => ∀ keyPair signature, r = .ok (keyPair, signature) →
        newKeyPair env d "dilithium5" = .ok keyPair ∧ Stored env keyPair customerId s ∧
          verifyPersistedEnvelopeSignature env envelopeBytes signature keyPair.publicKey = .ok true := by
  refine Routine.meets_bind (meets_generateKeyPair hown) (fun keyPair => ?_) (fun _ _ _ _ _ h => by cases h)
  refine Routine.meets_fact (fun s hs => (hs keyPair rfl).2) fun hnew => ?_
  refine Routine.meets_bind ((meets_signData_stored hlaw).weaken fun s hs => (hs keyPair rfl).1) (fun signature => ?_)
    (fun _ _ _ _ _ h => by cases h)
  refine Routine.meets_pure fun s hs keyPair' signature' h => ?_
  cases h
  obtain ⟨hstored, hverifies⟩ := hs signature rfl
  rw [verifyWithAlgorithm, if_pos (newKeyPair_eq_ok hnew).2] at hverifies
  exact ⟨hnew, hstored, hverifies⟩

end

section

variable {env : ServerEnv} {others own : Uuid → Prop} {s : Broker}

/-- `CryptoVerify` answers `valid`, or that the key has expired. -/
def VerifiesAs (env : ServerEnv) (s : Broker) (req : Proto.CryptoVerifyRequest) (valid : Bool) : Prop :=
  ∃ pair, s.keyPair? (trim req.keyId) = some pair ∧ ∀ checkNow usageNow context,
    ((cryptoVerify env checkNow usageNow (some context) req).toEff s).1 =
      if isKeyExpired pair checkNow then .error (svcErr env (expiredKeyError env.toEnv (trim req.keyId) pair))
      else .ok { valid }

/-- `CryptoPubkey` answers with this key. -/
def PublishesAs (env : ServerEnv) (s : Broker) (keyId : String) (publicKey : Bytes) : Prop :=
  ∀ usageNow context, ((cryptoPubkey env usageNow (some context) { keyId }).toEff s).1 =
    .ok { keyId := trim keyId, publicKey }

theorem requiredText_eq_ok {value error text : String} (h : requiredText value error = .ok text) :
    text = trim value ∧ trim value ≠ "" := by
  simp only [requiredText, Eff.except_bind_eq_ok, Eff.rejectIf_eq_ok, pure, Except.pure, Except.ok.injEq] at h
  obtain ⟨-, hne, rfl⟩ := h
  exact ⟨rfl, hne⟩

theorem requiredText_of_ne {value error : String} (h : trim value ≠ "") : requiredText value error = .ok (trim value) := by
  rw [requiredText, Eff.rejectIf, if_neg h]
  rfl

theorem verifySignature_known {checkNow usageNow : DateTime} {data signature : Bytes} {keyId : String} {valid : Bool}
    {pair : KeyPair} (hkey : s.keyPair? keyId = some pair)
    (hverify : verifyWithAlgorithm env.toEnv pair.algorithm data signature pair.publicKey = .ok valid) :
    ((verifySignature env.toEnv checkNow usageNow data signature keyId).toEff s).1 =
      if isKeyExpired pair checkNow then .error (expiredKeyError env.toEnv keyId pair) else .ok valid := by
  simp only [verifySignature, Routine.toEff_holding, Routine.toEff_bind, Routine.toEff_look, Routine.toEff_lift,
    Routine.toEff_pure]
  rw [Eff.bind_of_ok (Eff.read_apply s), hkey, Eff.okOr_some, Eff.lift_ok_bind, Eff.rejectIf]
  split_ifs
  · rfl
  · rw [Eff.lift_ok_bind, hverify]
    cases valid with
    | true => rfl
    | false => rfl

theorem getPublicKey_known {usageNow : DateTime} {keyId : String} {pair : KeyPair} (hkey : s.keyPair? keyId = some pair) :
    ((getPublicKey usageNow keyId).toEff s).1 = .ok pair.publicKey := by
  simp only [getPublicKey, Routine.toEff_holding, Routine.toEff_bind, Routine.toEff_look, Routine.toEff_lift,
    Routine.toEff_pure]
  rw [Eff.bind_of_ok (Eff.read_apply s), hkey, Eff.okOr_some, Eff.lift_ok_bind]
  rfl

theorem verifiesAs_of_known {req : Proto.CryptoVerifyRequest} {valid : Bool} {pair : KeyPair}
    (hkey : s.keyPair? (trim req.keyId) = some pair) (hne : trim req.keyId ≠ "")
    (hverify : verifyWithAlgorithm env.toEnv pair.algorithm req.data req.signature pair.publicKey = .ok valid) :
    VerifiesAs env s req valid := by
  refine ⟨pair, hkey, fun checkNow usageNow context => ?_⟩
  simp only [cryptoVerify, Routine.toEff_bind, Routine.toEff_lift, Routine.toEff_mapError, Routine.toEff_pure,
    brokerContext, Eff.okOr_some, requiredText_of_ne hne, Eff.lift_ok_bind]
  rw [Eff.fst_mapError_bind_pure, verifySignature_known hkey hverify]
  split_ifs
  · rfl
  · rfl

theorem publishesAs_of_known {keyId : String} {pair : KeyPair} (hkey : s.keyPair? (trim keyId) = some pair)
    (hne : trim keyId ≠ "") : PublishesAs env s keyId pair.publicKey := by
  intro usageNow context
  simp only [cryptoPubkey, Routine.toEff_bind, Routine.toEff_lift, Routine.toEff_mapError, Routine.toEff_pure,
    brokerContext, Eff.okOr_some, requiredText_of_ne hne, Eff.lift_ok_bind]
  rw [Eff.fst_mapError_bind_pure, getPublicKey_known hkey]
  rfl

/-- What an answer says about the keys, read off a state in which it is still true. A key that was made is the one
of the draws, and it is in the tables. -/
def KeyCall.Holds (env : ServerEnv) (s : Broker) : KeyCall → KeyReply → Prop
  | .keygen d _ req, .key response => ∃ pair, newKeyPair env.toEnv d (trim req.algorithm) = .ok pair ∧
      response = ⟨pair.keyId, pair.publicKey, pair.algorithm⟩ ∧ s.StoresKey pair (defaultCustomerId req.customerId) ∧
      PublishesAs env s response.keyId response.publicKey
  | .sign _ _ _ req, .signature response => VerifiesAs env s ⟨req.keyId, req.data, response.signature⟩ true
  | .verify _ _ _ req, .verdict response => VerifiesAs env s req response.valid
  | .pubkey _ _ req, .publicKey response => PublishesAs env s req.keyId response.publicKey
  | .envelope d _ _ envelopeBytes customerId, .signedEnvelope keyPair signature =>
      newKeyPair env.toEnv d "dilithium5" = .ok keyPair ∧ s.StoresKey keyPair customerId ∧
        verifyPersistedEnvelopeSignature env.toEnv envelopeBytes signature keyPair.publicKey = .ok true
  | .health, .healthy => True
  | _, _ => False

/-- All keys were generated, and the id that the request draws is free. -/
def KeyCall.Starts (env : ServerEnv) (call : KeyCall) (s : Broker) : Prop :=
  s.AllGenerated env.toEnv ∧ ∀ id, call.draws = some id → s.keyPair? (keyIdOf id) = none

theorem trim_keyIdOf (id : Uuid) : trim (keyIdOf id) = keyIdOf id ∧ keyIdOf id ≠ "" := by
  have hchars : (keyIdOf id).toList = 'k' :: 'e' :: 'y' :: 'p' :: 'a' :: 'i' :: 'r' :: '_' :: id.toString.toList :=
    String.toList_append
  constructor
  · apply trim_of_trimmed
    apply trimmed_of_all
    have hall := Uuid.toString_all (P := fun c => isWhiteSpace c = false) (by decide) (by decide) id
    rw [hchars]
    simp only [List.forall_mem_cons]
    exact ⟨by decide, by decide, by decide, by decide, by decide, by decide, by decide, by decide, hall⟩
  · intro hempty
    rw [hempty] at hchars
    cases hchars

/-- A call that asks for a text, hands it to the key manager and passes the answer on. -/
theorem meets_call {γ α β : Type} {context : Except RpcError γ} {text : Except RpcError String}
    {m : String → Routine LockId Broker Failure α} {f : Failure → RpcError} {answer : String → α → β}
    {P : Broker → Prop} (Q : String → α → Broker → Prop) {R : β → Broker → Prop}
    (hm : ∀ t, (m t).Meets (KeyStep env.toEnv others) (KeyStep env.toEnv own) P fun r s => ∀ a, r = .ok a → Q t a s)
    (hR : ∀ t a s, text = .ok t → Q t a s → R (answer t a) s) :
    Routine.Meets (KeyStep env.toEnv others) (KeyStep env.toEnv own) (do
      let _ ← Routine.lift context
      let t ← Routine.lift text
      let a ← (m t).mapError f
      return answer t a) P fun r s => ∀ b, r = .ok b → R b s := by
  refine Routine.meets_check (fun _ _ => ?_) (fun _ _ _ _ h => by cases h)
  refine Routine.meets_check (fun t ht => ?_) (fun _ _ _ _ h => by cases h)
  refine Routine.meets_return (Q := Q t) (Routine.meets_mapError (hm t) fun r s hs a ha => ?_) fun a s => hR t a s ht
  exact hs a (Eff.except_mapError_eq_ok.mp ha)

theorem meets_cryptoKeygen {d : KeyPairDraws} (hown : own d.keyId) {context : Option BrokerClientContext}
    {req : Proto.CryptoKeygenRequest} :
    (cryptoKeygen env d context req).Meets (KeyStep env.toEnv others) (KeyStep env.toEnv own) (Ready env.toEnv d.keyId)
      fun r s => ∀ response, r = .ok response → (KeyCall.keygen d context req).Holds env s (.key response) := by
  refine meets_call (fun algorithm pair s => Stored env.toEnv pair (defaultCustomerId req.customerId) s ∧
    newKeyPair env.toEnv d algorithm = .ok pair) (fun _ => meets_generateKeyPair hown) ?_
  intro algorithm pair s halgorithm hs
  obtain ⟨hstored, hnew⟩ := hs
  obtain ⟨rfl, -⟩ := requiredText_eq_ok halgorithm
  refine ⟨pair, hnew, rfl, hstored.2, ?_⟩
  -- the id that is returned is free of white space, so it is found as it stands
  obtain ⟨htrim, hne⟩ := trim_keyIdOf d.keyId
  rw [← (newKeyPair_eq_ok hnew).1] at htrim hne
  refine publishesAs_of_known ?_ ?_
  · rw [htrim]
    exact hstored.knows.2
  · rw [htrim]
    exact hne

theorem meets_cryptoSign (hlaw : env.toEnv.Lawful) {checkNow usageNow : DateTime} {context : Option BrokerClientContext}
    {req : Proto.CryptoSignRequest} :
    (cryptoSign env checkNow usageNow context req).Meets (KeyStep env.toEnv others) (KeyStep env.toEnv own)
      (Broker.AllGenerated env.toEnv) fun r s => ∀ response, r = .ok response →
        VerifiesAs env s ⟨req.keyId, req.data, response.signature⟩ true := by
  refine meets_call (fun keyId signature s => ∃ pair, Knows env.toEnv keyId pair s ∧
    verifyWithAlgorithm env.toEnv pair.algorithm req.data signature pair.publicKey = .ok true)
    (fun _ => meets_signData hlaw) ?_
  intro keyId signature s hkeyId hs
  obtain ⟨pair, hknows, hverifies⟩ := hs
  obtain ⟨rfl, hne⟩ := requiredText_eq_ok hkeyId
  exact verifiesAs_of_known hknows.2 hne hverifies

theorem meets_cryptoVerify {checkNow usageNow : DateTime} {context : Option BrokerClientContext}
    {req : Proto.CryptoVerifyRequest} :
    (cryptoVerify env checkNow usageNow context req).Meets (KeyStep env.toEnv others) (KeyStep env.toEnv own)
      (Broker.AllGenerated env.toEnv) fun r s => ∀ response, r = .ok response → VerifiesAs env s req response.valid := by
  refine meets_call (fun keyId valid s => ∃ pair, Knows env.toEnv keyId pair s ∧
    verifyWithAlgorithm env.toEnv pair.algorithm req.data req.signature pair.publicKey = .ok valid)
    (fun _ => meets_verifySignature) ?_
  intro keyId valid s hkeyId hs
  obtain ⟨pair, hknows, hverifies⟩ := hs
  obtain ⟨rfl, hne⟩ := requiredText_eq_ok hkeyId
  exact verifiesAs_of_known hknows.2 hne hverifies

theorem meets_cryptoPubkey {usageNow : DateTime} {context : Option BrokerClientContext}
    {req : Proto.CryptoPubkeyRequest} :
    (cryptoPubkey env usageNow context req).Meets (KeyStep env.toEnv others) (KeyStep env.toEnv own)
      (Broker.AllGenerated env.toEnv) fun r s => ∀ response, r = .ok response →
        PublishesAs env s req.keyId response.publicKey := by
  refine meets_call (fun keyId publicKey s => ∃ pair, Knows env.toEnv keyId pair s ∧ pair.publicKey = publicKey)
    (fun _ => meets_getPublicKey) ?_
  intro keyId publicKey s hkeyId hs
  obtain ⟨pair, hknows, rfl⟩ := hs
  obtain ⟨rfl, hne⟩ := requiredText_eq_ok hkeyId
  exact publishesAs_of_known hknows.2 hne

/-- Every request keeps to its own id, and its answer holds. -/
theorem KeyCall.meets (hlaw : env.toEnv.Lawful) (call : KeyCall) (hown : ∀ id, call.draws = some id → own id) :
    (call.task env).Meets (KeyStep env.toEnv others) (KeyStep env.toEnv own) (call.Starts env)
      fun r s => ∀ reply, r = .ok reply → call.Holds env s reply := by
  cases call with
  | keygen d context req =>
      refine Routine.meets_return ((meets_cryptoKeygen (hown d.keyId rfl)).weaken ?_) fun _ _ h => h
      exact fun s hs => ⟨hs.1, hs.2 d.keyId rfl⟩
  | sign checkNow usageNow context req =>
      exact Routine.meets_return ((meets_cryptoSign hlaw).weaken fun s hs => hs.1) fun _ _ h => h
  | verify checkNow usageNow context req =>
      exact Routine.meets_return (meets_cryptoVerify.weaken fun s hs => hs.1) fun _ _ h => h
  | pubkey usageNow context req =>
      exact Routine.meets_return (meets_cryptoPubkey.weaken fun s hs => hs.1) fun _ _ h => h
  | envelope d checkNow usageNow envelopeBytes customerId =>
      refine Routine.meets_return (Q := fun signed s =>
        (KeyCall.envelope d checkNow usageNow envelopeBytes customerId).Holds env s (.signedEnvelope signed.1 signed.2))
        ?_ fun _ _ h => h
      refine Routine.meets_mapError ((meets_signEnvelope hlaw (hown d.keyId rfl)).weaken ?_) ?_
      · exact fun s hs => ⟨hs.1, hs.2 d.keyId rfl⟩
      · intro r s hs signed h
        obtain ⟨hnew, hstored, hverifies⟩ := hs signed.1 signed.2 (Eff.except_mapError_eq_ok.mp h)
        exact ⟨hnew, hstored.2, hverifies⟩
  | health =>
      have hcount : ∀ (P : Broker → Prop) (lock : LockId) (count : Broker → ℕ), Routine.Meets (KeyStep env.toEnv others)
          (KeyStep env.toEnv own) (Routine.holding lock .read do
            let s ← Routine.look
            return count s : Routine LockId Broker Failure ℕ) P fun _ _ => True := fun P lock count =>
        Routine.meets_holding (Routine.meets_bind (Q := fun _ _ => True) (Routine.meets_look fun _ _ _ _ _ => trivial)
          (fun _ => Routine.meets_pure fun _ _ => trivial) fun _ _ _ => trivial)
      refine Routine.meets_return (Q := fun _ _ => True)
        (Routine.meets_mapError (Q := fun _ _ => True) ?_ ?_) fun _ _ h => h
      · refine Routine.meets_bind (hcount _ _ _) (fun _ => ?_) fun _ _ _ => trivial
        exact Routine.meets_bind (hcount _ _ _) (fun _ => Routine.meets_pure fun _ _ => trivial) fun _ _ _ => trivial
      · exact fun _ _ _ _ _ => trivial

end

section

variable {κ : Type} [DecidableEq κ] {env : ServerEnv}

/-- **What an answer says about a key stays true**: while other requests go on, a key that was made stays in the
tables with the entry made for it, a public key is given out again, and until the key has expired a signature that
was returned verifies and a verdict is repeated. No two requests draw the same UUID, nor one that a key has. -/
theorem answers_stay_true (hlaw : env.toEnv.Lawful) {calls : κ → KeyCall}
    (hdraws : ∀ j k id, (calls j).draws = some id → (calls k).draws = some id → j = k) {s : Broker}
    (hs : ∀ k, (calls k).Starts env s) {c : System κ LockId Broker (Except RpcError KeyReply)}
    (hsteps : System.Steps (startCalls env s calls) c) {k : κ} {reply : KeyReply}
    (hreply : (c.worker k).task = .ret (.ok reply)) : (calls k).Holds env c.shared reply := by
  let others : κ → Uuid → Prop := fun k id => ∃ j ≠ k, (calls j).draws = some id
  let own : κ → Uuid → Prop := fun k id => (calls k).draws = some id
  have hagree : ∀ j k, j ≠ k → ∀ s t, KeyStep env.toEnv (own j) s t → KeyStep env.toEnv (others k) s t :=
    fun j k hne s t hstep => hstep.mono fun id hid => ⟨j, hne, hid⟩
  have hstable : ∀ k, Stable (KeyStep env.toEnv (others k)) ((calls k).Starts env) := by
    intro k s t hs hstep
    refine ⟨hstep.allGenerated hs.1, fun id hid => hstep.unused ?_ (hs.2 id hid)⟩
    rintro ⟨j, hne, hj⟩
    exact hne (hdraws j k id hj hid)
  have hstart : ∀ k, ∃ P, Stable (KeyStep env.toEnv (others k)) P ∧ P s ∧
      Task.Meets (KeyStep env.toEnv (others k)) (KeyStep env.toEnv (own k))
        (fun r s => ∀ reply, r = .ok reply → (calls k).Holds env s reply) ((calls k).task env) P :=
    fun k => ⟨_, hstable k, hs k, (calls k).meets hlaw fun id hid => hid⟩
  exact hsteps.returned_meets hagree hstart hreply reply rfl

end

theorem plainKeyCalls_start (k : Bool) : (plainKeyCalls k).Starts plainServer Broker.empty :=
  ⟨fun _ _ h => (by cases h), fun _ _ => rfl⟩

/-- The key is made first, and then it is asked for its signature. -/
theorem plainKey_made : ∃ c response, System.Steps (startCalls plainServer Broker.empty plainKeyCalls) c ∧
    (c.worker true).task = .ret (.ok (.key response)) ∧ (c.worker false).Returned := by
  obtain ⟨pair, s₁, hpair, -⟩ := plain_generateKeyPair plainKeyDraws "customer" (s := Broker.empty) (by decide)
  have hmade : (cryptoKeygen plainServer plainKeyDraws (some plainContext) ⟨"dilithium5", "customer"⟩).toEff
      Broker.empty = (.ok ⟨pair.keyId, pair.publicKey, pair.algorithm⟩, s₁) := by
    have halgorithm : requiredText "dilithium5" "algorithm is required" = .ok "dilithium5" := by decide
    have hcustomer : defaultCustomerId "customer" = "customer" := by decide
    simp only [cryptoKeygen, Routine.toEff_bind, Routine.toEff_lift, Routine.toEff_mapError, Routine.toEff_pure,
      toEff_generateKeyPair, brokerContext, Eff.okOr_some, halgorithm, hcustomer, Eff.lift_ok_bind]
    exact Eff.bind_of_ok (Eff.mapError_of_ok hpair)
  have hanswer : ((plainKeyCalls true).task plainServer).toEff Broker.empty =
      (.ok (.key ⟨pair.keyId, pair.publicKey, pair.algorithm⟩), s₁) := by
    rw [plainKeyCalls, KeyCall.task, Routine.toEff_bind]
    exact Eff.bind_of_ok hmade
  have hfirst := startCalls_alone plainServer plainKeyCalls Broker.empty true
  rw [hanswer] at hfirst
  have hsecond := System.steps_alone (k := false) (t := (plainKeyCalls false).task plainServer)
    (c := ⟨s₁, Function.update (startCalls plainServer Broker.empty plainKeyCalls).worker true
      ⟨[], .ret (.ok (.key ⟨pair.keyId, pair.publicKey, pair.algorithm⟩))⟩, fun _ => []⟩) (fun _ => rfl)
    (fun j hj => by cases j with | false => exact absurd rfl hj | true => rfl) rfl
    ((plainKeyCalls false).climbs plainServer)
  exact ⟨_, _, hfirst.trans hsecond, rfl, _, rfl⟩

theorem answers_stay_true_plain : ∃ c response,
    System.Steps (startCalls plainServer Broker.empty plainKeyCalls) c ∧
      (c.worker true).task = .ret (.ok (.key response)) ∧ (c.worker false).Returned ∧
      (plainKeyCalls true).Holds plainServer c.shared (.key response) := by
  obtain ⟨c, response, hsteps, hreply, hother⟩ := plainKey_made
  refine ⟨c, response, hsteps, hreply, hother,
    answers_stay_true plainEnv_lawful ?_ plainKeyCalls_start hsteps hreply⟩
  intro j k id hj hk
  cases j with
  | false => cases hj
  | true =>
      cases k with
      | false => cases hk
      | true => rfl

end KeyManager

end SecretBroker
