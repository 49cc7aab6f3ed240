import SecretBroker.CompletenessCustody
import SecretBroker.CompletenessWire
import SecretBroker.SecurityRefusal

/-! Requests that create a handle and end with an error. The record is stored in the middle of a mint or a rotation, and
what fails after that leaves it behind: a check of a mint that comes too late, or a later write of a rotation. -/

open Wire Register

namespace SecretBroker

variable {env : Env}

/-- The sealed store is as it was. -/
def SameRecords (s s' : Broker) : Prop := s'.records = s.records

theorem KeyChanges.sameRecords {scope : Scope} {s s' : Broker} (h : KeyChanges scope s s') : SameRecords s s' := by
  induction h with
  | refl => rfl
  | tail _ hstep ih => cases hstep <;> exact ih

/-- The keys that sealing a secret makes. -/
def sealScope (d : PersistDraws) (input : PersistSecretV2Input) : Scope :=
  ⟨d.uuids, [(d.keyPair.keyId, input.customerId)], [], []⟩

/-- Sealing writes the record in its last step. -/
theorem persist_spares {d : PersistDraws} (hdisk : d.insertDisk.Atomic) {context : BrokerClientContext}
    {input : PersistSecretV2Input} {s s' : Broker} {e : Failure}
    (h : persistSecretV2WithLifecycle env d context input s = (.error e, s')) : SameRecords s s' := by
  have hkeys : ∀ {s s'}, KeyChanges (sealScope d input) s s' → Framed env.serde d.uuids (fun _ _ => True) s s' := fun h =>
    framed_of_steps (fun _ _ _ _ _ => trivial) (fun _ _ _ _ _ => trivial) h.stored.steps
  have hacts : Eff.Acts d.insertDisk.Atomic (KeyChanges (sealScope d input)) (Framed env.serde d.uuids fun _ _ => True)
      (persistSecretV2WithLifecycle env d context input) s :=
    persist_acts env (List.Subset.refl d.uuids) List.mem_cons_self hkeys
      (fun _ _ _ _ _ _ _ => framed_putRecord (fun hold => absurd List.mem_cons_self hold) fun _ _ _ => trivial) s
  exact (hacts.spares hdisk e s' h).sameRecords

/-- What sealing has stored, and what it returns for the redeem material. -/
theorem persist_stored {d : PersistDraws} {context : BrokerClientContext} {input : PersistSecretV2Input}
    {outcome : StoredSecretOutcome} {s s' : Broker}
    (h : persistSecretV2WithLifecycle env d context input s = (.ok outcome, s')) :
    ∃ (r : StoredEnvelopeRecord) (token : Block 32), s'.records = Function.update s.records d.handleId (some r) ∧
      r.threshold = none ∧ r.revoked = false ∧ outcome.handleId = d.handleId ∧
      outcome.redeemToken = Base64.standard.encode token.val := by
  obtain ⟨redeemExpiresAt, encryption, keyPair, signature, leaseExpiresAt, s₁, s₂, s₃, hencrypt,
    hkeyPair, hsign, rfl, rfl⟩ :=
    persist_eq_ok env h
  have hrecords : s₃.records = s.records := by
    have hdrawn : d.envelopeKeyId ∈ (sealScope d input).uuids := by simp [sealScope, PersistDraws.uuids]
    have hfirst := encryptPqc_steps env d.encryption input.plaintext hdrawn s
    have hsecond : KeyChanges (sealScope d input) _ _ := generateKeyPair_steps env List.mem_cons_self "dilithium5" s₁
    have hthird : KeyChanges (sealScope d input) _ _ := signData_steps env d.signCheckNow d.signUsageNow
      (env.serde.envelopeToVec (newEnvelope d context input encryption)) keyPair.keyId s₂
    rw [hencrypt] at hfirst
    rw [hkeyPair] at hsecond
    rw [hsign] at hthird
    exact KeyChanges.sameRecords (hfirst.trans (hsecond.trans hthird))
  exact ⟨_, _, by rw [Broker.putRecord, hrecords], rfl, rfl, rfl, rfl⟩

/-- The crypto engine does what sealing asks of it. -/
def CryptoSucceeds (env : Env) (d : PersistDraws) (context : BrokerClientContext) (input : PersistSecretV2Input)
    (s : Broker) : Prop :=
  ∃ (encryption : EncryptionResult) (keyPair : KeyPair) (signature : Bytes) (s₁ s₂ s₃ : Broker),
    encryptPqc env d.encryption input.plaintext d.envelopeKeyId.toString s = (.ok encryption, s₁) ∧
    generateKeyPair env d.keyPair "dilithium5" input.customerId s₁ = (.ok keyPair, s₂) ∧
    signData env d.signCheckNow d.signUsageNow (env.serde.envelopeToVec (newEnvelope d context input encryption))
      keyPair.keyId s₂ = (.ok signature, s₃)

/-- Nothing stops the sealing of a secret. -/
structure Seals (env : Env) (d : PersistDraws) (context : BrokerClientContext) (input : PersistSecretV2Input)
    (s : Broker) : Prop where
  redeemExpiry : ∃ t, input.createdAt.addSeconds env.broker.redeemTokenTtl = some t
  crypto : CryptoSucceeds env d context input s
  lease : ∃ t, initialLease input.createdAt input.initialLeaseSeconds = some t
  insert : d.insertDisk = .ok

theorem seals_iff {d : PersistDraws} {context : BrokerClientContext} {input : PersistSecretV2Input} {s : Broker} :
    Seals env d context input s ↔ ∃ outcome s', persistSecretV2WithLifecycle env d context input s =
      (.ok outcome, s') := by
  simp only [persistSecretV2WithLifecycle, Eff.bind_eq_ok, checkTime_eq_ok, Eff.mapError_eq_ok, perform_eq_ok,
    Eff.pure_eq_ok]
  constructor
  · rintro ⟨⟨t, ht⟩, ⟨encryption, keyPair, signature, s₁, s₂, s₃, hencrypt, hkeyPair, hsign⟩, ⟨lease, hlease⟩, hinsert⟩
    exact ⟨_, _, t, s, ⟨ht, rfl⟩, encryption, s₁, hencrypt, keyPair, s₂, hkeyPair, signature, s₃, hsign, lease, s₃,
      ⟨hlease, rfl⟩, (), _, ⟨hinsert, rfl, rfl⟩, rfl, rfl⟩
  · rintro ⟨_, _, t, _, ⟨ht, rfl⟩, encryption, s₁, hencrypt, keyPair, s₂, hkeyPair, signature, s₃, hsign, lease, _,
      ⟨hlease, rfl⟩, _, _, ⟨hinsert, -, -⟩, -, -⟩
    exact ⟨⟨t, ht⟩, ⟨encryption, keyPair, signature, s₁, s₂, _, hencrypt, hkeyPair, hsign⟩, ⟨lease, hlease⟩, hinsert⟩

namespace MintV2Request

/-- The checks that a mint makes before it stores the record, with the times it computes until then. -/
structure Admitted (env : Env) (createdAt : DateTime) (context : BrokerClientContext)
    (request : MintV2Request) : Prop where
  ttl : ∃ times, enforceTtl env request.ttlSeconds createdAt = .ok times
  threshold : ¬ (request.threshold.getD 1 < 1 ∨ request.threshold.getD 1 > request.numShares.getD 1)
  principal : ∃ p, v2UnwrapPrincipal context request.lifecycle request.unwrapPrincipalId = .ok p
  redeemExpiry : ∃ t, createdAt.addSeconds env.broker.redeemTokenTtl = some t
  lease : ∃ t, initialLease createdAt request.initialLeaseSeconds = some t

/-- The shares go to custodians, and there are not as many custodians as shares. -/
def MiscountsCustodians (request : MintV2Request) : Prop :=
  request.threshold.getD 1 > 1 ∧ request.custodianIds ≠ [] ∧
    request.custodianIds.length ≠ (request.numShares.getD 1).toNat

end MintV2Request

variable (env) in
/-- The redeem material of a sealed secret is made if its writes succeed. -/
theorem mintRedeemMaterial_ends {d : MintDraws} (custodianIds : List String) {threshold numShares : UInt8}
    (hbounds : ¬ (threshold < 1 ∨ threshold > numShares)) (hthreshold : d.thresholdDisk = .ok)
    (hassignments : d.assignmentsDisk = .ok) {outcome : StoredSecretOutcome} {token : Block 32}
    (htoken : outcome.redeemToken = Base64.standard.encode token.val) {s : Broker} {r : StoredEnvelopeRecord}
    (hr : s.records outcome.handleId = some r) :
    ∃ material s', mintRedeemMaterial env d custodianIds threshold numShares outcome s = (.ok material, s') := by
  obtain ⟨hlow, hhigh⟩ := not_or.mp hbounds
  by_cases hmany : threshold > 1
  · by_cases hcustodians : custodianIds = []
    · obtain ⟨split, hsplit⟩ := splitRedeemToken_of_le env d.coefficients token (UInt8.not_lt.mp hlow)
        (UInt8.not_lt.mp hhigh)
      simp only [mintRedeemMaterial, if_pos hmany, hcustodians, ne_eq, not_true_eq_false, if_false, htoken, hsplit,
        Eff.bind_eq_ok, Eff.lift_eq_ok, Eff.mapError_eq_ok, perform_eq_ok, Eff.pure_eq_ok]
      refine ⟨_, _, split, s, ⟨rfl, rfl⟩, (), _, ⟨hthreshold, ?_, rfl⟩, rfl, rfl⟩
      rw [hr]
      rfl
    · exact ⟨"", mintRedeemMaterial_ok hmany (UInt8.not_lt.mp hhigh) hcustodians hthreshold hassignments htoken hr⟩
  · exact ⟨outcome.redeemToken, s, by rw [mintRedeemMaterial, if_neg hmany]; rfl⟩

/-- A check that fails leaves the state. -/
theorem check_eq_error {α : Type} {x : Except ServiceError α} {e : Failure} {s s' : Broker} :
    check x s = (.error e, s') ↔ x.mapError .service = .error e ∧ s' = s := Eff.lift_eq_error

theorem mapError_rejectIf_eq_error {c : Prop} [Decidable c] {err : ServiceError} {e : Failure} :
    (Eff.rejectIf c err).mapError Failure.service = .error e ↔ c ∧ e = .service err := by
  by_cases hc : c
  · simp [Eff.rejectIf, hc, Except.mapError, eq_comm]
  · simp [Eff.rejectIf, hc, Except.mapError]

/-- A mint that fails has stored nothing, unless it has found the custodians miscounted. -/
theorem mint_eq_error {d : MintDraws} {context : BrokerClientContext} {request : MintV2Request} {s s' : Broker}
    {e : Failure} (hdisks : ∀ disk ∈ (Call.mint d context request).disks, disk = .ok)
    (h : mintAeadKeyV2Impl env d context request s = (.error e, s')) :
    SameRecords s s' ∨ request.Admitted env d.createdAt context ∧ request.MiscountsCustodians := by
  simp only [Call.disks, List.forall_mem_cons] at hdisks
  obtain ⟨hinsert, hthreshold, hassignments, -⟩ := hdisks
  simp only [mintAeadKeyV2Impl, Eff.bind_eq_error, Eff.lift_eq_error, Eff.lift_eq_ok, check_eq_error, check_eq_ok,
    mapError_rejectIf_eq_error, Eff.rejectIf_eq_ok, recordTransparency, Eff.modify_apply, Eff.pure_apply, Prod.mk.injEq,
    reduceCtorEq, false_and, and_false, exists_false, or_false] at h
  rcases h with ⟨-, rfl⟩ | ⟨times, _, ⟨httl, rfl⟩, ⟨-, rfl⟩ | ⟨_, _, ⟨hbounds, rfl⟩, ⟨-, rfl⟩ |
    ⟨unwrapPrincipalId, _, ⟨hprincipal, rfl⟩, hpersist | ⟨outcome, s₁, hpersist, hrest⟩⟩⟩⟩
  · exact Or.inl rfl
  · exact Or.inl rfl
  · exact Or.inl rfl
  · exact Or.inl (persist_spares (by rw [hinsert]; trivial) hpersist)
  -- the record is stored from here on
  have hseals := seals_iff.mpr ⟨outcome, s₁, hpersist⟩
  obtain ⟨⟨hcount, -⟩, -⟩ | ⟨_, t, ⟨-, ht⟩, hmaterial⟩ := hrest
  · exact Or.inr ⟨⟨⟨_, httl⟩, hbounds, ⟨_, hprincipal⟩, hseals.redeemExpiry, hseals.lease⟩, hcount⟩
  · obtain ⟨r, token, hrecords, -, -, hid, htoken⟩ := persist_stored hpersist
    have hr : s₁.records outcome.handleId = some r := by rw [hrecords, hid, Function.update_self]
    obtain ⟨material, s₂, hends⟩ :=
      mintRedeemMaterial_ends env request.custodianIds hbounds hthreshold hassignments htoken hr
    rw [ht, hends] at hmaterial
    cases hmaterial

/-- A mint that finds the custodians miscounted has already stored the record. -/
theorem mint_leaves_record {d : MintDraws} {context : BrokerClientContext} {request : MintV2Request} {s : Broker}
    (hinsert : d.persist.insertDisk = .ok) (hadmitted : request.Admitted env d.createdAt context)
    (hcrypto : ∀ expiresAt ttl p, CryptoSucceeds env d.persist context (mintInput env d request expiresAt ttl p) s)
    (hcount : request.MiscountsCustodians) :
    ∃ s' r, mintAeadKeyV2Impl env d context request s = (.error (.service .invalidTtl), s') ∧
      s'.records = Function.update s.records d.persist.handleId (some r) := by
  obtain ⟨⟨⟨expiresAt, ttl⟩, httl⟩, hbounds, ⟨p, hprincipal⟩, hredeem, hlease⟩ := hadmitted
  have hseals : Seals env d.persist context (mintInput env d request expiresAt ttl p) s :=
    ⟨hredeem, hcrypto expiresAt ttl p, hlease, hinsert⟩
  obtain ⟨outcome, s₁, hpersist⟩ := seals_iff.mp hseals
  obtain ⟨r, -, hrecords, -⟩ := persist_stored hpersist
  refine ⟨s₁, r, ?_, hrecords⟩
  simp only [mintAeadKeyV2Impl, Eff.bind_eq_error, Eff.lift_eq_ok, check_eq_error, check_eq_ok,
    mapError_rejectIf_eq_error, Eff.rejectIf_eq_ok]
  exact Or.inr ⟨_, s, ⟨httl, rfl⟩,
    Or.inr ⟨(), s, ⟨hbounds, rfl⟩, Or.inr ⟨p, s, ⟨hprincipal, rfl⟩, Or.inr ⟨outcome, s₁, hpersist,
    Or.inl ⟨⟨hcount, trivial⟩, rfl⟩⟩⟩⟩⟩

theorem plain_crypto (custodianIds : List String) (threshold : Option UInt8) (expiresAt : Option DateTime)
    (ttl : Option UInt64) (p : Option String) : CryptoSucceeds plainEnv plainMintDraws.persist plainContext
      (mintInput plainEnv plainMintDraws
        { plainMintRequest custodianIds with threshold } expiresAt ttl p) Broker.empty := by
  have hlimit : customerKeyCount Broker.empty.keyMetadata "customer" < 100 := by decide
  obtain ⟨outcome, r, s', hpersist, -⟩ := plain_persist (.filled 1) (.filled 2) (.filled 3) plainContext
    (mintInput plainEnv plainMintDraws { plainMintRequest custodianIds with threshold } expiresAt ttl p) hlimit rfl rfl
  exact (seals_iff.mpr ⟨outcome, s', hpersist⟩).crypto

/-- **A refused mint leaves nothing behind unless it counts the custodians.** With a disk and a crypto engine that work and
a fresh handle, the store is as it was after every mint that fails, exactly if the mint does not get past its first checks
with a number of custodians that is not that of the shares. -/
theorem refused_mint_leaves_nothing_iff {d : MintDraws} {context : BrokerClientContext} {request : MintV2Request}
    {s : Broker} (hdisks : ∀ disk ∈ (Call.mint d context request).disks, disk = .ok)
    (hcrypto : ∀ expiresAt ttl p, CryptoSucceeds env d.persist context (mintInput env d request expiresAt ttl p) s)
    (hfresh : s.records d.persist.handleId = none) :
    (∀ e s', mintAeadKeyV2Impl env d context request s = (.error e, s') → s'.records = s.records) ↔
      ¬ (request.Admitted env d.createdAt context ∧ request.MiscountsCustodians) := by
  constructor
  · rintro hrefused ⟨hadmitted, hcount⟩
    have hinsert : d.persist.insertDisk = .ok := hdisks _ (by simp [Call.disks])
    obtain ⟨s', r, hfail, hrecords⟩ := mint_leaves_record hinsert hadmitted hcrypto hcount
    have hsame := congrFun (hrefused _ _ hfail) d.persist.handleId
    rw [hrecords, Function.update_self, hfresh] at hsame
    cases hsame
  · intro hrefused e s' hfail
    exact (mint_eq_error hdisks hfail).resolve_right hrefused

/-- Three of two shares, and only one custodian for them: the request is refused before anything is stored. -/
theorem refused_mint_leaves_nothing_iff_three_of_two : ∃ e s',
    mintAeadKeyV2Impl plainEnv plainMintDraws plainContext { plainMintRequest ["alice"] with threshold := some 3 }
      Broker.empty = (.error e, s') ∧ s'.records = Broker.empty.records := by
  have hfail : mintAeadKeyV2Impl plainEnv plainMintDraws plainContext
    { plainMintRequest ["alice"] with threshold := some 3 }
      Broker.empty = (.error (.service .invalidTtl), Broker.empty) := rfl
  refine ⟨_, _, hfail, ?_⟩
  refine (refused_mint_leaves_nothing_iff (by simp [Call.disks, plainMintDraws, plainDraws])
    (plain_crypto ["alice"] (some 3)) rfl).mpr ?_ _ _ hfail
  rintro ⟨⟨-, hbounds, -⟩, -⟩
  exact hbounds (Or.inr (by decide))

/-- One custodian for two shares: the request is refused, and the record that it has made stays. -/
theorem refused_mint_leaves_record : ∃ s' r,
    mintAeadKeyV2Impl plainEnv plainMintDraws plainContext (plainMintRequest ["alice"]) Broker.empty =
      (.error (.service .invalidTtl), s') ∧
    Broker.empty.records (.filled 1) = none ∧ s'.records (.filled 1) = some r := by
  have hadmitted : (plainMintRequest ["alice"]).Admitted plainEnv plainMintDraws.createdAt plainContext :=
    ⟨⟨_, rfl⟩, by decide, ⟨_, plain_unwrapPrincipal .serviceBootstrap⟩, ⟨_, rfl⟩, ⟨_, rfl⟩⟩
  have hcount : (plainMintRequest ["alice"]).MiscountsCustodians := ⟨by decide, List.cons_ne_nil _ _, by decide⟩
  obtain ⟨s', r, hfail, hrecords⟩ := mint_leaves_record rfl hadmitted (plain_crypto ["alice"] (some 2)) hcount
  refine ⟨s', r, hfail, rfl, ?_⟩
  rw [hrecords]
  exact Function.update_self _ _ _

/-! ### Rotating -/

namespace RotateSecretRequest

/-- The threshold of the replacement; without one it is redeemed by the token itself. -/
def effectiveThreshold (payload : RotateSecretRequest) : UInt8 := max (payload.threshold.getD 1) 1

/-- The number of its shares. -/
def effectiveShares (payload : RotateSecretRequest) : UInt8 := max (payload.numShares.getD 1) payload.effectiveThreshold

/-- The rotation gets as far as to store the replacement: the old record is found and the caller may manage it, and
nothing stops the sealing of the new secret. -/
def Admitted (env : Env) (d : RotateDraws) (context : BrokerClientContext) (payload : RotateSecretRequest) (s : Broker) :
    Prop :=
  ∃ (oldId : Uuid) (r : StoredEnvelopeRecord) (expiresAt : Option DateTime) (ttl : Option UInt64) (p : Option String),
    parseHandleIdentifier env payload.oldHandle = .ok oldId ∧ d.load.disk = .ok ∧ s.records oldId = some r ∧
    validateV2RecordManagementRequirements (accessed env d.load r) context = .ok () ∧
    enforceTtl env payload.ttlSeconds d.createdAt = .ok (expiresAt, ttl) ∧
    v2UnwrapPrincipal context payload.lifecycle none = .ok p ∧
    Seals env d.persist context (rotateInput env d payload expiresAt p) (s.putRecord oldId (some (accessed env d.load r)))

/-- The writes after that succeed: of the threshold, if there is one, and of the revocation. -/
def LateWritesSucceed (d : RotateDraws) (payload : RotateSecretRequest) : Prop :=
  (payload.effectiveThreshold > 1 → d.thresholdDisk = .ok) ∧ d.revokeDisk = .ok

end RotateSecretRequest

theorem toNat_max (a b : UInt8) : (max a b).toNat = max a.toNat b.toNat := by
  have hmax : max a b = if a ≤ b then b else a := rfl
  rw [hmax]
  split_ifs with h
  · rw [max_eq_right (UInt8.le_iff_toNat_le.mp h)]
  · rw [UInt8.le_iff_toNat_le] at h
    rw [max_eq_left (by omega)]

theorem one_le_effectiveThreshold (payload : RotateSecretRequest) : 1 ≤ payload.effectiveThreshold := by
  rw [UInt8.le_iff_toNat_le, RotateSecretRequest.effectiveThreshold, toNat_max]
  exact le_max_right _ _

theorem effectiveThreshold_le (payload : RotateSecretRequest) : payload.effectiveThreshold ≤ payload.effectiveShares := by
  rw [UInt8.le_iff_toNat_le, RotateSecretRequest.effectiveShares, toNat_max]
  exact le_max_right _ _

/-- What the redeem material of a rotated secret adds to its record. -/
structure RotatedMaterial (env : Env) (d : RotateDraws) (threshold numShares : UInt8) (r r' : StoredEnvelopeRecord)
    (shares : List Threshold.Share) : Prop where
  stored : r'.threshold = if threshold > 1 then some threshold else r.threshold
  revoked : r'.revoked = r.revoked
  split : threshold > 1 → ∃ (token : Block 32) (split : Threshold.SplitResult),
    Threshold.split env.curve token threshold numShares (fun i => d.coefficients i) = .ok split ∧
      r'.thresholdCommitments = some (encodedCommitments split) ∧ shares = split.shares
  single : ¬ threshold > 1 → shares = []

variable {d : RotateDraws} {context : BrokerClientContext} {payload : RotateSecretRequest} {s s' : Broker}

theorem rotateRedeemMaterial_eq_ok {threshold numShares : UInt8} {outcome : StoredSecretOutcome} {token : Block 32}
    (htoken : outcome.redeemToken = Base64.standard.encode token.val) {r : StoredEnvelopeRecord}
    (hr : s.records outcome.handleId = some r) {material : String × List Threshold.Share}
    (h : rotateRedeemMaterial env d threshold numShares outcome s = (.ok material, s')) :
    ∃ r', RotatedMaterial env d threshold numShares r r' material.2 ∧
      s'.records = Function.update s.records outcome.handleId (some r') := by
  by_cases hmany : threshold > 1
  · simp only [rotateRedeemMaterial, if_pos hmany, htoken, Eff.bind_eq_ok, Eff.lift_eq_ok, Eff.mapError_eq_ok,
      perform_eq_ok, Eff.pure_eq_ok] at h
    obtain ⟨split, _, ⟨hsplit, rfl⟩, _, _, ⟨-, -, rfl⟩, rfl, rfl⟩ := h
    refine ⟨{ env.serde.reload r with
      threshold := some threshold, thresholdCommitments := some (encodedCommitments split) },
      ⟨by rw [if_pos hmany], rfl, fun _ => ⟨token, split, splitRedeemToken_eq_ok hsplit, rfl, rfl⟩,
        fun hsingle => absurd hmany hsingle⟩, ?_⟩
    rw [Broker.putRecord, hr]
    rfl
  · rw [rotateRedeemMaterial, if_neg hmany, Eff.pure_eq_ok] at h
    obtain ⟨rfl, rfl⟩ := h
    refine ⟨r, ⟨by rw [if_neg hmany], rfl, fun hmany' => absurd hmany' hmany, fun _ => rfl⟩, ?_⟩
    rw [← hr, Function.update_eq_self]

/-- The material is made exactly if its write succeeds. -/
theorem rotateRedeemMaterial_ends {threshold numShares : UInt8} (hone : 1 ≤ threshold) (hle : threshold ≤ numShares)
    {outcome : StoredSecretOutcome} {token : Block 32} (htoken : outcome.redeemToken = Base64.standard.encode token.val)
    {r : StoredEnvelopeRecord} (hr : s.records outcome.handleId = some r) :
    (∃ material s', rotateRedeemMaterial env d threshold numShares outcome s = (.ok material, s')) ↔
      (threshold > 1 → d.thresholdDisk = .ok) := by
  by_cases hmany : threshold > 1
  · obtain ⟨split, hsplit⟩ := splitRedeemToken_of_le env d.coefficients token hone hle
    simp only [rotateRedeemMaterial, if_pos hmany, htoken, hsplit, Eff.bind_eq_ok, Eff.lift_eq_ok, Eff.mapError_eq_ok,
      perform_eq_ok, Eff.pure_eq_ok]
    constructor
    · rintro ⟨_, _, _, _, -, _, _, ⟨hdisk, -⟩, -⟩ -
      exact hdisk
    · intro hdisk
      refine ⟨_, _, split, s, ⟨rfl, rfl⟩, (), _, ⟨hdisk hmany, ?_, rfl⟩, rfl, rfl⟩
      rw [hr]
      rfl
  · refine iff_of_true ?_ fun hmany' => absurd hmany' hmany
    rw [rotateRedeemMaterial, if_neg hmany]
    exact ⟨_, _, rfl⟩

/-- The last write of a rotation. -/
def revokeOld (env : Env) (d : RotateDraws) (payload : RotateSecretRequest) (oldId : Uuid) : Eff Broker Failure Bool :=
  Eff.mapError .asStorage (perform d.revokeDisk oldId
    (SealedStore.revoke env.serde (some (payload.rotationReason.getD "rotated to replacement capability")) d.revokeNow))

theorem revokeOld_acts (oldId : Uuid) (s : Broker) :
    Eff.Acts d.revokeDisk.Atomic Eq (StoreSteps env (.drawing [])) (revokeOld env d payload oldId) s :=
  perform_acts (revoke_clean _ _ _) (steps_of_within (SealedStore.revoke_steps env.serde _ _) oldId s) _

theorem revokeOld_ends (hdisk : d.revokeDisk = .ok) (oldId : Uuid) (s : Broker) :
    ∃ revoked s', revokeOld env d payload oldId s = (.ok revoked, s') := by
  simp only [revokeOld, Eff.mapError_eq_ok, perform_eq_ok]
  cases hr : s.records oldId with
  | none => exact ⟨false, _, hdisk, rfl, rfl⟩
  | some r => exact ⟨true, _, hdisk, rfl, rfl⟩

/-- How a rotation ends that has stored the replacement: it fails where one of the later writes does, and only there. -/
structure Finishes (env : Env) (d : RotateDraws) (payload : RotateSecretRequest) (oldId : Uuid)
    (outcome : StoredSecretOutcome) (s : Broker) (result : Except Failure RotateSecretResponse × Broker) : Prop where
  thresholdFails : ∀ e s',
    rotateRedeemMaterial env d payload.effectiveThreshold payload.effectiveShares outcome s = (.error e, s') →
      result = (.error e, s')
  revocationFails : ∀ material s₁ e s',
    rotateRedeemMaterial env d payload.effectiveThreshold payload.effectiveShares outcome s = (.ok material, s₁) →
      revokeOld env d payload oldId s₁ = (.error e, s') → result = (.error e, s')
  succeeds : ∀ material s₁ revoked s₂,
    rotateRedeemMaterial env d payload.effectiveThreshold payload.effectiveShares outcome s = (.ok material, s₁) →
      revokeOld env d payload oldId s₁ = (.ok revoked, s₂) → ∃ response s', result = (.ok response, s')

theorem RotateSecretRequest.Admitted.finishes (h : payload.Admitted env d context s) :
    ∃ oldId outcome s₂ stored, ∃ token : Block 32,
      Finishes env d payload oldId outcome s₂ (rotateSecretImpl env d context payload s) ∧
      outcome.handleId = d.persist.handleId ∧ outcome.redeemToken = Base64.standard.encode token.val ∧
      s₂.records outcome.handleId = some stored := by
  obtain ⟨oldId, r, expiresAt, ttl, p, hparse, hdisk, hr, hmanaged, httl, hprincipal, hseals⟩ := h
  have hload := (loadRecord_eq_ok env).mpr ⟨hdisk, r, hr, rfl, rfl⟩
  have hbounds : Eff.rejectIf (payload.effectiveThreshold > payload.effectiveShares) ServiceError.invalidTtl = .ok () :=
    Eff.rejectIf_eq_ok.mpr (UInt8.not_lt.mpr (effectiveThreshold_le payload))
  obtain ⟨outcome, s₂, hpersist⟩ := seals_iff.mp hseals
  obtain ⟨stored, token, hrecords, -, -, hid, htoken⟩ := persist_stored hpersist
  refine ⟨oldId, outcome, s₂, stored, token, ?_, hid, htoken, by rw [hrecords, hid, Function.update_self]⟩
  have hstored : rotateSecretImpl env d context payload s = _ :=
    (Eff.bind_of_ok (check_eq_ok.mpr ⟨hparse, rfl⟩)).trans <| (Eff.bind_of_ok hload).trans <|
      (Eff.bind_of_ok (check_eq_ok.mpr ⟨hmanaged, rfl⟩)).trans <|
        (Eff.bind_of_ok (Eff.lift_eq_ok.mpr ⟨httl, rfl⟩)).trans <|
      (Eff.bind_of_ok (check_eq_ok.mpr ⟨hbounds, rfl⟩)).trans <|
        (Eff.bind_of_ok (check_eq_ok.mpr ⟨hprincipal, rfl⟩)).trans <|
      Eff.bind_of_ok hpersist
  constructor
  · intro e s' hmaterial
    exact hstored.trans (Eff.bind_of_error hmaterial)
  · intro material s₃ e s' hmaterial hrevoke
    exact hstored.trans ((Eff.bind_of_ok hmaterial).trans (Eff.bind_of_error hrevoke))
  · intro material s₃ revoked s₄ hmaterial hrevoke
    exact ⟨_, _, hstored.trans ((Eff.bind_of_ok hmaterial).trans ((Eff.bind_of_ok hrevoke).trans rfl))⟩

/-- A rotation that stores the replacement succeeds with its later writes. -/
theorem rotate_succeeds (hadmitted : payload.Admitted env d context s) (hlate : payload.LateWritesSucceed d) :
    ∃ response s', rotateSecretImpl env d context payload s = (.ok response, s') := by
  obtain ⟨oldId, outcome, s₂, stored, token, hfinishes, -, htoken, hstored⟩ := hadmitted.finishes
  obtain ⟨material, s₃, hmaterial⟩ := (rotateRedeemMaterial_ends (one_le_effectiveThreshold payload)
    (effectiveThreshold_le payload) htoken hstored).mpr hlate.1
  obtain ⟨revoked, s₄, hrevoked⟩ := revokeOld_ends hlate.2 oldId s₃
  exact hfinishes.succeeds material s₃ revoked s₄ hmaterial hrevoked

/-- What a rotation that succeeds leaves: a live replacement with the threshold that was asked for, and the old record
revoked. -/
structure Rotated (env : Env) (d : RotateDraws) (payload : RotateSecretRequest) (newShares : List Threshold.Share)
    (s : Broker) : Prop where
  replaced : ∃ r r', r.threshold = none ∧ r.revoked = false ∧
    RotatedMaterial env d payload.effectiveThreshold payload.effectiveShares r r' newShares ∧
    s.records d.persist.handleId = some r'
  revoked : ∃ oldId r, parseHandleIdentifier env payload.oldHandle = .ok oldId ∧ s.records oldId = some r ∧
    r.revoked = true

theorem rotate_rotated (hfresh : s.records d.persist.handleId = none) {response : RotateSecretResponse}
    (h : rotateSecretImpl env d context payload s = (.ok response, s')) : Rotated env d payload response.newShares s' := by
  simp only [rotateSecretImpl, Eff.bind_eq_ok, Eff.lift_eq_ok, check_eq_ok, Eff.mapError_eq_ok, perform_eq_ok,
    recordTransparency_eq_ok, Eff.pure_eq_ok, Prod.exists] at h
  obtain ⟨oldId, _, ⟨hparse, rfl⟩, _, s₁, hload, _, _, ⟨-, rfl⟩, expiresAt, ttl, _, ⟨-, rfl⟩, _, _, ⟨-, rfl⟩, p, _,
    ⟨-, rfl⟩, outcome, s₂, hpersist, redeemToken, newShares, s₃, hmaterial, oldRevoked, _, ⟨-, -, rfl⟩, _, _, hlog,
      rfl, rfl⟩ := h
  obtain ⟨-, r, hr, rfl, rfl⟩ := (loadRecord_eq_ok env).mp hload
  obtain ⟨stored, token, hrecords, hthreshold, hlive, hid, htoken⟩ := persist_stored hpersist
  have hne : oldId ≠ d.persist.handleId := by
    rintro rfl
    rw [hfresh] at hr
    cases hr
  have hstored : s₂.records outcome.handleId = some stored := by rw [hrecords, hid, Function.update_self]
  obtain ⟨r', hrotated, hrecords'⟩ := rotateRedeemMaterial_eq_ok htoken hstored hmaterial
  rw [hid] at hrecords'
  have hold : s₃.records oldId = some (accessed env d.load r) := by
    rw [hrecords', Function.update_of_ne hne, hrecords, Function.update_of_ne hne]
    exact Broker.putRecord_records_self _ _ _
  have hlast := congrArg Broker.records hlog
  rw [Broker.recorded_records, hold] at hlast
  constructor <;> rw [hlast]
  · refine ⟨stored, r', hthreshold, hlive, hrotated, (Broker.putRecord_records_of_ne hne.symm _).trans ?_⟩
    rw [hrecords', Function.update_self]
  · exact ⟨oldId, _, hparse, Broker.putRecord_records_self _ _ _, rfl⟩

theorem plain_rotation_admitted : ∃ outcome,
    wrapSecretV2Impl plainEnv ⟨0, 0⟩ (plainDraws (.filled 1) (.filled 2) (.filled 3)) plainContext
      (plainRequest .singleUseUnwrap) Broker.empty =
        (.ok outcome, Broker.empty.after plainEnv [plainWrap .singleUseUnwrap]) ∧
    (plainRotateRequest outcome.handle).Admitted plainEnv plainRotateDraws plainContext
      (Broker.empty.after plainEnv [plainWrap .singleUseUnwrap]) := by
  obtain ⟨outcome, r, stored, -, s₂, hwrap, hhandle, hr, hmanaged, hpersist, -⟩ := plain_rotation_sealed
  exact ⟨outcome, hwrap, .filled 1, r, none, none, some "alice", hhandle, rfl, hr, hmanaged, rfl,
    plain_unwrapPrincipal .singleUseUnwrap, seals_iff.mpr ⟨stored, s₂, hpersist⟩⟩

/-- The request's threshold is that of the replacement: of its record, of the shares that are handed out, and of what it
takes to redeem it. -/
structure ThresholdHonoured (env : Env) (req : Proto.RotateSecretRequest) (newShares : List Proto.ThresholdShare)
    (r : StoredEnvelopeRecord) : Prop where
  stored : (r.threshold.getD 1).toNat = max req.threshold.toNat 1
  shares : 1 < req.threshold → newShares.length = max req.numShares.toNat req.threshold.toNat
  -- no token opens it by itself, whatever the record's own token is
  noRawToken : 1 < req.threshold → ∀ (token : Bytes) (expected : Block 32),
    compareRedeemToken env r expected (Base64.standard.encode token) ≠ .ok ()

/-- An optional number of a message, cut to a byte, and one if it is not given. -/
theorem toNat_byte (n : UInt32) :
    max ((if n > 0 then some n.toUInt8 else none).getD 1).toNat 1 = max (n.toNat % 256) 1 := by
  by_cases hn : n > 0
  · rw [if_pos hn, Option.getD_some, UInt32.toNat_toUInt8]
  · have hzero : n.toNat = 0 := by
      rw [gt_iff_lt, UInt32.lt_iff_toNat_lt] at hn
      simpa using hn
    rw [if_neg hn, hzero]
    rfl

theorem toNat_effectiveThreshold (req : Proto.RotateSecretRequest) :
    (rotateRequest req).effectiveThreshold.toNat = max (req.threshold.toNat % 256) 1 := by
  rw [RotateSecretRequest.effectiveThreshold, toNat_max]
  exact toNat_byte req.threshold

theorem toNat_effectiveShares (req : Proto.RotateSecretRequest) :
    (rotateRequest req).effectiveShares.toNat = max (req.numShares.toNat % 256) (max (req.threshold.toNat % 256) 1) := by
  have hshares : max ((rotateRequest req).numShares.getD 1).toNat 1 = max (req.numShares.toNat % 256) 1 :=
    toNat_byte req.numShares
  rw [RotateSecretRequest.effectiveShares, toNat_max, toNat_effectiveThreshold]
  omega

/-- What the handler does with the numbers that it is given. -/
theorem RotatedMaterial.counts {req : Proto.RotateSecretRequest} {r r' : StoredEnvelopeRecord}
    {shares : List Threshold.Share}
    (h : RotatedMaterial env d (rotateRequest req).effectiveThreshold (rotateRequest req).effectiveShares r r' shares)
    (hr : r.threshold = none) : (r'.threshold.getD 1).toNat = max (req.threshold.toNat % 256) 1 ∧
      (1 < req.threshold.toNat % 256 →
        shares.length = max (req.numShares.toNat % 256) (req.threshold.toNat % 256)) := by
  have heffective := toNat_effectiveThreshold req
  by_cases hmany : (rotateRequest req).effectiveThreshold > 1
  · obtain ⟨token, split, hsplit, -, rfl⟩ := h.split hmany
    have hlength := (Threshold.nodup_split_shares env.curve (one_le_effectiveThreshold _)
      (effectiveThreshold_le _) hsplit).2
    refine ⟨by rw [h.stored, if_pos hmany, Option.getD_some, heffective], fun hmod => ?_⟩
    rw [hlength, toNat_effectiveShares]
    omega
  · have hnone : r'.threshold = none := by rw [h.stored, if_neg hmany, hr]
    rw [gt_iff_lt, UInt8.lt_iff_toNat_lt, heffective] at hmany
    have hlow : req.threshold.toNat % 256 ≤ 1 := by simpa using hmany
    rw [hnone, max_eq_right hlow]
    exact ⟨rfl, fun hmod => by omega⟩

/-- A record that asks for several shares is not opened by a text that holds none. -/
theorem compareRedeemToken_of_noShares {r : StoredEnvelopeRecord} (hmany : r.threshold.getD 1 > 1) {text : String}
    (htext : env.serde.sharesFromStr text = none) (expected : Block 32) :
    compareRedeemToken env r expected text ≠ .ok () := by
  intro h
  rw [compareRedeemToken, Eff.except_bind_eq_ok] at h
  obtain ⟨provided, hprovided, -⟩ := h
  rw [providedToken, if_pos hmany, htext] at hprovided
  cases hprovided

/-- A record that asks for one share is opened by its token. -/
theorem compareRedeemToken_of_single {r : StoredEnvelopeRecord} (hsingle : r.threshold = none) (token : Block 32) :
    compareRedeemToken env r token (Base64.standard.encode token.val) = .ok () := by
  have hone : ¬ r.threshold.getD 1 > 1 := by
    rw [hsingle]
    decide
  simp only [compareRedeemToken, providedToken, comparedToken, if_neg hone, Base64.decode_encode Base64.standard_lawful,
    Eff.okOr_some, Eff.ok_bind, Eff.rejectIf_eq_ok, ne_eq, not_true_eq_false, not_false_eq_true]

/-- The rotation of `plainRotation` with a threshold. -/
def plainThresholdRotation (handle : String) (threshold numShares : UInt32) : Proto.RotateSecretRequest :=
  ⟨handle, [4, 5, 6], "", none, 0, 0, "", threshold, numShares⟩

theorem plain_threshold_rotated (threshold numShares : UInt32) : ∃ handle response s',
    rotateSecret plainServer plainRotateDraws (some plainContext) (plainThresholdRotation handle threshold numShares)
      (Broker.empty.after plainEnv [plainWrap .singleUseUnwrap]) = (.ok response, s') := by
  obtain ⟨outcome, -, hadmitted⟩ := plain_rotation_admitted
  -- the numbers play no role up to the replacement
  have hadmitted' : (rotateRequest (plainThresholdRotation outcome.handle threshold numShares)).Admitted plainEnv
      plainRotateDraws plainContext (Broker.empty.after plainEnv [plainWrap .singleUseUnwrap]) := hadmitted
  obtain ⟨result, s', hrotate⟩ := rotate_succeeds hadmitted' ⟨fun _ => rfl, rfl⟩
  refine ⟨outcome.handle, ?_⟩
  simp only [rotateSecret, Eff.bind_eq_ok, Eff.lift_eq_ok, Eff.mapError_eq_ok, brokerContext_eq_ok, Eff.pure_eq_ok]
  exact ⟨_, s', plainContext, _, ⟨rfl, rfl⟩, result, s', hrotate, rfl, rfl⟩

/-- **A rotation honours the threshold that it is asked for up to 255.** The text of a token is not that of shares, and the
handle is fresh. For a rotation that succeeds, the threshold of the replacement is that of the request, with as many
shares as it asks for, exactly if the numbers fit into a byte. -/
theorem rotation_threshold_honoured_iff {env : ServerEnv} {context : Option BrokerClientContext}
    {req : Proto.RotateSecretRequest} {response : Proto.RotateSecretResponse}
    (htokens : ∀ token, env.serde.sharesFromStr (Base64.standard.encode token) = none)
    (hfresh : s.records d.persist.handleId = none) (h : rotateSecret env d context req s = (.ok response, s')) :
    (∃ r, s'.records d.persist.handleId = some r ∧ ThresholdHonoured env.toEnv req response.newShares r) ↔
      req.threshold ≤ 255 ∧ (1 < req.threshold → req.numShares ≤ 255) := by
  simp only [rotateSecret, Eff.bind_eq_ok, Eff.lift_eq_ok, Eff.mapError_eq_ok, Eff.pure_eq_ok] at h
  obtain ⟨caller, _, ⟨-, rfl⟩, result, s₁, hrotate, rfl, rfl⟩ := h
  obtain ⟨r, r', hr, -, hmaterial, hr'⟩ := (rotate_rotated hfresh hrotate).replaced
  obtain ⟨hstored, hshares⟩ := hmaterial.counts hr
  simp only [UInt32.le_iff_toNat_le, UInt32.lt_iff_toNat_lt, UInt32.reduceToNat]
  constructor
  · rintro ⟨r₂, hr₂, honoured⟩
    cases hr'.symm.trans hr₂
    have hthreshold := honoured.stored
    rw [hstored] at hthreshold
    have hfits : req.threshold.toNat ≤ 255 := by omega
    refine ⟨hfits, fun hmany => ?_⟩
    have hcount := honoured.shares (UInt32.lt_iff_toNat_lt.mpr hmany)
    rw [List.length_map, hshares (by omega)] at hcount
    omega
  · rintro ⟨hfits, hcount⟩
    refine ⟨r', hr', ?_, fun hmany => ?_, fun hmany token expected => ?_⟩
    · rw [hstored]
      omega
    · have hmany' : 1 < req.threshold.toNat := UInt32.lt_iff_toNat_lt.mp hmany
      have hcount' := hcount hmany'
      rw [List.length_map, hshares (by omega)]
      omega
    · have hmany' : 1 < req.threshold.toNat := UInt32.lt_iff_toNat_lt.mp hmany
      have hlarge : 1 < (r'.threshold.getD 1).toNat := by
        rw [hstored]
        omega
      exact compareRedeemToken_of_noShares (UInt8.lt_iff_toNat_lt.mpr hlarge) (htokens token) expected

theorem rotation_threshold_honoured_iff_two : ∃ handle response s' r,
    rotateSecret plainServer plainRotateDraws (some plainContext) (plainThresholdRotation handle 2 3)
      (Broker.empty.after plainEnv [plainWrap .singleUseUnwrap]) = (.ok response, s') ∧
    s'.records (.filled 4) = some r ∧
    ThresholdHonoured plainEnv (plainThresholdRotation handle 2 3) response.newShares r := by
  obtain ⟨handle, response, s', h⟩ := plain_threshold_rotated 2 3
  have hfits : (plainThresholdRotation handle 2 3).threshold ≤ 255 ∧
      (1 < (plainThresholdRotation handle 2 3).threshold → (plainThresholdRotation handle 2 3).numShares ≤ 255) :=
    ⟨by simp [plainThresholdRotation], fun _ => by simp [plainThresholdRotation]⟩
  obtain ⟨r, hr, honoured⟩ := (rotation_threshold_honoured_iff (fun _ => rfl) rfl h).mpr hfits
  exact ⟨handle, response, s', r, h, hr, honoured⟩

/-- A threshold of 257 is that of one: no shares are handed out, and the record is opened by its token. -/
theorem rotation_threshold_cut : ∃ handle response s' r,
    rotateSecret plainServer plainRotateDraws (some plainContext) (plainThresholdRotation handle 257 300)
      (Broker.empty.after plainEnv [plainWrap .singleUseUnwrap]) = (.ok response, s') ∧
    s'.records (.filled 4) = some r ∧ r.threshold = none ∧ response.newShares = [] ∧
    ∀ token : Block 32, compareRedeemToken plainEnv r token (Base64.standard.encode token.val) = .ok () := by
  obtain ⟨handle, response, s', h⟩ := plain_threshold_rotated 257 300
  have hrpc := h
  simp only [rotateSecret, Eff.bind_eq_ok, Eff.lift_eq_ok, Eff.mapError_eq_ok, Eff.pure_eq_ok] at hrpc
  obtain ⟨caller, _, ⟨-, rfl⟩, result, s₁, hrotate, rfl, rfl⟩ := hrpc
  obtain ⟨r, r', hr, -, hmaterial, hr'⟩ := (rotate_rotated rfl hrotate).replaced
  have hsingle : ¬ (rotateRequest (plainThresholdRotation handle 257 300)).effectiveThreshold > 1 := by
    rw [gt_iff_lt, UInt8.lt_iff_toNat_lt, toNat_effectiveThreshold]
    simp [plainThresholdRotation]
  have hnone : r'.threshold = none := by rw [hmaterial.stored, if_neg hsingle, hr]
  refine ⟨handle, _, _, r', h, hr', hnone, ?_, compareRedeemToken_of_single hnone⟩
  rw [hmaterial.single hsingle]
  rfl

end SecretBroker
