import SecretBroker.BrokerFrame

/-! Runs of requests, one after the other, from an empty broker. The UUIDs that the requests draw are
all different. Every stored record carries the identity under which its handle was issued, and a handle
that exists can only evolve. -/

open Wire Register

namespace SecretBroker

/-- A request with its caller and what it draws. -/
inductive Call where
  | wrap (createdAt : DateTime) (d : PersistDraws) (context : BrokerClientContext) (request : WrapV2Request)
  | mint (d : MintDraws) (context : BrokerClientContext) (request : MintV2Request)
  | unwrap (d : UnwrapDraws) (context : BrokerClientContext) (payload : UnwrapV2Request)
  | attenuate (d : AttenuateDraws) (context : BrokerClientContext) (payload : AttenuateV2Request)
  | renewLease (d : RenewDraws) (context : BrokerClientContext) (payload : RenewLeaseRequest)
  | revoke (d : RevokeDraws) (context : BrokerClientContext) (payload : RevokeSecretRequest)
  | rotate (d : RotateDraws) (context : BrokerClientContext) (payload : RotateSecretRequest)
  | mintDischarge (d : LoadDraws) (now : DateTime) (context : BrokerClientContext) (payload : MintDischargeRequest)
  | claimShare (d : LoadDraws) (claimDisk : Disk) (context : BrokerClientContext) (req : ClaimShareRequest)
  | distributeShare (d : LoadDraws) (context : BrokerClientContext) (req : DistributeShareRequest)
  | combineShares (load : LoadDraws) (d : UnwrapDraws) (context : BrokerClientContext) (req : CombineSharesRequest)
  | delete (d : LoadDraws) (deleteDisk : Disk) (context : BrokerClientContext) (handle : String)

inductive Reply where
  | wrapped (outcome : WrapSecretOutcome)
  | minted (response : MintV2Response)
  | unwrapped (response : UnwrapResponse)
  | attenuated (response : AttenuateV2Response)
  | renewed (response : RenewLeaseResponse)
  | revoked (response : RevokeSecretResponse)
  | rotated (response : RotateSecretResponse)
  | dischargeMinted (response : MintDischargeResponse)
  | shareClaimed (response : ClaimResult)
  | shareDistributed (response : DistributeShareResponse)
  | sharesCombined (response : CombineSharesResponse)
  | deleted (removed : Bool)

namespace Call

/-- Handle a request. -/
def exec (env : Env) : Call → Eff Broker Failure Reply
  | .wrap createdAt d context request => do return .wrapped (← wrapSecretV2Impl env createdAt d context request)
  | .mint d context request => do return .minted (← mintAeadKeyV2Impl env d context request)
  | .unwrap d context payload => do return .unwrapped (← unwrapSecretV2Impl env d context payload)
  | .attenuate d context payload => do return .attenuated (← attenuateHandleV2Impl env d context payload)
  | .renewLease d context payload => do return .renewed (← renewLeaseImpl env d context payload)
  | .revoke d context payload => do return .revoked (← revokeSecretImpl env d context payload)
  | .rotate d context payload => do return .rotated (← rotateSecretImpl env d context payload)
  | .mintDischarge d now context payload => do return .dischargeMinted (← mintDischargeImpl env d now context payload)
  | .claimShare d claimDisk context req => do return .shareClaimed (← claimShareImpl env d claimDisk context req)
  | .distributeShare d context req => do return .shareDistributed (← distributeShareImpl env d context req)
  | .combineShares load d context req => do return .sharesCombined (← combineSharesImpl env load d context req)
  | .delete d deleteDisk context handle => do return .deleted (← deleteSecretImpl env d deleteDisk context handle)

theorem exec_unwrap {env : Env} {d : UnwrapDraws} {context : BrokerClientContext} {payload : UnwrapV2Request}
    {response : UnwrapResponse} {s s' : Broker} (h : unwrapSecretV2Impl env d context payload s = (.ok response, s')) :
    (Call.unwrap d context payload).exec env s = (.ok (.unwrapped response), s') := by
  rw [exec, Eff.bind_of_ok h]
  rfl

/-- The UUIDs that a request draws. -/
def uuids : Call → List Uuid
  | .wrap _ d _ _ => d.uuids
  | .mint d _ _ => d.persist.uuids
  | .rotate d _ _ => d.persist.uuids
  | .attenuate d _ _ => [d.keyId]
  | _ => []

/-- The secret that a request seals if it gets that far. -/
def newSecret : Call → Option NewSecret
  | .wrap createdAt d context request => some (request.newSecret createdAt d context)
  | .mint d context request => some (request.newSecret d context)
  | .rotate d context payload => some (payload.newSecret d context)
  | _ => none

/-- The handle that a request creates, with its issuer. -/
def issuance (call : Call) : Option Issuance := call.newSecret.map NewSecret.toIssuance

theorem issuance_mem_uuids {call : Call} {i : Issuance} (h : call.issuance = some i) : i.handleId ∈ call.uuids := by
  cases call <;> cases h <;> simp [uuids, PersistDraws.uuids, WrapV2Request.newSecret, MintV2Request.newSecret,
    RotateSecretRequest.newSecret]

/-- The id of the signing key that a request generates if it gets that far, and the customer it is for. -/
def signingKey (env : Env) : Call → Option (Uuid × String)
  | .wrap _ d _ request => some (d.keyPair.keyId, requestCustomer env request.customerId)
  | .mint d _ _ => some (d.persist.keyPair.keyId, env.broker.defaultCustomerId)
  | .rotate d _ payload => some (d.persist.keyPair.keyId, requestCustomer env payload.customerId)
  | _ => none

/-- The handle whose lease a request renews, and when. -/
def renewal : Call → Option (String × DateTime)
  | .renewLease d _ payload => some (payload.handle, d.now)
  | _ => none

/-- How the accesses of a request to the store end. -/
def disks : Call → List Disk
  | .wrap _ d _ _ => [d.insertDisk]
  | .mint d _ _ => [d.persist.insertDisk, d.thresholdDisk, d.assignmentsDisk]
  | .unwrap d _ _ => [d.load.disk, d.markDisk]
  | .attenuate d _ _ => [d.load.disk, d.appendDisk]
  | .renewLease d _ _ => [d.load.disk, d.renewDisk]
  | .revoke d _ _ => [d.load.disk, d.revokeDisk]
  | .rotate d _ _ => [d.load.disk, d.persist.insertDisk, d.thresholdDisk, d.revokeDisk]
  | .mintDischarge d _ _ _ => [d.disk]
  | .claimShare d claimDisk _ _ => [d.disk, claimDisk]
  | .distributeShare d _ _ => [d.disk]
  | .combineShares load d _ _ => [load.disk, d.load.disk, d.markDisk]
  | .delete d deleteDisk _ _ => [d.disk, deleteDisk]

end Call

/-- The steps that some requests may take. -/
def scopeOf (env : Env) (calls : List Call) : Scope where
  uuids := calls.flatMap Call.uuids
  signingKeys := calls.filterMap (Call.signingKey env)
  newSecrets := calls.filterMap Call.newSecret
  renewals := calls.filterMap Call.renewal

theorem scopeOf_within (env : Env) {calls calls' : List Call} (h : calls ⊆ calls') :
    (scopeOf env calls).Within (scopeOf env calls') := by
  refine ⟨fun id hid => ?_, List.filterMap_subset _ h, List.filterMap_subset _ h, List.filterMap_subset _ h⟩
  obtain ⟨call, hcall, hid⟩ := List.mem_flatMap.mp hid
  exact List.mem_flatMap.mpr ⟨call, h hcall, hid⟩

namespace Call

/-- Every request takes these steps only. One that seals no secret has only accessed records when it fails, if no access to
the store has written and then failed. -/
theorem exec_acts (env : Env) {call : Call} {calls : List Call} (hcall : call ∈ calls) (s : Broker) :
    Eff.Acts (call.newSecret = none ∧ ∀ disk ∈ call.disks, disk.Atomic) (AccessSteps env)
      (BrokerSteps env (scopeOf env calls)) (call.exec env) s := by
  have hfresh : call.uuids ⊆ (scopeOf env calls).uuids := fun _ hid => List.mem_flatMap.mpr ⟨call, hcall, hid⟩
  have hkey : ∀ k, call.signingKey env = some k → k ∈ (scopeOf env calls).signingKeys := fun _ hk =>
    List.mem_filterMap.mpr ⟨call, hcall, hk⟩
  have hsecret : ∀ p, call.newSecret = some p → p ∈ (scopeOf env calls).newSecrets := fun _ hp =>
    List.mem_filterMap.mpr ⟨call, hcall, hp⟩
  have hrenewal : ∀ p, call.renewal = some p → p ∈ (scopeOf env calls).renewals := fun _ hp =>
    List.mem_filterMap.mpr ⟨call, hcall, hp⟩
  -- a request that seals a secret, and one that does not
  have hseals {α : Type} {m : Eff Broker Failure α} {f : α → Reply} (hkind : call.newSecret ≠ none)
      (hm : Eff.Keeps (BrokerSteps env (scopeOf env calls)) m) :
        Eff.Acts (call.newSecret = none ∧ ∀ disk ∈ call.disks, disk.Atomic)
        (AccessSteps env) (BrokerSteps env (scopeOf env calls)) (m >>= fun a => pure (f a)) s :=
    ⟨Eff.keeps_bind hm (fun _ => Eff.keeps_pure _) s, fun h => absurd h.1 hkind⟩
  have hreply {α : Type} {C : Prop} {m : Eff Broker Failure α} {f : α → Reply}
    (hC : (∀ disk ∈ call.disks, disk.Atomic) → C)
      (hm : Eff.Acts C (AccessSteps env) (BrokerSteps env (scopeOf env calls)) m s) :
      Eff.Acts (call.newSecret = none ∧ ∀ disk ∈ call.disks, disk.Atomic) (AccessSteps env)
        (BrokerSteps env (scopeOf env calls))
        (m >>= fun a => pure (f a)) s :=
    (Eff.acts_bind_of_finishes hm fun _ _ _ => Eff.finishes_pure _).mono (fun h => hC h.2) id
  cases call with
  | wrap createdAt d context request =>
      exact hseals (Option.some_ne_none _) (wrap_steps env hfresh (hkey _ rfl) (hsecret _ rfl))
  | mint d context request => exact hseals (Option.some_ne_none _) (mint_steps env hfresh (hkey _ rfl) (hsecret _ rfl))
  | rotate d context payload => exact hseals (Option.some_ne_none _) (rotate_steps env hfresh (hkey _ rfl) (hsecret _ rfl))
  | unwrap d context payload => exact hreply (fun h => h _ (by simp [disks])) (unwrap_acts env d context payload s)
  | attenuate d context payload => exact hreply (fun h => h _ (by simp [disks])) (attenuate_acts env d context payload s)
  | renewLease d context payload =>
      exact hreply (fun h => h _ (by simp [disks])) (renewLease_acts env context (hrenewal _ rfl) s)
  | revoke d context payload => exact hreply (fun h => h _ (by simp [disks])) (revoke_acts env d context payload s)
  | mintDischarge d now context payload => exact hreply (fun _ => trivial) (mintDischarge_acts env d now context payload s)
  | claimShare d claimDisk context req =>
      exact hreply (fun h => h _ (by simp [disks])) (claimShare_acts env d claimDisk context req s)
  | distributeShare d context req => exact hreply (fun _ => trivial) (distributeShare_acts env d context req s)
  | combineShares load d context req =>
      exact hreply (fun h => h _ (by simp [disks])) (combineShares_acts env load d context req s)
  | delete d deleteDisk context handle =>
      exact hreply (fun h => h _ (by simp [disks])) (delete_acts env d deleteDisk context handle s)

theorem exec_steps (env : Env) (call : Call) (s : Broker) : BrokerSteps env (scopeOf env [call]) s (call.exec env s).2 :=
  (exec_acts env (List.mem_singleton_self call) s).steps

end Call

/-- The broker after some requests. -/
def Broker.after (env : Env) (s : Broker) (calls : List Call) : Broker :=
  calls.foldl (fun s call => (call.exec env s).2) s

@[simp] theorem Broker.after_nil (env : Env) (s : Broker) : s.after env [] = s := rfl

@[simp] theorem Broker.after_cons (env : Env) (s : Broker) (call : Call) (calls : List Call) :
    s.after env (call :: calls) = Broker.after env (call.exec env s).2 calls := rfl

theorem Broker.after_append (env : Env) (s : Broker) (calls calls' : List Call) :
    s.after env (calls ++ calls') = (s.after env calls).after env calls' := List.foldl_append

/-- No UUID is drawn twice. -/
def FreshUuids (calls : List Call) : Prop := (calls.flatMap Call.uuids).Nodup

instance (calls : List Call) : Decidable (FreshUuids calls) :=
  inferInstanceAs (Decidable (calls.flatMap Call.uuids).Nodup)

/-- Some requests take the steps that each of them may take. -/
theorem after_steps (env : Env) (calls : List Call) (s : Broker) :
    BrokerSteps env (scopeOf env calls) s (s.after env calls) := by
  induction calls generalizing s with
  | nil => exact .refl
  | cons call calls ih =>
      have hfirst : BrokerSteps env (scopeOf env (call :: calls)) s (call.exec env s).2 :=
        (call.exec_acts env List.mem_cons_self s).steps
      exact hfirst.trans ((ih _).mono (scopeOf_within env (List.subset_cons_self call calls)))

/-- Some requests are framed by the UUIDs they draw together. -/
theorem after_framed (env : Env) (calls : List Call) {P : Uuid → StoredEnvelopeRecord → Prop}
    (hP : ∀ id r r', Advances env.serde r r' → P id r → P id r')
    (hissue : ∀ call ∈ calls, ∀ p, call.newSecret = some p → ∀ r, IssuedBy p.toIssuance r → p.terms.Grants env r →
      P p.handleId r) (s : Broker) : Framed env.serde (calls.flatMap Call.uuids) P s (s.after env calls) := by
  refine framed_of_steps hP (fun p hp r hissued hgrants => ?_) (after_steps env calls s)
  obtain ⟨call, hcall, hp⟩ := List.mem_filterMap.mp hp
  exact hissue call hcall p hp r hissued hgrants

/-- Every stored record carries the identity of a request that issued its handle. -/
theorem stored_issued (env : Env) (calls : List Call) {id : Uuid} {r : StoredEnvelopeRecord}
    (h : (Broker.empty.after env calls).records id = some r) :
    ∃ call ∈ calls, ∃ i, call.issuance = some i ∧ i.handleId = id ∧ IssuedBy i r := by
  have hframe := after_framed env calls
    (P := fun id r => ∃ call ∈ calls, ∃ i, call.issuance = some i ∧ i.handleId = id ∧ IssuedBy i r)
    (fun id r r' hadv ⟨call, hcall, i, hi, hid, hissued⟩ => ⟨call, hcall, i, hi, hid, hissued.advances hadv⟩)
    (fun call hcall p hp r hissued _ => ⟨call, hcall, p.toIssuance, by rw [Call.issuance, hp]; rfl, rfl, hissued⟩)
    Broker.empty
  exact hframe.holds id (fun r hr => by cases hr) r h

/-- A stored record lies under a UUID that was drawn. -/
theorem stored_drawn (env : Env) (calls : List Call) {id : Uuid} {r : StoredEnvelopeRecord}
    (h : (Broker.empty.after env calls).records id = some r) : id ∈ calls.flatMap Call.uuids := by
  obtain ⟨call, hcall, i, hi, rfl, -⟩ := stored_issued env calls h
  exact List.mem_flatMap.mpr ⟨call, hcall, Call.issuance_mem_uuids hi⟩

/-- With all UUIDs different, those drawn before are not drawn later. -/
theorem FreshUuids.not_drawn_later {before later : List Call} (hfresh : FreshUuids (before ++ later)) {id : Uuid}
    (hid : id ∈ before.flatMap Call.uuids) : id ∉ later.flatMap Call.uuids := by
  unfold FreshUuids at hfresh
  rw [List.flatMap_append] at hfresh
  exact List.disjoint_of_nodup_append hfresh hid

/-- The record of a handle that exists takes its own steps only, or is deleted. -/
theorem after_recordSteps (env : Env) (s : Broker) {before later : List Call} (hfresh : FreshUuids (before ++ later))
    {id : Uuid} (hid : id ∈ before.flatMap Call.uuids) :
    Follows (RecordSteps env.serde) ((s.after env before).records id) ((s.after env (before ++ later)).records id) := by
  rw [Broker.after_append]
  exact (after_steps env later (s.after env before)).follows (hfresh.not_drawn_later hid)

/-- A handle that exists can only evolve or be deleted. -/
theorem after_evolves (env : Env) (s : Broker) {before later : List Call} (hfresh : FreshUuids (before ++ later))
    {id : Uuid} (hid : id ∈ before.flatMap Call.uuids) :
    Follows (Evolves env.serde) ((s.after env before).records id) ((s.after env (before ++ later)).records id) := by
  intro r' hr'
  obtain ⟨r, hr, hsteps⟩ := after_recordSteps env s hfresh hid r' hr'
  exact ⟨r, hr, hsteps.evolves⟩

/-- An encryption key stays in the key store. -/
theorem after_kyberTree (env : Env) (s : Broker) {before later : List Call} (hfresh : FreshUuids (before ++ later))
    {id : Uuid} (hid : id ∈ before.flatMap Call.uuids) :
    (s.after env (before ++ later)).kyberTree id.toString = (s.after env before).kyberTree id.toString := by
  rw [Broker.after_append]
  refine (after_framed env later (P := fun _ _ => True) (fun _ _ _ _ _ => trivial)
    (fun _ _ _ _ _ _ _ => trivial) (s.after env before)).kyberTree _ fun id' hid' heq => ?_
  exact hfresh.not_drawn_later hid (Uuid.toString_injective heq ▸ hid')

/-- Only one request of a run issues a handle. -/
theorem FreshUuids.issuance_unique {calls : List Call} (hfresh : FreshUuids calls) {call call' : Call}
    (hcall : call ∈ calls) (hcall' : call' ∈ calls) {i i' : Issuance} (hi : call.issuance = some i)
    (hi' : call'.issuance = some i') (hid : i.handleId = i'.handleId) : call = call' := by
  by_contra hne
  have : Std.Symm (Function.onFun List.Disjoint Call.uuids) := ⟨fun _ _ h => h.symm⟩
  have hdisjoint := (List.nodup_flatMap.mp hfresh).2.forall hcall hcall' hne
  exact hdisjoint (Call.issuance_mem_uuids hi) (hid ▸ Call.issuance_mem_uuids hi')

end SecretBroker
