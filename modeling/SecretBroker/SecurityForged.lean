import SecretBroker.PlainBroker
import SecretBroker.RedemptionSpec
import SecretBroker.Run

/-! Requests with a forged handle: one that can be read, but whose signature is not the chain under the root key of
its identifier. Most handlers check the signature before they touch the store, and then a forged handle tells
nothing about it. Unwrapping and the minting of a discharge load the record first. -/

open Wire

namespace SecretBroker

variable {env : Env}

/-- The handle is read, and its signature is wrong. -/
def Forged (env : Env) (handle : String) : Prop :=
  ∃ mac, parseHandleV2 handle = .ok mac ∧ mac.verifySignature env.mac (env.rootKey mac.identifier) ≠ .ok ()

theorem Forged.parseHandleIdentifier_ne_ok {handle : String} (h : Forged env handle) (id : Uuid) :
    parseHandleIdentifier env handle ≠ .ok id := by
  obtain ⟨mac, hmac, hforged⟩ := h
  intro hparsed
  obtain ⟨mac', hmac', hverified, -⟩ := parseHandleIdentifier_eq_ok.mp hparsed
  rw [hmac] at hmac'
  cases hmac'
  exact hforged hverified

namespace Call

/-- The handle that a request presents. -/
def handle : Call → Option String
  | .wrap .. => none
  | .mint .. => none
  | .unwrap _ _ payload => some payload.handle
  | .attenuate _ _ payload => some payload.handle
  | .renewLease _ _ payload => some payload.handle
  | .revoke _ _ payload => some payload.handle
  | .rotate _ _ payload => some payload.oldHandle
  | .mintDischarge _ _ _ payload => some payload.primaryHandle
  | .claimShare _ _ _ req => some req.handle
  | .distributeShare _ _ req => some req.handle
  | .combineShares _ _ _ req => some req.handle
  | .delete _ _ _ handle => some handle

/-- The request gets to load the record of its handle before the signature is checked. -/
def LoadsFirst (env : Env) : Call → Prop
  | .unwrap d _ _ => ∀ message, d.load.disk ≠ .failed message
  | .mintDischarge d _ context payload =>
      validateDischargeMintRequirements env context payload.location = .ok () ∧ trim payload.caveatId ≠ "" ∧
        ∀ message, d.disk ≠ .failed message
  | _ => False

end Call

theorem check_refuses {α : Type} {x : Except ServiceError α} (h : ∀ a, x ≠ .ok a) : Eff.Refuses (check x) :=
  Eff.refuses_lift fun a ha => h a (Eff.except_mapError_eq_ok.mp ha)

/-- Reading the identifier of a forged handle is where these handlers end. -/
theorem Forged.refuses {handle : String} (h : Forged env handle) :
    Eff.Refuses (check (parseHandleIdentifier env handle)) :=
  check_refuses h.parseHandleIdentifier_ne_ok

/-- A disk that cannot be read is reported in every state alike. -/
theorem loadRecord_refuses {d : LoadDraws} {message : String} (hdisk : d.disk = .failed message) (id : Uuid) :
    Eff.Refuses (loadRecord env d id) := by
  apply Eff.refuses_bind
  apply Eff.refuses_mapError
  rw [hdisk]
  exact ⟨_, fun _ => rfl⟩

/-- A request with a forged handle that does not load first is refused. -/
theorem Call.refuses_of_forged {call : Call} {handle : String} (hcall : call.handle = some handle)
    (hforged : Forged env handle) (hfirst : ¬ call.LoadsFirst env) : Eff.Refuses (call.exec env) := by
  cases call with
  | wrap => cases hcall
  | mint => cases hcall
  | unwrap d context payload =>
      simp only [LoadsFirst, not_forall, not_not] at hfirst
      obtain ⟨message, hdisk⟩ := hfirst
      exact Eff.refuses_bind (Eff.refuses_lift_bind fun mac _ => Eff.refuses_bind (loadRecord_refuses hdisk _) _) _
  | attenuate d context payload =>
      cases hcall
      obtain ⟨mac, hmac, hwrong⟩ := hforged
      refine Eff.refuses_bind (Eff.refuses_lift_bind fun mac' hmac' =>
        Eff.refuses_bind (check_refuses fun _ hok => ?_) _) _
      rw [Eff.except_mapError_eq_ok, hmac] at hmac'
      cases hmac'
      exact hwrong (Eff.except_mapError_eq_ok.mp hok)
  | renewLease d context payload =>
      cases hcall
      exact Eff.refuses_bind (Eff.refuses_lift_bind fun _ _ => Eff.refuses_bind hforged.refuses _) _
  | revoke d context payload =>
      cases hcall
      exact Eff.refuses_bind (Eff.refuses_bind hforged.refuses _) _
  | rotate d context payload =>
      cases hcall
      exact Eff.refuses_bind (Eff.refuses_bind hforged.refuses _) _
  | mintDischarge d now context payload =>
      refine Eff.refuses_bind (Eff.refuses_lift_bind fun _ hcaller => Eff.refuses_lift_bind fun _ hcaveat =>
        Eff.refuses_lift_bind fun _ _ => Eff.refuses_lift_bind fun mac _ => Eff.refuses_bind ?_ _) _
      obtain ⟨message, hdisk⟩ : ∃ message, d.disk = .failed message := by
        by_contra hworks
        rw [Eff.except_mapError_eq_ok] at hcaller hcaveat
        exact hfirst ⟨hcaller, Eff.rejectIf_eq_ok.mp hcaveat, not_exists.mp hworks⟩
      exact loadRecord_refuses hdisk _
  | claimShare d claimDisk context req =>
      cases hcall
      exact Eff.refuses_bind (Eff.refuses_lift_bind fun _ _ =>
        Eff.refuses_bind (Eff.refuses_mapError hforged.refuses _) _) _
  | distributeShare d context req =>
      cases hcall
      exact Eff.refuses_bind (Eff.refuses_lift_bind fun _ _ => Eff.refuses_lift_bind fun _ _ =>
        Eff.refuses_bind (Eff.refuses_mapError hforged.refuses _) _) _
  | combineShares load d context req =>
      cases hcall
      exact Eff.refuses_bind (Eff.refuses_lift_bind fun _ _ => Eff.refuses_lift_bind fun _ _ =>
        Eff.refuses_bind (Eff.refuses_mapError hforged.refuses _) _) _
  | delete d deleteDisk context handle =>
      cases hcall
      exact Eff.refuses_bind (Eff.refuses_bind hforged.refuses _) _

/-- A load writes the time of the access, also when it is not flushed. -/
theorem loadRecord_touches {d : LoadDraws} (hdisk : ∀ message, d.disk ≠ .failed message) {id : Uuid} {s : Broker}
    {r : StoredEnvelopeRecord} (hr : s.records id = some r) :
    (loadRecord env d id s).2.records id = some (accessed env d r) := by
  have hkeeps : ∀ loaded : Option StoredEnvelopeRecord, Eff.Keeps Eq (check (Eff.okOr loaded .handleNotFound)) :=
    fun _ => Eff.keeps_lift _
  have hwritten : ((SealedStore.load env.serde d.accessedAt).run (some r)).1 = some (accessed env d r) := rfl
  rw [loadRecord, Eff.bind_snd hkeeps, Eff.mapError_snd]
  cases h : d.disk with
  | ok => rw [perform, Broker.putRecord_records_self, hr, hwritten]
  | failed message => exact absurd h (hdisk message)
  | unflushed message => rw [perform, Broker.putRecord_records_self, hr, hwritten]

theorem unwrap_touches {d : UnwrapDraws} (hdisk : ∀ message, d.load.disk ≠ .failed message) {context : BrokerClientContext}
    {payload : UnwrapV2Request} {mac : Macaroon String (Block 32)} (hmac : parseHandleV2 payload.handle = .ok mac)
    (hforged : Forged env payload.handle) {s : Broker} {r : StoredEnvelopeRecord}
    (hr : s.records mac.identifier = some r) :
    (unwrapSecretV2Impl env d context payload s).2.records mac.identifier = some (accessed env d.load r) := by
  rw [unwrapSecretV2Impl, Eff.bind_of_ok (check_eq_ok.mpr ⟨hmac, rfl⟩), Eff.bind_snd]
  · exact loadRecord_touches hdisk hr
  · -- the checks of a forged handle fail, so nothing follows
    intro record
    refine Eff.keeps_bind Eff.keeps_read fun s' => Eff.keeps_lift_bind fun plaintext hchecks => ?_
    have hverified := ((unwrapChecks_eq_ok env).mp (Eff.except_mapError_eq_ok.mp hchecks)).1
    exact absurd (parseHandleIdentifier_of_verifyHandle hmac hverified) (hforged.parseHandleIdentifier_ne_ok _)

theorem mintDischarge_touches {d : LoadDraws} (hdisk : ∀ message, d.disk ≠ .failed message) {now : DateTime}
    {context : BrokerClientContext} {payload : MintDischargeRequest}
    (hcaller : validateDischargeMintRequirements env context payload.location = .ok ())
    (hcaveat : trim payload.caveatId ≠ "") {mac : Macaroon String (Block 32)}
    (hmac : parseHandleV2 payload.primaryHandle = .ok mac)
    (hwrong : mac.verifySignature env.mac (env.rootKey mac.identifier) ≠ .ok ()) {s : Broker} {r : StoredEnvelopeRecord}
    (hr : s.records mac.identifier = some r) :
    (mintDischargeImpl env d now context payload s).2.records mac.identifier = some (accessed env d r) := by
  have hhandle : trim payload.primaryHandle ≠ "" := by
    intro hempty
    rw [parseHandleV2, hempty] at hmac
    cases hmac
  have htrimmed : parseHandleV2 (trim payload.primaryHandle) = .ok mac := (parseHandleV2_trim _).trans hmac
  rw [mintDischargeImpl, Eff.bind_of_ok (check_eq_ok.mpr ⟨hcaller, rfl⟩),
    Eff.bind_of_ok (check_eq_ok.mpr ⟨(Eff.rejectIf_eq_ok (u := ())).mpr hcaveat, rfl⟩),
    Eff.bind_of_ok (check_eq_ok.mpr ⟨(Eff.rejectIf_eq_ok (u := ())).mpr hhandle, rfl⟩),
    Eff.bind_of_ok (check_eq_ok.mpr ⟨htrimmed, rfl⟩), Eff.bind_snd]
  · exact loadRecord_touches hdisk hr
  · intro record
    refine Eff.keeps_lift_bind fun discharge hdischarge => ?_
    simp only [mintDischarge, Eff.except_bind_eq_ok, Eff.except_mapError_eq_ok] at hdischarge
    obtain ⟨_, hverified, -⟩ := hdischarge
    exact absurd hverified hwrong

/-- A request with a forged handle that loads first leaves a trace in the record, if there is one. -/
theorem Call.touches_of_forged {call : Call} {handle : String} (hcall : call.handle = some handle)
    (hforged : Forged env handle) (hfirst : call.LoadsFirst env) :
    ∃ d id, ∀ s r, s.records id = some r → (call.exec env s).2.records id = some (accessed env d r) := by
  have hreply : ∀ {α : Type} (f : α → Reply) (m : Eff Broker Failure α) (s : Broker),
    ((do return f (← m)) s).2 = (m s).2 :=
    fun f m s => Eff.bind_snd (fun a => Eff.keeps_pure (f a)) s
  cases call with
  | unwrap d context payload =>
      cases hcall
      obtain ⟨mac, hmac, -⟩ := id hforged
      refine ⟨d.load, mac.identifier, fun s r hr => ?_⟩
      rw [exec, hreply]
      exact unwrap_touches hfirst hmac hforged hr
  | mintDischarge d now context payload =>
      cases hcall
      obtain ⟨hcaller, hcaveat, hdisk⟩ := hfirst
      obtain ⟨mac, hmac, hwrong⟩ := hforged
      refine ⟨d, mac.identifier, fun s r hr => ?_⟩
      rw [exec, hreply]
      exact mintDischarge_touches hdisk hcaller hcaveat hmac hwrong hr
  | _ => exact hfirst.elim

/-- A handle without caveats and with a signature of ones, where every tag is blank. -/
def forgedMac : Macaroon String (Block 32) := ⟨.filled 1, [], ⟨List.replicate 32 1, List.length_replicate⟩⟩

theorem forgedMac_fits : forgedMac.Fits := ⟨by decide, List.forall_mem_nil _⟩

theorem forgedMac_forged : Forged plainEnv (handleV2 forgedMac) := by
  refine ⟨forgedMac, parseHandleV2_handleV2 forgedMac_fits, ?_⟩
  decide

def forgedPayload : UnwrapV2Request := ⟨handleV2 forgedMac, "", none, none, none, none, []⟩

def forgedUnwrap : UnwrapDraws := ⟨⟨.ok, ⟨60, 0⟩, ⟨60, 0⟩⟩, ⟨60, 0⟩, ⟨60, 0⟩, false, .ok⟩

def forgedRevoke : Call := .revoke ⟨⟨.ok, ⟨60, 0⟩, ⟨60, 0⟩⟩, ⟨60, 0⟩, .ok, ⟨60, 0⟩⟩ plainContext ⟨handleV2 forgedMac, none⟩

/-- **A forged handle reveals and changes nothing**, exactly in the handlers that check the signature before they
load: these end with one error, whatever the store holds, and leave it as it is. -/
theorem forged_refused_iff {call : Call} {handle : String} (hcall : call.handle = some handle)
    (hforged : Forged env handle) :
    (∃ e, ∀ s, (call.exec env s).1 = .error e ∧ (call.exec env s).2.records = s.records) ↔ ¬ call.LoadsFirst env := by
  constructor
  · rintro ⟨e, h⟩ hfirst
    -- a store in which the handle has a record that was never accessed
    obtain ⟨d, id, htouch⟩ := Call.touches_of_forged hcall hforged hfirst
    have hr : ({ Broker.empty with records := fun _ => some plainRecord } : Broker).records id = some plainRecord := rfl
    have hread := htouch _ _ hr
    rw [(h _).2, hr] at hread
    have haccess := congrArg StoredEnvelopeRecord.lastAccessed (Option.some.inj hread)
    cases haccess
  · intro hfirst
    obtain ⟨e, he⟩ := Call.refuses_of_forged hcall hforged hfirst
    refine ⟨e, fun s => ?_⟩
    rw [he s]
    exact ⟨rfl, rfl⟩

theorem forged_refused_iff_revoke :
    Forged plainEnv (handleV2 forgedMac) ∧
    ∃ e, ∀ s, (forgedRevoke.exec plainEnv s).1 = .error e ∧ (forgedRevoke.exec plainEnv s).2.records = s.records :=
  ⟨forgedMac_forged, (forged_refused_iff rfl forgedMac_forged).mpr id⟩

/-- An unwrap with a forged handle tells whether its record exists, and writes to it. -/
theorem forged_unwrap_reveals :
    Forged plainEnv (handleV2 forgedMac) ∧
    (unwrapSecretV2Impl plainEnv forgedUnwrap plainContext forgedPayload Broker.empty).1 =
      .error (.service .handleNotFound) ∧
    (unwrapSecretV2Impl plainEnv forgedUnwrap plainContext forgedPayload
        (Broker.empty.putRecord (.filled 1) (some plainRecord))).1 = .error (.service .invalidHandle) ∧
    (unwrapSecretV2Impl plainEnv forgedUnwrap plainContext forgedPayload
        (Broker.empty.putRecord (.filled 1) (some plainRecord))).2.records (.filled 1) =
      some { plainRecord with lastAccessed := some ⟨60, 0⟩ } := by
  have hmac : parseHandleV2 forgedPayload.handle = .ok forgedMac := parseHandleV2_handleV2 forgedMac_fits
  have hread : ∀ s : Broker, check (parseHandleV2 forgedPayload.handle) s = (.ok forgedMac, s) := fun s =>
    check_eq_ok.mpr ⟨hmac, rfl⟩
  refine ⟨forgedMac_forged, ?_, ?_, ?_⟩
  · rw [unwrapSecretV2Impl, Eff.bind_of_ok (hread _)]
    rfl
  · rw [unwrapSecretV2Impl, Eff.bind_of_ok (hread _)]
    rfl
  · rw [unwrapSecretV2Impl, Eff.bind_of_ok (hread _)]
    rfl

end SecretBroker
