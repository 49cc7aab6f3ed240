import SecretBroker.CompletenessCustody
import SecretBroker.SecurityTwins

/-! Who gets to see the shares in custody. Two brokers whose records differ in the shares that are held for one handle
answer every request alike, but for the claims of the custodians whose shares differ. Then what custody does not look at:
whether a record is still good when a share is claimed, and whether a share is the held one when it is acknowledged. -/

open Wire Register

namespace SecretBroker

/-- The same record, or the record of the one handle with other shares. -/
def ShareTwin (id : Uuid) (a b : Option (List HeldShare)) (i : Uuid) (r r' : StoredEnvelopeRecord) : Prop :=
  r' = r ∨ i = id ∧ r.heldShares = a ∧ r' = { r with heldShares := b }

theorem ShareTwin.exists_held {id : Uuid} {a b : Option (List HeldShare)} {i : Uuid} {r r' : StoredEnvelopeRecord}
    (h : ShareTwin id a b i r r') : ∃ held, r' = { r with heldShares := held } := by
  rcases h with rfl | ⟨-, -, rfl⟩
  · exact ⟨_, rfl⟩
  · exact ⟨_, rfl⟩

/-- Brokers that differ in the shares of one record. -/
def shareTwins (env : Env) (id : Uuid) (a b : Option (List HeldShare)) : RecordTwins env where
  Twin := ShareTwin id a b
  Pair _ _ := False
  refl _ _ := Or.inl rfl
  hidden := by
    rintro i r r' (rfl | ⟨-, -, rfl⟩)
    · exact ⟨_, _, _, rfl⟩
    · exact ⟨_, _, _, rfl⟩
  update := by
    rintro i r r' f (rfl | ⟨hi, ha, rfl⟩) hf
    · exact Or.inl rfl
    · have hself : f r = r.contents.put (f r) := hf r.contents r
      have hheld : (f r).heldShares = r.heldShares := congrArg (·.heldShares) hself
      refine Or.inr ⟨hi, hheld.trans ha, ?_⟩
      have hput : f { r with heldShares := b } =
          RecordContents.put ⟨r.envelope, r.signature, r.signingPublicKey, b⟩ (f r) :=
        hf ⟨r.envelope, r.signature, r.signingPublicKey, b⟩ r
      rw [hput, hself]
      rfl
  reload := by
    rintro i r r' (rfl | ⟨hi, ha, rfl⟩)
    · exact Or.inl rfl
    · exact Or.inr ⟨hi, ha, rfl⟩
  assign := by
    rintro i r r' assignments held (rfl | ⟨-, -, rfl⟩)
    · exact Or.inl rfl
    · exact Or.inl rfl

/-- The share with another value, if it has the index. -/
def HeldShare.withY (x : UInt8) (y : Bytes) (h : HeldShare) : HeldShare :=
  if h.x = x then { h with yB64 := Base64.standard.encode y } else h

theorem HeldShare.withY_x (x : UInt8) (y : Bytes) (h : HeldShare) : (h.withY x y).x = h.x := by
  unfold HeldShare.withY
  split_ifs
  · rfl
  · rfl

theorem find_withY (x i : UInt8) (y : Bytes) (held : List HeldShare) :
    ((held.map (HeldShare.withY x y)).find? fun h => h.x = i) =
      (held.find? fun h => h.x = i).map (HeldShare.withY x y) := by
  rw [List.find?_map]
  simp only [Function.comp_def, HeldShare.withY_x]

section

variable (env : Env) {id : Uuid} {x : UInt8} {y y' : Bytes} {held : List HeldShare}

/-- The entry of the log is the same. -/
def SameShown (result result' : ClaimResult) : Prop :=
  result'.x = result.x ∧ result'.previouslyClaimed = result.previouslyClaimed

/-- A claim is answered alike, up to the value of the one share. -/
theorem claim_alike (custodianId : String) {r : StoredEnvelopeRecord}
    (hr : r.heldShares = some (held.map (HeldShare.withY x y))) :
    Eff.Alike (fun p p' => p'.1 = { p.1 with heldShares := some (held.map (HeldShare.withY x y')) } ∧
        p.1.heldShares = some (held.map (HeldShare.withY x y)) ∧ (p'.2 = p.2 ∨ p.2.x = x ∧ SameShown p.2 p'.2))
      (SealedStore.claim custodianId r)
      (SealedStore.claim custodianId { r with heldShares := some (held.map (HeldShare.withY x y')) }) := by
  simp only [SealedStore.claim, hr, Eff.okOr_some, Eff.ok_bind]
  cases r.shareAssignments with
  | none => exact .error _
  | some assignments =>
      cases r.thresholdCommitments with
      | none => exact .error _
      | some commitments =>
          simp only [Eff.okOr_some, Eff.ok_bind, find_withY]
          cases assignments.find? fun a => a.custodianId = custodianId with
          | none => exact .error _
          | some assignment =>
              simp only [Eff.okOr_some, Eff.ok_bind]
              cases held.find? fun h => h.x = assignment.shareIndex with
              | none => exact .error _
              | some share =>
                  by_cases hx : share.x = x
                  · simp only [Option.map_some, Eff.okOr_some, Eff.ok_bind, HeldShare.withY, if_pos hx,
                      Base64.decode_encode Base64.standard_lawful]
                    exact .ok ⟨rfl, rfl, Or.inr ⟨hx, rfl, rfl⟩⟩
                  · simp only [Option.map_some, Eff.okOr_some, Eff.ok_bind, HeldShare.withY, if_neg hx]
                    cases Base64.standard.decode share.yB64 with
                    | none => exact .error _
                    | some value => exact .ok ⟨rfl, rfl, Or.inl rfl⟩

variable (id x y y' held) in
/-- Brokers that differ in the value of one held share. -/
def heldTwins : RecordTwins env :=
  shareTwins env id (some (held.map (HeldShare.withY x y))) (some (held.map (HeldShare.withY x y')))

theorem claim_twins {i : Uuid} {r r' : StoredEnvelopeRecord} (h : (heldTwins env id x y y' held).Twin i r r')
    (custodianId : String) :
    Eff.Alike (fun p p' => (heldTwins env id x y y' held).Twin i p.1 p'.1 ∧
        (p'.2 = p.2 ∨ (i = id ∧ p.2.x = x) ∧ SameShown p.2 p'.2))
      (SealedStore.claim custodianId r) (SealedStore.claim custodianId r') := by
  rcases h with rfl | ⟨hi, hr, rfl⟩
  · refine (Eff.alike_refl _).mono fun p p' hp => ?_
    subst hp
    exact ⟨Or.inl rfl, Or.inl rfl⟩
  · refine (claim_alike custodianId hr).mono fun p p' hp => ?_
    obtain ⟨hrecord, hheld, hresult⟩ := hp
    exact ⟨Or.inr ⟨hi, hheld, hrecord⟩, hresult.imp_right fun h => ⟨⟨hi, h.1⟩, h.2⟩⟩

/-- Presented shares are judged alike if they have neither value. -/
theorem custodyLoop_alike (assignments : List ShareAssignment) {pairs : List (String × Threshold.Share)}
    (hpairs : ∀ p ∈ pairs, p.2.y ≠ y ∧ p.2.y ≠ y') (seen : List UInt8) :
    custodyLoop env assignments (held.map (HeldShare.withY x y')) seen pairs =
      custodyLoop env assignments (held.map (HeldShare.withY x y)) seen pairs := by
  induction pairs generalizing seen with
  | nil => rfl
  | cons p rest ih =>
      obtain ⟨custodianId, share⟩ := p
      obtain ⟨⟨hy, hy'⟩, hrest⟩ := List.forall_mem_cons.mp hpairs
      simp only [custodyLoop, find_withY]
      refine bind_congr fun assignment => bind_congr fun _ => bind_congr fun _ => bind_congr fun _ => ?_
      cases held.find? fun h => h.x = assignment.shareIndex with
      | none => rfl
      | some h =>
          by_cases hx : h.x = x
          · simp only [Option.map_some, Eff.okOr_some, Eff.ok_bind, HeldShare.withY, if_pos hx,
              Base64.decode_encode Base64.standard_lawful, Eff.rejectIf, if_pos hy, if_pos hy']
            rfl
          · simp only [Option.map_some, Eff.okOr_some, Eff.ok_bind, HeldShare.withY, if_neg hx, ih hrest]

theorem validate_alike {req : CombineSharesRequest} (hreq : ∀ share ∈ req.shares, share.y ≠ y ∧ share.y ≠ y')
    {r : StoredEnvelopeRecord} (hr : r.heldShares = some (held.map (HeldShare.withY x y))) :
    validateCombineSharesCustody env { r with heldShares := some (held.map (HeldShare.withY x y')) } req =
      validateCombineSharesCustody env r req := by
  have hpairs : ∀ p ∈ req.custodianIds.zip req.shares, p.2.y ≠ y ∧ p.2.y ≠ y' := fun p hp =>
    hreq p.2 (List.of_mem_zip hp).2
  simp only [validateCombineSharesCustody, hr, Eff.okOr_some, Eff.ok_bind, custodyLoop_alike env _ hpairs]

end

/-- The broker with another value of the share that is held for an index. -/
def Broker.withHeld (s : Broker) (id : Uuid) (x : UInt8) (y : Bytes) : Broker :=
  s.putRecord id ((s.records id).map fun r => { r with heldShares := r.heldShares.map (List.map (HeldShare.withY x y)) })

/-- The reply gives away the share that is held for an index: its value can be read off the reply, whatever it is. -/
def Call.CopiesOut (env : Env) (call : Call) (s : Broker) (id : Uuid) (x : UInt8) : Prop :=
  ∃ read : Except Failure Reply → Option Bytes, ∀ y, read (call.exec env (s.withHeld id x y)).1 = some y

/-- The values of shares that a request brings along. -/
def Call.presented : Call → List Bytes
  | .combineShares _ _ _ req => req.shares.map Threshold.Share.y
  | _ => []

theorem withHeld_twin (env : Env) {s : Broker} {id : Uuid} {r : StoredEnvelopeRecord} (hr : s.records id = some r)
    {held : List HeldShare} (hheld : r.heldShares = some held) (x : UInt8) (y y' : Bytes) :
    (heldTwins env id x y y' held).Twins (s.withHeld id x y) (s.withHeld id x y') := by
  have hsame : (heldTwins env id x y y' held).Twins s s := RecordTwins.twins_refl fun _ _ h => False.elim h
  refine hsame.putRecord ?_
  rw [hr, Option.map_some, Option.map_some, hheld, Option.map_some, Option.map_some]
  exact .some (Or.inr ⟨rfl, rfl, rfl⟩)

/-- A reply is the same in both brokers, unless it is the answer to a claim of the one share. -/
def Call.SameReply (env : Env) (id : Uuid) (x : UInt8) (call : Call) (reply reply' : Reply) : Prop :=
  reply' = reply ∨ ∃ d claimDisk context req result, call = .claimShare d claimDisk context req ∧
    reply = .shareClaimed result ∧ parseHandleIdentifier env req.handle = .ok id ∧ result.x = x

/-- Only a claim gives different replies. -/
theorem Call.exec_coupled (env : Env) (call : Call) {id : Uuid} {x : UInt8} {y y' : Bytes} {held : List HeldShare}
    (hy : y ∉ call.presented) (hy' : y' ∉ call.presented) :
    Eff.Coupled (heldTwins env id x y y' held).Twins (call.SameReply env id x) (call.exec env) (call.exec env) := by
  have hunwrap : ∀ d context payload, Eff.Coupled (heldTwins env id x y y' held).Twins Eq
      (unwrapSecretV2Impl env d context payload) (unwrapSecretV2Impl env d context payload) := by
    intro d context payload
    refine Eff.coupled_mono (RecordTwins.unwrap_coupled (Q := fun _ => Eq) fun mac r r' kyberTree h _ => ?_) ?_
    · obtain ⟨held', rfl⟩ := ShareTwin.exists_held h
      exact Eff.alike_refl _
    · rintro _ _ ⟨_, _, _, -, rfl, rfl, rfl⟩
      rfl
  refine RecordTwins.exec_coupled (fun _ => Or.inl rfl) call (fun _ _ _ h => h) ?_ ?_ ?_
  · rintro d context payload rfl
    exact Eff.coupled_mono (hunwrap d context payload) fun _ _ h => Or.inl (by rw [h])
  · rintro load d context req rfl
    have hreq : ∀ share ∈ req.shares, share.y ≠ y ∧ share.y ≠ y' := by
      intro share hshare
      refine ⟨fun h => hy ?_, fun h => hy' ?_⟩
      · exact List.mem_map.mpr ⟨share, hshare, h⟩
      · exact List.mem_map.mpr ⟨share, hshare, h⟩
    refine Eff.coupled_mono (RecordTwins.combineShares_coupled (P := Eq) (fun i r r' h => ?_)
      (fun payload _ => hunwrap d context payload) fun x x' h => Or.inl h.symm) ?_
    · rcases h with rfl | ⟨-, hr, rfl⟩
      · rfl
      · exact validate_alike env hreq hr
    · rintro ⟨p⟩ ⟨p'⟩ (h | h)
      · exact Or.inl (by rw [h])
      · exact Or.inl (by rw [show p = p' from h])
  · rintro d claimDisk context req rfl
    refine Eff.coupled_mono (RecordTwins.claimShare_coupled
      (Q := fun i p p' => p' = p ∨ (i = id ∧ p.x = x) ∧ SameShown p p')
      (fun i r r' h => claim_twins env h req.custodianId) ?_) ?_
    · rintro i p p' (rfl | ⟨-, h⟩)
      · exact ⟨rfl, rfl⟩
      · exact h
    · rintro p p' ⟨i, hparse, rfl | ⟨⟨rfl, hx⟩, -⟩⟩
      · exact Or.inl rfl
      · exact Or.inr ⟨d, claimDisk, context, req, p, rfl, rfl, hparse, hx⟩

/-- Two values that are not in a list. -/
theorem exists_two_notMem (l : List Bytes) : ∃ y y', y ≠ y' ∧ y ∉ l ∧ y' ∉ l := by
  obtain ⟨y, hy⟩ := Infinite.exists_notMem_finset l.toFinset
  obtain ⟨y', hy'⟩ := Infinite.exists_notMem_finset (insert y l.toFinset)
  rw [Finset.mem_insert, not_or] at hy'
  exact ⟨y, y', Ne.symm hy'.1, fun h => hy (List.mem_toFinset.mpr h), fun h => hy'.2 (List.mem_toFinset.mpr h)⟩

/-- A reply that gives a held share away answers a claim of its index on its handle. -/
theorem Call.CopiesOut.claims {env : Env} {call : Call} {s : Broker} {id : Uuid} {x : UInt8}
    (h : call.CopiesOut env s id x) (hheld : ∀ r, s.records id = some r → ∃ held, r.heldShares = some held) :
    ∃ d claimDisk context req y result s', call = .claimShare d claimDisk context req ∧
      claimShareImpl env d claimDisk context req (s.withHeld id x y) = (.ok result, s') ∧
      parseHandleIdentifier env req.handle = .ok id ∧ result.x = x := by
  obtain ⟨read, hread⟩ := h
  obtain ⟨y, y', hne, hy, hy'⟩ := exists_two_notMem call.presented
  have hdiffer : (call.exec env (s.withHeld id x y')).1 ≠ (call.exec env (s.withHeld id x y)).1 := by
    intro heq
    have hsame := hread y'
    rw [heq, hread y, Option.some.injEq] at hsame
    exact hne hsame
  cases hr : s.records id with
  | none =>
      -- nothing is held, so the broker stays the same
      have hself : ∀ z, s.withHeld id x z = s := by
        intro z
        rw [Broker.withHeld, hr, Option.map_none, ← hr, Broker.putRecord_records]
      rw [hself, hself] at hdiffer
      exact absurd rfl hdiffer
  | some r =>
      obtain ⟨held, hheld⟩ := hheld r hr
      obtain ⟨halike, -⟩ := call.exec_coupled env hy hy' _ _ (withHeld_twin env hr hheld x y y')
      rcases hexec : call.exec env (s.withHeld id x y) with ⟨reply, s'⟩
      rw [hexec] at halike hdiffer
      generalize (call.exec env (s.withHeld id x y')).1 = reply' at halike hdiffer
      cases halike with
      | error e => exact absurd rfl hdiffer
      | ok h =>
          rcases h with rfl | ⟨d, claimDisk, context, req, result, rfl, rfl, hparse, hx⟩
          · exact absurd rfl hdiffer
          · obtain ⟨result', s₁, hclaim, hreply⟩ := Eff.bind_eq_ok.mp hexec
            obtain ⟨hresult, rfl⟩ := Eff.pure_eq_ok.mp hreply
            cases hresult
            exact ⟨d, claimDisk, context, req, y, result, s', rfl, hclaim, hparse, hx⟩

section

variable {env : Env} {d : MintDraws} {context : BrokerClientContext} {request : MintV2Request}
  {response : MintV2Response} {s s₁ : Broker}

/-- Whoever claims an index successfully is the custodian to whom it is assigned. -/
theorem claimant_assigned {c : Custody} {id : Uuid} (hholds : ∀ r, s.records id = some r → c.Holds r)
    {x : UInt8} {y : Bytes} {l : LoadDraws} {claimDisk : Disk} {context : BrokerClientContext} {req : ClaimShareRequest}
    {result : ClaimResult} {s' : Broker} (hparse : parseHandleIdentifier env req.handle = .ok id)
    (hclaim : claimShareImpl env l claimDisk context req (s.withHeld id x y) = (.ok result, s')) :
    context.authenticatedTransport = true ∧ normalizedContextPrincipal context = some req.custodianId ∧
      ∃ share, c.share req.custodianId = some share ∧ result.x = share.x := by
  obtain ⟨hcaller, -, -, id', r₁, r', hparse', hr₁, hvalid, hmarked, -⟩ := claimShare_eq_ok.mp hclaim
  rw [hparse] at hparse'
  cases hparse'
  rw [Broker.withHeld, Broker.putRecord_records_self] at hr₁
  obtain ⟨r, hr, rfl⟩ := Option.map_eq_some_iff.mp hr₁
  refine ⟨?_, ?_, ?_⟩
  · simp only [validateThresholdCustodyRecordRequirements, Eff.except_bind_eq_ok, Eff.rejectIf_eq_ok,
      Bool.not_eq_false] at hvalid
    obtain ⟨-, htransport, -⟩ := hvalid
    exact htransport
  · simp only [checkCustodian, Eff.except_bind_eq_ok, Eff.rejectIf_eq_ok, Eff.okOr_eq_ok, not_not] at hcaller
    obtain ⟨-, -, -, -, _, hprincipal, rfl⟩ := hcaller
    exact hprincipal
  · obtain ⟨assignments, held, _, a, share, _, hassignments, -, -, ha, hshare, -, -, rfl⟩ :=
      SealedStore.claim_eq_ok.mp hmarked
    have hindex := (hholds r hr).find_assignment hassignments req.custodianId
    rw [ha, Option.map_some] at hindex
    obtain ⟨share', hshare', hx⟩ := Option.map_eq_some_iff.mp hindex.symm
    have hfound : share.x = a.shareIndex := by simpa using List.find?_some hshare
    exact ⟨share', hshare', hfound.trans hx.symm⟩

/-- The claim of a genuine caller with a clean name does give away the share of the custodian. -/
theorem claim_copiesOut {c : Custody} {i : Issuance} {handle : String} {r : StoredEnvelopeRecord} {claimant : Claimant}
    (h : claimant.Genuine i) (hclean : CleanName claimant.custodianId) (hcert : i.context.peerCertSha256.isSome = true)
    (hhandle : parseHandleIdentifier env handle = .ok i.handleId) (hr : s.records i.handleId = some r) (hholds : c.Holds r)
    (hissued : IssuedBy i r) {share : Threshold.Share} (hshare : c.share claimant.custodianId = some share) :
    (claimant.call handle).CopiesOut env s i.handleId share.x := by
  refine ⟨fun | .ok (.shareClaimed result) => some result.y | _ => none, fun y => ?_⟩
  obtain ⟨assignments, hassignments, -⟩ := hholds.assignments
  have hindex := hholds.find_assignment hassignments claimant.custodianId
  rw [hshare, Option.map_some] at hindex
  obtain ⟨a, ha, hx⟩ := Option.map_eq_some_iff.mp hindex
  have hfound : (((holdShares c.split).map (HeldShare.withY share.x y)).find? fun held => held.x = a.shareIndex) =
      some ⟨share.x, Base64.standard.encode y⟩ := by
    rw [hx, find_withY, Custody.find_held (Custody.share_mem_shares hshare), Option.map_some, HeldShare.withY, if_pos rfl]
  have hrecord : (s.withHeld i.handleId share.x y).records i.handleId =
      some { r with heldShares := some ((holdShares c.split).map (HeldShare.withY share.x y)) } := by
    rw [Broker.withHeld, Broker.putRecord_records_self, hr, Option.map_some, hholds.held, Option.map_some]
  have hclaim : ∃ r', SealedStore.claim claimant.custodianId (env.serde.reload (accessed env claimant.load
      { r with heldShares := some ((holdShares c.split).map (HeldShare.withY share.x y)) })) =
      .ok (r', ⟨share.x, y, (encodedCommitments c.split).map fun c => (Base64.standard.decode c).getD [], a.claimed⟩) :=
    ⟨_, SealedStore.claim_eq_ok.mpr ⟨assignments, _, _, a, _, y, hassignments, rfl, hholds.commitments, ha, hfound,
      Base64.decode_encode Base64.standard_lawful y, rfl, rfl⟩⟩
  obtain ⟨r', hclaim⟩ := hclaim
  have hload : RecordSteps env.serde r (accessed env claimant.load r) := .single (.load r claimant.load.accessedAt)
  have hvalid := (h.custody_eq_ok_iff hclean (hissued.advances hload.evolves.toAdvances)).mpr ⟨hcert, h.toShows⟩
  have hcaller := (h.checkCustodian_eq_ok_iff (ne_empty_of_parse hhandle) "claim_share").mpr hclean
  have hok : ∃ result s', claimShareImpl env claimant.load claimant.claimDisk claimant.context
    ⟨handle, claimant.custodianId⟩
      (s.withHeld i.handleId share.x y) = (.ok result, s') ∧ result.y = y :=
    ⟨_, _, claimShare_eq_ok.mpr ⟨hcaller, h.loads, h.claims, i.handleId, _, r', hhandle, hrecord, hvalid,
      hclaim, rfl⟩, rfl⟩
  obtain ⟨result, s', hok, hy⟩ := hok
  rw [Claimant.call, Call.exec, Eff.bind_of_ok hok]
  exact congrArg some hy

/-- **Only the assigned custodian learns a share.** The response of a mint for custodians has neither a share nor a
token. Afterwards the shares and their assignments stay as they are, up to the marks of claims, and every reply that
gives a held share away answers the claim of an authenticated caller whose principal is the custodian that was assigned
its index. -/
theorem share_confined (hmint : mintAeadKeyV2Impl env d context request s = (.ok response, s₁))
    (hthreshold : request.threshold.getD 1 > 1) (hcustodians : request.custodianIds ≠ []) :
    (∃ expiresAt ttl redeemExpiresAt, enforceTtl env request.ttlSeconds d.createdAt = .ok (expiresAt, ttl) ∧
      d.createdAt.addSeconds env.broker.redeemTokenTtl = some redeemExpiresAt ∧
      response = ⟨env.mintHandle d.persist.handleId (mintCaveats request expiresAt), Base64.standard.encode d.keyBytes.val,
        expiresAt, "", some redeemExpiresAt⟩) ∧
    ∃ r₁ assignments, s₁.records d.persist.handleId = some r₁ ∧ r₁.shareAssignments = some assignments ∧
      ∀ later, d.persist.handleId ∉ later.flatMap Call.uuids →
        OnRecord (SharesKept r₁) ((s₁.after env later).records d.persist.handleId) ∧
        ∀ call x, Call.CopiesOut env call (s₁.after env later) d.persist.handleId x →
          ∃ l claimDisk caller req custodianId, call = .claimShare l claimDisk caller req ∧
            caller.authenticatedTransport = true ∧ normalizedContextPrincipal caller = some custodianId ∧
            ⟨custodianId, x, false⟩ ∈ assignments := by
  obtain ⟨c, r₁, hminted, hr₁, htoken⟩ := mint_custody hmint hthreshold hcustodians
  obtain ⟨expiresAt, ttl, redeemExpiresAt, httl, hredeem, hresponse⟩ := mint_response hmint
  rw [htoken] at hresponse
  refine ⟨⟨expiresAt, ttl, redeemExpiresAt, httl, hredeem, hresponse⟩, r₁, _, hr₁, hminted.assignments,
    fun later hlater => ?_⟩
  have hsteps : ∀ r, (s₁.after env later).records d.persist.handleId = some r → RecordSteps env.serde r₁ r := by
    intro r hr
    obtain ⟨r₁', hr₁', hsteps⟩ := (after_steps env later s₁).follows hlater r hr
    rw [hr₁] at hr₁'
    cases hr₁'
    exact hsteps
  refine ⟨fun r hr => (hsteps r hr).sharesKept, fun call x hcopies => ?_⟩
  obtain ⟨l, claimDisk, caller, req, y, result, s', rfl, hclaim, hparse, rfl⟩ := hcopies.claims fun r hr =>
    ⟨_, (hminted.holds.steps (hsteps r hr)).held⟩
  obtain ⟨htransport, hprincipal, share, hshare, hx⟩ :=
    claimant_assigned (fun r hr => hminted.holds.steps (hsteps r hr)) hparse hclaim
  refine ⟨l, claimDisk, caller, req, req.custodianId, rfl, htransport, hprincipal, ?_⟩
  rw [assignShares_eq_map, hx, ← hminted.custodianIds]
  exact List.mem_map.mpr ⟨_, Custody.share_mem hshare, rfl⟩

end

/-- In the mint for two custodians, the claim of one gives away its share, and the caller is the custodian it was
assigned to. -/
theorem share_confined_two : ∃ response s₁ assignments,
    mintAeadKeyV2Impl (plainWith plainSerde) plainMintDraws plainContext (plainMintRequest ["alice", "bob"]) Broker.empty =
      (.ok response, s₁) ∧
    ((Claimant.named ⟨.filled 1, plainContext, .serviceBootstrap, none⟩ "bob").call response.handle).CopiesOut
      (plainWith plainSerde) s₁ (.filled 1) 2 ∧
    ⟨"bob", 2, false⟩ ∈ assignments ∧ ∃ r₁, s₁.records (.filled 1) = some r₁ ∧ r₁.shareAssignments = some assignments := by
  obtain ⟨response, s₁, c, r, hmint, hminted, hr, hshares, hparse⟩ :=
    plain_custody plainSerde (rfl : ["alice", "bob"].length = 2)
  have hbob : c.share "bob" = some ⟨2, (blank 32).val⟩ := by
    rw [Custody.share, hminted.custodianIds, hshares]
    rfl
  have hcopies := claim_copiesOut (Claimant.named_genuine ⟨.filled 1, plainContext, .serviceBootstrap, none⟩ "bob")
    (plain_clean "bob" (by decide)) rfl hparse hr hminted.holds hminted.issuedBy hbob
  obtain ⟨-, r₁, assignments, hr₁, hassignments, hlater⟩ := share_confined hmint (by decide) (by decide)
  obtain ⟨_, _, caller, _, custodianId, hcall, -, hprincipal, hmem⟩ := (hlater [] (by decide)).2 _ 2 hcopies
  cases hcall
  rw [normalizedContextPrincipal, Claimant.named, Option.bind_some,
    normalizeOptionalString_of_clean (plain_clean "bob" (by decide)), Option.some.injEq] at hprincipal
  subst hprincipal
  exact ⟨response, s₁, assignments, hmint, hcopies, hmem, r₁, hr₁, hassignments⟩

/-! ### Claims on a record that is no longer good -/

/-- What a claim is checked for: the caller is the custodian, the custodian is listed, the lineage is that of the
record, and the disk works. -/
structure ClaimAccepted (custodianIds : List String) (r : StoredEnvelopeRecord) (l : LoadDraws) (claimDisk : Disk)
    (caller : BrokerClientContext) (req : ClaimShareRequest) : Prop where
  custodian : checkCustodian caller req.handle req.custodianId "claim_share" = .ok ()
  listed : req.custodianId ∈ custodianIds
  lineage : validateThresholdCustodyRecordRequirements r caller = .ok ()
  loads : l.disk = .ok
  claims : claimDisk = .ok

/-- On a record in custody, the claims that are accepted are those that pass these checks. -/
theorem Custody.Holds.claimShare_ok_iff {env : Env} {c : Custody} {id : Uuid} {r : StoredEnvelopeRecord}
    (hholds : c.Holds r) {s : Broker} (hr : s.records id = some r) {l : LoadDraws} {claimDisk : Disk}
    {caller : BrokerClientContext} {req : ClaimShareRequest} (hhandle : parseHandleIdentifier env req.handle = .ok id) :
    (∃ result s', claimShareImpl env l claimDisk caller req s = (.ok result, s')) ↔
      ClaimAccepted c.custodianIds r l claimDisk caller req := by
  have hreload : c.Holds (env.serde.reload (accessed env l r)) :=
    ⟨hholds.threshold, hholds.commitments, hholds.held, hholds.assignments⟩
  constructor
  · rintro ⟨result, s', hclaim⟩
    obtain ⟨hcaller, hload, hdisk, id', r₁, r', hhandle', hr₁, hvalid, hmarked, -⟩ := claimShare_eq_ok.mp hclaim
    rw [hhandle] at hhandle'
    cases hhandle'
    rw [hr] at hr₁
    cases hr₁
    obtain ⟨share, hshare, -⟩ := hreload.claim_eq_ok hmarked
    exact ⟨hcaller, exists_share_iff.mp ⟨share, hshare⟩, hvalid, hload, hdisk⟩
  · intro h
    obtain ⟨share, hshare⟩ := exists_share_iff.mpr h.listed
    obtain ⟨⟨r', result⟩, hmarked⟩ := hreload.exists_claim hshare
    exact ⟨result, _, claimShare_eq_ok.mpr ⟨h.custodian, h.loads, h.claims, id, r, r', hhandle, hr, h.lineage,
      hmarked, rfl⟩⟩

/-- Whoever may manage a record can revoke it. -/
theorem revokeSecret_ok {env : Env} {d : RevokeDraws} {context : BrokerClientContext} {payload : RevokeSecretRequest}
    {id : Uuid} {r : StoredEnvelopeRecord} {s : Broker} (hhandle : parseHandleIdentifier env payload.handle = .ok id)
    (hload : d.load.disk = .ok) (hdisk : d.revokeDisk = .ok) (hr : s.records id = some r)
    (hvalid : validateV2RecordManagementRequirements (accessed env d.load r) context = .ok ()) :
    ∃ s' r', revokeSecretImpl env d context payload s = (.ok ⟨true, some d.now⟩, s') ∧ s'.records id = some r' ∧
      r'.revoked = true := by
  -- the revocation reads the record as the load has written it
  have hrevoke : ∃ s₁ r', perform d.revokeDisk id (SealedStore.revoke env.serde payload.reason d.storeNow)
      (s.putRecord id (some (accessed env d.load r))) = (.ok true, s₁) ∧ s₁.records id = some r' ∧ r'.revoked = true := by
    simp only [perform_eq_ok, Broker.putRecord_records_self]
    exact ⟨_, _, ⟨hdisk, rfl, rfl⟩, Broker.putRecord_records_self _ _ _, rfl⟩
  obtain ⟨s₁, r', hperform, hr', hrevoked⟩ := hrevoke
  refine ⟨s₁.recorded env (transparencyEvent env .revoke "revoked" payload.handle none
    (some (accessed env d.load r).envelope.customerId) context d.load.loggedAt
    (revokeMeta env d context payload (accessed env d.load r))), r', ?_, ?_, hrevoked⟩
  · simp only [revokeSecretImpl, Eff.bind_eq_ok, check_eq_ok, loadRecord_eq_ok, Eff.mapError_eq_ok]
    exact ⟨id, s, ⟨hhandle, rfl⟩, _, _, ⟨hload, r, hr, rfl, rfl⟩, (), _, ⟨hvalid, rfl⟩, true, s₁, hperform, rfl⟩
  · rw [Broker.recorded_records, hr']

/-- The revocation of a handle by the caller who had it minted. -/
def plainRevoke (handle : String) : Call :=
  .revoke ⟨⟨.ok, ⟨0, 0⟩, ⟨0, 0⟩⟩, ⟨0, 0⟩, .ok, ⟨0, 0⟩⟩ plainContext ⟨handle, some "compromised"⟩

/-- The issuer revokes what was minted for two custodians. -/
theorem plain_revoked : ∃ response s₁ s₂ r, ∃ c : Custody,
    mintAeadKeyV2Impl (plainWith plainSerde) plainMintDraws plainContext (plainMintRequest ["alice", "bob"]) Broker.empty =
      (.ok response, s₁) ∧
    parseHandleIdentifier (plainWith plainSerde) response.handle = .ok (.filled 1) ∧
    s₁.after (plainWith plainSerde) [plainRevoke response.handle] = s₂ ∧ s₂.records (.filled 1) = some r ∧
    r.revoked = true ∧ c.custodianIds = ["alice", "bob"] ∧ c.Holds r ∧
    IssuedBy ⟨.filled 1, plainContext, .serviceBootstrap, none⟩ r := by
  obtain ⟨response, s₁, c, r, hmint, hminted, hr, -, hparse⟩ :=
    plain_custody plainSerde (rfl : ["alice", "bob"].length = 2)
  have hload : RecordSteps plainSerde r (accessed (plainWith plainSerde) ⟨.ok, ⟨0, 0⟩, ⟨0, 0⟩⟩ r) :=
    .single (.load r ⟨0, 0⟩)
  have hidentity := (plain_admitted (.filled 1) .serviceBootstrap).identity
    (hminted.issuedBy.advances hload.evolves.toAdvances)
  have hvalid := management_of_identity hidentity
  have hrevoke : ∃ s₂ r', revokeSecretImpl (plainWith plainSerde) ⟨⟨.ok, ⟨0, 0⟩, ⟨0, 0⟩⟩, ⟨0, 0⟩, .ok, ⟨0, 0⟩⟩ plainContext
      ⟨response.handle, some "compromised"⟩ s₁ = (.ok ⟨true, some ⟨0, 0⟩⟩, s₂) ∧ s₂.records (.filled 1) = some r' ∧
      r'.revoked = true := revokeSecret_ok hparse rfl rfl hr hvalid
  obtain ⟨s₂, r', hrevoke, hr', hrevoked⟩ := hrevoke
  have hafter : s₁.after (plainWith plainSerde) [plainRevoke response.handle] = s₂ := by
    rw [Broker.after_cons, Broker.after_nil, plainRevoke, Call.exec, Eff.bind_of_ok hrevoke]
    rfl
  have hsteps : RecordSteps plainSerde r r' := by
    obtain ⟨r₁, hr₁, hsteps⟩ := (after_steps (plainWith plainSerde) [plainRevoke response.handle] s₁).follows
      (show Uuid.filled 1 ∉ [] by decide) r' (by rw [hafter, hr'])
    rw [hr] at hr₁
    cases hr₁
    exact hsteps
  exact ⟨response, s₁, s₂, r', c, hmint, hparse, hafter, hr', hrevoked, hminted.custodianIds, hminted.holds.steps hsteps,
    hminted.issuedBy.advances hsteps.evolves.toAdvances⟩

/-- **Revocation and expiry cut off the shares** exactly for the claims that are refused anyway: whether the record is
revoked or expired is not looked at. -/
theorem claim_cut_off_iff {env : Env} {d : MintDraws} {context : BrokerClientContext} {request : MintV2Request}
    {response : MintV2Response} {s s₁ : Broker} (hmint : mintAeadKeyV2Impl env d context request s = (.ok response, s₁))
    (hthreshold : request.threshold.getD 1 > 1) (hcustodians : request.custodianIds ≠ []) {later : List Call}
    (hlater : d.persist.handleId ∉ later.flatMap Call.uuids) {r : StoredEnvelopeRecord}
    (hr : (s₁.after env later).records d.persist.handleId = some r) (now : DateTime) {l : LoadDraws} {claimDisk : Disk}
    {caller : BrokerClientContext} {req : ClaimShareRequest}
    (hhandle : parseHandleIdentifier env req.handle = .ok d.persist.handleId) :
    (r.revoked = true ∨ r.isExpired now = true →
        ∀ result s', claimShareImpl env l claimDisk caller req (s₁.after env later) ≠ (.ok result, s')) ↔
      ¬ ((r.revoked = true ∨ r.isExpired now = true) ∧ ClaimAccepted request.custodianIds r l claimDisk caller req) := by
  obtain ⟨c, r₁, hminted, hr₁, -⟩ := mint_custody hmint hthreshold hcustodians
  obtain ⟨r₁', hr₁', hsteps⟩ := (after_steps env later s₁).follows hlater r hr
  rw [hr₁] at hr₁'
  cases hr₁'
  have haccepted : (∃ result s', claimShareImpl env l claimDisk caller req (s₁.after env later) = (.ok result, s')) ↔
      ClaimAccepted c.custodianIds r l claimDisk caller req :=
    (hminted.holds.steps hsteps).claimShare_ok_iff hr hhandle
  rw [hminted.custodianIds] at haccepted
  rw [← haccepted, not_and, not_exists]
  simp only [not_exists, ne_eq]

/-- After the revocation, whoever is not a custodian is refused. -/
theorem claim_cut_off_iff_carol : ∃ response s₁ r,
    mintAeadKeyV2Impl (plainWith plainSerde) plainMintDraws plainContext (plainMintRequest ["alice", "bob"]) Broker.empty =
      (.ok response, s₁) ∧
    (s₁.after (plainWith plainSerde) [plainRevoke response.handle]).records (.filled 1) = some r ∧ r.revoked = true ∧
    ∀ caller result s', claimShareImpl (plainWith plainSerde) ⟨.ok, ⟨0, 0⟩, ⟨0, 0⟩⟩ .ok caller ⟨response.handle, "carol"⟩
      (s₁.after (plainWith plainSerde) [plainRevoke response.handle]) ≠ (.ok result, s') := by
  obtain ⟨response, s₁, s₂, r, c, hmint, hparse, hafter, hr, hrevoked, -⟩ := plain_revoked
  have hrecord : (s₁.after (plainWith plainSerde) [plainRevoke response.handle]).records plainMintDraws.persist.handleId =
      some r := by
    rw [hafter]
    exact hr
  have hfresh : plainMintDraws.persist.handleId ∉ [plainRevoke response.handle].flatMap Call.uuids :=
    show Uuid.filled 1 ∉ [] by decide
  have hhandle : parseHandleIdentifier (plainWith plainSerde) (ClaimShareRequest.mk response.handle "carol").handle =
      .ok plainMintDraws.persist.handleId := hparse
  refine ⟨response, s₁, r, hmint, hafter ▸ hr, hrevoked, fun caller => ?_⟩
  refine (claim_cut_off_iff hmint (by decide) (by decide) hfresh hrecord ⟨0, 0⟩ hhandle).mpr ?_ (.inl hrevoked)
  rintro ⟨-, haccepted⟩
  exact absurd haccepted.listed (show "carol" ∉ ["alice", "bob"] by decide)

/-- After the revocation, a custodian still gets the share. -/
theorem claim_after_revocation : ∃ response s₁ r result s',
    mintAeadKeyV2Impl (plainWith plainSerde) plainMintDraws plainContext (plainMintRequest ["alice", "bob"]) Broker.empty =
      (.ok response, s₁) ∧
    (s₁.after (plainWith plainSerde) [plainRevoke response.handle]).records (.filled 1) = some r ∧ r.revoked = true ∧
    claimShareImpl (plainWith plainSerde) ⟨.ok, ⟨0, 0⟩, ⟨0, 0⟩⟩ .ok
      (Claimant.named ⟨.filled 1, plainContext, .serviceBootstrap, none⟩ "bob").context ⟨response.handle, "bob"⟩
      (s₁.after (plainWith plainSerde) [plainRevoke response.handle]) = (.ok result, s') := by
  obtain ⟨response, s₁, s₂, r, c, hmint, hparse, hafter, hr, hrevoked, hcustodians, hholds, hissued⟩ := plain_revoked
  have hlisted : "bob" ∈ c.custodianIds := by
    rw [hcustodians]
    decide
  obtain ⟨result, s', -, hclaim, -⟩ :=
    (Claimant.named_genuine ⟨.filled 1, plainContext, .serviceBootstrap, none⟩ "bob").claim_ok
    (plain_clean "bob" (by decide)) hlisted rfl hparse (ne_empty_of_parse hparse) hr hholds hissued
  exact ⟨response, s₁, r, result, s', hmint, hafter ▸ hr, hrevoked, hafter ▸ hclaim⟩

section

variable {env : Env} {s : Broker} {d : LoadDraws} {context : BrokerClientContext} {req : DistributeShareRequest}

/-- The store holds the submitted share for the custodian. -/
def DistributeShareRequest.Possessed (env : Env) (s : Broker) (req : DistributeShareRequest) : Prop :=
  ∃ id r assignments held, parseHandleIdentifier env req.handle = .ok id ∧ s.records id = some r ∧
    r.shareAssignments = some assignments ∧ r.heldShares = some held ∧
    (∃ claimed, ⟨req.custodianId, req.shareIndex.toUInt8, claimed⟩ ∈ assignments) ∧
    ∃ yB64, ⟨req.shareIndex.toUInt8, yB64⟩ ∈ held ∧ Base64.standard.decode yB64 = some req.share.y

/-- What an acknowledgment is given for: the custodian, the lineage if there is a record, and an index that occurs
twice in the request. -/
structure DistributeShareRequest.Acceptable (env : Env) (s : Broker) (d : LoadDraws) (context : BrokerClientContext)
    (req : DistributeShareRequest) : Prop where
  custodian : checkCustodian context req.handle req.custodianId "distribute_share" = .ok ()
  index : ¬ (req.shareIndex = 0 ∨ req.shareIndex > 255)
  loads : d.disk = .ok
  lineage : ∃ id, parseHandleIdentifier env req.handle = .ok id ∧
    ∀ r, s.records id = some r → validateThresholdCustodyRecordRequirements r context = .ok ()
  point : req.share.x = req.shareIndex.toUInt8

theorem distributeShare_ok_iff :
    (∃ response s', distributeShareImpl env d context req s = (.ok response, s') ∧ response.accepted = true) ↔
      req.Acceptable env s d context := by
  simp only [distributeShareImpl, Eff.bind_eq_ok, Eff.lift_eq_ok, Eff.except_mapError_eq_ok, Eff.mapError_eq_ok,
    check_eq_ok, Eff.rejectIf_eq_ok, loadChecked_eq_ok, Eff.pure_eq_ok, not_not]
  constructor
  · rintro ⟨_, _, ⟨_, _, ⟨hcustodian, rfl⟩, _, _, ⟨hindex, rfl⟩, id, _, ⟨hid, rfl⟩, _, _, ⟨hload, hvalid, rfl⟩, _, _,
      ⟨hpoint, rfl⟩, -⟩, -⟩
    exact ⟨hcustodian, hindex, hload, ⟨id, hid, hvalid⟩, hpoint⟩
  · rintro ⟨hcustodian, hindex, hload, ⟨id, hid, hvalid⟩, hpoint⟩
    exact ⟨_, _, ⟨(), s, ⟨hcustodian, rfl⟩, (), s, ⟨hindex, rfl⟩, id, s, ⟨hid, rfl⟩, (), _, ⟨hload, hvalid, rfl⟩, (), _,
      ⟨hpoint, rfl⟩, (), _, rfl, rfl, rfl⟩, rfl⟩

/-- **An acknowledgment proves possession** exactly where nothing is acceptable but a share that the store holds: the
value of the share is not compared with anything, and a handle without a record will do. -/
theorem acknowledgment_proves_iff :
    (∀ response s', distributeShareImpl env d context req s = (.ok response, s') → response.accepted = true →
        req.Possessed env s) ↔
      (req.Acceptable env s d context → req.Possessed env s) := by
  rw [← distributeShare_ok_iff]
  constructor
  · rintro h ⟨response, s', hok, haccepted⟩
    exact h response s' hok haccepted
  · intro h response s' hok haccepted
    exact h ⟨response, s', hok, haccepted⟩

end

/-- The first custodian of the minted secret acknowledges a share that is not the one held for it. -/
theorem acknowledgment_of_other_share : ∃ response s₁ ack s',
    mintAeadKeyV2Impl (plainWith plainSerde) plainMintDraws plainContext (plainMintRequest ["alice", "bob"]) Broker.empty =
      (.ok response, s₁) ∧
    distributeShareImpl (plainWith plainSerde) ⟨.ok, ⟨0, 0⟩, ⟨0, 0⟩⟩
      (Claimant.named ⟨.filled 1, plainContext, .serviceBootstrap, none⟩ "alice").context
      ⟨response.handle, 1, ⟨1, [9]⟩, "alice"⟩ s₁ = (.ok ack, s') ∧ ack.accepted = true ∧
    ¬ DistributeShareRequest.Possessed (plainWith plainSerde) s₁ ⟨response.handle, 1, ⟨1, [9]⟩, "alice"⟩ := by
  obtain ⟨response, s₁, c, r, hmint, hminted, hr, hshares, hparse⟩ :=
    plain_custody plainSerde (rfl : ["alice", "bob"].length = 2)
  have hgenuine := Claimant.named_genuine ⟨.filled 1, plainContext, .serviceBootstrap, none⟩ "alice"
  have hclean : CleanName "alice" := plain_clean "alice" (by decide)
  have hacceptable : DistributeShareRequest.Acceptable (plainWith plainSerde) s₁ ⟨.ok, ⟨0, 0⟩, ⟨0, 0⟩⟩
      (Claimant.named ⟨.filled 1, plainContext, .serviceBootstrap, none⟩ "alice").context
      ⟨response.handle, 1, ⟨1, [9]⟩, "alice"⟩ := by
    refine ⟨(hgenuine.checkCustodian_eq_ok_iff (ne_empty_of_parse hparse) "distribute_share").mpr hclean,
      show ¬ ((1 : UInt32) = 0 ∨ (1 : UInt32) > 255) by decide, rfl, ⟨.filled 1, hparse, fun r₁ hr₁ => ?_⟩, rfl⟩
    rw [hr] at hr₁
    cases hr₁
    exact (hgenuine.custody_eq_ok_iff hclean hminted.issuedBy).mpr ⟨rfl, hgenuine.toShows⟩
  obtain ⟨ack, s', hok, haccepted⟩ := distributeShare_ok_iff.mpr hacceptable
  refine ⟨response, s₁, ack, s', hmint, hok, haccepted, ?_⟩
  rintro ⟨id, r₁, assignments, held, hid, hr₁, -, hheld, -, yB64, hmem, hdecode⟩
  rw [hparse] at hid
  cases hid
  rw [hr] at hr₁
  cases hr₁
  rw [hminted.holds.held, Option.some.injEq] at hheld
  rw [← hheld, holdShares, hshares] at hmem
  obtain ⟨share, hshare, hsame⟩ := List.mem_map.mp hmem
  obtain ⟨-, rfl⟩ := HeldShare.mk.inj hsame
  -- what is held decodes to the share of the split, and that is 32 zeros
  rw [Base64.decode_encode Base64.standard_lawful, Option.some.injEq] at hdecode
  have hzeros : ∀ share ∈ plainShares, share.y ≠ [9] := by decide
  exact hzeros share hshare hdecode

end SecretBroker
