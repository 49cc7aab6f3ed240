import SecretBroker.Server

/-! The uses of the broker's HMAC key. Root keys of macaroons, redeem tokens and acknowledgments of shares are HMACs under
one key, of messages that are put together without length prefixes. Their lengths and the places where separators can
occur keep them apart. -/

open Wire

namespace SecretBroker

/-- What is authenticated under the HMAC key of the broker, and for what. -/
inductive HmacUse where
  | rootKey (handleId : Uuid)
  | redeemToken (handle : Uuid) (bindingHash nonce : Bytes)
  | shareAck (handle custodianId : String) (shareIndex : UInt32) (y : Bytes)
  deriving DecidableEq

namespace HmacUse

/-- The request that an acknowledgment is for. -/
def ackRequest (handle custodianId : String) (shareIndex : UInt32) (y : Bytes) : DistributeShareRequest :=
  ⟨handle, shareIndex, ⟨shareIndex.toUInt8, y⟩, custodianId⟩

/-- The bytes that are authenticated. -/
def message : HmacUse → Bytes
  | .rootKey handleId => asBytes "macaroon-root-v1:" ++ handleId.bytes.val
  | .redeemToken handle bindingHash nonce => handle.bytes.val ++ (bindingHash ++ nonce)
  | .shareAck handle custodianId shareIndex y => shareAckMessage (ackRequest handle custodianId shareIndex y)

/-- The inputs that the code can pass. -/
def Passed : HmacUse → Prop
  | .rootKey _ => True
  | .redeemToken _ bindingHash nonce => (bindingHash.length = 0 ∨ bindingHash.length = 32) ∧ nonce.length = 16
  | .shareAck handle custodianId shareIndex y => (∃ mac, parseHandleV2 handle = .ok mac) ∧ custodianId ≠ "" ∧
      1 ≤ shareIndex ∧ shareIndex ≤ 255 ∧ y.length = 32

/-- What the code computes. -/
def tag (env : Env) : HmacUse → Block 32
  | .rootKey handleId => env.rootKey handleId
  | .redeemToken handle bindingHash nonce => env.redeemToken handle bindingHash nonce
  | .shareAck handle custodianId shareIndex y =>
      env.hmac env.broker.handleHmacKey (shareAckMessage (ackRequest handle custodianId shareIndex y))

theorem tag_eq (env : Env) (use : HmacUse) : use.tag env = env.hmac env.broker.handleHmacKey use.message := by
  cases use <;> rfl

theorem length_rootKey (handleId : Uuid) : (message (.rootKey handleId)).length = 33 := by
  rw [message, List.length_append, handleId.bytes.property]
  rfl

theorem length_redeemToken {handle : Uuid} {bindingHash nonce : Bytes}
    (h : Passed (.redeemToken handle bindingHash nonce)) :
    (message (.redeemToken handle bindingHash nonce)).length = 32 + bindingHash.length := by
  rw [message, List.length_append, List.length_append, handle.bytes.property, h.2]
  omega

/-- The text at the front of an acknowledgment, and the fixed fields at its end. -/
theorem message_shareAck (handle custodianId : String) (shareIndex : UInt32) (y : Bytes) :
    message (.shareAck handle custodianId shareIndex y) =
      asBytes ("share-ack-v1:" ++ (handle ++ (":" ++ (custodianId ++ ":")))) ++ natLE 4 shareIndex.toNat ++
        asBytes ":" ++ y := by
  simp only [message, shareAckMessage, ackRequest, asBytes_append, List.append_assoc]

/-- A handle is long, since it has an identifier and a signature. -/
theorem length_handle {handle : String} {mac : Macaroon String (Block 32)} (h : parseHandleV2 handle = .ok mac) :
    50 < (asBytes handle).length := by
  obtain ⟨htrim, -⟩ := parseHandleV2_eq_ok.mp h
  have hbytes : 50 ≤ mac.toBytes.length := by
    rw [Macaroon.toBytes, List.length_append, List.length_append, List.length_append, mac.identifier.bytes.property,
      mac.signature.property]
    simp only [lengthPrefix, length_natLE]
    omega
  have hne : mac.toBytes ≠ [] := List.ne_nil_of_length_pos (by omega)
  have htext : mac.toBytes.length < (asBytes (trim handle)).length := by
    rw [htrim, handleV2, asBytes_append, List.length_append]
    exact Nat.lt_add_left _ (length_lt_asBytes_encode hne)
  have hle := length_asBytes_trim_le handle
  omega

theorem length_shareAck {handle custodianId : String} {shareIndex : UInt32} {y : Bytes}
    (h : Passed (.shareAck handle custodianId shareIndex y)) :
    64 < (message (.shareAck handle custodianId shareIndex y)).length := by
  obtain ⟨⟨mac, hmac⟩, -, -, -, hy⟩ := h
  have hlong := length_handle hmac
  simp only [message_shareAck, asBytes_append, List.length_append, hy]
  omega

/-- A handle has two colons. -/
theorem exists_colons {handle : String} {mac : Macaroon String (Block 32)} (h : parseHandleV2 handle = .ok mac) :
    ∃ first last : List Char, handle.toList = first ++ ':' :: 'v' :: '2' :: ':' :: last ∧
      (∀ c ∈ first, (c != ':') = true) ∧ ∀ c ∈ last, (c != ':') = true := by
  obtain ⟨htrim, -⟩ := parseHandleV2_eq_ok.mp h
  obtain ⟨front, back, hhandle, hfront, hback⟩ := exists_append_trim handle
  have hspace : ∀ c, isWhiteSpace c = true → (c != ':') = true := by
    intro c hc
    rw [bne_iff_ne]
    rintro rfl
    exact absurd hc (by decide)
  have hname : ∀ c ∈ "broker".toList, (c != ':') = true := by simp
  have htext : ∀ c ∈ mac.serialize.toList, (c != ':') = true := by
    intro c hc
    rw [Macaroon.serialize, Base64.encode, String.toList_ofList] at hc
    exact Base64.encodeChars_all (P := fun c => (c != ':') = true) (by decide) (by decide) _ c hc
  refine ⟨front.toList ++ "broker".toList, mac.serialize.toList ++ back.toList, ?_, ?_, ?_⟩
  · rw [hhandle, htrim, handleV2, String.toList_append, String.toList_append, String.toList_append]
    simp [handleV2Head]
  · intro c hc
    rcases List.mem_append.mp hc with hc | hc
    · exact hspace c (hfront c hc)
    · exact hname c hc
  · intro c hc
    rcases List.mem_append.mp hc with hc | hc
    · exact htext c hc
    · exact hspace c (hback c hc)

/-- So the third colon is the one after it, whatever the custodian is called. -/
theorem handle_custodian_inj {handle handle' custodianId custodianId' : String} {mac mac' : Macaroon String (Block 32)}
    (hmac : parseHandleV2 handle = .ok mac) (hmac' : parseHandleV2 handle' = .ok mac')
    (h : handle ++ (":" ++ custodianId) = handle' ++ (":" ++ custodianId')) :
    handle = handle' ∧ custodianId = custodianId' := by
  obtain ⟨first, last, hlist, hfirst, hlast⟩ := exists_colons hmac
  obtain ⟨first', last', hlist', hfirst', hlast'⟩ := exists_colons hmac'
  have hstop : ∀ rest : List Char, ∀ c ∈ (':' :: rest).head?, (c != ':') = false := by
    rintro rest c ⟨⟩
    rfl
  have hchars : first ++ ':' :: 'v' :: '2' :: ':' :: (last ++ ':' :: custodianId.toList) =
      first' ++ ':' :: 'v' :: '2' :: ':' :: (last' ++ ':' :: custodianId'.toList) := by
    have hboth := congrArg String.toList h
    simp only [String.toList_append, hlist, hlist'] at hboth
    simpa using hboth
  obtain ⟨rfl, hrest⟩ := append_inj_of_class hfirst hfirst' (hstop _) (hstop _) hchars
  simp only [List.cons.injEq, true_and] at hrest
  obtain ⟨rfl, hcustodian⟩ := append_inj_of_class hlast hlast' (hstop _) (hstop _) hrest
  exact ⟨String.ext (hlist.trans hlist'.symm), String.ext (List.cons.inj hcustodian).2⟩

theorem redeemToken_inj {handle handle' : Uuid} {bindingHash bindingHash' nonce nonce' : Bytes}
    (h : Passed (.redeemToken handle bindingHash nonce)) (h' : Passed (.redeemToken handle' bindingHash' nonce'))
    (heq : message (.redeemToken handle bindingHash nonce) = message (.redeemToken handle' bindingHash' nonce')) :
    HmacUse.redeemToken handle bindingHash nonce = .redeemToken handle' bindingHash' nonce' := by
  have hlength := congrArg List.length heq
  rw [length_redeemToken h, length_redeemToken h'] at hlength
  obtain ⟨hhandle, hrest⟩ := List.append_inj heq (handle.bytes.property.trans handle'.bytes.property.symm)
  obtain ⟨hbinding, hnonce⟩ := List.append_inj hrest (by omega)
  rw [Uuid.bytes_injective hhandle, hbinding, hnonce]

theorem shareAck_inj {handle handle' custodianId custodianId' : String} {shareIndex shareIndex' : UInt32} {y y' : Bytes}
    (h : Passed (.shareAck handle custodianId shareIndex y)) (h' : Passed (.shareAck handle' custodianId' shareIndex' y'))
    (heq : message (.shareAck handle custodianId shareIndex y) = message (.shareAck handle' custodianId' shareIndex' y')) :
    HmacUse.shareAck handle custodianId shareIndex y = .shareAck handle' custodianId' shareIndex' y' := by
  obtain ⟨⟨mac, hmac⟩, -, -, -, hy⟩ := h
  obtain ⟨⟨mac', hmac'⟩, -, -, -, hy'⟩ := h'
  rw [message_shareAck, message_shareAck] at heq
  -- the fields at the end have fixed lengths
  obtain ⟨hfront, rfl⟩ := List.append_inj' heq (hy.trans hy'.symm)
  obtain ⟨hfront, -⟩ := List.append_inj' hfront rfl
  obtain ⟨htext, hindex⟩ := List.append_inj' hfront (by rw [length_natLE, length_natLE])
  have hnumber : shareIndex.toNat = shareIndex'.toNat := by
    rw [← ofLE_natLE_of_lt (n := 4) shareIndex.toNat_lt, hindex, ofLE_natLE_of_lt shareIndex'.toNat_lt]
  obtain ⟨hhandle, hcustodian⟩ :=
    handle_custodian_inj hmac hmac' ((String.append_right_inj _).mp (asBytes_injective htext))
  rw [hhandle, (String.append_left_inj _).mp hcustodian, UInt32.toNat_inj.mp hnumber]

theorem message_rootKey_ne_shareAck (handleId : Uuid) (handle custodianId : String) (shareIndex : UInt32) (y : Bytes) :
    message (.rootKey handleId) ≠ message (.shareAck handle custodianId shareIndex y) := by
  intro h
  have hroot : (asBytes "macaroon-root-v1:").head? = some 109 := by decide
  have hack : (asBytes "share-ack-v1:").head? = some 115 := by decide
  have hhead := congrArg List.head? h
  simp only [message, shareAckMessage, List.append_assoc, List.head?_append, hroot, hack, Option.some_or] at hhead
  cases hhead

theorem message_injective {use use' : HmacUse} (h : use.Passed) (h' : use'.Passed) (heq : use.message = use'.message) :
    use = use' := by
  have hlength := congrArg List.length heq
  cases use with
  | rootKey handleId =>
      cases use' with
      | rootKey handleId' => rw [Uuid.bytes_injective (List.append_cancel_left heq)]
      | redeemToken handle' bindingHash' nonce' =>
          rw [length_rootKey, length_redeemToken h'] at hlength
          have hbinding := h'.1
          omega
      | shareAck handle' custodianId' shareIndex' y' => exact absurd heq (message_rootKey_ne_shareAck _ _ _ _ _)
  | redeemToken handle bindingHash nonce =>
      have hbinding := h.1
      rw [length_redeemToken h] at hlength
      cases use' with
      | rootKey handleId' =>
          rw [length_rootKey] at hlength
          omega
      | redeemToken handle' bindingHash' nonce' => exact redeemToken_inj h h' heq
      | shareAck handle' custodianId' shareIndex' y' =>
          have hlong := length_shareAck h'
          omega
  | shareAck handle custodianId shareIndex y =>
      cases use' with
      | rootKey handleId' => exact absurd heq.symm (message_rootKey_ne_shareAck _ _ _ _ _)
      | redeemToken handle' bindingHash' nonce' =>
          have hbinding := h'.1
          have hlong := length_shareAck h
          rw [length_redeemToken h'] at hlength
          omega
      | shareAck handle' custodianId' shareIndex' y' => exact shareAck_inj h h' heq

end HmacUse

theorem redeemToken_passed (env : Env) (handleId : Uuid) (lifecycle : SecretLifecycle) (context : BrokerClientContext)
    (nonce : Block 16) : HmacUse.Passed (.redeemToken handleId (redeemBindingBytes env lifecycle context) nonce.val) := by
  refine ⟨?_, nonce.property⟩
  cases lifecycle with
  | singleUseUnwrap => exact Or.inr (env.sha256 context.exporter).property
  | renewableLease => exact Or.inl rfl
  | serviceBootstrap => exact Or.inl rfl

/-- The acknowledgment of a share is for inputs that have been checked. -/
theorem distributeShare_ack {env : ServerEnv} {d : LoadDraws} {context : Option BrokerClientContext}
    {req : Proto.DistributeShareRequest} {response : Proto.DistributeShareResponse} {s s' : Broker}
    (h : distributeShare env d context req s = (.ok response, s')) :
    ∃ share, req.share = some share ∧ HmacUse.Passed (.shareAck req.handle req.custodianId req.shareIndex share.y) ∧
      response.ackToken =
        Base64.standard.encode (HmacUse.tag env.toEnv
          (.shareAck req.handle req.custodianId req.shareIndex share.y)).val := by
  simp only [distributeShare, distributeShareImpl, checkCustodian, Eff.bind_eq_ok, Eff.lift_eq_ok, Eff.mapError_eq_ok,
    Eff.okOr_eq_ok, Eff.rejectIf_eq_ok, Eff.pure_eq_ok, Eff.except_mapError_eq_ok, Eff.except_bind_eq_ok, check_eq_ok] at h
  obtain ⟨_, _, -, share, _, ⟨hshare, -⟩, _, _, -, _, _, ⟨hlength, -⟩, _, _, ⟨_, _, ⟨⟨_, -, _, hcustodian, -⟩, -⟩, _, _,
    ⟨hindex, -⟩, _, _, ⟨hparse, -⟩, _, _, -, _, _, -, _, _, -, rfl, -⟩, rfl, -⟩ := h
  obtain ⟨mac, hmac, -⟩ := parseHandleIdentifier_eq_ok.mp hparse
  rw [not_or] at hindex
  refine ⟨share, hshare, ⟨⟨mac, hmac⟩, hcustodian, ?_, UInt32.not_lt.mp hindex.2, not_not.mp hlength⟩, rfl⟩
  have hne := hindex.1
  rw [← UInt32.toNat_inj] at hne
  rw [UInt32.le_iff_toNat_le]
  exact Nat.one_le_iff_ne_zero.mpr hne

/-- The tokens that the broker gives out: for a secret that it stores, and for a share that it acknowledges. -/
inductive GivenOut (env : ServerEnv) : String → Prop
  | redeemToken {d : PersistDraws} {context : BrokerClientContext} {input : PersistSecretV2Input} {s s' : Broker}
      {outcome : StoredSecretOutcome} (h : persistSecretV2WithLifecycle env.toEnv d context input s = (.ok outcome, s')) :
      GivenOut env outcome.redeemToken
  | ackToken {d : LoadDraws} {context : Option BrokerClientContext} {req : Proto.DistributeShareRequest} {s s' : Broker}
      {response : Proto.DistributeShareResponse} (h : distributeShare env d context req s = (.ok response, s')) :
      GivenOut env response.ackToken

theorem GivenOut.exists_use {env : ServerEnv} {token : String} (h : GivenOut env token) :
    ∃ use : HmacUse, use.Passed ∧ (∀ id, use ≠ .rootKey id) ∧ token = Base64.standard.encode (use.tag env.toEnv).val := by
  cases h with
  | @redeemToken d context input s s' outcome h =>
      obtain ⟨_, _, _, _, _, _, _, _, -, -, -, -, rfl⟩ := persist_eq_ok env.toEnv h
      refine ⟨.redeemToken d.handleId (redeemBindingBytes env.toEnv input.lifecycle context) d.redeemNonce.val,
        redeemToken_passed _ _ _ _ _, ?_, rfl⟩
      rintro id ⟨⟩
  | @ackToken d context req s s' response h =>
      obtain ⟨share, -, hpassed, htoken⟩ := distributeShare_ack h
      refine ⟨_, hpassed, ?_, htoken⟩
      rintro id ⟨⟩

/-- **The uses of the HMAC key are kept apart.** Different inputs, of one use or of two, are different messages, so their
tags differ or HMAC has a collision. In particular, if a token that the broker gives out is the root key of a macaroon, the
message it was computed from and that of the root key collide. -/
theorem hmac_uses_separate (env : ServerEnv) :
    (∀ use use' : HmacUse, use.Passed → use'.Passed → use.message = use'.message → use = use') ∧
    (∀ use use' : HmacUse, use.Passed → use'.Passed → use.tag env.toEnv = use'.tag env.toEnv → use = use' ∨
      use.message ≠ use'.message ∧
        env.hmac env.broker.handleHmacKey use.message = env.hmac env.broker.handleHmacKey use'.message) ∧
    ∀ token id, GivenOut env token → Base64.standard.decode token = some (env.rootKey id).val →
      ∃ use : HmacUse, use.Passed ∧ token = Base64.standard.encode (use.tag env.toEnv).val ∧
        use.message ≠ (HmacUse.rootKey id).message ∧ env.hmac env.broker.handleHmacKey use.message =
          env.hmac env.broker.handleHmacKey (HmacUse.rootKey id).message := by
  have htags : ∀ use use' : HmacUse, use.Passed → use'.Passed → use.tag env.toEnv = use'.tag env.toEnv → use = use' ∨
      use.message ≠ use'.message ∧
        env.hmac env.broker.handleHmacKey use.message = env.hmac env.broker.handleHmacKey use'.message := by
    intro use use' h h' htag
    by_cases hmessage : use.message = use'.message
    · exact Or.inl (HmacUse.message_injective h h' hmessage)
    · rw [HmacUse.tag_eq, HmacUse.tag_eq] at htag
      exact Or.inr ⟨hmessage, htag⟩
  refine ⟨fun use use' h h' => HmacUse.message_injective h h', htags, ?_⟩
  intro token id hgiven hroot
  obtain ⟨use, hpassed, hother, rfl⟩ := hgiven.exists_use
  rw [Base64.decode_encode Base64.standard_lawful, Option.some_inj] at hroot
  rcases htags use (.rootKey id) hpassed trivial (Subtype.ext hroot) with heq | hcollides
  · exact absurd heq (hother id)
  · exact ⟨use, hpassed, rfl, hcollides⟩

end SecretBroker
