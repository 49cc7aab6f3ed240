import SecretBroker.LibEffect
import SecretBroker.Caveat

/-! Chained-HMAC macaroons and the discharges of their third-party caveats, with the keys and tokens
that the broker derives from its HMAC key. The code is written over
an arbitrary algebra of keys, texts and tags: the program runs it on byte strings, and the analysis of
what an attacker can build runs the same definitions on terms with a free HMAC. -/

open Wire

namespace SecretBroker

/-- What the macaroon code does with the values it handles. A `Text` is the text of a caveat, `Data` is
what can be a key or a message, and a `Tag` is an HMAC output. -/
structure MacOps (Text Data Tag : Type) where
  hmacCompute : Data → Data → Tag
  ofBytes : Bytes → Data
  ofText : Text → Data
  ofTag : Tag → Data
  encode : Caveat → Text
  parse : Text → Except MacaroonError Caveat

/-- The algebra of the program: strings, byte strings and HMAC-SHA256 outputs. -/
def MacOps.code (chrono : Chrono) (hmac : Bytes → Bytes → Block 32) : MacOps String Bytes (Block 32) where
  hmacCompute := hmac
  ofBytes := id
  ofText := asBytes
  ofTag tag := tag.val
  encode := Caveat.encode chrono
  parse := Caveat.parse chrono

structure Macaroon (Text Tag : Type) where
  identifier : Uuid
  caveats : List Text
  signature : Tag
  deriving DecidableEq

structure DischargeMacaroon (Tag : Type) where
  location : String
  condition : String
  expiresAt : Option DateTime
  dischargeSignature : Tag
  binding : Tag
  deriving DecidableEq

/-- The key and the predicate of one third-party caveat of a record. -/
structure DischargeKeyRef (Data : Type) where
  location : String
  keyId : String
  condition : String
  key : Data

/-- The request against which caveats are checked. -/
structure CaveatVerifier (Data Tag : Type) where
  tenantId : Option String
  provider : Option String
  circuitId : Option String
  nodeId : Option String
  action : Option String
  useCount : UInt32
  now : DateTime
  discharges : List (DischargeMacaroon Tag)
  dischargeKeys : List (DischargeKeyRef Data)

variable {Text Data Tag : Type} (ops : MacOps Text Data Tag)

namespace MacOps

/-- One link of the HMAC chain. -/
def link (sig : Tag) (caveat : Text) : Tag := ops.hmacCompute (ops.ofTag sig) (ops.ofText caveat)

/-- The signature before any caveat. -/
def start (rootKey : Tag) (identifier : Uuid) : Tag :=
  ops.hmacCompute (ops.ofTag rootKey) (ops.ofBytes identifier.bytes.val)

/-- The signature after all caveats. -/
def chain (sig : Tag) (caveats : List Text) : Tag := caveats.foldl ops.link sig

/-- The signature after each caveat. -/
def caveatSignatures (sig : Tag) : List Text → List Tag
  | [] => []
  | c :: cs => ops.link sig c :: caveatSignatures (ops.link sig c) cs

@[simp] theorem chain_nil (sig : Tag) : ops.chain sig [] = sig := rfl

@[simp] theorem chain_cons (sig : Tag) (c : Text) (cs : List Text) :
    ops.chain sig (c :: cs) = ops.chain (ops.link sig c) cs := rfl

theorem chain_append (sig : Tag) (cs ds : List Text) :
    ops.chain sig (cs ++ ds) = ops.chain (ops.chain sig cs) ds := List.foldl_append

theorem chain_snoc (sig : Tag) (cs : List Text) (c : Text) : ops.chain sig (cs ++ [c]) = ops.link (ops.chain sig cs) c :=
  ops.chain_append sig cs [c]

/-- The signature after a caveat is that of the chain up to it. -/
theorem mem_zip_caveatSignatures {sig : Tag} {cs : List Text} {c : Text} {tag : Tag} :
    (c, tag) ∈ cs.zip (ops.caveatSignatures sig cs) ↔
      ∃ before after, cs = before ++ c :: after ∧ tag = ops.chain sig (before ++ [c]) := by
  induction cs generalizing sig with
  | nil => simp [caveatSignatures]
  | cons d cs ih =>
      rw [caveatSignatures, List.zip_cons_cons, List.mem_cons, ih, Prod.mk.injEq]
      constructor
      · rintro (⟨rfl, rfl⟩ | ⟨before, after, rfl, rfl⟩)
        · exact ⟨[], cs, rfl, rfl⟩
        · exact ⟨d :: before, after, rfl, rfl⟩
      · rintro ⟨before, after, hsplit, htag⟩
        cases before with
        | nil =>
            obtain ⟨rfl, rfl⟩ := List.cons.inj hsplit
            exact Or.inl ⟨rfl, htag⟩
        | cons b before =>
            obtain ⟨rfl, rfl⟩ := List.cons.inj hsplit
            exact Or.inr ⟨before, after, rfl, htag⟩

/-- An HMAC that only equal inputs share, over data that determine the texts, bytes and tags they are made of. -/
structure Injective : Prop where
  hmac : ∀ {key message key' message'}, ops.hmacCompute key message = ops.hmacCompute key' message' →
    key = key' ∧ message = message'
  ofBytes : Function.Injective ops.ofBytes
  ofText : Function.Injective ops.ofText
  ofTag : Function.Injective ops.ofTag

variable {ops}

theorem Injective.link (h : ops.Injective) {sig sig' : Tag} {c c' : Text} (heq : ops.link sig c = ops.link sig' c') :
    sig = sig' ∧ c = c' := by
  obtain ⟨hkey, hmessage⟩ := h.hmac heq
  exact ⟨h.ofTag hkey, h.ofText hmessage⟩

/-- A chain determines the identifier and the caveats if no root key is itself a signature of a chain. -/
theorem Injective.chain (h : ops.Injective) {rootKey rootKey' : Tag} {id id' : Uuid}
    (hroot : ∀ cs, rootKey ≠ ops.chain (ops.start rootKey' id') cs)
    (hroot' : ∀ cs, rootKey' ≠ ops.chain (ops.start rootKey id) cs) {cs cs' : List Text}
    (heq : ops.chain (ops.start rootKey id) cs = ops.chain (ops.start rootKey' id') cs') : id = id' ∧ cs = cs' := by
  -- from the last caveat back: one chain that is shorter would start at a signature of the other
  induction cs using List.reverseRecOn generalizing cs' with
  | nil =>
      cases cs' using List.reverseRecOn with
      | nil =>
          obtain ⟨-, hid⟩ := h.hmac heq
          exact ⟨Uuid.bytes_injective (h.ofBytes hid), rfl⟩
      | append_singleton cs' c' =>
          rw [ops.chain_snoc] at heq
          obtain ⟨hkey, -⟩ := h.hmac heq
          exact absurd (h.ofTag hkey) (hroot cs')
  | append_singleton cs c ih =>
      rw [ops.chain_snoc] at heq
      cases cs' using List.reverseRecOn with
      | nil =>
          obtain ⟨hkey, -⟩ := h.hmac heq
          exact absurd (h.ofTag hkey).symm (hroot' cs)
      | append_singleton cs' c' =>
          rw [ops.chain_snoc] at heq
          obtain ⟨hsig, rfl⟩ := h.link heq
          obtain ⟨rfl, rfl⟩ := ih hsig
          exact ⟨rfl, rfl⟩

end MacOps

/-- `BrokerState::macaroon_root_key`. -/
def macaroonRootKey (handleHmacKey : Data) (handleId : Uuid) : Tag :=
  ops.hmacCompute handleHmacKey (ops.ofBytes (asBytes "macaroon-root-v1:" ++ handleId.bytes.val))

/-- `BrokerState::compute_redeem_token`. -/
def computeRedeemToken (handleHmacKey : Data) (handle : Uuid) (bindingHash nonce : Bytes) : Tag :=
  ops.hmacCompute handleHmacKey (ops.ofBytes (handle.bytes.val ++ (bindingHash ++ nonce)))

namespace DischargeMacaroon

/-- `DischargeMacaroon::mint_with_expiry`. -/
def mintWithExpiry (location condition : String) (dischargeKey : Data) (primarySignature : Tag)
    (expiresAt : Option DateTime) : DischargeMacaroon Tag :=
  let dischargeSignature := ops.hmacCompute dischargeKey (ops.ofBytes (asBytes condition))
  let binding := ops.hmacCompute (ops.ofTag primarySignature) (ops.ofTag dischargeSignature)
  { location, condition, expiresAt, dischargeSignature, binding }

/-- `DischargeMacaroon::bind`. -/
def bind (d : DischargeMacaroon Tag) (primarySignature : Tag) : Tag :=
  ops.hmacCompute (ops.ofTag primarySignature) (ops.ofTag d.dischargeSignature)

variable [DecidableEq Tag]

/-- `DischargeMacaroon::verify`. -/
def verify (d : DischargeMacaroon Tag) (condition : String) (dischargeKey : Data)
    (primarySignature : Tag) (now : DateTime) : Except MacaroonError Unit := do
  Eff.rejectIf (d.expiresAt.any fun deadline => now > deadline) .expired
  let expected := ops.hmacCompute dischargeKey (ops.ofBytes (asBytes condition))
  Eff.rejectIf (expected ≠ d.dischargeSignature) (.caveatFailed "discharge signature invalid")
  let expectedBinding := d.bind ops primarySignature
  Eff.rejectIf (expectedBinding ≠ d.binding) (.caveatFailed "discharge binding invalid")

end DischargeMacaroon

namespace CaveatVerifier

/-- The check of a caveat that names the value a request field must have. -/
def checkField (field expected : String) : Option String → Except MacaroonError Unit
  | some actual =>
      if actual = expected then .ok ()
      else .error (.caveatFailed (field ++ ": expected " ++ expected ++ ", got " ++ actual))
  | none => .error (.caveatFailed (field ++ " required but not provided"))

variable [DecidableEq Tag]

/-- The check of a third-party caveat: one of the discharges presented for it must verify. -/
def checkThirdParty (v : CaveatVerifier Data Tag) (location keyId : String) (primarySignature : Option Tag) :
    Except MacaroonError Unit :=
  match primarySignature with
  | none => .error (.caveatFailed "missing primary binding signature for third-party caveat")
  | some primarySignature =>
      match v.dischargeKeys.find? fun entry => entry.location = location ∧ entry.keyId = keyId with
      | none => .error (.caveatFailed ("no discharge key configured for location " ++ location))
      | some key =>
          let candidates := v.discharges.filter fun d => d.location = location ∧ d.condition = key.condition
          if candidates.any fun d =>
              (d.verify ops key.condition key.key primarySignature v.now).toBool then .ok ()
          else if candidates = [] then
            .error (.caveatFailed ("no discharge macaroon for third-party caveat at " ++ location))
          else
            .error (.caveatFailed ("no valid discharge macaroon for third-party caveat at " ++ location))

/-- `CaveatVerifier::check`. -/
def check (v : CaveatVerifier Data Tag) (caveat : Caveat) (primarySignature : Option Tag) :
    Except MacaroonError Unit :=
  match caveat with
  | .tenantId expected => checkField "tenant_id" expected v.tenantId
  | .provider expected => checkField "provider" expected v.provider
  | .expires deadline => if v.now > deadline then .error .expired else .ok ()
  | .circuitId expected => checkField "circuit_id" expected v.circuitId
  | .nodeId expected => checkField "node_id" expected v.nodeId
  | .action expected => checkField "action" expected v.action
  | .maxUses =>
      if v.useCount ≤ 1 then .ok ()
      else .error (.caveatFailed ("max_uses: attempted use " ++ toString v.useCount.toNat ++
        " exceeds single-use limit"))
  | .thirdParty location keyId => v.checkThirdParty ops location keyId primarySignature

end CaveatVerifier

namespace Macaroon

/-- `Macaroon::mint`. -/
def mint (rootKey : Tag) (identifier : Uuid) (caveats : List Caveat) : Macaroon Text Tag :=
  let texts := caveats.map ops.encode
  { identifier, caveats := texts, signature := ops.chain (ops.start rootKey identifier) texts }

/-- `Macaroon::add_caveat`. -/
def addCaveat (m : Macaroon Text Tag) (caveat : Caveat) : Macaroon Text Tag :=
  { m with
    caveats := m.caveats ++ [ops.encode caveat]
    signature := ops.link m.signature (ops.encode caveat) }

variable [DecidableEq Tag]

/-- `Macaroon::verify_signature`. -/
def verifySignature (m : Macaroon Text Tag) (rootKey : Tag) : Except MacaroonError Unit :=
  Eff.rejectIf (ops.chain (ops.start rootKey m.identifier) m.caveats ≠ m.signature) .signatureInvalid

/-- `Macaroon::verify`. -/
def verify (m : Macaroon Text Tag) (rootKey : Tag) (verifier : CaveatVerifier Data Tag) :
    Except MacaroonError Unit := do
  let sig := ops.start rootKey m.identifier
  Eff.rejectIf (ops.chain sig m.caveats ≠ m.signature) .signatureInvalid
  (m.caveats.zip (ops.caveatSignatures sig m.caveats)).forM fun entry => do
    let caveat ← ops.parse entry.1
    verifier.check ops caveat (some entry.2)

/-- The loop of `third_party_binding_info_by_key_id`: the running signature and the match so far. -/
def bindingLoop (location keyId : String) :
    Tag → Option Tag → List Text → Except MacaroonError (Option Tag)
  | _, found, [] => .ok found
  | sig, found, raw :: rest => do
      let sig' := ops.link sig raw
      let caveat ← ops.parse raw
      if caveat = .thirdParty location keyId then
        match found with
        | some _ =>
            .error (.caveatFailed ("multiple third-party caveats match " ++ location ++ " with opaque key"))
        | none => bindingLoop location keyId sig' (some sig') rest
      else bindingLoop location keyId sig' found rest

/-- `Macaroon::third_party_binding_info_by_key_id`: the signature at the one caveat that matches. -/
def thirdPartyBindingInfoByKeyId (m : Macaroon Text Tag) (rootKey : Tag) (location keyId : String) :
    Except MacaroonError Tag := do
  match ← bindingLoop ops location keyId (ops.start rootKey m.identifier) none m.caveats with
  | some sig => .ok sig
  | none =>
      .error (.caveatFailed ("no third-party caveat for " ++ location ++ " with requested opaque key"))

theorem verifySignature_eq_ok {m : Macaroon Text Tag} {rootKey : Tag} {u : Unit} :
    m.verifySignature ops rootKey = .ok u ↔
      m.signature = ops.chain (ops.start rootKey m.identifier) m.caveats := by
  rw [verifySignature, Eff.rejectIf_eq_ok, not_not, eq_comm]

/-- A macaroon verifies exactly when its signature is the chain over its caveats and every caveat
parses and holds at its position. -/
theorem verify_eq_ok {m : Macaroon Text Tag} {rootKey : Tag} {verifier : CaveatVerifier Data Tag} {u : Unit} :
    m.verify ops rootKey verifier = .ok u ↔
      m.signature = ops.chain (ops.start rootKey m.identifier) m.caveats ∧
      ∀ before raw after, m.caveats = before ++ raw :: after →
        ∃ caveat, ops.parse raw = .ok caveat ∧
          verifier.check ops caveat
            (some (ops.chain (ops.start rootKey m.identifier) (before ++ [raw]))) = .ok () := by
  simp only [verify, Eff.except_bind_eq_ok, Eff.rejectIf_eq_ok, not_not, exists_const,
    Eff.except_forM_eq_ok, Prod.forall, ops.mem_zip_caveatSignatures]
  constructor
  · rintro ⟨hsig, hall⟩
    exact ⟨hsig.symm, fun before raw after hsplit => hall raw _ ⟨before, after, hsplit, rfl⟩⟩
  · rintro ⟨hsig, hall⟩
    refine ⟨hsig.symm, ?_⟩
    rintro raw _ ⟨before, after, hsplit, rfl⟩
    exact hall before raw after hsplit

/-- A new macaroon verifies if its caveats read back and hold for the request. -/
theorem verify_mint {rootKey : Tag} {identifier : Uuid} {caveats : List Caveat} {verifier : CaveatVerifier Data Tag}
    (hparse : ∀ c ∈ caveats, ops.parse (ops.encode c) = .ok c)
    (hcheck : ∀ c ∈ caveats, ∀ sig, verifier.check ops c (some sig) = .ok ()) :
    (mint ops rootKey identifier caveats).verify ops rootKey verifier = .ok () := by
  rw [verify_eq_ok]
  refine ⟨rfl, fun before raw after hsplit => ?_⟩
  have hmem : raw ∈ caveats.map ops.encode := by
    have hcaveats : caveats.map ops.encode = before ++ raw :: after := hsplit
    rw [hcaveats]
    exact List.mem_append_right _ List.mem_cons_self
  obtain ⟨c, hc, rfl⟩ := List.mem_map.mp hmem
  exact ⟨c, hparse c hc, hcheck c hc _⟩

end Macaroon

end SecretBroker
