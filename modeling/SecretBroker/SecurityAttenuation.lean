import SecretBroker.SecurityDischarge
import SecretBroker.SecurityUnforgeable

/-! What added caveats do to a macaroon. The caveats it had stay at their positions, with their signatures, so that
verification accepts less than before and discharges stay good where they were good; and a discharge is good at one
position of one chain only. -/

open Wire

namespace SecretBroker

variable {Text Data Tag : Type} (ops : MacOps Text Data Tag)

namespace Macaroon

/-- The signature after the caveat at a position. -/
def signatureAt (m : Macaroon Text Tag) (rootKey : Tag) (position : ℕ) : Tag :=
  ops.chain (ops.start rootKey m.identifier) (m.caveats.take (position + 1))

/-- Add caveats one after the other. -/
def attenuate (m : Macaroon Text Tag) (added : List Caveat) : Macaroon Text Tag := added.foldl (addCaveat ops) m

/-- All that attenuation does. -/
theorem attenuate_eq (m : Macaroon Text Tag) (added : List Caveat) :
    m.attenuate ops added =
      ⟨m.identifier, m.caveats ++ added.map ops.encode, ops.chain m.signature (added.map ops.encode)⟩ := by
  induction added generalizing m with
  | nil => rw [attenuate, List.foldl_nil, List.map_nil, List.append_nil, MacOps.chain_nil]
  | cons c added ih =>
      rw [attenuate, List.foldl_cons, ← attenuate, ih, List.map_cons, MacOps.chain_cons, addCaveat,
        List.append_assoc, List.singleton_append]

@[simp] theorem attenuate_identifier (m : Macaroon Text Tag) (added : List Caveat) :
    (m.attenuate ops added).identifier = m.identifier := by rw [attenuate_eq]

@[simp] theorem attenuate_caveats (m : Macaroon Text Tag) (added : List Caveat) :
    (m.attenuate ops added).caveats = m.caveats ++ added.map ops.encode := by rw [attenuate_eq]

@[simp] theorem attenuate_signature (m : Macaroon Text Tag) (added : List Caveat) :
    (m.attenuate ops added).signature = ops.chain m.signature (added.map ops.encode) := by rw [attenuate_eq]

/-- The signatures at the positions of a macaroon do not change when caveats are added. -/
theorem signatureAt_attenuate (m : Macaroon Text Tag) (added : List Caveat) (rootKey : Tag) {position : ℕ}
    (h : position < m.caveats.length) :
    (m.attenuate ops added).signatureAt ops rootKey position = m.signatureAt ops rootKey position := by
  rw [signatureAt, signatureAt, attenuate_identifier, attenuate_caveats, List.take_append_of_le_length h]

/-- The signature at an added caveat is the one that the macaroon had right after the caveat was added. -/
theorem signatureAt_added {m : Macaroon Text Tag} {rootKey : Tag}
    (hsig : m.signature = ops.chain (ops.start rootKey m.identifier) m.caveats) {added : List Caveat} {i : ℕ}
    (hi : i < added.length) : (m.attenuate ops added).signatureAt ops rootKey (m.caveats.length + i) =
      (m.attenuate ops (added.take i ++ [added[i]])).signature := by
  rw [signatureAt, attenuate_identifier, attenuate_caveats, attenuate_signature, Nat.add_assoc,
    List.take_length_add_append, ← List.map_take, ops.chain_append, hsig, List.take_append_getElem hi]

/-- With an HMAC that is injective in its key, only one signature leads to the end of a chain. -/
theorem chain_injective_start {ops : MacOps Text Data Tag}
    (hinj : ∀ message, Function.Injective fun sig => ops.hmacCompute (ops.ofTag sig) message)
    {sig sig' : Tag} {cs : List Text} (h : ops.chain sig cs = ops.chain sig' cs) : sig = sig' := by
  induction cs generalizing sig sig' with
  | nil => exact h
  | cons c cs ih => exact hinj (ops.ofText c) (ih h)

end Macaroon

variable [DecidableEq Tag]

namespace CaveatVerifier

/-- The caveat at a position parses and holds for the request. -/
def AcceptsAt (v : CaveatVerifier Data Tag) (rootKey : Tag) (m : Macaroon Text Tag) (position : ℕ) : Prop :=
  ∃ raw caveat, m.caveats[position]? = some raw ∧ ops.parse raw = .ok caveat ∧
    v.check ops caveat (some (m.signatureAt ops rootKey position)) = .ok ()

/-- The caveat at a position is a third-party caveat, and this one discharge is enough for it. -/
def SatisfiedBy (v : CaveatVerifier Data Tag) (rootKey : Tag) (m : Macaroon Text Tag) (position : ℕ)
    (d : DischargeMacaroon Tag) : Prop :=
  (∃ raw location keyId, m.caveats[position]? = some raw ∧ ops.parse raw = .ok (.thirdParty location keyId)) ∧
    { v with discharges := [d] }.AcceptsAt ops rootKey m position

variable {ops}

theorem acceptsAt_attenuate {v : CaveatVerifier Data Tag} {rootKey : Tag} {m : Macaroon Text Tag} {position : ℕ}
    (h : position < m.caveats.length) (added : List Caveat) :
    v.AcceptsAt ops rootKey (m.attenuate ops added) position ↔ v.AcceptsAt ops rootKey m position := by
  rw [AcceptsAt, AcceptsAt, m.signatureAt_attenuate ops added rootKey h, Macaroon.attenuate_caveats,
    List.getElem?_append_left h]

/-- A discharge that satisfies a caveat still does so when more caveats are added. -/
theorem SatisfiedBy.attenuate {v : CaveatVerifier Data Tag} {rootKey : Tag} {m : Macaroon Text Tag} {position : ℕ}
    {d : DischargeMacaroon Tag} (h : v.SatisfiedBy ops rootKey m position d) (added : List Caveat) :
    v.SatisfiedBy ops rootKey (m.attenuate ops added) position d := by
  obtain ⟨⟨raw, location, keyId, hraw, hparse⟩, haccepts⟩ := h
  obtain ⟨hposition, -⟩ := List.getElem?_eq_some_iff.mp hraw
  refine ⟨⟨raw, location, keyId, ?_, hparse⟩, (acceptsAt_attenuate hposition added).mpr haccepts⟩
  rw [Macaroon.attenuate_caveats, List.getElem?_append_left hposition, hraw]

end CaveatVerifier

namespace Macaroon

variable {ops}

/-- A macaroon verifies exactly when its signature is that of its chain and the caveat at each position is accepted. -/
theorem verify_eq_ok_acceptsAt {m : Macaroon Text Tag} {rootKey : Tag} {v : CaveatVerifier Data Tag} :
    m.verify ops rootKey v = .ok () ↔
      m.signature = ops.chain (ops.start rootKey m.identifier) m.caveats ∧
      ∀ position < m.caveats.length, v.AcceptsAt ops rootKey m position := by
  rw [verify_eq_ok]
  refine and_congr_right fun _ => ⟨fun h position hposition => ?_, fun h before raw after hsplit => ?_⟩
  · have hsplit : m.caveats = m.caveats.take position ++ m.caveats[position] :: m.caveats.drop (position + 1) := by
      rw [List.getElem_cons_drop, List.take_append_drop]
    obtain ⟨caveat, hparse, hcheck⟩ := h _ _ _ hsplit
    rw [List.take_append_getElem hposition] at hcheck
    exact ⟨m.caveats[position], caveat, List.getElem?_eq_getElem hposition, hparse, hcheck⟩
  · have hlength : before.length < m.caveats.length := by
      rw [hsplit, List.length_append, List.length_cons]
      omega
    obtain ⟨raw', caveat, hraw', hparse, hcheck⟩ := h before.length hlength
    have hat : m.caveats[before.length]? = some raw := by
      rw [hsplit, List.getElem?_append_right (le_refl _), Nat.sub_self, List.getElem?_cons_zero]
    have htake : m.caveats.take (before.length + 1) = before ++ [raw] := by
      rw [hsplit, List.take_length_add_append, List.take_succ_cons, List.take_zero]
    rw [hat] at hraw'
    cases hraw'
    rw [signatureAt, htake] at hcheck
    exact ⟨caveat, hparse, hcheck⟩

/-- What verifies with added caveats verified without them. -/
theorem verify_of_attenuate (hinj : ∀ message, Function.Injective fun sig => ops.hmacCompute (ops.ofTag sig) message)
    {m : Macaroon Text Tag} {rootKey : Tag} {v : CaveatVerifier Data Tag} {added : List Caveat}
    (h : (m.attenuate ops added).verify ops rootKey v = .ok ()) : m.verify ops rootKey v = .ok () := by
  obtain ⟨hsig, haccepts⟩ := verify_eq_ok_acceptsAt.mp h
  rw [attenuate_signature, attenuate_identifier, attenuate_caveats, ops.chain_append] at hsig
  refine verify_eq_ok_acceptsAt.mpr ⟨chain_injective_start hinj hsig, fun position hposition => ?_⟩
  have hlonger : position < (m.attenuate ops added).caveats.length := by
    rw [attenuate_caveats, List.length_append]
    omega
  exact (CaveatVerifier.acceptsAt_attenuate hposition added).mp (haccepts position hlonger)

/-- What verifies still does so with added caveats that are accepted. -/
theorem verify_attenuate {m : Macaroon Text Tag} {rootKey : Tag} {v : CaveatVerifier Data Tag} {added : List Caveat}
    (h : m.verify ops rootKey v = .ok ())
    (hadded : ∀ before c after, added = before ++ c :: after → ops.parse (ops.encode c) = .ok c ∧
      v.check ops c (some (m.attenuate ops (before ++ [c])).signature) = .ok ()) :
    (m.attenuate ops added).verify ops rootKey v = .ok () := by
  obtain ⟨hsig, haccepts⟩ := verify_eq_ok_acceptsAt.mp h
  refine verify_eq_ok_acceptsAt.mpr ⟨?_, fun position hposition => ?_⟩
  · rw [attenuate_signature, attenuate_identifier, attenuate_caveats, ops.chain_append, hsig]
  by_cases hold : position < m.caveats.length
  · exact (CaveatVerifier.acceptsAt_attenuate hold added).mpr (haccepts position hold)
  · obtain ⟨i, rfl⟩ := Nat.exists_eq_add_of_le (not_lt.mp hold)
    have hi : i < added.length := by
      rw [attenuate_caveats, List.length_append, List.length_map] at hposition
      omega
    have hsplit : added = added.take i ++ added[i] :: added.drop (i + 1) := by
      rw [List.getElem_cons_drop, List.take_append_drop]
    obtain ⟨hparse, hcheck⟩ := hadded _ _ _ hsplit
    refine ⟨ops.encode added[i], added[i], ?_, hparse, ?_⟩
    · rw [attenuate_caveats, List.getElem?_append_right (Nat.le_add_right _ _), Nat.add_sub_cancel_left, List.getElem?_map,
        List.getElem?_eq_getElem hi, Option.map_some]
    · rw [signatureAt_added ops hsig hi]
      exact hcheck

/-- **Attenuation only narrows.** What verifies with added caveats verified without them; what verifies still does so with
added caveats that read back and are accepted, each at the signature that it leads to; and a discharge keeps satisfying the
caveat that it satisfied. -/
theorem attenuation_narrows (hinj : ∀ message, Function.Injective fun sig => ops.hmacCompute (ops.ofTag sig) message)
    (m : Macaroon Text Tag) (rootKey : Tag) (v : CaveatVerifier Data Tag) (added : List Caveat) :
    ((m.attenuate ops added).verify ops rootKey v = .ok () → m.verify ops rootKey v = .ok ()) ∧
    (m.verify ops rootKey v = .ok () →
      (∀ before c after, added = before ++ c :: after → ops.parse (ops.encode c) = .ok c ∧
        v.check ops c (some (m.attenuate ops (before ++ [c])).signature) = .ok ()) →
      (m.attenuate ops added).verify ops rootKey v = .ok ()) ∧
    ∀ position d, v.SatisfiedBy ops rootKey m position d → v.SatisfiedBy ops rootKey (m.attenuate ops added) position d :=
  ⟨verify_of_attenuate hinj, verify_attenuate, fun _ _ h => h.attenuate added⟩

end Macaroon

/-- An HMAC that returns its key. -/
def keyHmac (key _ : Bytes) : Block 32 := if h : key.length = 32 then ⟨key, h⟩ else ⟨List.replicate 32 0, rfl⟩

theorem keyHmac_tag (sig : Block 32) (message : Bytes) : keyHmac sig.val message = sig := dif_pos sig.property

/-- A handle for unwrapping that is attenuated to one tenant: it verifies for that tenant, as the handle does. -/
theorem attenuation_narrows_tenant :
    ∃ (m : Macaroon String (Block 32)) (rootKey : Block 32) (v : CaveatVerifier Bytes (Block 32)),
      (m.attenuate (MacOps.code Chrono.packed keyHmac) [.tenantId "acme"]).verify
      (MacOps.code Chrono.packed keyHmac) rootKey v = .ok () ∧
    m.verify (MacOps.code Chrono.packed keyHmac) rootKey v = .ok () := by
  have hinj : ∀ message, Function.Injective fun sig : Block 32 =>
      (MacOps.code Chrono.packed keyHmac).hmacCompute ((MacOps.code Chrono.packed keyHmac).ofTag sig) message := by
    intro message sig sig' h
    change keyHmac sig.val message = keyHmac sig'.val message at h
    rwa [keyHmac_tag, keyHmac_tag] at h
  have hminted : (Macaroon.mint (MacOps.code Chrono.packed keyHmac) ⟨List.replicate 32 1, rfl⟩ (Uuid.filled 1)
      [.action "unwrap"]).verify (MacOps.code Chrono.packed keyHmac) ⟨List.replicate 32 1, rfl⟩
      ⟨some "acme", none, none, none, some "unwrap", 1, ⟨0, 0⟩, [], []⟩ = .ok () := by
    apply Macaroon.verify_mint
    · intro c hc
      obtain rfl := List.mem_singleton.mp hc
      exact Caveat.parse_encode Chrono.packed (show (Caveat.action "unwrap").Readable Chrono.packed from trivial)
    · intro c hc sig
      obtain rfl := List.mem_singleton.mp hc
      rfl
  obtain ⟨hnarrows, hextends, -⟩ := Macaroon.attenuation_narrows hinj _ _ _ [.tenantId "acme"]
  have hattenuated := hextends hminted fun before c after hsplit => by
    have hc : c ∈ [Caveat.tenantId "acme"] := hsplit ▸ List.mem_append_right _ List.mem_cons_self
    obtain rfl := List.mem_singleton.mp hc
    exact ⟨Caveat.parse_encode Chrono.packed (show (Caveat.tenantId "acme").Readable Chrono.packed from trivial), rfl⟩
  exact ⟨_, _, _, hattenuated, hnarrows hattenuated⟩

namespace CaveatVerifier

variable {ops}

/-- A third-party caveat holds if one of the discharges for it verifies under its key. -/
theorem check_thirdParty_eq_ok {v : CaveatVerifier Data Tag} {location keyId : String} {sig : Tag} :
    v.check ops (.thirdParty location keyId) (some sig) = .ok () ↔
      ∃ key, (v.dischargeKeys.find? fun entry => entry.location = location ∧ entry.keyId = keyId) = some key ∧
        ∃ d ∈ v.discharges, d.location = location ∧ d.condition = key.condition ∧
          d.verify ops key.condition key.key sig v.now = .ok () := by
  have htoBool : ∀ r : Except MacaroonError Unit, r.toBool = true ↔ r = .ok () := by
    intro r
    cases r with
    | error e => simp [Except.toBool]
    | ok u => simp [Except.toBool]
  have hany : ∀ key : DischargeKeyRef Data,
      ((v.discharges.filter fun d => d.location = location ∧ d.condition = key.condition).any fun d =>
        (d.verify ops key.condition key.key sig v.now).toBool) = true ↔
      ∃ d ∈ v.discharges, d.location = location ∧ d.condition = key.condition ∧
        d.verify ops key.condition key.key sig v.now = .ok () := by
    intro key
    simp only [List.any_eq_true, List.mem_filter, decide_eq_true_eq, htoBool, and_assoc]
  rw [check, checkThirdParty]
  cases v.dischargeKeys.find? fun entry => entry.location = location ∧ entry.keyId = keyId with
  | none => simp
  | some key =>
      simp only [Option.some.injEq, exists_eq_left', ← hany key]
      split_ifs with hgood hempty
      · exact iff_of_true rfl hgood
      · exact iff_of_false (by simp) hgood
      · exact iff_of_false (by simp) hgood

/-- A discharge satisfies a third-party caveat if it names the location and the predicate of the caveat's key and verifies
under that key at the signature of the position. -/
theorem satisfiedBy_iff {v : CaveatVerifier Data Tag} {rootKey : Tag} {m : Macaroon Text Tag} {position : ℕ}
    {d : DischargeMacaroon Tag} :
    v.SatisfiedBy ops rootKey m position d ↔
      ∃ raw location keyId key, m.caveats[position]? = some raw ∧ ops.parse raw = .ok (.thirdParty location keyId) ∧
        (v.dischargeKeys.find? fun entry => entry.location = location ∧ entry.keyId = keyId) = some key ∧
        d.location = location ∧ d.condition = key.condition ∧
        d.verify ops key.condition key.key (m.signatureAt ops rootKey position) v.now = .ok () := by
  constructor
  · rintro ⟨⟨raw, location, keyId, hraw, hparse⟩, raw', caveat, hraw', hparse', hcheck⟩
    rw [hraw] at hraw'
    cases hraw'
    rw [hparse] at hparse'
    cases hparse'
    obtain ⟨key, hkey, d', hd', hverify⟩ := check_thirdParty_eq_ok.mp hcheck
    obtain rfl := List.mem_singleton.mp hd'
    exact ⟨raw, location, keyId, key, hraw, hparse, hkey, hverify⟩
  · rintro ⟨raw, location, keyId, key, hraw, hparse, hkey, hverify⟩
    exact ⟨⟨raw, location, keyId, hraw, hparse⟩, raw, _, hraw, hparse,
      check_thirdParty_eq_ok.mpr ⟨key, hkey, d, List.mem_singleton_self d, hverify⟩⟩

/-- A discharge that is enough on its own is enough among others. -/
theorem SatisfiedBy.acceptsAt {v : CaveatVerifier Data Tag} {rootKey : Tag} {m : Macaroon Text Tag} {position : ℕ}
    {d : DischargeMacaroon Tag} (h : v.SatisfiedBy ops rootKey m position d) (hd : d ∈ v.discharges) :
    v.AcceptsAt ops rootKey m position := by
  obtain ⟨raw, location, keyId, key, hraw, hparse, hkey, hverify⟩ := satisfiedBy_iff.mp h
  exact ⟨raw, _, hraw, hparse, check_thirdParty_eq_ok.mpr ⟨key, hkey, d, hd, hverify⟩⟩

/-- A discharge that is minted for the position of a caveat satisfies it until the discharge expires. -/
theorem satisfiedBy_minted {v : CaveatVerifier Data Tag} (rootKey : Tag) {m : Macaroon Text Tag} {position : ℕ}
    {raw : Text} {location keyId : String} {key : DischargeKeyRef Data} (hraw : m.caveats[position]? = some raw)
    (hparse : ops.parse raw = .ok (.thirdParty location keyId))
    (hkey : (v.dischargeKeys.find? fun entry => entry.location = location ∧ entry.keyId = keyId) = some key)
    {e : DateTime} (hnow : v.now ≤ e) :
    v.SatisfiedBy ops rootKey m position (DischargeMacaroon.mintWithExpiry ops location key.condition key.key
      (m.signatureAt ops rootKey position) (some e)) := by
  refine satisfiedBy_iff.mpr ⟨raw, location, keyId, key, hraw, hparse, hkey, rfl, rfl, ?_⟩
  refine (DischargeMacaroon.verify_of_tags ops rfl rfl v.now).mpr fun deadline hdeadline => ?_
  cases hdeadline
  exact hnow

/-- **A discharge is good at one place only.** If one discharge satisfies a third-party caveat of two macaroons, each under
its own root key, then the macaroons have the same identifier, the caveats are at the same position, and the macaroons are
the same up to there. -/
theorem discharge_one_place (hinj : ops.Injective) {handleHmacKey : Data}
    (hroot : ∀ id id' cs, macaroonRootKey ops handleHmacKey id ≠
      ops.chain (ops.start (macaroonRootKey ops handleHmacKey id') id') cs)
    {m m' : Macaroon Text Tag} {v v' : CaveatVerifier Data Tag} {i j : ℕ} {d : DischargeMacaroon Tag}
    (h : v.SatisfiedBy ops (macaroonRootKey ops handleHmacKey m.identifier) m i d)
    (h' : v'.SatisfiedBy ops (macaroonRootKey ops handleHmacKey m'.identifier) m' j d) :
    m.identifier = m'.identifier ∧ i = j ∧ m.caveats.take (i + 1) = m'.caveats.take (j + 1) := by
  have hbound : ∀ {v : CaveatVerifier Data Tag} {rootKey : Tag} {m : Macaroon Text Tag} {i : ℕ},
      v.SatisfiedBy ops rootKey m i d → i < m.caveats.length ∧ d.binding = d.bind ops (m.signatureAt ops rootKey i) := by
    intro v rootKey m i h
    obtain ⟨raw, location, keyId, key, hraw, -, -, -, -, hverify⟩ := satisfiedBy_iff.mp h
    exact ⟨(List.getElem?_eq_some_iff.mp hraw).1, ((DischargeMacaroon.verify_eq_ok ops).mp hverify).2.2⟩
  obtain ⟨hi, hbinding⟩ := hbound h
  obtain ⟨hj, hbinding'⟩ := hbound h'
  obtain ⟨hsig, -⟩ := hinj.hmac (hbinding.symm.trans hbinding')
  obtain ⟨hid, hcaveats⟩ := hinj.chain (hroot _ _) (hroot _ _) (hinj.ofTag hsig)
  have hlength := congrArg List.length hcaveats
  rw [List.length_take_of_le hi, List.length_take_of_le hj] at hlength
  exact ⟨hid, Nat.succ.inj hlength, hcaveats⟩

end CaveatVerifier

/-- The macaroon code with a free HMAC, over public caveats. -/
def freeOps : MacOps (List (Symbolic.Sym Secret)) (List (Symbolic.Sym Secret)) (Symbolic.Sym Secret) :=
  (SymbolicParser.publicOnly Chrono.packed).ops

/-- A handle that needs a discharge. -/
def gatedHandle : Macaroon (List (Symbolic.Sym Secret)) (Symbolic.Sym Secret) :=
  Macaroon.mint freeOps (macaroonRootKey freeOps [.atom .handleHmacKey] (Uuid.filled 1)) (Uuid.filled 1)
    [.thirdParty "auth" "key"]

/-- The broker with the key of that caveat, at a time. -/
def gatedVerifier (now : DateTime) : CaveatVerifier (List (Symbolic.Sym Secret)) (Symbolic.Sym Secret) :=
  ⟨none, none, none, none, some "unwrap", 1, now, [], [⟨"auth", "key", "mfa", [.atom (.dischargeKey 0)]⟩]⟩

/-- One discharge satisfies the caveat of the handle and that of an attenuated handle, and they are the same up to it. -/
theorem discharge_one_place_attenuated : ∃ (rootKey : Symbolic.Sym Secret) (d : DischargeMacaroon (Symbolic.Sym Secret)),
    (gatedVerifier ⟨0, 0⟩).SatisfiedBy freeOps rootKey gatedHandle 0 d ∧
    (gatedVerifier ⟨60, 0⟩).SatisfiedBy freeOps rootKey (gatedHandle.attenuate freeOps [.tenantId "acme"]) 0 d ∧
    gatedHandle.caveats.take 1 = (gatedHandle.attenuate freeOps [.tenantId "acme"]).caveats.take 1 := by
  have hreadable : (Caveat.thirdParty "auth" "key").Readable Chrono.packed := ⟨by decide, by decide⟩
  have hparse : freeOps.parse (freeOps.encode (.thirdParty "auth" "key")) = .ok (.thirdParty "auth" "key") :=
    ((SymbolicParser.publicOnly Chrono.packed).parse_literal _).trans (Caveat.parse_encode _ hreadable)
  have hraw : gatedHandle.caveats[0]? = some (freeOps.encode (.thirdParty "auth" "key")) := rfl
  have hminted : ∀ now ≤ (⟨300, 0⟩ : DateTime), ∀ rootKey, (gatedVerifier now).SatisfiedBy freeOps rootKey gatedHandle 0
      (DischargeMacaroon.mintWithExpiry freeOps "auth" "mfa" [.atom (.dischargeKey 0)]
        (gatedHandle.signatureAt freeOps rootKey 0) (some ⟨300, 0⟩)) := by
    intro now hnow rootKey
    have hkey : ((gatedVerifier now).dischargeKeys.find? fun entry => entry.location = "auth" ∧ entry.keyId = "key") =
        some ⟨"auth", "key", "mfa", [.atom (.dischargeKey 0)]⟩ := rfl
    have hnow' : (gatedVerifier now).now ≤ ⟨300, 0⟩ := hnow
    exact CaveatVerifier.satisfiedBy_minted rootKey hraw hparse hkey hnow'
  have hfirst := hminted ⟨0, 0⟩ (by decide) (macaroonRootKey freeOps [.atom .handleHmacKey] (Uuid.filled 1))
  have hsecond := (hminted ⟨60, 0⟩ (by decide) (macaroonRootKey freeOps [.atom .handleHmacKey] (Uuid.filled 1))).attenuate
    [.tenantId "acme"]
  obtain ⟨-, -, hsame⟩ := CaveatVerifier.discharge_one_place SymbolicParser.ops_injective
    (fun id id' cs => (SymbolicParser.handleChain_ne_rootKey id' id cs).symm) hfirst hsecond
  exact ⟨_, _, hfirst, hsecond, hsame⟩

end SecretBroker
