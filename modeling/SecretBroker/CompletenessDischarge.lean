import SecretBroker.Completeness
import SecretBroker.SecurityAttenuation

/-! The discharges that the broker mints. The lookup of the position that a discharge is bound to and the verification of a
handle compute the chain apart from each other, and both look the caveat's key up in the record; a minted discharge is
accepted because they agree. -/

open Wire

namespace SecretBroker

section

variable {Text Data Tag : Type} {ops : MacOps Text Data Tag}

/-- What the lookup finds is what it had found, or the signature after a matching caveat. -/
theorem Macaroon.bindingLoop_eq_some {location keyId : String} {sig tag : Tag} {found : Option Tag} {cs : List Text}
    (h : bindingLoop ops location keyId sig found cs = .ok (some tag)) :
    found = some tag ∨ ∃ (position : ℕ) (raw : Text), cs[position]? = some raw ∧
    ops.parse raw = .ok (.thirdParty location keyId) ∧
      tag = ops.chain sig (cs.take (position + 1)) := by
  induction cs generalizing sig found with
  | nil =>
      rw [bindingLoop, Except.ok.injEq] at h
      exact Or.inl h
  | cons raw rest ih =>
      obtain ⟨caveat, hparse, h⟩ := Eff.except_bind_eq_ok.mp h
      -- a match further on is one position later, one link further
      have hlater : ∀ {found : Option Tag}, bindingLoop ops location keyId (ops.link sig raw) found rest = .ok (some tag) →
          found = some tag ∨ ∃ (position : ℕ) (raw' : Text), (raw :: rest)[position]? = some raw' ∧
            ops.parse raw' = .ok (.thirdParty location keyId) ∧
              tag = ops.chain sig ((raw :: rest).take (position + 1)) := by
        intro found hrest
        rcases ih hrest with hfound | ⟨position, raw', hraw', hparse', htag⟩
        · exact Or.inl hfound
        · exact Or.inr ⟨position + 1, raw', hraw', hparse', htag⟩
      split_ifs at h with hmatch
      · cases found with
        | some _ => cases h
        | none =>
            rcases hlater h with hfound | hposition
            · cases hfound
              exact Or.inr ⟨0, raw, rfl, hmatch ▸ hparse, rfl⟩
            · exact Or.inr hposition
      · exact hlater h

/-- The lookup returns the signature at the position of a matching caveat. -/
theorem Macaroon.position_of_bindingInfo {m : Macaroon Text Tag} {rootKey sig : Tag} {location keyId : String}
    (h : m.thirdPartyBindingInfoByKeyId ops rootKey location keyId = .ok sig) :
    ∃ (position : ℕ) (raw : Text), m.caveats[position]? = some raw ∧ ops.parse raw = .ok (.thirdParty location keyId) ∧
      sig = m.signatureAt ops rootKey position := by
  obtain ⟨found, hloop, hfound⟩ := Eff.except_bind_eq_ok.mp h
  cases found with
  | none => cases hfound
  | some tag =>
      cases hfound
      rcases bindingLoop_eq_some hloop with hnone | hposition
      · cases hnone
      · exact hposition

end

/-- What a search finds in a list, it finds in a list that agrees with it entry by entry. -/
theorem find_of_forall₂ {α β : Type} {R : α → β → Prop} {p : α → Bool} {q : β → Bool} (hpq : ∀ a b, R a b → p a = q b)
    {l : List α} {l' : List β} (h : List.Forall₂ R l l') {a : α} (ha : l.find? p = some a) :
    ∃ b, l'.find? q = some b ∧ R a b := by
  induction h with
  | nil => cases ha
  | @cons x y _ _ hxy _ ih =>
      rw [List.find?_cons] at ha ⊢
      rw [← hpq x y hxy]
      cases hp : p x with
      | true =>
          rw [hp] at ha
          cases ha
          exact ⟨y, rfl, hxy⟩
      | false =>
          rw [hp] at ha
          exact ih ha

variable {env : Env}

/-- The key of a stored entry keeps its location, its id and its predicate. -/
theorem dischargeKey_eq_ok {entry : ThirdPartyCaveatKey} {key : DischargeKeyRef Bytes}
    (h : dischargeKey env entry = .ok key) :
    key.location = entry.location ∧ key.keyId = entry.keyId ∧ entry.condition = some key.condition ∧
      Base64.standard.decode entry.secretB64 = some key.key := by
  simp only [dischargeKey, Eff.except_bind_eq_ok, Eff.okOr_eq_ok] at h
  obtain ⟨decoded, hdecoded, block, hblock, condition, hcondition, hkey⟩ := h
  cases hkey
  refine ⟨rfl, rfl, hcondition, ?_⟩
  unfold sized at hblock
  split_ifs at hblock
  cases hblock
  exact hdecoded

/-- The verification of a handle finds the key of the entry that the mint of a discharge finds. -/
theorem find_dischargeKey {r : StoredEnvelopeRecord} {keys : List (DischargeKeyRef Bytes)}
    (hkeys : dischargeKeysForRecord env r = .ok keys) {location keyId : String} {entry : ThirdPartyCaveatKey}
    (hentry : ((r.thirdPartyCaveatKeys.getD []).find? fun entry => entry.location = location ∧ entry.keyId = keyId) =
      some entry) : ∃ key, (keys.find? fun key => key.location = location ∧ key.keyId = keyId) = some key ∧
        dischargeKey env entry = .ok key := by
  refine find_of_forall₂ (fun stored key hstored => ?_) (Eff.except_mapM_eq_ok.mp hkeys) hentry
  obtain ⟨hlocation, hkeyId, -, -⟩ := dischargeKey_eq_ok hstored
  rw [hlocation, hkeyId]

/-- **A minted discharge satisfies its caveat.** If the handle is signed, the caveat occurs once in it, and the
record has an entry for it, then the broker mints a discharge from the stored predicate and secret, and the discharge
is accepted at the caveat's position until it expires, in the handle and in everything that the handle is attenuated
to, whatever other discharges are presented; only the other caveats are left to decide. -/
theorem minted_discharge_accepted {r : StoredEnvelopeRecord} {keys : List (DischargeKeyRef Bytes)}
    (hkeys : dischargeKeysForRecord env r = .ok keys) {m : Macaroon String (Block 32)}
    (hsigned : m.verifySignature env.mac (env.rootKey m.identifier) = .ok ()) {location keyId : String} {sig : Block 32}
    (hsig : m.thirdPartyBindingInfoByKeyId env.mac (env.rootKey m.identifier) location keyId = .ok sig)
    (hentry : ∃ entry ∈ r.thirdPartyCaveatKeys.getD [], entry.location = location ∧ entry.keyId = keyId) :
    ∃ entry condition secret position,
      ((r.thirdPartyCaveatKeys.getD []).find? fun entry => entry.location = location ∧ entry.keyId = keyId) = some entry ∧
      entry.condition = some condition ∧ Base64.standard.decode entry.secretB64 = some secret ∧
      (∀ now e, now.addSeconds dischargeTokenTtlSeconds = some e → mintDischarge env now r m location keyId =
        .ok (DischargeMacaroon.mintWithExpiry env.mac location condition secret sig (some e))) ∧
      ∀ (added : List Caveat) (v : CaveatVerifier Bytes (Block 32)) (e : DateTime), v.dischargeKeys = keys → v.now ≤ e →
        DischargeMacaroon.mintWithExpiry env.mac location condition secret sig (some e) ∈ v.discharges →
        (∃ raw, (m.attenuate env.mac added).caveats[position]? = some raw ∧
          env.mac.parse raw = .ok (.thirdParty location keyId)) ∧
        v.AcceptsAt env.mac (env.rootKey m.identifier) (m.attenuate env.mac added) position ∧
        ((m.attenuate env.mac added).verify env.mac (env.rootKey m.identifier) v = .ok () ↔
          ∀ other < (m.attenuate env.mac added).caveats.length, other ≠ position →
            v.AcceptsAt env.mac (env.rootKey m.identifier) (m.attenuate env.mac added) other) := by
  obtain ⟨entry, hfind⟩ : ∃ entry, ((r.thirdPartyCaveatKeys.getD []).find? fun entry =>
      entry.location = location ∧ entry.keyId = keyId) = some entry := by
    obtain ⟨entry, hmem, hmatch⟩ := hentry
    exact Option.isSome_iff_exists.mp (List.find?_isSome.mpr ⟨entry, hmem, decide_eq_true hmatch⟩)
  obtain ⟨key, hkey, hread⟩ := find_dischargeKey hkeys hfind
  obtain ⟨hlocation, hkeyId, hcondition, hsecret⟩ := dischargeKey_eq_ok hread
  obtain ⟨position, raw, hraw, hparse, rfl⟩ := Macaroon.position_of_bindingInfo hsig
  refine ⟨entry, key.condition, key.key, position, hfind, hcondition, hsecret, fun now e he => ?_, ?_⟩
  · have hmatch : entry.location = location ∧ entry.keyId = keyId := by simpa using List.find?_some hfind
    simp only [mintDischarge, Eff.except_bind_eq_ok, Eff.except_mapError_eq_ok, Eff.okOr_eq_ok]
    refine ⟨(), hsigned, entry, hfind, _, ?_, key.condition, hcondition, keys, hkeys, key, ?_, e, he, rfl⟩
    · rw [hmatch.2]
      exact hsig
    · rw [hmatch.2]
      exact hkey
  · intro added v e hvkeys hnow hd
    have hvkey : (v.dischargeKeys.find? fun key => key.location = location ∧ key.keyId = keyId) = some key := by
      rw [hvkeys, hkey]
    have hsatisfied := CaveatVerifier.satisfiedBy_minted (env.rootKey m.identifier) hraw hparse hvkey hnow
    have haccepts := (hsatisfied.attenuate added).acceptsAt hd
    obtain ⟨hposition, -⟩ := List.getElem?_eq_some_iff.mp hraw
    refine ⟨⟨raw, ?_, hparse⟩, haccepts, ?_⟩
    · rw [Macaroon.attenuate_caveats, List.getElem?_append_left hposition, hraw]
    · have hchain : (m.attenuate env.mac added).signature =
          env.mac.chain (env.mac.start (env.rootKey m.identifier) (m.attenuate env.mac added).identifier)
            (m.attenuate env.mac added).caveats := by
        rw [Macaroon.attenuate_signature, Macaroon.attenuate_identifier, Macaroon.attenuate_caveats, MacOps.chain_append,
          ← (Macaroon.verifySignature_eq_ok env.mac).mp hsigned]
      rw [Macaroon.verify_eq_ok_acceptsAt, and_iff_right hchain]
      refine ⟨fun h other hother _ => h other hother, fun h other hother => ?_⟩
      by_cases hsame : other = position
      · rw [hsame]
        exact haccepts
      · exact h other hother hsame

/-- The stored key of a caveat, with a secret of zeros. -/
def plainCaveatKey : ThirdPartyCaveatKey := ⟨"auth", "key", some "mfa", Base64.standard.encode (blank 32).val, ⟨0, 0⟩⟩

/-- A handle that needs a discharge. -/
def plainGated : Macaroon String (Block 32) :=
  Macaroon.mint plainEnv.mac (plainEnv.rootKey (.filled 1)) (.filled 1) [.thirdParty "auth" "key"]

theorem plainGated_parse : plainEnv.mac.parse (plainEnv.mac.encode (.thirdParty "auth" "key")) =
      .ok (.thirdParty "auth" "key") :=
  Caveat.parse_encode plainEnv.chrono
    (show (Caveat.thirdParty "auth" "key").Readable plainEnv.chrono from ⟨by decide, by decide⟩)

/-- The handle verifies four minutes after its discharge was minted, with a discharge in front that is bound to another
handle. -/
theorem minted_discharge_accepted_plain : ∃ r d, r.thirdPartyCaveatKeys = some [plainCaveatKey] ∧
    mintDischarge plainEnv ⟨0, 0⟩ r plainGated "auth" "key" = .ok d ∧ { d with binding := filledBlock 32 1 } ≠ d ∧
    plainGated.verify plainEnv.mac (plainEnv.rootKey (.filled 1)) ⟨none, none, none, none, some "unwrap", 1, ⟨240, 0⟩,
      [{ d with binding := filledBlock 32 1 }, d], [⟨"auth", "key", "mfa", (blank 32).val⟩]⟩ = .ok () := by
  obtain ⟨-, r, -⟩ := plain_checks .singleUseUnwrap
  have hkeys : dischargeKeysForRecord plainEnv { r with thirdPartyCaveatKeys := some [plainCaveatKey] } =
      .ok [⟨"auth", "key", "mfa", (blank 32).val⟩] := by
    refine Eff.except_mapM_eq_ok.mpr (.cons ?_ .nil)
    rw [dischargeKey, plainCaveatKey, Base64.decode_encode Base64.standard_lawful, Eff.okOr_some, Eff.ok_bind, sized_val]
    rfl
  have hsigned : plainGated.verifySignature plainEnv.mac (plainEnv.rootKey plainGated.identifier) = .ok () :=
    (Macaroon.verifySignature_eq_ok _).mpr rfl
  have hsig : plainGated.thirdPartyBindingInfoByKeyId plainEnv.mac (plainEnv.rootKey plainGated.identifier) "auth" "key" =
      .ok plainGated.signature := by
    have hcaveats : plainGated.caveats = [plainEnv.mac.encode (.thirdParty "auth" "key")] := rfl
    rw [Macaroon.thirdPartyBindingInfoByKeyId, hcaveats, Macaroon.bindingLoop, plainGated_parse, Eff.ok_bind, if_pos rfl]
    rfl
  obtain ⟨entry, condition, secret, position, hfind, hcondition, hsecret, hmint, haccepted⟩ :=
    minted_discharge_accepted hkeys hsigned hsig ⟨plainCaveatKey, List.mem_singleton_self _, rfl, rfl⟩
  have hd := hmint ⟨0, 0⟩ ⟨300, 0⟩ rfl
  have hother : filledBlock 32 1 ≠ blank 32 := by decide
  refine ⟨_, _, rfl, hd, fun heq => hother (congrArg DischargeMacaroon.binding heq), ?_⟩
  obtain ⟨⟨raw, hraw, -⟩, -, hverify⟩ := haccepted [] ⟨none, none, none, none, some "unwrap", 1, ⟨240, 0⟩, [_, _],
    [⟨"auth", "key", "mfa", (blank 32).val⟩]⟩ ⟨300, 0⟩ rfl (show (⟨240, 0⟩ : DateTime) ≤ ⟨300, 0⟩ by decide)
    (List.mem_cons_of_mem _ (List.mem_singleton_self _))
  refine hverify.mpr fun other hother hne => ?_
  -- the handle has one caveat only
  obtain ⟨hposition, -⟩ := List.getElem?_eq_some_iff.mp hraw
  have hlength : (plainGated.attenuate plainEnv.mac []).caveats.length = 1 := rfl
  omega

end SecretBroker
