import SecretBroker.MacaroonWire

/-! What the two tags of a discharge protect. They cover the discharge key, the condition and the
position in the primary macaroon, and neither of them covers the expiry. -/

open Wire

namespace SecretBroker.DischargeMacaroon

variable {Text Data Tag : Type} [DecidableEq Tag] (ops : MacOps Text Data Tag)

/-- A discharge verifies exactly when it is not past its own expiry and both tags are right. -/
theorem verify_eq_ok {d : DischargeMacaroon Tag} {condition : String} {dischargeKey : Data}
    {primarySignature : Tag} {now : DateTime} {u : Unit} :
    d.verify ops condition dischargeKey primarySignature now = .ok u ↔
      (∀ deadline, d.expiresAt = some deadline → now ≤ deadline) ∧
      d.dischargeSignature = ops.hmacCompute dischargeKey (ops.ofBytes (asBytes condition)) ∧
      d.binding = ops.hmacCompute (ops.ofTag primarySignature) (ops.ofTag d.dischargeSignature) := by
  have hlive : (¬ (d.expiresAt.any fun deadline => now > deadline) = true) ↔
      ∀ deadline, d.expiresAt = some deadline → now ≤ deadline := by
    cases d.expiresAt with
    | none => simp
    | some deadline => simp
  simp only [verify, Eff.except_bind_eq_ok, Eff.rejectIf_eq_ok, hlive, not_ne_iff, exists_const]
  exact and_congr_right fun _ => and_congr eq_comm eq_comm

/-- Whoever carries the tags of a minted discharge passes both tag checks; only the expiry that the
value itself carries is left to reject it. -/
theorem verify_of_tags {location condition : String} {dischargeKey : Data} {primarySignature : Tag}
    {expiresAt : Option DateTime} {d : DischargeMacaroon Tag}
    (hsignature : d.dischargeSignature =
      (mintWithExpiry ops location condition dischargeKey primarySignature expiresAt).dischargeSignature)
    (hbinding : d.binding =
      (mintWithExpiry ops location condition dischargeKey primarySignature expiresAt).binding)
    (now : DateTime) :
    d.verify ops condition dischargeKey primarySignature now = .ok () ↔
      ∀ deadline, d.expiresAt = some deadline → now ≤ deadline := by
  rw [verify_eq_ok]
  refine ⟨fun h => h.1, fun h => ⟨h, hsignature, ?_⟩⟩
  rw [hbinding, hsignature]
  rfl

/-- **The expiry binds only a holder who keeps it.** A value with the tags of a discharge minted with
expiry `e` is rejected at every time after `e` exactly when it carries an expiry of its own that is
not after `e`. -/
theorem expiry_binding_iff (location condition : String) (dischargeKey : Data) (primarySignature : Tag)
    (e : DateTime) (d : DischargeMacaroon Tag)
    (hsignature : d.dischargeSignature =
      (mintWithExpiry ops location condition dischargeKey primarySignature (some e)).dischargeSignature)
    (hbinding : d.binding =
      (mintWithExpiry ops location condition dischargeKey primarySignature (some e)).binding) :
    (∀ now, now > e → ∃ err, d.verify ops condition dischargeKey primarySignature now = .error err) ↔
      ∃ deadline, d.expiresAt = some deadline ∧ deadline ≤ e := by
  have herror : ∀ now, (∃ err, d.verify ops condition dischargeKey primarySignature now = .error err) ↔
      ∃ deadline, d.expiresAt = some deadline ∧ deadline < now := by
    intro now
    have hok := verify_of_tags ops hsignature hbinding now
    cases hverify : d.verify ops condition dischargeKey primarySignature now with
    | error err =>
        rw [hverify] at hok
        have hpast := mt hok.mpr (by simp)
        push Not at hpast
        simpa using hpast
    | ok u =>
        have hlive := hok.mp hverify
        simp only [reduceCtorEq, exists_false, false_iff, not_exists, not_and, not_lt]
        exact hlive
  simp only [herror]
  constructor
  · intro hreject
    -- some time is later than `e`, so there is an expiry; it is not later than `e`, since otherwise
    -- the value would be accepted at its own expiry
    have hlater : e < ⟨e.secs + 1, e.nanos⟩ := DateTime.lt_iff.mpr (Or.inl (Int.lt_succ e.secs))
    obtain ⟨deadline, hdeadline, -⟩ := hreject _ hlater
    refine ⟨deadline, hdeadline, not_lt.mp fun hlt => ?_⟩
    obtain ⟨deadline', hdeadline', hself⟩ := hreject deadline hlt
    rw [hdeadline] at hdeadline'
    cases hdeadline'
    exact lt_irrefl _ hself
  · rintro ⟨deadline, hdeadline, hle⟩ now hnow
    exact ⟨deadline, hdeadline, lt_of_le_of_lt hle hnow⟩

/-- A discharge for condition `mfa` at location `auth`, minted for five minutes. -/
def fiveMinutes (chrono : Chrono) (hmac : Bytes → Bytes → Block 32) : DischargeMacaroon (Block 32) :=
  mintWithExpiry (MacOps.code chrono hmac) "auth" "mfa" (List.replicate 32 7) ⟨List.replicate 32 1, rfl⟩
    (some ⟨300, 0⟩)

/-- Kept as it was minted, the discharge is rejected after its five minutes, whatever the HMAC is. -/
theorem expiry_binding_minted : ∃ e : DateTime, ∀ (chrono : Chrono) (hmac : Bytes → Bytes → Block 32),
    (fiveMinutes chrono hmac).expiresAt = some e ∧ ∀ now : DateTime, now > e → ∃ err,
      (fiveMinutes chrono hmac).verify (MacOps.code chrono hmac) "mfa" (List.replicate 32 7)
        ⟨List.replicate 32 1, rfl⟩ now = .error err := by
  refine ⟨⟨300, 0⟩, fun chrono hmac => ⟨rfl, ?_⟩⟩
  exact (expiry_binding_iff (MacOps.code chrono hmac) "auth" "mfa" _ _ ⟨300, 0⟩ (fiveMinutes chrono hmac) rfl rfl).mpr
    ⟨_, rfl, le_refl _⟩

theorem fiveMinutes_fits (chrono : Chrono) (hmac : Bytes → Bytes → Block 32) : (fiveMinutes chrono hmac).Fits := by
  refine ⟨?_, ?_, ?_⟩
  · change (asBytes "auth").length < 65536
    decide
  · change (asBytes "mfa").length < 65536
    decide
  · rintro t ⟨⟩
    decide

/-- The text of a discharge without the eight bytes of its expiry. -/
def withoutExpiry (wire : String) : String :=
  match deserialize wire with
  | .ok d => { d with expiresAt := none }.serialize
  | .error _ => wire

theorem deserialize_withoutExpiry {d : DischargeMacaroon (Block 32)} (hd : d.Fits) :
    deserialize (withoutExpiry d.serialize) = .ok { d with expiresAt := none } := by
  rw [withoutExpiry, deserialize_serialize hd]
  exact deserialize_serialize ⟨hd.1, hd.2.1, fun t ht => by cases ht⟩

/-- One edit of the text gets around the expiry, whatever the HMAC is and without its key: the tags stay as they were, and
the discharge verifies an hour later. -/
theorem expiry_not_binding : ∃ edit : String → String, ∀ (chrono : Chrono) (hmac : Bytes → Bytes → Block 32),
    ∃ d, deserialize (edit (fiveMinutes chrono hmac).serialize) = .ok d ∧
      d.dischargeSignature = (fiveMinutes chrono hmac).dischargeSignature ∧ d.binding = (fiveMinutes chrono hmac).binding ∧
      d.verify (MacOps.code chrono hmac) "mfa" (List.replicate 32 7) ⟨List.replicate 32 1, rfl⟩ ⟨3600, 0⟩ = .ok () := by
  refine ⟨withoutExpiry, fun chrono hmac => ⟨_, deserialize_withoutExpiry (fiveMinutes_fits chrono hmac), rfl, rfl, ?_⟩⟩
  have hsignature : { fiveMinutes chrono hmac with expiresAt := none }.dischargeSignature =
      (mintWithExpiry (MacOps.code chrono hmac) "auth" "mfa" (List.replicate 32 7) ⟨List.replicate 32 1, rfl⟩
        (some ⟨300, 0⟩)).dischargeSignature := rfl
  exact (verify_of_tags (MacOps.code chrono hmac) hsignature rfl ⟨3600, 0⟩).mpr fun deadline h => by cases h

end SecretBroker.DischargeMacaroon
