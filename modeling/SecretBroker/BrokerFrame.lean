import SecretBroker.BrokerSteps

/-! What the steps of a request can do to the broker. Records and encryption keys that exist are kept or evolve; new ones
appear under the UUIDs that the request draws, and a new record carries the identity it was issued under and the times that
it was granted. -/

open Wire Register

namespace SecretBroker

/-- Records under other UUIDs than those drawn take their own steps. -/
theorem BrokerStep.follows {env : Env} {scope : Scope} {s s' : Broker} (h : BrokerStep env scope s s') {id : Uuid}
    (hid : id ∉ scope.uuids) : Follows (RecordSteps env.serde) (s.records id) (s'.records id) := by
  have hput : ∀ {s : Broker} {handle : Uuid} {cell : Option StoredEnvelopeRecord},
      (id = handle → Follows (RecordSteps env.serde) (s.records handle) cell) →
      Follows (RecordSteps env.serde) (s.records id) ((s.putRecord handle cell).records id) := by
    intro s handle cell hcell
    by_cases heq : id = handle
    · rw [heq, Broker.putRecord_records_self]
      exact hcell heq
    · rw [Broker.putRecord_records_of_ne heq]
      exact refl_of (Follows (RecordSteps env.serde)) _
  cases h with
  | record event => exact refl_of (Follows (RecordSteps env.serde)) _
  | store h =>
      cases h with
      | key h => cases h <;> exact refl_of (Follows (RecordSteps env.serde)) _
      | touch hr hstep =>
          refine hput fun _ r₁ hr₁ => ?_
          cases hr₁
          exact ⟨_, hr, .single hstep.step⟩
      | renew hr hrenewal hid hlive hduration hlease storeNow count =>
          refine hput fun _ r₁ hr₁ => ?_
          cases hr₁
          exact ⟨_, hr, .single (.renewLease _ _ storeNow count)⟩
      | remove id => exact hput fun _ r hr => by cases hr
      | issue hp hfresh hissued hgrants => exact hput fun heq => absurd (heq ▸ hfresh) hid
      | amend hfresh hr hadv hlease => exact hput fun heq => absurd (heq ▸ hfresh) hid

theorem BrokerSteps.follows {env : Env} {scope : Scope} {s s' : Broker} (h : BrokerSteps env scope s s') {id : Uuid}
    (hid : id ∉ scope.uuids) : Follows (RecordSteps env.serde) (s.records id) (s'.records id) := by
  induction h with
  | refl => exact refl_of (Follows (RecordSteps env.serde)) _
  | tail _ hstep ih => exact trans_of (Follows (RecordSteps env.serde)) ih (hstep.follows hid)

/-- `s'` comes from `s` by a request that draws the UUIDs `fresh`. `P` is what every record under a
given id satisfies. -/
structure Framed (serde : Serde) (fresh : List Uuid) (P : Uuid → StoredEnvelopeRecord → Prop) (s s' : Broker) : Prop where
  records : ∀ id ∉ fresh, Follows (Evolves serde) (s.records id) (s'.records id)
  holds : ∀ id, OnRecord (P id) (s.records id) → OnRecord (P id) (s'.records id)
  kyberTree : ∀ keyId, (∀ id ∈ fresh, id.toString ≠ keyId) → s'.kyberTree keyId = s.kyberTree keyId

instance {serde : Serde} {fresh : List Uuid} {P : Uuid → StoredEnvelopeRecord → Prop} :
    IsPreorder Broker (Framed serde fresh P) where
  refl _ := ⟨fun _ _ => refl_of (Follows (Evolves serde)) _, fun _ h => h, fun _ _ => rfl⟩
  trans _ _ _ h h' := {
    records := fun id hid => trans_of (Follows (Evolves serde)) (h.records id hid) (h'.records id hid)
    holds := fun id hP => h'.holds id (h.holds id hP)
    kyberTree := fun keyId hkey => (h'.kyberTree keyId hkey).trans (h.kyberTree keyId hkey) }

/-- A step that changes neither records nor encryption keys. -/
theorem framed_of_eq {serde : Serde} {fresh : List Uuid} {P : Uuid → StoredEnvelopeRecord → Prop} {s s' : Broker}
    (hrecords : s'.records = s.records) (hkyber : s'.kyberTree = s.kyberTree) : Framed serde fresh P s s' := by
  refine ⟨fun id _ => ?_, fun id h => ?_, fun keyId _ => ?_⟩
  · rw [hrecords]
    exact refl_of (Follows (Evolves serde)) _
  · rwa [hrecords]
  · rw [hkyber]

/-- One record changes, and what becomes of it is allowed. -/
theorem framed_putRecord {serde : Serde} {fresh : List Uuid} {P : Uuid → StoredEnvelopeRecord → Prop} {s : Broker}
    {handle : Uuid} {cell : Option StoredEnvelopeRecord}
    (hold : handle ∉ fresh → Follows (Evolves serde) (s.records handle) cell)
    (hnew : OnRecord (P handle) (s.records handle) → OnRecord (P handle) cell) :
    Framed serde fresh P s (s.putRecord handle cell) := by
  refine ⟨fun id hid => ?_, fun id h => ?_, fun _ _ => rfl⟩
  · by_cases heq : id = handle
    · subst heq
      rw [Broker.putRecord_records_self]
      exact hold hid
    · rw [Broker.putRecord_records_of_ne heq]
      exact refl_of (Follows (Evolves serde)) _
  · by_cases heq : id = handle
    · subst heq
      rw [Broker.putRecord_records_self]
      exact hnew h
    · rw [Broker.putRecord_records_of_ne heq]
      exact h

theorem framed_of_step {env : Env} {scope : Scope} {P : Uuid → StoredEnvelopeRecord → Prop}
    (hP : ∀ id r r', Advances env.serde r r' → P id r → P id r')
    (hissue : ∀ p ∈ scope.newSecrets, ∀ r, IssuedBy p.toIssuance r → p.terms.Grants env r → P p.handleId r) {s s' : Broker}
    (h : BrokerStep env scope s s') : Framed env.serde scope.uuids P s s' := by
  -- a record that exists is rewritten
  have hrewrite : ∀ {s : Broker} {id : Uuid} {r r' : StoredEnvelopeRecord}, s.records id = some r →
      RecordStep env.serde r r' → Framed env.serde scope.uuids P s (s.putRecord id (some r')) := by
    intro s id r r' hr hstep
    refine framed_putRecord (fun _ r₁ hr₁ => ?_) fun hold r₁ hr₁ => ?_
    · cases hr₁
      exact ⟨r, hr, hstep.evolves⟩
    · cases hr₁
      exact hP id r _ hstep.evolves.toAdvances (hold r hr)
  cases h with
  | record event => exact framed_of_eq rfl rfl
  | store h =>
      cases h with
      | key h =>
          cases h with
          | storeKey hkey =>
              refine ⟨fun _ _ => refl_of (Follows (Evolves env.serde)) _, fun _ h => h, fun keyId hkeyId => ?_⟩
              obtain ⟨id, hid, hpair⟩ := hkey
              exact Function.update_of_ne (fun heq => hkeyId id hid (hpair.trans heq.symm)) _ _
          | addKey hkey hpair => exact framed_of_eq rfl rfl
          | useKey keyId now => exact framed_of_eq rfl rfl
      | touch hr hstep => exact hrewrite hr hstep.step
      | renew hr hrenewal hid hlive hduration hlease storeNow count => exact hrewrite hr (.renewLease _ _ storeNow count)
      | remove id => exact framed_putRecord (fun _ r hr => by cases hr) fun _ r hr => by cases hr
      | issue hp hid hissued hgrants =>
          refine framed_putRecord (fun hold => absurd hid hold) fun _ r hr => ?_
          cases hr
          exact hissue _ hp _ hissued hgrants
      | amend hid hr hadv hlease =>
          refine framed_putRecord (fun hold => absurd hid hold) fun hold r₁ hr₁ => ?_
          cases hr₁
          exact hP _ _ _ hadv (hold _ hr)

/-- Whatever takes these steps only is framed. -/
theorem framed_of_steps {env : Env} {scope : Scope} {P : Uuid → StoredEnvelopeRecord → Prop}
    (hP : ∀ id r r', Advances env.serde r r' → P id r → P id r')
    (hissue : ∀ p ∈ scope.newSecrets, ∀ r, IssuedBy p.toIssuance r → p.terms.Grants env r → P p.handleId r) {s s' : Broker}
    (h : BrokerSteps env scope s s') : Framed env.serde scope.uuids P s s' := by
  induction h with
  | refl => exact refl_of (Framed env.serde scope.uuids P) s
  | tail _ hstep ih => exact trans_of (Framed env.serde scope.uuids P) ih (framed_of_step hP hissue hstep)

/-- Consuming a token, whatever the record. -/
theorem consumeToken_framed (env : Env) {fresh : List Uuid} (markDisk : Disk) (handleId : Uuid)
    (lifecycle : SecretLifecycle) :
    Eff.Keeps (Framed env.serde fresh fun _ _ => True) (consumeToken env markDisk handleId lifecycle) := by
  refine Eff.keeps_ite (Eff.keeps_pure _) (Eff.keeps_mapError (keeps_perform _ _ _ fun s => ?_) _)
  exact framed_putRecord (fun _ => SealedStore.markRedeemUsed_evolves env.serde _) fun _ _ _ => trivial

end SecretBroker
