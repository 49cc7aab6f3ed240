import SecretBroker.AtomicIssuance
import SecretBroker.CompletenessLease

/-! The times a secret is issued with. A time to live is granted up to a cap, and a lease ends within the life of the
secret; both are counted in 64-bit seconds that the code reads as signed numbers, so that the upper half of the range
counts backwards. The invariants are proved of every record that a run of requests reaches. -/

open Wire Register

namespace SecretBroker

namespace DateTime

/-- The duration and the time at its end are in chrono's range. -/
def CanAdd (t : DateTime) (secs : Int) : Prop :=
  -9223372036854775 ≤ secs ∧ secs ≤ 9223372036854775 ∧ minSecs ≤ (t.later secs).secs ∧ (t.later secs).secs ≤ maxSecs

theorem addSeconds_eq_some {t u : DateTime} {secs : Int} :
    t.addSeconds secs = some u ↔ t.CanAdd secs ∧ u = t.later secs := by
  unfold addSeconds CanAdd
  split_ifs with hduration hsum
  · simp only [false_iff, not_and]
    omega
  · simp only [false_iff, not_and]
    omega
  · rw [Option.some.injEq, eq_comm, and_iff_right]
    omega

theorem addSeconds_eq_none {t : DateTime} {secs : Int} : t.addSeconds secs = none ↔ ¬ t.CanAdd secs := by
  rw [Option.eq_none_iff_forall_ne_some]
  simp only [ne_eq, addSeconds_eq_some, not_and]
  exact ⟨fun h hadd => h _ hadd rfl, fun h _ hadd => absurd hadd h⟩

theorem later_lt_later {t : DateTime} {m n : Int} : t.later m < t.later n ↔ m < n := by
  rw [lt_iff]
  unfold later outOfLeap
  split_ifs
  all_goals
    dsimp only
    omega

theorem later_le_later {t : DateTime} {m n : Int} : t.later m ≤ t.later n ↔ m ≤ n := by
  rw [← not_lt, later_lt_later, not_lt]

@[simp] theorem later_zero (t : DateTime) : t.later 0 = t := by
  rw [later, outOfLeap, if_pos (Or.inr rfl), add_zero]

theorem lt_later {t : DateTime} {n : Int} : t < t.later n ↔ 0 < n := by
  simpa using later_lt_later (t := t) (m := 0) (n := n)

theorem le_later {t : DateTime} {n : Int} : t ≤ t.later n ↔ 0 ≤ n := by
  simpa using later_le_later (t := t) (m := 0) (n := n)

end DateTime

/-- The lower half of the numbers is read as it is, the upper half as negative ones. -/
theorem asI64_eq (n : UInt64) : asI64 n = if n.toNat < 2 ^ 63 then (n.toNat : Int) else n.toNat - 2 ^ 64 := by
  have hbits : n.toInt64.toBitVec.toNat = n.toNat := rfl
  rw [asI64, ← Int64.toInt_toBitVec, BitVec.toInt_eq_toNat_cond, hbits]
  split_ifs <;> omega

/-- The expiry comes after the creation and not after the cap. -/
def ExpiryCapped (max : Int) (createdAt e : DateTime) : Prop := createdAt < e ∧ e ≤ createdAt.later max

/-- `enforce_ttl` refuses the request or grants an expiry within the cap. It does not panic. -/
def TtlEnforced (env : Env) (createdAt : DateTime) (secs : UInt64) : Prop :=
  enforceTtl env (some secs) createdAt = .error (.service .invalidTtl) ∨
    ∃ e, enforceTtl env (some secs) createdAt = .ok (some e, some secs) ∧ ExpiryCapped env.broker.maxHandleTtl createdAt e

/-- The seconds are in the lower half, and none, over the cap or in chrono's range. -/
def TtlFits (max : Int) (createdAt : DateTime) (secs : UInt64) : Prop :=
  secs.toNat < 2 ^ 63 ∧ (secs = 0 ∨ max < secs.toNat ∨ createdAt.CanAdd secs.toNat)

section

variable {env : Env} {createdAt : DateTime} {secs : UInt64}

theorem enforceTtl_refused (h : secs = 0 ∨ asI64 secs > env.broker.maxHandleTtl) :
    enforceTtl env (some secs) createdAt = .error (.service .invalidTtl) := by
  by_cases hzero : secs = 0
  · simp only [enforceTtl, Eff.rejectIf, if_pos hzero]
    rfl
  · simp only [enforceTtl, Eff.rejectIf, if_neg hzero, if_pos (h.resolve_left hzero)]
    rfl

/-- Nothing is refused after the comparison, but the addition can panic. -/
theorem enforceTtl_of_le (hzero : secs ≠ 0) (hle : asI64 secs ≤ env.broker.maxHandleTtl) :
    enforceTtl env (some secs) createdAt =
      (Eff.okOr (createdAt.addSeconds (asI64 secs)) .panic).map fun e => (some e, some secs) := by
  simp only [enforceTtl, Eff.rejectIf, if_neg hzero, if_neg (not_lt.mpr hle)]
  rfl

theorem ttlEnforced_of_le (hzero : secs ≠ 0) (hle : asI64 secs ≤ env.broker.maxHandleTtl) :
    TtlEnforced env createdAt secs ↔ 0 < asI64 secs ∧ createdAt.CanAdd (asI64 secs) := by
  rw [TtlEnforced, enforceTtl_of_le hzero hle]
  by_cases hadd : createdAt.CanAdd (asI64 secs)
  · rw [DateTime.addSeconds_eq_some.mpr ⟨hadd, rfl⟩]
    simp [Except.map, ExpiryCapped, DateTime.lt_later, DateTime.later_le_later, hle, hadd]
  · rw [DateTime.addSeconds_eq_none.mpr hadd]
    simp [Except.map, hadd]

theorem ttlEnforced_iff (hmax : 0 < env.broker.maxHandleTtl) :
    TtlEnforced env createdAt secs ↔ TtlFits env.broker.maxHandleTtl createdAt secs := by
  have hi64 := asI64_eq secs
  by_cases hzero : secs = 0
  · refine iff_of_true (Or.inl (enforceTtl_refused (Or.inl hzero))) ⟨?_, Or.inl hzero⟩
    rw [hzero]
    decide
  by_cases hover : asI64 secs > env.broker.maxHandleTtl
  · refine iff_of_true (Or.inl (enforceTtl_refused (Or.inr hover))) ?_
    split_ifs at hi64 with hhalf
    · exact ⟨hhalf, Or.inr (Or.inl (hi64 ▸ hover))⟩
    · have hlt := secs.toNat_lt
      omega
  have hpos : 0 < secs.toNat := Nat.pos_of_ne_zero fun h => hzero (UInt64.toNat_inj.mp h)
  rw [ttlEnforced_of_le hzero (not_lt.mp hover), TtlFits]
  split_ifs at hi64 with hhalf
  · rw [hi64, or_iff_right hzero, or_iff_right (hi64 ▸ hover), and_iff_right hhalf, and_iff_right]
    exact_mod_cast hpos
  · -- the upper half is a time before the creation
    refine iff_of_false ?_ fun h => hhalf h.1
    have hlt := secs.toNat_lt
    omega

end

/-- The requests that create a handle. -/
def Call.issueTerms (call : Call) : Option IssueTerms := call.newSecret.map NewSecret.terms

section

variable {env : Env}

theorem grants_capped (hmax : 0 < env.broker.maxHandleTtl) {i : IssueTerms} {r : StoredEnvelopeRecord}
    (hr : i.Grants env r) (hfits : ∀ secs, i.ttlSeconds = some secs → TtlFits env.broker.maxHandleTtl i.createdAt secs)
    {e : DateTime} (he : r.expiresAt = some e) : ExpiryCapped env.broker.maxHandleTtl r.envelope.createdAt e := by
  obtain ⟨ttl, hgranted⟩ := hr.expiresAt
  rw [he] at hgranted
  rw [hr.createdAt]
  cases hsecs : i.ttlSeconds with
  | none =>
      rw [hsecs] at hgranted
      cases hgranted
  | some secs =>
      rw [hsecs] at hgranted
      rcases (ttlEnforced_iff hmax).mpr (hfits secs hsecs) with hrefused | ⟨e', hok, hcapped⟩
      · cases hrefused.symm.trans hgranted
      · cases hok.symm.trans hgranted
        exact hcapped

/-- **A time to live is capped for the lower half of the numbers.** Every request for seconds that the code reads as they
are, and only those, is refused or granted an expiry after the creation and within the cap; and the records that a run of
such requests reaches have no other expiry. -/
theorem ttl_capped_iff (hmax : 0 < env.broker.maxHandleTtl) :
    (∀ createdAt secs, TtlEnforced env createdAt secs ↔ TtlFits env.broker.maxHandleTtl createdAt secs) ∧
    ∀ calls : List Call, (∀ call ∈ calls, ∀ i, call.issueTerms = some i → ∀ secs, i.ttlSeconds = some secs →
        TtlFits env.broker.maxHandleTtl i.createdAt secs) →
      ∀ id r e, (Broker.empty.after env calls).records id = some r → r.expiresAt = some e →
        ExpiryCapped env.broker.maxHandleTtl r.envelope.createdAt e := by
  refine ⟨fun createdAt secs => ttlEnforced_iff hmax, fun calls hfits id r e hr => ?_⟩
  have hframed := after_framed env calls
    (P := fun _ r => ∀ e, r.expiresAt = some e → ExpiryCapped env.broker.maxHandleTtl r.envelope.createdAt e)
    (fun _ r r' hadv h => ?_) (fun call hcall p hp r _ hgrants e =>
      grants_capped hmax hgrants (hfits call hcall p.terms (by rw [Call.issueTerms, hp]; rfl))) Broker.empty
  · exact hframed.holds id (fun r hr => by cases hr) r hr e
  · have hexpires : r'.expiresAt = r.expiresAt := congrArg (·.expiresAt) hadv.issued
    have hcreated : r'.envelope.createdAt = r.envelope.createdAt := congrArg (·.envelope.createdAt) hadv.issued
    rw [hexpires, hcreated]
    exact h

end

/-- The wrap of `plainWrap` a minute later, with a time to live and a lease. -/
def plainTimedWrap (ttlSeconds initialLeaseSeconds : Option UInt64) : Call :=
  .wrap ⟨60, 0⟩ (plainDraws (.filled 1) (.filled 2) (.filled 3)) plainContext
    { plainRequest .renewableLease with ttlSeconds, initialLeaseSeconds }

theorem ttl_capped_iff_hour : TtlEnforced plainEnv ⟨60, 0⟩ 3600 ∧
    ∀ id r e, (Broker.empty.after plainEnv [plainTimedWrap (some 3600) none]).records id = some r → r.expiresAt = some e →
      ExpiryCapped plainEnv.broker.maxHandleTtl r.envelope.createdAt e := by
  have hmax : 0 < plainEnv.broker.maxHandleTtl := by decide
  have hfits : TtlFits plainEnv.broker.maxHandleTtl ⟨60, 0⟩ 3600 := by
    unfold TtlFits DateTime.CanAdd
    decide
  refine ⟨((ttl_capped_iff hmax).1 _ _).mpr hfits, (ttl_capped_iff hmax).2 _ fun call hcall i hi secs hsecs => ?_⟩
  rw [List.mem_singleton.mp hcall] at hi
  cases hi
  cases hsecs
  exact hfits

/-- A time to live of 2^64 - 1 seconds is read as -1: the secret is issued, and has expired a second before. -/
theorem ttl_counts_backwards :
    enforceTtl plainEnv (some 18446744073709551615) ⟨60, 0⟩ = .ok (some ⟨59, 0⟩, some 18446744073709551615) ∧
    ((Broker.empty.after plainEnv [plainTimedWrap (some 18446744073709551615) none]).records (.filled 1)).map
      (fun r => (r.envelope.createdAt, r.expiresAt)) = some (⟨60, 0⟩, some ⟨59, 0⟩) :=
  ⟨rfl, by decide +kernel⟩

/-! ### Leases -/

/-- The lease of a record does not outlive it, and does not end before it began. -/
structure LeaseSound (r : StoredEnvelopeRecord) : Prop where
  notAfter : ∀ lease e, r.leaseExpiresAt = some lease → r.expiresAt = some e → lease ≤ e
  notBefore : ∀ lease, r.leaseExpiresAt = some lease → r.envelope.createdAt ≤ lease

theorem LeaseSound.advances {serde : Serde} {r r' : StoredEnvelopeRecord} (h : LeaseSound r) (hadv : Advances serde r r')
    (hlease : r'.leaseExpiresAt = r.leaseExpiresAt) : LeaseSound r' := by
  have hexpires : r'.expiresAt = r.expiresAt := congrArg (·.expiresAt) hadv.issued
  have hcreated : r'.envelope.createdAt = r.envelope.createdAt := congrArg (·.envelope.createdAt) hadv.issued
  constructor
  · rw [hlease, hexpires]
    exact h.notAfter
  · rw [hlease, hcreated]
    exact h.notBefore

/-- The seconds of the first lease are in the lower half and in chrono's range, and at most those of the time to live. -/
def IssueTerms.LeaseFits (i : IssueTerms) : Prop :=
  ∀ secs, i.initialLeaseSeconds = some secs →
    secs.toNat < 2 ^ 63 ∧ i.createdAt.CanAdd secs.toNat ∧ ∀ ttl, i.ttlSeconds = some ttl → secs.toNat ≤ asI64 ttl

theorem asI64_of_lt {n : UInt64} (h : n.toNat < 2 ^ 63) : asI64 n = n.toNat := by
  rw [asI64_eq, if_pos h]

theorem initialLease_of_fits {i : IssueTerms} (h : i.LeaseFits) :
    initialLease i.createdAt i.initialLeaseSeconds =
      some (i.initialLeaseSeconds.map fun secs => i.createdAt.later secs.toNat) := by
  cases hsecs : i.initialLeaseSeconds with
  | none => rfl
  | some secs =>
      obtain ⟨hhalf, hadd, -⟩ := h secs hsecs
      rw [initialLease, asI64_of_lt hhalf, DateTime.addSeconds_eq_some.mpr ⟨hadd, rfl⟩]
      rfl

theorem enforceTtl_eq_later {env : Env} {createdAt e : DateTime} {ttlSeconds ttl : Option UInt64}
    (h : enforceTtl env ttlSeconds createdAt = .ok (some e, ttl)) :
    ∃ secs, ttlSeconds = some secs ∧ e = createdAt.later (asI64 secs) := by
  cases ttlSeconds with
  | none => cases h
  | some secs =>
      simp only [enforceTtl, Eff.except_bind_eq_ok, Eff.okOr_eq_ok, pure, Except.pure, Except.ok.injEq, Prod.mk.injEq,
        Option.some.injEq] at h
      obtain ⟨-, -, -, -, e', hadd, rfl, -⟩ := h
      exact ⟨secs, rfl, (DateTime.addSeconds_eq_some.mp hadd).2⟩

theorem grants_leaseSound {env : Env} {i : IssueTerms} {r : StoredEnvelopeRecord} (hr : i.Grants env r)
    (hfits : i.LeaseFits) : LeaseSound r := by
  have hlease := hr.lease
  rw [initialLease_of_fits hfits, Option.some.injEq] at hlease
  constructor
  · intro lease e hl he
    rw [hl] at hlease
    obtain ⟨secs, hsecs, rfl⟩ := Option.map_eq_some_iff.mp hlease
    obtain ⟨ttl', hgranted⟩ := hr.expiresAt
    rw [he] at hgranted
    obtain ⟨ttl, httl, rfl⟩ := enforceTtl_eq_later hgranted
    exact DateTime.later_le_later.mpr ((hfits secs hsecs).2.2 ttl httl)
  · intro lease hl
    rw [hl] at hlease
    obtain ⟨secs, hsecs, rfl⟩ := Option.map_eq_some_iff.mp hlease
    rw [hr.createdAt, DateTime.le_later]
    exact Int.natCast_nonneg _

theorem cappedLease_le {expiresAt : Option DateTime} {e : DateTime} (he : expiresAt = some e) (newLease : DateTime) :
    cappedLease expiresAt newLease ≤ e := by
  rw [he, cappedLease]
  split_ifs with hlate
  · exact le_refl e
  · exact not_lt.mp hlate

theorem le_cappedLease {r : StoredEnvelopeRecord} {now newLease : DateTime} (hlive : ¬ r.isExpired now = true)
    (hnew : now ≤ newLease) : now ≤ cappedLease r.expiresAt newLease := by
  cases he : r.expiresAt with
  | none => exact hnew
  | some e =>
      have hle : now ≤ e := by
        rw [StoredEnvelopeRecord.isExpired, he] at hlive
        simpa using hlive
      rw [cappedLease]
      split_ifs
      · exact hle
      · exact hnew

/-- A month at most is in the lower half of the numbers. -/
theorem renewal_nonneg {duration : UInt64} (h : ¬ (duration = 0 ∨ duration > 86400 * 30)) : 0 ≤ asI64 duration := by
  have hle := UInt64.le_iff_toNat_le.mp (UInt64.not_lt.mp (not_or.mp h).2)
  have hmonth : (86400 * 30 : UInt64).toNat = 2592000 := by decide
  rw [asI64_of_lt (by omega)]
  exact Int.natCast_nonneg _

section

variable {env : Env} {s : Broker}

/-- A record with a sound lease, and if a request is to renew it, that is at a time when the secret exists. -/
structure Renewable (env : Env) (scope : Scope) (id : Uuid) (r : StoredEnvelopeRecord) : Prop where
  sound : LeaseSound r
  created : ∀ handle now, (handle, now) ∈ scope.renewals → parseHandleIdentifier env handle = .ok id →
    r.envelope.createdAt ≤ now

theorem Renewable.advances {scope : Scope} {id : Uuid} {r r' : StoredEnvelopeRecord} (h : Renewable env scope id r)
    (hadv : Advances env.serde r r') (hlease : r'.leaseExpiresAt = r.leaseExpiresAt) : Renewable env scope id r' := by
  have hcreated : r'.envelope.createdAt = r.envelope.createdAt := congrArg (·.envelope.createdAt) hadv.issued
  exact ⟨h.sound.advances hadv hlease, fun handle now hrenewal hid => hcreated ▸ h.created handle now hrenewal hid⟩

/-- What a step leaves of a record. -/
theorem BrokerStep.renewable {scope : Scope} (hissue : ∀ p ∈ scope.newSecrets, ∀ r, p.terms.Grants env r →
    Renewable env scope p.handleId r) {s' : Broker} (h : BrokerStep env scope s s') {id : Uuid}
    (hid : OnRecord (Renewable env scope id) (s.records id)) : OnRecord (Renewable env scope id) (s'.records id) := by
  have hput : ∀ {s : Broker} {handle : Uuid} {cell : Option StoredEnvelopeRecord},
      OnRecord (Renewable env scope id) (s.records id) →
      (OnRecord (Renewable env scope handle) (s.records handle) → OnRecord (Renewable env scope handle) cell) →
      OnRecord (Renewable env scope id) ((s.putRecord handle cell).records id) := by
    intro s handle cell hold hcell
    by_cases heq : id = handle
    · subst heq
      rw [Broker.putRecord_records_self]
      exact hcell hold
    · rwa [Broker.putRecord_records_of_ne heq]
  cases h with
  | record event => exact hid
  | store h =>
      cases h with
      | key h => cases h <;> exact hid
      | touch hr hstep =>
          refine hput hid fun hold r' hr' => ?_
          cases hr'
          exact (hold _ hr).advances hstep.step.evolves.toAdvances hstep.lease
      | renew hr hrenewal hparse hlive hduration hlease storeNow count =>
          rename_i r _ now _ newLease
          refine hput hid fun hold r' hr' => ?_
          cases hr'
          have hexists := (hold r hr).created _ now hrenewal hparse
          have hlater : now ≤ newLease := by
            rw [(DateTime.addSeconds_eq_some.mp hlease).2, DateTime.le_later]
            exact renewal_nonneg hduration
          refine ⟨⟨fun lease e hl he => ?_, fun lease hl => ?_⟩, (hold r hr).created⟩
          · cases hl
            exact cappedLease_le he newLease
          · cases hl
            exact hexists.trans (le_cappedLease hlive hlater)
      | remove handle => exact hput hid fun _ r hr => by cases hr
      | issue hp hfresh hissued hgrants =>
          refine hput hid fun _ r hr => ?_
          cases hr
          exact hissue _ hp _ hgrants
      | amend hfresh hr hadv hlease =>
          refine hput hid fun hold r' hr' => ?_
          cases hr'
          exact (hold _ hr).advances hadv hlease

theorem BrokerSteps.renewable {scope : Scope} (hissue : ∀ p ∈ scope.newSecrets, ∀ r, p.terms.Grants env r →
    Renewable env scope p.handleId r) {s' : Broker} (h : BrokerSteps env scope s s') {id : Uuid}
    (hid : OnRecord (Renewable env scope id) (s.records id)) : OnRecord (Renewable env scope id) (s'.records id) := by
  induction h with
  | refl => exact hid
  | tail _ hstep ih => exact hstep.renewable hissue ih

theorem check_ne_panic {α : Type} {x : Except ServiceError α} {s' : Broker} : check x s ≠ (.error .panic, s') := by
  intro h
  obtain ⟨hx, -⟩ := check_eq_error.mp h
  cases x with
  | error e => cases hx
  | ok a => cases hx

/-- The store does not panic. -/
theorem perform_ne_panic {α : Type} {disk : Disk} {id : Uuid} {op : Op StoredEnvelopeRecord (Except String α)}
    {s' : Broker} : Eff.mapError .asStorage (perform disk id op) s ≠ (.error Failure.panic, s') := by
  have hanyhow : ∀ e t, perform disk id op s = (.error e, t) → ∃ message, e = .anyhow message := by
    intro e t h
    cases disk with
    | ok =>
        simp only [perform, Prod.mk.injEq] at h
        cases hrun : (op.run (s.records id)).2 with
        | error message =>
            rw [hrun] at h
            exact ⟨message, (Except.error.inj h.1).symm⟩
        | ok a =>
            rw [hrun] at h
            cases h.1
    | failed message =>
        cases h
        exact ⟨message, rfl⟩
    | unflushed message =>
        cases h
        exact ⟨message, rfl⟩
  intro h
  rcases hrun : perform disk id op s with ⟨e | a, t⟩
  · obtain ⟨message, rfl⟩ := hanyhow e t hrun
    rw [Eff.mapError_of_error hrun] at h
    cases h
  · cases (Eff.mapError_eq_ok.mpr hrun).symm.trans h

theorem checkTime_eq_error {α : Type} {t : Option α} {e : Failure} {s' : Broker} (h : checkTime t s = (.error e, s')) :
    t = none := by
  cases t with
  | none => rfl
  | some a => cases (Eff.lift_eq_error.mp h).1

/-- Sealing panics for the same reasons without the lease, if the end of the lease is a time. -/
theorem persist_panics {d : PersistDraws} {context : BrokerClientContext} {input input' : PersistSecretV2Input}
    {s' : Broker} (hinput : input' = { input with initialLeaseSeconds := none })
    (hlease : initialLease input.createdAt input.initialLeaseSeconds ≠ none)
    (h : persistSecretV2WithLifecycle env d context input s = (.error .panic, s')) :
    persistSecretV2WithLifecycle env d context input' s = (.error .panic, s') := by
  rw [hinput]
  simp only [persistSecretV2WithLifecycle, Eff.bind_eq_error, Eff.pure_apply, Prod.mk.injEq, reduceCtorEq, false_and,
    and_false, exists_false, or_false] at h ⊢
  rcases h with hredeem | ⟨redeemExpiresAt, s₁, hredeem,
    hencrypt | ⟨encryption, s₂, hencrypt, hkeyPair | ⟨keyPair, s₃, hkeyPair,
    hsign | ⟨signature, s₄, hsign, hlate | ⟨leaseExpiresAt, s₅, -, hinsert⟩⟩⟩⟩⟩
  · exact Or.inl hredeem
  · exact Or.inr ⟨redeemExpiresAt, s₁, hredeem, Or.inl hencrypt⟩
  · exact Or.inr ⟨redeemExpiresAt, s₁, hredeem, Or.inr ⟨encryption, s₂, hencrypt, Or.inl hkeyPair⟩⟩
  · exact Or.inr ⟨redeemExpiresAt, s₁, hredeem, Or.inr ⟨encryption, s₂, hencrypt, Or.inr ⟨keyPair, s₃, hkeyPair,
      Or.inl hsign⟩⟩⟩
  · exact absurd (checkTime_eq_error hlate) hlease
  · exact absurd hinsert perform_ne_panic

theorem wrap_panics {createdAt : DateTime} {d : PersistDraws} {context : BrokerClientContext} {request : WrapV2Request}
    {s' : Broker} (hlease : initialLease createdAt request.initialLeaseSeconds ≠ none)
    (h : wrapSecretV2Impl env createdAt d context request s = (.error .panic, s')) :
    wrapSecretV2Impl env createdAt d context { request with initialLeaseSeconds := none } s = (.error .panic, s') := by
  simp only [wrapSecretV2Impl, Eff.bind_eq_error, recordTransparency, Eff.modify_apply, Eff.pure_apply, Prod.mk.injEq,
    reduceCtorEq, false_and, and_false, exists_false, or_false] at h ⊢
  rcases h with httl | ⟨times, s₁, httl, hprincipal | ⟨principal, s₂, hprincipal, hpersist⟩⟩
  · exact Or.inl httl
  · exact absurd hprincipal check_ne_panic
  · exact Or.inr ⟨times, s₁, httl, Or.inr ⟨principal, s₂, hprincipal, persist_panics rfl hlease hpersist⟩⟩

theorem splitRedeemToken_ne_panic {coefficients : ℕ → Scalar} {redeemToken : String} {threshold numShares : UInt8} :
    splitRedeemToken env coefficients redeemToken threshold numShares ≠ .error .panic := by
  intro h
  rw [splitRedeemToken] at h
  cases hbytes : Base64.standard.decode redeemToken with
  | none =>
      rw [hbytes] at h
      cases h
  | some tokenBytes =>
      rw [hbytes, Eff.okOr_some, Eff.ok_bind] at h
      cases htoken : sized 32 tokenBytes with
      | none =>
          rw [htoken] at h
          cases h
      | some token =>
          rw [htoken, Eff.okOr_some, Eff.ok_bind] at h
          cases hsplit : Threshold.split env.curve token threshold numShares fun i => coefficients i with
          | error e =>
              rw [hsplit] at h
              cases h
          | ok split =>
              rw [hsplit] at h
              cases h

theorem mintRedeemMaterial_ne_panic {d : MintDraws} {custodianIds : List String} {threshold numShares : UInt8}
    {outcome : StoredSecretOutcome} {s' : Broker} :
    mintRedeemMaterial env d custodianIds threshold numShares outcome s ≠ (.error .panic, s') := by
  intro h
  by_cases hmany : threshold > 1
  · simp only [mintRedeemMaterial, if_pos hmany, Eff.bind_eq_error, Eff.lift_eq_error] at h
    rcases h with ⟨hsplit, -⟩ | ⟨split, s₁, -, hconfig | ⟨_, s₂, -, hassign⟩⟩
    · exact splitRedeemToken_ne_panic hsplit
    · exact perform_ne_panic hconfig
    · split_ifs at hassign with hcustodians
      · rcases Eff.bind_eq_error.mp hassign with hassign | ⟨_, _, -, hreturn⟩
        · exact perform_ne_panic hassign
        · cases hreturn
      · cases hassign
  · rw [mintRedeemMaterial, if_neg hmany] at h
    cases h

theorem mint_panics {d : MintDraws} {context : BrokerClientContext} {request : MintV2Request} {s' : Broker}
    (hlease : initialLease d.createdAt request.initialLeaseSeconds ≠ none)
    (h : mintAeadKeyV2Impl env d context request s = (.error .panic, s')) :
    mintAeadKeyV2Impl env d context { request with initialLeaseSeconds := none } s = (.error .panic, s') := by
  simp only [mintAeadKeyV2Impl, Eff.bind_eq_error, recordTransparency, Eff.modify_apply, Eff.pure_apply, Prod.mk.injEq,
    reduceCtorEq, false_and, and_false, exists_false, or_false] at h ⊢
  rcases h with httl | ⟨times, s₁, httl, hbounds | ⟨_, s₂, hbounds, hprincipal | ⟨principal, s₃, hprincipal, hpersist |
    ⟨outcome, s₄, -, hcount | ⟨_, s₅, -, hmaterial⟩⟩⟩⟩⟩
  · exact Or.inl httl
  · exact absurd hbounds check_ne_panic
  · exact absurd hprincipal check_ne_panic
  · exact Or.inr ⟨times, s₁, httl,
      Or.inr ⟨_, s₂, hbounds, Or.inr ⟨principal, s₃, hprincipal, Or.inl (persist_panics rfl hlease hpersist)⟩⟩⟩
  · exact absurd hcount check_ne_panic
  · exact absurd hmaterial mintRedeemMaterial_ne_panic

end

namespace Call

/-- The request without a lease at the start. -/
def withoutLease : Call → Call
  | .wrap createdAt d context request => .wrap createdAt d context { request with initialLeaseSeconds := none }
  | .mint d context request => .mint d context { request with initialLeaseSeconds := none }
  | call => call

/-- A first lease fits, and a renewal is made at a time when the secret exists. -/
structure LeaseFits (env : Env) (s : Broker) (call : Call) : Prop where
  issued : ∀ i, call.issueTerms = some i → i.LeaseFits
  renewed : ∀ d context payload, call = .renewLease d context payload → ∀ id r,
    parseHandleIdentifier env payload.handle = .ok id → s.records id = some r → r.envelope.createdAt ≤ d.now

end Call

/-- Every request of a run fits where it is made. -/
def LeasesFit (env : Env) : Broker → List Call → Prop
  | _, [] => True
  | s, call :: calls => call.LeaseFits env s ∧ LeasesFit env (call.exec env s).2 calls

section

variable {env : Env} {s : Broker}

theorem leasesFit_append {calls calls' : List Call} :
    LeasesFit env s (calls ++ calls') ↔ LeasesFit env s calls ∧ LeasesFit env (s.after env calls) calls' := by
  induction calls generalizing s with
  | nil => exact (and_iff_right trivial).symm
  | cons call calls ih =>
      rw [List.cons_append, LeasesFit, LeasesFit, ih, and_assoc]
      rfl

/-- One request. -/
theorem exec_leaseSound {call : Call} (hfits : call.LeaseFits env s) {id : Uuid}
    (hid : OnRecord LeaseSound (s.records id)) : OnRecord LeaseSound ((call.exec env s).2.records id) := by
  -- a request that renews a lease seals no secret
  have hissue : ∀ p ∈ (scopeOf env [call]).newSecrets, ∀ r, p.terms.Grants env r →
      Renewable env (scopeOf env [call]) p.handleId r := by
    intro p hp r hgrants
    have hsecret : call.newSecret = some p := by simpa [scopeOf] using hp
    have hterms : call.issueTerms = some p.terms := by rw [Call.issueTerms, hsecret, Option.map_some]
    refine ⟨grants_leaseSound hgrants (hfits.issued p.terms hterms), fun handle now hrenewal _ => ?_⟩
    have hnone : call.renewal = none := by cases call <;> first | rfl | cases hsecret
    simp [scopeOf, hnone] at hrenewal
  have hold : OnRecord (Renewable env (scopeOf env [call]) id) (s.records id) := by
    intro r hr
    refine ⟨hid r hr, fun handle now hrenewal hparse => ?_⟩
    have hrenews : call.renewal = some (handle, now) := by simpa [scopeOf] using hrenewal
    cases call with
    | renewLease d context payload =>
        cases hrenews
        exact hfits.renewed d context payload rfl id r hparse hr
    | _ => cases hrenews
  intro r hr
  exact ((call.exec_steps env s).renewable hissue hold r hr).sound

/-- A run of requests. -/
theorem after_leaseSound {calls : List Call} (hfit : LeasesFit env s calls) {id : Uuid}
    (hid : OnRecord LeaseSound (s.records id)) : OnRecord LeaseSound ((s.after env calls).records id) := by
  induction calls generalizing s with
  | nil => exact hid
  | cons call calls ih => exact ih hfit.2 (exec_leaseSound hfit.1 hid)

theorem exec_panics {call : Call} (hfits : call.LeaseFits env s) {s' : Broker}
    (h : call.exec env s = (.error .panic, s')) : call.withoutLease.exec env s = (.error .panic, s') := by
  cases call with
  | wrap createdAt d context request =>
      have hlease := initialLease_of_fits (hfits.issued _ rfl)
      rcases Eff.bind_eq_error.mp h with hwrap | ⟨_, _, -, hreturn⟩
      · exact Eff.bind_of_error (wrap_panics (hlease ▸ Option.some_ne_none _) hwrap)
      · cases hreturn
  | mint d context request =>
      have hlease := initialLease_of_fits (hfits.issued _ rfl)
      rcases Eff.bind_eq_error.mp h with hmint | ⟨_, _, -, hreturn⟩
      · exact Eff.bind_of_error (mint_panics (hlease ▸ Option.some_ne_none _) hmint)
      · cases hreturn
  | _ => exact h

/-- **A lease does not outlive its secret if it starts within it.** In every run of requests whose first leases are in the
lower half of the numbers and within the time to live, and whose renewals are made when the secret exists, every record has
its lease between its creation and its expiry; and no request panics that would not without its first lease. -/
theorem lease_within_secret (calls : List Call) (hfit : LeasesFit env Broker.empty calls) :
    (∀ id r, (Broker.empty.after env calls).records id = some r → LeaseSound r) ∧
    ∀ before call later, calls = before ++ call :: later → ∀ s',
      call.exec env (Broker.empty.after env before) = (.error .panic, s') →
        call.withoutLease.exec env (Broker.empty.after env before) = (.error .panic, s') := by
  constructor
  · intro id r hr
    exact after_leaseSound hfit (fun r hr => by cases hr) r hr
  · rintro before call later rfl s' h
    exact exec_panics (leasesFit_append.mp hfit).2.1 h

end

theorem lease_within_secret_hour :
    (∀ id r, (Broker.empty.after plainEnv [plainTimedWrap (some 7200) (some 3600)]).records id = some r → LeaseSound r) ∧
    ∀ s', (plainTimedWrap (some 7200) (some 3600)).exec plainEnv Broker.empty = (.error .panic, s') →
      (plainTimedWrap (some 7200) none).exec plainEnv Broker.empty = (.error .panic, s') := by
  have hfits : (⟨.filled 1, ⟨60, 0⟩, some 7200, some 3600⟩ : IssueTerms).LeaseFits := by
    rintro _ ⟨⟩
    refine ⟨by decide, by unfold DateTime.CanAdd; decide, ?_⟩
    rintro _ ⟨⟩
    decide
  have hcall : (plainTimedWrap (some 7200) (some 3600)).LeaseFits plainEnv Broker.empty := by
    refine ⟨fun i hi => ?_, fun d context payload hrenew => by cases hrenew⟩
    cases hi
    exact hfits
  obtain ⟨hsound, hpanics⟩ := lease_within_secret [plainTimedWrap (some 7200) (some 3600)] ⟨hcall, trivial⟩
  exact ⟨hsound, hpanics [] _ [] rfl⟩

/-- A lease of an hour for a secret of a minute: the record has both, and the lease outlives the secret. -/
theorem lease_outlives_secret :
    ((Broker.empty.after plainEnv [plainTimedWrap (some 60) (some 3600)]).records (.filled 1)).map
      (fun r => (r.expiresAt, r.leaseExpiresAt)) = some (some ⟨120, 0⟩, some ⟨3660, 0⟩) := by
  decide +kernel

end SecretBroker
