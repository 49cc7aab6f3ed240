import SecretBroker.IdentityBinding
import SecretBroker.ThresholdCorrectness

/-! The broker holds the shares of a secret for custodians. Minting puts the shares into custody, no later operation
takes them out, and a claim marks the share of a custodian and returns it. Combining accepts exactly the shares that
were claimed. -/

open Wire

namespace SecretBroker

/-- Shares that are held for custodians in their order, of which so many are needed. -/
structure Custody where
  custodianIds : List String
  split : Threshold.SplitResult
  threshold : UInt8
  nodup : (split.shares.map Threshold.Share.x).Nodup
  length_eq : custodianIds.length = split.shares.length

namespace Custody

variable (c : Custody)

/-- The share of a custodian; one that is listed twice has the first. -/
def share (custodianId : String) : Option Threshold.Share :=
  ((c.custodianIds.zip c.split.shares).find? fun p => p.1 = custodianId).map Prod.snd

variable {c}

theorem share_mem {custodianId : String} {share : Threshold.Share} (h : c.share custodianId = some share) :
    (custodianId, share) ∈ c.custodianIds.zip c.split.shares := by
  obtain ⟨p, hfound, rfl⟩ := Option.map_eq_some_iff.mp h
  have hid : p.1 = custodianId := by simpa using List.find?_some hfound
  rw [← hid]
  exact List.mem_of_find?_eq_some hfound

theorem share_mem_shares {custodianId : String} {share : Threshold.Share} (h : c.share custodianId = some share) :
    share ∈ c.split.shares := (List.of_mem_zip (share_mem h)).2

/-- Exactly the listed custodians have a share. -/
theorem exists_share_iff {custodianId : String} :
    (∃ share, c.share custodianId = some share) ↔ custodianId ∈ c.custodianIds := by
  constructor
  · rintro ⟨share, h⟩
    exact (List.of_mem_zip (share_mem h)).1
  · intro hid
    have hmem : custodianId ∈ (c.custodianIds.zip c.split.shares).map Prod.fst := by
      rwa [List.map_fst_zip c.length_eq.le]
    obtain ⟨p, hp, hpid⟩ := List.mem_map.mp hmem
    have hfound : ((c.custodianIds.zip c.split.shares).find? fun p => p.1 = custodianId).isSome := by
      rw [List.find?_isSome]
      exact ⟨p, hp, decide_eq_true hpid⟩
    obtain ⟨q, hq⟩ := Option.isSome_iff_exists.mp hfound
    exact ⟨q.2, Option.map_eq_some_iff.mpr ⟨q, hq, rfl⟩⟩

/-- An index belongs to one share. -/
theorem eq_of_x_eq {share share' : Threshold.Share} (h : share ∈ c.split.shares) (h' : share' ∈ c.split.shares)
    (hx : share.x = share'.x) : share = share' := List.inj_on_of_nodup_map c.nodup h h' hx

/-- No share belongs to two custodians. -/
theorem custodian_eq {id id' : String} {share : Threshold.Share} (h : c.share id = some share)
    (h' : c.share id' = some share) : id = id' := by
  have hnodup : ((c.custodianIds.zip c.split.shares).map Prod.snd).Nodup := by
    rw [List.map_snd_zip c.length_eq.ge]
    exact c.nodup.of_map
  have hpair := List.inj_on_of_nodup_map hnodup (share_mem h) (share_mem h') rfl
  exact congrArg Prod.fst hpair

/-- The record keeps the shares, each under its index, and the index of each custodian. -/
structure Holds (c : Custody) (r : StoredEnvelopeRecord) : Prop where
  threshold : r.threshold = some c.threshold
  commitments : r.thresholdCommitments = some (encodedCommitments c.split)
  held : r.heldShares = some (holdShares c.split)
  assignments : ∃ assignments, r.shareAssignments = some assignments ∧
    assignments.map (fun a => (a.custodianId, a.shareIndex)) =
      (c.custodianIds.zip c.split.shares).map fun p => (p.1, p.2.x)

/-- The custodian has claimed its share. -/
def Claimed (r : StoredEnvelopeRecord) (custodianId : String) : Prop :=
  ∃ assignments assignment, r.shareAssignments = some assignments ∧
    (assignments.find? fun a => a.custodianId = custodianId) = some assignment ∧ assignment.claimed = true

end Custody

/-- An assignment that stays, or whose share is claimed. -/
def ShareAssignment.Raised (a a' : ShareAssignment) : Prop := a' = a ∨ a' = { a with claimed := true }

instance : IsPreorder ShareAssignment ShareAssignment.Raised where
  refl _ := Or.inl rfl
  trans a _ _ h h' := by
    rcases h with rfl | rfl
    · exact h'
    · rcases h' with rfl | rfl
      · exact Or.inr rfl
      · exact Or.inr rfl

/-- The held shares stay, and so do the assignments, up to claims. -/
structure SharesKept (r r' : StoredEnvelopeRecord) : Prop where
  held : r'.heldShares = r.heldShares
  assignments : Option.Rel (List.Forall₂ ShareAssignment.Raised) r.shareAssignments r'.shareAssignments

theorem forall₂_raised_refl (assignments : List ShareAssignment) :
    List.Forall₂ ShareAssignment.Raised assignments assignments :=
  List.forall₂_same.mpr fun a _ => refl_of ShareAssignment.Raised a

theorem forall₂_raised_trans {l₁ l₂ l₃ : List ShareAssignment} (h : List.Forall₂ ShareAssignment.Raised l₁ l₂)
    (h' : List.Forall₂ ShareAssignment.Raised l₂ l₃) : List.Forall₂ ShareAssignment.Raised l₁ l₃ := by
  induction h generalizing l₃ with
  | nil => exact h'
  | cons ha _ ih =>
      cases h' with
      | cons ha' hrest => exact .cons (trans_of ShareAssignment.Raised ha ha') (ih hrest)

instance : IsPreorder StoredEnvelopeRecord SharesKept where
  refl r := by
    refine ⟨rfl, ?_⟩
    cases r.shareAssignments with
    | none => exact .none
    | some assignments => exact .some (forall₂_raised_refl assignments)
  trans r₁ r₂ r₃ h h' := by
    refine ⟨h'.held.trans h.held, ?_⟩
    obtain ⟨-, h⟩ := h
    obtain ⟨-, h'⟩ := h'
    revert h h'
    generalize r₁.shareAssignments = a₁, r₂.shareAssignments = a₂, r₃.shareAssignments = a₃
    intro h h'
    cases h with
    | none => exact h'
    | some hraised =>
        cases h' with
        | some hraised' => exact .some (forall₂_raised_trans hraised hraised')

theorem sharesKept_of_eq {r r' : StoredEnvelopeRecord} (hheld : r'.heldShares = r.heldShares)
    (hassignments : r'.shareAssignments = r.shareAssignments) : SharesKept r r' := by
  refine ⟨hheld, ?_⟩
  rw [hassignments]
  exact (refl_of SharesKept r).assignments

theorem forall₂_markClaimed (custodianId : String) (assignments : List ShareAssignment) :
    List.Forall₂ ShareAssignment.Raised assignments (SealedStore.markClaimed custodianId assignments) := by
  induction assignments with
  | nil => exact .nil
  | cons a rest ih =>
      unfold SealedStore.markClaimed
      split_ifs
      · exact .cons (Or.inr rfl) (forall₂_raised_refl rest)
      · exact .cons (Or.inl rfl) ih

theorem RecordStep.sharesKept {serde : Serde} {r r' : StoredEnvelopeRecord} (h : RecordStep serde r r') :
    SharesKept r r' := by
  cases h with
  | load => exact sharesKept_of_eq rfl rfl
  | markRedeemUsed => exact sharesKept_of_eq rfl rfl
  | renewLease => exact sharesKept_of_eq rfl rfl
  | revoke => exact sharesKept_of_eq rfl rfl
  | appendCaveatKey => exact sharesKept_of_eq rfl rfl
  | claim hclaim =>
      obtain ⟨assignments, _, _, _, _, _, hassignments, -, -, -, -, -, rfl, -⟩ := SealedStore.claim_eq_ok.mp hclaim
      refine ⟨rfl, ?_⟩
      have hbefore : r.shareAssignments = some assignments := hassignments
      rw [hbefore]
      exact .some (forall₂_markClaimed _ assignments)

/-- Nothing that happens to a record moves a share. -/
theorem RecordSteps.sharesKept {serde : Serde} {r r' : StoredEnvelopeRecord} (h : RecordSteps serde r r') :
    SharesKept r r' := by
  induction h with
  | refl => exact refl_of SharesKept r
  | tail _ hstep ih => exact trans_of SharesKept ih hstep.sharesKept

theorem SharesKept.exists_raised {r r' : StoredEnvelopeRecord} (h : SharesKept r r') {assignments : List ShareAssignment}
    (hassignments : r.shareAssignments = some assignments) :
    ∃ assignments', r'.shareAssignments = some assignments' ∧
      List.Forall₂ ShareAssignment.Raised assignments assignments' := by
  have hrel := h.assignments
  rw [hassignments] at hrel
  cases hafter : r'.shareAssignments with
  | none =>
      rw [hafter] at hrel
      cases hrel
  | some assignments' =>
      rw [hafter] at hrel
      cases hrel with
      | some hraised => exact ⟨assignments', rfl, hraised⟩

/-- A claim moves no share. -/
theorem map_of_raised {l l' : List ShareAssignment} (h : List.Forall₂ ShareAssignment.Raised l l') :
    (l'.map fun a => (a.custodianId, a.shareIndex)) = l.map fun a => (a.custodianId, a.shareIndex) := by
  induction h with
  | nil => rfl
  | cons ha _ ih =>
      rw [List.map_cons, List.map_cons, ih]
      rcases ha with rfl | rfl
      · rfl
      · rfl

/-- A custodian's first assignment stays the first. -/
theorem find_of_raised {l l' : List ShareAssignment} (h : List.Forall₂ ShareAssignment.Raised l l') {custodianId : String}
    {a : ShareAssignment} (ha : (l.find? fun a => a.custodianId = custodianId) = some a) :
    ∃ a', (l'.find? fun a => a.custodianId = custodianId) = some a' ∧ a.Raised a' := by
  induction h with
  | nil => cases ha
  | @cons b b' rest rest' hb _ ih =>
      have hid : b'.custodianId = b.custodianId := by
        rcases hb with rfl | rfl
        · rfl
        · rfl
      by_cases hcustodian : b.custodianId = custodianId
      · rw [List.find?_cons_of_pos (by simpa using hcustodian), Option.some.injEq] at ha
        subst ha
        exact ⟨b', List.find?_cons_of_pos (by simpa [hid] using hcustodian), hb⟩
      · rw [List.find?_cons_of_neg (by simpa using hcustodian)] at ha
        rw [List.find?_cons_of_neg (by simpa [hid] using hcustodian)]
        exact ih ha

/-- A mark is put on the custodian's first assignment. -/
theorem find_markClaimed {custodianId : String} {assignments : List ShareAssignment} {a : ShareAssignment}
    (h : (assignments.find? fun a => a.custodianId = custodianId) = some a) :
    ((SealedStore.markClaimed custodianId assignments).find? fun a => a.custodianId = custodianId) =
      some { a with claimed := true } := by
  induction assignments with
  | nil => cases h
  | cons b rest ih =>
      unfold SealedStore.markClaimed
      by_cases hb : b.custodianId = custodianId
      · rw [List.find?_cons_of_pos (by simpa using hb), Option.some.injEq] at h
        subst h
        rw [if_pos hb, List.find?_cons_of_pos (by simpa using hb)]
      · rw [List.find?_cons_of_neg (by simpa using hb)] at h
        rw [if_neg hb, List.find?_cons_of_neg (by simpa using hb), ih h]

namespace Custody

variable {c : Custody} {serde : Serde} {r r' : StoredEnvelopeRecord}

/-- The first assignment of a custodian has the index of its share. -/
theorem Holds.find_assignment (h : c.Holds r) {assignments : List ShareAssignment}
    (hassignments : r.shareAssignments = some assignments) (custodianId : String) :
    (assignments.find? fun a => a.custodianId = custodianId).map (·.shareIndex) = (c.share custodianId).map (·.x) := by
  obtain ⟨assignments', hsome, hplaces⟩ := h.assignments
  rw [hassignments] at hsome
  cases hsome
  have hfind := congrArg (List.find? fun p : String × UInt8 => p.1 = custodianId) hplaces
  rw [List.find?_map, List.find?_map] at hfind
  have hindex := congrArg (Option.map Prod.snd) hfind
  simp only [Option.map_map, Function.comp_def] at hindex
  simpa only [share, Option.map_map, Function.comp_def] using hindex

/-- The held share under an index. -/
theorem find_held {share : Threshold.Share} (h : share ∈ c.split.shares) :
    ((holdShares c.split).find? fun held => held.x = share.x) = some ⟨share.x, Base64.standard.encode share.y⟩ := by
  have hfound : (c.split.shares.find? fun s => s.x = share.x) = some share := by
    cases hcase : c.split.shares.find? fun s => s.x = share.x with
    | none =>
        have hnone := List.find?_eq_none.mp hcase share h
        simp at hnone
    | some share' =>
        have hx : share'.x = share.x := by simpa using List.find?_some hcase
        rw [eq_of_x_eq (List.mem_of_find?_eq_some hcase) h hx]
  rw [holdShares, List.find?_map]
  simp only [Function.comp_def, hfound, Option.map_some]

/-- Shares that are in custody stay there. -/
theorem Holds.steps (h : c.Holds r) (hsteps : RecordSteps serde r r') : c.Holds r' := by
  obtain ⟨assignments, hassignments, hplaces⟩ := h.assignments
  have hkept := hsteps.sharesKept
  have hevolves := hsteps.evolves
  refine ⟨hevolves.threshold.trans h.threshold, hevolves.thresholdCommitments.trans h.commitments,
    hkept.held.trans h.held, ?_⟩
  obtain ⟨assignments', hassignments', hraised⟩ := hkept.exists_raised hassignments
  exact ⟨assignments', hassignments', (map_of_raised hraised).trans hplaces⟩

theorem Claimed.steps {custodianId : String} (h : Claimed r custodianId) (hsteps : RecordSteps serde r r') :
    Claimed r' custodianId := by
  obtain ⟨assignments, a, hassignments, ha, hclaimed⟩ := h
  obtain ⟨assignments', hassignments', hraised⟩ := hsteps.sharesKept.exists_raised hassignments
  obtain ⟨a', ha', hraise⟩ := find_of_raised hraised ha
  refine ⟨assignments', a', hassignments', ha', ?_⟩
  rcases hraise with rfl | rfl
  · exact hclaimed
  · rfl

/-- What a claim returns is the share of the custodian, and then it is claimed. -/
theorem Holds.claim_eq_ok (h : c.Holds r) {custodianId : String} {result : ClaimResult}
    (hclaim : SealedStore.claim custodianId r = .ok (r', result)) :
    ∃ share, c.share custodianId = some share ∧ result.x = share.x ∧ result.y = share.y ∧ Claimed r' custodianId := by
  obtain ⟨assignments, held, _, a, _, y, hassignments, hheld, -, ha, hfound, hy, rfl, rfl⟩ :=
    SealedStore.claim_eq_ok.mp hclaim
  have hindex := h.find_assignment hassignments custodianId
  rw [ha, Option.map_some] at hindex
  obtain ⟨share, hshare, hx⟩ := Option.map_eq_some_iff.mp hindex.symm
  rw [h.held] at hheld
  cases hheld
  rw [← hx, find_held (share_mem_shares hshare)] at hfound
  cases hfound
  rw [Base64.decode_encode Base64.standard_lawful] at hy
  cases hy
  exact ⟨share, hshare, rfl, rfl, _, _, rfl, find_markClaimed ha, rfl⟩

/-- Every custodian with a share can claim it. -/
theorem Holds.exists_claim (h : c.Holds r) {custodianId : String} {share : Threshold.Share}
    (hshare : c.share custodianId = some share) : ∃ claimed, SealedStore.claim custodianId r = .ok claimed := by
  obtain ⟨assignments, hassignments, -⟩ := h.assignments
  have hindex := h.find_assignment hassignments custodianId
  rw [hshare, Option.map_some] at hindex
  obtain ⟨a, ha, hx⟩ := Option.map_eq_some_iff.mp hindex
  have hfound := find_held (share_mem_shares hshare)
  rw [← hx] at hfound
  exact ⟨(_, _), SealedStore.claim_eq_ok.mpr ⟨assignments, _, _, a, _, share.y, hassignments, h.held, h.commitments, ha,
    hfound, Base64.decode_encode Base64.standard_lawful _, rfl, rfl⟩⟩

/-! ### Combining -/

/-- One round of the loop accepts the share of a custodian who has claimed it, once. -/
theorem Holds.custodyLoop_cons (h : c.Holds r) {env : Env} {assignments : List ShareAssignment}
    (hassignments : r.shareAssignments = some assignments) {seen : List UInt8} {custodianId : String}
    {share : Threshold.Share} {rest : List (String × Threshold.Share)} {shares : List Threshold.Share} :
    custodyLoop env assignments (holdShares c.split) seen ((custodianId, share) :: rest) = .ok shares ↔
      c.share custodianId = some share ∧ Claimed r custodianId ∧ share.x ∉ seen ∧
      ∃ validated, custodyLoop env assignments (holdShares c.split) (share.x :: seen) rest = .ok validated ∧
        shares = share :: validated := by
  have hindex := h.find_assignment hassignments custodianId
  simp only [custodyLoop, Eff.except_bind_eq_ok, Eff.okOr_eq_ok, Eff.rejectIf_eq_ok, not_not, Bool.not_eq_false, pure,
    Except.pure, Except.ok.injEq]
  constructor
  · rintro ⟨a, ha, -, hclaimed, -, hseen, -, hx, held, hheld, y, hy, -, hsame, validated, hrest, rfl⟩
    rw [ha, Option.map_some] at hindex
    obtain ⟨assigned, hassigned, hassignedx⟩ := Option.map_eq_some_iff.mp hindex.symm
    rw [← hassignedx, find_held (share_mem_shares hassigned)] at hheld
    cases hheld
    rw [Base64.decode_encode Base64.standard_lawful] at hy
    cases hy
    have hshare : assigned = share := by
      cases assigned
      cases share
      simp only [Threshold.Share.mk.injEq]
      exact ⟨hassignedx.trans hx.symm, hsame.symm⟩
    rw [← hx] at hseen hrest
    exact ⟨hshare ▸ hassigned, ⟨assignments, a, hassignments, ha, hclaimed⟩, hseen, validated, hrest, rfl⟩
  · rintro ⟨hshare, ⟨_, a, hassignments', ha, hclaimed⟩, hseen, validated, hrest, rfl⟩
    rw [hassignments] at hassignments'
    cases hassignments'
    rw [ha, hshare, Option.map_some, Option.map_some, Option.some.injEq] at hindex
    have hheld := find_held (share_mem_shares hshare)
    rw [← hindex] at hseen hrest hheld
    exact ⟨a, ha, (), hclaimed, (), hseen,
      (), hindex.symm, _, hheld, share.y, Base64.decode_encode Base64.standard_lawful _,
      (), rfl, validated, hrest, rfl⟩

/-- The loop accepts shares of custodians who have claimed them, each once. -/
theorem Holds.custodyLoop_eq_ok (h : c.Holds r) {env : Env} {assignments : List ShareAssignment}
    (hassignments : r.shareAssignments = some assignments) {pairs : List (String × Threshold.Share)} {seen : List UInt8}
    {shares : List Threshold.Share} :
    custodyLoop env assignments (holdShares c.split) seen pairs = .ok shares ↔
      shares = pairs.map Prod.snd ∧ (∀ p ∈ pairs, c.share p.1 = some p.2 ∧ Claimed r p.1) ∧
      (pairs.map fun p => p.2.x).Nodup ∧ ∀ p ∈ pairs, p.2.x ∉ seen := by
  induction pairs generalizing seen shares with
  | nil =>
      simp only [custodyLoop, Except.ok.injEq, List.map_nil]
      constructor
      · rintro rfl
        exact ⟨rfl, List.forall_mem_nil _, List.nodup_nil, List.forall_mem_nil _⟩
      · rintro ⟨rfl, -⟩
        rfl
  | cons p rest ih =>
      obtain ⟨custodianId, share⟩ := p
      rw [h.custodyLoop_cons hassignments, List.forall_mem_cons, List.forall_mem_cons]
      simp only [ih, List.map_cons, List.nodup_cons, List.mem_map, not_exists, not_and, List.mem_cons, not_or]
      constructor
      · rintro ⟨hshare, hclaimed, hseen, _, ⟨rfl, hall, hnodup, hnew⟩, rfl⟩
        exact ⟨rfl, ⟨⟨hshare, hclaimed⟩, hall⟩, ⟨fun q hq => (hnew q hq).1, hnodup⟩, hseen, fun q hq => (hnew q hq).2⟩
      · rintro ⟨rfl, ⟨⟨hshare, hclaimed⟩, hall⟩, ⟨hnew, hnodup⟩, hseen, hrest⟩
        exact ⟨hshare, hclaimed, hseen, _, ⟨rfl, hall, hnodup, fun q hq => ⟨hnew q hq, hrest q hq⟩⟩, rfl⟩

/-- Different custodians have different shares, and these have different indices. -/
theorem nodup_indices {custodianIds : List String} {shares : List Threshold.Share}
    (hlength : custodianIds.length = shares.length) (hnodup : custodianIds.Nodup)
    (hall : ∀ p ∈ custodianIds.zip shares, c.share p.1 = some p.2) : (shares.map (·.x)).Nodup := by
  have hzip : (custodianIds.zip shares).Nodup := by
    apply List.Nodup.of_map Prod.fst
    rwa [List.map_fst_zip hlength.le]
  rw [← List.map_snd_zip hlength.ge, List.map_map]
  refine hzip.map_on fun p hp q hq hx => ?_
  have hshare := hall p hp
  have hshare' := hall q hq
  have heq := eq_of_x_eq (share_mem_shares hshare) (share_mem_shares hshare') hx
  rw [heq] at hshare
  exact Prod.ext (custodian_eq hshare hshare') heq

/-- Combining accepts exactly enough claimed shares of different custodians, and takes them as they were presented. -/
theorem Holds.validate_eq_ok (h : c.Holds r) {env : Env} {req : CombineSharesRequest} {shares : List Threshold.Share} :
    validateCombineSharesCustody env r req = .ok shares ↔
      shares = req.shares ∧ req.custodianIds.length = req.shares.length ∧ req.custodianIds.Nodup ∧
      (∀ id ∈ req.custodianIds, trim id ≠ "") ∧ c.threshold.toNat ≤ req.shares.length ∧
      ∀ p ∈ req.custodianIds.zip req.shares, c.share p.1 = some p.2 ∧ Claimed r p.1 := by
  obtain ⟨assignments, hassignments, -⟩ := h.assignments
  simp only [validateCombineSharesCustody, hassignments, h.held, h.threshold, checkShareCount, Eff.okOr_some, Eff.ok_bind,
    Eff.except_bind_eq_ok, Eff.rejectIf_eq_ok, not_not, not_lt, h.custodyLoop_eq_ok hassignments, List.any_eq_true,
    decide_eq_true_eq, not_exists, not_and, List.not_mem_nil, not_false_eq_true, implies_true, and_true]
  constructor
  · rintro ⟨-, hlength, -, hdedup, -, hblank, -, hcount, rfl, hall, -⟩
    refine ⟨List.map_snd_zip hlength.ge, hlength, ?_, hblank, hcount, hall⟩
    rw [← hlength] at hdedup
    rw [← (List.dedup_sublist req.custodianIds).eq_of_length hdedup]
    exact List.nodup_dedup _
  · rintro ⟨rfl, hlength, hnodup, hblank, hcount, hall⟩
    refine ⟨(), hlength, (), ?_, (), hblank, (), hcount, (List.map_snd_zip hlength.ge).symm, hall, ?_⟩
    · rw [hnodup.dedup, hlength]
    · have hindices := nodup_indices hlength hnodup fun p hp => (hall p hp).1
      rwa [← List.map_snd_zip hlength.ge, List.map_map] at hindices

/-- The share that the record holds for a custodian who has claimed it. -/
def ClaimedShare (r : StoredEnvelopeRecord) (custodianId : String) (share : Threshold.Share) : Prop :=
  ∃ assignments held, r.shareAssignments = some assignments ∧ r.heldShares = some held ∧
    (assignments.find? fun a => a.custodianId = custodianId) = some ⟨custodianId, share.x, true⟩ ∧
    ∃ yB64, ⟨share.x, yB64⟩ ∈ held ∧ Base64.standard.decode yB64 = some share.y

theorem Holds.claimedShare (h : c.Holds r) {custodianId : String} {share : Threshold.Share}
    (hshare : c.share custodianId = some share) (hclaimed : Claimed r custodianId) : ClaimedShare r custodianId share := by
  obtain ⟨assignments, a, hassignments, ha, hmark⟩ := hclaimed
  have hindex := h.find_assignment hassignments custodianId
  rw [ha, hshare, Option.map_some, Option.map_some, Option.some.injEq] at hindex
  have hname : a.custodianId = custodianId := by simpa using List.find?_some ha
  refine ⟨assignments, _, hassignments, h.held, ?_, _, List.mem_of_find?_eq_some (find_held (share_mem_shares hshare)),
    Base64.decode_encode Base64.standard_lawful _⟩
  rw [ha, ← hname, ← hindex, ← hmark]

end Custody

/-- The token of a secret that was just sealed is split as it is. -/
theorem splitRedeemToken_eq_ok {env : Env} {coefficients : ℕ → Scalar} {token : Block 32} {threshold numShares : UInt8}
    {split : Threshold.SplitResult}
    (h : splitRedeemToken env coefficients (Base64.standard.encode token.val) threshold numShares = .ok split) :
    Threshold.split env.curve token threshold numShares (fun i => coefficients i) = .ok split := by
  simp only [splitRedeemToken, Base64.decode_encode Base64.standard_lawful, Eff.okOr_some, Eff.ok_bind, sized_val,
    Eff.except_mapError_eq_ok] at h
  exact h

theorem assignShares_eq_map (custodianIds : List String) (split : Threshold.SplitResult) :
    assignShares custodianIds split = (custodianIds.zip split.shares).map fun p => ⟨p.1, p.2.x, false⟩ := by
  rw [assignShares, List.zip_eq_zipWith, List.map_zipWith]

theorem map_assignShares (custodianIds : List String) (split : Threshold.SplitResult) :
    ((assignShares custodianIds split).map fun a => (a.custodianId, a.shareIndex)) =
      (custodianIds.zip split.shares).map fun p => (p.1, p.2.x) := by
  rw [assignShares_eq_map, List.map_map]
  rfl

/-- What a successful mint for custodians has stored. -/
structure MintedFor (env : Env) (d : MintDraws) (context : BrokerClientContext) (request : MintV2Request) (c : Custody)
    (r : StoredEnvelopeRecord) : Prop where
  custodianIds : c.custodianIds = request.custodianIds
  threshold : c.threshold = request.threshold.getD 1
  enough : 1 ≤ c.threshold ∧ c.threshold ≤ request.numShares.getD 1
  split : Threshold.split env.curve (env.redeemToken d.persist.handleId
    (redeemBindingBytes env request.lifecycle context) d.persist.redeemNonce.val) c.threshold (request.numShares.getD 1)
    (fun i => d.coefficients i) = .ok c.split
  holds : c.Holds r
  assignments : r.shareAssignments = some (assignShares request.custodianIds c.split)
  issuedBy : IssuedBy ⟨d.persist.handleId, context, request.lifecycle, request.unwrapPrincipalId⟩ r

theorem mint_custody {env : Env} {d : MintDraws} {context : BrokerClientContext} {request : MintV2Request}
    {response : MintV2Response} {s s' : Broker} (h : mintAeadKeyV2Impl env d context request s = (.ok response, s'))
    (hthreshold : request.threshold.getD 1 > 1) (hcustodians : request.custodianIds ≠ []) :
    ∃ c r, MintedFor env d context request c r ∧ s'.records d.persist.handleId = some r ∧ response.redeemToken = "" := by
  obtain ⟨expiresAt, ttlSeconds, unwrapPrincipalId, outcome, s₁, s₂, -, hbounds, hprincipal, hpersist, hcount, hmaterial,
    hrecords, -, -⟩ := mint_eq_ok env h
  obtain ⟨redeemExpiresAt, encryption, keyPair, signature, leaseExpiresAt, _, _, s₃, -, -, -, rfl, rfl⟩ :=
    persist_eq_ok env hpersist
  have hissued : IssuedBy ⟨d.persist.handleId, context, request.lifecycle, request.unwrapPrincipalId⟩
      (newRecord env d.persist context (mintInput env d request expiresAt ttlSeconds unwrapPrincipalId) encryption keyPair
        signature redeemExpiresAt leaseExpiresAt) :=
    newRecord_issuedBy env d.persist rfl hprincipal encryption keyPair signature redeemExpiresAt leaseExpiresAt
  revert hissued hmaterial
  generalize newRecord env d.persist context
    (mintInput env d request expiresAt ttlSeconds unwrapPrincipalId) encryption keyPair
    signature redeemExpiresAt leaseExpiresAt = r
  intro hmaterial hissued
  simp only [mintRedeemMaterial, if_pos hthreshold, if_pos hcustodians, Eff.bind_eq_ok, Eff.lift_eq_ok,
    Eff.mapError_eq_ok, perform_eq_ok, Eff.pure_eq_ok] at hmaterial
  obtain ⟨split, _, ⟨hsplit, rfl⟩, _, _, ⟨-, -, rfl⟩, _, _, ⟨-, -, rfl⟩, hresponse, rfl⟩ := hmaterial
  have hsplit' := splitRedeemToken_eq_ok hsplit
  obtain ⟨hlow, hhigh⟩ := not_or.mp hbounds
  have hlow' := UInt8.not_lt.mp hlow
  have hhigh' := UInt8.not_lt.mp hhigh
  obtain ⟨hnodup, hlength⟩ := Threshold.nodup_split_shares env.curve hlow' hhigh' hsplit'
  have hmatch : request.custodianIds.length = (request.numShares.getD 1).toNat := by
    by_contra hne
    exact hcount ⟨hthreshold, hcustodians, hne⟩
  have hstored : s'.records d.persist.handleId = some { env.serde.reload { env.serde.reload r with
      threshold := some (request.threshold.getD 1), thresholdCommitments := some (encodedCommitments split) } with
      shareAssignments := some (assignShares request.custodianIds split), heldShares := some (holdShares split) } := by
    rw [hrecords, Broker.putRecord_records_self, Broker.putRecord_records_self, Broker.putRecord_records_self]
    rfl
  refine ⟨⟨request.custodianIds, split, request.threshold.getD 1, hnodup, hmatch.trans hlength.symm⟩, _,
    ⟨rfl, rfl, ⟨hlow', hhigh'⟩, hsplit', ⟨rfl, rfl, rfl, _, rfl, map_assignShares _ _⟩, rfl, ?_⟩, hstored, hresponse⟩
  exact ⟨hissued.lifecycle, hissued.unwrapPrincipalId, hissued.transport, hissued.issuer, hissued.peerCert,
    hissued.attestation, hissued.exporterBinding⟩

/-- The redeem token of a sealed secret expires after its lifetime. -/
theorem persist_redeemTokenExpiresAt {env : Env} {d : PersistDraws} {context : BrokerClientContext}
    {input : PersistSecretV2Input} {outcome : StoredSecretOutcome} {s s' : Broker}
    (h : persistSecretV2WithLifecycle env d context input s = (.ok outcome, s')) :
    ∃ redeemExpiresAt, input.createdAt.addSeconds env.broker.redeemTokenTtl = some redeemExpiresAt ∧
      outcome.redeemTokenExpiresAt = some redeemExpiresAt := by
  simp only [persistSecretV2WithLifecycle, Eff.bind_eq_ok, checkTime_eq_ok, Eff.pure_eq_ok] at h
  obtain ⟨redeemExpiresAt, _, ⟨hredeem, -⟩, _, _, -, _, _, -, _, _, -, _, _, -, _, _, -, rfl, -⟩ := h
  exact ⟨redeemExpiresAt, hredeem, rfl⟩

/-- The response of a mint says where the secret is, what it is and when it ends. The rest is redeem material. -/
theorem mint_response {env : Env} {d : MintDraws} {context : BrokerClientContext} {request : MintV2Request}
    {response : MintV2Response} {s s' : Broker} (h : mintAeadKeyV2Impl env d context request s = (.ok response, s')) :
    ∃ expiresAt ttl redeemExpiresAt, enforceTtl env request.ttlSeconds d.createdAt = .ok (expiresAt, ttl) ∧
      d.createdAt.addSeconds env.broker.redeemTokenTtl = some redeemExpiresAt ∧
      response = ⟨env.mintHandle d.persist.handleId (mintCaveats request expiresAt), Base64.standard.encode d.keyBytes.val,
        expiresAt, response.redeemToken, some redeemExpiresAt⟩ := by
  simp only [mintAeadKeyV2Impl, Eff.bind_eq_ok, Eff.lift_eq_ok, check_eq_ok, Eff.pure_eq_ok, Prod.exists] at h
  obtain ⟨expiresAt, ttl, _, ⟨httl, -⟩, _, _, -, _, _, -, outcome, _, hpersist, _, _, -, _, _, -, _, _, -,
    hresponse, -⟩ := h
  obtain ⟨redeemExpiresAt, hredeem, hexpires⟩ := persist_redeemTokenExpiresAt hpersist
  refine ⟨expiresAt, ttl, redeemExpiresAt, httl, hredeem, ?_⟩
  rw [hresponse, persist_handleId env _ _ _ hpersist, hexpires]

section

variable {env : Env} {d : LoadDraws} {claimDisk : Disk} {context : BrokerClientContext} {req : ClaimShareRequest}
  {result : ClaimResult} {s s' : Broker}

/-- The state after an event was recorded. -/
def Broker.recorded (env : Env) (event : TransparencyEvent) (s : Broker) : Broker := (recordTransparency env event s).2

theorem recordTransparency_eq_ok {event : TransparencyEvent} {u : Unit} :
    recordTransparency env event s = (.ok u, s') ↔ s' = s.recorded env event := by
  rw [recordTransparency, Eff.modify_eq_ok]
  rfl

@[simp] theorem Broker.recorded_records (event : TransparencyEvent) (s : Broker) :
    (s.recorded env event).records = s.records := by
  unfold Broker.recorded recordTransparency
  rw [Eff.modify_apply]
  split_ifs
  · rfl
  · rfl

theorem loadChecked_eq_ok {id : Uuid} {validate : StoredEnvelopeRecord → Except ServiceError Unit}
    {onLoad onCheck : Failure → Failure} {u : Unit} :
    loadChecked env d id validate onLoad onCheck s = (.ok u, s') ↔
      d.disk = .ok ∧ (∀ r, s.records id = some r → validate (accessed env d r) = .ok ()) ∧
        s' = s.putRecord id ((s.records id).map (accessed env d)) := by
  simp only [loadChecked, Eff.bind_eq_ok, Eff.mapError_eq_ok, performLoad_eq_ok, check_eq_ok]
  cases hr : s.records id with
  | none =>
      simp only [Option.map_none, reduceCtorEq, false_implies, implies_true, true_and]
      constructor
      · rintro ⟨_, _, ⟨hdisk, rfl, rfl⟩, -, rfl⟩
        exact ⟨hdisk, rfl⟩
      · rintro ⟨hdisk, rfl⟩
        exact ⟨_, _, ⟨hdisk, rfl, rfl⟩, rfl, rfl⟩
  | some r =>
      simp only [Option.map_some, Option.some.injEq, forall_eq']
      constructor
      · rintro ⟨_, _, ⟨hdisk, rfl, rfl⟩, hvalid, rfl⟩
        exact ⟨hdisk, hvalid, rfl⟩
      · rintro ⟨hdisk, hvalid, rfl⟩
        exact ⟨_, _, ⟨hdisk, rfl, rfl⟩, hvalid, rfl⟩

theorem performClaim_eq_ok {id : Uuid} {custodianId : String} :
    perform claimDisk id (SealedStore.claimCustodianShare env.serde custodianId) s = (.ok result, s') ↔
      claimDisk = .ok ∧ ∃ r r', s.records id = some r ∧
        SealedStore.claim custodianId (env.serde.reload r) = .ok (r', result) ∧ s' = s.putRecord id (some r') := by
  rw [perform_eq_ok]
  cases hr : s.records id with
  | none => simp only [SealedStore.claimCustodianShare, Register.Op.run, reduceCtorEq, false_and, and_false, exists_false]
  | some r =>
      simp only [SealedStore.claimCustodianShare, Register.Op.run, Option.some.injEq, and_congr_right_iff]
      intro _
      constructor
      · intro h
        cases hclaim : SealedStore.claim custodianId (env.serde.reload r) with
        | error e =>
            rw [hclaim] at h
            cases h.1
        | ok claimed =>
            rw [hclaim] at h
            obtain ⟨hresult, rfl⟩ := h
            cases hresult
            exact ⟨r, claimed.1, rfl, hclaim, rfl⟩
      · rintro ⟨_, r', rfl, hclaim, rfl⟩
        rw [hclaim]
        exact ⟨rfl, rfl⟩

/-- A claim loads the record, checks the caller against it, and marks the share. -/
theorem claimShare_eq_ok : claimShareImpl env d claimDisk context req s = (.ok result, s') ↔
    checkCustodian context req.handle req.custodianId "claim_share" = .ok () ∧ d.disk = .ok ∧ claimDisk = .ok ∧
    ∃ id r r', parseHandleIdentifier env req.handle = .ok id ∧ s.records id = some r ∧
      validateThresholdCustodyRecordRequirements (accessed env d r) context = .ok () ∧
      SealedStore.claim req.custodianId (env.serde.reload (accessed env d r)) = .ok (r', result) ∧
      s' = (s.putRecord id (some r')).recorded env (transparencyEvent env .wrap "issued" req.handle
        (some "threshold-share-claim") (some req.custodianId) context d.loggedAt
        (claimMeta context req.custodianId result)) := by
  simp only [claimShareImpl, Eff.bind_eq_ok, Eff.lift_eq_ok, Eff.except_mapError_eq_ok, Eff.mapError_eq_ok, check_eq_ok,
    loadChecked_eq_ok, performClaim_eq_ok, recordTransparency_eq_ok, Eff.pure_eq_ok]
  constructor
  · rintro ⟨_, _, ⟨hcaller, rfl⟩, id, _, ⟨hid, rfl⟩, _, _, ⟨hdisk, hvalid, rfl⟩, _, _,
      ⟨hclaimDisk, r, r', hr, hclaim, rfl⟩, _, _, rfl, rfl, rfl⟩
    rw [Broker.putRecord_records_self] at hr
    obtain ⟨stored, hstored, rfl⟩ := Option.map_eq_some_iff.mp hr
    rw [Broker.putRecord_putRecord]
    exact ⟨hcaller, hdisk, hclaimDisk, id, stored, r', hid, hstored, hvalid stored hstored, hclaim, rfl⟩
  · rintro ⟨hcaller, hdisk, hclaimDisk, id, r, r', hid, hr, hvalid, hclaim, rfl⟩
    refine ⟨(), s, ⟨hcaller, rfl⟩, id, s, ⟨hid, rfl⟩, (), _, ⟨hdisk, fun r₁ hr₁ => ?_, rfl⟩, result, _,
      ⟨hclaimDisk, accessed env d r, r', ?_, hclaim, rfl⟩, (), _, rfl, rfl, ?_⟩
    · rw [hr] at hr₁
      cases hr₁
      exact hvalid
    · rw [Broker.putRecord_records_self, hr, Option.map_some]
    · rw [Broker.putRecord_putRecord]

end

/-- Whoever may manage a record can delete it. -/
theorem deleteSecret_ok {env : Env} {d : LoadDraws} {context : BrokerClientContext} {handle : String} {id : Uuid}
    {r : StoredEnvelopeRecord} {s : Broker} (hhandle : parseHandleIdentifier env handle = .ok id) (hload : d.disk = .ok)
    (hr : s.records id = some r) (hvalid : validateV2RecordManagementRequirements (accessed env d r) context = .ok ()) :
    deleteSecretImpl env d .ok context handle s =
      (.ok true, (s.putRecord id none).recorded env
        (transparencyEvent env .delete "removed" handle none none context d.loggedAt (contextMeta context))) := by
  have hchecked : ∀ stored, s.records id = some stored →
      validateV2RecordManagementRequirements (accessed env d stored) context = .ok () := by
    intro stored hstored
    rw [hr] at hstored
    cases hstored
    exact hvalid
  have hloaded : loadChecked env d id (fun record => validateV2RecordManagementRequirements record context) .asStorage
      (fun failure => failure) s = (.ok (), s.putRecord id (some (accessed env d r))) :=
    loadChecked_eq_ok.mpr ⟨hload, hchecked, by rw [hr, Option.map_some]⟩
  have hdelete : perform .ok id SealedStore.delete (s.putRecord id (some (accessed env d r))) =
      (.ok true, s.putRecord id none) := by
    rw [perform_eq_ok, Broker.putRecord_records_self, Broker.putRecord_putRecord]
    exact ⟨rfl, rfl, rfl⟩
  simp only [deleteSecretImpl, Eff.bind_eq_ok, check_eq_ok, Eff.mapError_eq_ok, recordTransparency_eq_ok, Eff.pure_eq_ok]
  exact ⟨id, s, ⟨hhandle, rfl⟩, (), _, hloaded, true, _, hdelete, (), _, rfl, rfl, rfl⟩

end SecretBroker
