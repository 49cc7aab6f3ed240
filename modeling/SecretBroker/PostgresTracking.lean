import SecretBroker.PostgresLease
import Mathlib.Data.List.AList

/-! Which leases the manager keeps in mind. A role that has been committed should stay in the map of issued leases
until it has been dropped. Two places lose it: the URL is written after the role has been committed, and may not
take the name; and the cleanup forgets an expired role whether or not it could be dropped. -/

open Wire

namespace SecretBroker.Postgres

variable {Url : Type} (env : LeaseEnv Url)

/-- The operations of the manager, each with the server as it is at that time. -/
inductive LeaseOp where
  | issue (server : Server) (d : LeaseDraws) (request : LeaseRequest)
  | cleanup (server : Server) (now : DateTime)

def LeaseOp.exec (s : LeaseState) : LeaseOp → LeaseState
  | .issue server d request => (issueCredentials env server d request s).2
  | .cleanup server now => (cleanupExpiredLeases env server now s).2

/-- The state after a run of operations. -/
def LeaseState.after (s : LeaseState) (ops : List LeaseOp) : LeaseState := ops.foldl (LeaseOp.exec env) s

/-- Every role that was not there at the start is in the map of issued leases, with the time until which it is valid. -/
def Tracked (initial : Roles) (s : LeaseState) : Prop :=
  ∀ username role, initial username = none → s.db username = some role →
    ∃ expiry, role.validUntil = some expiry ∧ s.issued.lookup username = some expiry

/-- The roles of the start are still there, and none of them is taken for a lease. -/
structure Grounded (initial : Roles) (s : LeaseState) : Prop where
  kept : ∀ username, s.db username = none → initial username = none
  foreign : ∀ username ∈ s.issued, initial username = none

section

variable {env} {server : Server} {d : LeaseDraws} {request : LeaseRequest} {s : LeaseState} {initial : Roles}

/-- The issuance commits a role. -/
def Commits (env : LeaseEnv Url) (server : Server) (d : LeaseDraws) (request : LeaseRequest) (s : LeaseState)
    (expiresAt : DateTime) : Prop :=
  leaseEnd env d request = .ok expiresAt ∧ Accepts env server s.db (provisioning env d request expiresAt) ∧
    GrantsRoles env server s.db (provisioning env d request expiresAt)

/-- The URL of the database takes the name and the password of the lease. -/
def UrlTakes (env : LeaseEnv Url) (d : LeaseDraws) (request : LeaseRequest) : Prop :=
  ∃ url, leaseUrl env d request = .ok url

theorem createRole_snd_of_error {db db' : Roles} {role : RoleProvisioning Url} {e : LeaseError}
    (h : createRole env server role db = (.error e, db')) : db' = db := by
  rw [createRole_eq, Eff.bind_eq_error] at h
  rcases h with hbegin | ⟨_, _, hbegin, htransact⟩
  · exact (Eff.lift_eq_error.mp hbegin).2
  · obtain ⟨-, rfl⟩ := Eff.lift_eq_ok.mp hbegin
    exact (Transaction.spares_transact _ _ _ _ _ htransact).symm

/-- What an issuance leaves behind, whatever it returns. -/
inductive Issues (env : LeaseEnv Url) (server : Server) (d : LeaseDraws) (request : LeaseRequest) (s : LeaseState) :
    LeaseState → Prop
  | nothing (hnot : ∀ expiresAt, ¬ Commits env server d request s expiresAt) : Issues env server d request s s
  /-- The transaction was aborted, and its commit has gone through. -/
  | rolledBack {expiresAt : DateTime} (hnot : ∀ expiresAt, ¬ Commits env server d request s expiresAt)
      (hunused : s.db (generateUsername request.audience d.suffix) = none) : Issues env server d request s
      { s with issued := s.issued.insert (generateUsername request.audience d.suffix) expiresAt }
  | lost {expiresAt : DateTime} (hcommits : Commits env server d request s expiresAt) (hurl : ¬ UrlTakes env d request) :
      Issues env server d request s
        ⟨Function.update s.db (generateUsername request.audience d.suffix)
          (some (grantedRole env (provisioning env d request expiresAt))), s.issued⟩
  | leased {expiresAt : DateTime} (hcommits : Commits env server d request s expiresAt) (hurl : UrlTakes env d request) :
      Issues env server d request s
        ⟨Function.update s.db (generateUsername request.audience d.suffix)
          (some (grantedRole env (provisioning env d request expiresAt))),
          s.issued.insert (generateUsername request.audience d.suffix) expiresAt⟩

theorem Commits.expiresAt_unique {e e' : DateTime} (h : Commits env server d request s e)
    (h' : Commits env server d request s e') : e = e' := Except.ok.inj (h.1.symm.trans h'.1)

theorem Commits.unused {e : DateTime} (h : Commits env server d request s e) :
    s.db (generateUsername request.audience d.suffix) = none := by
  rw [← provisioning_username env d request e]
  exact h.2.1.unused

theorem not_commits_of_error {e : LeaseError} (h : leaseEnd env d request = .error e) (expiresAt : DateTime) :
    ¬ Commits env server d request s expiresAt := by
  intro hcommits
  rw [hcommits.1] at h
  cases h

/-- After `create_role` has returned, the issued lease is noted if the URL takes it. -/
theorem issueCredentials_snd_of_createRole {expiresAt : DateTime} {db : Roles}
    (hend : leaseEnd env d request = .ok expiresAt)
    (hcreate : createRole env server (provisioning env d request expiresAt) s.db = (.ok (), db)) :
    (UrlTakes env d request ∧ (issueCredentials env server d request s).2 =
      ⟨db, s.issued.insert (generateUsername request.audience d.suffix) expiresAt⟩) ∨
    (¬ UrlTakes env d request ∧ (issueCredentials env server d request s).2 = ⟨db, s.issued⟩) := by
  have hzoom : Eff.zoom LeaseState.db (fun s db => { s with db })
      (createRole env server (provisioning env d request expiresAt)) s = (.ok (), { s with db }) := by
    rw [Eff.zoom, hcreate]
  rw [issueCredentials, hend, Eff.bind_of_ok (Eff.lift_apply _ s), Eff.bind_of_ok hzoom]
  cases hurl : leaseUrl env d request with
  | error e =>
      refine Or.inr ⟨?_, by rw [Eff.bind_of_error (Eff.lift_apply _ _)]⟩
      rintro ⟨url, htakes⟩
      rw [hurl] at htakes
      cases htakes
  | ok url => exact Or.inl ⟨⟨url, hurl⟩, by rw [Eff.bind_of_ok (Eff.lift_apply _ _)]; rfl⟩

theorem issues_issueCredentials (env : LeaseEnv Url) (server : Server) (d : LeaseDraws) (request : LeaseRequest)
    (s : LeaseState) : Issues env server d request s (issueCredentials env server d request s).2 := by
  cases hend : leaseEnd env d request with
  | error e =>
      rw [issueCredentials, hend, Eff.bind_of_error (Eff.lift_apply _ s)]
      exact .nothing (not_commits_of_error hend)
  | ok expiresAt =>
      have hunique : ∀ {e}, Commits env server d request s e → expiresAt = e := fun h =>
        Except.ok.inj (hend.symm.trans h.1)
      rcases hcreate : createRole env server (provisioning env d request expiresAt) s.db with ⟨e | u, db⟩
      · have hzoom : Eff.zoom LeaseState.db (fun s db => { s with db })
            (createRole env server (provisioning env d request expiresAt)) s = (.error e, s) := by
          rw [Eff.zoom, hcreate, createRole_snd_of_error hcreate]
        rw [issueCredentials, hend, Eff.bind_of_ok (Eff.lift_apply _ s), Eff.bind_of_error hzoom]
        apply Issues.nothing
        intro expiresAt' hcommits
        obtain rfl := hunique hcommits
        have hok := (createRole_eq_ok (u := ())).mpr ⟨hcommits.2.1, Or.inl ⟨hcommits.2.2, rfl⟩⟩
        rw [hcreate] at hok
        cases hok
      · obtain ⟨haccepts, ⟨hall, rfl⟩ | ⟨hnot, -, rfl⟩⟩ := createRole_eq_ok.mp hcreate
        · have hcommits : Commits env server d request s expiresAt := ⟨hend, haccepts, hall⟩
          rcases issueCredentials_snd_of_createRole hend hcreate with ⟨hurl, hs⟩ | ⟨hurl, hs⟩
          · rw [hs, provisioning_username]
            exact .leased hcommits hurl
          · rw [hs, provisioning_username]
            exact .lost hcommits hurl
        · have hnone : ∀ expiresAt', ¬ Commits env server d request s expiresAt' := by
            intro expiresAt' hcommits
            obtain rfl := hunique hcommits
            exact hnot hcommits.2.2
          have hunused := haccepts.unused
          rw [provisioning_username] at hunused
          rcases issueCredentials_snd_of_createRole hend hcreate with ⟨hurl, hs⟩ | ⟨hurl, hs⟩
          · rw [hs]
            exact .rolledBack hnone hunused
          · rw [hs]
            exact .nothing hnone

/-- One more lease is noted. -/
theorem Tracked.insert (h : Tracked initial s) {username : String} {role : Role} {expiry : DateTime}
    (hrole : role.validUntil = some expiry) :
    Tracked initial ⟨Function.update s.db username (some role), s.issued.insert username expiry⟩ := by
  intro other role' hother hrole'
  dsimp only at hrole' ⊢
  by_cases heq : other = username
  · subst heq
    rw [Function.update_self, Option.some_inj] at hrole'
    subst hrole'
    exact ⟨expiry, hrole, AList.lookup_insert _⟩
  · rw [Function.update_of_ne heq] at hrole'
    obtain ⟨expiry', hvalid, hlookup⟩ := h other role' hother hrole'
    exact ⟨expiry', hvalid, (AList.lookup_insert_ne heq).trans hlookup⟩

/-- The map may note a lease for which there is no role. -/
theorem Tracked.note (h : Tracked initial s) {username : String} (hunused : s.db username = none) (expiry : DateTime) :
    Tracked initial { s with issued := s.issued.insert username expiry } := by
  intro other role hother hrole
  obtain ⟨expiry', hvalid, hlookup⟩ := h other role hother hrole
  refine ⟨expiry', hvalid, ?_⟩
  rw [AList.lookup_insert_ne]
  · exact hlookup
  · rintro rfl
    rw [hunused] at hrole
    cases hrole

/-- A role that is not noted has to be noted already. -/
theorem tracked_update_iff (h : Tracked initial s) {username : String} (hforeign : initial username = none) {role : Role}
    {expiry : DateTime} (hrole : role.validUntil = some expiry) :
    Tracked initial ⟨Function.update s.db username (some role), s.issued⟩ ↔ s.issued.lookup username = some expiry := by
  constructor
  · intro h'
    obtain ⟨expiry', hvalid, hlookup⟩ := h' username role hforeign (Function.update_self ..)
    rw [hrole, Option.some_inj] at hvalid
    subst hvalid
    exact hlookup
  · intro hlookup other role' hother hrole'
    dsimp only at hrole' ⊢
    by_cases heq : other = username
    · subst heq
      rw [Function.update_self, Option.some_inj] at hrole'
      subst hrole'
      exact ⟨expiry, hrole, hlookup⟩
    · rw [Function.update_of_ne heq] at hrole'
      exact h other role' hother hrole'

theorem Grounded.update (h : Grounded initial s) (username : String) (role : Role) :
    Grounded initial ⟨Function.update s.db username (some role), s.issued⟩ := by
  refine ⟨fun other hother => ?_, h.foreign⟩
  dsimp only at hother
  by_cases heq : other = username
  · subst heq
    rw [Function.update_self] at hother
    cases hother
  · rw [Function.update_of_ne heq] at hother
    exact h.kept other hother

theorem Grounded.note (h : Grounded initial s) {username : String} (hforeign : initial username = none)
    (expiry : DateTime) : Grounded initial { s with issued := s.issued.insert username expiry } := by
  refine ⟨h.kept, fun other hother => ?_⟩
  rcases (AList.mem_insert _).mp hother with rfl | hother
  · exact hforeign
  · exact h.foreign other hother

theorem Grounded.issue (h : Grounded initial s) :
    Grounded initial (issueCredentials env server d request s).2 := by
  have houtcome := issues_issueCredentials env server d request s
  generalize (issueCredentials env server d request s).2 = t at houtcome ⊢
  cases houtcome with
  | nothing hnot => exact h
  | rolledBack hnot hunused => exact h.note (h.kept _ hunused) _
  | lost hcommits hurl => exact h.update _ _
  | leased hcommits hurl =>
      exact (h.update (generateUsername request.audience d.suffix) _).note (h.kept _ hcommits.unused) _

/-- An issuance loses no lease exactly if the URL takes the name of a role that it commits. -/
theorem tracked_issue_iff (hground : Grounded initial s) (htracked : Tracked initial s) :
    Tracked initial (issueCredentials env server d request s).2 ↔
      ∀ expiresAt, Commits env server d request s expiresAt → UrlTakes env d request ∨
        s.issued.lookup (generateUsername request.audience d.suffix) = some expiresAt := by
  have houtcome := issues_issueCredentials env server d request s
  generalize (issueCredentials env server d request s).2 = t at houtcome ⊢
  cases houtcome with
  | nothing hnot => exact iff_of_true htracked fun e he => absurd he (hnot e)
  | rolledBack hnot hunused => exact iff_of_true (htracked.note hunused _) fun e he => absurd he (hnot e)
  | leased hcommits hurl => exact iff_of_true (htracked.insert rfl) fun _ _ => Or.inl hurl
  | lost hcommits hurl =>
      have hforeign : initial (generateUsername request.audience d.suffix) = none := hground.kept _ hcommits.unused
      refine (tracked_update_iff htracked hforeign rfl).trans ?_
      constructor
      · intro hlookup e he
        rw [he.expiresAt_unique hcommits]
        exact Or.inr hlookup
      · intro hsafe
        exact (hsafe _ hcommits).resolve_left hurl

/-! ### Cleaning up -/

theorem dropExpired_apply (db : Roles) (username other : String) : dropExpired env server db username other =
    if other = username ∧ server.refuses ((Statement.dropRole username).sql env.chrono) =
      false then none else db other := by
  unfold dropExpired Server.exec
  by_cases hrefuses : server.refuses ((Statement.dropRole username).sql env.chrono) = true
  · simp [hrefuses]
  · by_cases heq : other = username
    · simp [hrefuses, heq, Statement.run]
    · simp [hrefuses, heq, Statement.run]

/-- After the loop, the expired roles whose `DROP ROLE` has succeeded are gone. -/
theorem foldl_dropExpired_apply (expired : List String) (db : Roles) (username : String) :
    expired.foldl (dropExpired env server) db username =
      if username ∈ expired ∧ server.refuses ((Statement.dropRole username).sql env.chrono) = false then none
      else db username := by
  induction expired generalizing db with
  | nil => simp
  | cons first expired ih =>
      rw [List.foldl_cons, ih, dropExpired_apply]
      by_cases heq : username = first
      · subst heq
        cases server.refuses ((Statement.dropRole username).sql env.chrono) with
        | false => simp
        | true => simp
      · simp [heq]

theorem lookup_foldl_erase (expired : List String) (issued : AList fun _ : String => DateTime) (username : String) :
    (expired.foldl (fun issued username => issued.erase username) issued).lookup username =
      if username ∈ expired then none else issued.lookup username := by
  induction expired generalizing issued with
  | nil => simp
  | cons first expired ih =>
      rw [List.foldl_cons, ih]
      by_cases heq : username = first
      · subst heq
        simp
      · simp [heq, AList.lookup_erase_ne heq]

theorem mem_of_mem_expiredUsers {now : DateTime} {entries : List (Sigma fun _ : String => DateTime)}
    {expired : List String} (h : expiredUsers now entries = some expired) {username : String} (hmem : username ∈ expired) :
    username ∈ entries.map Sigma.fst := by
  induction entries generalizing expired with
  | nil =>
      cases h
      cases hmem
  | cons entry entries ih =>
      obtain ⟨name, expiry⟩ := entry
      simp only [expiredUsers, Option.bind_eq_bind, Option.bind_eq_some_iff, Option.pure_def, Option.some_inj] at h
      obtain ⟨grace, -, later, hlater, rfl⟩ := h
      rw [List.map_cons, List.mem_cons]
      split_ifs at hmem
      · rcases List.mem_cons.mp hmem with heq | hmem
        · exact Or.inl heq
        · exact Or.inr (ih hlater hmem)
      · exact Or.inr (ih hlater hmem)

theorem mem_expiredUsers {now grace expiry : DateTime} {entries : List (Sigma fun _ : String => DateTime)}
    {expired : List String} (h : expiredUsers now entries = some expired) {username : String}
    (hmem : ⟨username, expiry⟩ ∈ entries) (hgrace : expiry.addSeconds 60 = some grace) (hlt : grace < now) :
    username ∈ expired := by
  induction entries generalizing expired with
  | nil => cases hmem
  | cons entry entries ih =>
      simp only [expiredUsers, Option.bind_eq_bind, Option.bind_eq_some_iff, Option.pure_def, Option.some_inj] at h
      obtain ⟨grace', hgrace', later, hlater, rfl⟩ := h
      rcases List.mem_cons.mp hmem with rfl | hmem
      · rw [hgrace, Option.some_inj] at hgrace'
        rw [← hgrace', if_pos hlt]
        exact List.mem_cons_self
      · split_ifs
        · exact List.mem_cons_of_mem _ (ih hlater hmem)
        · exact ih hlater hmem

/-- What the cleanup leaves behind: nothing changes if a time is out of range. -/
theorem cleanup_snd_of_none {now : DateTime} (h : expiredUsers now s.issued.entries = none) :
    (cleanupExpiredLeases env server now s).2 = s := by
  rw [cleanupExpiredLeases, Eff.bind_of_ok (Eff.read_apply s), h]
  rfl

theorem cleanup_snd_of_some {now : DateTime} {expired : List String}
    (h : expiredUsers now s.issued.entries = some expired) : (cleanupExpiredLeases env server now s).2 =
      ⟨expired.foldl (dropExpired env server) s.db,
        expired.foldl (fun issued username => issued.erase username) s.issued⟩ := by
  rw [cleanupExpiredLeases, Eff.bind_of_ok (Eff.read_apply s), h]
  cases expired with
  | nil => rfl
  | cons first expired => rfl

theorem Grounded.cleanup (h : Grounded initial s) (now : DateTime) :
    Grounded initial (cleanupExpiredLeases env server now s).2 := by
  cases hexpired : expiredUsers now s.issued.entries with
  | none =>
      rw [cleanup_snd_of_none hexpired]
      exact h
  | some expired =>
      rw [cleanup_snd_of_some hexpired]
      refine ⟨fun username hnone => ?_, fun username hmem => ?_⟩
      · dsimp only at hnone
        rw [foldl_dropExpired_apply] at hnone
        split_ifs at hnone with hdropped
        · exact h.foreign username (mem_of_mem_expiredUsers hexpired hdropped.1)
        · exact h.kept username hnone
      · have hlookup := AList.lookup_isSome.mpr hmem
        rw [lookup_foldl_erase] at hlookup
        split_ifs at hlookup
        · cases hlookup
        · exact h.foreign username (AList.lookup_isSome.mp hlookup)

/-- A lease that is noted is tried at the first cleanup more than a minute after its end, and gone if the server drops
it. -/
theorem Tracked.dropped (h : Tracked initial s) {username : String} {role : Role} (hforeign : initial username = none)
    (hrole : s.db username = some role) :
    ∃ expiry, role.validUntil = some expiry ∧ ∀ now grace expired, expiry.addSeconds 60 = some grace → grace < now →
      expiredUsers now s.issued.entries = some expired →
        username ∈ expired ∧ (server.refuses ((Statement.dropRole username).sql env.chrono) = false →
          (cleanupExpiredLeases env server now s).2.db username = none) := by
  obtain ⟨expiry, hvalid, hlookup⟩ := h username role hforeign hrole
  refine ⟨expiry, hvalid, fun now grace expired hgrace hlt hexpired => ?_⟩
  have hmem := mem_expiredUsers hexpired (AList.mem_lookup_iff.mp hlookup) hgrace hlt
  refine ⟨hmem, fun haccepted => ?_⟩
  rw [cleanup_snd_of_some hexpired]
  dsimp only
  rw [foldl_dropExpired_apply, if_pos ⟨hmem, haccepted⟩]

/-- A cleanup loses no lease exactly if it drops every expired role that exists. -/
theorem tracked_cleanup_iff (hground : Grounded initial s) (htracked : Tracked initial s) (now : DateTime) :
    Tracked initial (cleanupExpiredLeases env server now s).2 ↔
      ∀ expired, expiredUsers now s.issued.entries = some expired → ∀ username ∈ expired,
        server.refuses ((Statement.dropRole username).sql env.chrono) = true → s.db username = none := by
  cases hexpired : expiredUsers now s.issued.entries with
  | none =>
      rw [cleanup_snd_of_none hexpired]
      exact iff_of_true htracked fun _ h => by cases h
  | some expired =>
      rw [cleanup_snd_of_some hexpired]
      constructor
      · intro htracked' _ heq username hmem hrefuses
        cases heq
        by_contra hexists
        obtain ⟨role, hrole⟩ := Option.ne_none_iff_exists'.mp hexists
        have hforeign := hground.foreign username (mem_of_mem_expiredUsers hexpired hmem)
        have hstays : expired.foldl (dropExpired env server) s.db username = some role := by
          rw [foldl_dropExpired_apply, if_neg (by simp [hrefuses]), hrole]
        obtain ⟨expiry, -, hlookup⟩ := htracked' username role hforeign hstays
        dsimp only at hlookup
        rw [lookup_foldl_erase, if_pos hmem] at hlookup
        cases hlookup
      · intro hsafe username role hforeign hrole
        dsimp only at hrole ⊢
        rw [foldl_dropExpired_apply] at hrole
        by_cases hmem : username ∈ expired
        · by_cases hrefuses : server.refuses ((Statement.dropRole username).sql env.chrono) = true
          · rw [if_neg (by simp [hrefuses]), hsafe expired rfl username hmem hrefuses] at hrole
            cases hrole
          · rw [if_pos ⟨hmem, Bool.eq_false_iff.mpr hrefuses⟩] at hrole
            cases hrole
        · rw [if_neg fun h => hmem h.1] at hrole
          rw [lookup_foldl_erase, if_neg hmem]
          exact htracked username role hforeign hrole

end

/-- The operation loses no lease: what it commits fits the URL, and what it forgets it has dropped. -/
def LeaseOp.Safe (s : LeaseState) : LeaseOp → Prop
  | .issue server d request => ∀ expiresAt, Commits env server d request s expiresAt →
      UrlTakes env d request ∨ s.issued.lookup (generateUsername request.audience d.suffix) = some expiresAt
  | .cleanup server now => ∀ expired, expiredUsers now s.issued.entries = some expired → ∀ username ∈ expired,
      server.refuses ((Statement.dropRole username).sql env.chrono) = true → s.db username = none

variable {env} {initial : Roles} {s : LeaseState}

theorem tracked_exec_iff (hground : Grounded initial s) (htracked : Tracked initial s) (op : LeaseOp) :
    Tracked initial (op.exec env s) ↔ op.Safe env s := by
  cases op with
  | issue server d request => exact tracked_issue_iff hground htracked
  | cleanup server now => exact tracked_cleanup_iff hground htracked now

theorem Grounded.exec (h : Grounded initial s) (op : LeaseOp) : Grounded initial (op.exec env s) := by
  cases op with
  | issue server d request => exact h.issue
  | cleanup server now => exact h.cleanup now

theorem Grounded.after (h : Grounded initial s) (ops : List LeaseOp) : Grounded initial (s.after env ops) := by
  induction ops generalizing s with
  | nil => exact h
  | cons op ops ih => exact ih (h.exec op)

theorem grounded_start (initial : Roles) : Grounded initial ⟨initial, ∅⟩ :=
  ⟨fun _ h => h, fun username hmem => absurd hmem (AList.notMem_empty username)⟩

theorem tracked_start (initial : Roles) : Tracked initial ⟨initial, ∅⟩ := by
  intro username role hnone hrole
  dsimp only at hrole
  rw [hnone] at hrole
  cases hrole

theorem LeaseState.after_append_singleton (s : LeaseState) (ops : List LeaseOp) (op : LeaseOp) :
    s.after env (ops ++ [op]) = op.exec env (s.after env ops) := List.foldl_concat ..

/-- At every moment of a run every committed role that has not been dropped is in the map of issued leases, exactly if
each operation of the run is safe in the state in which it is carried out. -/
theorem leases_tracked_iff (env : LeaseEnv Url) (initial : Roles) (ops : List LeaseOp) :
    (∀ done, done <+: ops → Tracked initial (LeaseState.after env ⟨initial, ∅⟩ done)) ↔
      ∀ done op, done ++ [op] <+: ops → op.Safe env (LeaseState.after env ⟨initial, ∅⟩ done) := by
  have hstep : ∀ done op, Tracked initial (LeaseState.after env ⟨initial, ∅⟩ done) →
      (Tracked initial (LeaseState.after env ⟨initial, ∅⟩ (done ++ [op])) ↔
        op.Safe env (LeaseState.after env ⟨initial, ∅⟩ done)) := by
    intro done op htracked
    rw [LeaseState.after_append_singleton]
    exact tracked_exec_iff ((grounded_start initial).after done) htracked op
  constructor
  · intro htracked done op hprefix
    exact (hstep done op (htracked done ((List.prefix_append done [op]).trans hprefix))).mp (htracked _ hprefix)
  · intro hsafe done
    induction done using List.reverseRecOn with
    | nil => exact fun _ => tracked_start initial
    | append_singleton done op ih =>
        intro hprefix
        exact (hstep done op (ih ((List.prefix_append done [op]).trans hprefix))).mpr (hsafe done op hprefix)

/-- A lease is given out, and some time after its end the server drops the role. -/
def plainLeaseRun (server : Server) : List LeaseOp :=
  [.issue willingServer plainLeaseDraws plainLeaseRequest, .cleanup server ⟨961, 0⟩]

theorem leases_tracked_willing :
    Tracked readerOnly (LeaseState.after (plainLeaseEnv "localhost") ⟨readerOnly, ∅⟩ (plainLeaseRun willingServer)) := by
  refine (leases_tracked_iff (plainLeaseEnv "localhost") readerOnly (plainLeaseRun willingServer)).mpr ?_ _
    List.prefix_rfl
  intro done op hprefix
  have hmem : op ∈ plainLeaseRun willingServer := hprefix.subset (List.mem_append_right _ List.mem_cons_self)
  simp only [plainLeaseRun, List.mem_cons, List.not_mem_nil, or_false] at hmem
  rcases hmem with rfl | rfl
  · intro expiresAt _
    exact Or.inl ⟨_, rfl⟩
  · intro expired _ username _ hrefuses
    cases hrefuses

/-- A server that refuses to drop roles. -/
def holdingServer : Server := ⟨fun sql => sql = "DROP ROLE IF EXISTS \"app_0000000000000000\""⟩

theorem not_tracked_of_lookup_eq_none (username : String) (hforeign : initial username = none)
    (hrole : (s.db username).isSome = true) (hlookup : s.issued.lookup username = none) : ¬ Tracked initial s := by
  intro h
  obtain ⟨role, hrole⟩ := Option.isSome_iff_exists.mp hrole
  obtain ⟨expiry, -, hlookup'⟩ := h username role hforeign hrole
  rw [hlookup] at hlookup'
  cases hlookup'

/-- The role of a lease that could not be dropped is forgotten, and so is the role of a lease that was not given out
because the URL has no host. -/
theorem lease_forgotten :
    ¬ Tracked readerOnly (LeaseState.after (plainLeaseEnv "localhost") ⟨readerOnly, ∅⟩ (plainLeaseRun holdingServer)) ∧
    ¬ Tracked readerOnly (LeaseState.after (plainLeaseEnv "") ⟨readerOnly, ∅⟩
      [.issue willingServer plainLeaseDraws plainLeaseRequest]) := by
  constructor
  · apply not_tracked_of_lookup_eq_none plainCredential.username
    · decide +kernel
    · decide +kernel
    · decide +kernel
  · apply not_tracked_of_lookup_eq_none plainCredential.username
    · decide +kernel
    · decide +kernel
    · decide +kernel

end SecretBroker.Postgres
