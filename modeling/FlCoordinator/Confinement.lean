import FlCoordinator.Authority

/-!
# What permissions confine

What no caller has the permission for does not happen in any run, and the buttons of the console are
offered to those who have it.
-/

namespace FlCoordinator

open Lib Handler

/-! ### What nobody is permitted to do -/

/-- What an org was enrolled with. -/
def OrgRow.identity (r : OrgRow) : OrgRow :=
  { r.core with
    status := .active
    leaveRequestedAt := none
    leaveAttestation := none
    leaveSignature := none
    removalAttestation := none
    removalSignature := none }

/-- No enrollment token is left to redeem. -/
def TokensSpent (s : Store) : Prop := ∀ jti row, s.tokens.get? jti = some row → row.consumed = true

/-- The world `t` comes from `w` without the permissions in `W`. -/
structure Confined (W : String → Prop) (w t : World) : Prop where
  tokens : W "fl_enroll_org" → TokensSpent w.store → TokensSpent t.store
  identities : W "fl_enroll_org" → TokensSpent w.store → ∀ x,
    (t.store.getOrg x).map OrgRow.identity = (w.store.getOrg x).map OrgRow.identity
  active : W "fl_enroll_org" → W "fl_unblock_org" → TokensSpent w.store → ∀ x row,
    t.store.getOrg x = some row → row.status = .active →
      ∃ old, w.store.getOrg x = some old ∧ old.status = .active
  blocked : W "fl_block_org" → ∀ x row, t.store.getOrg x = some row → row.status = .blocked →
    ∃ old, w.store.getOrg x = some old ∧ old.status = .blocked
  revoked : W "fl_revoke_org" → ∀ x row, t.store.getOrg x = some row → row.status = .revoked →
    ∃ old, w.store.getOrg x = some old ∧ old.status = .revoked
  crl : W "fl_revoke_org" → t.crl = w.crl
  rounds : W "fl_start_round" → ∀ k, w.store.getRound k = none → t.store.getRound k = none
  results : W "fl_aggregate_round" → ∀ k r, w.store.getRound k = some r →
    t.store.getRound k = some r
  versions : W "fl_aggregate_round" → ∀ j, t.store.getGlobalModel j = w.store.getGlobalModel j

section Confinement

variable {W : String → Prop} {app : App} {s : Sys} {e : Event} {w t u : World}

lemma Confined.of_same (hstore : t.store = w.store) (hcrl : t.crl = w.crl) : Confined W w t where
  tokens _ h := by rwa [hstore]
  identities _ _ x := by rw [hstore]
  active _ _ _ x row hrow hst := ⟨row, by rwa [← hstore], hst⟩
  blocked _ x row hrow hst := ⟨row, by rwa [← hstore], hst⟩
  revoked _ x row hrow hst := ⟨row, by rwa [← hstore], hst⟩
  crl _ := hcrl
  rounds _ k h := by rwa [hstore]
  results _ k r h := by rwa [hstore]
  versions _ j := by rw [hstore]

lemma Confined.trans (h : Confined W w t) (h' : Confined W t u) : Confined W w u where
  tokens hW hspent := h'.tokens hW (h.tokens hW hspent)
  identities hW hspent x :=
    (h'.identities hW (h.tokens hW hspent) x).trans (h.identities hW hspent x)
  active hW hW' hspent x row hrow hst := by
    obtain ⟨mid, hmid, hst'⟩ := h'.active hW hW' (h.tokens hW hspent) x row hrow hst
    exact h.active hW hW' hspent x mid hmid hst'
  blocked hW x row hrow hst := by
    obtain ⟨mid, hmid, hst'⟩ := h'.blocked hW x row hrow hst
    exact h.blocked hW x mid hmid hst'
  revoked hW x row hrow hst := by
    obtain ⟨mid, hmid, hst'⟩ := h'.revoked hW x row hrow hst
    exact h.revoked hW x mid hmid hst'
  crl hW := (h'.crl hW).trans (h.crl hW)
  rounds hW k hk := h'.rounds hW k (h.rounds hW k hk)
  results hW k r hr := h'.results hW k r (h.results hW k r hr)
  versions hW j := (h'.versions hW j).trans (h.versions hW j)

lemma next_redeemToken_spent (hspent : TokensSpent s.world.store) (body : EnrollWithTokenRequest)
    (env : RedeemEnv) :
    (next app (.redeemToken body env) s).world.store = s.world.store := by
  have hno : ∀ jti mid, ¬Redeemed body.orgId env.consumedAt jti s.world.store mid := by
    intro jti mid h
    obtain ⟨row, -, hrow, -, hunused, -⟩ := Store.consumeEnrollToken_ok h.consumed
    rw [hspent _ _ hrow] at hunused
    cases hunused
  cases next_effect app s (.redeemToken body env) with
  | idle store crl => exact store
  | burnToken jti redeemed crl => exact absurd redeemed (hno _ _)
  | redeem jti mid redeemed done crl => exact absurd redeemed (hno _ _)

lemma permission_of_statusSet {x : String} {st : OrgStatus} (h : e.statusSet = some (x, st)) :
    st = .blocked ∧ e.permission = some "fl_block_org" ∨
      st = .active ∧ e.permission = some "fl_unblock_org" ∨
      st = .revoked ∧ e.permission = some "fl_revoke_org" := by
  unfold Event.statusSet at h
  split at h
  · split_ifs at h
    cases h
    exact Or.inl ⟨rfl, rfl⟩
  · split_ifs at h
    cases h
    exact Or.inr (Or.inl ⟨rfl, rfl⟩)
  · split_ifs at h
    cases h
    exact Or.inr (Or.inr ⟨rfl, rfl⟩)
  · cases h

lemma redeems_of_enrollment {en : String × String × EnrollEnv} (h : e.enrollment = some en)
    (hno : e.permission ≠ some "fl_enroll_org") : ∃ body env, e = .redeemToken body env := by
  cases e with
  | enroll user body env => exact absurd rfl hno
  | redeemToken body env => exact ⟨body, env, rfl⟩
  | _ => cases h

lemma identity_of_core {old new : Option OrgRow}
    (h : new.map OrgRow.core = old.map OrgRow.core) :
    new.map OrgRow.identity = old.map OrgRow.identity := by
  have hcore : ∀ r : OrgRow, r.identity = r.core.identity := fun _ => rfl
  have hmap : ∀ o : Option OrgRow, o.map OrgRow.identity =
      (o.map OrgRow.core).map OrgRow.identity := by
    intro o
    rw [Option.map_map]
    rfl
  rw [hmap, h, ← hmap]

lemma status_of_core {old new : Option OrgRow} {row : OrgRow}
    (h : new.map OrgRow.core = old.map OrgRow.core) (hrow : new = some row) :
    ∃ r, old = some r ∧ r.status = row.status := by
  subst hrow
  obtain ⟨r, hr, hcore⟩ := Option.map_eq_some_iff.mp h.symm
  have hst : r.core.status = row.core.status := congrArg OrgRow.status hcore
  exact ⟨r, hr, hst⟩

/-- Where the status of an org comes from that is not waiting for its removal. -/
lemma Effect.statusOrigin (h : Effect app s e t) {x : String} {row : OrgRow}
    (hrow : t.store.getOrg x = some row) (hst : row.status ≠ .leavePending) :
    (∃ old, s.world.store.getOrg x = some old ∧ old.status = row.status) ∨
      (row.status = .active ∧ ∃ en, e.enrollment = some en) ∨
      e.statusSet = some (x, row.status) ∨
      row.status = .revoked ∧ e.permission = some "fl_revoke_org" := by
  cases h.rowMove x with
  | kept core => exact Or.inl (status_of_core core hrow)
  | enrolled pem env en event free installs new =>
    rw [new] at hrow
    cases hrow
    exact Or.inr (Or.inl ⟨rfl, _, event⟩)
  | status old st event hold new =>
    rw [new] at hrow
    cases hrow
    exact Or.inr (Or.inr (Or.inl event))
  | left req body env old event hold asked evidence new =>
    rw [new] at hrow
    cases hrow
    exact absurd rfl hst
  | removed user env coordPriv old event key hold leaving new =>
    rw [new] at hrow
    cases hrow
    rw [event]
    exact Or.inr (Or.inr (Or.inr ⟨rfl, rfl⟩))

/-- The event needs no permission in `W`. -/
def Free (W : String → Prop) (e : Event) : Prop := ∀ p, W p → e.permission ≠ some p

section Free

variable (hfree : Free W e)

include hfree

lemma Free.tokensSpent (hp : W "fl_enroll_org") (hspent : TokensSpent s.world.store) :
    TokensSpent (next app e s).world.store := by
  intro jti row hrow
  cases (next_effect app s e).tokenMove jti with
  | kept same => exact hspent jti row (same.symm.trans hrow)
  | minted user body env row' event drawn org fresh new =>
    subst event
    exact absurd rfl (hfree _ hp)
  | consumed body env row' event old org unused live new =>
    rw [hspent _ _ old] at unused
    cases unused

lemma Free.getOrg (hp : W "fl_enroll_org") (hspent : TokensSpent s.world.store)
    {en : String × String × EnrollEnv} (h : e.enrollment = some en) (x : String) :
    (next app e s).world.store.getOrg x = s.world.store.getOrg x := by
  obtain ⟨body, env, rfl⟩ := redeems_of_enrollment h (hfree _ hp)
  rw [next_redeemToken_spent hspent]

lemma Free.identity (hp : W "fl_enroll_org") (hspent : TokensSpent s.world.store) (x : String) :
    ((next app e s).world.store.getOrg x).map OrgRow.identity =
      (s.world.store.getOrg x).map OrgRow.identity := by
  cases (next_effect app s e).rowMove x with
  | kept core => exact identity_of_core core
  | enrolled pem env en event free installs row =>
    rw [hfree.getOrg hp hspent event]
  | status row st event old new =>
    rw [old, new]
    rfl
  | left req body env row event old asked evidence new =>
    rw [old, new]
    rfl
  | removed user env coordPriv row event key old leaving new =>
    rw [old, new]
    rfl

lemma Free.active (hp : W "fl_enroll_org") (hp' : W "fl_unblock_org")
    (hspent : TokensSpent s.world.store) {x : String} {row : OrgRow}
    (hrow : (next app e s).world.store.getOrg x = some row) (hst : row.status = .active) :
    ∃ old, s.world.store.getOrg x = some old ∧ old.status = .active := by
  have hne : row.status ≠ .leavePending := by simp [hst]
  rcases (next_effect app s e).statusOrigin hrow hne with ⟨old, hold, h⟩ | ⟨-, en, hen⟩ | h | ⟨h, -⟩
  · exact ⟨old, hold, h.trans hst⟩
  · rw [hfree.getOrg hp hspent hen] at hrow
    exact ⟨row, hrow, hst⟩
  · rcases permission_of_statusSet h with ⟨h, -⟩ | ⟨-, h⟩ | ⟨h, -⟩
    · simp [hst] at h
    · exact absurd h (hfree _ hp')
    · simp [hst] at h
  · simp [hst] at h

lemma Free.blocked (hp : W "fl_block_org") {x : String} {row : OrgRow}
    (hrow : (next app e s).world.store.getOrg x = some row) (hst : row.status = .blocked) :
    ∃ old, s.world.store.getOrg x = some old ∧ old.status = .blocked := by
  have hne : row.status ≠ .leavePending := by simp [hst]
  rcases (next_effect app s e).statusOrigin hrow hne with ⟨old, hold, h⟩ | ⟨h, -⟩ | h | ⟨h, -⟩
  · exact ⟨old, hold, h.trans hst⟩
  · simp [hst] at h
  · rcases permission_of_statusSet h with ⟨-, h⟩ | ⟨h, -⟩ | ⟨h, -⟩
    · exact absurd h (hfree _ hp)
    · simp [hst] at h
    · simp [hst] at h
  · simp [hst] at h

lemma Free.revoked (hp : W "fl_revoke_org") {x : String} {row : OrgRow}
    (hrow : (next app e s).world.store.getOrg x = some row) (hst : row.status = .revoked) :
    ∃ old, s.world.store.getOrg x = some old ∧ old.status = .revoked := by
  have hne : row.status ≠ .leavePending := by simp [hst]
  rcases (next_effect app s e).statusOrigin hrow hne with ⟨old, hold, h⟩ | ⟨h, -⟩ | h | ⟨-, h⟩
  · exact ⟨old, hold, h.trans hst⟩
  · simp [hst] at h
  · rcases permission_of_statusSet h with ⟨h, -⟩ | ⟨h, -⟩ | ⟨-, h⟩
    · simp [hst] at h
    · simp [hst] at h
    · exact absurd h (hfree _ hp)
  · exact absurd h (hfree _ hp)

lemma Free.crl (hp : W "fl_revoke_org") : (next app e s).world.crl = s.world.crl := by
  apply (next_effect app s e).crl
  cases e with
  | revoke user x crl t => exact absurd rfl (hfree _ hp)
  | approveRemoval user x env => exact absurd rfl (hfree _ hp)
  | _ => rfl

lemma Free.noRound (hp : W "fl_start_round") {k : ℤ} (hk : s.world.store.getRound k = none) :
    (next app e s).world.store.getRound k = none := by
  cases (next_effect app s e).roundMove k with
  | kept same => exact same.trans hk
  | opened user body env username event fresh new =>
    subst event
    exact absurd rfl (hfree _ hp)
  | aggregated user env resp event done new =>
    have hfound := done.found
    rw [hk] at hfound
    cases hfound
  | completed user env event g staged new =>
    rw [new, hk]
    rfl

lemma Free.round (hp : W "fl_aggregate_round") {k : ℤ} {r : RoundRow}
    (hr : s.world.store.getRound k = some r) :
    (next app e s).world.store.getRound k = some r := by
  cases (next_effect app s e).roundMove k with
  | kept same => exact same.trans hr
  | opened user body env username event fresh new =>
    rw [fresh] at hr
    cases hr
  | aggregated user env resp event done new =>
    subst event
    exact absurd rfl (hfree _ hp)
  | completed user env event g staged new =>
    subst event
    exact absurd rfl (hfree _ hp)

lemma Free.version (hp : W "fl_aggregate_round") (j : ℤ) :
    (next app e s).world.store.getGlobalModel j = s.world.store.getGlobalModel j := by
  cases (next_effect app s e).lifecycle with
  | kept rounds versions => exact versions j
  | opened user body env username event rounds versions => exact versions j
  | staged user roundId env resp event done rounds versions =>
    subst event
    exact absurd rfl (hfree _ hp)
  | published user roundId env g username event staged soaked rounds versions =>
    subst event
    exact absurd rfl (hfree _ hp)
  | rolledBack user versionId env g username event found closed rounds versions =>
    subst event
    exact absurd rfl (hfree _ hp)

end Free

/-- One event that no operator with a permission in `W` asks for. -/
theorem confined_next (hW : ∀ p, W p → e.permission = some p → ¬Permitted e.user p) :
    Confined W s.world (next app e s).world := by
  by_cases hbarred : ∃ p, W p ∧ e.permission = some p
  · obtain ⟨p, hp, he⟩ := hbarred
    rw [next_unpermitted he (hW p hp he)]
    exact .of_same rfl rfl
  · have hfree : Free W e := fun p hp he => hbarred ⟨p, hp, he⟩
    constructor
    · exact hfree.tokensSpent
    · exact hfree.identity
    · exact fun hp hp' hspent x row => hfree.active hp hp' hspent
    · exact fun hp x row => hfree.blocked hp
    · exact fun hp x row => hfree.revoked hp
    · exact hfree.crl
    · exact fun hp k => hfree.noRound hp
    · exact fun hp k r => hfree.round hp
    · exact hfree.version

/-- No request of the run comes with the credentials of an operator who has the permission that its
endpoint asks for. -/
def Withheld (c : Console) (cs : List ConsoleEvent) (p : String) : Prop :=
  ∀ creds env e, .request creds env e ∈ cs → e.permission = some p → ∀ user,
    getFlUser c.auth c.app.host c.jwt creds env = .ok (some user) → p ∉ user.role.permissions

lemma confined_console (c : Console) {e : ConsoleEvent} (hW : ∀ p, W p → Withheld c [e] p) :
    Confined W s.world (c.next e s).world := by
  cases e with
  | login username apiKey env =>
    have hsame := c.login_sameData username apiKey env s.world
    exact .of_same hsame.store hsame.crl
  | logout flSession env =>
    have hsame := c.logout_sameData flSession env s.world
    exact .of_same hsame.store hsame.crl
  | request creds env e =>
    cases hres : c.resolve creds env e with
    | none =>
      rw [next_request_none hres]
      exact .of_same rfl rfl
    | some e' =>
      rw [next_request_some hres]
      apply confined_next
      rintro p hp he' ⟨u, hu, hrole⟩
      cases hperm : e.permission with
      | none =>
        simp only [Console.resolve, hperm] at hres
        cases hres
        rw [hperm] at he'
        cases he'
      | some q =>
        rw [resolve_operator hperm] at hres
        obtain ⟨found, hfound, rfl⟩ := Option.map_eq_some_iff.mp hres
        rw [permission_withUser, hperm] at he'
        cases he'
        rw [user_withUser hperm] at hu
        obtain ⟨user, rfl, rfl⟩ := Option.map_eq_some_iff.mp hu
        have hget : getFlUser c.auth c.app.host c.jwt creds env = .ok (some user) := by
          cases hg : getFlUser c.auth c.app.host c.jwt creds env with
          | error d =>
            rw [hg] at hfound
            cases hfound
          | ok a =>
            rw [hg] at hfound
            exact congrArg Except.ok (Option.some.inj hfound)
        exact hW p hp creds env e List.mem_cons_self hperm user hget hrole

/-- What nobody uses a permission for does not happen, in any run from any state: without
`fl_enroll_org` and tokens to redeem nobody is enrolled or gets another key, and so on. -/
theorem permissions_confine (c : Console) (s : Sys) (cs : List ConsoleEvent) :
    Confined (Withheld c cs) s.world (Lib.run c.next s cs).world := by
  apply run_invariant c.next (I := fun t => Confined (Withheld c cs) s.world t.world)
    (A := fun _ e => ∀ p, Withheld c cs p → Withheld c [e] p)
  · intro t e h hW
    exact h.trans (confined_console c hW)
  · exact .of_same rfl rfl
  · intro p hp q hq creds env e hmem
    obtain ⟨pre, post, hcs, -⟩ := (mem_visits c.next).mp hp
    apply hq
    rw [hcs, List.mem_singleton.mp hmem]
    simp

end Confinement

/-! ### Buttons -/

/-- The request of a click on a button in the row of an org. -/
def Button.click (b : Button) (orgId : String) (crl : CrlEnv) (env : ApproveEnv) (t : Decimal) :
    Option Event :=
  match b with
  | .block => some (.block none orgId t)
  | .unblock => some (.unblock none orgId t)
  | .approveRemoval => some (.approveRemoval none orgId env)
  | .revoke => some (.revoke none orgId crl t)
  | _ => none

/-- The status that the button stands for. -/
def Button.outcome : Button → Option OrgStatus
  | .block => some .blocked
  | .unblock => some .active
  | .approveRemoval => some .revoked
  | .revoke => some .revoked
  | _ => none

section Buttons

variable {c : Console} {token : Option String} {now : ℚ} {w : World} {page : Page}

lemma getItem_perms {ps : List String} {p : String} {f : String → Bool} (hp : p ∈ ps) :
    getItem p (ps.map fun q => (q, f q)) = some (f p) := by
  induction ps with
  | nil => cases hp
  | cons q ps ih =>
    rw [List.map_cons, getItem_cons]
    by_cases hq : q = p
    · rw [if_pos hq, hq]
    · rw [if_neg hq]
      exact ih ((List.mem_cons.mp hp).resolve_left (Ne.symm hq))

lemma renderPage_user {template active : String}
    (h : (renderPage c template active token now w).1 = .ok page) :
    ∃ user, currentUserFromCookie c token now = .ok (some user) ∧
      page.perms = perms user.toFLUser := by
  have hspec : (renderPage c template active token now).wp (fun r _ => ∀ page, r = .ok page →
      ∃ user, currentUserFromCookie c token now = .ok (some user) ∧
        page.perms = perms user.toFLUser) w := by
    unfold renderPage requireUser
    apply wp_call_bind (P := fun r _ => ∀ u, r = .ok u → ∃ user : RosterUser,
      currentUserFromCookie c token now = .ok (some user) ∧ u = user.toFLUser)
    · apply wp_attempt_bind (fun _ _ => nofun)
      intro found hfound
      apply wp_orRaise_bind (fun _ => nofun)
      rintro user rfl u hu
      cases hu
      exact ⟨user, hfound, rfl⟩
    · intro e t _ page hpage
      cases hpage
    · intro u t hu page hpage
      cases hpage
      obtain ⟨user, huser, rfl⟩ := hu u rfl
      exact ⟨user, huser, rfl⟩
  exact hspec page h

lemma flag_perms {user : FLUser} (h : page.perms = perms user) {p : String}
    (hp : p ∈ pagePermissions) : page.flag p = true ↔ p ∈ user.role.permissions := by
  unfold Page.flag
  rw [h, perms, getItem_perms hp]
  exact decide_eq_true_iff

lemma getFlUser_session {env : AuthEnv} {user : RosterUser}
    (h : currentUserFromCookie c token env.sessionAt = .ok (some user)) :
    getFlUser c.auth c.app.host c.jwt { flSession := token } env = .ok (some user) := by
  have hsession : userOfToken c.auth c.jwt token env.sessionAt = .ok (some user) := h
  unfold getFlUser
  rw [hsession]
  rfl

lemma offered_of_mem {user : FLUser} (h : page.perms = perms user) {st : OrgStatus} {b : Button}
    (hb : b ∈ orgButtons page st) :
    b = .block ∧ "fl_block_org" ∈ user.role.permissions ∨
      b = .unblock ∧ "fl_unblock_org" ∈ user.role.permissions ∨
      (b = .approveRemoval ∧ st = .leavePending) ∧ "fl_revoke_org" ∈ user.role.permissions ∨
      b = .revoke ∧ "fl_revoke_org" ∈ user.role.permissions := by
  have hblock := flag_perms h (p := "fl_block_org") (by simp [pagePermissions])
  have hrevoke := flag_perms h (p := "fl_revoke_org") (by simp [pagePermissions])
  -- the button to unblock asks for the permission to block
  have hunblock : "fl_block_org" ∈ user.role.permissions →
      "fl_unblock_org" ∈ user.role.permissions := by
    cases user.role <;> simp [FLRole.permissions]
  unfold orgButtons at hb
  rcases List.mem_append.mp hb with hb | hb
  · split_ifs at hb with hflag hactive hblocked hblocked
    all_goals simp at hb
    · simp [hactive] at hblocked
    · exact Or.inl ⟨hb, hblock.mp hflag⟩
    · exact Or.inr (Or.inl ⟨hb, hunblock (hblock.mp hflag)⟩)
  · split_ifs at hb with hflag hleaving hopen hopen
    all_goals simp at hb
    · rcases hb with hb | hb
      · exact Or.inr (Or.inr (Or.inl ⟨⟨hb, hleaving⟩, hrevoke.mp hflag⟩))
      · exact Or.inr (Or.inr (Or.inr ⟨hb, hrevoke.mp hflag⟩))
    · exact Or.inr (Or.inr (Or.inl ⟨⟨hb, hleaving⟩, hrevoke.mp hflag⟩))
    · exact Or.inr (Or.inr (Or.inr ⟨hb, hrevoke.mp hflag⟩))

lemma status_of_statusSet {permission : String} {st : OrgStatus} {user : Option FLUser} {x : String}
    {w t : World} (h : StatusSet permission st user x w t) :
    ∃ row, t.store.getOrg x = some row ∧ row.status = st := by
  obtain ⟨old, hold⟩ := Option.isSome_iff_exists.mp h.known
  refine ⟨{ old with status := st }, ?_, rfl⟩
  rw [h.store, Store.getOrg_setOrgStatus, if_pos rfl, hold]
  rfl

lemma approveRemoval_of_pending {app : App} {user : FLUser} {x : String} {row : OrgRow}
    {env : ApproveEnv} (hrole : "fl_revoke_org" ∈ user.role.permissions)
    (hrow : w.store.getOrg x = some row) (hst : row.status = .leavePending)
    (hkey : app.coordPriv.isSome) :
    ∃ new, (approveRemoval app (some user) x env w).2.store.getOrg x = some new ∧
      new.status = .revoked := by
  obtain ⟨coordPriv, hpriv⟩ := Option.isSome_iff_exists.mp hkey
  change (approveRemoval app (some user) x env).wp
    (fun _ t => ∃ new, t.store.getOrg x = some new ∧ new.status = .revoked) w
  unfold approveRemoval
  apply wp_flRequire_bind (fun hno => absurd ⟨user, rfl, hrole⟩ hno)
  intro u _ _
  apply wp_query_bind
  apply wp_orRaise_bind_of hrow
  apply wp_ensure_bind_of hst
  apply wp_orRaise_bind_of hpriv
  apply wp_execute_bind
  apply wp_execute_bind
  apply wp_call_bind (regenerateCrl_spec env.crl)
  · intro d t h
    obtain ⟨b, hb⟩ := h.1
    cases hb
  · intro b t h
    apply wp_log_bind
    have hget := getOrg_removedStore app coordPriv w.store x env x
    rw [if_pos rfl, hrow] at hget
    have hstore : t.store = removedStore app coordPriv x env w.store := h.2.store
    rw [← hstore] at hget
    exact ⟨_, hget, rfl⟩

lemma approveRemoval_of_noKey {app : App} {user : Option FLUser} {x : String} {env : ApproveEnv}
    (hkey : app.coordPriv = none) : (approveRemoval app user x env w).2 = w := by
  rcases approveRemoval_spec app w user x env with ⟨-, hw⟩ | ⟨-, h⟩
  · exact hw
  · obtain ⟨coordPriv, hpriv, -⟩ := h.store
    rw [hkey] at hpriv
    cases hpriv

/-- A click on a button that the page of an operator offers in the row of an org, in any state where
the row still has this status and the session is still the operator's, has the outcome it says. Only
the approval of a removal takes more: without the coordinator's key it changes nothing. -/
theorem orgButtons_work
    (hpage : (orgsPage c token now w).1 = .ok page) {env : AuthEnv}
    (hlive : currentUserFromCookie c token env.sessionAt = currentUserFromCookie c token now)
    {s : Sys} {row : OrgRow} (hrow : s.world.store.getOrg row.orgId = some row) {b : Button}
    (hb : b ∈ orgButtons page row.status) {crl : CrlEnv} {approve : ApproveEnv} {t : Decimal}
    {e : Event} (hclick : b.click row.orgId crl approve t = some e) :
    if b = .approveRemoval ∧ c.app.coordPriv = none then
      c.next (.request { flSession := token } env e) s = s
    else ∃ new, (c.next (.request { flSession := token } env e) s).world.store.getOrg row.orgId =
      some new ∧ b.outcome = some new.status := by
  obtain ⟨user, huser, hperms⟩ := renderPage_user hpage
  have hget : getFlUser c.auth c.app.host c.jwt { flSession := token } env = .ok (some user) :=
    getFlUser_session (hlive.trans huser)
  have hmove : ∀ {p}, e.permission = some p →
      c.next (.request { flSession := token } env e) s =
        next c.app (e.withUser (some user.toFLUser)) s := by
    intro p hp
    apply next_request_some
    rw [resolve_operator hp, hget]
    rfl
  have hknown : (s.world.store.getOrg row.orgId).isSome := by rw [hrow]; rfl
  rcases offered_of_mem hperms hb with ⟨rfl, hrole⟩ | ⟨rfl, hrole⟩ | ⟨⟨rfl, hst⟩, hrole⟩ | ⟨rfl, hrole⟩
  · cases hclick
    rw [if_neg (fun h => by cases h.1), hmove rfl]
    rcases blockOrg_spec c.app s.world (some user.toFLUser) row.orgId t with ⟨-, -, hno⟩ | ⟨-, h, -⟩
    · exact absurd ⟨⟨_, rfl, hrole⟩, hknown⟩ hno
    · obtain ⟨new, hnew, hst⟩ := status_of_statusSet h
      exact ⟨new, hnew, congrArg some hst.symm⟩
  · cases hclick
    rw [if_neg (fun h => by cases h.1), hmove rfl]
    rcases unblockOrg_spec c.app s.world (some user.toFLUser) row.orgId t with ⟨-, -, hno⟩ | ⟨-, h, -⟩
    · exact absurd ⟨⟨_, rfl, hrole⟩, hknown⟩ hno
    · obtain ⟨new, hnew, hst⟩ := status_of_statusSet h
      exact ⟨new, hnew, congrArg some hst.symm⟩
  · cases hclick
    rw [hmove rfl]
    by_cases hkey : c.app.coordPriv = none
    · rw [if_pos ⟨rfl, hkey⟩]
      exact congrArg (fun w => { s with world := w }) (approveRemoval_of_noKey hkey)
    · rw [if_neg (fun h => hkey h.2)]
      obtain ⟨new, hnew, hst'⟩ := approveRemoval_of_pending hrole hrow hst
        (Option.ne_none_iff_isSome.mp hkey)
      exact ⟨new, hnew, congrArg some hst'.symm⟩
  · cases hclick
    rw [if_neg (fun h => by cases h.1), hmove rfl]
    rcases revokeOrg_spec c.app s.world crl (some user.toFLUser) row.orgId t with
      ⟨-, -, hno⟩ | ⟨-, h, -⟩
    · exact absurd ⟨⟨_, rfl, hrole⟩, hknown⟩ hno
    · obtain ⟨new, hnew, hst⟩ := status_of_statusSet h
      exact ⟨new, hnew, congrArg some hst.symm⟩

/-- What `orgs.html` is rendered with for a user. -/
def Sample.orgsPageOf (user : FLUser) : Page where
  template := "orgs.html"
  username := user.username
  role := user.role.value
  perms := perms user
  active := "orgs"

/-- The operator blocks an org that was just enrolled. -/
theorem orgButtons_work_block :
    ∃ row new, (after Sample.app [Sample.enroll "x" [1, 1] 5]).world.store.getOrg "x" = some row ∧
      (Sample.console.next (.request { flSession := some (Sample.cookie Sample.operator).value }
        ⟨20, 20⟩ (.block none row.orgId Sample.zero))
        (after Sample.app [Sample.enroll "x" [1, 1] 5])).world.store.getOrg row.orgId = some new ∧
      some OrgStatus.blocked = some new.status := by
  have hpage : (orgsPage Sample.console (some (Sample.cookie Sample.operator).value) 20
      (init Sample.app).world).1 = .ok (Sample.orgsPageOf Sample.operator) := by decide +kernel
  have hst : ((after Sample.app [Sample.enroll "x" [1, 1] 5]).world.store.getOrg "x").map
      (fun r => (r.orgId, r.status)) = some ("x", .active) := by decide +kernel
  obtain ⟨row, hrow, hfields⟩ := Option.map_eq_some_iff.mp hst
  obtain ⟨hid, hactive⟩ := Prod.mk.inj hfields
  have hb : Button.block ∈ orgButtons (Sample.orgsPageOf Sample.operator) row.status := by
    rw [hactive]
    decide
  have hlive : currentUserFromCookie Sample.console (some (Sample.cookie Sample.operator).value)
      (⟨20, 20⟩ : AuthEnv).sessionAt = currentUserFromCookie Sample.console
        (some (Sample.cookie Sample.operator).value) 20 := rfl
  have hclick : Button.block.click row.orgId ⟨0, true⟩ ⟨"", ⟨0, true⟩, Sample.zero⟩ Sample.zero =
      some (.block none row.orgId Sample.zero) := rfl
  have hfound : (after Sample.app [Sample.enroll "x" [1, 1] 5]).world.store.getOrg row.orgId =
      some row := by rw [hid, hrow]
  obtain ⟨new, hnew, hout⟩ := orgButtons_work hpage hlive hfound hb hclick
  exact ⟨row, new, hrow, hnew, hout⟩

end Buttons

end FlCoordinator
