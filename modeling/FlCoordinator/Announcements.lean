import FlCoordinator.Client
import FlCoordinator.Discovery

/-!
# What the orgs see of a round

The signed announcement that `start_round` answers is the one that every org gets in every later
state, and it agrees with the list of open rounds. No two announcements are about one round.
-/

namespace FlCoordinator

open Lib Handler

section Announcements

variable {app : App} {s : Sys}

/-- A round as it was opened. -/
def RoundRow.opened (r : RoundRow) : RoundRow :=
  { r with
    completedAt := none
    status := .running
    numClientsResponded := 0
    numClientsAccepted := 0
    numClientsRejected := 0
    globalModelHash := none
    evalMetrics := none }

lemma opened_next (e : Event) {k : ℤ} {r : RoundRow} (h : s.world.store.getRound k = some r) :
    ∃ r', (next app e s).world.store.getRound k = some r' ∧ r'.opened = r.opened := by
  cases (next_effect app s e).roundMove k with
  | kept same => exact ⟨r, same.trans h, rfl⟩
  | opened user body env username event fresh new =>
    rw [fresh] at h
    cases h
  | aggregated user env resp event done new =>
    have hrow := done.found
    rw [h] at hrow
    obtain rfl := Option.some.inj hrow
    exact ⟨_, new, rfl⟩
  | completed user env event g staged new =>
    rw [h] at new
    exact ⟨_, new, rfl⟩

lemma opened_run (es : List Event) {k : ℤ} {r : RoundRow}
    (h : s.world.store.getRound k = some r) :
    ∃ r', (Lib.run (next app) s es).world.store.getRound k = some r' ∧ r'.opened = r.opened :=
  run_invariant_all (next app)
    (I := fun t => ∃ r', t.world.store.getRound k = some r' ∧ r'.opened = r.opened)
    (by
      rintro t e ⟨r', hr', hkept⟩
      obtain ⟨r'', hr'', hkept'⟩ := opened_next e hr'
      exact ⟨r'', hr'', hkept'.trans hkept⟩) ⟨r, h, rfl⟩ es

lemma startRound_ok {user : Option FLUser} {body : StartRoundRequest} {env : StartRoundEnv}
    {w : World} {resp : StartRoundResponse} (h : (startRound app user body env w).1 = .ok resp) :
    ∃ username n, w.store.getRound resp.roundId = none ∧
      (startRound app user body env w).2.store.getRound resp.roundId =
        some (Store.openedRow username (body.params app.observationHours) n env.startedAt
          resp.roundAnnouncement resp.roundId) ∧
      resp.roundAnnouncement = announcementOf app body env resp.invitedOrgs resp.roundId ∧
      resp.intakeUntil = env.startedAt +
        (body.params app.observationHours).observationHours.toRat * 3600 := by
  have hspec : (startRound app user body env).wp (fun r t => ∀ resp, r = .ok resp →
      ∃ username n, w.store.getRound resp.roundId = none ∧
        t.store.getRound resp.roundId =
          some (Store.openedRow username (body.params app.observationHours) n env.startedAt
            resp.roundAnnouncement resp.roundId) ∧
        resp.roundAnnouncement = announcementOf app body env resp.invitedOrgs resp.roundId ∧
        resp.intakeUntil = env.startedAt +
          (body.params app.observationHours).observationHours.toRat * 3600) w := by
    unfold startRound
    apply wp_flRequire_bind (fun _ e resp h => by cases h)
    intro u _ _
    apply wp_query_bind
    apply wp_ensure_bind (fun _ resp h => by cases h)
    intro _
    refine wp_insert_bind (wp_execute_bind (wp_log_bind ?_))
    intro resp hresp
    obtain rfl := Except.ok.inj hresp
    obtain ⟨rounds, hopen, -, hget⟩ := Store.openRound_eq w.store env.startedAt u.username
      (body.params app.observationHours) (invitedOrgs w.store body.targetOrgIds).length
      (announcementOf app body env ((invitedOrgs w.store body.targetOrgIds).map (·.orgId))
        (w.store.rounds.seq + 1))
    refine ⟨u.username, (invitedOrgs w.store body.targetOrgIds).length, AutoTable.get?_seq_succ,
      ?_, rfl, rfl⟩
    change (w.store.openRound u.username (body.params app.observationHours)
      (invitedOrgs w.store body.targetOrgIds).length env.startedAt
      (announcementOf app body env ((invitedOrgs w.store body.targetOrgIds).map (·.orgId))
        (w.store.rounds.seq + 1))).getRound (w.store.rounds.seq + 1) = _
    rw [hopen]
    exact (hget _).trans (if_pos rfl)
  exact hspec resp h

lemma listActiveRounds_ok {req : Request} {authAt now : ℚ} {w : World} {rs : List ActiveRound}
    (h : (listActiveRoundsForOrg app req authAt now w).1 = .ok rs) :
    ∀ a ∈ rs, ∃ r, w.store.getRound a.roundId = some r ∧ a.epsilon = r.params.epsilon ∧
      a.numBoostRounds = r.params.numBoostRounds ∧
      a.intakeUntil = r.startedAt + r.params.observationHours.toRat * 3600 := by
  have hspec : (listActiveRoundsForOrg app req authAt now).wp (fun res _ => ∀ rs, res = .ok rs →
      ∀ a ∈ rs, ∃ r, w.store.getRound a.roundId = some r ∧ a.epsilon = r.params.epsilon ∧
        a.numBoostRounds = r.params.numBoostRounds ∧
        a.intakeUntil = r.startedAt + r.params.observationHours.toRat * 3600) w := by
    unfold listActiveRoundsForOrg
    apply wp_authenticate_bind (fun e rs h => by cases h)
    intro orgId _
    apply wp_query_bind
    intro rs hrs a ha
    obtain rfl := Except.ok.inj hrs
    obtain ⟨r, hr, rfl⟩ := List.mem_map.mp ha
    have hrow := (List.mem_filter.mp hr).1
    rw [Store.listRoundsByStatus, (List.perm_insertionSort _ _).mem_iff] at hrow
    exact ⟨r, Table.get?_of_mem (List.mem_filter.mp hrow).1, rfl, rfl, rfl⟩
  exact hspec rs h

/-- What the orgs get of a round in a state, once its start was answered with an announcement. -/
structure Announced (app : App) (resp : StartRoundResponse) (att : Bytes) (sig : String)
    (w : World) : Prop where
  served : ∀ req authAt x, getAuthenticatedOrgId app req w authAt = .ok x →
    (getRoundAnnouncement app req resp.roundId authAt w).1 = .ok (att, some sig)
  listed : ∀ req authAt now rs, (listActiveRoundsForOrg app req authAt now w).1 = .ok rs →
    ∀ a ∈ rs, a.roundId = resp.roundId →
      readField "epsilon" att = some (Json.ofDecimal a.epsilon) ∧
      readField "num_boost_rounds" att = some (.int a.numBoostRounds) ∧
      a.intakeUntil = resp.intakeUntil

/-- The announcement is about the round of the answer, and the coordinator signed it. -/
structure Vouched (app : App) (resp : StartRoundResponse) (att : Bytes) (sig : String) : Prop where
  type : readField "type" att = some (.str "fl.round_announce.v1")
  round : readField "round_id" att = some (.int resp.roundId)
  invited : readOrgs "invited_orgs" att = some (sortedIds resp.invitedOrgs)
  signed : ∃ coordPriv, app.coordPriv = some coordPriv ∧
    fromHex sig = some (sign app.host coordPriv att)

lemma readField_announcement (k : ℤ) (epsilon : Decimal) (numBoostRounds : ℤ) (ids : List String)
    (startsAt : String) {key : String} {v : Json}
    (hkey : Json.field? key [
      ("type", .str "fl.round_announce.v1"),
      ("round_id", .int k),
      ("epsilon", Json.ofDecimal epsilon),
      ("num_boost_rounds", .int numBoostRounds),
      ("invited_orgs", Json.ofStrs (sortedIds ids)),
      ("starts_at", .str startsAt)] = some v) (hv : Json.sortKeys v = v) :
    readField key (buildRoundAnnouncementAttestation k epsilon numBoostRounds ids startsAt) =
      some v := by
  rw [buildRoundAnnouncementAttestation, readField_canonicalJson, hkey]
  · exact congrArg some hv
  · exact Json.plain_obj.mpr ⟨by simp, by simp [Json.Plain, Json.ofDecimal, plain_ofStrs]⟩

lemma vouched_of_announced {body : StartRoundRequest} {env : StartRoundEnv}
    {resp : StartRoundResponse} {att : Bytes} {sig : String}
    (h : announcementOf app body env resp.invitedOrgs resp.roundId = some (att, sig)) :
    att = buildRoundAnnouncementAttestation resp.roundId body.epsilon body.numBoostRounds
      resp.invitedOrgs env.startsAt ∧ Vouched app resp att sig := by
  obtain ⟨coordPriv, hkey, hpair⟩ := Option.map_eq_some_iff.mp h
  obtain ⟨rfl, rfl⟩ := Prod.mk.inj hpair
  refine ⟨rfl, readField_announcement _ _ _ _ _ rfl rfl, readField_announcement _ _ _ _ _ rfl rfl,
    readOrgs_announcement _ _ _ _ _, coordPriv, hkey, fromHex_toHex _⟩

/-- The announcement that the start of a round answers is signed and about that round. In every
later state every org gets it, unchanged, and it agrees with the list of open rounds. No later start
announces the same round. -/
theorem announcements_agree {pre fs : List Event} {user : Option FLUser} {body : StartRoundRequest}
    {env : StartRoundEnv} {resp : StartRoundResponse} {att : Bytes} {sig : String}
    (hstart : (startRound app user body env (after app pre).world).1 = .ok resp)
    (hann : resp.roundAnnouncement = some (att, sig))
    (hfit : Host.bindInt resp.roundId = .ok resp.roundId) :
    Vouched app resp att sig ∧
      Announced app resp att sig (after app (pre ++ .startRound user body env :: fs)).world ∧
      ∀ q ∈ visits (next app) (after app (pre ++ [.startRound user body env])) fs,
        ∀ user' body' env' resp', q.2 = .startRound user' body' env' →
          (startRound app user' body' env' q.1.world).1 = .ok resp' →
          resp'.roundId ≠ resp.roundId := by
  obtain ⟨username, n, -, hrow, hmade, huntil⟩ := startRound_ok hstart
  obtain ⟨hatt, hvouched⟩ := vouched_of_announced (hmade.symm.trans hann)
  have hopen : (after app (pre ++ [.startRound user body env])).world.store.getRound resp.roundId =
      some (Store.openedRow username (body.params app.observationHours) n env.startedAt
        resp.roundAnnouncement resp.roundId) := by
    rw [after_concat]
    exact hrow
  refine ⟨hvouched, ?_, ?_⟩
  · obtain ⟨r, hr, hkept⟩ := opened_run fs hopen
    rw [← after_append, List.append_assoc, List.singleton_append] at hr
    have hparams : r.params = body.params app.observationHours :=
      (congrArg RoundRow.params hkept :)
    have hstarted : r.startedAt = env.startedAt := (congrArg RoundRow.startedAt hkept :)
    have hattestation : r.announceAttestation = resp.roundAnnouncement.map (·.1) :=
      (congrArg RoundRow.announceAttestation hkept :)
    have hsignature : r.announceSignature = resp.roundAnnouncement.map (·.2) :=
      (congrArg RoundRow.announceSignature hkept :)
    rw [hann] at hattestation hsignature
    constructor
    · intro req authAt x hauth
      have hspec : (getRoundAnnouncement app req resp.roundId authAt).wp
          (fun res _ => res = .ok (att, some sig))
          (after app (pre ++ .startRound user body env :: fs)).world := by
        unfold getRoundAnnouncement
        apply wp_authenticate_ok hauth
        apply wp_requireRound_ok hfit hr
        apply wp_orRaise_bind_of hattestation
        rw [hsignature]
        rfl
      exact hspec
    · intro req authAt now rs hlist a ha hid
      obtain ⟨r', hr', hepsilon, hboost, hintake⟩ := listActiveRounds_ok hlist a ha
      rw [hid, hr] at hr'
      obtain rfl := Option.some.inj hr'
      rw [hepsilon, hboost, hintake, huntil, hparams, hstarted, hatt]
      have hfields := fun key v hkey => @readField_announcement resp.roundId body.epsilon
        body.numBoostRounds resp.invitedOrgs env.startsAt key v hkey
      exact ⟨hfields _ _ rfl rfl, hfields _ _ rfl rfl, rfl⟩
  · rintro q hq user' body' env' resp' - hstart' hid
    obtain ⟨before, after', hfs, hstate⟩ := (mem_visits _).mp hq
    obtain ⟨-, -, hfresh, -⟩ := startRound_ok hstart'
    obtain ⟨r, hr, -⟩ := opened_run before hopen
    rw [hid, hstate, hr] at hfresh
    cases hfresh

/-- The clock of `Sample.start`. -/
def Sample.startEnv : StartRoundEnv where
  startedAt := 70
  startsAt := "1970-01-01T00:01:10+00:00"
  loggedAt := Sample.zero

/-- The first round is announced, and a second one started. -/
theorem announcements_agree_twoRounds : ∃ resp att sig,
    (startRound Sample.app (some Sample.admin) (Sample.roundBody none) Sample.startEnv
      (after Sample.app [Sample.enroll "x" [1] 11]).world).1 = .ok resp ∧
    Vouched Sample.app resp att sig ∧ Announced Sample.app resp att sig
      (after Sample.app
        [Sample.enroll "x" [1] 11, Sample.start none, Sample.start none]).world := by
  have hround : (startRound Sample.app (some Sample.admin) (Sample.roundBody none) Sample.startEnv
      (after Sample.app [Sample.enroll "x" [1] 11]).world).1.toOption.map
      (fun resp => (resp.roundAnnouncement.isSome, resp.roundId)) = some (true, 1) := by
    decide +kernel
  obtain ⟨resp, hresp, hpair⟩ := Option.map_eq_some_iff.mp hround
  obtain ⟨hsome, hid⟩ := Prod.mk.inj hpair
  obtain ⟨⟨att, sig⟩, hann⟩ := Option.isSome_iff_exists.mp hsome
  have hfit : Host.bindInt resp.roundId = .ok resp.roundId := by
    rw [hid]
    rfl
  have h := @announcements_agree Sample.app [Sample.enroll "x" [1] 11] [Sample.start none]
    _ _ _ _ _ _ (eq_ok_of_toOption hresp) hann hfit
  exact ⟨resp, att, sig, eq_ok_of_toOption hresp, h.1, h.2.1⟩

end Announcements

end FlCoordinator
