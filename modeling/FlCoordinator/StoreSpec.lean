import FlCoordinator.Store

/-!
# What the store operations do

One lemma per operation that can refuse, and the frame facts the handlers use.
-/

namespace FlCoordinator

open Lib

namespace Store

variable {s s' : Store} {orgId : String} {now : ℚ}

/-! ### Orgs -/

lemma enrollConflict_eq_none :
    s.enrollConflict orgId = none ↔ ∀ org, s.getOrg orgId = some org → org.status = .revoked := by
  unfold enrollConflict
  cases h : s.getOrg orgId with
  | none => simp
  | some org =>
    by_cases hr : org.status = .revoked <;> simp [hr]

lemma getOrg_insertOrg (e : Enrollment) (x : String) :
    (s.insertOrg e now).getOrg x = if e.orgId = x then some (e.row now) else s.getOrg x :=
  Table.get?_upsert s.orgs (e.row now) x

lemma getOrg_setOrgStatus (st : OrgStatus) (x : String) :
    (s.setOrgStatus orgId st).getOrg x =
      if orgId = x then (s.getOrg x).map (fun r => { r with status := st }) else s.getOrg x :=
  Table.get?_update s.orgs orgId x (fun r => { r with status := st }) fun _ => rfl

lemma mem_listRevokedSerials {n : ℤ} :
    n ∈ s.listRevokedSerials ↔
      ∃ row, s.getOrg row.orgId = some row ∧ row.status = .revoked ∧ row.certSerial = some n := by
  simp only [listRevokedSerials, List.mem_filterMap, List.mem_filter, decide_eq_true_eq]
  constructor
  · rintro ⟨row, ⟨hmem, hst⟩, hn⟩
    exact ⟨row, Table.get?_of_mem hmem, hst, hn⟩
  · rintro ⟨row, hget, hst, hn⟩
    exact ⟨row, ⟨Table.get?_mem hget, hst⟩, hn⟩

lemma getOrg_orgId {row : OrgRow} (h : s.getOrg orgId = some row) : row.orgId = orgId :=
  Table.get?_key h

lemma getOrgPublicKey_eq_some {pem : String} :
    s.getOrgPublicKey orgId = some pem ↔
      pem ≠ "" ∧ ∃ row, s.getOrg orgId = some row ∧ row.status = .active ∧
        row.publicKeyPem = some pem := by
  unfold getOrgPublicKey
  cases h : s.getOrg orgId with
  | none => simp
  | some row =>
    by_cases ha : row.status = .active
    · simp [ha, Option.filter_eq_some_iff, and_comm]
    · simp [ha]

/-! ### Challenges -/

lemma consumeChallenge_ok {challenge : Option String} {roundId : ℤ}
    (h : s.consumeChallenge challenge orgId roundId now = (none, s')) :
    ∃ row, challenge = some row.challenge ∧ s.challenges.get? row.challenge = some row ∧
      row.orgId = orgId ∧ row.roundId = roundId ∧ row.consumed = false ∧ now < row.expiresAt ∧
      s' = s.consumeChallengeRow row.challenge now := by
  unfold consumeChallenge at h
  split at h
  · cases h
  · rename_i row hrow
    obtain ⟨c, hc, hget⟩ := Option.bind_eq_some_iff.mp hrow
    have hkey : row.challenge = c := Table.get?_key hget
    by_cases hok : row.orgId = orgId ∧ row.roundId = roundId ∧ row.consumed = false ∧
        now < row.expiresAt
    · rw [if_pos hok] at h
      cases h
      exact ⟨row, by rw [hc, hkey], by rw [hkey]; exact hget, hok.1, hok.2.1, hok.2.2.1,
        hok.2.2.2, rfl⟩
    · rw [if_neg hok] at h
      split_ifs at h <;> cases h

lemma consumeChallenge_live {roundId : ℤ} {row : ChallengeRow}
    (hstored : s.challenges.get? row.challenge = some row)
    (hlive : row.orgId = orgId ∧ row.roundId = roundId ∧ row.consumed = false ∧
      now < row.expiresAt) :
    (s.consumeChallenge (some row.challenge) orgId roundId now).1 = none := by
  simp only [consumeChallenge, Option.bind_some, hstored, if_pos hlive]

lemma get?_consumeChallengeRow (s : Store) (challenge : String) (now : ℚ) (c : String) :
    (s.consumeChallengeRow challenge now).challenges.get? c =
      if challenge = c then (s.challenges.get? c).map
        (fun r => { r with consumed := true, consumedAt := some now })
      else s.challenges.get? c :=
  Table.get?_update s.challenges challenge c
    (fun r => { r with consumed := true, consumedAt := some now }) fun _ => rfl

lemma consumeChallenge_refused {challenge : Option String} {roundId : ℤ} {err : Option String}
    (h : s.consumeChallenge challenge orgId roundId now = (err, s')) (herr : err ≠ none) :
    s' = s := by
  unfold consumeChallenge at h
  split at h
  · cases h
    rfl
  · split_ifs at h <;> cases h <;> first | rfl | exact absurd rfl herr

/-! ### Enrollment tokens -/

lemma consumeEnrollToken_ok {jti : Option String}
    (h : s.consumeEnrollToken jti orgId now = (none, s')) :
    ∃ row, jti = some row.jti ∧ s.tokens.get? row.jti = some row ∧ row.orgId = orgId ∧
      row.consumed = false ∧ now < row.expiresAt ∧ s' = s.consumeTokenRow row.jti now := by
  unfold consumeEnrollToken at h
  split at h
  · cases h
  · rename_i row hrow
    obtain ⟨c, hc, hget⟩ := Option.bind_eq_some_iff.mp hrow
    have hkey : row.jti = c := Table.get?_key hget
    by_cases hok : row.orgId = orgId ∧ row.consumed = false ∧ now < row.expiresAt
    · rw [if_pos hok] at h
      cases h
      exact ⟨row, by rw [hc, hkey], by rw [hkey]; exact hget, hok.1, hok.2.1, hok.2.2, rfl⟩
    · rw [if_neg hok] at h
      split_ifs at h <;> cases h

lemma consumeEnrollToken_of {jti : String} {row : TokenRow} (hrow : s.tokens.get? jti = some row)
    (horg : row.orgId = orgId) (hunused : row.consumed = false) (hlive : now < row.expiresAt) :
    s.consumeEnrollToken (some jti) orgId now = (none, s.consumeTokenRow jti now) := by
  have hkey : row.jti = jti := Table.get?_key hrow
  subst hkey
  simp only [consumeEnrollToken, Option.bind_some, hrow, horg, hunused, hlive, and_self, if_true,
    consumeTokenRow]

lemma consumeEnrollToken_refused {jti : Option String} {err : Option String}
    (h : s.consumeEnrollToken jti orgId now = (err, s')) (herr : err ≠ none) : s' = s := by
  unfold consumeEnrollToken at h
  split at h
  · cases h
    rfl
  · split_ifs at h <;> cases h <;> first | rfl | exact absurd rfl herr

lemma get?_consumeTokenRow (s : Store) (jti : String) (now : ℚ) (j : String) :
    (s.consumeTokenRow jti now).tokens.get? j =
      if jti = j then (s.tokens.get? j).map
        (fun r => { r with consumed := true, consumedAt := some now })
      else s.tokens.get? j :=
  Table.get?_update s.tokens jti j
    (fun r => { r with consumed := true, consumedAt := some now }) fun _ => rfl

lemma createEnrollToken_ok {jti displayName : String} {expiresAt : ℚ}
    (h : s.createEnrollToken jti orgId displayName expiresAt now = .ok s') :
    ∃ tokens, s' = { s with tokens } ∧ s.tokens.get? jti = none ∧
      ∀ k, tokens.get? k = if jti = k then some
        { jti, orgId, displayName, issuedAt := now, expiresAt, consumed := false,
          consumedAt := none } else s.tokens.get? k := by
  unfold createEnrollToken at h
  split at h
  · rename_i tokens htok
    cases h
    exact ⟨tokens, rfl, Table.insert?_fresh htok, Table.get?_insert? htok⟩
  · cases h

lemma issueChallenge_ok {challenge : String} {roundId : ℤ} {ttl : ℚ}
    (h : s.issueChallenge orgId roundId challenge ttl now = .ok s') :
    ∃ challenges, s' = { s with challenges } ∧ s.challenges.get? challenge = none ∧
      ∀ k, challenges.get? k = if challenge = k then some
        { challenge, orgId, roundId, issuedAt := now, expiresAt := now + ttl, consumed := false,
          consumedAt := none } else s.challenges.get? k := by
  unfold issueChallenge at h
  split at h
  · rename_i challenges hch
    cases h
    exact ⟨challenges, rfl, Table.insert?_fresh hch, Table.get?_insert? hch⟩
  · cases h

/-! ### Rounds -/

/-- Insert a round and store its announcement, if there is one. -/
def openRound (s : Store) (startedBy : String) (params : RoundParams) (invitedCount : ℕ) (now : ℚ)
    (ann : Option (Bytes × String)) : Store :=
  let inserted := s.startRound startedBy params invitedCount now
  match ann with
  | some (att, sig) => inserted.2.setRoundAnnouncement inserted.1 att sig
  | none => inserted.2

/-- The row that `openRound` adds. -/
def openedRow (startedBy : String) (params : RoundParams) (invitedCount : ℕ) (now : ℚ)
    (ann : Option (Bytes × String)) (id : ℤ) : RoundRow where
  roundId := id
  startedAt := now
  startedBy
  completedAt := none
  status := .running
  params
  numClientsInvited := invitedCount
  numClientsResponded := 0
  numClientsAccepted := 0
  numClientsRejected := 0
  globalModelHash := none
  evalMetrics := none
  announceAttestation := ann.map (·.1)
  announceSignature := ann.map (·.2)

lemma openRound_eq (s : Store) (now : ℚ) (startedBy : String) (params : RoundParams) (invitedCount : ℕ)
    (ann : Option (Bytes × String)) :
    ∃ rounds, s.openRound startedBy params invitedCount now ann = { s with rounds } ∧
      rounds.seq = s.rounds.seq + 1 ∧
      ∀ k, rounds.get? k = if k = s.rounds.seq + 1 then
        some (openedRow startedBy params invitedCount now ann k) else s.rounds.get? k := by
  cases ann with
  | none => exact ⟨_, rfl, rfl, fun k => AutoTable.get?_insert k⟩
  | some ann =>
    refine ⟨_, rfl, rfl, fun k => ?_⟩
    have hid : (s.startRound startedBy params invitedCount now).1 = s.rounds.seq + 1 := rfl
    have hinsert : (s.startRound startedBy params invitedCount now).2.rounds.get? k =
        if k = s.rounds.seq + 1 then
          some (openedRow startedBy params invitedCount now none k) else s.rounds.get? k :=
      AutoTable.get?_insert (t := s.rounds)
        (f := openedRow startedBy params invitedCount now none) (e := fun _ => rfl) k
    rw [AutoTable.get?_update, hinsert, hid]
    by_cases hk : k = s.rounds.seq + 1
    · subst hk
      rw [if_pos rfl, if_pos rfl, if_pos rfl]
      rfl
    · rw [if_neg (fun h => hk h.symm), if_neg hk, if_neg hk]

/-! ### Contributions -/

lemma hasAcceptedContribution_iff {roundId : ℤ} :
    s.hasAcceptedContribution roundId orgId = true ↔
      ∃ c ∈ s.contributions.rows, c.roundId = roundId ∧ c.orgId = orgId ∧ c.accepted = true := by
  simp [hasAcceptedContribution]

lemma mem_recordContribution {e : Contribution} {c : ContributionRow} :
    c ∈ (s.recordContribution e now).2.contributions.rows ↔
      c ∈ s.contributions.rows ∨ c = e.row now (s.contributions.seq + 1) :=
  AutoTable.mem_insert (t := s.contributions) (f := e.row now) (e := fun _ => rfl)

/-! ### Versions of the global model -/

lemma mem_globalModels {g : GlobalModelRow} :
    g ∈ s.globalModels.rows ↔ s.getGlobalModel g.versionId = some g := by
  rw [getGlobalModel, Table.get?_eq_some_iff, and_iff_left rfl]

lemma getGlobalModel_versionId {versionId : ℤ} {g : GlobalModelRow}
    (h : s.getGlobalModel versionId = some g) : g.versionId = versionId :=
  Table.get?_key h

lemma getStagedModelForRound_some {roundId : ℤ} {g : GlobalModelRow}
    (h : s.getStagedModelForRound roundId = some g) :
    s.getGlobalModel g.versionId = some g ∧ g.roundId = roundId ∧ g.status = .staged := by
  have hmem := (List.perm_insertionSort _ _).mem_iff.mp (List.mem_of_mem_head? h)
  obtain ⟨hrow, hg⟩ := List.mem_filter.mp hmem
  rw [decide_eq_true_eq] at hg
  exact ⟨mem_globalModels.mp hrow, hg⟩

lemma getActiveGlobalModel_some {g : GlobalModelRow} (h : s.getActiveGlobalModel = some g) :
    s.getGlobalModel g.versionId = some g ∧ g.status = .active := by
  have hmem := (List.perm_insertionSort _ _).mem_iff.mp (List.mem_of_mem_head? h)
  obtain ⟨hrow, hg⟩ := List.mem_filter.mp hmem
  exact ⟨mem_globalModels.mp hrow, by simpa using hg⟩

lemma getActiveGlobalModel_ne_none {g : GlobalModelRow} (hg : g ∈ s.globalModels.rows)
    (hst : g.status = .active) : s.getActiveGlobalModel ≠ none := by
  intro h
  have hlength := congrArg List.length (List.head?_eq_none_iff.mp h)
  rw [List.length_insertionSort, List.length_nil, List.length_eq_zero_iff,
    List.filter_eq_nil_iff] at hlength
  exact hlength g hg (by simpa using hst)

/-- The row of the version that is promoted. -/
def promotedRow (promotedBy : String) (now : ℚ) (g : GlobalModelRow) : GlobalModelRow :=
  { g with status := .active, promotedAt := some now, promotedBy := some promotedBy }

/-- The row of another version when one is promoted. -/
def archivedRow (g : GlobalModelRow) : GlobalModelRow :=
  if g.status = .active then { g with status := .archived } else g

lemma archivedRow_versionId (g : GlobalModelRow) : (archivedRow g).versionId = g.versionId := by
  unfold archivedRow
  split <;> rfl

lemma promotedRow_archivedRow (promotedBy : String) (now : ℚ) (g : GlobalModelRow) :
    promotedRow promotedBy now (archivedRow g) = promotedRow promotedBy now g := by
  unfold archivedRow
  split <;> rfl

lemma getGlobalModel_promoteGlobalModel (s : Store) (now : ℚ) {versionId : ℤ}
    (h : (s.getGlobalModel versionId).isSome) (username : String) (j : ℤ) :
    (s.promoteGlobalModel versionId username now).2.getGlobalModel j = (s.getGlobalModel j).map
      (if versionId = j then promotedRow username now else archivedRow) := by
  obtain ⟨g, hg⟩ := Option.isSome_iff_exists.mp h
  have harchive := Table.get?_updateAll s.globalModels.toTable archivedRow archivedRow_versionId j
  have hupdate := AutoTable.get?_update
    (t := s.globalModels.updateAll archivedRow archivedRow_versionId) versionId j
    (promotedRow username now) fun _ => rfl
  unfold promoteGlobalModel
  rw [hg]
  apply hupdate.trans
  rw [show (s.globalModels.updateAll archivedRow archivedRow_versionId).get? j =
    (s.globalModels.get? j).map archivedRow from harchive]
  split
  · rw [Option.map_map]
    exact congrArg (fun f => Option.map f _)
      (funext fun r => promotedRow_archivedRow username now r)
  · rfl

lemma promoteGlobalModel_frame (s : Store) (now : ℚ) (versionId : ℤ) (username : String) :
    ∃ versions, (s.promoteGlobalModel versionId username now).2 =
      { s with globalModels := versions } := by
  unfold promoteGlobalModel
  cases s.getGlobalModel versionId with
  | none => exact ⟨s.globalModels, rfl⟩
  | some _ => exact ⟨_, rfl⟩

end Store

end FlCoordinator
