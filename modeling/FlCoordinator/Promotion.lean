import FlCoordinator.Lib.Transactions
import FlCoordinator.StoreSpec

/-!
# The store on its connection

`CoordinatorStore` keeps one connection and never rolls back, so that what a failed call leaves
behind is committed by the next one. Promotion is the only call with two writes.
-/

namespace FlCoordinator

open Lib Connection

/-- The methods of `CoordinatorStore`. `query` stands for those that only read. -/
inductive StoreCall
  | query
  | enrollOrg (e : Store.Enrollment) (now : ℚ)
  | issueChallenge (orgId : String) (roundId : ℤ) (challenge : String) (ttlSeconds now : ℚ)
  | consumeChallenge (challenge : Option String) (orgId : String) (roundId : ℤ) (now : ℚ)
  | createEnrollToken (jti orgId displayName : String) (expiresAt now : ℚ)
  | consumeEnrollToken (jti : Option String) (orgId : String) (now : ℚ)
  | recordContribution (c : Store.Contribution) (now : ℚ)
  | setOrgStatus (orgId : String) (status : OrgStatus)
  | setLeaveRequest (orgId : String) (attestation : Bytes) (signatureHex : String) (now : ℚ)
  | setRemovalConfirm (orgId : String) (attestation : Bytes) (signatureHex : String)
  | updateOrgTrust (orgId : String) (trustScore now : ℚ)
  | setOrgLastAccuracy (orgId : String) (accuracy : ℚ)
  | startRound (startedBy : String) (params : RoundParams) (invitedCount : ℕ) (now : ℚ)
  | setRoundAnnouncement (roundId : ℤ) (attestation : Bytes) (signatureHex : String)
  | completeRound (roundId : ℤ) (status : RoundStatus) (responded accepted rejected : ℕ)
      (globalModelHash : Option String) (evalMetrics : Option EvalMetrics) (now : ℚ)
  | setRoundStatus (roundId : ℤ) (status : RoundStatus) (now : ℚ)
  | stageGlobalModel (roundId : ℤ) (modelHash modelPath : String) (stagedUntil : ℚ)
      (evalMetrics : Option EvalMetrics) (now : ℚ)
  | promoteGlobalModel (versionId : ℤ) (promotedBy : String) (now : ℚ)

namespace Store

/-- One write and its commit. -/
def stored (s : Store) : List (Statement Store) := [.write s, .commit]

/-- An `INSERT` that breaks a primary key raises and changes nothing. -/
def inserted : Except PyErr Store → List (Statement Store)
  | .ok s => stored s
  | .error _ => []

/-- An `UPDATE` that may match nothing, then the `SELECT` that looks for the reason. -/
def consumed (out : Option String × Store) : List (Statement Store) :=
  stored out.2 ++ if out.1 = none then [] else [.read]

/-- `UPDATE global_models SET status = 'archived' WHERE status = 'active'`. -/
def archiveActive (s : Store) : Store :=
  { s with globalModels := s.globalModels.updateAll archivedRow archivedRow_versionId }

/-- `UPDATE global_models SET status = 'active', … WHERE version_id = ?`. -/
def activate (s : Store) (versionId : ℤ) (promotedBy : String) (now : ℚ) : Store :=
  { s with globalModels := s.globalModels.update versionId (promotedRow promotedBy now) }

lemma mem_archiveActive {s : Store} {g : GlobalModelRow} :
    g ∈ s.archiveActive.globalModels.rows ↔ ∃ q ∈ s.globalModels.rows, archivedRow q = g := by
  exact List.mem_map

lemma archiveActive_eq_self {s : Store} (h : ∀ g ∈ s.globalModels.rows, g.status ≠ .active) :
    s.archiveActive = s := by
  have hsame : ∀ g ∈ s.globalModels.rows, archivedRow g = g := fun g hg => if_neg (h g hg)
  unfold archiveActive
  rw [AutoTable.updateAll_eq_self hsame]

lemma getActiveGlobalModel_archiveActive (s : Store) :
    s.archiveActive.getActiveGlobalModel = none := by
  rw [Option.eq_none_iff_forall_ne_some]
  intro g hg
  obtain ⟨hrow, hactive⟩ := getActiveGlobalModel_some hg
  obtain ⟨q, -, rfl⟩ := mem_archiveActive.mp (mem_globalModels.mpr hrow)
  unfold archivedRow at hactive
  split at hactive
  · cases hactive
  · contradiction

lemma getActiveGlobalModel_promoteGlobalModel {s : Store} {versionId : ℤ} (promotedBy : String)
    (now : ℚ) (h : s.getGlobalModel versionId ≠ none) :
    (s.promoteGlobalModel versionId promotedBy now).2.getActiveGlobalModel ≠ none := by
  obtain ⟨g, hg⟩ := Option.ne_none_iff_exists'.mp h
  have hget := getGlobalModel_promoteGlobalModel s now (Option.isSome_iff_ne_none.mpr h) promotedBy
    versionId
  rw [hg, if_pos rfl, Option.map_some] at hget
  exact getActiveGlobalModel_ne_none (Table.get?_mem hget) rfl

end Store

/-- The statements of `promote_global_model`: the check that the version exists, the archiving,
the activation, the commit, and the row that is returned. -/
def promoteStatements (versionId : ℤ) (promotedBy : String) (now : ℚ) (s : Store) :
    List (Statement Store) :=
  match s.getGlobalModel versionId with
  | none => [.read]
  | some _ =>
    [.read, .write s.archiveActive, .write (s.archiveActive.activate versionId promotedBy now),
      .commit, .read]

/-- The statements of a call, in the order in which they run. -/
def StoreCall.statements : StoreCall → Store → List (Statement Store)
  | .query, _ => [.read]
  | .enrollOrg e now, s =>
    match s.enrollConflict e.orgId with
    | some _ => [.read]
    | none => .read :: Store.stored (s.insertOrg e now) ++ [.read]
  | .issueChallenge orgId roundId challenge ttlSeconds now, s =>
    Store.inserted (s.issueChallenge orgId roundId challenge ttlSeconds now)
  | .consumeChallenge challenge orgId roundId now, s =>
    Store.consumed (s.consumeChallenge challenge orgId roundId now)
  | .createEnrollToken jti orgId displayName expiresAt now, s =>
    Store.inserted (s.createEnrollToken jti orgId displayName expiresAt now)
  | .consumeEnrollToken jti orgId now, s => Store.consumed (s.consumeEnrollToken jti orgId now)
  | .recordContribution c now, s => Store.stored (s.recordContribution c now).2
  | .setOrgStatus orgId status, s => Store.stored (s.setOrgStatus orgId status)
  | .setLeaveRequest orgId attestation signatureHex now, s =>
    Store.stored (s.setLeaveRequest orgId attestation signatureHex now)
  | .setRemovalConfirm orgId attestation signatureHex, s =>
    Store.stored (s.setRemovalConfirm orgId attestation signatureHex)
  | .updateOrgTrust orgId trustScore now, s =>
    Store.stored (s.updateOrgTrust orgId trustScore now)
  | .setOrgLastAccuracy orgId accuracy, s => Store.stored (s.setOrgLastAccuracy orgId accuracy)
  | .startRound startedBy params invitedCount now, s =>
    Store.stored (s.startRound startedBy params invitedCount now).2
  | .setRoundAnnouncement roundId attestation signatureHex, s =>
    Store.stored (s.setRoundAnnouncement roundId attestation signatureHex)
  | .completeRound roundId status responded accepted rejected globalModelHash evalMetrics now, s =>
    Store.stored (s.completeRound roundId status responded accepted rejected globalModelHash
      evalMetrics now)
  | .setRoundStatus roundId status now, s => Store.stored (s.setRoundStatus roundId status now)
  | .stageGlobalModel roundId modelHash modelPath stagedUntil evalMetrics now, s =>
    Store.stored (s.stageGlobalModel roundId modelHash modelPath stagedUntil evalMetrics now).2
  | .promoteGlobalModel versionId promotedBy now, s =>
    promoteStatements versionId promotedBy now s

section Statements

variable {s : Store} {versionId : ℤ} {promotedBy : String} {now : ℚ}

lemma promoteStatements_unknown (h : s.getGlobalModel versionId = none) :
    promoteStatements versionId promotedBy now s = [.read] := by
  unfold promoteStatements
  rw [h]

lemma promoteStatements_known (h : s.getGlobalModel versionId ≠ none) :
    promoteStatements versionId promotedBy now s =
      [.read, .write s.archiveActive, .write (s.archiveActive.activate versionId promotedBy now),
        .commit, .read] := by
  obtain ⟨g, hg⟩ := Option.ne_none_iff_exists'.mp h
  unfold promoteStatements
  rw [hg]

/-- The statements together compute what `promote_global_model` does. -/
lemma activate_archiveActive (h : s.getGlobalModel versionId ≠ none) :
    s.archiveActive.activate versionId promotedBy now =
      (s.promoteGlobalModel versionId promotedBy now).2 := by
  obtain ⟨g, hg⟩ := Option.ne_none_iff_exists'.mp h
  unfold Store.promoteGlobalModel
  rw [hg]
  rfl

lemma complete_promoteGlobalModel (c : Connection Store) (versionId : ℤ) (promotedBy : String)
    (now : ℚ) :
    (complete StoreCall.statements c (.promoteGlobalModel versionId promotedBy now)).current =
      (c.current.promoteGlobalModel versionId promotedBy now).2 := by
  change (c.run (promoteStatements versionId promotedBy now c.current)).current = _
  by_cases h : c.current.getGlobalModel versionId = none
  · rw [promoteStatements_unknown h]
    unfold Store.promoteGlobalModel
    rw [h]
    rfl
  · rw [promoteStatements_known h, ← activate_archiveActive h]
    rfl

end Statements

/-! ### Calls on stores that differ in their versions -/

/-- Two stores that differ at most in the columns of their versions. -/
structure SameVersions (s t : Store) : Prop where
  rest : t = { s with globalModels := t.globalModels }
  seq : t.globalModels.seq = s.globalModels.seq
  versions : ∀ v, (t.getGlobalModel v).isSome = (s.getGlobalModel v).isSome

namespace SameVersions

variable {s t : Store}

lemma symm (h : SameVersions s t) : SameVersions t s where
  rest := by
    rw [h.rest]
  seq := h.seq.symm
  versions := fun v => (h.versions v).symm

lemma trans {u : Store} (h : SameVersions s t) (h' : SameVersions t u) : SameVersions s u where
  rest := by
    rw [h'.rest, h.rest]
  seq := h'.seq.trans h.seq
  versions := fun v => (h'.versions v).trans (h.versions v)

lemma archiveActive (s : Store) : SameVersions s s.archiveActive where
  rest := rfl
  seq := rfl
  versions := by
    intro v
    have hget := Table.get?_updateAll s.globalModels.toTable Store.archivedRow
      Store.archivedRow_versionId v
    exact (congrArg Option.isSome hget).trans (Option.isSome_map ..)

lemma activate (s : Store) (versionId : ℤ) (promotedBy : String) (now : ℚ) :
    SameVersions s (s.activate versionId promotedBy now) where
  rest := rfl
  seq := rfl
  versions := by
    intro v
    have hget := AutoTable.get?_update (t := s.globalModels) versionId v
      (Store.promotedRow promotedBy now) fun _ => rfl
    refine (congrArg Option.isSome hget).trans ?_
    split
    · exact Option.isSome_map ..
    · rfl

lemma congr (h : SameVersions s t) (f : Store → Store)
    (hf : ∀ s m, f { s with globalModels := m } = { f s with globalModels := m }) :
    SameVersions (f s) (f t) := by
  have hs : f s = { f s with globalModels := s.globalModels } := hf s s.globalModels
  have ht : f t = { f s with globalModels := t.globalModels } := by
    rw [← hf, ← h.rest]
  rw [hs, ht]
  exact ⟨rfl, h.seq, h.versions⟩

lemma stored (h : SameVersions s t) :
    List.Forall₂ (Paired SameVersions) s.stored t.stored :=
  .cons (.write h) (.cons .commit .nil)

lemma inserted (h : SameVersions s t) (f : Store → Except PyErr Store)
    (hf : ∀ s m, f { s with globalModels := m } =
      (f s).map fun u => { u with globalModels := m }) :
    List.Forall₂ (Paired SameVersions) (Store.inserted (f s)) (Store.inserted (f t)) := by
  have hs := hf s s.globalModels
  have ht := hf s t.globalModels
  rw [← h.rest] at ht
  cases hfs : f s with
  | error e =>
    rw [hfs] at ht
    rw [ht]
    exact .nil
  | ok u =>
    rw [hfs] at hs ht
    have hu : u = { u with globalModels := s.globalModels } := Except.ok.inj hs
    rw [ht, hu]
    exact stored ⟨rfl, h.seq, h.versions⟩

lemma consumed (h : SameVersions s t) (f : Store → Option String × Store)
    (hf : ∀ s m, f { s with globalModels := m } =
      ((f s).1, { (f s).2 with globalModels := m })) :
    List.Forall₂ (Paired SameVersions) (Store.consumed (f s)) (Store.consumed (f t)) := by
  have hwrite : SameVersions (f s).2 (f t).2 :=
    h.congr (fun s => (f s).2) fun s m => by rw [hf]
  have hreason : (f t).1 = (f s).1 := by
    rw [h.rest, hf]
  unfold Store.consumed
  rw [hreason]
  refine List.rel_append hwrite.stored ?_
  split
  · exact .nil
  · exact .cons .read .nil

lemma promoteStatements (h : SameVersions s t) (versionId : ℤ) (promotedBy : String) (now : ℚ) :
    List.Forall₂ (Paired SameVersions) (promoteStatements versionId promotedBy now s)
      (promoteStatements versionId promotedBy now t) := by
  have harchive : SameVersions s.archiveActive t.archiveActive :=
    ((archiveActive s).symm.trans h).trans (archiveActive t)
  have hactivate := ((activate s.archiveActive versionId promotedBy now).symm.trans
    harchive).trans (activate t.archiveActive versionId promotedBy now)
  have hknown := h.versions versionId
  by_cases hs : s.getGlobalModel versionId = none
  · have ht : t.getGlobalModel versionId = none := by
      rw [hs] at hknown
      exact Option.isNone_iff_eq_none.mp (by simpa using hknown)
    rw [promoteStatements_unknown hs, promoteStatements_unknown ht]
    exact .cons .read .nil
  · have ht : t.getGlobalModel versionId ≠ none := by
      intro ht
      rw [ht] at hknown
      exact hs (by simpa using hknown.symm)
    rw [promoteStatements_known hs, promoteStatements_known ht]
    exact .cons .read (.cons (.write harchive) (.cons (.write hactivate)
      (.cons .commit (.cons .read .nil))))

lemma isSome_stageGlobalModel (s : Store) (roundId : ℤ) (modelHash modelPath : String)
    (stagedUntil : ℚ) (evalMetrics : Option EvalMetrics) (now : ℚ) (v : ℤ) :
    ((s.stageGlobalModel roundId modelHash modelPath stagedUntil evalMetrics now).2.getGlobalModel
      v).isSome = (decide (v = s.globalModels.seq + 1) || (s.getGlobalModel v).isSome) := by
  have hget := AutoTable.get?_insert (t := s.globalModels)
    (f := fun id =>
      { versionId := id, roundId, createdAt := now, stagedUntil, status := .staged, modelHash,
        modelPath, promotedAt := none, promotedBy := none, evalMetrics }) (e := fun _ => rfl) v
  refine (congrArg Option.isSome hget).trans ?_
  split
  · rename_i hv
    rw [decide_eq_true hv]
    rfl
  · rename_i hv
    rw [decide_eq_false hv, Bool.false_or]
    rfl

lemma stageGlobalModel (h : SameVersions s t) (roundId : ℤ) (modelHash modelPath : String)
    (stagedUntil : ℚ) (evalMetrics : Option EvalMetrics) (now : ℚ) :
    SameVersions (s.stageGlobalModel roundId modelHash modelPath stagedUntil evalMetrics now).2
      (t.stageGlobalModel roundId modelHash modelPath stagedUntil evalMetrics now).2 where
  rest := by
    rw [h.rest]
    rfl
  seq := congrArg (· + 1) h.seq
  versions := by
    intro v
    rw [isSome_stageGlobalModel, isSome_stageGlobalModel, h.seq, h.versions]

/-- Every call runs alike on two such stores. -/
lemma bisimulation : Bisimulation StoreCall.statements SameVersions := by
  intro call s t h
  cases call with
  | query => exact .cons .read .nil
  | enrollOrg e now =>
    have hconflict : t.enrollConflict e.orgId = s.enrollConflict e.orgId := by
      rw [h.rest]
      rfl
    have hinsert := h.congr (·.insertOrg e now) fun _ _ => rfl
    unfold StoreCall.statements
    dsimp only
    rw [hconflict]
    cases s.enrollConflict e.orgId with
    | some _ => exact .cons .read .nil
    | none => exact .cons .read (List.rel_append hinsert.stored (.cons .read .nil))
  | issueChallenge orgId roundId challenge ttlSeconds now =>
    refine h.inserted (·.issueChallenge orgId roundId challenge ttlSeconds now) fun s m => ?_
    unfold Store.issueChallenge
    dsimp only
    split <;> rfl
  | consumeChallenge challenge orgId roundId now =>
    refine h.consumed (·.consumeChallenge challenge orgId roundId now) fun s m => ?_
    unfold Store.consumeChallenge
    dsimp only
    split
    · rfl
    · split_ifs <;> rfl
  | createEnrollToken jti orgId displayName expiresAt now =>
    refine h.inserted (·.createEnrollToken jti orgId displayName expiresAt now) fun s m => ?_
    unfold Store.createEnrollToken
    dsimp only
    split <;> rfl
  | consumeEnrollToken jti orgId now =>
    refine h.consumed (·.consumeEnrollToken jti orgId now) fun s m => ?_
    unfold Store.consumeEnrollToken
    dsimp only
    split
    · rfl
    · split_ifs <;> rfl
  | recordContribution c now =>
    exact (h.congr (fun s => (s.recordContribution c now).2) fun _ _ => rfl).stored
  | setOrgStatus orgId status =>
    exact (h.congr (·.setOrgStatus orgId status) fun _ _ => rfl).stored
  | setLeaveRequest orgId attestation signatureHex now =>
    exact (h.congr (·.setLeaveRequest orgId attestation signatureHex now) fun _ _ => rfl).stored
  | setRemovalConfirm orgId attestation signatureHex =>
    exact (h.congr (·.setRemovalConfirm orgId attestation signatureHex) fun _ _ => rfl).stored
  | updateOrgTrust orgId trustScore now =>
    exact (h.congr (·.updateOrgTrust orgId trustScore now) fun _ _ => rfl).stored
  | setOrgLastAccuracy orgId accuracy =>
    exact (h.congr (·.setOrgLastAccuracy orgId accuracy) fun _ _ => rfl).stored
  | startRound startedBy params invitedCount now =>
    exact (h.congr (fun s => (s.startRound startedBy params invitedCount now).2)
      fun _ _ => rfl).stored
  | setRoundAnnouncement roundId attestation signatureHex =>
    exact (h.congr (·.setRoundAnnouncement roundId attestation signatureHex)
      fun _ _ => rfl).stored
  | completeRound roundId status responded accepted rejected globalModelHash evalMetrics now =>
    exact (h.congr (·.completeRound roundId status responded accepted rejected globalModelHash
      evalMetrics now) fun _ _ => rfl).stored
  | setRoundStatus roundId status now =>
    exact (h.congr (·.setRoundStatus roundId status now) fun _ _ => rfl).stored
  | stageGlobalModel roundId modelHash modelPath stagedUntil evalMetrics now =>
    exact (h.stageGlobalModel roundId modelHash modelPath stagedUntil evalMetrics now).stored
  | promoteGlobalModel versionId promotedBy now =>
    exact h.promoteStatements versionId promotedBy now

end SameVersions

/-! ### Where a promotion stops -/

section Promotion

variable (c : Connection Store) (versionId : ℤ) (promotedBy : String) (now : ℚ)

/-- The promotion of which the first `done` statements take effect. -/
def promotion (done : ℕ) : Attempt StoreCall := ⟨.promoteGlobalModel versionId promotedBy now, done⟩

variable {c} {versionId} {promotedBy} {now}

lemma attempt_promotion {done : ℕ} :
    attempt StoreCall.statements c (promotion versionId promotedBy now done) =
      c.run ((promoteStatements versionId promotedBy now c.current).take done) := rfl

lemma promotion_not_started {done : ℕ} (h : done < 2) :
    attempt StoreCall.statements c (promotion versionId promotedBy now done) = c := by
  rw [attempt_promotion]
  unfold promoteStatements
  cases c.current.getGlobalModel versionId with
  | none => interval_cases done <;> rfl
  | some g => interval_cases done <;> rfl

lemma promotion_unknown (h : c.current.getGlobalModel versionId = none) (done : ℕ) :
    attempt StoreCall.statements c (promotion versionId promotedBy now done) = c := by
  rw [attempt_promotion, promoteStatements_unknown h]
  cases done with
  | zero => rfl
  | succ n =>
    rw [List.take_succ_cons, List.take_nil]
    rfl

lemma promotion_archived (h : c.current.getGlobalModel versionId ≠ none) :
    attempt StoreCall.statements c (promotion versionId promotedBy now 2) =
      { c with current := c.current.archiveActive } := by
  rw [attempt_promotion, promoteStatements_known h]
  rfl

lemma promotion_pending (h : c.current.getGlobalModel versionId ≠ none) :
    attempt StoreCall.statements c (promotion versionId promotedBy now 3) =
      { c with current := c.current.archiveActive.activate versionId promotedBy now } := by
  rw [attempt_promotion, promoteStatements_known h]
  rfl

lemma promotion_committed (h : c.current.getGlobalModel versionId ≠ none) {done : ℕ}
    (hdone : 4 ≤ done) :
    attempt StoreCall.statements c (promotion versionId promotedBy now done) =
      complete StoreCall.statements c (.promoteGlobalModel versionId promotedBy now) := by
  change _ = c.run (promoteStatements versionId promotedBy now c.current)
  rw [attempt_promotion, promoteStatements_known h]
  rcases hdone.eq_or_lt with rfl | hlt
  · rfl
  · rw [List.take_of_length_le hlt]

lemma pending_promotion (h : c.current.getGlobalModel versionId ≠ none) :
    Pending SameVersions (attempt StoreCall.statements c (promotion versionId promotedBy now 3)) c
      (complete StoreCall.statements c (.promoteGlobalModel versionId promotedBy now)) := by
  have hcomplete := (complete_promoteGlobalModel c versionId promotedBy now).trans
    (activate_archiveActive h).symm
  rw [promotion_pending h]
  exact ⟨hcomplete.symm, (SameVersions.archiveActive c.current).trans
    (SameVersions.activate _ versionId promotedBy now), Or.inl rfl⟩

/-- A call on rounds that commits what it finds pending. -/
def nextCall : Attempt StoreCall := ⟨.setRoundStatus 0 .running 0, 2⟩

lemma getActiveGlobalModel_nextCall (c : Connection Store) :
    (session StoreCall.statements c [nextCall]).committed.getActiveGlobalModel =
      c.current.getActiveGlobalModel := rfl

/-- Once the next call has committed the archiving, no version is published. -/
lemma archived_unpublished (promotedBy : String) (now : ℚ)
    (h : c.current.getGlobalModel versionId ≠ none) :
    (session StoreCall.statements
      (attempt StoreCall.statements c (promotion versionId promotedBy now 2))
      [nextCall]).committed.getActiveGlobalModel = none := by
  rw [getActiveGlobalModel_nextCall, promotion_archived h]
  exact Store.getActiveGlobalModel_archiveActive c.current

lemma not_allOrNothing_archived (h : c.current.getGlobalModel versionId ≠ none)
    {g : GlobalModelRow} (hg : g ∈ c.current.globalModels.rows) (hactive : g.status = .active) :
    ¬AllOrNothing StoreCall.statements c (promotion versionId promotedBy now 2) := by
  intro hall
  have hnone := archived_unpublished promotedBy now h
  rcases hall [nextCall] with hbefore | hwhole
  · rw [hbefore, getActiveGlobalModel_nextCall] at hnone
    exact Store.getActiveGlobalModel_ne_none hg hactive hnone
  · rw [hwhole, getActiveGlobalModel_nextCall] at hnone
    change (complete StoreCall.statements c
      (.promoteGlobalModel versionId promotedBy now)).current.getActiveGlobalModel = none at hnone
    rw [complete_promoteGlobalModel] at hnone
    exact Store.getActiveGlobalModel_promoteGlobalModel promotedBy now h hnone

end Promotion

/-- Which failures of a promotion leave it whole or undone, for the connection in any state. The
statements are numbered from 0: the second write, at 2, must not fail after the first has
archived a version. -/
theorem promotion_allOrNothing_iff (c : Connection Store) (versionId : ℤ) (promotedBy : String)
    (now : ℚ) (done : ℕ) :
    AllOrNothing StoreCall.statements c (promotion versionId promotedBy now done) ↔
      done ≠ 2 ∨ c.current.getGlobalModel versionId = none ∨
        ∀ g ∈ c.current.globalModels.rows, g.status ≠ .active := by
  constructor
  · intro hall
    by_contra! hno
    obtain ⟨rfl, hknown, g, hg, hactive⟩ := hno
    exact not_allOrNothing_archived hknown hg hactive hall
  · intro hcond
    by_cases hknown : c.current.getGlobalModel versionId = none
    · exact allOrNothing_of_unchanged (promotion_unknown hknown done)
    · rcases lt_trichotomy done 2 with hlt | rfl | hgt
      · exact allOrNothing_of_unchanged (promotion_not_started hlt)
      · have hidle : ∀ g ∈ c.current.globalModels.rows, g.status ≠ .active := by
          simpa [hknown] using hcond
        apply allOrNothing_of_unchanged
        rw [promotion_archived hknown, Store.archiveActive_eq_self hidle]
      · rcases (show 3 ≤ done from hgt).eq_or_lt with rfl | hlt
        · exact allOrNothing_of_pending SameVersions.bisimulation (pending_promotion hknown)
        · exact allOrNothing_of_complete (promotion_committed hknown hlt)

/-- Version 1 is published, and version 2 is staged. -/
def publishedOne : Connection Store :=
  session StoreCall.statements ⟨Store.empty, Store.empty⟩
    [⟨.stageGlobalModel 1 "h1" "model_v1.json" 0 none 1, 2⟩, promotion 1 "operator" 2 5,
      ⟨.stageGlobalModel 2 "h2" "model_v2.json" 0 none 3, 2⟩]

/-- The second write of the promotion raises, and a later call on a round commits the first. -/
theorem failed_promotion_unpublishes :
    (publishedOne.committed.getActiveGlobalModel.map (·.versionId)) = some 1 ∧
      (let later := session StoreCall.statements
        (attempt StoreCall.statements publishedOne (promotion 2 "operator" 4 2)) [nextCall]
      later.committed.getActiveGlobalModel = none ∧
        (later.committed.getGlobalModel 1).map (·.status) = some .archived) ∧
      ¬AllOrNothing StoreCall.statements publishedOne (promotion 2 "operator" 4 2) := by
  have hknown : publishedOne.current.getGlobalModel 2 ≠ none := by
    rw [← Option.isSome_iff_ne_none]
    decide +kernel
  have hactive : ∃ g ∈ publishedOne.current.globalModels.rows, g.status = .active := by
    decide +kernel
  obtain ⟨g, hg, hst⟩ := hactive
  refine ⟨by decide +kernel, ⟨archived_unpublished "operator" 4 hknown, by decide +kernel⟩, ?_⟩
  exact not_allOrNothing_archived hknown hg hst

end FlCoordinator
