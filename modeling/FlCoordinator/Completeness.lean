import FlCoordinator.Scoring
import FlCoordinator.System

/-!
# Which changes the audit trail misses

A handler that writes an org, a token, a round, a contribution or a version logs an entry before
it answers, but for two: an aggregation that fails after its scoring loop, and a redemption that
fails once its token is consumed. This file says exactly when these two log.
-/

namespace FlCoordinator

open Lib Handler

/-! ### Recorded changes -/

/-- The part of the database that the trail speaks about. Of an org, the time it was last seen and
its last accuracy are left out. -/
structure Audited where
  orgs : String → Option (OrgRow × ℚ)
  tokens : Table TokenRow.jti
  rounds : AutoTable RoundRow.roundId
  contributions : AutoTable ContributionRow.contributionId
  globalModels : AutoTable GlobalModelRow.versionId

def Store.audited (s : Store) : Audited where
  orgs := fun x => (s.getOrg x).map (fun r => (r.core, r.trustScore))
  tokens := s.tokens
  rounds := s.rounds
  contributions := s.contributions
  globalModels := s.globalModels

lemma Store.trust_eq_audited (s : Store) (x : String) :
    (s.reputation x).map (·.trust) = (s.audited.orgs x).map (·.2) := by
  simp only [Store.reputation, Store.audited, Option.map_map]
  rfl

/-- Between the two worlds nothing has changed that the trail speaks about, or the trail has
grown. -/
def Recorded (w t : World) : Prop :=
  t.store.audited = w.store.audited ∨ w.audit.Extended t.audit

/-- The event leaves an entry if it changes anything. -/
def Records (app : App) (s : Sys) (e : Event) : Prop := Recorded s.world (next app e s).world

namespace Recorded

variable {w t : World}

lemma refl (w : World) : Recorded w w := Or.inl rfl

lemma logged (h : t.audit = w.audit) (app : App) (timestamp : Decimal)
    (action actor target : String) (details : Json) :
    Recorded w (t.logAudit app timestamp action actor target details) := by
  apply Or.inr
  rw [← h]
  exact AuditTrail.extended_log ..

lemma trust_or_length (h : Recorded w t) (x : String) :
    (t.store.reputation x).map (·.trust) = (w.store.reputation x).map (·.trust) ∨
      w.audit.rows.length < t.audit.rows.length := by
  rcases h with heq | ⟨row, rows, hrows⟩
  · apply Or.inl
    rw [Store.trust_eq_audited, Store.trust_eq_audited, heq]
  · apply Or.inr
    rw [hrows, List.length_append, List.length_cons]
    omega

end Recorded

/-! ### Handlers that log every change -/

section Handlers

variable {app : App} {w : World}

lemma enrollOrg_recorded (user : Option FLUser) (body : EnrollOrgRequest) (env : EnrollEnv) :
    (enrollOrg app user body env).wp (fun _ t => Recorded w t) w := by
  unfold enrollOrg
  apply wp_flRequire_bind (fun _ _ => .refl w)
  intro u _ _
  apply wp_attempt_bind (fun _ _ => .refl w)
  intro pub _
  apply wp_orRaise_bind (fun _ => .refl w)
  intro ca _
  apply wp_attempt_bind (fun _ _ => .refl w)
  intro cert _
  apply wp_tryExecute_bind (fun _ _ => .refl w)
  intro s _
  apply wp_log_bind
  -- the missing key is noticed after the entry
  apply wp_orRaise_bind
  · intro _
    apply Recorded.logged
    rfl
  · intro coordPriv _
    apply Recorded.logged
    rfl

lemma mintEnrollToken_recorded (user : Option FLUser) (body : EnrollTokenRequest) (env : MintEnv) :
    (mintEnrollToken app user body env).wp (fun _ t => Recorded w t) w := by
  unfold mintEnrollToken
  apply wp_flRequire_bind (fun _ _ => .refl w)
  intro u _ _
  apply wp_query_bind
  apply wp_ensure_bind (fun _ => .refl w)
  intro _
  apply wp_orRaise_bind (fun _ => .refl w)
  intro keys _
  apply wp_tryExecute_bind (fun _ _ => .refl w)
  intro s _
  apply wp_log_bind
  apply Recorded.logged
  rfl

lemma changeStatus_recorded {permission action orgId : String} {status : OrgStatus}
    {hook : Api Unit} {user : Option FLUser} {loggedAt : Decimal}
    (hhook : ∀ v : World, hook.wp (fun r t => r = .ok () ∧ t.audit = v.audit) v) :
    (changeStatus app permission status action hook user orgId loggedAt).wp
      (fun _ t => Recorded w t) w := by
  unfold changeStatus
  apply wp_flRequire_bind (fun _ _ => .refl w)
  intro u _ _
  apply wp_query_bind
  apply wp_ensure_bind (fun _ => .refl w)
  intro _
  apply wp_execute_bind
  apply wp_call_bind (hhook _)
  · intro e t h
    cases h.1
  · intro a t h
    apply wp_log_bind
    apply Recorded.logged
    exact h.2

lemma regenerateCrl_audit (env : CrlEnv) (v : World) :
    (regenerateCrl app env).wp (fun r t => (∃ b, r = .ok b) ∧ t.audit = v.audit) v := by
  unfold regenerateCrl
  cases app.ca with
  | none => exact ⟨⟨_, rfl⟩, rfl⟩
  | some ca =>
    apply wp_query_bind
    by_cases hw : env.writable = true
    · simp only [if_pos hw]
      exact ⟨⟨_, rfl⟩, rfl⟩
    · simp only [if_neg hw]
      exact ⟨⟨_, rfl⟩, rfl⟩

lemma blockOrg_recorded (user : Option FLUser) (orgId : String) (loggedAt : Decimal) :
    (blockOrg app user orgId loggedAt).wp (fun _ t => Recorded w t) w :=
  changeStatus_recorded fun _ => ⟨rfl, rfl⟩

lemma unblockOrg_recorded (user : Option FLUser) (orgId : String) (loggedAt : Decimal) :
    (unblockOrg app user orgId loggedAt).wp (fun _ t => Recorded w t) w :=
  changeStatus_recorded fun _ => ⟨rfl, rfl⟩

lemma revokeOrg_recorded (crl : CrlEnv) (user : Option FLUser) (orgId : String)
    (loggedAt : Decimal) :
    (revokeOrg app crl user orgId loggedAt).wp (fun _ t => Recorded w t) w := by
  apply changeStatus_recorded
  intro v
  apply wp_call_bind (regenerateCrl_audit crl v)
  · rintro e t ⟨⟨b, hb⟩, -⟩
    cases hb
  · intro b t h
    exact ⟨rfl, h.2⟩

/-- An attestation with a type is a dict, so that its reason can be read after the write. -/
lemma get_isOk_of_get {att : Json} {k : String} {v : Json} (h : att.get k .null = .ok v)
    (j : String) (d : Json) : ∃ u, att.get j d = .ok u := by
  cases att with
  | obj fs => exact ⟨_, rfl⟩
  | _ => cases h

lemma orgLeaveRequest_recorded (req : Request) (orgId : String) (body : LeaveRequestBody)
    (env : LeaveEnv) :
    (orgLeaveRequest app req orgId body env).wp (fun _ t => Recorded w t) w := by
  unfold orgLeaveRequest
  apply wp_read_bind
  apply wp_attempt_bind (fun _ _ => .refl w)
  intro authOrgId _
  apply wp_ensure_bind (fun _ => .refl w)
  intro _
  apply wp_query_bind
  apply wp_orRaise_bind (fun _ => .refl w)
  intro org _
  apply wp_ensure_bind (fun _ => .refl w)
  intro _
  apply wp_attempt_bind (fun _ _ => .refl w)
  intro att _
  apply wp_attempt_bind (fun _ _ => .refl w)
  intro type htype
  apply wp_attempt_bind (fun _ _ => .refl w)
  intro attOrgId _
  apply wp_ensure_bind (fun _ => .refl w)
  intro _
  apply wp_orRaise_bind (fun _ => .refl w)
  intro pem _
  apply wp_orRaise_bind (fun _ => .refl w)
  intro sig _
  apply wp_attempt_bind (fun _ _ => .refl w)
  intro pub _
  apply wp_ensure_bind (fun _ => .refl w)
  intro _
  apply wp_execute_bind
  obtain ⟨reason, hreason⟩ := get_isOk_of_get htype "reason" (.str "")
  apply wp_attempt_bind_of hreason
  apply wp_log_bind
  apply Recorded.logged
  rfl

lemma approveRemoval_recorded (user : Option FLUser) (orgId : String) (env : ApproveEnv) :
    (approveRemoval app user orgId env).wp (fun _ t => Recorded w t) w := by
  unfold approveRemoval
  apply wp_flRequire_bind (fun _ _ => .refl w)
  intro u _ _
  apply wp_query_bind
  apply wp_orRaise_bind (fun _ => .refl w)
  intro org _
  apply wp_ensure_bind (fun _ => .refl w)
  intro _
  apply wp_orRaise_bind (fun _ => .refl w)
  intro coordPriv _
  apply wp_execute_bind
  apply wp_execute_bind
  apply wp_call_bind (regenerateCrl_audit env.crl _)
  · rintro e t ⟨⟨b, hb⟩, -⟩
    cases hb
  · intro b t h
    apply wp_log_bind
    apply Recorded.logged
    exact h.2

lemma startRound_recorded (user : Option FLUser) (body : StartRoundRequest) (env : StartRoundEnv) :
    (startRound app user body env).wp (fun _ t => Recorded w t) w := by
  unfold startRound
  apply wp_flRequire_bind (fun _ _ => .refl w)
  intro u _ _
  apply wp_query_bind
  apply wp_ensure_bind (fun _ => .refl w)
  intro _
  apply wp_insert_bind
  apply wp_execute_bind
  apply wp_log_bind
  apply Recorded.logged
  rfl

lemma issueRoundChallenge_recorded (req : Request) (roundId : ℤ) (env : ChallengeEnv) :
    (issueRoundChallenge app req roundId env).wp (fun _ t => Recorded w t) w := by
  apply wp_mono (issueRoundChallenge_spec app w req roundId env)
  rintro r t ⟨-, -, ⟨-, rfl⟩ | ⟨-, hissued⟩⟩
  · exact .refl t
  · obtain ⟨orgId, -, -, hstore⟩ := hissued.caller
    obtain ⟨challenges, hstore, -⟩ := Store.issueChallenge_ok hstore
    apply Or.inl
    rw [hstore]
    rfl

/-- Only the challenge is consumed without an entry; a recorded count can be read again. -/
lemma contributeFinish_recorded (p : Pending) (env : ContributeEnv) :
    (contributeFinish app p env).wp (fun _ t => Recorded w t) w := by
  unfold contributeFinish
  apply wp_ensure_bind (fun _ => .refl w)
  intro _
  apply wp_attempt_bind (fun _ _ => .refl w)
  intro claimed _
  apply wp_ensure_bind (fun _ => .refl w)
  intro _
  apply wp_attempt_bind (fun _ _ => .refl w)
  intro sentText _
  apply wp_attempt_bind (fun _ _ => .refl w)
  intro sent _
  apply wp_ensure_bind (fun _ => .refl w)
  intro _
  apply wp_attempt_bind (fun _ _ => .refl w)
  intro challenge _
  apply wp_attempt_bind (fun _ _ => .refl w)
  intro challengeText _
  apply wp_insert_bind
  have hkept : (w.store.consumeChallenge challengeText p.orgId p.roundId
      env.consumedAt).2.audited = w.store.audited := by
    unfold Store.consumeChallenge
    split
    · rfl
    · split_ifs <;> rfl
  generalize w.store.consumeChallenge challengeText p.orgId p.roundId env.consumedAt = out at hkept ⊢
  have hfail : ∀ {v : World}, v.store = out.2 → Recorded w v := by
    intro v hv
    apply Or.inl
    rw [hv, hkept]
  apply wp_ensure_bind (fun _ => hfail rfl)
  intro _
  apply wp_query_bind
  apply wp_orRaise_bind (fun _ => hfail rfl)
  intro pem _
  apply wp_attempt_bind (fun _ _ => hfail rfl)
  intro pub _
  apply wp_orRaise_bind (fun _ => hfail rfl)
  intro sig _
  by_cases hver : verify app.host pub p.attBytes sig = false
  · rw [if_pos hver]
    apply wp_call_bind (recordRow_spec _)
    · rintro e t (⟨-, rfl, -⟩ | ⟨x, n, -, -, -, ⟨id, hid⟩, -⟩)
      · exact hfail rfl
      · cases hid
    · rintro id t (⟨⟨e, he⟩, -⟩ | ⟨x, n, -, -, -, -, rfl⟩)
      · cases he
      · apply wp_log_bind
        apply Recorded.logged
        rfl
  · rw [if_neg hver]
    apply wp_writeFile_bind
    apply wp_call_bind (recordRow_spec _)
    · rintro e t (⟨-, rfl, -⟩ | ⟨x, n, -, -, -, ⟨id, hid⟩, -⟩)
      · exact hfail rfl
      · cases hid
    · rintro id t (⟨⟨e, he⟩, -⟩ | ⟨x, n, hx, hn, -, -, rfl⟩)
      · cases he
      · apply wp_attempt_bind_of hx
        apply wp_attempt_bind_of hn
        apply wp_log_bind
        apply Recorded.logged
        rfl

lemma promoteGlobalModel_isSome {s : Store} {versionId : ℤ} (h : (s.getGlobalModel versionId).isSome)
    (username : String) (now : ℚ) :
    ∃ g, (s.promoteGlobalModel versionId username now).1 = some g := by
  have hsame : (s.promoteGlobalModel versionId username now).1 =
      (s.promoteGlobalModel versionId username now).2.getGlobalModel versionId := by
    unfold Store.promoteGlobalModel
    cases hg : s.getGlobalModel versionId with
    | none => exact hg.symm
    | some g => rfl
  obtain ⟨g, hg⟩ := Option.isSome_iff_exists.mp h
  rw [hsame, Store.getGlobalModel_promoteGlobalModel s now h, hg]
  exact ⟨_, rfl⟩

lemma publishRoundModel_recorded (user : Option FLUser) (roundId : ℤ) (env : PublishEnv) :
    (publishRoundModel app user roundId env).wp (fun _ t => Recorded w t) w := by
  unfold publishRoundModel
  apply wp_flRequire_bind (fun _ _ => .refl w)
  intro u _ _
  apply wp_requireRound_bind (fun _ => .refl w)
  intro r _
  apply wp_query_bind
  apply wp_orRaise_bind (fun _ => .refl w)
  intro staged hstaged
  apply wp_ensure_bind (fun _ => .refl w)
  intro _
  apply wp_insert_bind
  apply wp_execute_bind
  have hsome : (w.store.getGlobalModel staged.versionId).isSome := by
    rw [(Store.getStagedModelForRound_some hstaged).1]
    rfl
  obtain ⟨gm, hgm⟩ := promoteGlobalModel_isSome hsome u.username env.promotedAt
  apply wp_orRaise_bind_of hgm
  apply wp_log_bind
  apply Recorded.logged
  rfl

lemma rollbackGlobalModel_recorded (user : Option FLUser) (versionId : ℤ) (env : RollbackEnv) :
    (rollbackGlobalModel app user versionId env).wp (fun _ t => Recorded w t) w := by
  unfold rollbackGlobalModel
  apply wp_flRequire_bind (fun _ _ => .refl w)
  intro u _ _
  apply wp_attempt_bind (fun _ _ => .refl w)
  intro id hid
  obtain rfl := bindInt_ok hid
  apply wp_query_bind
  apply wp_orRaise_bind (fun _ => .refl w)
  intro target htarget
  apply wp_ensure_bind (fun _ => .refl w)
  intro _
  apply wp_insert_bind
  have hsome : (w.store.getGlobalModel id).isSome := by
    rw [htarget]
    rfl
  obtain ⟨gm, hgm⟩ := promoteGlobalModel_isSome hsome u.username env.promotedAt
  apply wp_orRaise_bind_of hgm
  apply wp_log_bind
  apply Recorded.logged
  rfl

end Handlers

/-! ### Aggregations -/

/-- The trusted contributions pass the gate under the schema of the heaviest one, and either one
of them is left out, which is logged, or those with this schema merge. -/
structure Traced (py : Python) (canonical : Schema) (vs : List Survivor) : Prop where
  heaviest : ∃ v rest, sortSurvivors vs = v :: rest ∧
    modelFeatureSchema py v.modelBytes = .ok canonical
  judged : ∀ v ∈ vs, Judged py canonical v.modelBytes
  entered : (∃ v ∈ vs, ¬FitsSchema py canonical v.modelBytes) ∨
    Mergeable py (agreeing py canonical (sortSurvivors vs))

/-- The judgements of the accepted contributions of the round leave every trust score where it
is. -/
def ScoresKept (app : App) (settings : TrustSettings) (roundId : ℤ) (env : AggregateEnv)
    (w : World) : Prop :=
  ∀ x, (rescore (app.trustManager settings) env.score w.files 0
    (w.store.getAcceptedModels roundId) w.store.reputation x).map (·.trust) =
      (w.store.reputation x).map (·.trust)

section Gate

variable {py : Python} {canonical : Schema} {vs : List Survivor} {gate gate' : Gate} {tally : Tally}

lemma gateLoop_excluded (h : gateLoop py canonical vs gate = .ok gate') :
    gate'.excludedSchema = gate.excludedSchema ++
      (vs.filter (fun v => !agrees py canonical v)).map (·.orgId) := by
  induction vs generalizing gate with
  | nil =>
    obtain rfl := Except.ok.inj h
    exact (List.append_nil _).symm
  | cons v vs ih =>
    obtain ⟨mid, hstep, h⟩ := gateLoop_cons h
    cases hstep with
    | passed fits =>
      rw [ih h, List.filter_cons_of_neg (by simp [agrees_eq_true.mpr fits])]
    | demoted unfit =>
      have hno : ¬agrees py canonical v = true := mt agrees_eq_true.mp unfit
      rw [ih h, List.filter_cons_of_pos (by simpa using hno), List.map_cons, List.append_assoc]
      rfl

lemma schemaGate_excluded (h : schemaGate py tally = .ok (canonical, gate)) :
    gate.excludedSchema ≠ [] ↔ ∃ v ∈ tally.survivors, ¬FitsSchema py canonical v.modelBytes := by
  obtain ⟨-, hloop⟩ := schemaGate_loop h
  rw [gateLoop_excluded hloop, List.nil_append, ne_eq, List.map_eq_nil_iff, List.filter_eq_nil_iff]
  push Not
  simp only [mem_sortSurvivors, ← agrees_eq_true, Bool.not_eq_true', Bool.not_eq_true]

lemma combine_gate {bytes : Bytes} {info : MergeInfo}
    (h : combine py tally = .ok (gate, bytes, info)) :
    ∃ canonical, schemaGate py tally = .ok (canonical, gate) ∧
      Combinable py canonical tally.survivors := by
  unfold combine at h
  split_ifs at h
  split at h
  · cases h
  · rename_i canonical gate' hgate
    split at h
    · cases h
    · split at h
      · cases h
      · rename_i bytes' info' hmerge
        obtain ⟨rfl, -⟩ := Prod.mk.inj (Except.ok.inj h)
        exact ⟨canonical, hgate, (merge_isOk hgate).mp ⟨_, hmerge⟩⟩

lemma combine_isOk (h : Combinable py canonical tally.survivors) :
    ∃ out, combine py tally = .ok out := by
  obtain ⟨gate, hgate⟩ := schemaGate_isOk h.heaviest h.judged
  obtain ⟨⟨bytes, info⟩, hmerge⟩ := (merge_isOk hgate).mpr h
  obtain ⟨v, rest, hsort, -⟩ := h.heaviest
  have hsome : ¬tally.survivors.isEmpty = true := by
    intro hempty
    rw [List.isEmpty_iff.mp hempty] at hsort
    cases hsort
  use (gate, bytes, info)
  rw [combine, if_neg hsome, hgate]
  dsimp only
  rw [hmerge]
  by_cases hex : gate.excludedSchema = []
  · rw [if_pos hex]
  · obtain ⟨shown, hshown⟩ := describeSchema_isOk.mpr
      ((schemaGate_eq_ok hgate).2.2.2.resolve_left hex)
    rw [if_neg hex, hshown]

lemma traced_iff :
    (∃ canonical, Traced py canonical tally.survivors) ↔
      excludes py tally = true ∨ ∃ out, combine py tally = .ok out := by
  constructor
  · rintro ⟨canonical, h⟩
    rcases h.entered with hunfit | hmerge
    · obtain ⟨gate, hgate⟩ := schemaGate_isOk h.heaviest h.judged
      apply Or.inl
      simp only [excludes, hgate, decide_eq_true_eq]
      exact (schemaGate_excluded hgate).mpr hunfit
    · exact Or.inr (combine_isOk ⟨h.heaviest, h.judged, hmerge⟩)
  · rintro (hexcludes | ⟨⟨gate, bytes, info⟩, hout⟩)
    · cases hgate : schemaGate py tally with
      | error e =>
        simp only [excludes, hgate] at hexcludes
        cases hexcludes
      | ok cg =>
        obtain ⟨canonical, gate⟩ := cg
        obtain ⟨hheaviest, hjudged, -, -⟩ := schemaGate_eq_ok hgate
        simp only [excludes, hgate, decide_eq_true_eq] at hexcludes
        exact ⟨canonical, hheaviest, hjudged, Or.inl ((schemaGate_excluded hgate).mp hexcludes)⟩
    · obtain ⟨canonical, -, hcombines⟩ := combine_gate hout
      exact ⟨canonical, hcombines.heaviest, hcombines.judged, Or.inr hcombines.mergeable⟩

end Gate

section Aggregate

variable {app : App} {user : Option FLUser} {roundId : ℤ} {env : AggregateEnv} {w : World}

lemma Scored.audit {tm : TrustManager} {env : ScoreEnv} {i : ℕ} {cs : List Store.AcceptedModel}
    {w t : World} {tally : Tally} (h : Scored app tm roundId env i cs w tally t) :
    t.audit = w.audit := by
  induction h with
  | nil i w => rfl
  | missing i c cs w t tally hfile tail ih => exact ih
  | scored i c cs w t tally mb hfile ev s hev tail ih => exact ih

lemma audited_of_trustOnly {s t : Store} (h : TrustOnly s t) :
    t.audited = s.audited ↔
      ∀ x, (t.reputation x).map (·.trust) = (s.reputation x).map (·.trust) := by
  constructor
  · intro heq x
    rw [Store.trust_eq_audited, Store.trust_eq_audited, heq]
  · intro htrust
    have horgs : t.audited.orgs = s.audited.orgs := by
      funext x
      have hcore := h.orgs x
      have hx := htrust x
      simp only [Store.reputation, Option.map_map] at hx
      simp only [Store.audited]
      cases ht : t.getOrg x with
      | none =>
        cases hs : s.getOrg x with
        | none => rfl
        | some r =>
          rw [ht, hs] at hcore
          cases hcore
      | some r' =>
        cases hs : s.getOrg x with
        | none =>
          rw [ht, hs] at hcore
          cases hcore
        | some r =>
          rw [ht, hs] at hcore hx
          have hscore : r'.trustScore = r.trustScore := Option.some.inj hx
          simp only [Option.map_some, Option.some.inj hcore, hscore]
    unfold Store.audited at horgs ⊢
    rw [Audited.mk.injEq]
    exact ⟨horgs, h.tokens, h.rounds, h.contributions, h.globalModels⟩

lemma aggregateRound_recorded_iff :
    Recorded w (aggregateRound app user roundId env w).2 ↔
      ∀ settings, app.trust = some settings → Due user roundId env w →
        ScoresKept app settings roundId env w ∨
          ∃ canonical, Traced app.python canonical (trustedIn app roundId env w) := by
  have hrun := aggregateRound_run app user roundId env w
  generalize (aggregateRound app user roundId env w).1 = res at hrun
  generalize (aggregateRound app user roundId env w).2 = t at hrun ⊢
  cases hrun with
  | refused e check =>
    refine ⟨fun _ settings htrust hdue => ?_, fun _ => .refl w⟩
    obtain ⟨u, r, hok⟩ := dueRound_of_due hdue htrust
    rw [check] at hok
    cases hok
  | empty u r settings check none =>
    refine ⟨fun _ settings htrust hdue => Or.inl ?_, fun _ => .refl w⟩
    intro x
    rw [none]
    rfl
  | failed u r settings check some tally v t scored e combined left =>
    obtain ⟨hdue, -, htrust⟩ := due_of_dueRound check
    have hkept : t.store.audited = w.store.audited ↔ ScoresKept app settings roundId env w := by
      rw [left.store, audited_of_trustOnly scored.frame.1, scored.onReputations.1]
      rfl
    have hextended : w.audit.Extended t.audit ↔
        ∃ canonical, Traced app.python canonical (trustedIn app roundId env w) := by
      rw [← trustedIn_eq htrust scored, traced_iff]
      have haudit := left.audit
      rw [scored.audit] at haudit
      constructor
      · intro hext
        apply Or.inl
        by_contra hno
        rw [if_neg hno] at haudit
        exact hext.ne haudit
      · rintro (hex | ⟨out, hout⟩)
        · rwa [if_pos hex] at haudit
        · rw [combined] at hout
          cases hout
    constructor
    · intro h settings' htrust' _
      rw [htrust] at htrust'
      cases htrust'
      exact h.imp hkept.mp hextended.mp
    · intro h
      exact (h settings htrust hdue).imp hkept.mpr hextended.mpr
  | staged u r settings check some tally v t scored gate bytes info combined resp done =>
    obtain ⟨hdue, -, htrust⟩ := due_of_dueRound check
    constructor
    · intro _ settings' _ _
      apply Or.inr
      rw [← trustedIn_eq htrust scored, traced_iff]
      exact Or.inr ⟨_, combined⟩
    · intro _
      apply Or.inr
      have haudit := done.audit
      rwa [scored.audit] at haudit

end Aggregate

/-! ### Redemptions -/

section Redeem

variable {app : App} {body : EnrollWithTokenRequest} {env : RedeemEnv} {w : World}
  {jti : Option String} {s : Store} {p : PresentedToken}

/-- Nothing fails once the token is consumed: the org is free, the payload has a name that can be
stored and certified, and the presented X25519 key gives a shared secret. -/
structure Finishes (app : App) (body : EnrollWithTokenRequest) (env : RedeemEnv) (w : World)
    (p : PresentedToken) : Prop where
  free : w.store.enrollConflict body.orgId = none
  named : ∃ v name cert, p.payload.item "display_name" = .ok v ∧
    app.host.bindText v = .ok (some name) ∧
    issueClientCert app.host p.caPriv p.caCert p.edPub body.orgId v env.enroll.serial
      env.enroll.issuedAt = .ok cert
  shared : ∃ recip secret, x25519PublicFromPem app.host (encode body.x25519PubPem) = .ok recip ∧
    app.host.x25519Exchange env.ephPriv recip = .ok secret

lemma sealPackage_isOk {host : Host} {pem : String} {plaintext ephPriv : Bytes} :
    (∃ text, sealPackage host pem plaintext ephPriv = .ok text) ↔
      ∃ recip secret, x25519PublicFromPem host (encode pem) = .ok recip ∧
        host.x25519Exchange ephPriv recip = .ok secret := by
  unfold sealPackage
  cases hpub : x25519PublicFromPem host (encode pem) with
  | error e =>
    constructor
    · rintro ⟨text, h⟩
      cases h
    · rintro ⟨recip, secret, h, -⟩
      cases h
  | ok recip =>
    constructor
    · rintro ⟨text, h⟩
      cases hex : host.x25519Exchange ephPriv recip with
      | error e =>
        simp only [hex] at h
        cases h
      | ok secret => exact ⟨recip, secret, rfl, hex⟩
    · rintro ⟨recip', secret, hrecip, hex⟩
      obtain rfl := Except.ok.inj hrecip
      simp only [hex]
      exact ⟨_, rfl⟩

lemma Redeemed.audited_ne (h : Redeemed body.orgId env.consumedAt jti w.store s) {t : Store}
    (ht : t.tokens = s.tokens) : t.audited ≠ w.store.audited := by
  obtain ⟨row, -, hrow, -, hfresh, -, rfl⟩ := Store.consumeEnrollToken_ok h.consumed
  intro heq
  have hget := congrArg (fun a => (a.tokens.get? row.jti).map (·.consumed)) heq
  simp only [Store.audited, ht, Store.get?_consumeTokenRow, if_true, hrow, Option.map_some,
    hfresh] at hget
  cases hget

lemma Redeemed.enrollConflict (h : Redeemed body.orgId env.consumedAt jti w.store s) (x : String) :
    s.enrollConflict x = w.store.enrollConflict x := by
  obtain ⟨row, -, -, -, -, -, rfl⟩ := Store.consumeEnrollToken_ok h.consumed
  rfl

lemma enrollWithToken_unredeemed
    (hno : ∀ p s, Presents app body p → ¬Redeemed body.orgId env.consumedAt p.jtiText w.store s) :
    (enrollWithToken app body env).wp (fun _ t => t = w) w := by
  apply wp_enrollWithToken (fun _ => rfl)
  intro p hp
  unfold redeemChecked
  apply wp_insert_bind
  cases hcons : w.store.consumeEnrollToken p.jtiText body.orgId env.consumedAt with
  | mk err s =>
    apply wp_ensure_bind
    · intro herr
      change w.setStore s = w
      rw [Store.consumeEnrollToken_refused hcons herr]
      rfl
    · intro herr
      change err = none at herr
      subst herr
      exact absurd ⟨hcons⟩ (hno p s hp)

lemma enrollWithToken_finishing (hp : Presents app body p)
    (hred : Redeemed body.orgId env.consumedAt p.jtiText w.store s)
    (hdone : Finishes app body env w p) :
    (enrollWithToken app body env).wp (fun r t => (∃ resp, r = .ok resp) ∧ Recorded w t) w := by
  obtain ⟨v, name, cert, hname, htext, hcert⟩ := hdone.named
  obtain ⟨text, hsealed⟩ := sealPackage_isOk.mpr hdone.shared
  apply wp_enrollWithToken_of hp
  unfold redeemChecked
  apply wp_insert_bind
  rw [hred.consumed]
  apply wp_ensure_bind_of rfl
  apply wp_attempt_bind_of hname
  apply wp_attempt_bind_of hcert
  apply wp_query_bind
  apply wp_ensure_bind_of ((hred.enrollConflict body.orgId).trans hdone.free)
  apply wp_attempt_bind_of htext
  apply wp_orRaise_bind_of rfl
  apply wp_execute_bind
  apply wp_attempt_bind_of hsealed
  apply wp_log_bind
  refine ⟨⟨_, rfl⟩, ?_⟩
  apply Recorded.logged
  rfl

/-- Any other redemption fails after it has consumed the token, and logs nothing. -/
lemma enrollWithToken_stopping (hp : Presents app body p)
    (hred : Redeemed body.orgId env.consumedAt p.jtiText w.store s)
    (hno : ¬Finishes app body env w p) :
    (enrollWithToken app body env).wp
      (fun r t => (∃ e, r = .error e) ∧ t.store.tokens = s.tokens ∧ t.audit = w.audit) w := by
  have hburnt : ∀ e : Failure,
      (∃ d, (Except.error e : Except Failure RedeemResponse) = .error d) ∧
        (w.setStore s).store.tokens = s.tokens ∧ (w.setStore s).audit = w.audit :=
    fun e => ⟨⟨e, rfl⟩, rfl, rfl⟩
  apply wp_enrollWithToken_of hp
  unfold redeemChecked
  apply wp_insert_bind
  rw [hred.consumed]
  apply wp_ensure_bind_of rfl
  apply wp_attempt_bind (fun _ _ => hburnt _)
  intro v hname
  apply wp_attempt_bind (fun _ _ => hburnt _)
  intro cert hcert
  apply wp_query_bind
  apply wp_ensure_bind (fun _ => hburnt _)
  intro hfree
  apply wp_attempt_bind (fun _ _ => hburnt _)
  intro nameText htext
  apply wp_orRaise_bind (fun _ => hburnt _)
  intro name hsome
  subst hsome
  apply wp_execute_bind
  apply wp_attempt_bind
  · intro e _
    exact ⟨⟨_, rfl⟩, rfl, rfl⟩
  · intro text hsealed
    exact absurd
      { free := (hred.enrollConflict body.orgId).symm.trans hfree
        named := ⟨v, name, cert, hname, htext, hcert⟩
        shared := sealPackage_isOk.mp ⟨text, hsealed⟩ } hno

lemma enrollWithToken_recorded
    (hfinish : ∀ p s, Presents app body p →
      Redeemed body.orgId env.consumedAt p.jtiText w.store s → Finishes app body env w p) :
    (enrollWithToken app body env).wp (fun _ t => Recorded w t) w := by
  by_cases hsome : ∃ p s, Presents app body p ∧
      Redeemed body.orgId env.consumedAt p.jtiText w.store s
  · obtain ⟨p, s, hp, hred⟩ := hsome
    apply wp_mono (enrollWithToken_finishing hp hred (hfinish p s hp hred))
    intro r t h
    exact h.2
  · apply wp_mono (enrollWithToken_unredeemed fun p s hp hred => hsome ⟨p, s, hp, hred⟩)
    rintro r t rfl
    exact .refl t

lemma enrollWithToken_finishes (hp : Presents app body p)
    (hred : Redeemed body.orgId env.consumedAt p.jtiText w.store s) :
    (enrollWithToken app body env).wp
      (fun _ t => Finishes app body env w p ∨ ¬Recorded w t) w := by
  by_cases hdone : Finishes app body env w p
  · exact Or.inl hdone
  · apply wp_mono (enrollWithToken_stopping hp hred hdone)
    rintro r t ⟨-, htokens, haudit⟩
    apply Or.inr
    rintro (heq | hext)
    · exact hred.audited_ne htokens heq
    · exact hext.ne haudit

end Redeem

/-! ### Runs -/

section Runs

variable (app : App)

/-- The event, if it is an aggregation or a redemption, does not fail between its first write and
its entry. -/
def Completes (w : World) : Event → Prop
  | .aggregate user roundId env => ∀ settings, app.trust = some settings →
      Due user roundId env w → ScoresKept app settings roundId env w ∨
        ∃ canonical, Traced app.python canonical (trustedIn app roundId env w)
  | .redeemToken body env => ∀ p s, Presents app body p →
      Redeemed body.orgId env.consumedAt p.jtiText w.store s → Finishes app body env w p
  | _ => True

/-- Which steps are recorded. -/
theorem records_iff (s : Sys) (e : Event) : Records app s e ↔ Completes app s.world e := by
  cases e with
  | redeemToken body env =>
    constructor
    · intro h p t hp hred
      exact (enrollWithToken_finishes hp hred).resolve_right (not_not_intro h)
    · exact enrollWithToken_recorded
  | aggregate user roundId env => exact aggregateRound_recorded_iff
  | enroll user body env => exact iff_of_true (enrollOrg_recorded user body env) trivial
  | mintToken user body env => exact iff_of_true (mintEnrollToken_recorded user body env) trivial
  | block user orgId t => exact iff_of_true (blockOrg_recorded user orgId t) trivial
  | unblock user orgId t => exact iff_of_true (unblockOrg_recorded user orgId t) trivial
  | revoke user orgId crl t => exact iff_of_true (revokeOrg_recorded crl user orgId t) trivial
  | leaveRequest req orgId body env =>
    exact iff_of_true (orgLeaveRequest_recorded req orgId body env) trivial
  | approveRemoval user orgId env =>
    exact iff_of_true (approveRemoval_recorded user orgId env) trivial
  | startRound user body env => exact iff_of_true (startRound_recorded user body env) trivial
  | challenge req roundId env =>
    exact iff_of_true (issueRoundChallenge_recorded req roundId env) trivial
  | contribute c =>
    apply iff_of_true _ trivial
    rw [Records, next_contribute_world]
    exact .refl s.world
  | resume i env =>
    apply iff_of_true _ trivial
    simp only [Records, next]
    cases s.inFlight[i]? with
    | none => exact .refl s.world
    | some p => exact contributeFinish_recorded p env
  | publish user roundId env =>
    exact iff_of_true (publishRoundModel_recorded user roundId env) trivial
  | rollback user versionId env =>
    exact iff_of_true (rollbackGlobalModel_recorded user versionId env) trivial

/-- In a run, every change is recorded when no aggregation and no redemption stops half way. -/
theorem audit_complete_iff (es : List Event) :
    (∀ p ∈ steps app es, Records app p.1 p.2) ↔
      ∀ p ∈ steps app es, Completes app p.1.world p.2 :=
  forall₂_congr fun p _ => records_iff app p.1 p.2

lemma recorded_of_records {app : App} (h : ∀ es, ∀ p ∈ steps app es, Records app p.1 p.2)
    (pre : List Event) (e : Event) :
    Recorded (after app pre).world (after app (pre ++ [e])).world := by
  rw [after_concat]
  exact h (pre ++ [e]) (after app pre, e) ((mem_visits _).mpr ⟨pre, [], rfl, rfl⟩)

end Runs

/-- Two uploads that cannot be scored, and the call that scores them. -/
def refusedOnce : List Event := twoUploads ++ [Sample.aggregate (fun _ => .unscored "labels")]

/-- A call that rejects everything lowers the trust of both orgs and logs nothing. -/
theorem lowered_trust_unaudited :
    ¬∀ es, ∀ p ∈ steps Sample.app es, Records Sample.app p.1 p.2 := by
  intro h
  have hstep : Recorded (after Sample.app twoUploads).world (after Sample.app refusedOnce).world :=
    recorded_of_records h twoUploads _
  have hlower : ((after Sample.app refusedOnce).world.store.reputation "x").map (·.trust) ≠
      ((after Sample.app twoUploads).world.store.reputation "x").map (·.trust) := by
    decide +kernel
  have hlength : (after Sample.app refusedOnce).world.audit.rows.length =
      (after Sample.app twoUploads).world.audit.rows.length := by decide +kernel
  rcases hstep.trust_or_length "x" with heq | hlt
  · exact hlower heq
  · omega

end FlCoordinator
