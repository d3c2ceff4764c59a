import FlCoordinator.Credentials
import FlCoordinator.GlobalModels
import FlCoordinator.Scoring

/-!
# The standing of an org

An org starts with full trust when it is enrolled, and an aggregation assesses its contributions.
Nothing else touches its reputation, so that every run of the coordinator is, for each org, a run
of the small machine of `Occasion`. What `trust.py` promises is proved of that machine.
-/

namespace FlCoordinator

open Lib

/-! ### The machine of one org -/

/-- What happens to the reputation of an org. -/
inductive Occasion
  | enrolled
  | assessed (judgement : Judgement) (numExamples : ℤ)

def Occasion.next (tm : TrustManager) (o : Occasion) (p : Option Reputation) : Option Reputation :=
  match o with
  | .enrolled => some .unknown
  | .assessed judgement n => p.map (fun q => (tm.assess q judgement n).2)

section Machine

variable {tm : TrustManager}

def Occasion.isAssessed : Occasion → Bool
  | .enrolled => false
  | .assessed _ _ => true

/-- How often an org was assessed since its latest enrollment. -/
def assessments (os : List Occasion) : ℕ := (os.reverse.takeWhile Occasion.isAssessed).length

lemma assessments_append_enrolled (os : List Occasion) : assessments (os ++ [.enrolled]) = 0 := by
  simp [assessments, Occasion.isAssessed]

lemma assessments_append_assessed (os : List Occasion) (judgement : Judgement) (n : ℤ) :
    assessments (os ++ [.assessed judgement n]) = assessments os + 1 := by
  rw [assessments, assessments, List.reverse_append, List.reverse_singleton, List.singleton_append,
    List.takeWhile_cons_of_pos (by rfl), List.length_cons]

/-- A reputation in its range, from which `k` assessments took a fifth each at most, but for
rounding. -/
structure Fair (k : ℕ) (p : Reputation) : Prop where
  least : 1 / 10 - 1 / 2 ^ 50 ≤ p.trust
  most : p.trust ≤ 1
  spent : 1 - k * (1 / 5 + 1 / 2 ^ 51) ≤ p.trust

lemma fair_assess (hmin : 3 / 10 - 1 / 2 ^ 52 ≤ tm.minTrust) {k : ℕ} {p : Reputation}
    (h : Fair k p) (judgement : Judgement) (n : ℤ) : Fair (k + 1) (tm.assess p judgement n).2 := by
  have hfloor : 1 / 4 ≤ tm.minTrust := by linarith
  have hmoved := TrustManager.moved_assess tm.roundsWithin hfloor h.most ⟨judgement, n, 0⟩
  have hleast := h.least
  have hmost := h.most
  have hspent := h.spent
  have hk : ((k + 1 : ℕ) : ℚ) = k + 1 := by push_cast; rfl
  cases hmoved with
  | blocked low rejected weight kept =>
    constructor
    · linarith
    · linarith
    · rw [hk]
      linarith
  | penalised enough rejected weight above below =>
    constructor
    · linarith
    · linarith
    · rw [hk]
      linarith
  | accepted enough taken weight above below most =>
    constructor
    · linarith
    · exact most
    · rw [hk]
      linarith

/-- Whatever happened to an org that was ever enrolled, its reputation is fair. -/
lemma fair_run (hmin : 3 / 10 - 1 / 2 ^ 52 ≤ tm.minTrust) (os : List Occasion) {p : Reputation}
    (h : Lib.run (Occasion.next tm) none os = some p) : Fair (assessments os) p := by
  induction os using List.reverseRecOn generalizing p with
  | nil => cases h
  | append_singleton os o ih =>
    rw [run_append, run_cons, run_nil] at h
    cases o with
    | enrolled =>
      rw [assessments_append_enrolled, ← Option.some.inj h]
      constructor
      · norm_num [Reputation.unknown]
      · norm_num [Reputation.unknown]
      · norm_num [Reputation.unknown]
    | assessed judgement n =>
      obtain ⟨q, hq, rfl⟩ := Option.map_eq_some_iff.mp h
      rw [assessments_append_assessed]
      exact fair_assess hmin (ih hq) judgement n

lemma assess_of_low {p : Reputation} (h : p.trust < tm.minTrust) (judgement : Judgement) (n : ℤ) :
    (tm.assess p judgement n).1.accepted = false ∧ (tm.assess p judgement n).2 = p := by
  have hverdict : tm.verdict p judgement = .blocked := by
    unfold TrustManager.verdict
    rw [if_pos h]
  rw [TrustManager.assess, hverdict]
  exact ⟨rfl, rfl⟩

end Machine

/-! ### The coordinator moves orgs as the machine does -/

section Refinement

variable {app : App} {s : Sys} {x : String}

/-- The assessments of the org in a scoring from position `i` on. -/
def assessmentsOf (x : String) (env : ScoreEnv) (files : String → Option Bytes) :
    ℕ → List Store.AcceptedModel → List Occasion
  | _, [] => []
  | i, c :: cs =>
    match files c.modelPath with
    | none => assessmentsOf x env files (i + 1) cs
    | some mb =>
      if c.orgId = x then
        .assessed (env.judge i mb) c.numExamples :: assessmentsOf x env files (i + 1) cs
      else assessmentsOf x env files (i + 1) cs

/-- What an event is to the org `x`, in the state that it finds. -/
inductive Gives (app : App) (x : String) : Sys × Event → List Occasion → Prop
  | enrolled (s : Sys) (e : Event) (env : EnrollEnv) (enrolls : Enrolls app s e x env) :
      Gives app x (s, e) [.enrolled]
  | scored (s : Sys) (user : Option FLUser) (roundId : ℤ) (env : AggregateEnv)
      (due : Due user roundId env s.world) :
      Gives app x (s, .aggregate user roundId env)
        (assessmentsOf x env.score s.world.files 0 (s.world.store.getAcceptedModels roundId))
  | nothing (s : Sys) (e : Event) (stays : ∀ env, ¬Enrolls app s e x env)
      (spared : ∀ user roundId env, e = .aggregate user roundId env →
        ¬Due user roundId env s.world) :
      Gives app x (s, e) []

/-- A scoring loop is a run of the machine. -/
lemma rescore_run {tm : TrustManager} {env : ScoreEnv} {files : String → Option Bytes} (i : ℕ)
    (cs : List Store.AcceptedModel) (ρ : Reputations) :
    rescore tm env files i cs ρ x =
      Lib.run (Occasion.next tm) (ρ x) (assessmentsOf x env files i cs) := by
  induction cs generalizing i ρ with
  | nil => rfl
  | cons c cs ih =>
    rw [rescore, assessmentsOf]
    cases files c.modelPath with
    | none => exact ih (i + 1) ρ
    | some mb =>
      refine (ih (i + 1) (reassess tm (env.judge i mb) c ρ)).trans ?_
      by_cases hx : c.orgId = x
      · rw [reassess, if_pos hx]
        simp only [if_pos hx, run_cons]
        rfl
      · rw [reassess_of_ne hx]
        simp only [if_neg hx]

lemma reputation_of_enrolled {e : Event} {w : Store} {t : World} {y pem : String} {env : EnrollEnv}
    (hrep : w.reputation x = s.world.store.reputation x)
    (hfree : w.enrollConflict y = s.world.store.enrollConflict y)
    (ht : (next app e s).world = t) (he : e.enrollment = some (y, pem, env))
    (h : Enrolled app y pem env w t.store) :
    t.store.reputation x = s.world.store.reputation x ∨
      (∃ env, Enrolls app s e x env) ∧ t.store.reputation x = some .unknown := by
  obtain ⟨en, hen, hstore⟩ := h.row
  have hget : t.store.getOrg x =
      if en.orgId = x then some (en.row env.enrolledAt) else w.getOrg x := by
    rw [hstore, Store.getOrg_insertOrg]
  by_cases hx : en.orgId = x
  · have hy : y = x := hen.org.symm.trans hx
    subst hy
    rw [if_pos hx] at hget
    right
    constructor
    · refine ⟨env, Store.enrollConflict_eq_none.mp (hfree.symm.trans h.free), pem, en, he, hen, ?_⟩
      rw [ht]
      exact hget
    · rw [Store.reputation, hget]
      rfl
  · rw [if_neg hx] at hget
    left
    rw [← hrep, Store.reputation, hget]
    rfl

lemma reputation_of_mapped {w t : Store} {y : String} {f : OrgRow → OrgRow}
    (hf : ∀ r, (f r).reputation = r.reputation)
    (h : t.getOrg x = if y = x then (w.getOrg x).map f else w.getOrg x) :
    t.reputation x = w.reputation x := by
  rw [Store.reputation, h]
  split
  · rw [Option.map_map]
    congr 1
    funext r
    exact hf r
  · rfl

lemma reputation_of_statusSet {permission : String} {st : OrgStatus} {user : Option FLUser}
    {w t : World} {y : String} (h : StatusSet permission st user y w t) :
    t.store.reputation x = w.store.reputation x := by
  apply reputation_of_mapped (y := y) (f := fun r => { r with status := st }) (fun _ => rfl)
  rw [h.store, Store.getOrg_setOrgStatus]

lemma reputation_next {e : Event} (hagg : ∀ user k env, e ≠ .aggregate user k env) :
    (next app e s).world.store.reputation x = s.world.store.reputation x ∨
      (∃ env, Enrolls app s e x env) ∧
        (next app e s).world.store.reputation x = some .unknown := by
  have heffect := next_effect app s e
  generalize ht : (next app e s).world = t at heffect ⊢
  have horgs : t.store.orgs = s.world.store.orgs →
      t.store.reputation x = s.world.store.reputation x := by
    intro h
    rw [Store.reputation, Store.getOrg, h]
    rfl
  cases heffect with
  | idle store crl => exact Or.inl (by rw [store])
  | enroll done crl => exact reputation_of_enrolled rfl rfl ht rfl done
  | mint done crl =>
    obtain ⟨tokens, h, -⟩ := Store.createEnrollToken_ok done.created
    exact Or.inl (horgs (by rw [h]))
  | burnToken jti redeemed crl =>
    obtain ⟨row, -, -, -, -, -, h⟩ := Store.consumeEnrollToken_ok redeemed.consumed
    exact Or.inl (horgs (by rw [h]; rfl))
  | redeem jti mid redeemed done crl =>
    obtain ⟨row, -, -, -, -, -, hmid⟩ := Store.consumeEnrollToken_ok redeemed.consumed
    subst hmid
    exact reputation_of_enrolled (w := s.world.store.consumeTokenRow row.jti _) rfl rfl ht rfl done
  | block done crl => exact Or.inl (reputation_of_statusSet done)
  | unblock done crl => exact Or.inl (reputation_of_statusSet done)
  | revoke done rebuilt => exact Or.inl (reputation_of_statusSet done)
  | @leave req orgId body env t caller done crl =>
    left
    apply reputation_of_mapped (y := orgId)
      (f := fun r => r.leaving (encode body.attestation) body.signature env.requestedAt)
      (fun _ => rfl)
    rw [done.store, getOrg_setLeaveRequest]
  | @remove user orgId env t done =>
    left
    obtain ⟨coordPriv, -, h⟩ := done.store
    apply reputation_of_mapped (y := orgId)
      (f := fun r => r.removed (buildRemovalConfirmAttestation orgId env.revokedAt)
        (toHex (sign app.host coordPriv (buildRemovalConfirmAttestation orgId env.revokedAt))))
      (fun _ => rfl)
    rw [h, getOrg_removedStore]
  | start done crl =>
    obtain ⟨username, h⟩ := done.store
    obtain ⟨rounds, hopen, -⟩ := Store.openRound_eq s.world.store _ username _ _ _
    exact Or.inl (horgs (by rw [h, hopen]))
  | challenge done crl =>
    obtain ⟨orgId, -, -, h⟩ := done.caller
    obtain ⟨challenges, h, -⟩ := Store.issueChallenge_ok h
    exact Or.inl (horgs (by rw [h]))
  | finish p r pending outcome =>
    left
    apply horgs
    cases outcome with
    | refused e no => rfl
    | burned e t no challenge consumes store files crl => rw [store]; rfl
    | rejected e t no challenge n consumes store files crl => rw [store]; rfl
    | accepted resp t chal n evidence store files crl => rw [store]; rfl
  | score trust crl => exact absurd rfl (hagg _ _ _)
  | aggregate resp done => exact absurd rfl (hagg _ _ _)
  | publish done crl =>
    obtain ⟨g, username, -, -, h⟩ := done.staged
    obtain ⟨versions, hprom⟩ := Store.promoteGlobalModel_frame s.world.store _ g.versionId username
    exact Or.inl (horgs (by rw [h, hprom]; rfl))
  | rollback done crl =>
    obtain ⟨g, username, -, -, h⟩ := done.target
    obtain ⟨versions, hprom⟩ := Store.promoteGlobalModel_frame s.world.store _ _ username
    exact Or.inl (horgs (by rw [h, hprom]))

lemma reputation_of_enrolls {e : Event} {env : EnrollEnv} (h : Enrolls app s e x env) :
    (next app e s).world.store.reputation x = some .unknown := by
  obtain ⟨pem, en, -, -, hrow⟩ := h.row
  rw [Store.reputation, hrow]
  rfl

lemma not_enrolls_aggregate (user : Option FLUser) (k : ℤ) (env : AggregateEnv) (en : EnrollEnv) :
    ¬Enrolls app s (.aggregate user k env) x en := by
  intro h
  obtain ⟨pem, row, hevent, -⟩ := h.row
  cases hevent

/-- Each event moves the reputation of the org as what it gives moves the machine. -/
lemma gives_next {settings : TrustSettings} (htrust : app.trust = some settings) (s : Sys)
    (e : Event) : ∃ os, Gives app x (s, e) os ∧ (next app e s).world.store.reputation x =
      Lib.run (Occasion.next (app.trustManager settings)) (s.world.store.reputation x) os := by
  by_cases hagg : ∀ user k env, e ≠ .aggregate user k env
  · by_cases henrolls : ∃ env, Enrolls app s e x env
    · obtain ⟨env, henrolls⟩ := henrolls
      exact ⟨[.enrolled], .enrolled s e env henrolls, reputation_of_enrolls henrolls⟩
    · refine ⟨[], .nothing s e (fun env h => henrolls ⟨env, h⟩)
        (fun user k env he => absurd he (hagg user k env)), ?_⟩
      exact (reputation_next hagg).resolve_right fun h => henrolls h.1
  · push Not at hagg
    obtain ⟨user, k, env, rfl⟩ := hagg
    obtain ⟨hscored, hkept⟩ := reputation_aggregateRound app user k env s.world
    have hworld : (next app (.aggregate user k env) s).world =
        (aggregateRound app user k env s.world).2 := rfl
    rw [hworld]
    by_cases hdue : Due user k env s.world
    · refine ⟨_, .scored s user k env hdue, ?_⟩
      rw [hscored settings htrust hdue]
      exact rescore_run 0 _ _
    · refine ⟨[], .nothing s _ (not_enrolls_aggregate user k env) ?_, ?_⟩
      · rintro _ _ _ ⟨⟩
        exact hdue
      · rw [hkept (Or.inr hdue)]
        rfl

/-- In every run, each org is moved as the machine moves it, by its enrollments and the assessments
of its contributions and by nothing else. Its trust stays between a tenth, but for rounding, and
one, and is below the minimum after four assessments since its latest enrollment at the earliest. -/
theorem standing_refines {settings : TrustSettings} (htrust : app.trust = some settings)
    (es : List Event) (x : String) :
    ∃ oss, List.Forall₂ (Gives app x) (visits (next app) (init app) es) oss ∧
      (after app es).world.store.reputation x =
        Lib.run (Occasion.next (app.trustManager settings)) none oss.flatten ∧
      ∀ p, (after app es).world.store.reputation x = some p →
        1 / 10 - 1 / 2 ^ 50 ≤ p.trust ∧ p.trust ≤ 1 ∧
          (p.trust < (app.trustManager settings).minTrust → 4 ≤ assessments oss.flatten) := by
  have hstep : ∀ s p e, s.world.store.reputation x = p → ∃ os, Gives app x (s, e) os ∧
      (next app e s).world.store.reputation x =
        Lib.run (Occasion.next (app.trustManager settings)) p os := by
    rintro s p e rfl
    exact gives_next htrust s e
  have h0 : (init app).world.store.reputation x = none := by
    simp [init, Store.empty, Store.reputation, Store.getOrg]
  obtain ⟨oss, hoss, hrun⟩ := run_simulation (next app) (Occasion.next (app.trustManager settings))
    (R := fun s p => s.world.store.reputation x = p) (M := Gives app x) hstep h0 es
  refine ⟨oss, hoss, hrun, ?_⟩
  intro p hp
  obtain ⟨hbelow, habove⟩ := (app.trustManager settings).roundsWithin.bounds (q := 3 / 10)
    (by norm_num) (by norm_num)
  have hfair := fair_run hbelow oss.flatten (hrun.symm.trans hp)
  refine ⟨hfair.least, hfair.most, ?_⟩
  intro hlow
  have hspent := hfair.spent
  by_contra hfew
  have hthree : (assessments oss.flatten : ℚ) ≤ 3 := by
    exact_mod_cast Nat.le_of_lt_succ (not_le.mp hfew)
  have hmin : p.trust < 3 / 10 + 1 / 2 ^ 52 := hlow.trans_le habove
  linarith

/-- The upload of an org is assessed four times, and cannot be loaded. -/
def Sample.fourFailures : List Event :=
  Sample.certifiedUpload ++ List.replicate 4 (Sample.aggregate (fun _ => .unloadable "json"))

/-- What four penalties of a fifth leave of a trust of one, in doubles. -/
def Sample.spent : Reputation := ⟨Sample.app.python.round (20000000000000007 / 10 ^ 17), none⟩

lemma Sample.reputation_fourFailures :
    (after Sample.app Sample.fourFailures).world.store.reputation "x" = some Sample.spent := by
  decide +kernel

theorem standing_refines_fourFailures :
    ∃ oss, List.Forall₂ (Gives Sample.app "x")
      (visits (next Sample.app) (init Sample.app) Sample.fourFailures) oss ∧
      4 ≤ assessments oss.flatten := by
  have htrust : Sample.app.trust = some { validationData := true, maxNumExamples := 1000000 } := rfl
  obtain ⟨oss, hoss, -, hfair⟩ := standing_refines htrust Sample.fourFailures "x"
  obtain ⟨-, -, hmany⟩ := hfair _ Sample.reputation_fourFailures
  exact ⟨oss, hoss, hmany (by decide +kernel)⟩

end Refinement

/-! ### Locked out -/

section Lockout

variable {app : App} {x : String}

section Scoring

variable {tm : TrustManager} {env : ScoreEnv} {files : String → Option Bytes} {p : Reputation}

lemma reassess_of_low (hlow : p.trust < tm.minTrust) {c : Store.AcceptedModel} {ρ : Reputations}
    (hp : ρ x = some p) (judgement : Judgement) : reassess tm judgement c ρ x = some p := by
  by_cases hx : c.orgId = x
  · rw [reassess, if_pos hx, hp, Option.map_some, (assess_of_low hlow judgement c.numExamples).2]
  · rw [reassess_of_ne hx]
    exact hp

lemma rescore_of_low (hlow : p.trust < tm.minTrust) (i : ℕ) (cs : List Store.AcceptedModel)
    (ρ : Reputations) (hp : ρ x = some p) : rescore tm env files i cs ρ x = some p := by
  induction cs generalizing i ρ with
  | nil => exact hp
  | cons c cs ih =>
    rw [rescore]
    cases files c.modelPath with
    | none => exact ih (i + 1) ρ hp
    | some mb => exact ih (i + 1) _ (reassess_of_low hlow hp _)

lemma notMem_survivors_of_low (hlow : p.trust < tm.minTrust) (k : ℤ) (i : ℕ)
    (cs : List Store.AcceptedModel) (ρ : Reputations) (hp : ρ x = some p) :
    x ∉ (tallyUp tm env files app k i cs ρ).survivors.map (·.orgId) := by
  induction cs generalizing i ρ with
  | nil => exact List.not_mem_nil
  | cons c cs ih =>
    rw [tallyUp]
    cases files c.modelPath with
    | none => exact ih (i + 1) ρ hp
    | some mb =>
      have htail := ih (i + 1) (reassess tm (env.judge i mb) c ρ) (reassess_of_low hlow hp _)
      dsimp only
      split
      · rename_i hacc
        rw [List.map_cons, List.mem_cons, not_or]
        refine ⟨?_, htail⟩
        rintro rfl
        rw [hp, Option.getD_some, (assess_of_low hlow _ _).1] at hacc
        cases hacc
      · exact htail

end Scoring

lemma low_next {s : Sys} {e : Event} {p : Reputation}
    (hlow : p.trust < app.python.round (3 / 10))
    (hp : s.world.store.reputation x = some p) (hno : ∀ env, ¬Enrolls app s e x env) :
    (next app e s).world.store.reputation x = some p := by
  by_cases hagg : ∀ user k env, e ≠ .aggregate user k env
  · rcases reputation_next hagg with h | ⟨⟨env, henrolls⟩, -⟩
    · exact h.trans hp
    · exact absurd henrolls (hno env)
  · push Not at hagg
    obtain ⟨user, k, env, rfl⟩ := hagg
    obtain ⟨hscored, hkept⟩ := reputation_aggregateRound app user k env s.world
    have hworld : (next app (.aggregate user k env) s).world =
        (aggregateRound app user k env s.world).2 := rfl
    rw [hworld]
    by_cases hdue : app.trust = none ∨ ¬Due user k env s.world
    · rw [hkept hdue]
      exact hp
    · push Not at hdue
      obtain ⟨settings, htrust⟩ := Option.ne_none_iff_exists'.mp hdue.1
      rw [hscored settings htrust hdue.2]
      exact rescore_of_low hlow 0 _ _ hp

lemma notMem_acceptedOrgs_of_low {w : World} {p : Reputation} {user : Option FLUser} {k : ℤ}
    {env : AggregateEnv} {resp : AggregateResponse} (hlow : p.trust < app.python.round (3 / 10))
    (hp : w.store.reputation x = some p)
    (hok : (aggregateRound app user k env w).1 = .ok resp) : x ∉ resp.acceptedOrgs := by
  obtain ⟨done⟩ := aggregated_of_ok hok
  obtain ⟨-, -, -, hacc⟩ := schemaGate_spec done.gated
  have hno : x ∉ (tallyUp (app.trustManager done.settings) env.score w.files app k 0
      (w.store.getAcceptedModels k) w.store.reputation).survivors.map (·.orgId) :=
    notMem_survivors_of_low hlow k 0 _ _ hp
  rw [← done.scored.onReputations.2, done.scored.survivors_orgs] at hno
  rw [done.response.1, hacc]
  exact fun h => hno h.1

/-- An org whose trust has fallen below the minimum is out for good: until it is enrolled anew, in
every continuation of the run its reputation stays as it is and no aggregation accepts it. -/
theorem locked_out {es fs : List Event} {p : Reputation}
    (hp : (after app es).world.store.reputation x = some p)
    (hlow : p.trust < app.python.round (3 / 10))
    (hno : ∀ q ∈ visits (next app) (after app es) fs, ∀ env, ¬Enrolls app q.1 q.2 x env) :
    (after app (es ++ fs)).world.store.reputation x = some p ∧
      ∀ q ∈ visits (next app) (after app es) fs, ∀ user k env resp,
        q.2 = .aggregate user k env → (aggregateRound app user k env q.1.world).1 = .ok resp →
        x ∉ resp.acceptedOrgs := by
  have hrun : ∀ gs, (∀ q ∈ visits (next app) (after app es) gs, ∀ env,
      ¬Enrolls app q.1 q.2 x env) →
      (Lib.run (next app) (after app es) gs).world.store.reputation x = some p := by
    intro gs hgs
    exact run_invariant (next app) (I := fun s => s.world.store.reputation x = some p)
      (A := fun s e => ∀ env, ¬Enrolls app s e x env) (fun s e h hok => low_next hlow h hok) hp gs
      hgs
  constructor
  · rw [after_append]
    exact hrun fs hno
  · intro q hq user k env resp he hok
    obtain ⟨pre, post, hfs, hstate⟩ := (mem_visits _).mp hq
    apply notMem_acceptedOrgs_of_low hlow _ hok
    rw [hstate]
    apply hrun
    intro r hr
    apply hno
    rw [hfs, visits_append]
    exact List.mem_append_left _ hr

/-- A fifth assessment, of a model that would score well, changes nothing. -/
theorem locked_out_fourFailures :
    (after Sample.app (Sample.fourFailures ++
      [Sample.aggregate (fun _ => .scored 1)])).world.store.reputation "x" = some Sample.spent := by
  have hlow : Sample.spent.trust < Sample.app.python.round (3 / 10) := by
    decide +kernel
  refine (locked_out Sample.reputation_fourFailures hlow ?_).1
  intro q hq env henrolls
  rw [visits_cons, visits_nil, List.mem_singleton] at hq
  subst hq
  obtain ⟨pem, en, hevent, -⟩ := henrolls.row
  cases hevent

end Lockout

end FlCoordinator
