import FlCoordinator.Client
import FlCoordinator.Completeness

/-!
# What the orgs are told of their trust

The notifications are signed while the scoring loop goes; the response that carries them comes
after the schema gate and the merge.
-/

namespace FlCoordinator

open Lib Handler

section Reports

/-- The trust score of an org on record. -/
def Store.score (s : Store) (x : String) : Option ℚ := (s.reputation x).map (·.trust)

/-- The contributor results of the version that a response names. -/
def contributorResults (s : Store) (resp : AggregateResponse) : List ContributorResult :=
  (((s.getGlobalModel resp.versionId).bind (·.evalMetrics)).map (·.contributors)).getD []

/-- The final entry of an org. -/
def lastEntry (x : String) (results : List ContributorResult) : Option ContributorResult :=
  (results.filter (·.orgId = x)).getLast?

def updatesFor (x : String) (updates : List TrustUpdate) : List TrustUpdate :=
  updates.filter (·.orgId = x)

/-- A trust notification under the key of the coordinator. -/
def signedTrustUpdate (app : App) (coordPriv : Bytes) (roundId : ℤ) (x : String) (score : ℚ)
    (reason issuedAt : String) : TrustUpdate :=
  let tu := buildTrustNotificationAttestation x roundId score reason issuedAt
  { orgId := x
    signedAttestation := tu
    signatureHex := toHex (sign app.host coordPriv tu) }

/-- The response has one notification for the org, of the score on record and with the reason of
the org's final entry. -/
def Reported (app : App) (coordPriv : Bytes) (roundId : ℤ) (resp : AggregateResponse) (s : Store)
    (x : String) : Prop :=
  ∃ score entry issuedAt, s.score x = some score ∧
    lastEntry x (contributorResults s resp) = some entry ∧
    updatesFor x resp.trustUpdates =
      [signedTrustUpdate app coordPriv roundId x score entry.reason issuedAt]

/-- Every score that the call changes is reported in its response. -/
def TrustReported (app : App) (coordPriv : Bytes) (user : Option FLUser) (roundId : ℤ)
    (env : AggregateEnv) (w : World) : Prop :=
  ∀ x, (aggregateRound app user roundId env w).2.store.score x ≠ w.store.score x →
    ∃ resp, (aggregateRound app user roundId env w).1 = .ok resp ∧
      Reported app coordPriv roundId resp (aggregateRound app user roundId env w).2.store x

/-- Of the org's contributions the last one can be read and no other. -/
def ScoredLast (files : String → Option Bytes) (cs : List Store.AcceptedModel) (x : String) :
    Prop :=
  ∃ before c, cs.filter (·.orgId = x) = before ++ [c] ∧ (files c.modelPath).isSome ∧
    ∀ d ∈ before, files d.modelPath = none

/-- The rule of the trust manager moves the score of the org. -/
def Moves (app : App) (settings : TrustSettings) (roundId : ℤ) (env : AggregateEnv) (w : World)
    (x : String) : Prop :=
  (rescore (app.trustManager settings) env.score w.files 0
    (w.store.getAcceptedModels roundId) w.store.reputation x).map (·.trust) ≠ w.store.score x

/-- The trusted contributions combine, and each org whose score moves has its last contribution
scored, no other, and nothing excluded by the gate. -/
def Reportable (app : App) (settings : TrustSettings) (roundId : ℤ) (env : AggregateEnv)
    (w : World) : Prop :=
  ∃ canonical, Combinable app.python canonical (trustedIn app roundId env w) ∧
    ∀ x, Moves app settings roundId env w x →
      ScoredLast w.files (w.store.getAcceptedModels roundId) x ∧
      ∀ v ∈ trustedIn app roundId env w, v.orgId = x → FitsSchema app.python canonical v.modelBytes

end Reports

/-! ### Reasons -/

section Reasons

/-- The first letter of a reason tells who gave it. -/
def initial (reason : String) : Option Char := reason.toList.head?

lemma initial_append {a b : String} (h : a.toList ≠ []) : initial (a ++ b) = initial a := by
  unfold initial
  rw [String.toList_append]
  cases ha : a.toList with
  | nil => exact absurd ha h
  | cons c cs => rfl

/-- No reason of the trust manager looks like one for a missing file or another schema. -/
lemma initial_report (tm : TrustManager) (p : Reputation) (n : ℤ) (judgement : Judgement) :
    initial (tm.report p n (tm.verdict p judgement)).reason ≠ some 'm' ∧
      initial (tm.report p n (tm.verdict p judgement)).reason ≠ some 'f' := by
  have hfirst : ∀ (a b : String) (c : Char), a.toList.head? = some c → c ≠ 'm' → c ≠ 'f' →
      initial (a ++ b) ≠ some 'm' ∧ initial (a ++ b) ≠ some 'f' := by
    intro a b c hc hm hf
    have hne : a.toList ≠ [] := by
      intro hnil
      rw [hnil] at hc
      cases hc
    rw [initial_append hne, initial, hc]
    exact ⟨fun h => hm (Option.some.inj h), fun h => hf (Option.some.inj h)⟩
  have hconst : ∀ (a : String) (c : Char), a.toList.head? = some c → c ≠ 'm' → c ≠ 'f' →
      initial a ≠ some 'm' ∧ initial a ≠ some 'f' := by
    intro a c hc hm hf
    rw [initial, hc]
    exact ⟨fun h => hm (Option.some.inj h), fun h => hf (Option.some.inj h)⟩
  have hdone : initial "accepted" ≠ some 'm' ∧ initial "accepted" ≠ some 'f' :=
    hconst _ 'a' rfl (by decide) (by decide)
  unfold TrustManager.verdict
  split
  · exact hconst "trust below minimum" 't' rfl (by decide) (by decide)
  · split
    · exact hfirst "invalid model structure: " _ 'i' rfl (by decide) (by decide)
    · split
      · exact hfirst "evaluation failed: " _ 'e' rfl (by decide) (by decide)
      · exact hdone
    · split
      · exact hdone
      · split
        · simp only [TrustManager.report, String.append_assoc, toString]
          exact hfirst "accuracy " _ 'a' rfl (by decide) (by decide)
        · split
          · exact hfirst "suspicious accuracy drop " _ 's' rfl (by decide) (by decide)
          · exact hdone

lemma signedTrustUpdate_reason {app : App} {coordPriv : Bytes} {roundId : ℤ} {x : String}
    {score score' : ℚ} {reason reason' issuedAt issuedAt' : String}
    (h : signedTrustUpdate app coordPriv roundId x score reason issuedAt =
      signedTrustUpdate app coordPriv roundId x score' reason' issuedAt') : reason = reason' := by
  have hread : ∀ (score : ℚ) (reason issuedAt : String),
      readField "reason" (buildTrustNotificationAttestation x roundId score reason issuedAt) =
        some (.str reason) := by
    intro score reason issuedAt
    rw [buildTrustNotificationAttestation, readField_canonicalJson]
    · rfl
    · exact Json.plain_obj.mpr ⟨by simp, by simp [Json.Plain, Json.ofDecimal]⟩
  have hbytes := congrArg (fun u => readField "reason" u.signedAttestation) h
  simp only [signedTrustUpdate, hread, Option.some.injEq, Json.str.injEq] at hbytes
  exact hbytes

end Reasons

/-! ### Entries of one org -/

section Entries

variable {x : String}

lemma lastEntry_cons_of_ne {e : ContributorResult} {results : List ContributorResult}
    (h : e.orgId ≠ x) : lastEntry x (e :: results) = lastEntry x results := by
  rw [lastEntry, List.filter_cons_of_neg (by simpa using h), lastEntry]

lemma lastEntry_cons_of_some {e d : ContributorResult} {results : List ContributorResult}
    (h : lastEntry x results = some d) : lastEntry x (e :: results) = some d := by
  by_cases he : e.orgId = x
  · rw [lastEntry, List.filter_cons_of_pos (by simpa using he), List.getLast?_cons]
    unfold lastEntry at h
    rw [h]
    rfl
  · rw [lastEntry_cons_of_ne he]
    exact h

lemma lastEntry_cons_of_none {e : ContributorResult} {results : List ContributorResult}
    (he : e.orgId = x) (h : lastEntry x results = none) : lastEntry x (e :: results) = some e := by
  rw [lastEntry, List.filter_cons_of_pos (by simpa using he), List.getLast?_cons]
  unfold lastEntry at h
  rw [h]
  rfl

/-- A demotion gives every entry of its org the reason. -/
lemma lastEntry_demote (y reason : String) (results : List ContributorResult) :
    lastEntry x (demote y reason results) = if y = x then
      (lastEntry x results).map (fun e => { e with accepted := false, reason })
      else lastEntry x results := by
  have horg : ∀ e : ContributorResult,
      (if e.orgId = y then { e with accepted := false, reason } else e).orgId = e.orgId := by
    intro e
    split <;> rfl
  have hfilter : (demote y reason results).filter (·.orgId = x) =
      (results.filter (·.orgId = x)).map
        (fun e => if e.orgId = y then { e with accepted := false, reason } else e) := by
    rw [demote, List.filter_map]
    congr 1
    apply List.filter_congr
    intro e _
    simp only [Function.comp_apply, horg]
  unfold lastEntry
  rw [hfilter, List.getLast?_map]
  cases hlast : (results.filter (·.orgId = x)).getLast? with
  | none => simp
  | some e =>
    have hmem : e.orgId = x := by
      simpa using (List.mem_filter.mp (List.mem_of_getLast? hlast)).2
    by_cases hyx : y = x
    · simp [hyx, hmem]
    · simp [hyx, hmem, Ne.symm hyx]

end Entries

/-! ### The loop, for one org -/

section Loop

variable {tm : TrustManager} {env : ScoreEnv} {files : String → Option Bytes} {app : App}
  {coordPriv : Bytes} {roundId : ℤ} {x : String}

/-- The contributions of the org that the loop scores. -/
def scoredFor (files : String → Option Bytes) (x : String) (cs : List Store.AcceptedModel) :
    List Store.AcceptedModel :=
  cs.filter (fun c => c.orgId = x ∧ (files c.modelPath).isSome)

section Cons

variable {c : Store.AcceptedModel} {cs : List Store.AcceptedModel}

lemma scoredFor_cons_of_missing (h : files c.modelPath = none) :
    scoredFor files x (c :: cs) = scoredFor files x cs := by
  apply List.filter_cons_of_neg
  simp [h]

lemma scoredFor_cons_of_ne (h : c.orgId ≠ x) :
    scoredFor files x (c :: cs) = scoredFor files x cs := by
  apply List.filter_cons_of_neg
  simp [h]

lemma scoredFor_cons_of_scored (hx : c.orgId = x) {mb : Bytes}
    (h : files c.modelPath = some mb) :
    scoredFor files x (c :: cs) = c :: scoredFor files x cs := by
  apply List.filter_cons_of_pos
  simp [hx, h]

end Cons

lemma updatesFor_append (us vs : List TrustUpdate) :
    updatesFor x (us ++ vs) = updatesFor x us ++ updatesFor x vs := List.filter_append ..

lemma updatesFor_trustUpdatesOf (hkey : app.coordPriv = some coordPriv) (c : Store.AcceptedModel)
    (ev : Evaluation) (issuedAt : String) :
    updatesFor x (trustUpdatesOf app roundId c ev issuedAt) = if c.orgId = x then
      [signedTrustUpdate app coordPriv roundId x ev.trust ev.reason issuedAt] else [] := by
  unfold trustUpdatesOf
  rw [hkey]
  by_cases hx : c.orgId = x
  · subst hx
    simp [updatesFor, signedTrustUpdate]
  · simp [updatesFor, hx]

lemma updatesFor_length (hkey : app.coordPriv = some coordPriv) (i : ℕ)
    (cs : List Store.AcceptedModel) (ρ : Reputations) :
    (updatesFor x (tallyUp tm env files app roundId i cs ρ).trustUpdates).length =
      (scoredFor files x cs).length := by
  induction cs generalizing i ρ with
  | nil => rfl
  | cons c cs ih =>
    rw [tallyUp]
    cases hfile : files c.modelPath with
    | none =>
      rw [scoredFor_cons_of_missing hfile]
      exact ih (i + 1) ρ
    | some mb =>
      dsimp only
      rw [updatesFor_append, List.length_append, ih, updatesFor_trustUpdatesOf hkey]
      by_cases hx : c.orgId = x
      · rw [scoredFor_cons_of_scored hx hfile, if_pos hx, List.length_singleton, List.length_cons]
        omega
      · rw [scoredFor_cons_of_ne hx, if_neg hx, List.length_nil]
        omega

lemma rescore_of_unscored {i : ℕ} {cs : List Store.AcceptedModel} {ρ : Reputations}
    (h : scoredFor files x cs = []) : rescore tm env files i cs ρ x = ρ x := by
  induction cs generalizing i ρ with
  | nil => rfl
  | cons c cs ih =>
    have hboth := List.filter_eq_nil_iff.mp h
    have htail : scoredFor files x cs = [] :=
      List.filter_eq_nil_iff.mpr fun d hd => hboth d (List.mem_cons_of_mem _ hd)
    rw [rescore]
    cases hfile : files c.modelPath with
    | none => exact ih htail
    | some mb =>
      have hne : c.orgId ≠ x := by
        intro hx
        exact hboth c List.mem_cons_self (by simp [hx, hfile])
      exact (ih htail).trans (reassess_of_ne hne)

variable (tm env app roundId) in
lemma lastEntry_of_unscored (i : ℕ) {cs : List Store.AcceptedModel} (ρ : Reputations)
    (h : scoredFor files x cs = []) :
    (cs.filter (·.orgId = x) = [] ∧
      lastEntry x (tallyUp tm env files app roundId i cs ρ).results = none) ∨
    (cs.filter (·.orgId = x) ≠ [] ∧ ∃ d,
      lastEntry x (tallyUp tm env files app roundId i cs ρ).results = some (missingResult d)) := by
  induction cs generalizing i ρ with
  | nil => exact Or.inl ⟨rfl, rfl⟩
  | cons c cs ih =>
    have hboth := List.filter_eq_nil_iff.mp h
    have htail : scoredFor files x cs = [] :=
      List.filter_eq_nil_iff.mpr fun d hd => hboth d (List.mem_cons_of_mem _ hd)
    rw [tallyUp]
    by_cases hx : c.orgId = x
    · have hfile : files c.modelPath = none := by
        cases hfile : files c.modelPath with
        | none => rfl
        | some mb => exact absurd (by simp [hx, hfile]) (hboth c List.mem_cons_self)
      rw [hfile, List.filter_cons_of_pos (by simpa using hx)]
      apply Or.inr
      refine ⟨List.cons_ne_nil _ _, ?_⟩
      rcases ih (i + 1) ρ htail with ⟨-, hnone⟩ | ⟨-, d, hd⟩
      · exact ⟨c, lastEntry_cons_of_none hx hnone⟩
      · exact ⟨d, lastEntry_cons_of_some hd⟩
    · rw [List.filter_cons_of_neg (by simpa using hx)]
      cases hfile : files c.modelPath with
      | none =>
        dsimp only
        rw [lastEntry_cons_of_ne hx]
        exact ih (i + 1) ρ htail
      | some mb =>
        dsimp only
        rw [lastEntry_cons_of_ne hx]
        exact ih (i + 1) _ htail

/-- What one scored contribution leaves: the notification, the score and the final entry. -/
structure Notified (tm : TrustManager) (env : ScoreEnv) (files : String → Option Bytes) (app : App)
    (coordPriv : Bytes) (roundId : ℤ) (x : String) (cs : List Store.AcceptedModel)
    (ρ ρ' : Reputations) (tally : Tally) (judgement : Judgement) (n : ℤ) : Prop where
  updates : ∃ issuedAt, updatesFor x tally.trustUpdates =
    [signedTrustUpdate app coordPriv roundId x
      (tm.assess ((ρ x).getD .unknown) judgement n).1.trust
      (tm.assess ((ρ x).getD .unknown) judgement n).1.reason issuedAt]
  score : ρ' x = (ρ x).map (fun p => (tm.assess p judgement n).2)
  entry : (ScoredLast files cs x ∧ ∃ e, lastEntry x tally.results = some e ∧
      e.reason = (tm.assess ((ρ x).getD .unknown) judgement n).1.reason) ∨
    (¬ScoredLast files cs x ∧ ∃ d, lastEntry x tally.results = some (missingResult d))

lemma scoredLast_cons_of_ne {c : Store.AcceptedModel} {cs : List Store.AcceptedModel}
    (h : c.orgId ≠ x) : ScoredLast files (c :: cs) x ↔ ScoredLast files cs x := by
  unfold ScoredLast
  rw [List.filter_cons_of_neg (by simpa using h)]

lemma scoredLast_cons_of_missing {c : Store.AcceptedModel} {cs : List Store.AcceptedModel}
    (h : files c.modelPath = none) : ScoredLast files (c :: cs) x ↔ ScoredLast files cs x := by
  by_cases hx : c.orgId = x
  · unfold ScoredLast
    rw [List.filter_cons_of_pos (by simpa using hx)]
    constructor
    · rintro ⟨before, d, heq, hfile, hbefore⟩
      cases before with
      | nil =>
        obtain ⟨rfl, -⟩ := List.cons.inj heq
        rw [h] at hfile
        cases hfile
      | cons b before =>
        obtain ⟨rfl, htail⟩ := List.cons.inj heq
        exact ⟨before, d, htail, hfile, fun e he => hbefore e (List.mem_cons_of_mem _ he)⟩
    · rintro ⟨before, d, heq, hfile, hbefore⟩
      refine ⟨c :: before, d, by rw [heq]; rfl, hfile, ?_⟩
      rw [List.forall_mem_cons]
      exact ⟨h, hbefore⟩
  · exact scoredLast_cons_of_ne hx

lemma scoredLast_cons_of_scored {c : Store.AcceptedModel} {cs : List Store.AcceptedModel}
    (hx : c.orgId = x) {mb : Bytes} (h : files c.modelPath = some mb) :
    ScoredLast files (c :: cs) x ↔ cs.filter (·.orgId = x) = [] := by
  unfold ScoredLast
  rw [List.filter_cons_of_pos (by simpa using hx)]
  constructor
  · rintro ⟨before, d, heq, -, hbefore⟩
    cases before with
    | nil => exact (List.cons.inj heq).2
    | cons b before =>
      obtain ⟨rfl, -⟩ := List.cons.inj heq
      have hno := hbefore c List.mem_cons_self
      rw [h] at hno
      cases hno
  · intro hempty
    refine ⟨[], c, by rw [hempty]; rfl, by rw [h]; rfl, ?_⟩
    intro d hd
    cases hd

lemma tallyUp_notified (hkey : app.coordPriv = some coordPriv) (i : ℕ)
    {cs : List Store.AcceptedModel} (ρ : Reputations) (h : (scoredFor files x cs).length = 1) :
    ∃ judgement n, Notified tm env files app coordPriv roundId x cs ρ
      (rescore tm env files i cs ρ) (tallyUp tm env files app roundId i cs ρ) judgement n := by
  induction cs generalizing i ρ with
  | nil => cases h
  | cons c cs ih =>
    rw [rescore, tallyUp]
    cases hfile : files c.modelPath with
    | none =>
      rw [scoredFor_cons_of_missing hfile] at h
      obtain ⟨judgement, n, hn⟩ := ih (i + 1) ρ h
      refine ⟨judgement, n, hn.updates, hn.score, ?_⟩
      rw [scoredLast_cons_of_missing hfile]
      apply hn.entry.imp
      · rintro ⟨hlast, e, he, hreason⟩
        exact ⟨hlast, e, lastEntry_cons_of_some he, hreason⟩
      · rintro ⟨hlast, d, hd⟩
        exact ⟨hlast, d, lastEntry_cons_of_some hd⟩
    | some mb =>
      dsimp only
      by_cases hx : c.orgId = x
      · rw [scoredFor_cons_of_scored hx hfile, List.length_cons] at h
        have hnone : scoredFor files x cs = [] := List.length_eq_zero_iff.mp (by omega)
        have hupdates : updatesFor x (tallyUp tm env files app roundId (i + 1) cs
            (reassess tm (env.judge i mb) c ρ)).trustUpdates = [] := by
          apply List.length_eq_zero_iff.mp
          rw [updatesFor_length hkey, hnone]
          rfl
        refine ⟨env.judge i mb, c.numExamples, ⟨env.issuedAt i, ?_⟩, ?_, ?_⟩
        · rw [updatesFor_append, hupdates, updatesFor_trustUpdatesOf hkey, if_pos hx, hx]
          rfl
        · rw [rescore_of_unscored hnone, reassess, if_pos hx]
        · -- the rest of the org's contributions, if there are any, have no file
          rw [scoredLast_cons_of_scored hx hfile]
          rcases lastEntry_of_unscored tm env app roundId (i + 1)
            (reassess tm (env.judge i mb) c ρ) hnone with ⟨hempty, hlast⟩ | ⟨hsome, d, hd⟩
          · apply Or.inl
            refine ⟨hempty, _, lastEntry_cons_of_none hx hlast, ?_⟩
            rw [← hx]
            rfl
          · exact Or.inr ⟨hsome, d, lastEntry_cons_of_some hd⟩
      · rw [scoredFor_cons_of_ne hx] at h
        have hsame : reassess tm (env.judge i mb) c ρ x = ρ x := reassess_of_ne hx
        obtain ⟨judgement, n, hn⟩ := ih (i + 1) (reassess tm (env.judge i mb) c ρ) h
        obtain ⟨hupdates, hscore, hentry⟩ := hn
        rw [hsame] at hupdates hscore hentry
        refine ⟨judgement, n, ?_, hscore, ?_⟩
        · rw [updatesFor_append, updatesFor_trustUpdatesOf hkey, if_neg hx, List.nil_append]
          exact hupdates
        · rw [scoredLast_cons_of_ne hx]
          dsimp only
          rw [lastEntry_cons_of_ne hx]
          exact hentry

lemma ScoredLast.scoredFor_length {cs : List Store.AcceptedModel} (h : ScoredLast files cs x) :
    (scoredFor files x cs).length = 1 := by
  obtain ⟨before, c, heq, hfile, hbefore⟩ := h
  have hsplit : scoredFor files x cs =
      (cs.filter (·.orgId = x)).filter (fun c => (files c.modelPath).isSome) := by
    rw [scoredFor, List.filter_filter]
    apply List.filter_congr
    intro d _
    by_cases hd : d.orgId = x <;> simp [hd]
  have hnone : before.filter (fun c => (files c.modelPath).isSome) = [] := by
    apply List.filter_eq_nil_iff.mpr
    intro d hd
    simp [hbefore d hd]
  rw [hsplit, heq, List.filter_append, hnone]
  simp [hfile]

lemma assess_trust (tm : TrustManager) (p : Reputation) (judgement : Judgement) (n : ℤ) :
    (tm.assess p judgement n).1.trust = (tm.assess p judgement n).2.trust := by
  unfold TrustManager.assess
  cases tm.verdict p judgement <;> rfl

end Loop

/-! ### The gate, for one org -/

section Gate

variable {py : Python} {canonical : Schema} {vs : List Survivor} {gate gate' : Gate} {x : String}

lemma initial_missing (d : Store.AcceptedModel) : initial (missingResult d).reason = some 'm' := by
  change initial "model bytes missing on disk" = some 'm'
  decide

lemma initial_mismatch (expected got : String) :
    initial s!"feature-schema mismatch (expected {expected}, got {got})" = some 'f' := by
  simp only [toString, String.append_assoc]
  rw [initial_append (by decide)]
  rfl

/-- The gate leaves the final entry of an org alone when all of the org's survivors fit, and gives
it the reason of a mismatch otherwise. -/
lemma gateLoop_lastEntry (h : gateLoop py canonical vs gate = .ok gate') {e : ContributorResult}
    (he : lastEntry x gate.results = some e) :
    ((∀ v ∈ vs, v.orgId = x → FitsSchema py canonical v.modelBytes) ∧
      lastEntry x gate'.results = some e) ∨
    (¬(∀ v ∈ vs, v.orgId = x → FitsSchema py canonical v.modelBytes) ∧
      ∃ e', lastEntry x gate'.results = some e' ∧ initial e'.reason = some 'f') := by
  induction vs generalizing gate e with
  | nil =>
    obtain rfl := Except.ok.inj h
    exact Or.inl ⟨fun v hv => absurd hv List.not_mem_nil, he⟩
  | cons v vs ih =>
    rw [List.forall_mem_cons]
    obtain ⟨mid, hstep, h⟩ := gateLoop_cons h
    cases hstep with
    | passed fits =>
      simp only [fits, implies_true, true_and]
      exact ih h he
    | demoted unfit schema expected got =>
      have hdemoted := lastEntry_demote (x := x) v.orgId
        s!"feature-schema mismatch (expected {expected}, got {got})" gate.results
      rw [he] at hdemoted
      by_cases hx : v.orgId = x
      · rw [if_pos hx] at hdemoted
        apply Or.inr
        refine ⟨fun hall => unfit (hall.1 hx), ?_⟩
        rcases ih h hdemoted with ⟨-, hlast⟩ | ⟨-, hlast⟩
        · exact ⟨_, hlast, initial_mismatch expected got⟩
        · exact hlast
      · rw [if_neg hx] at hdemoted
        simp only [hx, false_implies, true_and]
        exact ih h hdemoted

lemma schemaGate_lastEntry {tally : Tally} (h : schemaGate py tally = .ok (canonical, gate))
    {e : ContributorResult} (he : lastEntry x tally.results = some e) :
    ((∀ v ∈ tally.survivors, v.orgId = x → FitsSchema py canonical v.modelBytes) ∧
      lastEntry x gate.results = some e) ∨
    (¬(∀ v ∈ tally.survivors, v.orgId = x → FitsSchema py canonical v.modelBytes) ∧
      ∃ e', lastEntry x gate.results = some e' ∧ initial e'.reason = some 'f') := by
  obtain ⟨-, hloop⟩ := schemaGate_loop h
  have hlast := gateLoop_lastEntry hloop he
  simpa only [mem_sortSurvivors] using hlast

end Gate

/-! ### Whole calls -/

section Calls

variable {app : App} {coordPriv : Bytes} {user : Option FLUser} {roundId : ℤ} {env : AggregateEnv}
  {w : World} {settings : TrustSettings}

lemma concludeRound_trustUpdates (u : FLUser) (r : RoundRow) (responded : ℕ) (tally : Tally)
    (v : World) :
    (concludeRound app roundId env u r responded tally).wp
      (fun res _ => ∀ resp, res = .ok resp → resp.trustUpdates = tally.trustUpdates) v := by
  have hfail : ∀ e : Failure, ∀ resp, (Except.error e : Except Failure AggregateResponse) =
      .ok resp → resp.trustUpdates = tally.trustUpdates := fun e resp h => by cases h
  unfold concludeRound
  apply wp_ensure_bind (fun _ => hfail _)
  intro _
  apply wp_attempt_bind (fun e _ => hfail _)
  intro cg _
  have hmerge : ∀ v' : World,
      (attempt (mergeXgboostModels app.python cg.2.weighted) Failure.uncaught >>=
      fun p => stageRound app u r roundId responded cg.2 tally.trustUpdates p.1 p.2 env).wp
      (fun res _ => ∀ resp, res = .ok resp → resp.trustUpdates = tally.trustUpdates) v' := by
    intro v'
    apply wp_attempt_bind (fun e _ => hfail _)
    intro out _
    unfold stageRound
    refine wp_writeFile_bind (wp_insert_bind (wp_execute_bind (wp_log_bind ?_)))
    intro resp hresp
    obtain rfl := Except.ok.inj hresp
    rfl
  dsimp only
  by_cases hex : cg.2.excludedSchema = []
  · simp only [hex, ne_eq, not_true_eq_false, if_false]
    exact hmerge v
  · simp only [hex, ne_eq, not_false_eq_true, if_true]
    apply wp_attempt_bind (fun e _ => hfail _)
    intro shown _
    apply wp_log_bind
    exact hmerge _

lemma aggregateRound_trustUpdates (htrust : app.trust = some settings) {resp : AggregateResponse}
    (h : (aggregateRound app user roundId env w).1 = .ok resp) :
    resp.trustUpdates = (tallyUp (app.trustManager settings) env.score w.files app roundId 0
      (w.store.getAcceptedModels roundId) w.store.reputation).trustUpdates := by
  have hspec : (aggregateRound app user roundId env).wp
      (fun res _ => ∀ resp, res = .ok resp → resp.trustUpdates =
        (tallyUp (app.trustManager settings) env.score w.files app roundId 0
          (w.store.getAcceptedModels roundId) w.store.reputation).trustUpdates) w := by
    rw [aggregateRound_parts, wp_bind, wp_def, dueRound_readsOnly.state w]
    cases hcheck : (dueRound app roundId env user w).1 with
    | error e =>
      intro resp hresp
      cases hresp
    | ok p =>
      obtain ⟨u, r, settings'⟩ := p
      have hsame := (due_of_dueRound hcheck).2.2
      rw [htrust] at hsame
      obtain rfl := Option.some.inj hsame
      apply wp_query_bind
      apply wp_ensure_bind
      · intro _ resp hresp
        cases hresp
      intro _
      apply wp_call_bind (scoreContributions_spec 0 _ w)
      · rintro e v ⟨tally, h, -⟩
        cases h
      rintro tally v ⟨tally', h, hscored⟩
      cases h
      rw [← hscored.onReputations.2]
      exact concludeRound_trustUpdates u r _ tally v
  exact hspec resp h

lemma not_combinable_of_error {tally : Tally} {e : Failure} (h : combine app.python tally = .error e)
    (canonical : Schema) : ¬Combinable app.python canonical tally.survivors := by
  intro hc
  obtain ⟨out, hout⟩ := combine_isOk hc
  rw [h] at hout
  cases hout

lemma reported_iff_reason {resp : AggregateResponse} {s : Store} {x : String} {score : ℚ}
    {reason issuedAt : String} (hscore : s.score x = some score)
    (hupdate : updatesFor x resp.trustUpdates =
      [signedTrustUpdate app coordPriv roundId x score reason issuedAt]) :
    Reported app coordPriv roundId resp s x ↔
      ∃ e, lastEntry x (contributorResults s resp) = some e ∧ e.reason = reason := by
  constructor
  · rintro ⟨score', e, issuedAt', -, he, hreport⟩
    rw [hupdate] at hreport
    exact ⟨e, he, (signedTrustUpdate_reason (List.singleton_inj.mp hreport)).symm⟩
  · rintro ⟨e, he, rfl⟩
    exact ⟨score, e, issuedAt, hscore, he, hupdate⟩

/-- Where an org's score moves, it is reported when its last contribution is the one that was
scored and the gate excludes nothing of it. -/
lemma reported_iff {resp : AggregateResponse} {s : Store} {canonical : Schema} {gate : Gate}
    {cs : List Store.AcceptedModel} {ρ : Reputations} {tm : TrustManager} {env : ScoreEnv}
    {files : String → Option Bytes} {x : String} (hkey : app.coordPriv = some coordPriv)
    (hupdates : resp.trustUpdates = (tallyUp tm env files app roundId 0 cs ρ).trustUpdates)
    (hresults : contributorResults s resp = gate.results)
    (hgate : schemaGate app.python (tallyUp tm env files app roundId 0 cs ρ) = .ok (canonical, gate))
    (hscore : s.score x = (rescore tm env files 0 cs ρ x).map (·.trust))
    (hmoved : (rescore tm env files 0 cs ρ x).map (·.trust) ≠ (ρ x).map (·.trust)) :
    Reported app coordPriv roundId resp s x ↔ ScoredLast files cs x ∧
      ∀ v ∈ (tallyUp tm env files app roundId 0 cs ρ).survivors, v.orgId = x →
        FitsSchema app.python canonical v.modelBytes := by
  have hlength := @updatesFor_length tm env files app coordPriv roundId x hkey 0 cs ρ
  have honce : Reported app coordPriv roundId resp s x ∨ ScoredLast files cs x →
      (scoredFor files x cs).length = 1 := by
    rintro (⟨score, entry, issuedAt, -, -, hone⟩ | hlast)
    · rw [hupdates] at hone
      rw [← hlength, hone]
      rfl
    · exact hlast.scoredFor_length
  by_cases hone : (scoredFor files x cs).length = 1
  · obtain ⟨judgement, n, ⟨issuedAt, hupdate⟩, hrescored, hentry⟩ :=
      @tallyUp_notified tm env files app coordPriv roundId x hkey 0 cs ρ hone
    cases hp : ρ x with
    | none =>
      rw [hrescored, hp] at hmoved
      exact absurd rfl hmoved
    | some p =>
      rw [hp] at hupdate hrescored hentry
      dsimp only [Option.getD_some, Option.map_some] at hupdate hrescored hentry
      have hnow : s.score x = some (tm.assess p judgement n).1.trust := by
        rw [hscore, hrescored, assess_trust]
        rfl
      have hreads := reported_iff_reason hnow ((congrArg (updatesFor x) hupdates).trans hupdate)
      rw [hresults] at hreads
      have hinitial := initial_report tm p n judgement
      rw [hreads]
      rcases hentry with ⟨hlast, e, he, hreason⟩ | ⟨hlast, d, hd⟩
      · rcases schemaGate_lastEntry hgate he with ⟨hfits, hfinal⟩ | ⟨hunfit, e', he', hmismatch⟩
        · exact iff_of_true ⟨e, hfinal, hreason⟩ ⟨hlast, hfits⟩
        · apply iff_of_false
          · rintro ⟨e'', he'', hreason''⟩
            rw [he'] at he''
            obtain rfl := Option.some.inj he''
            rw [hreason''] at hmismatch
            exact hinitial.2 hmismatch
          · exact fun h => hunfit h.2
      · apply iff_of_false
        · rintro ⟨e', he', hreason'⟩
          rcases schemaGate_lastEntry hgate hd with ⟨-, hfinal⟩ | ⟨-, e'', he'', hmismatch⟩
          · rw [hfinal] at he'
            obtain rfl := Option.some.inj he'
            apply hinitial.1
            change initial (tm.assess p judgement n).1.reason = some 'm'
            rw [← hreason']
            exact initial_missing d
          · rw [he''] at he'
            obtain rfl := Option.some.inj he'
            rw [hreason'] at hmismatch
            exact hinitial.2 hmismatch
        · exact fun h => hlast h.1
  · exact iff_of_false (fun h => hone (honce (Or.inl h))) fun h => hone (honce (Or.inr h.1))

lemma score_of_scored {tally : Tally} {v t : World}
    (h : Scored app (app.trustManager settings) roundId env.score 0
      (w.store.getAcceptedModels roundId) w tally v)
    (ht : t.store.reputation = v.store.reputation) (x : String) :
    t.store.score x = (rescore (app.trustManager settings) env.score w.files 0
      (w.store.getAcceptedModels roundId) w.store.reputation x).map (·.trust) := by
  rw [Store.score, ht, h.onReputations.1]

/-- Which calls report every score that they change. -/
theorem trustReported_iff (hkey : app.coordPriv = some coordPriv) :
    TrustReported app coordPriv user roundId env w ↔
      ∀ settings, app.trust = some settings → Due user roundId env w →
        ScoresKept app settings roundId env w ∨ Reportable app settings roundId env w := by
  have hrun := aggregateRound_run app user roundId env w
  have hupdates := fun settings htrust resp =>
    @aggregateRound_trustUpdates app user roundId env w settings htrust resp
  unfold TrustReported
  generalize (aggregateRound app user roundId env w).1 = res at hrun hupdates ⊢
  generalize (aggregateRound app user roundId env w).2 = t at hrun ⊢
  cases hrun with
  | refused e check =>
    refine iff_of_true (fun x hx => absurd rfl hx) fun settings htrust hdue => ?_
    obtain ⟨u, r, hok⟩ := dueRound_of_due hdue htrust
    rw [check] at hok
    cases hok
  | empty u r settings check none =>
    refine iff_of_true (fun x hx => absurd rfl hx) fun settings htrust hdue => Or.inl ?_
    intro x
    rw [none]
    rfl
  | failed u r settings check some tally v t scored e combined left =>
    obtain ⟨hdue, -, htrust⟩ := due_of_dueRound check
    have hscore := score_of_scored scored (congrArg Store.reputation left.store)
    constructor
    · intro h settings' htrust' _
      rw [htrust] at htrust'
      obtain rfl := Option.some.inj htrust'
      apply Or.inl
      intro x
      by_contra hmoved
      obtain ⟨resp, hresp, -⟩ := h x (by rw [hscore x]; exact hmoved)
      cases hresp
    · intro h x hx
      rcases h settings htrust hdue with hkept | ⟨canonical, hcombines, -⟩
      · rw [hscore x] at hx
        exact absurd (hkept x) hx
      · rw [← trustedIn_eq htrust scored] at hcombines
        exact absurd hcombines (not_combinable_of_error combined canonical)
  | staged u r settings check some tally v t scored gate bytes info combined resp done =>
    obtain ⟨hdue, -, htrust⟩ := due_of_dueRound check
    obtain ⟨canonical, hgate, hcombines⟩ := combine_gate combined
    have hstaged : t.store.reputation = v.store.reputation := by
      rw [done.store, reputation_stagedStore]
    have hscore := score_of_scored scored hstaged
    obtain ⟨-, rfl⟩ := scored.onReputations
    have hresults : contributorResults t.store resp = gate.results := by
      rw [contributorResults, done.store, done.version, getGlobalModel_stagedStore]
      rfl
    have hone : ∀ x, Moves app settings roundId env w x →
        (Reported app coordPriv roundId resp t.store x ↔
          ScoredLast w.files (w.store.getAcceptedModels roundId) x ∧
          ∀ v ∈ trustedIn app roundId env w, v.orgId = x →
            FitsSchema app.python canonical v.modelBytes) := by
      intro x hmoves
      rw [← trustedIn_eq htrust scored]
      exact reported_iff hkey (hupdates settings htrust resp rfl) hresults hgate (hscore x) hmoves
    constructor
    · intro h settings' htrust' _
      rw [htrust] at htrust'
      obtain rfl := Option.some.inj htrust'
      apply Or.inr
      refine ⟨canonical, by rw [← trustedIn_eq htrust scored]; exact hcombines, fun x hmoves => ?_⟩
      obtain ⟨resp', hresp, hreported⟩ := h x (by rw [hscore x]; exact hmoves)
      obtain rfl := Except.ok.inj hresp
      exact (hone x hmoves).mp hreported
    · intro h x hx
      rw [hscore x] at hx
      refine ⟨resp, rfl, (hone x hx).mpr ?_⟩
      rcases h settings htrust hdue with hkept | ⟨canonical', hcombines', hall⟩
      · exact absurd (hkept x) hx
      · rw [← trustedIn_eq htrust scored] at hcombines'
        rw [← hcombines'.canonical_unique hcombines]
        exact hall x hx

/-- Judgements that no model gets a score from. -/
def noneScored : ℕ → Judgement := fun _ => .unscored "labels"

theorem trustReported_iff_twoUploads :
    TrustReported Sample.app Sample.coordKey (some Sample.admin) 1 (Sample.aggregateEnv noneScored)
      (after Sample.app twoUploads).world ↔
    ∀ settings, Sample.app.trust = some settings →
      Due (some Sample.admin) 1 (Sample.aggregateEnv noneScored)
        (after Sample.app twoUploads).world →
      ScoresKept Sample.app settings 1 (Sample.aggregateEnv noneScored)
        (after Sample.app twoUploads).world ∨
      Reportable Sample.app settings 1 (Sample.aggregateEnv noneScored)
        (after Sample.app twoUploads).world := trustReported_iff rfl

/-- A call that rejects everything lowers the trust of both orgs, and its answer is an error. -/
theorem lowered_trust_unreported :
    ¬∀ es judge, TrustReported Sample.app Sample.coordKey (some Sample.admin) 1
      (Sample.aggregateEnv judge) (after Sample.app es).world := by
  intro h
  have hlower : (aggregateRound Sample.app (some Sample.admin) 1
        (Sample.aggregateEnv noneScored)
        (after Sample.app twoUploads).world).2.store.score "x" ≠
      (after Sample.app twoUploads).world.store.score "x" := by
    decide +kernel
  have hrefused : ((aggregateRound Sample.app (some Sample.admin) 1
      (Sample.aggregateEnv noneScored)
      (after Sample.app twoUploads).world).1.toOption).isNone = true := by
    decide +kernel
  obtain ⟨resp, hresp, -⟩ := h twoUploads noneScored "x" hlower
  rw [hresp] at hrefused
  cases hrefused

end Calls

end FlCoordinator
