import FlCoordinator.Lib.Runs
import FlCoordinator.TrustSpec

/-!
# Reputations

All that trust scoring reads of an org, and all that it writes but for a time stamp, is its
reputation. `assess` is an evaluation on reputations alone; `evaluate` is carried out by it on the
row of the org. The rest of the file follows one org through any number of evaluations.
-/

namespace FlCoordinator

open Lib

structure Reputation where
  trust : ℚ
  lastAccuracy : Option ℚ
  deriving DecidableEq

/-- The reputation of an org that has no row. -/
def Reputation.unknown : Reputation := ⟨1, none⟩

def OrgRow.reputation (r : OrgRow) : Reputation := ⟨r.trustScore, r.lastAccuracy⟩

def Store.reputation (s : Store) (x : String) : Option Reputation :=
  (s.getOrg x).map OrgRow.reputation

/-! ### Assessments -/

/-- The exits of `evaluate`: low trust, a penalty, acceptance with the accuracy if there is one. -/
inductive Verdict
  | blocked
  | penalised (penalty : ℚ) (accuracy : Option ℚ) (reason : String)
  | accepted (accuracy : Option ℚ)

namespace TrustManager

variable (tm : TrustManager)

def verdict (p : Reputation) (judgement : Judgement) : Verdict :=
  if p.trust < tm.minTrust then .blocked
  else match judgement with
    | .unloadable e =>
      .penalised (tm.python.round (2 / 10)) none s!"invalid model structure: {e}"
    | .unscored msg =>
      if tm.validationData then
        .penalised (tm.python.round (1 / 10)) none s!"evaluation failed: {msg}"
      else .accepted none
    | .scored accuracy =>
      if tm.validationData = false then .accepted none
      else if accuracy < tm.minAccuracy then
        .penalised (tm.python.round (15 / 100)) (some accuracy)
          (s!"accuracy {percentText tm.python accuracy} below " ++
            percentText tm.python tm.minAccuracy)
      else match p.lastAccuracy.filter
          (fun prev => tm.maxAccuracyDrop < tm.python.round (prev - accuracy)) with
        | some prev =>
          .penalised (tm.python.round (2 / 10)) (some accuracy)
            ("suspicious accuracy drop " ++
              percentText tm.python (tm.python.round (prev - accuracy)))
        | none => .accepted (some accuracy)

/-- The reputation after a verdict; an acceptance without an accuracy keeps the last one. -/
def settle (p : Reputation) : Verdict → Reputation
  | .blocked => p
  | .penalised penalty _ _ =>
    { p with trust := Store.clampTrust (tm.python.round (p.trust - penalty)) }
  | .accepted accuracy =>
    { trust := Store.clampTrust (tm.python.round (p.trust + tm.python.round (2 / 100)))
      lastAccuracy := accuracy.orElse fun _ => p.lastAccuracy }

/-- What is answered for a verdict. -/
def report (p : Reputation) (numExamples : ℤ) (v : Verdict) : Evaluation :=
  match v with
  | .blocked =>
    { accepted := false, trust := p.trust, weight := 0, accuracy := none
      reason := "trust below minimum" }
  | .penalised _ accuracy reason =>
    { accepted := false, trust := (tm.settle p v).trust, weight := 0, accuracy, reason }
  | .accepted accuracy =>
    let capped := min (max numExamples 1) tm.maxNumExamples
    { accepted := true, trust := (tm.settle p v).trust
      weight := tm.python.round ((tm.settle p v).trust * tm.python.round capped)
      accuracy, reason := "accepted" }

/-- An evaluation on a reputation. -/
def assess (p : Reputation) (judgement : Judgement) (numExamples : ℤ) : Evaluation × Reputation :=
  (tm.report p numExamples (tm.verdict p judgement), tm.settle p (tm.verdict p judgement))

end TrustManager

/-! ### Evaluations are assessments -/

section Refinement

variable {s : Store} {x : String}

lemma reputation_updateOrgTrust (t now : ℚ) (y : String) :
    (s.updateOrgTrust x t now).reputation y = if x = y then
      (s.reputation y).map (fun p => { p with trust := Store.clampTrust t }) else s.reputation y := by
  rw [Store.reputation, getOrg_updateOrgTrust]
  split
  · rw [Store.reputation, Option.map_map, Option.map_map]
    rfl
  · rfl

lemma reputation_setOrgLastAccuracy (a : ℚ) (y : String) :
    (s.setOrgLastAccuracy x a).reputation y = if x = y then
      (s.reputation y).map (fun p => { p with lastAccuracy := some a }) else s.reputation y := by
  rw [Store.reputation, getOrg_setOrgLastAccuracy]
  split
  · rw [Store.reputation, Option.map_map, Option.map_map]
    rfl
  · rfl

namespace TrustManager

variable {tm : TrustManager}

lemma currentTrust_eq (s : Store) (x : String) :
    currentTrust s x = ((s.reputation x).getD Reputation.unknown).trust := by
  unfold currentTrust Store.reputation
  cases s.getOrg x <;> rfl

lemma lastAccuracy_eq (s : Store) (x : String) :
    s.getOrgLastAccuracy x = ((s.reputation x).getD Reputation.unknown).lastAccuracy := by
  unfold Store.getOrgLastAccuracy Store.reputation
  cases s.getOrg x <;> rfl

lemma bump_reputation (delta now : ℚ) (y : String) :
    (bump tm s x delta now).2.reputation y = if x = y then
      (s.reputation y).map
        (fun p => { p with trust := Store.clampTrust (tm.python.round (p.trust + delta)) })
      else s.reputation y := by
  rw [bump, reputation_updateOrgTrust, clampTrust_idem, currentTrust_eq]
  split
  · rename_i hxy
    subst hxy
    cases s.reputation x <;> rfl
  · rfl

/-- The outcome of an evaluation of `x` in the store `s` carries out the verdict `v`. -/
def CarriesOut (tm : TrustManager) (s : Store) (x : String) (numExamples : ℤ) (v : Verdict)
    (out : Evaluation × Store) : Prop :=
  out.1 = tm.report ((s.reputation x).getD Reputation.unknown) numExamples v ∧
    ∀ y, out.2.reputation y = if x = y then (s.reputation y).map (fun p => tm.settle p v)
      else s.reputation y

lemma reject_carriesOut {delta penalty : ℚ} (h : delta = -penalty) (numExamples : ℤ) (now : ℚ)
    (accuracy : Option ℚ) (reason : String) :
    CarriesOut tm s x numExamples (.penalised penalty accuracy reason)
      (reject tm s x delta now accuracy reason) := by
  subst h
  constructor
  · simp only [reject, bump, currentTrust_eq, report, settle, sub_eq_add_neg]
  · intro y
    simp only [reject, bump_reputation, settle, sub_eq_add_neg]

lemma accept_carriesOut (numExamples : ℤ) (now : ℚ) :
    CarriesOut tm s x numExamples (.accepted none) (accept tm s x numExamples none now) := by
  constructor
  · simp only [accept, bump, currentTrust_eq, report, settle]
  · intro y
    simp only [accept, bump_reputation]
    rfl

/-- The last accuracy is on record before the trust is raised. -/
lemma accept_scored_carriesOut (accuracy : ℚ) (numExamples : ℤ) (now : ℚ) :
    CarriesOut tm s x numExamples (.accepted (some accuracy))
      (accept tm (s.setOrgLastAccuracy x accuracy) x numExamples (some accuracy) now) := by
  have htrust : currentTrust (s.setOrgLastAccuracy x accuracy) x =
      ((s.reputation x).getD Reputation.unknown).trust := by
    rw [currentTrust_eq, reputation_setOrgLastAccuracy, if_pos rfl]
    cases s.reputation x <;> rfl
  constructor
  · simp only [accept, bump, htrust, report, settle]
  · intro y
    simp only [accept, bump_reputation, reputation_setOrgLastAccuracy]
    by_cases hxy : x = y
    · rw [if_pos hxy, if_pos hxy, if_pos hxy, Option.map_map]
      rfl
    · rw [if_neg hxy, if_neg hxy, if_neg hxy]

lemma evaluate_carriesOut (tm : TrustManager) (s : Store) (x : String) (judgement : Judgement)
    (numExamples : ℤ) (now : ℚ) :
    CarriesOut tm s x numExamples
      (tm.verdict ((s.reputation x).getD Reputation.unknown) judgement)
      (tm.evaluate s x judgement numExamples now) := by
  unfold evaluate verdict
  simp only [currentTrust_eq]
  by_cases hlow : ((s.reputation x).getD Reputation.unknown).trust < tm.minTrust
  · rw [if_pos hlow, if_pos hlow]
    refine ⟨rfl, fun y => ?_⟩
    cases s.reputation y <;> simp [settle]
  · rw [if_neg hlow, if_neg hlow]
    cases judgement with
    | unloadable e => exact reject_carriesOut rfl _ _ _ _
    | unscored msg =>
      by_cases hval : tm.validationData = true
      · simp only [if_pos hval]
        exact reject_carriesOut rfl _ _ _ _
      · simp only [if_neg hval]
        exact accept_carriesOut _ _
    | scored accuracy =>
      by_cases hval : tm.validationData = false
      · simp only [if_pos hval]
        exact accept_carriesOut _ _
      · simp only [if_neg hval]
        by_cases hmin : accuracy < tm.minAccuracy
        · rw [if_pos hmin, if_pos hmin]
          exact reject_carriesOut rfl _ _ _ _
        · rw [if_neg hmin, if_neg hmin, suddenDrop, lastAccuracy_eq]
          cases ((s.reputation x).getD Reputation.unknown).lastAccuracy.filter
              (fun prev => tm.maxAccuracyDrop < tm.python.round (prev - accuracy)) with
          | some prev => exact reject_carriesOut rfl _ _ _ _
          | none => exact accept_scored_carriesOut _ _ _

/-- An evaluation answers as the assessment of the org's reputation does, and leaves the org with
the reputation of that assessment. -/
theorem evaluate_assess (tm : TrustManager) (s : Store) (x : String) (judgement : Judgement)
    (numExamples : ℤ) (now : ℚ) :
    (tm.evaluate s x judgement numExamples now).1 =
        (tm.assess ((s.reputation x).getD Reputation.unknown) judgement numExamples).1 ∧
      ∀ y, (tm.evaluate s x judgement numExamples now).2.reputation y = if x = y then
        (s.reputation y).map (fun p => (tm.assess p judgement numExamples).2)
        else s.reputation y := by
  obtain ⟨hreport, hsettle⟩ := evaluate_carriesOut tm s x judgement numExamples now
  refine ⟨hreport, fun y => ?_⟩
  rw [hsettle]
  by_cases hxy : x = y
  · subst hxy
    rw [if_pos rfl, if_pos rfl]
    cases s.reputation x <;> rfl
  · rw [if_neg hxy, if_neg hxy]

end TrustManager

end Refinement

/-! ### One org over any number of evaluations -/

section Dynamics

/-- The arguments of a call of `evaluate` besides the org. -/
structure Call where
  judgement : Judgement
  numExamples : ℤ
  now : ℚ

namespace TrustManager

variable (tm : TrustManager) (x : String)

def call (c : Call) (s : Store) : Evaluation × Store :=
  tm.evaluate s x c.judgement c.numExamples c.now

def step (c : Call) (s : Store) : Store := (tm.call x c s).2

/-- The calls of a sequence that accept. -/
def acceptances (s : Store) (cs : List Call) : ℕ :=
  (visits (tm.step x) s cs).countP (fun p => (tm.call x p.2 p.1).1.accepted)

/-- The calls of a sequence that reject an org of sufficient trust, and lower it. -/
def penalties (s : Store) (cs : List Call) : ℕ :=
  (visits (tm.step x) s cs).countP (fun p =>
    !(tm.call x p.2 p.1).1.accepted && decide (tm.minTrust ≤ currentTrust p.1 x))

/-- Rounding moves a small number by no more than `slack`. -/
structure RoundsWithin (slack : ℚ) : Prop where
  small : slack ≤ 1 / 100
  near : ∀ q, |q| ≤ 4 → |tm.python.round q - q| ≤ slack

/-- What one call does to the trust `t`: it ends as `t'`. -/
inductive Moved (slack : ℚ) (c : Call) (t : ℚ) (ev : Evaluation) (t' : ℚ) : Prop
  | blocked (low : t < tm.minTrust) (rejected : ev.accepted = false) (weight : ev.weight = 0)
      (kept : t' = t)
  | penalised (enough : tm.minTrust ≤ t) (rejected : ev.accepted = false) (weight : ev.weight = 0)
      (above : t - 2 / 10 - 2 * slack ≤ t') (below : t' ≤ t - 1 / 10 + 2 * slack)
  | accepted (enough : tm.minTrust ≤ t) (taken : ev.accepted = true)
      (weight : ev.weight = tm.python.round (t' * tm.python.round
        ((min (max c.numExamples 1) tm.maxNumExamples : ℤ))))
      (above : t ≤ t') (below : t' ≤ t + 2 / 100 + 2 * slack) (most : t' ≤ 1)

variable {tm x} {s : Store} {slack : ℚ}

lemma RoundsWithin.bounds (h : tm.RoundsWithin slack) {q : ℚ} (h0 : -4 ≤ q) (h4 : q ≤ 4) :
    q - slack ≤ tm.python.round q ∧ tm.python.round q ≤ q + slack := by
  have hnear := abs_le.mp (h.near q (abs_le.mpr ⟨h0, h4⟩))
  exact ⟨by linarith [hnear.1], by linarith [hnear.2]⟩

/-- Doubles of this size lie closer than a unit of the last place. -/
lemma roundsWithin (tm : TrustManager) : tm.RoundsWithin (1 / 2 ^ 52) :=
  ⟨by norm_num, tm.python.round_near⟩

/-- The default parameters, in exact arithmetic. -/
def exactDefaults (validationData : Bool) : TrustManager where
  python := .exact
  validationData

lemma roundsWithin_exact (validationData : Bool) :
    (exactDefaults validationData).RoundsWithin 0 :=
  ⟨by norm_num, fun q _ => (by rw [abs_nonpos_iff]; exact sub_self q)⟩

lemma clampTrust_of_mem {t : ℚ} (h0 : 0 ≤ t) (h1 : t ≤ 1) : Store.clampTrust t = t := by
  rw [Store.clampTrust, min_eq_right h1, max_eq_right h0]

lemma clampTrust_le_one (t : ℚ) : Store.clampTrust t ≤ 1 :=
  max_le zero_le_one (min_le_left _ _)

lemma clampTrust_le {t u : ℚ} (h : t ≤ u) (h0 : 0 ≤ u) : Store.clampTrust t ≤ u :=
  max_le h0 ((min_le_right _ _).trans h)

/-- The penalties are small enough for the lower clamp never to be reached. -/
lemma moved_assess (hround : tm.RoundsWithin slack) (hfloor : 1 / 4 ≤ tm.minTrust)
    {p : Reputation} (hle : p.trust ≤ 1) (c : Call) :
    Moved tm slack c p.trust (tm.assess p c.judgement c.numExamples).1
      (tm.assess p c.judgement c.numExamples).2.trust := by
  have hsmall := hround.small
  have hpenalty : ∀ {penalty accuracy reason}, tm.minTrust ≤ p.trust → 1 / 10 ≤ penalty →
      penalty ≤ 2 / 10 →
      Moved tm slack c p.trust
        (tm.report p c.numExamples (.penalised (tm.python.round penalty) accuracy reason))
        (tm.settle p (.penalised (tm.python.round penalty) accuracy reason)).trust := by
    intro penalty accuracy reason henough h1 h2
    obtain ⟨hp1, hp2⟩ := hround.bounds (q := penalty) (by linarith) (by linarith)
    obtain ⟨hd1, hd2⟩ := hround.bounds (q := p.trust - tm.python.round penalty) (by linarith)
      (by linarith)
    have hsettle : (tm.settle p (.penalised (tm.python.round penalty) accuracy reason)).trust =
        tm.python.round (p.trust - tm.python.round penalty) :=
      clampTrust_of_mem (by linarith) (by linarith)
    exact .penalised henough rfl rfl (by linarith) (by linarith)
  have haccept : ∀ {accuracy}, tm.minTrust ≤ p.trust →
      Moved tm slack c p.trust (tm.report p c.numExamples (.accepted accuracy))
        (tm.settle p (.accepted accuracy)).trust := by
    intro accuracy henough
    obtain ⟨hr1, hr2⟩ := hround.bounds (q := 2 / 100) (by norm_num) (by norm_num)
    obtain ⟨hs1, hs2⟩ := hround.bounds (q := p.trust + tm.python.round (2 / 100)) (by linarith)
      (by linarith)
    exact .accepted henough rfl rfl (le_clampTrust_reward tm.python hle le_rfl)
      (clampTrust_le (by linarith) (by linarith)) (clampTrust_le_one _)
  unfold assess verdict
  by_cases hlow : p.trust < tm.minTrust
  · rw [if_pos hlow]
    exact .blocked hlow rfl rfl rfl
  · rw [if_neg hlow]
    have henough := not_lt.mp hlow
    cases c.judgement with
    | unloadable e => exact hpenalty henough (by norm_num) le_rfl
    | unscored msg =>
      by_cases hval : tm.validationData = true
      · simp only [if_pos hval]
        exact hpenalty henough le_rfl (by norm_num)
      · simp only [if_neg hval]
        exact haccept henough
    | scored accuracy =>
      by_cases hval : tm.validationData = false
      · simp only [if_pos hval]
        exact haccept henough
      · simp only [if_neg hval]
        by_cases hmin : accuracy < tm.minAccuracy
        · rw [if_pos hmin]
          exact hpenalty henough (by norm_num) (by norm_num)
        · rw [if_neg hmin]
          cases p.lastAccuracy.filter
              (fun prev => tm.maxAccuracyDrop < tm.python.round (prev - accuracy)) with
          | some prev => exact hpenalty henough (by norm_num) le_rfl
          | none => exact haccept henough

lemma moved_call (hround : tm.RoundsWithin slack) (hfloor : 1 / 4 ≤ tm.minTrust) {row : OrgRow}
    (hrow : s.getOrg x = some row) (hle : row.trustScore ≤ 1) (c : Call) :
    ∃ row', (tm.step x c s).getOrg x = some row' ∧
      row'.trustScore = (tm.call x c s).1.trust ∧
      Moved tm slack c row.trustScore (tm.call x c s).1 row'.trustScore := by
  obtain ⟨hreport, hsettle⟩ := evaluate_assess tm s x c.judgement c.numExamples c.now
  have hrep : s.reputation x = some row.reputation := by rw [Store.reputation, hrow]; rfl
  have hnew := hsettle x
  rw [if_pos rfl, hrep] at hnew
  obtain ⟨row', hrow', hrep'⟩ := Option.map_eq_some_iff.mp hnew
  rw [hrep] at hreport
  have htrust : row'.trustScore = (tm.assess row.reputation c.judgement c.numExamples).2.trust :=
    congrArg Reputation.trust hrep'
  refine ⟨row', hrow', ?_, ?_⟩
  · rw [htrust, call, hreport, Option.getD_some]
    simp only [assess, report]
    cases tm.verdict row.reputation c.judgement <;> rfl
  · rw [htrust, call, hreport]
    exact moved_assess (p := row.reputation) hround hfloor hle c

lemma call_of_low {row : OrgRow} (hrow : s.getOrg x = some row)
    (hlow : row.trustScore < tm.minTrust) (c : Call) :
    (tm.call x c s).1.accepted = false ∧ (tm.call x c s).1.weight = 0 ∧ tm.step x c s = s := by
  have hcur : currentTrust s x < tm.minTrust := by
    rw [currentTrust, hrow]
    exact hlow
  simp only [step, call, evaluate]
  rw [if_pos hcur]
  exact ⟨rfl, rfl, rfl⟩

variable (tm x s)

/-- The trust of an enrolled org over a sequence of calls. -/
structure Dynamics (cs : List Call) : Prop where
  bounded : ∃ row, (Lib.run (tm.step x) s cs).getOrg x = some row ∧ 1 / 10 ≤ row.trustScore ∧
    row.trustScore ≤ 1 ∧
    row.trustScore ≤ 1 + 2 / 100 * tm.acceptances x s cs - 1 / 10 * tm.penalties x s cs
  returned : ∀ p ∈ visits (tm.step x) s cs, ∃ row, (tm.step x p.2 p.1).getOrg x = some row ∧
    row.trustScore = (tm.call x p.2 p.1).1.trust
  absorbed : ∀ pre post row, cs = pre ++ post →
    (Lib.run (tm.step x) s pre).getOrg x = some row → row.trustScore < 3 / 10 →
    ∀ p ∈ visits (tm.step x) (Lib.run (tm.step x) s pre) post,
      (tm.call x p.2 p.1).1.accepted = false ∧ (tm.call x p.2 p.1).1.weight = 0 ∧
        tm.step x p.2 p.1 = p.1
  taken : ∀ p ∈ visits (tm.step x) s cs, (tm.call x p.2 p.1).1.accepted = true →
    3 / 10 ≤ (tm.call x p.2 p.1).1.trust ∧
      (tm.call x p.2 p.1).1.weight =
        (tm.call x p.2 p.1).1.trust * min (max p.2.numExamples 1) tm.maxNumExamples ∧
      0 < (tm.call x p.2 p.1).1.weight ∧ (tm.call x p.2 p.1).1.weight ≤ tm.maxNumExamples
  refused : ∀ p ∈ visits (tm.step x) s cs, (tm.call x p.2 p.1).1.accepted = false →
    (tm.call x p.2 p.1).1.weight = 0

variable {tm x s}

/-- Trust between the lowest score a penalty can leave and one. -/
def InRange (x : String) (s : Store) : Prop :=
  ∃ row, s.getOrg x = some row ∧ 1 / 10 ≤ row.trustScore ∧ row.trustScore ≤ 1

lemma InRange.row {row : OrgRow} (h : InRange x s) (hrow : s.getOrg x = some row) :
    1 / 10 ≤ row.trustScore ∧ row.trustScore ≤ 1 := by
  obtain ⟨r, hr, hrange⟩ := h
  rw [hrow] at hr
  cases hr
  exact hrange

lemma inRange_step (hround : tm.RoundsWithin 0) (hmin : tm.minTrust = 3 / 10) (c : Call)
    (h : InRange x s) :
    InRange x (tm.step x c s) := by
  obtain ⟨row, hrow, hlo, hhi⟩ := h
  have hfloor : 1 / 4 ≤ tm.minTrust := by linarith
  obtain ⟨row', hrow', -, hmoved⟩ := moved_call hround hfloor hrow hhi c
  refine ⟨row', hrow', ?_⟩
  cases hmoved with
  | blocked low rejected weight kept => exact ⟨by linarith, by linarith⟩
  | penalised enough rejected weight above below => exact ⟨by linarith, by linarith⟩
  | accepted enough taken weight above below most => exact ⟨by linarith, most⟩

lemma inRange_visits (hround : tm.RoundsWithin 0) (hmin : tm.minTrust = 3 / 10) {cs : List Call}
    (h : InRange x s) :
    ∀ p ∈ visits (tm.step x) s cs, InRange x p.1 := by
  intro p hp
  obtain ⟨pre, post, -, hstate⟩ := (mem_visits _).mp hp
  rw [hstate]
  exact run_invariant_all (tm.step x) (fun t c ht => inRange_step hround hmin c ht) h pre

/-- Each acceptance raises the trust by two hundredths at most, and each penalty lowers it by a
tenth at least. -/
lemma trust_run_le (hround : tm.RoundsWithin 0) (hmin : tm.minTrust = 3 / 10) {cs : List Call}
    {row row' : OrgRow} (h : InRange x s) (hrow : s.getOrg x = some row)
    (hrow' : (Lib.run (tm.step x) s cs).getOrg x = some row') :
    row'.trustScore ≤
      row.trustScore + 2 / 100 * tm.acceptances x s cs - 1 / 10 * tm.penalties x s cs := by
  induction cs generalizing s row with
  | nil =>
    simp only [run_nil, hrow, Option.some.injEq] at hrow'
    subst hrow'
    simp [acceptances, penalties]
  | cons c cs ih =>
    have hfloor : 1 / 4 ≤ tm.minTrust := by linarith
    obtain ⟨mid, hmid, -, hmoved⟩ := moved_call hround hfloor hrow (h.row hrow).2 c
    have hrest := ih (inRange_step hround hmin c h) hmid hrow'
    have hcur : currentTrust s x = row.trustScore := by rw [currentTrust, hrow]; rfl
    have hacc : tm.acceptances x s (c :: cs) =
        tm.acceptances x (tm.step x c s) cs + if (tm.call x c s).1.accepted then 1 else 0 := by
      simp only [acceptances, visits_cons, List.countP_cons]
    have hpen : tm.penalties x s (c :: cs) = tm.penalties x (tm.step x c s) cs +
        if (!(tm.call x c s).1.accepted && decide (tm.minTrust ≤ row.trustScore)) then 1 else 0 := by
      simp only [penalties, visits_cons, List.countP_cons, hcur]
    rw [hacc, hpen]
    cases hmoved with
    | blocked low rejected weight kept =>
      simp only [rejected, not_le.mpr low, decide_false, Bool.and_false]
      push_cast
      linarith
    | penalised enough rejected weight above below =>
      simp only [rejected, enough, decide_true, Bool.not_false, Bool.and_true]
      push_cast
      linarith
    | accepted enough taken weight above below most =>
      simp only [taken, Bool.not_true, Bool.false_and]
      push_cast
      linarith

lemma visits_of_low {row : OrgRow} (hrow : s.getOrg x = some row)
    (hlow : row.trustScore < tm.minTrust) {cs : List Call} :
    ∀ p ∈ visits (tm.step x) s cs, p.1 = s := by
  intro p hp
  obtain ⟨pre, post, -, hstate⟩ := (mem_visits _).mp hp
  rw [hstate]
  apply run_invariant_all (tm.step x) (I := fun t => t = s) ?_ rfl
  rintro t c rfl
  exact (call_of_low hrow hlow c).2.2

/-- Over every sequence of evaluations of an org that starts with full trust, under default
parameters and in exact arithmetic, the trust on record is the one returned, stays in its range,
pays for each penalised rejection, and blocks the org for good once it is below the minimum. -/
theorem trust_dynamics (validationData : Bool) {s : Store} {x : String} {row : OrgRow}
    (henrolled : s.getOrg x = some row) (hfull : row.trustScore = 1) (cs : List Call) :
    Dynamics (exactDefaults validationData) x s cs := by
  have hmin : (exactDefaults validationData).minTrust = 3 / 10 := rfl
  have hfloor : 1 / 4 ≤ (exactDefaults validationData).minTrust := by
    rw [hmin]
    norm_num
  have hround := roundsWithin_exact validationData
  have hstart : InRange x s := ⟨row, henrolled, by linarith, by linarith⟩
  -- each call finds an org in range and moves it
  have hcall : ∀ p ∈ visits ((exactDefaults validationData).step x) s cs, ∃ r r',
      ((exactDefaults validationData).step x p.2 p.1).getOrg x = some r' ∧
      r'.trustScore = ((exactDefaults validationData).call x p.2 p.1).1.trust ∧
      Moved (exactDefaults validationData) 0 p.2 r
        ((exactDefaults validationData).call x p.2 p.1).1 r'.trustScore := by
    intro p hp
    obtain ⟨r, hr, -, hhi⟩ := inRange_visits hround hmin hstart p hp
    exact ⟨r.trustScore, moved_call hround hfloor hr hhi p.2⟩
  refine ⟨?_, fun p hp => ?_, ?_, fun p hp hacc => ?_, fun p hp hrej => ?_⟩
  · obtain ⟨row', hrow', hlo, hhi⟩ :=
      run_invariant_all _ (fun t c ht => inRange_step hround hmin c ht) hstart cs
    have hle := trust_run_le hround hmin hstart henrolled hrow'
    rw [hfull] at hle
    exact ⟨row', hrow', hlo, hhi, hle⟩
  · obtain ⟨r, r', hr', hret, -⟩ := hcall p hp
    exact ⟨r', hr', hret⟩
  · intro pre post r hcs hr hlow p hp
    have hsame := visits_of_low hr hlow p hp
    rw [← hsame] at hr
    exact call_of_low hr hlow p.2
  · obtain ⟨r, r', -, hret, hmoved⟩ := hcall p hp
    cases hmoved with
    | blocked low rejected => rw [hacc] at rejected; cases rejected
    | penalised enough rejected => rw [hacc] at rejected; cases rejected
    | accepted enough taken weight above below most =>
      rw [← hret]
      have hcapped : (1 : ℚ) ≤ (min (max p.2.numExamples 1) 1000000 : ℤ) ∧
          ((min (max p.2.numExamples 1) 1000000 : ℤ) : ℚ) ≤ 1000000 := by
        constructor
        · exact_mod_cast le_min (le_max_right _ _) (by norm_num)
        · exact_mod_cast min_le_right _ _
      have hbase : 3 / 10 ≤ r'.trustScore := by linarith
      have hweight : ((exactDefaults validationData).call x p.2 p.1).1.weight =
          r'.trustScore * ((min (max p.2.numExamples 1) 1000000 : ℤ) : ℚ) := weight
      refine ⟨hbase, weight, ?_, ?_⟩
      · rw [hweight]
        exact mul_pos (by linarith) (by linarith [hcapped.1])
      · rw [hweight]
        calc r'.trustScore * ((min (max p.2.numExamples 1) 1000000 : ℤ) : ℚ)
            ≤ 1 * ((min (max p.2.numExamples 1) 1000000 : ℤ) : ℚ) :=
              mul_le_mul_of_nonneg_right most (by linarith [hcapped.1])
          _ ≤ ((1000000 : ℤ) : ℚ) := by
              rw [one_mul]
              exact_mod_cast hcapped.2
  · obtain ⟨r, r', -, -, hmoved⟩ := hcall p hp
    cases hmoved with
    | blocked low rejected weight => exact weight
    | penalised enough rejected weight => exact weight
    | accepted enough taken => rw [hrej] at taken; cases taken

/-- What the enrollment of `x` stores. -/
def newcomer : Store.Enrollment where
  orgId := "x"
  displayName := "Org"
  apiKeyHash := ""
  enrolledBy := "admin"
  publicKeyPem := none
  certPem := none
  certSerial := none
  notes := none

/-- Four uploads of `x` cannot be loaded, and the fifth one would score well. -/
theorem trust_dynamics_newcomer :
    Dynamics (exactDefaults true) "x" (Store.empty.insertOrg newcomer 0)
      (List.replicate 4 ⟨.unloadable "json", 1, 1⟩ ++ [⟨.scored 1, 1, 2⟩]) :=
  have henrolled : (Store.empty.insertOrg newcomer 0).getOrg "x" = some (newcomer.row 0) := by
    rw [Store.getOrg_insertOrg]
    rfl
  trust_dynamics true henrolled rfl _

end TrustManager

end Dynamics

end FlCoordinator
