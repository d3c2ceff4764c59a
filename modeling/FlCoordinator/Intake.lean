import FlCoordinator.GlobalModels

/-!
# Replayed and late uploads

The rows of `contributions`, accepted or not, against the challenges they consume and the state
of their round, for every schedule of the suspended uploads.
-/

namespace FlCoordinator

open Lib

/-! ### Challenges are used once -/

section Replay

variable {app : App}

lemma unused_of_spends {s : Sys} {e : Event} {challenge : String} (h : Spends app s e challenge) :
    ∃ row, s.world.store.challenges.get? challenge = some row ∧ row.consumed = false := by
  obtain ⟨i, env, p, -, -, hc⟩ := h
  obtain ⟨row, hkey, hrow, -, -, hunused, -⟩ := Store.consumeChallenge_ok (Prod.ext hc.granted rfl)
  rw [← Option.some.inj hkey] at hrow
  exact ⟨row, hrow, hunused⟩

lemma used_of_spends {s : Sys} {e : Event} {challenge : String} (h : Spends app s e challenge) :
    ∃ row, (next app e s).world.store.challenges.get? challenge = some row ∧
      row.consumed = true := by
  obtain ⟨i, env, p, rfl, hp, hc⟩ := h
  have hworld : (next app (.resume i env) s).world = (contributeFinish app p env s.world).2 := by
    simp only [next, hp]
  rw [hworld]
  exact contributeFinish_marks hc

/-- Every row has its own used challenge. -/
structure ChallengesSpent (s : Store) : Prop where
  used : ∀ c ∈ s.contributions.rows,
    ∃ row, s.challenges.get? c.challenge = some row ∧ row.consumed = true
  distinct : ∀ c ∈ s.contributions.rows, ∀ d ∈ s.contributions.rows, c.challenge = d.challenge →
    c = d

lemma challengesSpent_next {s : Sys} (e : Event) (h : ChallengesSpent s.world.store) :
    ChallengesSpent (next app e s).world.store := by
  have heffect := next_effect app s e
  -- the challenge of a new row was unused, so that no old row has it
  have hold : ∀ c ∈ s.world.store.contributions.rows, ¬Spends app s e c.challenge := by
    intro c hc hspends
    obtain ⟨row, hrow, hused⟩ := h.used c hc
    obtain ⟨row', hrow', hunused⟩ := unused_of_spends hspends
    rw [hrow] at hrow'
    obtain rfl := Option.some.inj hrow'
    rw [hused] at hunused
    cases hunused
  have hnew : ∀ {c}, c ∈ (next app e s).world.store.contributions.rows →
      c ∈ s.world.store.contributions.rows ∨ Spends app s e c.challenge ∧
        c.contributionId = s.world.store.contributions.seq + 1 := by
    intro c hc
    rcases heffect.recorded hc with hc | ⟨i, env, p, rfl, hp, hcons, ⟨n, hrow⟩ | ⟨chal, n, -, hrow⟩⟩
    · exact Or.inl hc
    · exact Or.inr ⟨⟨i, env, p, rfl, hp, hcons⟩, by rw [hrow]; rfl⟩
    · exact Or.inr ⟨⟨i, env, p, rfl, hp, hcons⟩, by rw [hrow]; rfl⟩
  refine ⟨fun c hc => ?_, fun c hc d hd heq => ?_⟩
  · rcases hnew hc with hc | ⟨hspends, -⟩
    · obtain ⟨row, hrow, hused⟩ := h.used c hc
      exact consumed_run app [e] hrow hused
    · exact used_of_spends hspends
  · rcases hnew hc with hc' | ⟨hspends, hid⟩
    · rcases hnew hd with hd' | ⟨hspends, -⟩
      · exact h.distinct c hc' d hd' heq
      · exact absurd (heq ▸ hspends) (hold c hc')
    · rcases hnew hd with hd' | ⟨-, hid'⟩
      · exact absurd (heq ▸ hspends) (hold d hd')
      · exact List.inj_on_of_nodup_map (next app e s).world.store.contributions.nodup hc hd
          (hid.trans hid'.symm)

lemma challenge_of_attestation {es : List Event} {c : ContributionRow}
    (h : c ∈ (after app es).world.store.contributions.rows) :
    ∃ att v, app.python.loads c.signedAttestation = .ok att ∧ att.item "challenge" = .ok v ∧
      app.host.bindText v = .ok (some c.challenge) := by
  obtain ⟨pre, e, post, -, p, env, hp, hcons, hatt⟩ := run_origin (next app) (s := init app)
    (F := fun s => c ∈ s.world.store.contributions.rows)
    (G := fun s _ => ∃ p env, p ∈ s.inFlight ∧ ConsumesChallenge app p env s.world c.challenge ∧
      c.signedAttestation = p.attBytes) (by simp [init, Store.empty])
    (fun s e hc => by
      rcases (next_effect app s e).recorded hc with
        hc | ⟨i, env, p, -, hp, hcons, ⟨n, hrow⟩ | ⟨chal, n, -, hrow⟩⟩
      · exact Or.inl hc
      · exact Or.inr ⟨p, env, List.mem_of_getElem? hp, hcons, by rw [hrow]; rfl⟩
      · exact Or.inr ⟨p, env, List.mem_of_getElem? hp, hcons, by rw [hrow]; rfl⟩) es h
  obtain ⟨before, request, between, -, hscreen⟩ := received_of_inFlight hp
  obtain ⟨v, hv, hb⟩ := hcons.named
  exact ⟨p.att, v, hatt ▸ hscreen.parsed, hv, hb⟩

/-- No challenge and no attestation is good for a second contribution. -/
structure ReplaySafe (app : App) (es : List Event) : Prop where
  once : ∀ pre e mid e' post challenge, es = pre ++ e :: (mid ++ e' :: post) →
    Spends app (after app pre) e challenge →
    ¬Spends app (after app (pre ++ e :: mid)) e' challenge
  recorded : ∀ c ∈ (after app es).world.store.contributions.rows, ∃ pre e post,
    es = pre ++ e :: post ∧ Spends app (after app pre) e c.challenge ∧
      c ∉ (after app pre).world.store.contributions.rows ∧
      c ∈ (after app (pre ++ [e])).world.store.contributions.rows
  challenges : ∀ c ∈ (after app es).world.store.contributions.rows,
    ∀ d ∈ (after app es).world.store.contributions.rows, c.challenge = d.challenge → c = d
  attestations : ∀ c ∈ (after app es).world.store.contributions.rows,
    ∀ d ∈ (after app es).world.store.contributions.rows,
      c.signedAttestation = d.signedAttestation → c = d

/-- Over every run and every schedule of the uploads, a challenge is consumed at most once, every
row is left by the request that consumed its challenge, and no two rows share a challenge or an
attestation. -/
theorem replay_safe (app : App) (es : List Event) : ReplaySafe app es := by
  have hspent : ChallengesSpent (after app es).world.store :=
    run_invariant_all (next app) (I := fun s => ChallengesSpent s.world.store)
      (fun s e h => challengesSpent_next e h)
      (by constructor <;> simp [init, Store.empty]) es
  refine ⟨?_, fun c hc => ?_, hspent.distinct, fun c hc d hd heq => hspent.distinct c hc d hd ?_⟩
  · rintro pre e mid e' post challenge rfl hfirst hsecond
    obtain ⟨row, hrow, hused⟩ := used_of_spends hfirst
    obtain ⟨row', hrow', hused'⟩ := consumed_run app mid hrow hused
    obtain ⟨row'', hrow'', hunused⟩ := unused_of_spends hsecond
    rw [after_append] at hrow''
    obtain rfl := Option.some.inj (hrow'.symm.trans hrow'')
    rw [hused'] at hunused
    cases hunused
  · obtain ⟨pre, e, post, hes, hold, hnew⟩ := exists_step_of_run (next app)
      (P := fun s => c ∈ s.world.store.contributions.rows) (s := init app) es
      (by simp [init, Store.empty]) hc
    refine ⟨pre, e, post, hes, ?_, hold, by rw [after_concat]; exact hnew⟩
    rcases (next_effect app (after app pre) e).recorded hnew with hc | ⟨i, env, p, he, hp, hcons, -⟩
    · exact absurd hc hold
    · exact ⟨i, env, p, he, hp, hcons⟩
  · obtain ⟨att, v, hatt, hv, hb⟩ := challenge_of_attestation hc
    obtain ⟨att', v', hatt', hv', hb'⟩ := challenge_of_attestation hd
    rw [heq, hatt'] at hatt
    obtain rfl := Except.ok.inj hatt
    rw [hv'] at hv
    obtain rfl := Except.ok.inj hv
    rw [hb'] at hb
    exact (Option.some.inj (Except.ok.inj hb)).symm

end Replay

/-! ### Uploads that come too late -/

section Late

variable {app : App}

def RoundRunning (s : Store) (roundId : ℤ) : Prop :=
  ∃ r, s.getRound roundId = some r ∧ r.status = .running

def RoundClosed (s : Store) (roundId : ℤ) : Prop :=
  ∃ r, s.getRound roundId = some r ∧ r.status ≠ .running

lemma not_running_of_closed {s : Store} {k : ℤ} (h : RoundClosed s k) : ¬RoundRunning s k := by
  obtain ⟨r, hr, hclosed⟩ := h
  rintro ⟨r', hr', hrun⟩
  rw [hr] at hr'
  obtain rfl := Option.some.inj hr'
  exact hclosed hrun

lemma roundClosed_run (app : App) {s : Sys} {k : ℤ} (es : List Event)
    (h : RoundClosed s.world.store k) : RoundClosed (Lib.run (next app) s es).world.store k :=
  run_invariant_all (next app) (I := fun t => RoundClosed t.world.store k)
    (fun t e ⟨r, hr, hclosed⟩ => by
      obtain ⟨r', hr', hclosed', -⟩ := closed_next app e hr hclosed
      exact ⟨r', hr', hclosed'⟩) h es

lemma closed_of_stopped {s : Sys} {e : Event} {k : ℤ} (h : RoundRunning s.world.store k)
    (hstop : ¬RoundRunning (next app e s).world.store k) :
    RoundClosed (next app e s).world.store k := by
  obtain ⟨r, hr, -⟩ := h
  obtain ⟨r', hr', -⟩ := (next_effect app s e).opening hr
  exact ⟨r', hr', fun hrun => hstop ⟨r', hr', hrun⟩⟩

lemma inFlight_of_closed (app : App) {s : Sys} {p : Pending} (es : List Event)
    (hclosed : RoundClosed s.world.store p.roundId)
    (h : p ∈ (Lib.run (next app) s es).inFlight) : p ∈ s.inFlight := by
  by_contra hnot
  obtain ⟨pre, e, post, -, c, -, hscreen⟩ := run_origin (next app) (F := fun t => p ∈ t.inFlight)
    (G := fun t e => ∃ c, e = .contribute c ∧ Screened app c t.world p) hnot
    (fun _ _ => mem_inFlight_next) es h
  exact not_running_of_closed (roundClosed_run app pre hclosed) hscreen.running

/-- The accepted contributions of a run: each one is recorded while its round is running, and
those of a closed round stay the same. -/
structure AcceptedWhileRunning (app : App) (es : List Event) : Prop where
  running : ∀ pre e post c, es = pre ++ e :: post → c.accepted = true →
    c ∉ (after app pre).world.store.contributions.rows →
    c ∈ (after app (pre ++ [e])).world.store.contributions.rows →
    RoundRunning (after app pre).world.store c.roundId
  fixed : ∀ pre mid post k, es = pre ++ (mid ++ post) →
    RoundClosed (after app pre).world.store k →
    ∀ c, c ∈ (after app (pre ++ mid)).world.store.acceptedIn k ↔
      c ∈ (after app pre).world.store.acceptedIn k

/-- An upload that is suspended when its round stops running fails one of the checks that are
left when it is resumed. -/
def NoLateUpload (app : App) (es : List Event) : Prop :=
  ∀ pre e mid i env post p, es = pre ++ e :: (mid ++ .resume i env :: post) →
    RoundRunning (after app pre).world.store p.roundId →
    ¬RoundRunning (after app (pre ++ [e])).world.store p.roundId →
    p ∈ (after app (pre ++ [e])).inFlight →
    (after app (pre ++ e :: mid)).inFlight[i]? = some p →
    ¬Admissible app p env (after app (pre ++ e :: mid)).world

lemma stopped_of_inFlight {es : List Event} {p : Pending} (h : p ∈ (after app es).inFlight)
    (hstop : ¬RoundRunning (after app es).world.store p.roundId) :
    ∃ pre e mid, es = pre ++ e :: mid ∧ RoundRunning (after app pre).world.store p.roundId ∧
      ¬RoundRunning (after app (pre ++ [e])).world.store p.roundId ∧
      p ∈ (after app (pre ++ [e])).inFlight := by
  obtain ⟨before, c, between, rfl, hscreen⟩ := received_of_inFlight h
  rw [after_append] at h hstop
  obtain ⟨pre, e, mid, hes, hrun, hstopped⟩ := exists_step_of_run (next app)
    (P := fun t => ¬RoundRunning t.world.store p.roundId) (.contribute c :: between)
    (not_not_intro hscreen.running) hstop
  have hrun' := not_not.mp hrun
  rw [← after_append] at hrun' hstopped
  rw [← after_concat] at hstopped
  refine ⟨before ++ pre, e, mid, by rw [hes, List.append_assoc], hrun', hstopped, ?_⟩
  refine inFlight_of_closed app mid ?_ ?_
  · rw [after_concat] at hstopped ⊢
    exact closed_of_stopped hrun' hstopped
  · rw [← after_append, List.append_assoc, List.append_assoc, List.singleton_append, ← hes,
      after_append]
    exact h

lemma mem_acceptedIn {s : Store} {k : ℤ} {c : ContributionRow} :
    c ∈ s.acceptedIn k ↔ c ∈ s.contributions.rows ∧ c.roundId = k ∧ c.accepted = true := by
  simp [Store.acceptedIn]

/-- Where accepted rows are recorded in running rounds only, those of a closed round are final. -/
lemma acceptedIn_fixed {es pre mid post : List Event} {k : ℤ}
    (hrunning : ∀ pre e post c, es = pre ++ e :: post → c.accepted = true →
      c ∉ (after app pre).world.store.contributions.rows →
      c ∈ (after app (pre ++ [e])).world.store.contributions.rows →
      RoundRunning (after app pre).world.store c.roundId)
    (hes : es = pre ++ (mid ++ post)) (hclosed : RoundClosed (after app pre).world.store k)
    (c : ContributionRow) : c ∈ (after app (pre ++ mid)).world.store.acceptedIn k ↔
      c ∈ (after app pre).world.store.acceptedIn k := by
  rw [mem_acceptedIn, mem_acceptedIn, after_append]
  constructor
  · rintro ⟨hc, hround, hacc⟩
    refine ⟨?_, hround, hacc⟩
    by_contra hnot
    obtain ⟨mid₁, e, mid₂, rfl, hold, hnew⟩ := exists_step_of_run (next app)
      (P := fun t => c ∈ t.world.store.contributions.rows) mid hnot hc
    rw [← after_append] at hold hnew
    rw [← after_concat] at hnew
    apply not_running_of_closed (roundClosed_run app mid₁ hclosed)
    rw [← after_append, ← hround]
    exact hrunning (pre ++ mid₁) e (mid₂ ++ post) c (by rw [hes]; simp) hacc hold hnew
  · rintro ⟨hc, hrest⟩
    exact ⟨contribution_run mid hc, hrest⟩

/-- Accepted contributions are recorded in running rounds only, and those of a closed round are
final, exactly when no upload that was suspended as its round closed passes the checks left. -/
theorem accepted_while_running_iff (app : App) (es : List Event) :
    AcceptedWhileRunning app es ↔ NoLateUpload app es := by
  constructor
  · rintro h pre e mid i env post p rfl hrun hstop - hp ⟨chal, n, hev⟩
    have hacc : Accepts app (after app (pre ++ e :: mid)) (.resume i env) p env chal n :=
      ⟨⟨i, rfl, hp⟩, hev⟩
    have hclosed : RoundClosed (after app (pre ++ e :: mid)).world.store p.roundId := by
      rw [after_concat] at hstop
      rw [after_append]
      exact roundClosed_run app mid (closed_of_stopped hrun hstop)
    refine not_running_of_closed hclosed (h.running (pre ++ e :: mid) (.resume i env) post
      (acceptedRow app (after app (pre ++ e :: mid)) p env chal n) (by simp) rfl
      (fun hold => ?_) ?_)
    · have hid := (after app (pre ++ e :: mid)).world.store.contributions.bounded _ hold
      exact absurd hid (by simp [acceptedRow, Store.Contribution.row])
    · rw [after_concat]
      exact hacc.recorded.1
  · intro h
    have hrunning : ∀ pre e post c, es = pre ++ e :: post → c.accepted = true →
        c ∉ (after app pre).world.store.contributions.rows →
        c ∈ (after app (pre ++ [e])).world.store.contributions.rows →
        RoundRunning (after app pre).world.store c.roundId := by
      rintro pre e post c rfl hacc hold hnew
      rw [after_concat] at hnew
      rcases (next_effect app (after app pre) e).contribution hnew with
        hc | hc | ⟨p, env, chal, n, hp, rfl⟩
      · exact absurd hc hold
      · rw [hacc] at hc
        cases hc
      · by_contra hstop
        obtain ⟨i, rfl, hi⟩ := hp.event
        obtain ⟨pre, e, mid, rfl, hrun, hstopped, hin⟩ :=
          stopped_of_inFlight (List.mem_of_getElem? hi) hstop
        exact h pre e mid i env post p (by simp) hrun hstopped hin hi ⟨chal, n, hp.evidence⟩
    exact ⟨hrunning, fun pre mid post k hes hclosed => acceptedIn_fixed hrunning hes hclosed⟩

/-- The round is aggregated while the second upload is being read. -/
def aggregatedMeanwhile : List Event :=
  [Sample.enroll "x" [1] 11, Sample.enroll "y" [2] 12, Sample.start none,
    Sample.challenge "a" (Sample.certOf "x" [1] 11), Sample.challenge "b" (Sample.certOf "y" [2] 12),
    Sample.contribute "x" "a" [1] 11 Sample.model, Sample.contribute "y" "b" [2] 12 Sample.model,
    Sample.resume, Sample.aggregate (fun _ => .scored 1)]

/-- The second upload joins the accepted contributions of the aggregated round. -/
theorem late_upload_accepted :
    ¬AcceptedWhileRunning Sample.app (aggregatedMeanwhile ++ [Sample.resume]) := by
  intro h
  have hstatus : ((after Sample.app aggregatedMeanwhile).world.store.getRound 1).map (·.status) =
      some .aggregated := by decide +kernel
  obtain ⟨r, hr, hst⟩ := Option.map_eq_some_iff.mp hstatus
  have hfixed := h.fixed aggregatedMeanwhile [Sample.resume] [] 1 rfl
    ⟨r, hr, by rw [hst]; decide⟩
  have hbefore : ((after Sample.app aggregatedMeanwhile).world.store.acceptedIn 1).map (·.orgId) =
      ["x"] := by decide +kernel
  have hafter : ((after Sample.app (aggregatedMeanwhile ++ [Sample.resume])).world.store.acceptedIn
      1).map (·.orgId) = ["x", "y"] := by decide +kernel
  obtain ⟨d, hd, horg⟩ := List.mem_map.mp (hafter ▸ (by simp : "y" ∈ ["x", "y"]))
  have hold := List.mem_map_of_mem (f := (·.orgId)) ((hfixed d).mp hd)
  rw [hbefore, horg] at hold
  exact absurd hold (by decide)

end Late

end FlCoordinator
