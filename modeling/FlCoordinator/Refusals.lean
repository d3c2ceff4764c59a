import FlCoordinator.RoundsSpec
import FlCoordinator.Sample

/-!
# Malformed contributions

What `submit_contribution` does with an attestation whose fields have the wrong types, or with a
signature that is not hexadecimal.
-/

namespace FlCoordinator

open Lib Handler

section Requests

/-- The attestation is an object with fields of the documented types. -/
structure WellTyped (att : Json) : Prop where
  roundId : ∃ n, att.item "round_id" = .ok (.int n) ∧ Host.bindInt n = .ok n
  numExamples : ∃ n, att.item "num_examples" = .ok (.int n) ∧ Host.bindInt n = .ok n
  texts : ∀ k ∈ ["type", "org_id", "model_sha256", "challenge", "submitted_at"],
    ∃ s, att.item k = .ok (.str s)

/-- The attestation is not JSON of these types, or the signature is not hexadecimal. -/
def Malformed (app : App) (c : ContributeRequest) : Prop :=
  (∀ att, app.python.loads (encode c.attestation) = .ok att → ¬WellTyped att) ∨
    fromHex c.signature = none

/-- A 4xx response. -/
def Failure.IsClientError : Failure → Prop
  | .http status _ => 400 ≤ status ∧ status < 500
  | .uncaught _ => False

/-- What contributions are made of is the same. -/
structure Untraced (w t : World) : Prop where
  challenges : t.store.challenges = w.store.challenges
  contributions : t.store.contributions = w.store.contributions
  files : t.files = w.files

/-- A refusal of the half request that started in `w`, without a trace. -/
def CleanError {α : Type} (w : World) (r : Except Failure α) (t : World) : Prop :=
  Untraced w t ∧ ∃ e, r = .error e ∧ e.IsClientError

/-- The request comes in while the state is `w`, and goes on, if it does, in `w'`: it is refused,
and neither half leaves a trace. -/
def RefusesCleanly (app : App) (c : ContributeRequest) (env : ContributeEnv) (w w' : World) :
    Prop :=
  (contributeStart app c).wp (fun r t => CleanError w r t ∨
    Untraced w t ∧ ∃ p, r = .ok p ∧ (contributeFinish app p env).wp (CleanError w') w') w

variable {app : App} {c : ContributeRequest} {orgId : String} {env : ContributeEnv} {w w' : World}

lemma Untraced.refl (w : World) : Untraced w w := ⟨rfl, rfl, rfl⟩

lemma cleanError {α : Type} {e : Failure} (h : e.IsClientError) :
    CleanError w (.error e : Except Failure α) w := ⟨.refl w, e, rfl, h⟩

lemma httpError {α : Type} {status : ℕ} {detail : String} (h : 400 ≤ status ∧ status < 500) :
    CleanError w (.error (.http status detail) : Except Failure α) w := cleanError h

lemma not_cleanError {α : Type} {e : PyErr} {t : World} :
    ¬CleanError w (.error (.uncaught e) : Except Failure α) t := by
  rintro ⟨-, e, he, hclient⟩
  obtain rfl := Except.error.inj he
  exact hclient

/-! ### Where a request slips through -/

/-- Neither an object nor an array nor a string: `in` raises. -/
def IsScalar (att : Json) : Prop := ∀ k, ∃ e, att.contains k = .error e

/-- An array or a string that contains the names of all fields. -/
def NamesFields (att : Json) : Prop :=
  (∀ k ∈ requiredFields, att.contains k = .ok true) ∧ ∀ k, att.item k = .error .typeError

/-- An object with all fields, of the right type and from the right org. -/
structure Addressed (att : Json) (orgId : String) : Prop where
  fields : ∀ k ∈ requiredFields, att.contains k = .ok true
  type : att.item "type" = .ok (.str "fl.contribution.v1")
  org : att.item "org_id" = .ok (.str orgId)

/-- A request that the checks before the suspension let through. -/
structure Passes (app : App) (c : ContributeRequest) (orgId : String) (w : World) (att : Json) :
    Prop where
  addressed : Addressed att orgId
  round : ∃ v, att.item "round_id" = .ok v ∧ v.toInt = .ok c.roundId
  fits : Host.bindInt c.roundId = .ok c.roundId
  running : ∃ r, w.store.getRound c.roundId = some r ∧ r.status = .running
  first : w.store.hasAcceptedContribution c.roundId orgId = false

/-- The request that is suspended then. -/
def pendingOf (c : ContributeRequest) (orgId : String) (att : Json) : Pending :=
  { roundId := c.roundId, orgId, attBytes := encode c.attestation, att,
    signature := c.signature, upload := c.upload }

/-- Its upload is not too large, and has the claimed hash. -/
structure Matches (app : App) (p : Pending) : Prop where
  size : (p.upload.length : ℤ) ≤ app.maxModelBytes
  hash : p.att.item "model_sha256" = .ok (.str (app.host.sha256hex p.upload))

/-- Its claimed time is fresh. -/
def Fresh (app : App) (p : Pending) (env : ContributeEnv) : Prop :=
  ∃ v sent, p.att.item "submitted_at" = .ok v ∧ submittedAt app.host v = .ok sent ∧
    drift env.checkedAt sent ≤ 300

/-- The ways through the checks that end in an exception that nobody catches, or in a used up
challenge. -/
inductive Slips (app : App) (c : ContributeRequest) (orgId : String) (env : ContributeEnv)
    (w w' : World) : Prop
  | unreadable (e : PyErr) (failed : app.python.loads (encode c.attestation) = .error e)
      (other : ∀ msg, e ≠ .jsonDecodeError msg)
  | scalar (att : Json) (parsed : app.python.loads (encode c.attestation) = .ok att)
      (scalar : IsScalar att)
  | names (att : Json) (parsed : app.python.loads (encode c.attestation) = .ok att)
      (names : NamesFields att)
  | roundValue (att v : Json) (e : PyErr) (parsed : app.python.loads (encode c.attestation) = .ok att)
      (addressed : Addressed att orgId) (round : att.item "round_id" = .ok v)
      (bad : v.toInt = .error e)
  | roundWide (att v : Json) (e : PyErr) (parsed : app.python.loads (encode c.attestation) = .ok att)
      (addressed : Addressed att orgId) (round : att.item "round_id" = .ok v)
      (equal : v.toInt = .ok c.roundId) (wide : Host.bindInt c.roundId = .error e)
  | hashValue (att v : Json) (parsed : app.python.loads (encode c.attestation) = .ok att)
      (passes : Passes app c orgId w att) (size : (c.upload.length : ℤ) ≤ app.maxModelBytes)
      (hash : att.item "model_sha256" = .ok v) (notText : ∀ s, v ≠ .str s)
      (notArray : ∀ xs, v ≠ .arr xs)
  | challengeValue (att v : Json) (e : PyErr)
      (parsed : app.python.loads (encode c.attestation) = .ok att) (passes : Passes app c orgId w att)
      (suits : Matches app (pendingOf c orgId att)) (fresh : Fresh app (pendingOf c orgId att) env)
      (challenge : att.item "challenge" = .ok v) (bad : app.host.bindText v = .error e)
  | challengeUsed (att v : Json) (row : ChallengeRow)
      (parsed : app.python.loads (encode c.attestation) = .ok att) (passes : Passes app c orgId w att)
      (suits : Matches app (pendingOf c orgId att)) (fresh : Fresh app (pendingOf c orgId att) env)
      (challenge : att.item "challenge" = .ok v)
      (named : app.host.bindText v = .ok (some row.challenge))
      (stored : w'.store.challenges.get? row.challenge = some row)
      (bound : row.orgId = orgId ∧ row.roundId = c.roundId)
      (live : row.consumed = false ∧ env.consumedAt < row.expiresAt)

/-! ### The first half -/

lemma item_of_field {fields : List (String × Json)} {k : String}
    (h : (Json.obj fields).contains k = .ok true) : ∃ x, (Json.obj fields).item k = .ok x := by
  have hany : fields.any (fun p => p.1 = k) = true := Except.ok.inj h
  obtain ⟨p, hp, hk⟩ := List.any_eq_true.mp hany
  have hsome : (fields.find? (fun p => decide (p.1 = k))).isSome = true :=
    List.find?_isSome.mpr ⟨p, hp, hk⟩
  obtain ⟨q, hq⟩ := Option.isSome_iff_exists.mp hsome
  refine ⟨q.2, ?_⟩
  simp only [Json.item, Json.field?, hq, Option.map_some]

lemma item_of_contains {att v : Json} {j k : String} (hobj : att.item j = .ok v)
    (h : att.contains k = .ok true) : ∃ x, att.item k = .ok x := by
  cases att with
  | obj fields => exact item_of_field h
  | _ => cases hobj

lemma item_error {att : Json} {j : String} {e : PyErr} (herr : att.item j = .error e)
    (h : att.contains j = .ok true) (k : String) : att.item k = .error .typeError := by
  cases att with
  | obj fields =>
    obtain ⟨x, hx⟩ := item_of_field h
    rw [hx] at herr
    cases herr
  | _ => rfl

lemma Addressed.item {att : Json} (h : Addressed att orgId) {k : String}
    (hk : k ∈ requiredFields) : ∃ v, att.item k = .ok v :=
  item_of_contains h.type (h.fields k hk)

lemma checkFields_outcome (att : Json) (fields : List String) :
    (checkFields att fields).wp (fun r t => t = w ∧
      (r = .ok () ∧ (∀ k ∈ fields, att.contains k = .ok true) ∨
        (∃ e, r = .error e ∧ e.IsClientError) ∨ IsScalar att)) w := by
  induction fields with
  | nil => exact ⟨rfl, Or.inl ⟨rfl, by simp⟩⟩
  | cons k fields ih =>
    refine wp_attempt_bind (fun e he => ?_) fun present hpresent => ?_
    · refine ⟨rfl, Or.inr (Or.inr ?_)⟩
      cases att with
      | obj fs => cases he
      | arr xs => cases he
      | str s => cases he
      | _ => exact fun j => ⟨_, rfl⟩
    apply wp_ensure_bind
    · intro _
      exact ⟨rfl, Or.inr (Or.inl ⟨_, rfl, by norm_num [Failure.IsClientError]⟩)⟩
    · intro hp
      apply wp_mono ih
      rintro r t ⟨rfl, hr⟩
      refine ⟨rfl, ?_⟩
      rcases hr with ⟨hok, hall⟩ | herr | hscalar
      · left
        refine ⟨hok, fun j hj => ?_⟩
        rcases List.mem_cons.mp hj with rfl | hj
        · rw [hpresent, hp]
        · exact hall j hj
      · exact Or.inr (Or.inl herr)
      · exact Or.inr (Or.inr hscalar)

/-! ### The second half -/

variable {p : Pending}

/-- Without the three ways through, the second half refuses and leaves no trace. -/
lemma contributeFinish_clean (haddr : Addressed p.att p.orgId)
    (hhash : ∀ v, (p.upload.length : ℤ) ≤ app.maxModelBytes →
      p.att.item "model_sha256" = .ok v → (∃ s, v = .str s) ∨ ∃ xs, v = .arr xs)
    (hvalue : ∀ v e, Matches app p → Fresh app p env → p.att.item "challenge" = .ok v →
      app.host.bindText v ≠ .error e)
    (hused : ∀ v (row : ChallengeRow), Matches app p → Fresh app p env →
      p.att.item "challenge" = .ok v →
      app.host.bindText v = .ok (some row.challenge) →
      w'.store.challenges.get? row.challenge = some row →
      row.orgId = p.orgId ∧ row.roundId = p.roundId →
      ¬(row.consumed = false ∧ env.consumedAt < row.expiresAt)) :
    (contributeFinish app p env).wp (CleanError w') w' := by
  unfold contributeFinish
  apply wp_ensure_bind (fun _ => httpError (by decide))
  intro hsize
  obtain ⟨claimed, hclaimed⟩ := haddr.item (k := "model_sha256") (by decide)
  apply wp_attempt_bind_of hclaimed
  refine wp_ensure_bind (fun _ => ?_) fun hstr => ?_
  · rcases hhash claimed hsize hclaimed with ⟨s, rfl⟩ | ⟨xs, rfl⟩
    · exact httpError (by decide)
    · exact httpError (by decide)
  have hmatch : Matches app p := ⟨hsize, Json.eq_str_of_isStr hstr ▸ hclaimed⟩
  obtain ⟨text, htext⟩ := haddr.item (k := "submitted_at") (by decide)
  apply wp_attempt_bind_of htext
  refine wp_attempt_bind (fun _ _ => httpError (by decide)) fun sent hsent => ?_
  refine wp_ensure_bind (fun _ => httpError (by decide)) fun hdrift => ?_
  have hfresh : Fresh app p env := ⟨text, sent, htext, hsent, hdrift⟩
  obtain ⟨chal, hchal⟩ := haddr.item (k := "challenge") (by decide)
  apply wp_attempt_bind_of hchal
  refine wp_attempt_bind (fun e he => absurd he (hvalue chal e hmatch hfresh hchal))
    fun chalText hbind => ?_
  apply wp_insert_bind
  cases hcons : w'.store.consumeChallenge chalText p.orgId p.roundId env.consumedAt with
  | mk err s =>
  refine wp_ensure_bind (fun herr => ?_) fun herr => ?_
  · obtain rfl := Store.consumeChallenge_refused hcons herr
    exact httpError (by decide)
  · -- a consumed challenge was live
    change err = none at herr
    subst herr
    obtain ⟨row, rfl, hrow, horg, hround, hlive, hexp, -⟩ := Store.consumeChallenge_ok hcons
    exact absurd ⟨hlive, hexp⟩ (hused chal row hmatch hfresh hchal hbind hrow ⟨horg, hround⟩)

lemma contributeFinish_hashValue {v : Json} (hsize : (p.upload.length : ℤ) ≤ app.maxModelBytes)
    (hv : p.att.item "model_sha256" = .ok v) (htext : ∀ s, v ≠ .str s)
    (harray : ∀ xs, v ≠ .arr xs) :
    ¬(contributeFinish app p env).wp (CleanError w') w' := by
  have hstop : (contributeFinish app p env).wp
      (fun r t => r = .error (.uncaught .typeError)) w' := by
    unfold contributeFinish
    apply wp_ensure_bind_of hsize
    apply wp_attempt_bind_of hv
    have hno : v.isStr (app.host.sha256hex p.upload) ≠ true := by
      intro h
      exact htext _ (Json.eq_str_of_isStr h)
    refine wp_ensure_bind (fun _ => ?_) fun h => absurd h hno
    cases v with
    | str s => exact absurd rfl (htext s)
    | arr xs => exact absurd rfl (harray xs)
    | _ => rfl
  rw [wp_def] at hstop ⊢
  rw [hstop]
  exact not_cleanError

lemma contributeFinish_challengeValue {v : Json} {e : PyErr} (hmatch : Matches app p)
    (hfresh : Fresh app p env) (hv : p.att.item "challenge" = .ok v)
    (hbad : app.host.bindText v = .error e) :
    ¬(contributeFinish app p env).wp (CleanError w') w' := by
  have hstop : (contributeFinish app p env).wp (fun r t => r = .error (.uncaught e)) w' := by
    obtain ⟨text, sent, htext, hsent, hdrift⟩ := hfresh
    unfold contributeFinish
    apply wp_ensure_bind_of hmatch.size
    apply wp_attempt_bind_of hmatch.hash
    apply wp_ensure_bind_of (by simp [Json.isStr])
    apply wp_attempt_bind_of htext
    apply wp_attempt_bind_of hsent
    apply wp_ensure_bind_of hdrift
    apply wp_attempt_bind_of hv
    exact wp_attempt_bind_error hbad rfl
  rw [wp_def] at hstop ⊢
  rw [hstop]
  exact not_cleanError

lemma contributeFinish_challengeUsed {v : Json} {row : ChallengeRow} (hmatch : Matches app p)
    (hfresh : Fresh app p env) (hv : p.att.item "challenge" = .ok v)
    (hnamed : app.host.bindText v = .ok (some row.challenge))
    (hstored : w'.store.challenges.get? row.challenge = some row)
    (hbound : row.orgId = p.orgId ∧ row.roundId = p.roundId)
    (hlive : row.consumed = false ∧ env.consumedAt < row.expiresAt) :
    ¬(contributeFinish app p env).wp (CleanError w') w' := by
  obtain ⟨text, sent, htext, hsent, hdrift⟩ := hfresh
  have hconsumes : ConsumesChallenge app p env w' row.challenge :=
    { size := hmatch.size
      hash := ⟨_, hmatch.hash, by simp [Json.isStr]⟩
      fresh := ⟨text, sent, htext, hsent, hdrift⟩
      named := ⟨v, hv, hnamed⟩
      granted := Store.consumeChallenge_live hstored
        ⟨hbound.1, hbound.2, hlive.1, hlive.2⟩ }
  obtain ⟨row', hrow', hmarked⟩ := contributeFinish_marks hconsumes
  rw [wp_def]
  rintro ⟨hsame, -⟩
  rw [hsame.challenges, hstored] at hrow'
  obtain rfl := Option.some.inj hrow'
  rw [hlive.1] at hmarked
  cases hmarked

/-! ### The whole request -/

/-- The first half of the handler from its round check on. -/
def checkRound (app : App) (c : ContributeRequest) (orgId : String) (att attRoundId : Json) :
    Api Pending := do
  let attRound ← attempt attRoundId.toInt .uncaught
  ensure (attRound = c.roundId)
    (.http 403 (s!"attestation.round_id ({app.host.strOf attRoundId}) does not match " ++
      s!"URL ({intStr c.roundId})"))
  let r ← requireRound c.roundId
  requireRunning c.roundId r
  let dup ← Api.query (·.hasAcceptedContribution c.roundId orgId)
  ensure (dup = false) (.http 409 "Org already has an accepted contribution for this round")
  pure (pendingOf c orgId att)

lemma checkFields_pass {α : Type} {att : Json} {f : Unit → Api α}
    {Q : Except Failure α → World → Prop} {fields : List String}
    (hall : ∀ k ∈ fields, att.contains k = .ok true) (h : (f ()).wp Q w) :
    (checkFields att fields >>= f).wp Q w := by
  have hpass : (checkFields att fields).wp (fun r t => r = .ok () ∧ t = w) w := by
    induction fields with
    | nil => exact ⟨rfl, rfl⟩
    | cons k fields ih =>
      obtain ⟨hk, hall⟩ := List.forall_mem_cons.mp hall
      exact wp_attempt_bind_of hk (wp_ensure_bind_of rfl (ih hall))
  apply wp_call_bind hpass (fun e t ht => by cases ht.1)
  rintro a t ⟨-, rfl⟩
  exact h

lemma contributeStart_addressed {att v : Json} {Q : Except Failure Pending → World → Prop}
    (hauth : getAuthenticatedOrgId app c.req w c.authAt = .ok orgId)
    (hparsed : app.python.loads (encode c.attestation) = .ok att) (haddr : Addressed att orgId)
    (hround : att.item "round_id" = .ok v) (h : (checkRound app c orgId att v).wp Q w) :
    (contributeStart app c).wp Q w := by
  unfold contributeStart
  apply wp_authenticate_ok hauth
  apply wp_attempt_bind_of hparsed
  apply checkFields_pass haddr.fields
  apply wp_attempt_bind_of haddr.type
  apply wp_ensure_bind_of (by simp [Json.isStr])
  apply wp_attempt_bind_of haddr.org
  apply wp_ensure_bind_of (by simp [Json.isStr])
  apply wp_attempt_bind_of hround
  exact h

lemma contributeStart_passes {att : Json}
    (hauth : getAuthenticatedOrgId app c.req w c.authAt = .ok orgId)
    (hparsed : app.python.loads (encode c.attestation) = .ok att)
    (hpasses : Passes app c orgId w att) :
    (contributeStart app c).wp (fun r t => r = .ok (pendingOf c orgId att) ∧ t = w) w := by
  obtain ⟨v, hv, hint⟩ := hpasses.round
  obtain ⟨r, hr, hrun⟩ := hpasses.running
  apply contributeStart_addressed hauth hparsed hpasses.addressed hv
  unfold checkRound requireRunning
  apply wp_attempt_bind_of hint
  apply wp_ensure_bind_of rfl
  apply wp_requireRound_ok hpasses.fits hr
  apply wp_ensure_bind_of hrun
  apply wp_query_bind
  exact wp_ensure_bind_of hpasses.first ⟨rfl, rfl⟩

lemma not_refusesCleanly_of_uncaught
    (h : (contributeStart app c).wp (fun r _ => ∃ e, r = .error (.uncaught e)) w) :
    ¬RefusesCleanly app c env w w' := by
  rw [wp_def] at h
  obtain ⟨e, he⟩ := h
  unfold RefusesCleanly
  rw [wp_def, he]
  rintro (hclean | ⟨-, p, hp, -⟩)
  · exact not_cleanError hclean
  · cases hp

lemma not_refusesCleanly_of_passes {att : Json}
    (hauth : getAuthenticatedOrgId app c.req w c.authAt = .ok orgId)
    (hparsed : app.python.loads (encode c.attestation) = .ok att) (hpasses : Passes app c orgId w att)
    (h : ¬(contributeFinish app (pendingOf c orgId att) env).wp (CleanError w') w') :
    ¬RefusesCleanly app c env w w' := by
  have hstart := contributeStart_passes hauth hparsed hpasses
  rw [wp_def] at hstart
  unfold RefusesCleanly
  rw [wp_def, hstart.1]
  rintro (⟨-, e, he, -⟩ | ⟨-, p, hp, hclean⟩)
  · cases he
  · obtain rfl := Except.ok.inj hp
    exact h hclean

lemma Slips.not_refusesCleanly (h : Slips app c orgId env w w')
    (hauth : getAuthenticatedOrgId app c.req w c.authAt = .ok orgId) :
    ¬RefusesCleanly app c env w w' := by
  cases h with
  | unreadable e failed other =>
    apply not_refusesCleanly_of_uncaught
    unfold contributeStart
    apply wp_authenticate_ok hauth
    apply wp_attempt_bind_error failed
    cases e with
    | jsonDecodeError msg => exact absurd rfl (other msg)
    | _ => exact ⟨_, rfl⟩
  | scalar att parsed scalar =>
    apply not_refusesCleanly_of_uncaught
    unfold contributeStart
    apply wp_authenticate_ok hauth
    apply wp_attempt_bind_of parsed
    obtain ⟨e, he⟩ := scalar "type"
    unfold requiredFields checkFields
    rw [he]
    exact ⟨_, rfl⟩
  | names att parsed names =>
    apply not_refusesCleanly_of_uncaught
    unfold contributeStart
    apply wp_authenticate_ok hauth
    apply wp_attempt_bind_of parsed
    apply checkFields_pass names.1
    exact wp_attempt_bind_error (names.2 "type") ⟨_, rfl⟩
  | roundValue att v e parsed addressed round bad =>
    apply not_refusesCleanly_of_uncaught
    apply contributeStart_addressed hauth parsed addressed round
    exact wp_attempt_bind_error bad ⟨_, rfl⟩
  | roundWide att v e parsed addressed round equal wide =>
    apply not_refusesCleanly_of_uncaught
    apply contributeStart_addressed hauth parsed addressed round
    unfold checkRound requireRound fetchRound
    apply wp_attempt_bind_of equal
    apply wp_ensure_bind_of rfl
    rw [wide]
    exact ⟨e, rfl⟩
  | hashValue att v parsed passes size hash notText notArray =>
    exact not_refusesCleanly_of_passes hauth parsed passes
      (contributeFinish_hashValue size hash notText notArray)
  | challengeValue att v e parsed passes suits fresh challenge bad =>
    exact not_refusesCleanly_of_passes hauth parsed passes
      (contributeFinish_challengeValue suits fresh challenge bad)
  | challengeUsed att v row parsed passes suits fresh challenge named stored bound live =>
    exact not_refusesCleanly_of_passes hauth parsed passes
      (contributeFinish_challengeUsed suits fresh challenge named stored bound live)

lemma refusesCleanly_of_not_slips
    (hauth : getAuthenticatedOrgId app c.req w c.authAt = .ok orgId)
    (hno : ¬Slips app c orgId env w w') : RefusesCleanly app c env w w' := by
  have hclient : ∀ {status detail}, 400 ≤ status ∧ status < 500 →
      CleanError w (.error (.http status detail) : Except Failure Pending) w ∨
      Untraced w w ∧ ∃ p, (.error (.http status detail) : Except Failure Pending) = .ok p ∧
        (contributeFinish app p env).wp (CleanError w') w' := fun h => Or.inl (httpError h)
  unfold RefusesCleanly contributeStart requireRunning
  apply wp_authenticate_ok hauth
  refine wp_attempt_bind (fun e he => ?_) fun att hparsed => ?_
  · cases e with
    | jsonDecodeError msg => exact hclient (by decide)
    | _ => exact absurd (.unreadable _ he nofun) hno
  refine wp_call_bind (checkFields_outcome att requiredFields) (fun e t ht => ?_) fun _ t ht => ?_
  · obtain ⟨rfl, ⟨hok, -⟩ | ⟨e', he, hclean⟩ | hscalar⟩ := ht
    · cases hok
    · obtain rfl := Except.error.inj he
      exact Or.inl (cleanError hclean)
    · exact absurd (.scalar att hparsed hscalar) hno
  obtain ⟨rfl, ⟨-, hall⟩ | ⟨e', he, -⟩ | hscalar⟩ := ht
  rotate_left
  · cases he
  · exact absurd (.scalar att hparsed hscalar) hno
  refine wp_attempt_bind (fun e he => ?_) fun type htype => ?_
  · exact absurd (.names att hparsed ⟨hall, item_error he (hall "type" (by decide))⟩) hno
  refine wp_ensure_bind (fun _ => hclient (by decide)) fun htypeStr => ?_
  obtain rfl := Json.eq_str_of_isStr htypeStr
  obtain ⟨attOrg, horg⟩ := item_of_contains htype (hall "org_id" (by decide))
  apply wp_attempt_bind_of horg
  refine wp_ensure_bind (fun _ => hclient (by decide)) fun horgStr => ?_
  obtain rfl := Json.eq_str_of_isStr horgStr
  have haddr : Addressed att orgId := ⟨hall, htype, horg⟩
  obtain ⟨v, hv⟩ := haddr.item (k := "round_id") (by decide)
  apply wp_attempt_bind_of hv
  refine wp_attempt_bind (fun e he => absurd (.roundValue att v e hparsed haddr hv he) hno)
    fun n hn => ?_
  refine wp_ensure_bind (fun _ => hclient (by decide)) fun hround => ?_
  refine wp_requireRound_cases_bind
    (fun e he => absurd (.roundWide att v e hparsed haddr hv (hround ▸ hn) he) hno)
    (hclient (by decide)) fun r hfit hr => ?_
  refine wp_ensure_bind (fun _ => hclient (by decide)) fun hrun => ?_
  apply wp_query_bind
  refine wp_ensure_bind (fun _ => hclient (by decide)) fun hfirst => ?_
  have hpasses : Passes app c orgId t att :=
    ⟨haddr, ⟨v, hv, hround ▸ hn⟩, hfit, ⟨r, hr, hrun⟩, hfirst⟩
  refine Or.inr ⟨.refl t, pendingOf c orgId att, rfl, ?_⟩
  apply contributeFinish_clean haddr
  · intro x hsize hx
    by_contra hother
    rw [not_or] at hother
    exact hno (.hashValue att x hparsed hpasses hsize hx (fun s hs => hother.1 ⟨s, hs⟩)
      fun xs hxs => hother.2 ⟨xs, hxs⟩)
  · intro x e hmatch hfresh hx hbad
    exact hno (.challengeValue att x e hparsed hpasses hmatch hfresh hx hbad)
  · intro x row hmatch hfresh hx hnamed hstored hbound hlive
    exact hno (.challengeUsed att x row hparsed hpasses hmatch hfresh hx hnamed hstored hbound hlive)

/-- A malformed contribution is refused cleanly unless it slips through. -/
theorem malformed_refused_iff
    (hauth : getAuthenticatedOrgId app c.req w c.authAt = .ok orgId) :
    (Malformed app c → RefusesCleanly app c env w w') ↔
      (Malformed app c → ¬Slips app c orgId env w w') := by
  apply imp_congr_right
  intro _
  exact ⟨fun h hslips => hslips.not_refusesCleanly hauth h, refusesCleanly_of_not_slips hauth⟩

/-- One org, one running round and one challenge. -/
def openRound : List Event :=
  [Sample.enroll "x" [1] 11, Sample.start none, Sample.challenge "a" (Sample.certOf "x" [1] 11)]

/-- The upload of the org, with a signature that is not hexadecimal. -/
def spoiledUpload : ContributeRequest :=
  { req := Sample.present (Sample.certOf "x" [1] 11)
    roundId := 1
    attestation := Sample.attestation "x" "a" [65]
    signature := "zz"
    upload := [65]
    authAt := 90 }

def spoiledEnv : ContributeEnv :=
  { checkedAt := 100, consumedAt := 100, recordedAt := 100, loggedAt := Sample.zero }

theorem malformed_refused_iff_spoiled :
    (Malformed Sample.app spoiledUpload → RefusesCleanly Sample.app spoiledUpload spoiledEnv
        (after Sample.app openRound).world (after Sample.app openRound).world) ↔
      (Malformed Sample.app spoiledUpload → ¬Slips Sample.app spoiledUpload "x" spoiledEnv
        (after Sample.app openRound).world (after Sample.app openRound).world) := by
  have hauth : getAuthenticatedOrgId Sample.app spoiledUpload.req
      (after Sample.app openRound).world spoiledUpload.authAt = .ok "x" := by decide +kernel
  exact malformed_refused_iff hauth

/-- The signature is refused with a 400, and the challenge is used up. -/
theorem spoiled_signature_uses_challenge :
    ¬∀ es c orgId env, getAuthenticatedOrgId Sample.app c.req (after Sample.app es).world c.authAt =
      .ok orgId → Malformed Sample.app c →
      RefusesCleanly Sample.app c env (after Sample.app es).world (after Sample.app es).world := by
  intro h
  have hauth : getAuthenticatedOrgId Sample.app spoiledUpload.req
      (after Sample.app openRound).world spoiledUpload.authAt = .ok "x" := by decide +kernel
  have hstart : (contributeStart Sample.app spoiledUpload
      (after Sample.app openRound).world).1.isOk = true := by decide +kernel
  have hbefore : ((after Sample.app openRound).world.store.challenges.get? "a").map (·.consumed) =
      some false := by decide +kernel
  have hafter : (contributeStart Sample.app spoiledUpload
      (after Sample.app openRound).world).1.toOption.map (fun p =>
        ((contributeFinish Sample.app p spoiledEnv
          (after Sample.app openRound).world).2.store.challenges.get? "a").map (·.consumed)) =
      some (some true) := by decide +kernel
  have hclean := h openRound spoiledUpload "x" spoiledEnv hauth (Or.inr (by decide))
  unfold RefusesCleanly at hclean
  rw [wp_def] at hclean
  rcases hclean with ⟨-, e, he, -⟩ | ⟨-, p, hp, hsame, -⟩
  · rw [he] at hstart
    cases hstart
  · rw [hp] at hafter
    have hused := Option.some.inj hafter
    dsimp only at hused
    rw [hsame.challenges, hbefore] at hused
    cases hused

end Requests

end FlCoordinator
