import FlCoordinator.Lib.Guards
import FlCoordinator.StoreSpec

/-!
# Consuming a token

A conditional `UPDATE` decides whether a challenge or an enrollment token is consumed. Where it
changes no row, a cascade of tests on a second read says why.
-/

namespace FlCoordinator

open Lib

namespace Store

/-! ### Challenges -/

lemma consumed_challenge (now : ℚ) (r : ChallengeRow) :
    ChallengeRow.challenge { r with consumed := true, consumedAt := some now } = r.challenge := rfl

/-- The `UPDATE` of `consume_challenge`. -/
def updateChallenge (s : Store) (challenge : Option String) (orgId : String) (roundId : ℤ)
    (now : ℚ) : ℕ × Store :=
  let updated := s.challenges.updateWhere
    (fun r => challenge = some r.challenge &&
      (r.orgId = orgId && r.roundId = roundId && !r.consumed && now < r.expiresAt))
    (fun r => { r with consumed := true, consumedAt := some now }) (consumed_challenge now)
  (updated.1, { s with challenges := updated.2 })

/-- The cascade of `consume_challenge`. -/
def diagnoseChallenge (challenge : Option String) (orgId : String) (roundId : ℤ) (now : ℚ)
    (s : Store) : String :=
  match challenge.bind s.challenges.get? with
  | none => "Unknown challenge"
  | some row =>
    if row.orgId ≠ orgId then "Challenge belongs to a different org"
    else if row.roundId ≠ roundId then "Challenge belongs to a different round"
    else if row.consumed then "Challenge already consumed"
    else if row.expiresAt ≤ now then "Challenge expired"
    else "Challenge consumption failed"

/-- `consume_challenge`, statement by statement. -/
def consumeChallengeSteps (s : Store) (challenge : Option String) (orgId : String) (roundId : ℤ)
    (now : ℚ) : Option String × Store :=
  updateThenDiagnose (s.updateChallenge challenge orgId roundId now)
    (diagnoseChallenge challenge orgId roundId now)

/-- What a challenge must satisfy to be consumed. -/
def challengeConditions (orgId : String) (roundId : ℤ) (now : ℚ) (row : ChallengeRow) :
    List (Bool × String) :=
  [(row.orgId = orgId, "Challenge belongs to a different org"),
   (row.roundId = roundId, "Challenge belongs to a different round"),
   (!row.consumed, "Challenge already consumed"),
   (now < row.expiresAt, "Challenge expired")]

lemma firstFailing_challenge {orgId : String} {roundId : ℤ} {now : ℚ} {row : ChallengeRow} :
    firstFailing (challengeConditions orgId roundId now row) = none ↔
      row.orgId = orgId ∧ row.roundId = roundId ∧ row.consumed = false ∧ now < row.expiresAt := by
  simp [firstFailing_eq_none, challengeConditions]

lemma diagnoseChallenge_of_found {s : Store} {challenge : Option String} {orgId : String}
    {roundId : ℤ} {now : ℚ} {row : ChallengeRow}
    (hrow : challenge.bind s.challenges.get? = some row) :
    diagnoseChallenge challenge orgId roundId now s =
      (firstFailing (challengeConditions orgId roundId now row)).getD
        "Challenge consumption failed" := by
  rw [diagnoseChallenge, hrow, challengeConditions]
  simp only [firstFailing_cons]
  by_cases horg : row.orgId = orgId
  · by_cases hround : row.roundId = roundId
    · cases hused : row.consumed with
      | true => simp [horg, hround]
      | false =>
        by_cases hlive : now < row.expiresAt
        · simp [horg, hround, hlive, firstFailing]
        · simp [horg, hround, hlive, not_lt.mp hlive]
    · simp [horg, hround]
  · simp [horg]

lemma consumeChallengeSteps_eq (s : Store) (challenge : Option String) (orgId : String)
    (roundId : ℤ) (now : ℚ) :
    s.consumeChallengeSteps challenge orgId roundId now =
      decideUse (challenge.bind s.challenges.get?) "Unknown challenge"
        (challengeConditions orgId roundId now)
        (fun row => s.consumeChallengeRow row.challenge now) s := by
  apply updateThenDiagnose_eq
  · intro row hrow hfirst
    have hall := firstFailing_challenge.mp hfirst
    rw [updateChallenge, Table.updateWhere_key_some hrow (by simp [hall])]
    rfl
  · intro hfails
    rw [updateChallenge, Table.updateWhere_key_none]
    intro row hrow
    have hne := hfails row hrow
    rw [Ne, firstFailing_challenge] at hne
    simpa [and_assoc] using hne
  · intro hnone
    rw [diagnoseChallenge, hnone]
  · intro row msg hrow hfirst
    rw [diagnoseChallenge_of_found hrow, hfirst]
    rfl

/-- The handlers' `consumeChallenge` is what the statements do. -/
theorem consumeChallenge_eq_steps (s : Store) (challenge : Option String) (orgId : String)
    (roundId : ℤ) (now : ℚ) :
    s.consumeChallenge challenge orgId roundId now =
      s.consumeChallengeSteps challenge orgId roundId now := by
  rw [consumeChallengeSteps_eq]
  cases hfound : challenge.bind s.challenges.get? with
  | none =>
    rw [consumeChallenge, hfound]
    rfl
  | some row =>
    have hcascade : s.consumeChallenge challenge orgId roundId now =
        if row.orgId = orgId ∧ row.roundId = roundId ∧ row.consumed = false ∧ now < row.expiresAt
        then (none, s.consumeChallengeRow row.challenge now)
        else (some (diagnoseChallenge challenge orgId roundId now s), s) := by
      rw [consumeChallenge, diagnoseChallenge, hfound]
      dsimp only
      split_ifs <;> rfl
    rw [hcascade, diagnoseChallenge_of_found hfound, decideUse]
    cases hfirst : firstFailing (challengeConditions orgId roundId now row) with
    | none => exact if_pos (firstFailing_challenge.mp hfirst)
    | some msg =>
      apply if_neg
      rw [← firstFailing_challenge, hfirst]
      exact Option.some_ne_none msg

/-! ### Enrollment tokens -/

lemma consumed_jti (now : ℚ) (r : TokenRow) :
    TokenRow.jti { r with consumed := true, consumedAt := some now } = r.jti := rfl

/-- The `UPDATE` of `consume_enroll_token`. -/
def updateEnrollToken (s : Store) (jti : Option String) (orgId : String) (now : ℚ) : ℕ × Store :=
  let updated := s.tokens.updateWhere
    (fun r => jti = some r.jti && (r.orgId = orgId && !r.consumed && now < r.expiresAt))
    (fun r => { r with consumed := true, consumedAt := some now }) (consumed_jti now)
  (updated.1, { s with tokens := updated.2 })

/-- The cascade of `consume_enroll_token`. -/
def diagnoseEnrollToken (jti : Option String) (orgId : String) (now : ℚ) (s : Store) : String :=
  match jti.bind s.tokens.get? with
  | none => "Unknown enrollment token"
  | some row =>
    if row.orgId ≠ orgId then "Token belongs to a different org"
    else if row.consumed then "Token already used"
    else if row.expiresAt ≤ now then "Token expired"
    else "Token rejected"

/-- `consume_enroll_token`, statement by statement. -/
def consumeEnrollTokenSteps (s : Store) (jti : Option String) (orgId : String) (now : ℚ) :
    Option String × Store :=
  updateThenDiagnose (s.updateEnrollToken jti orgId now) (diagnoseEnrollToken jti orgId now)

/-- What an enrollment token must satisfy to be consumed. -/
def tokenConditions (orgId : String) (now : ℚ) (row : TokenRow) : List (Bool × String) :=
  [(row.orgId = orgId, "Token belongs to a different org"),
   (!row.consumed, "Token already used"),
   (now < row.expiresAt, "Token expired")]

lemma firstFailing_token {orgId : String} {now : ℚ} {row : TokenRow} :
    firstFailing (tokenConditions orgId now row) = none ↔
      row.orgId = orgId ∧ row.consumed = false ∧ now < row.expiresAt := by
  simp [firstFailing_eq_none, tokenConditions]

lemma diagnoseEnrollToken_of_found {s : Store} {jti : Option String} {orgId : String} {now : ℚ}
    {row : TokenRow} (hrow : jti.bind s.tokens.get? = some row) :
    diagnoseEnrollToken jti orgId now s =
      (firstFailing (tokenConditions orgId now row)).getD "Token rejected" := by
  rw [diagnoseEnrollToken, hrow, tokenConditions]
  simp only [firstFailing_cons]
  by_cases horg : row.orgId = orgId
  · cases hused : row.consumed with
    | true => simp [horg]
    | false =>
      by_cases hlive : now < row.expiresAt
      · simp [horg, hlive, firstFailing]
      · simp [horg, hlive, not_lt.mp hlive]
  · simp [horg]

lemma consumeEnrollTokenSteps_eq (s : Store) (jti : Option String) (orgId : String) (now : ℚ) :
    s.consumeEnrollTokenSteps jti orgId now =
      decideUse (jti.bind s.tokens.get?) "Unknown enrollment token" (tokenConditions orgId now)
        (fun row => s.consumeTokenRow row.jti now) s := by
  apply updateThenDiagnose_eq
  · intro row hrow hfirst
    have hall := firstFailing_token.mp hfirst
    rw [updateEnrollToken, Table.updateWhere_key_some hrow (by simp [hall])]
    rfl
  · intro hfails
    rw [updateEnrollToken, Table.updateWhere_key_none]
    intro row hrow
    have hne := hfails row hrow
    rw [Ne, firstFailing_token] at hne
    simpa [and_assoc] using hne
  · intro hnone
    rw [diagnoseEnrollToken, hnone]
  · intro row msg hrow hfirst
    rw [diagnoseEnrollToken_of_found hrow, hfirst]
    rfl

/-- The handlers' `consumeEnrollToken` is what the statements do. -/
theorem consumeEnrollToken_eq_steps (s : Store) (jti : Option String) (orgId : String) (now : ℚ) :
    s.consumeEnrollToken jti orgId now = s.consumeEnrollTokenSteps jti orgId now := by
  rw [consumeEnrollTokenSteps_eq]
  cases hfound : jti.bind s.tokens.get? with
  | none =>
    rw [consumeEnrollToken, hfound]
    rfl
  | some row =>
    have hcascade : s.consumeEnrollToken jti orgId now =
        if row.orgId = orgId ∧ row.consumed = false ∧ now < row.expiresAt
        then (none, s.consumeTokenRow row.jti now)
        else (some (diagnoseEnrollToken jti orgId now s), s) := by
      rw [consumeEnrollToken, diagnoseEnrollToken, hfound]
      dsimp only
      split_ifs <;> rfl
    rw [hcascade, diagnoseEnrollToken_of_found hfound, decideUse]
    cases hfirst : firstFailing (tokenConditions orgId now row) with
    | none => exact if_pos (firstFailing_token.mp hfirst)
    | some msg =>
      apply if_neg
      rw [← firstFailing_token, hfirst]
      exact Option.some_ne_none msg

/-- A challenge is consumed when it is known, of this org and round, unconsumed and not expired,
and an enrollment token when it is known, of this org, unconsumed and not expired. Only the row
itself changes then. Else nothing changes, and the reason is the first of these that fails, never
the one at the end of the cascade. -/
theorem consume_singleUse (s : Store) (orgId : String) (now : ℚ) :
    (∀ challenge roundId,
      SingleUse (challenge.bind s.challenges.get?) "Unknown challenge"
        (challengeConditions orgId roundId now) "Challenge consumption failed"
        (fun row => s.consumeChallengeRow row.challenge now) s
        (s.consumeChallengeSteps challenge orgId roundId now)) ∧
    ∀ jti,
      SingleUse (jti.bind s.tokens.get?) "Unknown enrollment token" (tokenConditions orgId now)
        "Token rejected" (fun row => s.consumeTokenRow row.jti now) s
        (s.consumeEnrollTokenSteps jti orgId now) := by
  constructor
  · intro challenge roundId
    rw [consumeChallengeSteps_eq]
    apply decideUse_singleUse (by decide)
    intro row
    simp [challengeConditions]
  · intro jti
    rw [consumeEnrollTokenSteps_eq]
    apply decideUse_singleUse (by decide)
    intro row
    simp [tokenConditions]

end Store

end FlCoordinator
