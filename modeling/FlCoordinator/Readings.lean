import FlCoordinator.Contributions
import FlCoordinator.Lib.JsonCanonical

/-!
# What a stored attestation reads as

The handler stores the bytes that were signed, and takes the round and the count from what
`json.loads` and `int` make of them. A verifier may read the same bytes in another way.
-/

namespace FlCoordinator

open Lib

section Readings

variable {app : App}

/-- The stored bytes say in one way only what the row says. -/
def OneReading (app : App) (c : ContributionRow) : Prop :=
  ∃ att, app.python.loads c.signedAttestation = .ok att ∧
    canonicalJson att = c.signedAttestation ∧
    att.item "round_id" = .ok (.int c.roundId) ∧ att.item "num_examples" = .ok (.int c.numExamples)

/-- The bytes are an object in canonical JSON, and its round and count are written as integers. -/
def WrittenCanonically (py : Python) (b : Bytes) : Prop :=
  ∃ fields, b = encodeChars (Json.objectText fields) ∧ Json.CanonicalFields py fields ∧
    (∃ k, ("round_id", Json.intText k) ∈ fields) ∧ ∃ n, ("num_examples", Json.intText n) ∈ fields

/-- A request that the step accepts was written canonically. -/
def AcceptsCanonical (app : App) (s : Sys) (e : Event) : Prop :=
  ∀ p env chal n, Accepts app s e p env chal n → WrittenCanonically app.python p.attBytes

lemma item_eq_of_toInt {att v : Json} {key : String} {k n : ℤ} (hint : att.item key = .ok (.int k))
    (hv : att.item key = .ok v) (hn : v.toInt = .ok n) : att.item key = .ok (.int n) := by
  rw [hint] at hv
  obtain rfl := Except.ok.inj hv
  obtain rfl := Except.ok.inj hn
  exact hint

lemma item_int_iff {fs : List (String × Json)} (hplain : Json.Plain (.obj fs)) {key : String}
    {k : ℤ} : (Json.obj fs).item key = .ok (.int k) ↔
      (key, Json.intText k) ∈ fs.map fun p => (p.1, Json.text Json.compact p.2) := by
  obtain ⟨hnodup, hall⟩ := Json.plain_obj.mp hplain
  have hitem : (Json.obj fs).item key = .ok (.int k) ↔ Json.field? key fs = some (.int k) := by
    simp only [Json.item]
    cases Json.field? key fs <;> simp
  rw [hitem, Json.field?_eq_some_iff hnodup, List.mem_map]
  constructor
  · exact fun h => ⟨_, h, rfl⟩
  · rintro ⟨⟨key', v⟩, hmem, heq⟩
    obtain ⟨rfl, htext⟩ := Prod.mk.inj heq
    have hv : v = .int k := Json.text_injective (hall _ hmem) trivial htext
    subst hv
    exact hmem

lemma item_sortKeys {fs gs : List (String × Json)} (hnodup : (fs.map (·.1)).Nodup)
    (hgs : Json.sortKeys (.obj fs) = .obj gs) {key : String} {k : ℤ}
    (h : (Json.obj fs).item key = .ok (.int k)) : (Json.obj gs).item key = .ok (.int k) := by
  obtain ⟨gs', hgs', hfield⟩ := Json.get_sortKeys key hnodup
  obtain rfl := Json.obj.inj (hgs.symm.trans hgs')
  simp only [Json.item] at h ⊢
  cases hf : Json.field? key fs with
  | none =>
    rw [hf] at h
    cases h
  | some v =>
    rw [hf] at h
    obtain rfl := Except.ok.inj h
    rw [hfield, hf]
    rfl

lemma OneReading.writtenCanonically {c : ContributionRow} (h : OneReading app c) :
    WrittenCanonically app.python c.signedAttestation := by
  obtain ⟨att, hparsed, hform, hround, hcount⟩ := h
  obtain ⟨hplain, hhas⟩ := Python.loads_value hparsed
  cases att with
  | obj fs =>
    obtain ⟨gs, hgs, hfields⟩ := Json.canonicalFields_sortKeys hplain hhas
    have hsorted : Json.Plain (.obj gs) := hgs ▸ Json.plain_sortKeys _ hplain
    refine ⟨_, ?_, hfields, ⟨_, (item_int_iff hsorted).mp (item_sortKeys hplain.1 hgs hround)⟩,
      _, (item_int_iff hsorted).mp (item_sortKeys hplain.1 hgs hcount)⟩
    rw [← hform, canonicalJson, hgs, Json.text_obj]
  | _ => cases hround

lemma oneReading_of_accepts {pre : List Event} {e : Event} {p : Pending} {env : ContributeEnv}
    {chal : ChallengeRow} {n : ℤ} (hp : Accepts app (after app pre) e p env chal n)
    (h : WrittenCanonically app.python p.attBytes) :
    OneReading app (acceptedRow app (after app pre) p env chal n) := by
  obtain ⟨fields, hbytes, hfields, ⟨k, hk⟩, m, hm⟩ := h
  obtain ⟨fs, hsorted, rfl⟩ := hfields.value
  rw [← Json.text_obj] at hbytes
  obtain ⟨before, request, between, -, hscreen⟩ :=
    received_of_inFlight (mem_inFlight_of_accepts hp)
  -- what the handler parsed is the value that was written
  have hatt : p.att = .obj fs :=
    Python.loads_text_eq Json.readable_compact hsorted.plain hsorted.has (hbytes ▸ hscreen.parsed)
  obtain ⟨v, hv, hround⟩ := hscreen.round
  obtain ⟨x, hx, hcount, -⟩ := hp.evidence.count
  rw [hatt] at hv hx
  refine ⟨.obj fs, hatt ▸ hscreen.parsed, ?_, ?_, ?_⟩
  · rw [canonicalJson, hsorted.sorted]
    exact hbytes.symm
  · exact item_eq_of_toInt ((item_int_iff hsorted.plain).mpr hk) hv hround
  · exact item_eq_of_toInt ((item_int_iff hsorted.plain).mpr hm) hx hcount

/-- Every accepted row of a run has one reading exactly when every accepted request was written
canonically. -/
theorem accepted_oneReading_iff (app : App) (es : List Event) :
    (∀ c ∈ (after app es).world.store.contributions.rows, c.accepted = true → OneReading app c) ↔
      ∀ pre e post, es = pre ++ e :: post → AcceptsCanonical app (after app pre) e := by
  constructor
  · rintro h pre e post rfl p env chal n hp
    have hrow : acceptedRow app (after app pre) p env chal n ∈
        (after app (pre ++ e :: post)).world.store.contributions.rows := by
      rw [after_append]
      exact contribution_run post hp.recorded.1
    exact (h _ hrow rfl).writtenCanonically
  · intro h c hc hacc
    obtain ⟨pre, e, post, p, env, chal, n, hes, hp, rfl⟩ := accepted_origin hc hacc
    exact oneReading_of_accepts hp (h pre e post hes p env chal n hp)

/-- An attestation with two counts. -/
def twoCounts : String :=
  Sample.object ("\"challenge\":\"a\",\"model_sha256\":\"" ++ Sample.host.sha256hex [65] ++
    "\",\"num_examples\":900,\"num_examples\":1,\"org_id\":\"x\",\"round_id\":1," ++
    "\"submitted_at\":\"1970-01-01T00:01:40+00:00\",\"type\":\"fl.contribution.v1\"")

/-- The org signs it and uploads its model. -/
def twoCountsUpload : List Event :=
  [Sample.enroll "x" [1] 11, Sample.start none, Sample.challenge "a" (Sample.certOf "x" [1] 11),
    .contribute
      { req := Sample.present (Sample.certOf "x" [1] 11)
        roundId := 1
        attestation := twoCounts
        signature := toHex (Sample.tag [1] (encode twoCounts))
        upload := [65]
        authAt := 90 },
    Sample.resume]

/-- The last count is recorded, and a verifier that takes the first one reads another. -/
theorem two_counts_accepted :
    ¬∀ c ∈ (after Sample.app twoCountsUpload).world.store.contributions.rows,
      c.accepted = true → OneReading Sample.app c := by
  intro h
  have hrows : (after Sample.app twoCountsUpload).world.store.contributions.rows.map
      (fun c => (c.accepted, c.numExamples,
        (Sample.app.python.loads c.signedAttestation).toOption.map (fun att =>
          decide (canonicalJson att = c.signedAttestation)))) =
      [(true, 1, some false)] := by decide +kernel
  obtain ⟨c, rest, hcons, hc, -⟩ := List.map_eq_cons_iff.mp hrows
  simp only [Prod.mk.injEq] at hc
  obtain ⟨hacc, -, hform⟩ := hc
  obtain ⟨att, hparsed, hcanon, -⟩ := h c (by rw [hcons]; simp) hacc
  rw [hparsed] at hform
  have hno := of_decide_eq_false (Option.some.inj hform)
  exact hno hcanon

end Readings

end FlCoordinator
