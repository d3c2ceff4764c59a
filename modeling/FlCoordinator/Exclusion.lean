import FlCoordinator.AggregateSpec

/-!
# What an aggregation excludes

Contributions drop out when their file is gone, when the trust manager rejects them and when
their feature schema is not that of the heaviest survivor. The orgs that stay are read off the
per-contribution results, the models that stay are a list of their own.
-/

namespace FlCoordinator

open Lib

/-! ### Trust -/

section Trusted

variable {app : App} {tm : TrustManager} {roundId : ℤ} {env : ScoreEnv}

/-- Scoring the contributions from position `i` on, the trust manager accepts `c`, with the
bytes `mb` and the evaluation `ev`. Each is scored in the store that the ones before it left. -/
inductive Trusted (tm : TrustManager) (env : ScoreEnv) :
    ℕ → List Store.AcceptedModel → World → Store.AcceptedModel → Bytes → Evaluation → Prop
  | here {i : ℕ} {c : Store.AcceptedModel} {cs : List Store.AcceptedModel} {w : World} {mb : Bytes}
      {ev : Evaluation} {s : Store} (file : w.files c.modelPath = some mb)
      (verdict : tm.evaluate w.store c.orgId (env.judge i mb) c.numExamples (env.scoredAt i) =
        (ev, s)) (accepted : ev.accepted = true) : Trusted tm env i (c :: cs) w c mb ev
  | later {i : ℕ} {c d : Store.AcceptedModel} {cs : List Store.AcceptedModel} {w : World}
      {mb nb : Bytes} {ev dv : Evaluation} {s : Store} (file : w.files d.modelPath = some nb)
      (verdict : tm.evaluate w.store d.orgId (env.judge i nb) d.numExamples (env.scoredAt i) =
        (dv, s)) (tail : Trusted tm env (i + 1) cs (w.setStore s) c mb ev) :
      Trusted tm env i (d :: cs) w c mb ev
  | past {i : ℕ} {c d : Store.AcceptedModel} {cs : List Store.AcceptedModel} {w : World}
      {mb : Bytes} {ev : Evaluation} (missing : w.files d.modelPath = none)
      (tail : Trusted tm env (i + 1) cs w c mb ev) : Trusted tm env i (d :: cs) w c mb ev

/-- The survivors are the trusted contributions. -/
theorem Scored.mem_survivors {i : ℕ} {cs : List Store.AcceptedModel} {w t : World} {tally : Tally}
    (h : Scored app tm roundId env i cs w tally t) {v : Survivor} :
    v ∈ tally.survivors ↔
      ∃ c mb ev, Trusted tm env i cs w c mb ev ∧ v = ⟨c.orgId, mb, ev.weight⟩ := by
  induction h with
  | nil i w =>
    constructor
    · intro hv
      cases hv
    · rintro ⟨c, mb, ev, htr, -⟩
      cases htr
  | missing i c cs w t tally hfile tail ih =>
    rw [ih]
    constructor
    · rintro ⟨d, mb, ev, htr, rfl⟩
      exact ⟨d, mb, ev, .past hfile htr, rfl⟩
    · rintro ⟨d, mb, ev, htr, rfl⟩
      cases htr with
      | here file => rw [hfile] at file; cases file
      | later file => rw [hfile] at file; cases file
      | past missing htail => exact ⟨d, mb, ev, htail, rfl⟩
  | scored i c cs w t tally mb hfile ev s hev tail ih =>
    have hsame : ∀ {nb dv s'}, w.files c.modelPath = some nb →
        tm.evaluate w.store c.orgId (env.judge i nb) c.numExamples (env.scoredAt i) = (dv, s') →
        nb = mb ∧ dv = ev ∧ s' = s := by
      intro nb dv s' hnb hdv
      rw [hfile] at hnb
      obtain rfl := Option.some.inj hnb
      rw [hev] at hdv
      obtain ⟨rfl, rfl⟩ := Prod.mk.inj hdv
      exact ⟨rfl, rfl, rfl⟩
    have hmem : v ∈ (if ev.accepted then ⟨c.orgId, mb, ev.weight⟩ :: tally.survivors
        else tally.survivors) ↔
        (ev.accepted = true ∧ v = ⟨c.orgId, mb, ev.weight⟩) ∨ v ∈ tally.survivors := by
      by_cases hacc : ev.accepted = true
      · simp [hacc]
      · simp [hacc]
    rw [hmem, ih]
    constructor
    · rintro (⟨hacc, rfl⟩ | ⟨d, nb, dv, htr, rfl⟩)
      · exact ⟨c, mb, ev, .here hfile hev hacc, rfl⟩
      · exact ⟨d, nb, dv, .later hfile hev htr, rfl⟩
    · rintro ⟨d, nb, dv, htr, rfl⟩
      cases htr with
      | here file verdict accepted =>
        obtain ⟨rfl, rfl, rfl⟩ := hsame file verdict
        exact Or.inl ⟨accepted, rfl⟩
      | later file verdict htail =>
        obtain ⟨rfl, rfl, rfl⟩ := hsame file verdict
        exact Or.inr ⟨d, nb, dv, htail, rfl⟩
      | past missing => rw [hfile] at missing; cases missing

lemma Trusted.mem {i : ℕ} {cs : List Store.AcceptedModel} {w : World} {c : Store.AcceptedModel}
    {mb : Bytes} {ev : Evaluation} (h : Trusted tm env i cs w c mb ev) :
    c ∈ cs ∧ w.files c.modelPath = some mb ∧ ev.accepted = true := by
  induction h with
  | here file verdict accepted => exact ⟨List.mem_cons_self, file, accepted⟩
  | later file verdict tail ih => exact ⟨List.mem_cons_of_mem _ ih.1, ih.2⟩
  | past missing tail ih => exact ⟨List.mem_cons_of_mem _ ih.1, ih.2⟩

lemma Scored.getOrg_of_notMem {i : ℕ} {cs : List Store.AcceptedModel} {w t : World} {tally : Tally}
    (h : Scored app tm roundId env i cs w tally t) {x : String} (hx : x ∉ cs.map (·.orgId)) :
    t.store.getOrg x = w.store.getOrg x := by
  induction h with
  | nil i w => rfl
  | missing i c cs w t tally hfile tail ih => exact ih fun hmem => hx (List.mem_cons_of_mem _ hmem)
  | scored i c cs w t tally mb hfile ev s hev tail ih =>
    rw [ih fun hmem => hx (List.mem_cons_of_mem _ hmem)]
    have hframe := (TrustManager.evaluate_frame tm w.store c.orgId (env.judge i mb)
      c.numExamples (env.scoredAt i)).2 x
      fun heq => hx (heq ▸ List.mem_cons_self)
    rw [hev] at hframe
    exact hframe

/-- Where each org has one contribution, a trusted org ends with the trust of its evaluation on
record, and with the minimum at least. -/
theorem Scored.trust_persists {i : ℕ} {cs : List Store.AcceptedModel} {w t : World}
    {tally : Tally} (h : Scored app tm roundId env i cs w tally t)
    (hone : (cs.map (·.orgId)).Nodup) (hknown : ∀ c ∈ cs, (w.store.getOrg c.orgId).isSome)
    (hmin : tm.minTrust ≤ 1) {c : Store.AcceptedModel} {mb : Bytes} {ev : Evaluation}
    (htr : Trusted tm env i cs w c mb ev) :
    ∃ row, t.store.getOrg c.orgId = some row ∧ row.trustScore = ev.trust ∧
      tm.minTrust ≤ row.trustScore := by
  induction h with
  | nil i w => cases htr
  | missing i d cs w t tally hfile tail ih =>
    obtain ⟨-, hone⟩ := List.nodup_cons.mp hone
    cases htr with
    | here file => rw [hfile] at file; cases file
    | later file => rw [hfile] at file; cases file
    | past missing htail =>
      exact ih hone (fun c hc => hknown c (List.mem_cons_of_mem _ hc)) htail
  | scored i d cs w t tally nb hfile dv s hdv tail ih =>
    obtain ⟨hd, hone⟩ := List.nodup_cons.mp hone
    cases htr with
    | here file verdict accepted =>
      obtain ⟨row, hrow⟩ := Option.isSome_iff_exists.mp (hknown c List.mem_cons_self)
      have hacc := TrustManager.evaluate_accepted (env.judge i mb) c.numExamples
        (env.scoredAt i) hrow hmin (by rw [verdict]; exact accepted)
      rw [verdict] at hacc
      -- no later contribution is from this org
      rw [hfile] at file
      obtain rfl := Option.some.inj file
      rw [hdv] at verdict
      obtain ⟨rfl, rfl⟩ := Prod.mk.inj verdict
      rw [tail.getOrg_of_notMem hd]
      exact hacc
    | later file verdict htail =>
      rw [hfile] at file
      obtain rfl := Option.some.inj file
      rw [hdv] at verdict
      obtain ⟨rfl, rfl⟩ := Prod.mk.inj verdict
      have hframe := (TrustManager.evaluate_frame tm w.store d.orgId (env.judge i nb)
        d.numExamples (env.scoredAt i)).1
      rw [hdv] at hframe
      refine ih hone (fun c hc => ?_) htail
      rw [World.setStore, hframe.isSome]
      exact hknown c (List.mem_cons_of_mem _ hc)
    | past missing => rw [hfile] at missing; cases missing

end Trusted

/-! ### The feature schema -/

section Gate

variable {py : Python} {canonical : Schema} {vs : List Survivor} {gate gate' : Gate}

lemma demote_orgs (x reason : String) (results : List ContributorResult) :
    (demote x reason results).map (·.orgId) = results.map (·.orgId) := by
  rw [demote, List.map_map]
  apply List.map_congr_left
  intro r _
  simp only [Function.comp_apply]
  split <;> rfl

lemma mem_acceptedOrgsOf {x : String} {results : List ContributorResult} :
    x ∈ acceptedOrgsOf results ↔ ∃ r ∈ results, r.accepted = true ∧ r.orgId = x := by
  simp only [acceptedOrgsOf, List.mem_map, List.mem_filter, and_assoc]

lemma mem_acceptedOrgsOf_demote {x y reason : String} {results : List ContributorResult} :
    x ∈ acceptedOrgsOf (demote y reason results) ↔ x ∈ acceptedOrgsOf results ∧ y ≠ x := by
  simp only [mem_acceptedOrgsOf, demote, List.mem_map]
  constructor
  · rintro ⟨-, ⟨r, hr, rfl⟩, hacc, horg⟩
    split_ifs at hacc horg with h
    exact ⟨⟨r, hr, hacc, horg⟩, fun hy => h (horg.trans hy.symm)⟩
  · rintro ⟨⟨r, hr, hacc, rfl⟩, hy⟩
    exact ⟨_, ⟨r, hr, rfl⟩, by rw [if_neg (Ne.symm hy)]; exact ⟨hacc, rfl⟩⟩

/-- The schema of the bytes is that of the gate. -/
def FitsSchema (py : Python) (canonical : Schema) (mb : Bytes) : Prop :=
  ∃ schema, modelFeatureSchema py mb = .ok schema ∧ schema.same canonical = true

/-- What the loop of the gate does to one survivor. -/
inductive GateStep (py : Python) (canonical : Schema) (v : Survivor) (gate : Gate) : Gate → Prop
  | passed (fits : FitsSchema py canonical v.modelBytes) :
      GateStep py canonical v gate
        { gate with weighted := gate.weighted ++ [(v.modelBytes, v.weight)] }
  | demoted (unfit : ¬FitsSchema py canonical v.modelBytes) (schema : Schema) (expected got : String)
      (found : modelFeatureSchema py v.modelBytes = .ok schema)
      (shown : describeSchema canonical = .ok expected) (shown' : describeSchema schema = .ok got) :
      GateStep py canonical v gate
        { gate with
          results := demote v.orgId
            s!"feature-schema mismatch (expected {expected}, got {got})" gate.results
          excludedSchema := gate.excludedSchema ++ [v.orgId] }

lemma gateLoop_cons {v : Survivor} (h : gateLoop py canonical (v :: vs) gate = .ok gate') :
    ∃ mid, GateStep py canonical v gate mid ∧ gateLoop py canonical vs mid = .ok gate' := by
  obtain ⟨schema, hschema, h⟩ := bind_eq_ok.mp h
  by_cases hsame : schema.same canonical = true
  · rw [if_pos hsame] at h
    exact ⟨_, .passed ⟨schema, hschema, hsame⟩, h⟩
  · rw [if_neg hsame] at h
    have hunfit : ¬FitsSchema py canonical v.modelBytes := by
      rintro ⟨schema', hschema', hsame'⟩
      rw [hschema] at hschema'
      obtain rfl := Except.ok.inj hschema'
      exact hsame hsame'
    obtain ⟨expected, hexpected, h⟩ := bind_eq_ok.mp h
    obtain ⟨got, hgot, h⟩ := bind_eq_ok.mp h
    exact ⟨_, .demoted hunfit schema expected got hschema hexpected hgot, h⟩

lemma schemaGate_loop {tally : Tally} (h : schemaGate py tally = .ok (canonical, gate)) :
    (∃ v vs, sortSurvivors tally.survivors = v :: vs ∧
      modelFeatureSchema py v.modelBytes = .ok canonical) ∧
    gateLoop py canonical (sortSurvivors tally.survivors) ⟨[], tally.results, []⟩ = .ok gate := by
  unfold schemaGate at h
  cases hsort : sortSurvivors tally.survivors with
  | nil =>
    rw [hsort] at h
    cases h
  | cons v vs =>
    rw [hsort] at h
    obtain ⟨schema, hschema, h⟩ := bind_eq_ok.mp h
    obtain ⟨gate', hloop, h⟩ := bind_eq_ok.mp h
    obtain ⟨rfl, rfl⟩ := Prod.mk.inj (Except.ok.inj h)
    exact ⟨⟨v, vs, rfl, hschema⟩, hloop⟩

/-- What the gate lets through, in both of its lists. -/
theorem gateLoop_spec (h : gateLoop py canonical vs gate = .ok gate') :
    gate'.results.map (·.orgId) = gate.results.map (·.orgId) ∧
      (∀ p ∈ gate'.weighted, p ∈ gate.weighted ∨
        ∃ v ∈ vs, p = (v.modelBytes, v.weight) ∧ FitsSchema py canonical v.modelBytes) ∧
      ∀ x, x ∈ acceptedOrgsOf gate'.results ↔ x ∈ acceptedOrgsOf gate.results ∧
        ∀ v ∈ vs, v.orgId = x → FitsSchema py canonical v.modelBytes := by
  induction vs generalizing gate with
  | nil =>
    obtain rfl := Except.ok.inj h
    exact ⟨rfl, fun p hp => Or.inl hp, by simp⟩
  | cons v vs ih =>
    obtain ⟨mid, hstep, h⟩ := gateLoop_cons h
    obtain ⟨horgs, hweighted, hacc⟩ := ih h
    cases hstep with
    | passed fits =>
      refine ⟨horgs, fun p hp => ?_, fun x => ?_⟩
      · rcases hweighted p hp with hp | ⟨u, hu, hrest⟩
        · rcases List.mem_append.mp hp with hp | hp
          · exact Or.inl hp
          · exact Or.inr ⟨v, List.mem_cons_self, List.mem_singleton.mp hp, fits⟩
        · exact Or.inr ⟨u, List.mem_cons_of_mem _ hu, hrest⟩
      · rw [hacc, List.forall_mem_cons]
        exact and_congr_right fun _ => ⟨fun hall => ⟨fun _ => fits, hall⟩, And.right⟩
    | demoted unfit =>
      refine ⟨horgs.trans (demote_orgs _ _ _), fun p hp => ?_, fun x => ?_⟩
      · rcases hweighted p hp with hp | ⟨u, hu, hrest⟩
        · exact Or.inl hp
        · exact Or.inr ⟨u, List.mem_cons_of_mem _ hu, hrest⟩
      · rw [hacc, List.forall_mem_cons, mem_acceptedOrgsOf_demote, and_assoc]
        refine and_congr_right fun _ => and_congr_left fun _ => ?_
        exact ⟨fun hne heq => absurd heq hne, fun hall heq => unfit (hall heq)⟩

/-- The gate of a tally: the schema of a heaviest survivor decides. -/
theorem schemaGate_spec {tally : Tally} (h : schemaGate py tally = .ok (canonical, gate)) :
    (∃ v ∈ tally.survivors, (∀ u ∈ tally.survivors, u.weight ≤ v.weight) ∧
      modelFeatureSchema py v.modelBytes = .ok canonical) ∧
    gate.results.map (·.orgId) = tally.results.map (·.orgId) ∧
    (∀ p ∈ gate.weighted, ∃ v ∈ tally.survivors, p = (v.modelBytes, v.weight) ∧
      FitsSchema py canonical v.modelBytes) ∧
    ∀ x, x ∈ acceptedOrgsOf gate.results ↔ x ∈ acceptedOrgsOf tally.results ∧
      ∀ v ∈ tally.survivors, v.orgId = x → FitsSchema py canonical v.modelBytes := by
  have hperm : (sortSurvivors tally.survivors).Perm tally.survivors := List.perm_insertionSort _ _
  have hsorted : (sortSurvivors tally.survivors).Pairwise (fun a b => b.weight ≤ a.weight) :=
    List.pairwise_insertionSort (fun a b : Survivor => b.weight ≤ a.weight) _
  obtain ⟨⟨v, vs, hsort, hschema⟩, hloop⟩ := schemaGate_loop h
  obtain ⟨horgs, hweighted, hacc⟩ := gateLoop_spec hloop
  rw [hsort] at hsorted
  have hv : v ∈ sortSurvivors tally.survivors := hsort ▸ List.mem_cons_self
  refine ⟨⟨v, hperm.mem_iff.mp hv, fun u hu => ?_, hschema⟩, horgs, fun p hp => ?_, fun x => ?_⟩
  · have hu' : u ∈ v :: vs := hsort ▸ hperm.mem_iff.mpr hu
    rcases List.mem_cons.mp hu' with rfl | hu'
    · exact le_refl _
    · exact (List.pairwise_cons.mp hsorted).1 u hu'
  · obtain ⟨u, hu, hrest⟩ := (hweighted p hp).resolve_left (by simp)
    exact ⟨u, hperm.mem_iff.mp hu, hrest⟩
  · rw [hacc]
    refine and_congr_right fun _ => ⟨fun hall u hu => hall u (hperm.mem_iff.mpr hu),
      fun hall u hu => hall u (hperm.mem_iff.mp hu)⟩

end Gate

end FlCoordinator
