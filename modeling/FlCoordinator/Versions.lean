import FlCoordinator.Intake

/-!
# Rounds, versions and their files

The life of a global model from its staging on, over every run: which version is active, when a
version may first be promoted, and how rounds, versions and stored files fit together.
-/

namespace FlCoordinator

open Lib

/-! ### Paths -/

section Paths

lemma natText_injective : Function.Injective Json.natText := by
  intro n m h
  rw [← Json.natOfText_natText n, h, Json.natOfText_natText]

lemma intText_injective : Function.Injective Json.intText := by
  intro n m h
  unfold Json.intText at h
  -- digits differ from the sign
  have hsign : ∀ a b : ℕ, '-' :: Json.natText a ≠ Json.natText b := by
    intro a b heq
    have hdigit := Json.isDigit_natText b '-' (by rw [← heq]; simp)
    exact absurd hdigit (by decide)
  split_ifs at h with hn hm hm
  · have := natText_injective (List.cons.inj h).2
    omega
  · exact absurd h (hsign _ _)
  · exact absurd h.symm (hsign _ _)
  · have := natText_injective h
    omega

/-- The characters of a printed integer. -/
def isIntChar (c : Char) : Bool := c.isDigit || c = '-'

lemma isIntChar_intText (n : ℤ) : ∀ c ∈ Json.intText n, isIntChar c = true := by
  intro c hc
  unfold Json.intText at hc
  unfold isIntChar
  split_ifs at hc
  · rcases List.mem_cons.mp hc with rfl | hc
    · rfl
    · rw [Json.isDigit_natText _ c hc, Bool.true_or]
  · rw [Json.isDigit_natText _ c hc, Bool.true_or]

/-- A printed integer ends where another character follows. -/
lemma intText_append_inj {n m : ℤ} {c d : Char} {cs ds : List Char} (hc : isIntChar c = false)
    (hd : isIntChar d = false) (h : Json.intText n ++ c :: cs = Json.intText m ++ d :: ds) :
    n = m ∧ c = d := by
  have hn : (Json.intText n ++ c :: cs).takeWhile isIntChar = Json.intText n := by
    rw [List.takeWhile_append_of_pos (isIntChar_intText n), List.takeWhile_cons_of_neg (by simp [hc]),
      List.append_nil]
  have hm : (Json.intText m ++ d :: ds).takeWhile isIntChar = Json.intText m := by
    rw [List.takeWhile_append_of_pos (isIntChar_intText m), List.takeWhile_cons_of_neg (by simp [hd]),
      List.append_nil]
  obtain rfl := intText_injective (hn.symm.trans ((congrArg _ h).trans hm))
  exact ⟨rfl, (List.cons.inj (List.append_cancel_left h)).1⟩

lemma roundModelPath_toList (modelDir : String) (k : ℤ) :
    (roundModelPath modelDir k).toList = modelDir.toList ++
      ("/round_".toList ++ (Json.intText k ++ '.' :: "json".toList)) := by
  simp [roundModelPath, intStr, toString]

lemma contributionPath_toList (modelDir : String) (k : ℤ) (orgId sha : String) :
    (contributionPath modelDir k orgId sha).toList = modelDir.toList ++
      ("/round_".toList ++ (Json.intText k ++
        '/' :: ("contrib_" ++ orgId ++ "_" ++ hashPrefix sha ++ ".json").toList)) := by
  simp [contributionPath, intStr, toString]

lemma roundModelPath_injective (modelDir : String) :
    Function.Injective (roundModelPath modelDir) := by
  intro k j h
  have hlist := congrArg String.toList h
  rw [roundModelPath_toList, roundModelPath_toList] at hlist
  exact (intText_append_inj (by decide) (by decide)
    (List.append_cancel_left (List.append_cancel_left hlist))).1

lemma roundModelPath_ne_contributionPath (modelDir : String) (k j : ℤ) (orgId sha : String) :
    roundModelPath modelDir k ≠ contributionPath modelDir j orgId sha := by
  intro h
  have hlist := congrArg String.toList h
  rw [roundModelPath_toList, contributionPath_toList] at hlist
  exact absurd (intText_append_inj (by decide) (by decide)
    (List.append_cancel_left (List.append_cancel_left hlist))).2 (by decide)

lemma roundModelPath_ne_crlPath (app : App) (k : ℤ) :
    roundModelPath app.modelDir k ≠ crlPath app := by
  intro h
  have hlast := congrArg (fun s => s.toList.reverse.head?) h
  simp [roundModelPath_toList, crlPath] at hlast

end Paths

/-! ### The history of a version -/

section History

variable {app : App}

/-- The clock readings that decide windows and promotions, in order. -/
def Event.readings : Event → List ℚ
  | .startRound _ _ env => [env.startedAt]
  | .aggregate _ _ env => [env.now, env.stagedNow, env.createdAt]
  | .publish _ _ env => [env.now, env.promotedAt, env.completedAt]
  | .rollback _ _ env => [env.promotedAt]
  | _ => []

/-- The clock never goes back. -/
def Chronological (es : List Event) : Prop := (es.flatMap Event.readings).Pairwise (· ≤ ·)

instance (es : List Event) : Decidable (Chronological es) :=
  inferInstanceAs (Decidable (List.Pairwise _ _))

/-- The observation window of a round, in seconds. -/
def RoundRow.window (r : RoundRow) : ℚ := r.params.observationHours.toRat * 3600

lemma round_kept (app : App) (s : Sys) (e : Event) {k : ℤ} {r : RoundRow}
    (h : s.world.store.getRound k = some r) :
    ∃ r', (next app e s).world.store.getRound k = some r' ∧ r'.startedAt = r.startedAt ∧
      r'.window = r.window := by
  cases (next_effect app s e).roundMove k with
  | kept same => exact ⟨r, same.trans h, rfl, rfl⟩
  | opened user body env username event fresh new =>
    rw [fresh] at h
    cases h
  | aggregated user env resp event done new =>
    have hfound := done.found
    rw [h] at hfound
    obtain rfl := Option.some.inj hfound
    exact ⟨_, new, rfl, rfl⟩
  | completed user env event g staged new =>
    rw [h] at new
    exact ⟨_, new, rfl, rfl⟩

lemma round_run (app : App) {s : Sys} {k : ℤ} {r : RoundRow} (es : List Event)
    (h : s.world.store.getRound k = some r) :
    ∃ r', (Lib.run (next app) s es).world.store.getRound k = some r' ∧
      r'.startedAt = r.startedAt ∧ r'.window = r.window :=
  run_invariant_all (next app)
    (I := fun t => ∃ r', t.world.store.getRound k = some r' ∧ r'.startedAt = r.startedAt ∧
      r'.window = r.window)
    (fun t e ⟨r', hr', hstart, hwindow⟩ => by
      obtain ⟨r'', hr'', hstart', hwindow'⟩ := round_kept app t e hr'
      exact ⟨r'', hr'', hstart'.trans hstart, hwindow'.trans hwindow⟩) ⟨r, h, rfl, rfl⟩ es

lemma version_run (app : App) {s : Sys} {g : GlobalModelRow} (es : List Event)
    (h : g ∈ s.world.store.globalModels.rows) :
    ∃ g' ∈ (Lib.run (next app) s es).world.store.globalModels.rows, g'.core = g.core ∧
      (g.status ≠ .staged → g'.status ≠ .staged) :=
  run_invariant_all (next app)
    (I := fun t => ∃ g' ∈ t.world.store.globalModels.rows, g'.core = g.core ∧
      (g.status ≠ .staged → g'.status ≠ .staged))
    (fun t e ⟨g', hg', hcore, hst⟩ => by
      obtain ⟨g'', hg'', hcore', hst'⟩ := (next_effect app t e).version_kept hg'
      exact ⟨g'', hg'', hcore'.trans hcore, fun h => hst' (hst h)⟩) ⟨g, h, rfl, id⟩ es

def OneActive (s : Store) : Prop :=
  ∀ g ∈ s.globalModels.rows, ∀ h ∈ s.globalModels.rows, g.status = .active → h.status = .active →
    g = h

lemma oneActive_of_promoted {s t : Store} {v : ℤ} {username : String} {now : ℚ}
    (h : ∀ j, t.getGlobalModel j = (s.getGlobalModel j).map
      (if v = j then Store.promotedRow username now else Store.archivedRow)) : OneActive t := by
  have hactive : ∀ g ∈ t.globalModels.rows, g.status = .active → v = g.versionId := by
    intro g hg hst
    by_contra hv
    have hnew := (Store.mem_globalModels.mp hg).symm.trans (h g.versionId)
    rw [if_neg hv] at hnew
    obtain ⟨q, -, rfl⟩ := Option.map_eq_some_iff.mp hnew.symm
    exact (archivedRow_status q).1 hst
  intro g hg g' hg' hst hst'
  exact List.inj_on_of_nodup_map t.globalModels.nodup hg hg'
    ((hactive g hg hst).symm.trans (hactive g' hg' hst'))

lemma oneActive_next (app : App) (s : Sys) (e : Event) (h : OneActive s.world.store) :
    OneActive (next app e s).world.store := by
  have hsame : ∀ t : Store, (∀ g ∈ t.globalModels.rows, g.status = .active →
      g ∈ s.world.store.globalModels.rows) → OneActive t :=
    fun t hold g hg g' hg' hst hst' => h g (hold g hg hst) g' (hold g' hg' hst') hst hst'
  have heffect := next_effect app s e
  cases heffect.lifecycle with
  | kept rounds versions =>
    apply hsame _
    intro g hg _
    rw [Store.mem_globalModels, versions] at hg
    exact Table.get?_mem hg
  | opened user body env username event rounds versions =>
    apply hsame _
    intro g hg _
    rw [Store.mem_globalModels, versions] at hg
    exact Table.get?_mem hg
  | staged user roundId env resp event done rounds versions =>
    apply hsame _
    intro g hg hst
    rw [Store.mem_globalModels, versions] at hg
    split_ifs at hg
    · rw [← Option.some.inj hg] at hst
      cases hst
    · exact Table.get?_mem hg
  | published user roundId env g username event staged soaked rounds versions =>
    exact oneActive_of_promoted versions
  | rolledBack user versionId env g username event found closed rounds versions =>
    exact oneActive_of_promoted versions

lemma Chronological.readings {es : List Event} (h : Chronological es) {e : Event} (he : e ∈ es) :
    e.readings.Pairwise (· ≤ ·) :=
  (List.pairwise_flatMap.mp h).1 e he

end History

/-! ### Rounds, versions and files together -/

section Consistency

variable {app : App}

lemma modelFile_kept (app : App) (s : Sys) (e : Event) {k : ℤ}
    (h : RoundClosed s.world.store k) :
    (next app e s).world.files (roundModelPath app.modelDir k) =
      s.world.files (roundModelPath app.modelDir k) := by
  cases next_fileMove app s e with
  | kept same => rw [same]
  | upload p new =>
    rw [new, Function.update_of_ne (roundModelPath_ne_contributionPath _ _ _ _ _)]
  | model user roundId env resp event done =>
    have hne : roundModelPath app.modelDir k ≠ roundModelPath app.modelDir roundId := by
      intro heq
      obtain rfl := roundModelPath_injective _ heq
      exact not_running_of_closed h ⟨done.row, done.found, done.running⟩
    rw [done.files, Function.update_of_ne hne, done.scored.frame.2.1]
  | crl content new => rw [new, Function.update_of_ne (roundModelPath_ne_crlPath app k)]

/-- The joint state of rounds, versions and files. -/
structure Consistent (app : App) (w : World) : Prop where
  round : ∀ g ∈ w.store.globalModels.rows, ∃ r, w.store.getRound g.roundId = some r ∧
    r.globalModelHash = some g.modelHash ∧
    (r.status = .aggregated ∧ g.status = .staged ∨ r.status = .completed ∧ g.status ≠ .staged)
  version : ∀ k, RoundClosed w.store k → ∃ g ∈ w.store.globalModels.rows, g.roundId = k
  unique : ∀ g ∈ w.store.globalModels.rows, ∀ h ∈ w.store.globalModels.rows,
    g.roundId = h.roundId → g = h
  completedAt : ∀ k r, w.store.getRound k = some r →
    (r.completedAt.isSome = true ↔ r.status = .completed)
  file : ∀ g ∈ w.store.globalModels.rows, g.modelPath = roundModelPath app.modelDir g.roundId ∧
    ∃ bytes, w.files g.modelPath = some bytes ∧ app.host.sha256hex bytes = g.modelHash

namespace Consistent

variable {s : Sys}

lemma closed {w : World} (h : Consistent app w) {g : GlobalModelRow}
    (hg : g ∈ w.store.globalModels.rows) : RoundClosed w.store g.roundId := by
  obtain ⟨r, hr, -, ⟨hst, -⟩ | ⟨hst, -⟩⟩ := h.round g hg
  · exact ⟨r, hr, by rw [hst]; decide⟩
  · exact ⟨r, hr, by rw [hst]; decide⟩

/-- The versions that a promotion of `v` leaves fit their rounds, if the round of `v` is completed
by then and the others stay. -/
lemma round_of_promoted (h : Consistent app s.world) {t : Store} {v : GlobalModelRow}
    {username : String} {now : ℚ} (hv : s.world.store.getGlobalModel v.versionId = some v)
    (hversions : ∀ j, t.getGlobalModel j = (s.world.store.getGlobalModel j).map
      (if v.versionId = j then Store.promotedRow username now else Store.archivedRow))
    (hother : ∀ k, v.roundId ≠ k → t.getRound k = s.world.store.getRound k)
    (hdone : ∃ r, t.getRound v.roundId = some r ∧ r.globalModelHash = some v.modelHash ∧
      r.status = .completed) {g : GlobalModelRow} (hg : g ∈ t.globalModels.rows) :
    ∃ r, t.getRound g.roundId = some r ∧ r.globalModelHash = some g.modelHash ∧
      (r.status = .aggregated ∧ g.status = .staged ∨
        r.status = .completed ∧ g.status ≠ .staged) := by
  have hnew := (Store.mem_globalModels.mp hg).symm.trans (hversions g.versionId)
  obtain ⟨q, hq, hrow⟩ := Option.map_eq_some_iff.mp hnew.symm
  by_cases hid : v.versionId = g.versionId
  · rw [if_pos hid] at hrow
    rw [← hid, hv] at hq
    obtain rfl := Option.some.inj hq
    obtain ⟨r, hr, hhash, hst⟩ := hdone
    rw [← hrow]
    exact ⟨r, hr, hhash, Or.inr ⟨hst, fun hstaged => by cases hstaged⟩⟩
  · rw [if_neg hid] at hrow
    have hcore : g.core = q.core := by
      rw [← hrow]
      exact archivedRow_core q
    have hne : v.roundId ≠ q.roundId := by
      intro hround
      obtain rfl := h.unique v (Table.get?_mem hv) q (Table.get?_mem hq) hround
      exact hid (Store.getGlobalModel_versionId hq)
    obtain ⟨r, hr, hhash, hst⟩ := h.round q (Table.get?_mem hq)
    have hround : g.roundId = q.roundId := (congrArg GlobalModelRow.roundId hcore :)
    have hmodel : g.modelHash = q.modelHash := (congrArg GlobalModelRow.modelHash hcore :)
    have hstaged : g.status = .staged ↔ q.status = .staged := by
      rw [← hrow]
      exact (archivedRow_status q).2
    rw [hround, hmodel, hother _ hne, ne_eq, hstaged]
    exact ⟨r, hr, hhash, hst⟩

lemma round_next (h : Consistent app s.world) (e : Event) {g : GlobalModelRow}
    (hg : g ∈ (next app e s).world.store.globalModels.rows) :
    ∃ r, (next app e s).world.store.getRound g.roundId = some r ∧
      r.globalModelHash = some g.modelHash ∧ (r.status = .aggregated ∧ g.status = .staged ∨
        r.status = .completed ∧ g.status ≠ .staged) := by
  have hget := Store.mem_globalModels.mp hg
  have heffect := next_effect app s e
  cases heffect.lifecycle with
  | kept rounds versions =>
    rw [versions] at hget
    rw [rounds]
    exact h.round g (Table.get?_mem hget)
  | opened user body env username event rounds versions =>
    rw [versions] at hget
    obtain ⟨r, hr, hrest⟩ := h.round g (Table.get?_mem hget)
    refine ⟨r, ?_, hrest⟩
    rw [rounds, if_neg, hr]
    rintro heq
    rw [heq, Store.getRound, AutoTable.get?_seq_succ] at hr
    cases hr
  | staged user roundId env resp event done rounds versions =>
    rw [versions] at hget
    rw [rounds]
    split_ifs at hget
    · rw [← Option.some.inj hget]
      exact ⟨_, if_pos rfl, rfl, Or.inl ⟨rfl, rfl⟩⟩
    · have hold := Table.get?_mem hget
      have hne : roundId ≠ g.roundId := by
        rintro rfl
        exact not_running_of_closed (h.closed hold) ⟨done.row, done.found, done.running⟩
      rw [if_neg hne]
      exact h.round g hold
  | published user roundId env v username event staged soaked rounds versions =>
    obtain ⟨hv, rfl, -⟩ := Store.getStagedModelForRound_some staged
    refine round_of_promoted h hv versions (fun k hk => by rw [rounds, if_neg hk]) ?_ hg
    obtain ⟨r, hr, hhash, -⟩ := h.round v (Table.get?_mem hv)
    rw [rounds, if_pos rfl, hr]
    exact ⟨_, rfl, hhash, rfl⟩
  | rolledBack user versionId env v username event found closed rounds versions =>
    obtain rfl := Store.getGlobalModel_versionId found
    refine round_of_promoted h found versions (fun k _ => rounds k) ?_ hg
    obtain ⟨r, hr, hhash, ⟨-, hst⟩ | ⟨hst, -⟩⟩ := h.round v (Table.get?_mem found)
    · exact absurd hst closed
    · rw [rounds]
      exact ⟨r, hr, hhash, hst⟩

/-- A version has a predecessor, or belongs to a round that was running. -/
lemma origin_next {e : Event} {g : GlobalModelRow}
    (hg : g ∈ (next app e s).world.store.globalModels.rows) :
    (∃ q ∈ s.world.store.globalModels.rows, q.core = g.core) ∨
      g.versionId = s.world.store.globalModels.seq + 1 ∧ RoundRunning s.world.store g.roundId := by
  cases (next_effect app s e).versionMove hg with
  | kept old => exact Or.inl ⟨g, old, rfl⟩
  | staged user env resp event done fresh row =>
    exact Or.inr ⟨fresh, done.row, done.found, done.running⟩
  | promoted q username now old event row => exact Or.inl ⟨q, old, by rw [row]; rfl⟩
  | archived q old active row => exact Or.inl ⟨q, old, by rw [row]; rfl⟩

lemma unique_next (h : Consistent app s.world) (e : Event) {g g' : GlobalModelRow}
    (hg : g ∈ (next app e s).world.store.globalModels.rows)
    (hg' : g' ∈ (next app e s).world.store.globalModels.rows) (hround : g.roundId = g'.roundId) :
    g = g' := by
  apply List.inj_on_of_nodup_map (next app e s).world.store.globalModels.nodup hg hg'
  -- a version of a running round has no fellow
  have hnew : ∀ {q p : GlobalModelRow}, q ∈ s.world.store.globalModels.rows → q.core = p.core →
      ¬RoundRunning s.world.store p.roundId := by
    intro q p hq hcore hrun
    have hround : q.roundId = p.roundId := (congrArg GlobalModelRow.roundId hcore :)
    rw [← hround] at hrun
    exact not_running_of_closed (h.closed hq) hrun
  rcases origin_next hg with ⟨q, hq, hcore⟩ | ⟨hid, hrun⟩
  · rcases origin_next hg' with ⟨q', hq', hcore'⟩ | ⟨-, hrun'⟩
    · have heq : q.roundId = q'.roundId :=
        ((congrArg GlobalModelRow.roundId hcore :).trans hround).trans
          (congrArg GlobalModelRow.roundId hcore'.symm :)
      obtain rfl := h.unique q hq q' hq' heq
      exact (congrArg GlobalModelRow.versionId (hcore.symm.trans hcore') :)
    · rw [← hround] at hrun'
      exact absurd hrun' (hnew hq hcore)
  · rcases origin_next hg' with ⟨q', hq', hcore'⟩ | ⟨hid', -⟩
    · rw [hround] at hrun
      exact absurd hrun (hnew hq' hcore')
    · exact hid.trans hid'.symm

lemma version_next (h : Consistent app s.world) (e : Event) {k : ℤ}
    (hclosed : RoundClosed (next app e s).world.store k) :
    ∃ g ∈ (next app e s).world.store.globalModels.rows, g.roundId = k := by
  have heffect := next_effect app s e
  -- an old version of the round is still there
  have hold : (∃ q ∈ s.world.store.globalModels.rows, q.roundId = k) →
      ∃ g ∈ (next app e s).world.store.globalModels.rows, g.roundId = k := by
    rintro ⟨q, hq, rfl⟩
    obtain ⟨g, hg, hcore, -⟩ := heffect.version_kept hq
    exact ⟨g, hg, (congrArg GlobalModelRow.roundId hcore :)⟩
  obtain ⟨r, hr, hst⟩ := hclosed
  cases heffect.lifecycle with
  | kept rounds versions => exact hold (h.version k ⟨r, (rounds k).symm.trans hr, hst⟩)
  | opened user body env username event rounds versions =>
    rw [rounds] at hr
    split_ifs at hr
    · rw [← Option.some.inj hr] at hst
      exact absurd rfl hst
    · exact hold (h.version k ⟨r, hr, hst⟩)
  | staged user roundId env resp event done rounds versions =>
    rw [rounds] at hr
    split_ifs at hr with hk
    · have hnew := versions (s.world.store.globalModels.seq + 1)
      rw [if_pos rfl] at hnew
      exact ⟨_, Table.get?_mem hnew, hk⟩
    · exact hold (h.version k ⟨r, hr, hst⟩)
  | published user roundId env v username event staged soaked rounds versions =>
    obtain ⟨hv, hround, -⟩ := Store.getStagedModelForRound_some staged
    rw [rounds] at hr
    split_ifs at hr with hk
    · exact hold ⟨v, Table.get?_mem hv, hround.trans hk⟩
    · exact hold (h.version k ⟨r, hr, hst⟩)
  | rolledBack user versionId env v username event found closed rounds versions =>
    exact hold (h.version k ⟨r, (rounds k).symm.trans hr, hst⟩)

lemma completedAt_next (h : Consistent app s.world) (e : Event) {k : ℤ} {r : RoundRow}
    (hr : (next app e s).world.store.getRound k = some r) :
    r.completedAt.isSome = true ↔ r.status = .completed := by
  cases (next_effect app s e).roundMove k with
  | kept same => exact h.completedAt k r (same.symm.trans hr)
  | opened user body env username event fresh new =>
    rw [Option.some.inj (hr.symm.trans new)]
    simp [Store.openedRow]
  | aggregated user env resp event done new =>
    rw [Option.some.inj (hr.symm.trans new)]
    simp [aggregatedRow]
  | completed user env event g staged new =>
    obtain ⟨q, -, heq⟩ := Option.map_eq_some_iff.mp (new.symm.trans hr)
    rw [← heq]
    simp [completedRow]

lemma file_next (h : Consistent app s.world) (e : Event) {g : GlobalModelRow}
    (hg : g ∈ (next app e s).world.store.globalModels.rows) :
    g.modelPath = roundModelPath app.modelDir g.roundId ∧ ∃ bytes,
      (next app e s).world.files g.modelPath = some bytes ∧
        app.host.sha256hex bytes = g.modelHash := by
  have hold : ∀ q ∈ s.world.store.globalModels.rows,
      q.modelPath = roundModelPath app.modelDir q.roundId ∧ ∃ bytes,
        (next app e s).world.files q.modelPath = some bytes ∧
          app.host.sha256hex bytes = q.modelHash := by
    intro q hq
    obtain ⟨hpath, bytes, hfile, hhash⟩ := h.file q hq
    refine ⟨hpath, bytes, ?_, hhash⟩
    rw [hpath] at hfile ⊢
    rw [modelFile_kept app s e (h.closed hq), hfile]
  cases (next_effect app s e).versionMove hg with
  | kept old => exact hold g old
  | staged user env resp event done fresh row =>
    have hpath : g.modelPath = roundModelPath app.modelDir g.roundId :=
      (congrArg GlobalModelRow.modelPath row :)
    refine ⟨hpath, done.bytes, ?_, (congrArg GlobalModelRow.modelHash row :).symm⟩
    rw [hpath, done.files, Function.update_self]
  | promoted q username now old event row =>
    rw [row]
    exact hold q old
  | archived q old active row =>
    rw [row]
    exact hold q old

lemma next (h : Consistent app s.world) (e : Event) : Consistent app (next app e s).world where
  round _ hg := h.round_next e hg
  version _ hk := h.version_next e hk
  unique _ hg _ hg' hround := h.unique_next e hg hg' hround
  completedAt _ _ hr := h.completedAt_next e hr
  file _ hg := h.file_next e hg

lemma run (app : App) (es : List Event) : Consistent app (after app es).world :=
  run_invariant_all (FlCoordinator.next app) (I := fun s => Consistent app s.world)
    (fun s e h => h.next e) (by
      refine ⟨by simp [init, Store.empty], fun k hk => ?_, by simp [init, Store.empty],
        fun k r hr => ?_, by simp [init, Store.empty]⟩
      · obtain ⟨r, hr, -⟩ := hk
        cases hr
      · cases hr) es

end Consistent

/-- The versions of a round. -/
def Store.versionsOf (s : Store) (k : ℤ) : List GlobalModelRow :=
  s.globalModels.rows.filter (fun g => g.roundId = k)

/-- The status of a round says how many versions it has and in which state, `completed_at` is set
with the last status, and the hashes of the round, the version and the file agree. -/
structure RoundConsistent (app : App) (w : World) (k : ℤ) (r : RoundRow) : Prop where
  running : r.status = .running ↔ w.store.versionsOf k = []
  aggregated : r.status = .aggregated ↔ ∃ g, w.store.versionsOf k = [g] ∧ g.status = .staged
  completed : r.status = .completed ↔
    ∃ g, w.store.versionsOf k = [g] ∧ (g.status = .active ∨ g.status = .archived)
  completedAt : r.completedAt.isSome = true ↔ r.status = .completed
  model : ∀ g ∈ w.store.versionsOf k, r.globalModelHash = some g.modelHash ∧
    ∃ bytes, w.files g.modelPath = some bytes ∧ app.host.sha256hex bytes = g.modelHash

/-- Both endpoints answer with the bytes of a version's hash whenever there is one to serve. -/
structure ServesVersions (app : App) (w : World) : Prop where
  active : ∀ req env m v, (getActiveGlobalModel app req env w).1 = .ok (m, v) →
    ∃ g bytes, w.store.getGlobalModel v = some g ∧ g.status = .active ∧
      m.roundId = g.roundId ∧ m.modelB64 = app.host.b64encode bytes ∧
      app.host.sha256hex bytes = g.modelHash
  ofRound : ∀ req k env m, (getRoundGlobalModel app req k env w).1 = .ok m →
    ∃ g bytes, w.store.versionsOf k = [g] ∧ (g.status = .active ∨ g.status = .archived) ∧
      m.roundId = k ∧ m.modelB64 = app.host.b64encode bytes ∧
      app.host.sha256hex bytes = g.modelHash
  activeAnswered : ∀ req env caller, app.coordPriv.isSome = true →
    getAuthenticatedOrgId app req w env.authAt = .ok caller →
    (∃ g ∈ w.store.globalModels.rows, g.status = .active) →
    (getActiveGlobalModel app req env w).1.isOk = true
  roundAnswered : ∀ req k env caller r, app.coordPriv.isSome = true →
    getAuthenticatedOrgId app req w env.authAt = .ok caller → Host.bindInt k = .ok k →
    w.store.getRound k = some r → r.status = .completed →
    (getRoundGlobalModel app req k env w).1.isOk = true

lemma mem_versionsOf {s : Store} {k : ℤ} {g : GlobalModelRow} :
    g ∈ s.versionsOf k ↔ g ∈ s.globalModels.rows ∧ g.roundId = k := by
  simp [Store.versionsOf]

namespace Consistent

variable {w : World}

lemma versionsOf_eq (h : Consistent app w) {g : GlobalModelRow}
    (hg : g ∈ w.store.globalModels.rows) : w.store.versionsOf g.roundId = [g] := by
  have hnodup : (w.store.versionsOf g.roundId).Nodup :=
    (List.Nodup.of_map _ w.store.globalModels.nodup).filter _
  refine List.perm_singleton.mp ((List.perm_ext_iff_of_nodup hnodup (List.nodup_singleton g)).mpr
    fun q => ?_)
  rw [mem_versionsOf, List.mem_singleton]
  constructor
  · rintro ⟨hq, hround⟩
    exact h.unique q hq g hg hround
  · rintro rfl
    exact ⟨hg, rfl⟩

lemma versionsOf_eq_nil (h : Consistent app w) {k : ℤ} {r : RoundRow}
    (hr : w.store.getRound k = some r) : r.status = .running ↔ w.store.versionsOf k = [] := by
  constructor
  · intro hrun
    apply List.eq_nil_iff_forall_not_mem.mpr
    intro g hg
    obtain ⟨hmem, rfl⟩ := mem_versionsOf.mp hg
    exact not_running_of_closed (h.closed hmem) ⟨r, hr, hrun⟩
  · intro hnil
    by_contra hclosed
    obtain ⟨g, hg, hk⟩ := h.version k ⟨r, hr, hclosed⟩
    have hmem := mem_versionsOf.mpr ⟨hg, hk⟩
    rw [hnil] at hmem
    cases hmem

lemma unstaged_iff {st : ModelStatus} : st = .active ∨ st = .archived ↔ st ≠ .staged := by
  cases st <;> simp

lemma roundConsistent (h : Consistent app w) {k : ℤ} {r : RoundRow}
    (hr : w.store.getRound k = some r) : RoundConsistent app w k r := by
  -- the round and its version, if it is closed
  have hversion : ∀ g, w.store.versionsOf k = [g] →
      r.status = .aggregated ∧ g.status = .staged ∨ r.status = .completed ∧ g.status ≠ .staged := by
    intro g hg
    obtain ⟨hmem, rfl⟩ := mem_versionsOf.mp (hg ▸ List.mem_singleton_self g)
    obtain ⟨r', hr', -, hst⟩ := h.round g hmem
    obtain rfl := Option.some.inj (hr.symm.trans hr')
    exact hst
  have hclosed : r.status ≠ .running → ∃ g, w.store.versionsOf k = [g] := by
    intro hst
    obtain ⟨g, hg, rfl⟩ := h.version k ⟨r, hr, hst⟩
    exact ⟨g, h.versionsOf_eq hg⟩
  refine ⟨h.versionsOf_eq_nil hr, ⟨fun hst => ?_, ?_⟩, ⟨fun hst => ?_, ?_⟩,
    h.completedAt k r hr, fun g hg => ?_⟩
  · obtain ⟨g, hg⟩ := hclosed (by rw [hst]; decide)
    rcases hversion g hg with ⟨-, hstaged⟩ | ⟨hcompleted, -⟩
    · exact ⟨g, hg, hstaged⟩
    · rw [hst] at hcompleted
      cases hcompleted
  · rintro ⟨g, hg, hstaged⟩
    rcases hversion g hg with ⟨hst, -⟩ | ⟨-, hunstaged⟩
    · exact hst
    · exact absurd hstaged hunstaged
  · obtain ⟨g, hg⟩ := hclosed (by rw [hst]; decide)
    rcases hversion g hg with ⟨haggregated, -⟩ | ⟨-, hunstaged⟩
    · rw [hst] at haggregated
      cases haggregated
    · exact ⟨g, hg, unstaged_iff.mpr hunstaged⟩
  · rintro ⟨g, hg, hst⟩
    rcases hversion g hg with ⟨-, hstaged⟩ | ⟨hcompleted, -⟩
    · exact absurd hstaged (unstaged_iff.mp hst)
    · exact hcompleted
  · obtain ⟨hmem, rfl⟩ := mem_versionsOf.mp hg
    obtain ⟨r', hr', hhash, -⟩ := h.round g hmem
    obtain rfl := Option.some.inj (hr.symm.trans hr')
    exact ⟨hhash, (h.file g hmem).2⟩

lemma signedModelResponse_isOk (hkey : app.coordPriv.isSome = true) (k : ℤ) (bytes : Bytes)
    (at' : String) : (signedModelResponse app k bytes at' w).1.isOk = true := by
  obtain ⟨key, hkey⟩ := Option.isSome_iff_exists.mp hkey
  have hspec : (signedModelResponse app k bytes at').wp (fun r _ => r.isOk = true) w := by
    unfold signedModelResponse
    refine wp_query_bind (Handler.wp_orRaise_bind (fun hno => ?_) fun _ _ => rfl)
    rw [hkey] at hno
    cases hno
  exact hspec

lemma active_answered (h : Consistent app w) {req : Request} {env : ServeEnv} {caller : String}
    (hkey : app.coordPriv.isSome = true)
    (hauth : getAuthenticatedOrgId app req w env.authAt = .ok caller)
    (hactive : ∃ g ∈ w.store.globalModels.rows, g.status = .active) :
    (getActiveGlobalModel app req env w).1.isOk = true := by
  have hspec : (getActiveGlobalModel app req env).wp (fun r _ => r.isOk = true) w := by
    unfold getActiveGlobalModel
    refine wp_authenticate_ok hauth (wp_query_bind ?_)
    refine Handler.wp_orRaise_bind (fun hno => ?_) fun g hg => ?_
    · obtain ⟨g, hg, hst⟩ := hactive
      exact absurd hno (Store.getActiveGlobalModel_ne_none hg hst)
    · obtain ⟨-, bytes, hfile, -⟩ := h.file g (Table.get?_mem (Store.getActiveGlobalModel_some hg).1)
      refine Handler.wp_read_bind (Handler.wp_orRaise_bind (fun hno => ?_) fun content _ => ?_)
      · rw [hfile] at hno
        cases hno
      · have hok := signedModelResponse_isOk (w := w) hkey g.roundId content env.distributedAt
        rw [Handler.wp_bind, Handler.wp_def]
        cases hres : (signedModelResponse app g.roundId content env.distributedAt w).1 with
        | error e =>
          rw [hres] at hok
          cases hok
        | ok m => rfl
  exact hspec

lemma round_answered (h : Consistent app w) {req : Request} {k : ℤ} {env : ServeEnv}
    {caller : String} {r : RoundRow} (hkey : app.coordPriv.isSome = true)
    (hauth : getAuthenticatedOrgId app req w env.authAt = .ok caller)
    (hfit : Host.bindInt k = .ok k) (hr : w.store.getRound k = some r)
    (hst : r.status = .completed) : (getRoundGlobalModel app req k env w).1.isOk = true := by
  have hspec : (getRoundGlobalModel app req k env).wp (fun r _ => r.isOk = true) w := by
    unfold getRoundGlobalModel
    refine wp_authenticate_ok hauth (wp_requireRound_ok hfit hr ?_)
    apply Handler.wp_ensure_bind (fun hno => absurd hst hno)
    intro _
    obtain ⟨g, hg, rfl⟩ := h.version k ⟨r, hr, by rw [hst]; decide⟩
    obtain ⟨hpath, bytes, hfile, -⟩ := h.file g hg
    rw [hpath] at hfile
    refine Handler.wp_read_bind (Handler.wp_orRaise_bind (fun hno => ?_) fun content _ => ?_)
    · rw [hfile] at hno
      cases hno
    · exact signedModelResponse_isOk hkey g.roundId content env.distributedAt
  exact hspec

lemma servesVersions (h : Consistent app w) : ServesVersions app w where
  active req env m v hm := by
    obtain ⟨g, bytes, hg, hst, hfile, hcarries⟩ := getActiveGlobalModel_ok hm
    obtain ⟨-, content, hcontent, hhash⟩ := h.file g (Table.get?_mem hg)
    rw [hfile] at hcontent
    obtain rfl := Option.some.inj hcontent
    exact ⟨g, bytes, hg, hst, hcarries.round, hcarries.encoded, hhash⟩
  ofRound req k env m hm := by
    obtain ⟨⟨r, hr, hst⟩, bytes, hfile, hcarries⟩ := getRoundGlobalModel_ok hm
    obtain ⟨g, hg, hunstaged⟩ := (h.roundConsistent hr).completed.mp hst
    obtain ⟨hmem, rfl⟩ := mem_versionsOf.mp (hg ▸ List.mem_singleton_self g)
    obtain ⟨hpath, content, hcontent, hhash⟩ := h.file g hmem
    rw [hpath, hfile] at hcontent
    obtain rfl := Option.some.inj hcontent
    exact ⟨g, bytes, hg, hunstaged, hcarries.round, hcarries.encoded, hhash⟩
  activeAnswered _ _ _ hkey hauth hactive := h.active_answered hkey hauth hactive
  roundAnswered _ _ _ _ _ hkey hauth hfit hr hst := h.round_answered hkey hauth hfit hr hst

end Consistent

/-- The rounds, versions and files of a run: they agree in every state, what a version says about
its model never changes, and the endpoints serve what the versions say. -/
structure LifecycleConsistent (app : App) (es : List Event) : Prop where
  rounds : ∀ k r, (after app es).world.store.getRound k = some r →
    RoundConsistent app (after app es).world k r
  fixed : ∀ pre post g, es = pre ++ post → g ∈ (after app pre).world.store.globalModels.rows →
    (∃ g' ∈ (after app es).world.store.globalModels.rows, g'.versionId = g.versionId ∧
      g'.roundId = g.roundId ∧ g'.modelHash = g.modelHash ∧ g'.modelPath = g.modelPath) ∧
    (∃ r, (after app es).world.store.getRound g.roundId = some r ∧
      r.globalModelHash = some g.modelHash) ∧
    (after app es).world.files g.modelPath = (after app pre).world.files g.modelPath
  serves : ServesVersions app (after app es).world

lemma modelFile_run {s : Sys} {k : ℤ} (es : List Event) (h : RoundClosed s.world.store k) :
    (Lib.run (next app) s es).world.files (roundModelPath app.modelDir k) =
      s.world.files (roundModelPath app.modelDir k) :=
  (run_invariant_all (next app)
    (I := fun t => RoundClosed t.world.store k ∧
      t.world.files (roundModelPath app.modelDir k) =
        s.world.files (roundModelPath app.modelDir k))
    (fun t e ⟨hclosed, hfile⟩ =>
      ⟨roundClosed_run app [e] hclosed, (modelFile_kept app t e hclosed).trans hfile⟩)
    ⟨h, rfl⟩ es).2

/-- Over every run of requests, each round is running without a version, aggregated with a staged
one or completed with a promoted one, whose hash is that of the round and of the stored file for
ever after. -/
theorem lifecycle_consistent (app : App) (es : List Event) : LifecycleConsistent app es := by
  have hend := Consistent.run app es
  refine ⟨fun k r hr => hend.roundConsistent hr, ?_, hend.servesVersions⟩
  rintro pre post g rfl hg
  have hstart := Consistent.run app pre
  obtain ⟨hpath, -⟩ := hstart.file g hg
  obtain ⟨g', hg', hcore, -⟩ := version_run app post hg
  rw [← after_append] at hg'
  have hround : g'.roundId = g.roundId := (congrArg GlobalModelRow.roundId hcore :)
  have hhash : g'.modelHash = g.modelHash := (congrArg GlobalModelRow.modelHash hcore :)
  obtain ⟨r, hr, hrhash, -⟩ := hend.round g' hg'
  refine ⟨⟨g', hg', (congrArg GlobalModelRow.versionId hcore :), hround, hhash,
    (congrArg GlobalModelRow.modelPath hcore :)⟩, ⟨r, hround ▸ hr, hhash ▸ hrhash⟩, ?_⟩
  rw [hpath, after_append]
  exact modelFile_run post (hstart.closed hg)

end Consistency

end FlCoordinator
