import FlCoordinator.GlobalModels
import FlCoordinator.Scoring
import FlCoordinator.Versions

/-!
# The stored uploads

An accepted upload is stored under its round, its org and the first digits of its hash, and an
aggregation reads it back much later. Whatever requests come in between, nobody but the org itself
can change what is read.
-/

namespace FlCoordinator

open Lib

/-! ### The paths -/

section Paths

lemma append_mark_inj {α : Type} [DecidableEq α] {mark : α} {xs xs' ys ys' : List α}
    (hys : mark ∉ ys) (hys' : mark ∉ ys') (h : xs ++ mark :: ys = xs' ++ mark :: ys') :
    xs = xs' ∧ ys = ys' := by
  have hback : ∀ {xs ys : List α}, mark ∉ ys →
      ((xs ++ mark :: ys).reverse.takeWhile (fun a => decide (a ≠ mark))) = ys.reverse := by
    intro xs ys hys
    rw [List.reverse_append, List.reverse_cons, List.append_assoc,
      List.takeWhile_append_of_pos, List.singleton_append, List.takeWhile_cons_of_neg (by simp),
      List.append_nil]
    intro a ha
    have hne : a ≠ mark := by
      rintro rfl
      exact hys (List.mem_reverse.mp ha)
    exact decide_eq_true hne
  have hys : ys = ys' := by
    apply List.reverse_injective
    rw [← hback hys, ← hback hys', h]
  subst hys
  exact ⟨List.append_cancel_right h, rfl⟩

lemma hexDigit_ne_underscore {d : ℕ} (h : d < 16) : hexDigit d ≠ '_' := by
  revert d
  decide

lemma underscore_notMem_hashPrefix (host : Host) (b : Bytes) :
    '_' ∉ (hashPrefix (host.sha256hex b)).toList := by
  rw [hashPrefix, String.toList_ofList]
  intro h
  have hmem := List.mem_of_mem_take h
  rw [Host.sha256hex, toHex, String.toList_ofList, List.mem_flatMap] at hmem
  obtain ⟨x, -, hx⟩ := hmem
  have hlow : x.toNat % 16 < 16 := Nat.mod_lt _ (by norm_num)
  have hhigh : x.toNat / 16 < 16 := by
    have hx := x.toNat_lt
    omega
  rcases List.mem_pair.mp hx with hx | hx
  · exact hexDigit_ne_underscore hhigh hx.symm
  · exact hexDigit_ne_underscore hlow hx.symm

lemma contributionPath_inj {host : Host} {modelDir : String} {k j : ℤ} {x y : String} {a b : Bytes}
    (h : contributionPath modelDir k x (host.sha256hex a) =
      contributionPath modelDir j y (host.sha256hex b)) :
    k = j ∧ x = y ∧ hashPrefix (host.sha256hex a) = hashPrefix (host.sha256hex b) := by
  have hlist := congrArg String.toList h
  rw [contributionPath_toList, contributionPath_toList] at hlist
  have hrest := List.append_cancel_left (List.append_cancel_left hlist)
  obtain ⟨rfl, -⟩ := intText_append_inj (by decide) (by decide) hrest
  have hname := (List.cons.inj (List.append_cancel_left hrest)).2
  have hjoined : x.toList ++ '_' :: (hashPrefix (host.sha256hex a)).toList =
      y.toList ++ '_' :: (hashPrefix (host.sha256hex b)).toList := by
    have hdotted : (x.toList ++ '_' :: (hashPrefix (host.sha256hex a)).toList) ++ ".json".toList =
        (y.toList ++ '_' :: (hashPrefix (host.sha256hex b)).toList) ++ ".json".toList := by
      simpa [String.toList_append] using hname
    exact List.append_cancel_right hdotted
  obtain ⟨hx, hhash⟩ := append_mark_inj (underscore_notMem_hashPrefix host a)
    (underscore_notMem_hashPrefix host b) hjoined
  exact ⟨rfl, String.toList_inj.mp hx, String.toList_inj.mp hhash⟩

lemma contributionPath_ne_crlPath (app : App) (k : ℤ) (x sha : String) :
    contributionPath app.modelDir k x sha ≠ crlPath app := by
  intro h
  have hlast := congrArg (fun s => s.toList.reverse.head?) h
  simp [contributionPath_toList, crlPath] at hlast

end Paths

/-! ### What is in the files -/

section Files

variable {app : App} {es : List Event}

/-- The org has sent these bytes as its model for the round. -/
def Sent (app : App) (es : List Event) (x : String) (k : ℤ) (bytes : Bytes) : Prop :=
  ∃ pre request post, es = pre ++ .contribute request :: post ∧ request.roundId = k ∧
    request.upload = bytes ∧
    getAuthenticatedOrgId app request.req (after app pre).world request.authAt = .ok x

/-- The file at the path of an upload holds one that the org sent for the round, whose hash starts
with the same digits. -/
def Holds (app : App) (es : List Event) (x : String) (k : ℤ) (sha path : String) : Prop :=
  ∃ bytes, (after app es).world.files path = some bytes ∧ Sent app es x k bytes ∧
    hashPrefix (app.host.sha256hex bytes) = hashPrefix sha

lemma Sent.append {x : String} {k : ℤ} {bytes : Bytes} (h : Sent app es x k bytes)
    (fs : List Event) : Sent app (es ++ fs) x k bytes := by
  obtain ⟨pre, request, post, rfl, hrest⟩ := h
  exact ⟨pre, request, post ++ fs, by simp, hrest⟩

lemma sent_of_inFlight {p : Pending} (h : p ∈ (after app es).inFlight) :
    Sent app es p.orgId p.roundId p.upload := by
  obtain ⟨pre, request, post, hes, hscreen⟩ := received_of_inFlight h
  obtain ⟨hround, -, -, hupload⟩ := hscreen.request
  exact ⟨pre, request, post, hes, hround.symm, hupload.symm, hscreen.caller⟩

lemma holds_next {x : String} {k : ℤ} {bytes : Bytes} (e : Event)
    (h : Holds app es x k (app.host.sha256hex bytes)
      (contributionPath app.modelDir k x (app.host.sha256hex bytes))) :
    Holds app (es ++ [e]) x k (app.host.sha256hex bytes)
      (contributionPath app.modelDir k x (app.host.sha256hex bytes)) := by
  obtain ⟨held, hfile, hsent, hprefix⟩ := h
  have hkept : (next app e (after app es)).world.files
      (contributionPath app.modelDir k x (app.host.sha256hex bytes)) = some held →
      Holds app (es ++ [e]) x k (app.host.sha256hex bytes)
        (contributionPath app.modelDir k x (app.host.sha256hex bytes)) := by
    intro hnext
    exact ⟨held, by rw [after_concat]; exact hnext, hsent.append [e], hprefix⟩
  by_cases he : ∀ i env, e ≠ .resume i env
  · apply hkept
    cases next_storeMove app (after app es) he with
    | kept same => rw [same, hfile]
    | model user roundId env resp event done =>
      rw [done.files, Function.update_of_ne (roundModelPath_ne_contributionPath _ _ _ _ _).symm,
        done.scored.frame.2.1, hfile]
    | crl content new =>
      rw [new, Function.update_of_ne (contributionPath_ne_crlPath app k x _), hfile]
  · push Not at he
    obtain ⟨i, env, rfl⟩ := he
    rcases resume_files app (after app es) i env with hfiles | ⟨p, hp, hfiles⟩
    · apply hkept
      rw [hfiles, hfile]
    · by_cases hpath : contributionPath app.modelDir k x (app.host.sha256hex bytes) =
          contributionPath app.modelDir p.roundId p.orgId (app.host.sha256hex p.upload)
      · obtain ⟨rfl, rfl, hhash⟩ := contributionPath_inj hpath
        refine ⟨p.upload, ?_, (sent_of_inFlight (List.mem_of_getElem? hp)).append _, hhash.symm⟩
        rw [after_concat, hfiles, hpath, Function.update_self]
      · apply hkept
        rw [hfiles, Function.update_of_ne hpath, hfile]

lemma holds_run {x : String} {k : ℤ} {bytes : Bytes} (fs : List Event)
    (h : Holds app es x k (app.host.sha256hex bytes)
      (contributionPath app.modelDir k x (app.host.sha256hex bytes))) :
    Holds app (es ++ fs) x k (app.host.sha256hex bytes)
      (contributionPath app.modelDir k x (app.host.sha256hex bytes)) := by
  induction fs using List.reverseRecOn with
  | nil => rwa [List.append_nil]
  | append_singleton fs e ih =>
    rw [← List.append_assoc]
    exact holds_next e ih

/-- No two models that the org has sent for the round agree in the first digits of their hashes. -/
def ToldApart (app : App) (es : List Event) (x : String) (k : ℤ) : Prop :=
  ∀ a b, Sent app es x k a → Sent app es x k b →
    hashPrefix (app.host.sha256hex a) = hashPrefix (app.host.sha256hex b) → a = b

lemma accepted_holds {c : ContributionRow}
    (h : c ∈ (after app es).world.store.contributions.rows) (hacc : c.accepted = true) :
    ∃ upload, c.modelSha256 = app.host.sha256hex upload ∧
      c.modelPath = some (contributionPath app.modelDir c.roundId c.orgId c.modelSha256) ∧
      Sent app es c.orgId c.roundId upload ∧ Holds app es c.orgId c.roundId c.modelSha256
        (contributionPath app.modelDir c.roundId c.orgId c.modelSha256) := by
  obtain ⟨pre, e, post, p, env, chal, n, rfl, hp, rfl⟩ := accepted_origin h hacc
  have hsent : Sent app (pre ++ [e]) p.orgId p.roundId p.upload :=
    (sent_of_inFlight (mem_inFlight_of_accepts hp)).append [e]
  have hfile := hp.recorded.2
  rw [← after_concat] at hfile
  have hholds : Holds app (pre ++ [e]) p.orgId p.roundId (app.host.sha256hex p.upload)
      (contributionPath app.modelDir p.roundId p.orgId (app.host.sha256hex p.upload)) :=
    ⟨p.upload, hfile, hsent, rfl⟩
  have hrun := holds_run post hholds
  have hlater := hsent.append post
  rw [List.append_assoc, List.singleton_append] at hrun hlater
  exact ⟨p.upload, rfl, rfl, hlater, hrun⟩

/-- What an aggregation reads of an accepted contribution is what the org itself sent: the
contribution, unless the org has sent another model whose hash starts alike. -/
structure ReadBack (app : App) (es : List Event) (c : ContributionRow) (bytes : Bytes) : Prop where
  recorded : c ∈ (after app es).world.store.contributions.rows ∧ c.accepted = true
  sent : Sent app es c.orgId c.roundId bytes
  digits : hashPrefix (app.host.sha256hex bytes) = hashPrefix c.modelSha256
  same : ToldApart app es c.orgId c.roundId → app.host.sha256hex bytes = c.modelSha256

lemma ReadBack.append {c : ContributionRow} {bytes : Bytes} (h : ReadBack app es c bytes)
    (fs : List Event) : ReadBack app (es ++ fs) c bytes where
  recorded := by
    rw [after_append]
    exact ⟨contribution_run fs h.recorded.1, h.recorded.2⟩
  sent := h.sent.append fs
  digits := h.digits
  same := fun hapart => h.same fun a b ha hb => hapart a b (ha.append fs) (hb.append fs)

lemma readBack_of_accepted {k : ℤ} {c : Store.AcceptedModel} {bytes : Bytes}
    (hc : c ∈ (after app es).world.store.getAcceptedModels k)
    (hfile : (after app es).world.files c.modelPath = some bytes) :
    ∃ row, row.roundId = k ∧ ReadBack app es row bytes := by
  obtain ⟨row, hrow, rfl⟩ := List.mem_map.mp hc
  obtain ⟨hmem, hfound⟩ := List.mem_filter.mp ((List.mem_insertionSort _).mp hrow)
  obtain ⟨rfl, hacc, -⟩ := of_decide_eq_true hfound
  obtain ⟨upload, hsha, hpath, hupload, held, hheld, hsent, hprefix⟩ := accepted_holds hmem hacc
  dsimp only at hfile
  rw [hpath, Option.getD_some, hheld] at hfile
  obtain rfl := Option.some.inj hfile
  refine ⟨row, rfl, ⟨hmem, hacc⟩, hsent, hprefix, ?_⟩
  intro hapart
  rw [hsha] at hprefix ⊢
  rw [hapart held upload hsent hupload hprefix]

end Files

/-! ### What the models are made of -/

section Models

variable {app : App} {es : List Event}

lemma version_merged {g : GlobalModelRow}
    (h : g ∈ (after app es).world.store.globalModels.rows) :
    ∃ pre user env resp post, es = pre ++ .aggregate user g.roundId env :: post ∧
      ∃ done : Aggregated app user g.roundId env (after app pre).world resp
          (next app (.aggregate user g.roundId env) (after app pre)).world,
        g.modelHash = app.host.sha256hex done.bytes ∧
        (after app es).world.files g.modelPath = some done.bytes := by
  obtain ⟨pre, e, post, rfl, user, env, resp, rfl, g', hg', hcore, done, hrow⟩ :=
    run_origin (next app) (s := init app)
      (F := fun s => ∃ g' ∈ s.world.store.globalModels.rows, g'.core = g.core)
      (G := fun s e => ∃ user env resp, e = .aggregate user g.roundId env ∧
        ∃ g' ∈ (next app e s).world.store.globalModels.rows, g'.core = g.core ∧
        ∃ done : Aggregated app user g.roundId env s.world resp (next app e s).world,
          g' = stagedVersion app done.row g.roundId done.gate done.bytes done.info env g'.versionId)
      (by simp [init, Store.empty])
      (by
        rintro s e ⟨g', hg', hcore⟩
        have hround : g'.roundId = g.roundId := (congrArg GlobalModelRow.roundId hcore :)
        cases (next_effect app s e).versionMove hg' with
        | kept old => exact Or.inl ⟨g', old, hcore⟩
        | staged user env resp event done fresh row =>
          right
          rw [hround] at event
          refine ⟨user, env, resp, event, g', hg', hcore, ?_⟩
          rw [← hround]
          exact ⟨done, row⟩
        | promoted q username now old event row =>
          rw [row] at hcore
          exact Or.inl ⟨q, old, hcore⟩
        | archived q old active row =>
          rw [row] at hcore
          exact Or.inl ⟨q, old, hcore⟩) es ⟨g, h, rfl⟩
  have hround : g'.roundId = g.roundId := (congrArg GlobalModelRow.roundId hcore :)
  have hhash : g'.modelHash = g.modelHash := (congrArg GlobalModelRow.modelHash hcore :)
  have hpath : g'.modelPath = g.modelPath := (congrArg GlobalModelRow.modelPath hcore :)
  rw [hrow] at hhash hpath
  refine ⟨pre, user, env, resp, post, rfl, done, hhash.symm, ?_⟩
  have hstate : after app (pre ++ [.aggregate user g.roundId env]) =
      next app (.aggregate user g.roundId env) (Lib.run (next app) (init app) pre) :=
    after_concat app pre _
  rw [← hstate] at hg'
  have hclosed : RoundClosed (after app (pre ++ [.aggregate user g.roundId env])).world.store
      g.roundId := by
    have hclosed := (Consistent.run app (pre ++ [.aggregate user g.roundId env])).closed hg'
    rwa [hround] at hclosed
  have hkept := @modelFile_run app _ _ post hclosed
  rw [← after_append, List.append_assoc, List.singleton_append, hstate, done.files,
    Function.update_self] at hkept
  rw [← hpath]
  exact hkept

/-- Each tree of the model in these bytes is, but for its id, one of a model that an org has sent
for the round `k`, and that was read back for an accepted contribution of the org. -/
def TreesSent (app : App) (es : List Event) (k : ℤ) (bytes : Bytes) : Prop :=
  ∃ merged trees, Json.loads bytes = .ok merged ∧ getTrees merged = .ok (.arr trees) ∧
    ∀ tree ∈ trees, ∃ c upload tree', c.roundId = k ∧ ReadBack app es c upload ∧
      HasTree app.python upload tree' ∧ SameUpToId tree tree'

/-- In every run the file of every version holds the bytes that the aggregation that staged it
merged, and the trees in them are from models that orgs have sent. -/
theorem model_trees_sent {g : GlobalModelRow}
    (h : g ∈ (after app es).world.store.globalModels.rows) :
    ∃ pre user env resp post, es = pre ++ .aggregate user g.roundId env :: post ∧
      ∃ done : Aggregated app user g.roundId env (after app pre).world resp
          (next app (.aggregate user g.roundId env) (after app pre)).world,
        (after app es).world.files g.modelPath = some done.bytes ∧
        app.host.sha256hex done.bytes = g.modelHash ∧
        TreesSent app es g.roundId done.bytes := by
  obtain ⟨pre, user, env, resp, post, rfl, done, hhash, hfile⟩ := version_merged h
  obtain ⟨merged, trees, hload, htrees, hall⟩ := mergeXgboostModels_trees done.merged
  refine ⟨pre, user, env, resp, post, rfl, done, hfile, hhash.symm, merged, trees, hload, htrees,
    ?_⟩
  intro tree htree
  obtain ⟨-, -, hweighted, -⟩ := schemaGate_spec done.gated
  obtain ⟨p, hp, tree', hhas, hsame⟩ := hall tree htree
  obtain ⟨v, hv, rfl, -⟩ := hweighted p hp
  obtain ⟨c, mb, ev, htrusted, rfl⟩ := done.scored.mem_survivors.mp hv
  obtain ⟨hc, hmb, -⟩ := htrusted.mem
  obtain ⟨row, hround, hread⟩ := readBack_of_accepted hc hmb
  exact ⟨row, mb, tree', hround, hread.append _, hhas, hsame⟩

theorem model_trees_sent_publishedUpload :
    ∃ g ∈ (after Sample.app publishedUpload).world.store.globalModels.rows, ∃ bytes,
      (after Sample.app publishedUpload).world.files g.modelPath = some bytes ∧
      Sample.app.host.sha256hex bytes = g.modelHash ∧
      TreesSent Sample.app publishedUpload g.roundId bytes := by
  have hone : (after Sample.app publishedUpload).world.store.globalModels.rows.length = 1 := by
    decide +kernel
  obtain ⟨g, hg⟩ := List.length_eq_one_iff.mp hone
  have hmem : g ∈ (after Sample.app publishedUpload).world.store.globalModels.rows := by
    rw [hg]
    exact List.mem_singleton_self g
  obtain ⟨pre, user, env, resp, post, hes, done, hfile, hhash, hsent⟩ := model_trees_sent hmem
  exact ⟨g, hmem, done.bytes, hfile, hhash, hsent⟩

end Models

end FlCoordinator
