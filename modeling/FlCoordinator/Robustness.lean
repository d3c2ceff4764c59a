import FlCoordinator.Bagging
import FlCoordinator.Tolerance

/-!
# Entries that cannot be merged

When `merge_xgboost_models` raises something else than a `ValueError`, and when an entry without
trees makes a difference.
-/

namespace FlCoordinator

open Lib

/-! ### Schemas as keys -/

section Schemas

variable {ps : List Parsed} {ss : List Schema}

/-- What a schema compares as, when it can be hashed. -/
def Schema.key : Schema → List (Option Json.Atom) ⊕ ℤ
  | .names ns => .inl (ns.map Json.atom?)
  | .dim n => .inr n

lemma sameList_iff_atoms {xs ys : List Json} (h : xs.all Json.hashable = true) :
    Json.sameList xs ys = true ↔ xs.map Json.atom? = ys.map Json.atom? := by
  induction xs generalizing ys with
  | nil => cases ys <;> simp [Json.sameList]
  | cons x xs ih =>
    cases ys with
    | nil => simp [Json.sameList]
    | cons y ys =>
      simp only [List.all_cons, Bool.and_eq_true] at h
      obtain ⟨a, ha⟩ := Json.atom?_of_hashable h.1
      rw [Json.sameList, Bool.and_eq_true, Json.same_iff_atom (Or.inl ha), ih h.2, List.map_cons,
        List.map_cons, List.cons.injEq]

lemma Schema.same_iff_key {s t : Schema} (h : s.hashable = true) :
    s.same t = true ↔ s.key = t.key := by
  cases s with
  | names ns =>
    cases t with
    | names ms => exact (sameList_iff_atoms h).trans Sum.inl_injective.eq_iff.symm
    | dim m => simp [Schema.same, Schema.key]
  | dim n =>
    cases t with
    | names ms => simp [Schema.same, Schema.key]
    | dim m => simp [Schema.same, Schema.key]

lemma atom?_eq_str {v : Json} {s : String} : v.atom? = some (.str s) ↔ v = .str s := by
  rcases v with _ | b | n | (d | _ | neg) | t | xs | fs <;> simp [Json.atom?, Json.num?]

lemma Schema.describable_of_key {s t : Schema} (h : s.key = t.key) (hs : s.Describable) :
    t.Describable := by
  cases t with
  | dim m => trivial
  | names ms =>
    cases s with
    | dim n => cases h
    | names ns =>
      have hatoms : (ns.take 6).map Json.atom? = (ms.take 6).map Json.atom? := by
        rw [List.map_take, List.map_take, Sum.inl.inj h]
      intro m hm
      have hmem : m.atom? ∈ (ns.take 6).map Json.atom? := by
        rw [hatoms]
        exact List.mem_map_of_mem hm
      obtain ⟨n, hn, heq⟩ := List.mem_map.mp hmem
      obtain ⟨text, rfl⟩ := hs n hn
      exact ⟨text, atom?_eq_str.mp heq.symm⟩

lemma distinctSchemas_keys (h : distinctSchemas ps = .ok ss) :
    (ss.map Schema.key).Nodup ∧ (∀ s ∈ ss, ∃ p ∈ ps, schemaOf p.model = .ok s) ∧
      ∀ p ∈ ps, ∀ s, schemaOf p.model = .ok s → s.key ∈ ss.map Schema.key := by
  induction ps generalizing ss with
  | nil =>
    obtain rfl := Except.ok.inj h
    simp
  | cons p ps ih =>
    obtain ⟨s, hs, h⟩ := bind_eq_ok.mp h
    split_ifs at h with hhash
    obtain ⟨tail, htail, h⟩ := bind_eq_ok.mp h
    obtain rfl := Except.ok.inj h
    obtain ⟨hnodup, hfrom, hkeys⟩ := ih htail
    have hkeep : ∀ t ∈ tail, t ∈ tail.filter (fun t => !s.same t) ↔ s.key ≠ t.key := by
      intro t ht
      rw [List.mem_filter, and_iff_right ht, Bool.not_eq_true', ← Bool.not_eq_true,
        Schema.same_iff_key (Bool.not_eq_false _ ▸ hhash)]
    refine ⟨?_, ?_, ?_⟩
    · rw [List.map_cons, List.nodup_cons]
      refine ⟨fun hmem => ?_, hnodup.sublist (List.filter_sublist.map _)⟩
      obtain ⟨t, ht, heq⟩ := List.mem_map.mp hmem
      exact (hkeep t (List.mem_of_mem_filter ht)).mp ht heq.symm
    · intro t ht
      rcases List.mem_cons.mp ht with rfl | ht
      · exact ⟨p, List.mem_cons_self, hs⟩
      · obtain ⟨q, hq, hschema⟩ := hfrom t (List.mem_of_mem_filter ht)
        exact ⟨q, List.mem_cons_of_mem _ hq, hschema⟩
    · intro q hq t ht
      rw [List.map_cons, List.mem_cons]
      rcases List.mem_cons.mp hq with rfl | hq
      · rw [hs] at ht
        exact Or.inl (congrArg Schema.key (Except.ok.inj ht).symm)
      · obtain ⟨u, hu, heq⟩ := List.mem_map.mp (hkeys q hq t ht)
        by_cases hkey : s.key = t.key
        · exact Or.inl hkey.symm
        · right
          rw [← heq] at hkey ⊢
          exact List.mem_map_of_mem ((hkeep u hu).mpr hkey)

/-- All models have one schema. -/
def Uniform (ps : List Parsed) : Prop :=
  ∀ p ∈ ps, ∀ q ∈ ps, ∀ s t, schemaOf p.model = .ok s → schemaOf q.model = .ok t →
    s.same t = true

/-- All schemas can be shown. -/
def Shown (ps : List Parsed) : Prop := ∀ p ∈ ps, ∀ s, schemaOf p.model = .ok s → s.Describable

lemma hashable_of_hashed {p : Parsed} {s : Schema} (h : Hashed p)
    (hs : schemaOf p.model = .ok s) : s.hashable = true := by
  obtain ⟨t, ht, hhash⟩ := h
  rw [hs] at ht
  rwa [Except.ok.inj ht]

lemma distinctSchemas_uniform (hhash : ∀ p ∈ ps, Hashed p) (h : distinctSchemas ps = .ok ss) :
    1 < ss.length ↔ ¬Uniform ps := by
  obtain ⟨hnodup, hfrom, hkeys⟩ := distinctSchemas_keys h
  constructor
  · intro hlen huniform
    match ss, hlen with
    | s :: t :: rest, _ =>
      obtain ⟨p, hp, hs⟩ := hfrom s List.mem_cons_self
      obtain ⟨q, hq, ht⟩ := hfrom t (List.mem_cons_of_mem _ List.mem_cons_self)
      have hsame := huniform p hp q hq s t hs ht
      rw [Schema.same_iff_key (hashable_of_hashed (hhash p hp) hs)] at hsame
      rw [List.map_cons, List.map_cons, List.nodup_cons, hsame] at hnodup
      exact hnodup.1 List.mem_cons_self
  · intro hmixed
    by_contra hlen
    apply hmixed
    intro p hp q hq s t hs ht
    rw [Schema.same_iff_key (hashable_of_hashed (hhash p hp) hs)]
    have hskey := hkeys p hp s hs
    have htkey := hkeys q hq t ht
    match ss, hlen with
    | [], _ => cases hskey
    | [u], _ =>
      rw [List.map_singleton, List.mem_singleton] at hskey htkey
      rw [hskey, htkey]
    | _ :: _ :: _, hlen => exact absurd (by simp) hlen

lemma distinctSchemas_shown (h : distinctSchemas ps = .ok ss) :
    (∀ s ∈ ss, s.Describable) ↔ Shown ps := by
  obtain ⟨-, hfrom, hkeys⟩ := distinctSchemas_keys h
  constructor
  · intro hall p hp s hs
    obtain ⟨t, ht, heq⟩ := List.mem_map.mp (hkeys p hp s hs)
    exact Schema.describable_of_key heq (hall t ht)
  · intro hall s hs
    obtain ⟨p, hp, hschema⟩ := hfrom s hs
    exact hall p hp s hschema

end Schemas

/-! ### Exceptions of the parts -/

section Errors

/-- `ValueError` and its subclasses. -/
def IsValueError : PyErr → Prop
  | .valueError _ => True
  | .jsonDecodeError _ => True
  | .unicodeDecodeError => True
  | .unicodeEncodeError => True
  | _ => False

/-- Other exceptions than `ValueError`, if any. -/
def NoValueError {α : Type} (r : Except PyErr α) : Prop := ∀ e, r = .error e → ¬IsValueError e

variable {α β : Type} {r : Except PyErr α} {f : α → Except PyErr β}

lemma noValueError_ok (a : α) : NoValueError (.ok a : Except PyErr α) := nofun

lemma NoValueError.bind (hr : NoValueError r) (hf : ∀ a, r = .ok a → NoValueError (f a)) :
    NoValueError (r >>= f) := by
  cases hcase : r with
  | error e =>
    intro e' he
    obtain rfl := Except.error.inj he
    exact hr e hcase
  | ok a => exact hf a hcase

lemma NoValueError.mapM {xs : List α} (h : ∀ x ∈ xs, NoValueError (f x)) :
    NoValueError (xs.mapM f) := by
  induction xs with
  | nil => exact noValueError_ok []
  | cons x xs ih =>
    obtain ⟨hx, hxs⟩ := List.forall_mem_cons.mp h
    rw [List.mapM_cons]
    exact hx.bind fun y _ => (ih hxs).bind fun ys _ => noValueError_ok _

lemma noValueError_get (v d : Json) (k : String) : NoValueError (v.get k d) := by
  intro e he
  cases v with
  | obj fs => cases he
  | _ =>
    obtain rfl := Except.error.inj he
    exact id

lemma noValueError_items (v : Json) : NoValueError v.items := by
  intro e he
  cases v with
  | arr xs => cases he
  | str s => cases he
  | obj fs => cases he
  | _ =>
    obtain rfl := Except.error.inj he
    exact id

lemma noValueError_getTrees (m : Json) : NoValueError (getTrees m) :=
  (noValueError_get _ _ _).bind fun _ _ => (noValueError_get _ _ _).bind fun _ _ =>
    (noValueError_get _ _ _).bind fun _ _ => noValueError_get _ _ _

lemma toInt_error {v : Json} {e : PyErr} (h : v.toInt = .error e) :
    (∃ msg, e = .valueError msg) ∨ e = .typeError ∨ e = .overflowError := by
  rcases v with _ | b | n | (x | _ | neg) | t | xs | fs
  case null => exact Or.inr (Or.inl (Except.error.inj h).symm)
  case bool => cases h
  case int => cases h
  case float.fin => cases h
  case float.nan => exact Or.inl ⟨_, (Except.error.inj h).symm⟩
  case float.inf => exact Or.inr (Or.inr (Except.error.inj h).symm)
  case str =>
    unfold Json.toInt Json.intOfStr at h
    dsimp only at h
    split_ifs at h <;> exact Or.inl ⟨_, (Except.error.inj h).symm⟩
  case arr => exact Or.inr (Or.inl (Except.error.inj h).symm)
  case obj => exact Or.inr (Or.inl (Except.error.inj h).symm)

/-- Of what `int` raises, only an `OverflowError` is not caught. -/
lemma noValueError_numFeature (learner : Json) : NoValueError (numFeature learner) := by
  refine (noValueError_get _ _ _).bind fun param _ => (noValueError_get _ _ _).bind fun v _ => ?_
  intro e he
  cases hv : v.toInt with
  | ok n =>
    rw [hv] at he
    cases he
  | error d =>
    rw [hv] at he
    rcases toInt_error hv with ⟨msg, rfl⟩ | rfl | rfl
    · cases he
    · cases he
    · obtain rfl := Except.error.inj he
      exact id

lemma noValueError_schemaOf (m : Json) : NoValueError (schemaOf m) := by
  refine (noValueError_get _ _ _).bind fun learner _ => (noValueError_get _ _ _).bind fun names _ => ?_
  split
  · exact (noValueError_items _).bind fun ns _ => noValueError_ok _
  · exact (noValueError_numFeature _).bind fun n _ => noValueError_ok _

lemma noValueError_distinctSchemas (ps : List Parsed) : NoValueError (distinctSchemas ps) := by
  induction ps with
  | nil => exact noValueError_ok []
  | cons p ps ih =>
    refine (noValueError_schemaOf _).bind fun s _ => ?_
    split
    · intro e he
      obtain rfl := Except.error.inj he
      exact id
    · exact ih.bind fun tail _ => noValueError_ok _

lemma noValueError_describeSchema (s : Schema) : NoValueError (describeSchema s) := by
  cases s with
  | dim n => exact noValueError_ok _
  | names ns =>
    refine NoValueError.bind ?_ fun shown _ => noValueError_ok _
    intro e he
    unfold joinNames at he
    split at he
    · cases he
    · obtain rfl := Except.error.inj he
      exact id

/-- The first entry that the filter loop does not pass is one on which `json.loads` raises a plain
`ValueError`, as it does for an integer of too many digits. -/
def StopsAtNumber (py : Python) (ws : List (Bytes × ℚ)) : Prop :=
  ∃ pre u post e, ws = pre ++ u :: post ∧ (∀ v ∈ pre, TreesReadable py v) ∧
    py.loads u.1 = .error e ∧ e.isDecodeError = false ∧ IsValueError e

lemma StopsAtNumber.cons {py : Python} {ws : List (Bytes × ℚ)} (h : StopsAtNumber py ws)
    {u : Bytes × ℚ} (hu : TreesReadable py u) : StopsAtNumber py (u :: ws) := by
  obtain ⟨pre, v, post, e, rfl, hpre, hrest⟩ := h
  exact ⟨u :: pre, v, post, e, rfl, List.forall_mem_cons.mpr ⟨hu, hpre⟩, hrest⟩

lemma parseModels_cons_error {py : Python} {ws : List (Bytes × ℚ)} {u : Bytes × ℚ} {e : PyErr}
    (hu : TreesReadable py u) (h : parseModels py ws = .error e) :
    parseModels py (u :: ws) = .error e := by
  obtain ⟨raw, weight⟩ := u
  rw [parseModels]
  cases hload : py.loads raw with
  | error d =>
    simp only [hu.decoded d hload, if_true]
    exact h
  | ok model =>
    dsimp only
    split
    · rename_i hpos
      obtain ⟨trees, htrees⟩ := hu.walked model hload hpos
      rw [htrees, h]
      rfl
    · exact h

/-- The filter loop raises a `ValueError` only where `json.loads` does. -/
lemma parseModels_valueError {py : Python} {ws : List (Bytes × ℚ)} :
    (∃ e, parseModels py ws = .error e ∧ IsValueError e) ↔ StopsAtNumber py ws := by
  constructor
  · intro h
    induction ws with
    | nil =>
      obtain ⟨e, he, -⟩ := h
      cases he
    | cons u ws ih =>
      obtain ⟨raw, weight⟩ := u
      obtain ⟨e, he, hvalue⟩ := h
      rw [parseModels] at he
      cases hload : py.loads raw with
      | error d =>
        rw [hload] at he
        dsimp only at he
        split at he
        · rename_i hd
          refine (ih ⟨e, he, hvalue⟩).cons ⟨fun d' hd' => ?_, fun model hmodel => ?_⟩
          · rw [hload] at hd'
            exact Except.error.inj hd' ▸ hd
          · rw [hload] at hmodel
            cases hmodel
        · rename_i hd
          obtain rfl := Except.error.inj he
          exact ⟨[], _, ws, d, rfl, by simp, hload, by simpa using hd, hvalue⟩
      | ok model =>
        rw [hload] at he
        dsimp only at he
        split at he
        · cases htrees : getTrees model with
          | error d =>
            rw [htrees] at he
            obtain rfl := Except.error.inj he
            exact absurd hvalue (noValueError_getTrees model d htrees)
          | ok trees =>
            rw [htrees] at he
            cases htail : parseModels py ws with
            | ok tail =>
              rw [htail] at he
              cases he
            | error d =>
              rw [htail] at he
              obtain rfl := Except.error.inj he
              refine (ih ⟨d, htail, hvalue⟩).cons ⟨fun d' hd' => ?_, fun model' hmodel _ => ?_⟩
              · rw [hload] at hd'
                cases hd'
              · rw [hload] at hmodel
                exact Except.ok.inj hmodel ▸ ⟨trees, htrees⟩
        · rename_i hpos
          refine (ih ⟨e, he, hvalue⟩).cons ⟨fun d' hd' => ?_, fun _ _ h => absurd h hpos⟩
          rw [hload] at hd'
          cases hd'
  · rintro ⟨pre, u, post, e, rfl, hpre, hload, hdecode, hvalue⟩
    refine ⟨e, ?_, hvalue⟩
    induction pre with
    | nil =>
      obtain ⟨raw, weight⟩ := u
      rw [List.nil_append, parseModels, hload]
      exact if_neg (by simp [hdecode])
    | cons v pre ih =>
      obtain ⟨hv, hpre⟩ := List.forall_mem_cons.mp hpre
      exact parseModels_cons_error hv (ih hpre)

lemma noValueError_shareOf (py : Python) (total : ℚ) (p : Parsed) :
    NoValueError (shareOf py total p) := by
  refine (noValueError_getTrees _).bind fun trees _ => ?_
  cases trees with
  | arr xs => exact noValueError_ok _
  | str s => exact noValueError_ok _
  | obj fs =>
    refine (noValueError_ok _).bind fun n _ => ?_
    intro e he
    obtain rfl := Except.error.inj he
    exact id
  | _ =>
    intro e he
    obtain rfl := Except.error.inj he
    exact id

lemma noValueError_bagTrees (py : Python) (base : Parsed) (rest : List Parsed) (total : ℚ) :
    NoValueError (bagTrees py base rest total) :=
  (noValueError_getTrees _).bind fun _ _ => (noValueError_items _).bind fun _ _ =>
    (NoValueError.mapM fun p _ => noValueError_shareOf py total p).bind fun _ _ => noValueError_ok _

end Errors

/-! ### Outcomes of the merge -/

section Outcomes

variable {py : Python} {ps : List Parsed} {ws : List (Bytes × ℚ)}

/-- The trees can be bagged: those of the heaviest model can be copied, those of the others
sliced. -/
def Bagged (ps : List Parsed) : Prop :=
  ∃ base rest, byWeight ps = base :: rest ∧
    (∃ trees, getTrees base.model = .ok trees ∧ Iterable trees) ∧
    ∀ p ∈ rest, ∃ trees, getTrees p.model = .ok trees ∧ Sliceable trees

/-- The models have trees. -/
def HaveTrees (ps : List Parsed) : Prop :=
  ∀ p ∈ ps, ∃ trees, getTrees p.model = .ok trees ∧ trees.truthy = true

lemma haveTrees_usable : HaveTrees (ws.filterMap (usable? py)) := by
  intro p hp
  obtain ⟨e, -, hused⟩ := List.mem_filterMap.mp hp
  exact (usable?_eq_some.mp hused).2.2.2

/-- `merge_xgboost_models` after its schema check. -/
def mergeBags (py : Python) (ps : List Parsed) : Except PyErr (Bytes × MergeInfo) :=
  match byWeight ps with
  | [] => .error (.valueError "No usable models to aggregate")
  | base :: rest => do
    let bagged ← bagTrees py base rest (totalWeight py ps)
    let merged ← setTrees base.model (bagged.take maxGlobalTrees)
    .ok (Json.dumpsBytes merged,
      { numModels := ps.length
        totalTrees := (bagged.take maxGlobalTrees).length
        capped := decide (maxGlobalTrees < bagged.length) })

lemma mergeBags_isOk (htrees : HaveTrees ps) : (∃ out, mergeBags py ps = .ok out) ↔ Bagged ps := by
  unfold mergeBags
  constructor
  · rintro ⟨out, h⟩
    cases hsort : byWeight ps with
    | nil =>
      rw [hsort] at h
      cases h
    | cons base rest =>
      rw [hsort] at h
      obtain ⟨bagged, hbag, -⟩ := bind_eq_ok.mp h
      exact ⟨base, rest, hsort, bagTrees_isOk.mp ⟨bagged, hbag⟩⟩
  · rintro ⟨base, rest, hsort, hbags⟩
    obtain ⟨bagged, hbag⟩ := (@bagTrees_isOk py base rest (totalWeight py ps)).mpr hbags
    obtain ⟨trees, hget, htruthy⟩ := htrees base (mem_of_byWeight hsort List.mem_cons_self)
    obtain ⟨merged, hmerged⟩ := @setTrees_isOk _ _ (bagged.take maxGlobalTrees) hget htruthy
    rw [hsort]
    exact ⟨_, bind_eq_ok.mpr ⟨bagged, hbag, bind_eq_ok.mpr ⟨merged, hmerged, rfl⟩⟩⟩

lemma byWeight_ne_nil (hne : ps ≠ []) : byWeight ps ≠ [] := by
  intro h
  have hperm := byWeight_perm ps
  rw [h] at hperm
  exact hne hperm.nil_eq.symm

lemma noValueError_mergeBags (hne : ps ≠ []) (htrees : HaveTrees ps) :
    NoValueError (mergeBags py ps) := by
  unfold mergeBags
  cases hsort : byWeight ps with
  | nil => exact absurd hsort (byWeight_ne_nil hne)
  | cons base rest =>
    refine (noValueError_bagTrees _ _ _ _).bind fun bagged _ => ?_
    obtain ⟨trees, hget, htruthy⟩ := htrees base (mem_of_byWeight hsort List.mem_cons_self)
    obtain ⟨merged, hmerged⟩ := @setTrees_isOk _ _ (bagged.take maxGlobalTrees) hget htruthy
    rw [hmerged]
    exact noValueError_ok _

/-- Of some models, the set of schemas decides what is raised. -/
lemma mergeParsed_schemas (hne : ps ≠ []) : mergeParsed py ps =
    distinctSchemas ps >>= fun ss =>
      if 1 < ss.length then
        ss.mapM describeSchema >>= fun texts => .error (.valueError
          ("feature-schema mismatch across contributions: " ++
            " vs ".intercalate (texts.insertionSort (· ≤ ·))))
      else mergeBags py ps := by
  have hempty : ps.isEmpty = false := by simpa using hne
  unfold mergeParsed mergeBags
  exact if_neg (by rw [hempty]; decide)

lemma mergeParsed_eq (hne : ps ≠ []) {ss : List Schema} (h : distinctSchemas ps = .ok ss) :
    mergeParsed py ps = if 1 < ss.length then
      ss.mapM describeSchema >>= fun texts => .error (.valueError
        ("feature-schema mismatch across contributions: " ++
          " vs ".intercalate (texts.insertionSort (· ≤ ·))))
    else mergeBags py ps := by
  rw [mergeParsed_schemas hne, h]
  rfl

lemma mergeParsed_isOk (htrees : HaveTrees ps) :
    (∃ out, mergeParsed py ps = .ok out) ↔ (∀ p ∈ ps, Hashed p) ∧ Uniform ps ∧ Bagged ps := by
  constructor
  · rintro ⟨out, hok⟩
    have hne : ps ≠ [] := by
      rintro rfl
      cases hok
    obtain ⟨ss, hss, -⟩ := bind_eq_ok.mp ((mergeParsed_schemas hne).symm.trans hok)
    have hhash := distinctSchemas_isOk.mp ⟨ss, hss⟩
    rw [mergeParsed_eq hne hss] at hok
    split_ifs at hok with hlen
    · obtain ⟨texts, -, herr⟩ := bind_eq_ok.mp hok
      cases herr
    · rw [distinctSchemas_uniform hhash hss, not_not] at hlen
      exact ⟨hhash, hlen, (mergeBags_isOk htrees).mp ⟨out, hok⟩⟩
  · rintro ⟨hhash, huniform, hbagged⟩
    have hne : ps ≠ [] := by
      rintro rfl
      obtain ⟨base, rest, hsort, -⟩ := hbagged
      cases hsort
    obtain ⟨ss, hss⟩ := distinctSchemas_isOk.mpr hhash
    have hlen : ¬1 < ss.length := by
      rw [distinctSchemas_uniform hhash hss]
      exact not_not.mpr huniform
    rw [mergeParsed_eq hne hss, if_neg hlen]
    exact (mergeBags_isOk htrees).mpr hbagged

/-- They merge, or raise a `ValueError`, unless a schema or a tree list is not what it should be. -/
lemma mergeParsed_onlyValueErrors (htrees : HaveTrees ps) :
    (∀ e, mergeParsed py ps = .error e → IsValueError e) ↔ ps = [] ∨
      (∀ p ∈ ps, Hashed p) ∧ (Uniform ps ∧ Bagged ps ∨ ¬Uniform ps ∧ Shown ps) := by
  by_cases hne : ps = []
  · subst hne
    refine ⟨fun _ => Or.inl rfl, fun _ e he => ?_⟩
    obtain rfl := Except.error.inj he
    trivial
  rw [or_iff_right hne]
  cases hss : distinctSchemas ps with
  | error d =>
    have hraise : mergeParsed py ps = .error d := by
      rw [mergeParsed_schemas hne, hss]
      rfl
    constructor
    · intro h
      exact absurd (h d hraise) (noValueError_distinctSchemas ps d hss)
    · rintro ⟨hhash, -⟩
      obtain ⟨ss, hok⟩ := distinctSchemas_isOk.mpr hhash
      rw [hss] at hok
      cases hok
  | ok ss =>
    have hhash := distinctSchemas_isOk.mp ⟨ss, hss⟩
    rw [and_iff_right hhash, mergeParsed_eq hne hss]
    by_cases huniform : Uniform ps
    · have hlen : ¬1 < ss.length := by
        rw [distinctSchemas_uniform hhash hss]
        exact not_not.mpr huniform
      rw [if_neg hlen, ← mergeBags_isOk htrees]
      constructor
      · intro h
        refine Or.inl ⟨huniform, ?_⟩
        cases hmerge : mergeBags py ps with
        | error d => exact absurd (h d hmerge) (noValueError_mergeBags hne htrees d hmerge)
        | ok out => exact ⟨out, rfl⟩
      · rintro (⟨-, out, hok⟩ | ⟨hmixed, -⟩) e he
        · rw [hok] at he
          cases he
        · exact absurd huniform hmixed
    · rw [if_pos ((distinctSchemas_uniform hhash hss).mpr huniform), ← distinctSchemas_shown hss]
      have hall : (∃ texts, ss.mapM describeSchema = .ok texts) ↔ ∀ s ∈ ss, s.Describable := by
        rw [mapM_isOk]
        exact forall₂_congr fun s _ => describeSchema_isOk
      rw [← hall]
      constructor
      · intro h
        refine Or.inr ⟨huniform, ?_⟩
        cases htexts : ss.mapM describeSchema with
        | error d =>
          have hno := NoValueError.mapM (fun s (_ : s ∈ ss) => noValueError_describeSchema s) d htexts
          rw [htexts] at h
          exact absurd (h d rfl) hno
        | ok texts => exact ⟨texts, rfl⟩
      · rintro (⟨hone, -⟩ | ⟨-, texts, htexts⟩) e he
        · exact absurd hone huniform
        · rw [htexts] at he
          obtain rfl := Except.error.inj he
          trivial

/-- The entries merge: their trees can be reached, and the usable ones have schemas that can be put
in a set and are the same, and trees that can be bagged. -/
structure Merges (py : Python) (ws : List (Bytes × ℚ)) : Prop where
  readable : ∀ e ∈ ws, TreesReadable py e
  hashed : ∀ p ∈ ws.filterMap (usable? py), Hashed p
  uniform : Uniform (ws.filterMap (usable? py))
  bagged : Bagged (ws.filterMap (usable? py))

lemma merge_eq_ok {out : Bytes × MergeInfo} : mergeXgboostModels py ws = .ok out ↔
    (∀ e ∈ ws, TreesReadable py e) ∧ mergeParsed py (ws.filterMap (usable? py)) = .ok out := by
  rw [mergeXgboostModels_parts, bind_eq_ok]
  constructor
  · rintro ⟨parsed, hparsed, h⟩
    obtain ⟨hread, rfl⟩ := parseModels_eq_ok.mp hparsed
    exact ⟨hread, h⟩
  · rintro ⟨hread, h⟩
    exact ⟨_, parseModels_eq_ok.mpr ⟨hread, rfl⟩, h⟩

lemma merge_isOk_iff : (∃ out, mergeXgboostModels py ws = .ok out) ↔ Merges py ws := by
  constructor
  · rintro ⟨out, h⟩
    obtain ⟨hread, hparsed⟩ := merge_eq_ok.mp h
    obtain ⟨hhash, huniform, hbagged⟩ := (mergeParsed_isOk haveTrees_usable).mp ⟨out, hparsed⟩
    exact ⟨hread, hhash, huniform, hbagged⟩
  · intro h
    obtain ⟨out, hout⟩ :=
      (mergeParsed_isOk haveTrees_usable).mpr ⟨h.hashed, h.uniform, h.bagged⟩
    exact ⟨out, merge_eq_ok.mpr ⟨h.readable, hout⟩⟩

/-- The merge returns, or raises a `ValueError`. -/
def OnlyValueErrors (py : Python) (ws : List (Bytes × ℚ)) : Prop :=
  ∀ e, mergeXgboostModels py ws = .error e → IsValueError e

lemma onlyValueErrors_iff : OnlyValueErrors py ws ↔ StopsAtNumber py ws ∨
    (∀ e ∈ ws, TreesReadable py e) ∧
      (ws.filterMap (usable? py) = [] ∨ (∀ p ∈ ws.filterMap (usable? py), Hashed p) ∧
        (Uniform (ws.filterMap (usable? py)) ∧ Bagged (ws.filterMap (usable? py)) ∨
          ¬Uniform (ws.filterMap (usable? py)) ∧ Shown (ws.filterMap (usable? py)))) := by
  rw [← @mergeParsed_onlyValueErrors py _ haveTrees_usable, ← parseModels_valueError]
  unfold OnlyValueErrors
  rw [mergeXgboostModels_parts]
  cases hparse : parseModels py ws with
  | error d =>
    constructor
    · intro h
      exact Or.inl ⟨d, rfl, h d rfl⟩
    · rintro (⟨e, he, hvalue⟩ | ⟨hread, -⟩) e' he'
      · obtain rfl := Except.error.inj he
        obtain rfl := Except.error.inj he'
        exact hvalue
      · rw [parseModels_eq_ok.mpr ⟨hread, rfl⟩] at hparse
        cases hparse
  | ok parsed =>
    obtain ⟨hread, rfl⟩ := parseModels_eq_ok.mp hparse
    rw [and_iff_right hread, or_iff_right (by rintro ⟨e, he, -⟩; cases he)]
    exact Iff.rfl

/-! ### One more entry -/

variable {pre post : List (Bytes × ℚ)} {u : Bytes × ℚ}

/-- A non-empty array of trees at its place. -/
def HasTreeList (model : Json) : Prop :=
  ∃ fs ls bs ms xs, TreePath model fs ls bs ms (.arr xs) ∧ xs ≠ []

/-- An entry that has no part in a merge. -/
def Unusable (py : Python) (u : Bytes × ℚ) : Prop :=
  u.2 ≤ 0 ∨ (∀ model, py.loads u.1 ≠ .ok model) ∨
    ∃ model, py.loads u.1 = .ok model ∧ ¬HasTreeList model

/-- An entry that the filter loop skips. -/
def Skipped (py : Python) (u : Bytes × ℚ) : Prop :=
  (∃ e, py.loads u.1 = .error e ∧ e.isDecodeError = true) ∨
    ∃ model, py.loads u.1 = .ok model ∧
      (u.2 ≤ 0 ∨ ∃ trees, getTrees model = .ok trees ∧ trees.truthy = false)

/-- The entry makes no difference to what is returned, and to whether anything is. -/
def Neutral (py : Python) (pre : List (Bytes × ℚ)) (u : Bytes × ℚ) (post : List (Bytes × ℚ)) :
    Prop :=
  ∀ out, mergeXgboostModels py (pre ++ u :: post) = .ok out ↔
    mergeXgboostModels py (pre ++ post) = .ok out

lemma skipped_iff : Skipped py u ↔ TreesReadable py u ∧ usable? py u = none := by
  constructor
  · rintro (⟨e, he, hdecode⟩ | ⟨model, hload, hskip⟩)
    · refine ⟨⟨fun d hd => ?_, fun model hmodel => ?_⟩, by rw [usable?, he]⟩
      · rw [he] at hd
        exact Except.error.inj hd ▸ hdecode
      · rw [he] at hmodel
        cases hmodel
    · refine ⟨⟨fun d hd => ?_, fun model' hmodel hpos => ?_⟩, ?_⟩
      · rw [hload] at hd
        cases hd
      · rw [hload] at hmodel
        obtain rfl := Except.ok.inj hmodel
        obtain ⟨trees, hget, -⟩ := hskip.resolve_left (not_le.mpr hpos)
        exact ⟨trees, hget⟩
      · cases hused : usable? py u with
        | none => rfl
        | some p =>
          obtain ⟨hmodel, -, hpos, ts, hts, htruthy⟩ := usable?_eq_some.mp hused
          rw [hload] at hmodel
          obtain rfl := Except.ok.inj hmodel
          obtain ⟨trees, hget, hfalsy⟩ := hskip.resolve_left (not_le.mpr hpos)
          rw [hget] at hts
          obtain rfl := Except.ok.inj hts
          rw [hfalsy] at htruthy
          cases htruthy
  · rintro ⟨hread, hnone⟩
    cases hload : py.loads u.1 with
    | error e => exact Or.inl ⟨e, hload, hread.decoded e hload⟩
    | ok model =>
      refine Or.inr ⟨model, hload, ?_⟩
      by_cases hpos : 0 < u.2
      · obtain ⟨trees, hget⟩ := hread.walked model hload hpos
        refine Or.inr ⟨trees, hget, ?_⟩
        by_contra htruthy
        have hused : usable? py u = some { model, weight := u.2 } :=
          usable?_eq_some.mpr ⟨hload, rfl, hpos, trees, hget, by simpa using htruthy⟩
        rw [hnone] at hused
        cases hused
      · exact Or.inl (not_lt.mp hpos)

lemma merge_numModels {out : Bytes × MergeInfo} (h : mergeXgboostModels py ws = .ok out) :
    out.2.numModels = (ws.filterMap (usable? py)).length := by
  obtain ⟨base, rest, bagged, merged, -, -, -, -, hinfo⟩ := mergeParsed_eq_ok (merge_eq_ok.mp h).2
  rw [hinfo]

lemma forall_mem_insert {P : Bytes × ℚ → Prop} :
    (∀ e ∈ pre ++ u :: post, P e) ↔ P u ∧ ∀ e ∈ pre ++ post, P e := by
  constructor
  · intro h
    refine ⟨h u (by simp), fun e he => h e ?_⟩
    rw [List.mem_append] at he ⊢
    exact he.imp_right (List.mem_cons_of_mem u)
  · rintro ⟨hu, h⟩ e he
    rw [List.mem_append, List.mem_cons, or_left_comm] at he
    rcases he with rfl | he
    · exact hu
    · exact h e (List.mem_append.mpr he)

lemma usable_insert (pre post : List (Bytes × ℚ)) {p : Parsed} (h : usable? py u = some p) :
    (pre ++ u :: post).filterMap (usable? py) =
      pre.filterMap (usable? py) ++ p :: post.filterMap (usable? py) := by
  rw [List.filterMap_append, List.filterMap_cons_some h]

lemma Sliceable.iterable {trees : Json} (h : Sliceable trees) : Iterable trees := by
  cases trees with
  | obj fs => trivial
  | _ => exact h

lemma Bagged.of_insert {front back : List Parsed} {p : Parsed} (h : Bagged (front ++ p :: back))
    (hne : front ++ back ≠ []) : Bagged (front ++ back) := by
  obtain ⟨base, rest, hsort, hbase, hrest⟩ := h
  have hsub : (byWeight (front ++ back)).Sublist (base :: rest) := by
    rw [← hsort]
    exact sortDescending_sublist front back p
  cases hsmall : byWeight (front ++ back) with
  | nil => exact absurd hsmall (byWeight_ne_nil hne)
  | cons b r =>
    rw [hsmall] at hsub
    refine ⟨b, r, hsmall, ?_, fun q hq => hrest q ?_⟩
    · rcases List.mem_cons.mp (hsub.subset List.mem_cons_self) with rfl | hmem
      · exact hbase
      · obtain ⟨trees, hget, hslice⟩ := hrest b hmem
        exact ⟨trees, hget, hslice.iterable⟩
    · exact hsub.tail.subset hq

/-- Entries that merge still do when a usable one is left out, unless it was the only one. -/
lemma Merges.of_insert (h : Merges py (pre ++ u :: post)) {p : Parsed} (hused : usable? py u = some p)
    (hne : (pre ++ post).filterMap (usable? py) ≠ []) : Merges py (pre ++ post) := by
  have hall := usable_insert pre post hused
  have hrest : (pre ++ post).filterMap (usable? py) =
      pre.filterMap (usable? py) ++ post.filterMap (usable? py) :=
    List.filterMap_append
  have hmem : ∀ q ∈ (pre ++ post).filterMap (usable? py),
      q ∈ (pre ++ u :: post).filterMap (usable? py) := by
    intro q hq
    rw [hrest, List.mem_append] at hq
    rw [hall, List.mem_append]
    exact hq.imp_right (List.mem_cons_of_mem p)
  exact
    { readable := (forall_mem_insert.mp h.readable).2
      hashed := fun q hq => h.hashed q (hmem q hq)
      uniform := fun q hq q' hq' => h.uniform q (hmem q hq) q' (hmem q' hq')
      bagged := by
        have hbagged := h.bagged
        rw [hall] at hbagged
        rw [hrest] at hne ⊢
        exact hbagged.of_insert hne }

lemma Skipped.neutral (h : Skipped py u) : Neutral py pre u post := by
  obtain ⟨hread, hnone⟩ := skipped_iff.mp h
  intro out
  rw [merge_eq_ok, merge_eq_ok, forall_mem_insert, and_iff_right hread, List.filterMap_append,
    List.filterMap_cons_none hnone, List.filterMap_append]

lemma merges_insert_of_skipped (h : ∀ e ∈ pre ++ post, Skipped py e) :
    Merges py (pre ++ u :: post) ↔ Merges py [u] := by
  have hnone : ∀ {ws : List (Bytes × ℚ)}, (∀ e ∈ ws, Skipped py e) →
      ws.filterMap (usable? py) = [] := by
    intro ws hws
    rw [List.filterMap_eq_nil_iff]
    exact fun e he => (skipped_iff.mp (hws e he)).2
  have hsame : (pre ++ u :: post).filterMap (usable? py) = [u].filterMap (usable? py) := by
    rw [List.filterMap_append, hnone fun e he => h e (List.mem_append_left _ he), List.nil_append,
      ← List.singleton_append, List.filterMap_append,
      hnone fun e he => h e (List.mem_append_right _ he), List.append_nil]
  have hread : (∀ e ∈ pre ++ u :: post, TreesReadable py e) ↔ ∀ e ∈ [u], TreesReadable py e := by
    rw [forall_mem_insert, List.forall_mem_singleton]
    exact and_iff_left fun e he => (skipped_iff.mp (h e he)).1
  constructor
  · rintro ⟨hr, hhash, huniform, hbagged⟩
    rw [hsame] at hhash huniform hbagged
    exact ⟨hread.mp hr, hhash, huniform, hbagged⟩
  · rintro ⟨hr, hhash, huniform, hbagged⟩
    rw [← hsame] at hhash huniform hbagged
    exact ⟨hread.mpr hr, hhash, huniform, hbagged⟩

/-- When an entry that is not skipped makes no difference. -/
lemma neutral_iff : Neutral py pre u post ↔
    Skipped py u ∨ ¬Merges py (pre ++ post) ∧
      ¬((∀ e ∈ pre ++ post, Skipped py e) ∧ Merges py [u]) := by
  constructor
  · intro h
    by_cases hskip : Skipped py u
    · exact Or.inl hskip
    have hrest : ¬Merges py (pre ++ post) := by
      intro hmerges
      obtain ⟨out, hout⟩ := merge_isOk_iff.mpr hmerges
      have hwith := (h out).mpr hout
      have hread := (forall_mem_insert.mp (merge_eq_ok.mp hwith).1).1
      cases hused : usable? py u with
      | none => exact hskip (skipped_iff.mpr ⟨hread, hused⟩)
      | some p =>
        -- one more model is counted
        have hcount := merge_numModels hout
        rw [merge_numModels hwith, usable_insert pre post hused, List.filterMap_append,
          List.length_append, List.length_append, List.length_cons] at hcount
        omega
    refine Or.inr ⟨hrest, ?_⟩
    rintro ⟨hall, halone⟩
    obtain ⟨out, hout⟩ := merge_isOk_iff.mpr ((merges_insert_of_skipped hall).mpr halone)
    exact hrest (merge_isOk_iff.mp ⟨out, (h out).mp hout⟩)
  · rintro (hskip | ⟨hrest, hlone⟩)
    · exact hskip.neutral
    · by_cases hskip : Skipped py u
      · exact hskip.neutral
      have hwith : ¬Merges py (pre ++ u :: post) := by
        intro hmerges
        obtain ⟨hread, hreadRest⟩ := forall_mem_insert.mp hmerges.readable
        cases hused : usable? py u with
        | none => exact hskip (skipped_iff.mpr ⟨hread, hused⟩)
        | some p =>
          by_cases hne : (pre ++ post).filterMap (usable? py) = []
          · have hall : ∀ e ∈ pre ++ post, Skipped py e := by
              intro e he
              have hnone := List.filterMap_eq_nil_iff.mp hne e he
              exact skipped_iff.mpr ⟨hreadRest e he, hnone⟩
            exact hlone ⟨hall, (merges_insert_of_skipped hall).mp hmerges⟩
          · exact hrest (hmerges.of_insert hused hne)
      intro out
      constructor
      · intro hout
        exact absurd (merge_isOk_iff.mp ⟨out, hout⟩) hwith
      · intro hout
        exact absurd (merge_isOk_iff.mp ⟨out, hout⟩) hrest

/-- Which lists merge or raise a `ValueError`, and which unusable entries make no difference. -/
theorem merge_robust_iff (py : Python) (ws pre post : List (Bytes × ℚ)) (u : Bytes × ℚ) :
    (OnlyValueErrors py ws ↔ StopsAtNumber py ws ∨ (∀ e ∈ ws, TreesReadable py e) ∧
      (ws.filterMap (usable? py) = [] ∨ (∀ p ∈ ws.filterMap (usable? py), Hashed p) ∧
        (Uniform (ws.filterMap (usable? py)) ∧ Bagged (ws.filterMap (usable? py)) ∨
          ¬Uniform (ws.filterMap (usable? py)) ∧ Shown (ws.filterMap (usable? py))))) ∧
    ((Unusable py u → Neutral py pre u post) ↔ (Unusable py u → Skipped py u ∨
      ¬Merges py (pre ++ post) ∧ ¬((∀ e ∈ pre ++ post, Skipped py e) ∧ Merges py [u]))) := by
  constructor
  · exact onlyValueErrors_iff
  · exact imp_congr_right fun _ => neutral_iff

/-- An empty JSON array, with weight 1. -/
def arrayEntry : Bytes × ℚ := (encode "[]", 1)

/-- The array has no `get`: a merge with it raises an `AttributeError`, whatever else there is. -/
theorem array_entry_raises :
    ¬(∀ ws, OnlyValueErrors .cpython ws) ∧
      ¬∀ pre u post, Unusable .cpython u → Neutral .cpython pre u post := by
  constructor
  · intro h
    have herr : mergeXgboostModels .cpython [arrayEntry] = .error .attributeError := by
      decide +kernel
    exact h _ _ herr
  · intro h
    have hobj : (Python.cpython.loads arrayEntry.1).toOption.map
        (fun v => (v.get "learner" .null).isOk) = some false := by decide +kernel
    obtain ⟨model, hmodel, hno⟩ := Option.map_eq_some_iff.mp hobj
    have hunusable : Unusable .cpython arrayEntry := by
      refine Or.inr (Or.inr ⟨model, eq_ok_of_toOption hmodel, ?_⟩)
      rintro ⟨fs, ls, bs, ms, xs, hpath, -⟩
      rw [hpath.model] at hno
      cases hno
    have hsome : (mergeXgboostModels .cpython [(Sample.model, 1)]).toOption.isSome = true := by
      decide +kernel
    obtain ⟨out, hout⟩ := Option.isSome_iff_exists.mp hsome
    have herr : mergeXgboostModels .cpython [(Sample.model, 1), arrayEntry] =
        .error .attributeError := by
      decide +kernel
    have hwith := (h [(Sample.model, 1)] arrayEntry [] hunusable out).mpr (eq_ok_of_toOption hout)
    rw [List.cons_append, List.nil_append, herr] at hwith
    cases hwith

end Outcomes

end FlCoordinator
