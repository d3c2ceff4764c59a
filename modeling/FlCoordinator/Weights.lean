import FlCoordinator.Bagging

/-!
# What a weight means

Only the ratios of the weights matter, and a heavier entry does not get fewer trees. The trees of
a merged model are told apart by the positions of the entries that they come from.
-/

namespace FlCoordinator

open Lib

/-! ### One scale -/

section Scale

variable {py : Python} {c : ℚ}

def Parsed.scale (c : ℚ) (p : Parsed) : Parsed := { p with weight := c * p.weight }

/-- The entries with all weights multiplied by `c`. -/
def scaleWeights (c : ℚ) (ws : List (Bytes × ℚ)) : List (Bytes × ℚ) :=
  ws.map (fun e => (e.1, c * e.2))

lemma parseModels_scale (hc : 0 < c) (ws : List (Bytes × ℚ)) :
    parseModels py (scaleWeights c ws) = (parseModels py ws).map (List.map (Parsed.scale c)) := by
  induction ws with
  | nil => rfl
  | cons e ws ih =>
    obtain ⟨raw, weight⟩ := e
    rw [scaleWeights, List.map_cons, parseModels, parseModels]
    cases hload : py.loads raw with
    | error d =>
      dsimp only
      split
      · exact ih
      · rfl
    | ok model =>
      dsimp only
      by_cases hpos : 0 < weight
      · rw [if_pos hpos, if_pos (mul_pos hc hpos)]
        cases htrees : getTrees model with
        | error d => rfl
        | ok trees =>
          change (parseModels py (scaleWeights c ws) >>= fun tail => Except.ok (if trees.truthy then
            { model, weight := c * weight } :: tail else tail)) =
            (parseModels py ws >>= fun tail => Except.ok (if trees.truthy then
              { model, weight } :: tail else tail)).map (List.map (Parsed.scale c))
          rw [ih]
          cases parseModels py ws with
          | error d => rfl
          | ok tail =>
            change Except.ok _ = Except.ok _
            congr 1
            split <;> rfl
      · have hscaled : ¬0 < c * weight := by
          intro h
          exact hpos ((mul_pos_iff_of_pos_left hc).mp h)
        rw [if_neg hpos, if_neg hscaled]
        exact ih

lemma distinctSchemas_scale (ps : List Parsed) :
    distinctSchemas (ps.map (Parsed.scale c)) = distinctSchemas ps := by
  induction ps with
  | nil => rfl
  | cons p ps ih =>
    rw [List.map_cons, distinctSchemas, distinctSchemas, ih]
    rfl

lemma byWeight_scale (hc : 0 < c) (ps : List Parsed) :
    byWeight (ps.map (Parsed.scale c)) = (byWeight ps).map (Parsed.scale c) := by
  symm
  apply List.map_insertionSort
  intro a _ b _
  exact (mul_le_mul_iff_right₀ hc).symm

lemma weightSum_scale (ps : List Parsed) :
    weightSum (ps.map (Parsed.scale c)) = c * weightSum ps := by
  induction ps with
  | nil => simp [weightSum]
  | cons p ps ih =>
    unfold weightSum at ih ⊢
    rw [List.map_cons, List.map_cons, List.sum_cons, ih, List.map_cons, List.sum_cons, mul_add]
    rfl

lemma shareOf_scale (hc : 0 < c) (total : ℚ) (p : Parsed) :
    shareOf py (c * total) (p.scale c) = shareOf py total p := by
  have hratio : c * p.weight / (c * total) = p.weight / total := mul_div_mul_left _ _ hc.ne'
  unfold shareOf Parsed.scale
  simp only [hratio]

lemma bagTrees_scale (hc : 0 < c) (base : Parsed) (rest : List Parsed) (total : ℚ) :
    bagTrees py (base.scale c) (rest.map (Parsed.scale c)) (c * total) =
      bagTrees py base rest total := by
  have hshares : (rest.map (Parsed.scale c)).mapM (shareOf py (c * total)) =
      rest.mapM (shareOf py total) := by
    rw [List.mapM_map]
    congr 1
    funext p
    exact shareOf_scale hc total p
  unfold bagTrees
  rw [hshares]
  rfl

lemma mergeParsed_scale (hexact : py.Exact) (hc : 0 < c) {ps : List Parsed}
    (hpos : ∀ p ∈ ps, 0 < p.weight) :
    mergeParsed py (ps.map (Parsed.scale c)) = mergeParsed py ps := by
  have htotal : ps ≠ [] → totalWeight py (ps.map (Parsed.scale c)) = c * totalWeight py ps := by
    intro hne
    obtain ⟨p, hp⟩ := List.exists_mem_of_ne_nil ps hne
    have hscaled : ∀ q ∈ ps.map (Parsed.scale c), 0 < q.weight := by
      intro q hq
      obtain ⟨r, hr, rfl⟩ := List.mem_map.mp hq
      exact mul_pos hc (hpos r hr)
    rw [totalWeight_eq hexact hscaled (List.mem_map_of_mem hp), totalWeight_eq hexact hpos hp,
      weightSum_scale]
  unfold mergeParsed
  rw [List.isEmpty_map, distinctSchemas_scale, byWeight_scale hc, List.length_map]
  cases hsort : byWeight ps with
  | nil => rfl
  | cons base rest =>
    have hne : ps ≠ [] := by
      rintro rfl
      cases hsort
    simp only [List.map_cons, htotal hne, bagTrees_scale hc]
    rfl

lemma mergeXgboostModels_scale (hexact : py.Exact) (hc : 0 < c) (ws : List (Bytes × ℚ)) :
    mergeXgboostModels py (scaleWeights c ws) = mergeXgboostModels py ws := by
  rw [mergeXgboostModels_parts, mergeXgboostModels_parts, parseModels_scale hc]
  cases hparse : parseModels py ws with
  | error e => rfl
  | ok ps =>
    obtain ⟨-, rfl⟩ := parseModels_eq_ok.mp hparse
    exact mergeParsed_scale hexact hc fun p hp => usable_pos hp

end Scale

/-! ### Trees by entry -/

section Positions

variable {py : Python} {ws : List (Bytes × ℚ)}

/-- The models that the merge keeps, each with the position of its entry. -/
def keptAt (py : Python) (ws : List (Bytes × ℚ)) : List (ℕ × Parsed) :=
  ws.zipIdx.filterMap (fun e => (usable? py e.1).map (fun p => (e.2, p)))

def heaviestFirst (cs : List (ℕ × Parsed)) : List (ℕ × Parsed) :=
  sortDescending (fun c => c.2.weight) cs

/-- The bags of the merge, each with the position of its entry. -/
def positionBags (py : Python) (ws : List (Bytes × ℚ)) : List (ℕ × List Json) :=
  match heaviestFirst (keptAt py ws) with
  | [] => []
  | base :: rest => (base.1, treesOf base.2) :: rest.map (fun c =>
      (c.1, (treesOf c.2).take (prefixLength (weightSum ((keptAt py ws).map Prod.snd)) c.2)))

/-- The trees of the output before they are numbered, each with the position of its entry. -/
def outputTrees (py : Python) (ws : List (Bytes × ℚ)) : List (ℕ × Json) :=
  (labelled (positionBags py ws)).take maxGlobalTrees

/-- How many trees of the output are of the entry at position `i`. -/
def entryTrees (py : Python) (ws : List (Bytes × ℚ)) (i : ℕ) : ℕ :=
  ((outputTrees py ws).map Prod.fst).count i

/-- These are the trees of the returned bytes, place by place. -/
def Outputs (py : Python) (ws : List (Bytes × ℚ)) (bytes : Bytes) : Prop :=
  ∃ merged, Json.loads bytes = .ok merged ∧
    getTrees merged = .ok (.arr (renumber ((outputTrees py ws).map Prod.snd)))

lemma map_snd_keptAt (py : Python) (ws : List (Bytes × ℚ)) :
    (keptAt py ws).map Prod.snd = ws.filterMap (usable? py) := by
  have hentries : ws.zipIdx.map Prod.fst = ws := List.zipIdx_map_fst 0 ws
  conv_rhs => rw [← hentries]
  rw [keptAt, List.map_filterMap, List.filterMap_map]
  apply List.filterMap_congr
  intro e _
  rw [Option.map_map, Function.comp_apply]
  exact Option.map_id_apply

lemma map_snd_heaviestFirst (py : Python) (ws : List (Bytes × ℚ)) :
    (heaviestFirst (keptAt py ws)).map Prod.snd = byWeight (ws.filterMap (usable? py)) := by
  rw [← map_snd_keptAt]
  exact map_sortDescending (fun p : Parsed => p.weight) Prod.snd (keptAt py ws)

lemma outputs_of_merge (hexact : py.Exact) {bytes : Bytes} {info : MergeInfo}
    (h : mergeXgboostModels py ws = .ok (bytes, info)) : Outputs py ws bytes := by
  obtain ⟨parsed, base, rest, trees, merged, hparsed, hsort, hbag, hload, htrees, -⟩ :=
    mergeXgboostModels_eq_ok h
  obtain ⟨-, rfl⟩ := parseModels_eq_ok.mp hparsed
  have hmem := mem_of_byWeight hsort List.mem_cons_self
  rw [totalWeight_eq hexact (fun q hq => usable_pos hq) hmem] at hbag
  have hbagged := bagTrees_eq_bagged hexact hbag
  refine ⟨merged, hload, ?_⟩
  rw [htrees, hbagged, outputTrees, List.map_take, map_snd_labelled, positionBags]
  have hplaces := map_snd_heaviestFirst py ws
  rw [hsort] at hplaces
  cases hfirst : heaviestFirst (keptAt py ws) with
  | nil =>
    rw [hfirst] at hplaces
    cases hplaces
  | cons c cs =>
    rw [hfirst, List.map_cons] at hplaces
    obtain ⟨rfl, rfl⟩ := List.cons.inj hplaces
    rw [bagged, map_snd_keptAt, List.map_cons, List.flatten_cons, List.map_map, List.map_map]
    rfl

/-! ### One entry among the others -/

/-- The bag of a kept model, where `first` is the position of the base. -/
def bagOfEntry (total : ℚ) (first : ℕ) (c : ℕ × Parsed) : List Json :=
  if c.1 = first then treesOf c.2 else (treesOf c.2).take (prefixLength total c.2)

/-- Heavier, or as heavy and at an earlier position. -/
abbrev Precedes : ℕ × Parsed → ℕ × Parsed → Prop :=
  Ahead (fun c => c.2.weight) (fun a b => a.1 < b.1)

lemma Precedes.asymm {a b : ℕ × Parsed} (h : Precedes a b) : ¬Precedes b a :=
  Ahead.asymm (fun _ _ => Nat.lt_asymm) h

lemma keptAt_pairwise (py : Python) (ws : List (Bytes × ℚ)) :
    (keptAt py ws).Pairwise (fun a b => a.1 < b.1) := by
  have hpositions : ws.zipIdx.Pairwise (fun a b => a.2 < b.2) := by
    have hrange : (ws.zipIdx.map Prod.snd).Pairwise (· < ·) := by
      rw [List.zipIdx_map_snd]
      exact List.pairwise_lt_range'
    exact List.pairwise_map.mp hrange
  rw [keptAt, List.pairwise_filterMap]
  refine hpositions.imp fun {a b} hab c hc d hd => ?_
  obtain ⟨p, -, rfl⟩ := Option.map_eq_some_iff.mp hc
  obtain ⟨q, -, rfl⟩ := Option.map_eq_some_iff.mp hd
  exact hab

lemma keptAt_inj {a b : ℕ × Parsed} (ha : a ∈ keptAt py ws) (hb : b ∈ keptAt py ws) (h : a.1 = b.1) :
    a = b := by
  have hdistinct : ((keptAt py ws).map Prod.fst).Nodup :=
    List.pairwise_map.mpr ((keptAt_pairwise py ws).imp Nat.ne_of_lt)
  exact List.inj_on_of_nodup_map hdistinct ha hb h

/-- The base precedes all other kept models. -/
def IsBase (py : Python) (ws : List (Bytes × ℚ)) (c : ℕ × Parsed) : Prop :=
  c ∈ keptAt py ws ∧ ∀ d ∈ keptAt py ws, d ≠ c → Precedes c d

lemma nodup_heaviestFirst (py : Python) (ws : List (Bytes × ℚ)) :
    ((heaviestFirst (keptAt py ws)).map Prod.fst).Nodup := by
  have hperm : (heaviestFirst (keptAt py ws)).Perm (keptAt py ws) := perm_sortDescending _ _
  apply (hperm.map Prod.fst).nodup_iff.mpr
  exact List.pairwise_map.mpr ((keptAt_pairwise py ws).imp Nat.ne_of_lt)

section Heaviest

variable {base : ℕ × Parsed} {rest : List (ℕ × Parsed)}

lemma isBase_head (h : heaviestFirst (keptAt py ws) = base :: rest) : IsBase py ws base := by
  have hperm : (heaviestFirst (keptAt py ws)).Perm (keptAt py ws) := perm_sortDescending _ _
  have hsorted : (heaviestFirst (keptAt py ws)).Pairwise Precedes :=
    pairwise_ahead (keptAt_pairwise py ws)
  rw [h] at hperm hsorted
  refine ⟨hperm.mem_iff.mp List.mem_cons_self, fun d hd hne => ?_⟩
  rcases List.mem_cons.mp (hperm.mem_iff.mpr hd) with heq | hd
  · exact absurd heq hne
  · exact (List.pairwise_cons.mp hsorted).1 d hd

lemma positionBags_eq (h : heaviestFirst (keptAt py ws) = base :: rest) :
    positionBags py ws = (base :: rest).map (fun d =>
      (d.1, bagOfEntry (weightSum ((keptAt py ws).map Prod.snd)) base.1 d)) := by
  have hdistinct := nodup_heaviestFirst py ws
  rw [h, List.map_cons, List.nodup_cons] at hdistinct
  rw [positionBags, h, List.map_cons, bagOfEntry, if_pos rfl]
  dsimp only
  congr 1
  apply List.map_congr_left
  intro d hd
  have hne : d.1 ≠ base.1 := fun heq => hdistinct.1 (heq ▸ List.mem_map_of_mem hd)
  rw [bagOfEntry, if_neg hne]

end Heaviest

/-- The number of trees of an entry: its bag, or what the bags before it leave of the cap. -/
lemma entryTrees_eq {c : ℕ × Parsed} (hc : c ∈ keptAt py ws) :
    ∃ base, IsBase py ws base ∧ entryTrees py ws c.1 =
      min (bagOfEntry (weightSum ((keptAt py ws).map Prod.snd)) base.1 c).length
        (maxGlobalTrees - (((keptAt py ws).filter (fun d => Precedes d c)).map (fun d =>
          (bagOfEntry (weightSum ((keptAt py ws).map Prod.snd)) base.1 d).length)).sum) := by
  have hperm : (heaviestFirst (keptAt py ws)).Perm (keptAt py ws) := perm_sortDescending _ _
  have hsorted : (heaviestFirst (keptAt py ws)).Pairwise Precedes :=
    pairwise_ahead (keptAt_pairwise py ws)
  have hdistinct := nodup_heaviestFirst py ws
  cases hfirst : heaviestFirst (keptAt py ws) with
  | nil =>
    rw [hfirst] at hperm
    rw [← hperm.mem_iff] at hc
    cases hc
  | cons base rest =>
    have hbags := positionBags_eq hfirst
    rw [hfirst] at hperm hsorted hdistinct
    refine ⟨base, isBase_head hfirst, ?_⟩
    obtain ⟨front, back, hsplit⟩ := List.append_of_mem (hperm.mem_iff.mpr hc)
    rw [hsplit] at hperm hsorted hdistinct hbags
    rw [List.map_append, List.map_cons] at hdistinct hbags
    obtain ⟨-, hback, hapart⟩ := List.nodup_append.mp hdistinct
    have hahead : ((keptAt py ws).filter (fun d => Precedes d c)).Perm front := by
      have hfilter := hperm.filter (fun d => Precedes d c)
      rw [filter_ahead (fun _ _ => Nat.lt_asymm) hsorted] at hfilter
      exact hfilter.symm
    have hcount := @count_leading ℕ Json maxGlobalTrees _
      (front.map (fun d => (d.1, bagOfEntry (weightSum ((keptAt py ws).map Prod.snd)) base.1 d)))
      (back.map (fun d => (d.1, bagOfEntry (weightSum ((keptAt py ws).map Prod.snd)) base.1 d)))
      (c.1, bagOfEntry (weightSum ((keptAt py ws).map Prod.snd)) base.1 c) ?_ ?_
    · rw [entryTrees, outputTrees, hbags, (hahead.map _).sum_eq]
      rw [List.map_map] at hcount
      exact hcount
    · rw [List.map_map]
      intro hmem
      obtain ⟨d, hd, heq⟩ := List.mem_map.mp hmem
      exact hapart d.1 (List.mem_map_of_mem hd) c.1 List.mem_cons_self heq
    · rw [List.map_map]
      intro hmem
      obtain ⟨d, hd, heq⟩ := List.mem_map.mp hmem
      exact (List.nodup_cons.mp hback).1 (List.mem_map.mpr ⟨d, hd, heq⟩)

end Positions

/-! ### One entry that gets heavier -/

section Raise

variable {py : Python} {pre post : List (Bytes × ℚ)} {raw : Bytes} {w w' : ℚ}

lemma isBase_unique {ws : List (Bytes × ℚ)} {a b : ℕ × Parsed} (ha : IsBase py ws a)
    (hb : IsBase py ws b) : a = b := by
  by_contra hne
  exact (ha.2 b hb.1 (Ne.symm hne)).asymm (hb.2 a ha.1 hne)

lemma entryTrees_eq_zero {ws : List (Bytes × ℚ)} {i : ℕ} (h : ∀ c ∈ keptAt py ws, c.1 ≠ i) :
    entryTrees py ws i = 0 := by
  rw [entryTrees, List.count_eq_zero]
  intro hmem
  obtain ⟨b, hb, hlabel, -⟩ := mem_leading hmem
  have hkept : ∃ c ∈ heaviestFirst (keptAt py ws), c.1 = i := by
    unfold positionBags at hb
    cases hfirst : heaviestFirst (keptAt py ws) with
    | nil =>
      rw [hfirst] at hb
      cases hb
    | cons base rest =>
      rw [hfirst] at hb
      rcases List.mem_cons.mp hb with rfl | hb
      · exact ⟨base, List.mem_cons_self, hlabel⟩
      · obtain ⟨c, hc, rfl⟩ := List.mem_map.mp hb
        exact ⟨c, List.mem_cons_of_mem _ hc, hlabel⟩
  obtain ⟨c, hc, hi⟩ := hkept
  exact h c ((perm_sortDescending _ _).mem_iff.mp hc) hi

/-- The kept models of the entries other than the one at position `pre.length`. -/
def othersAt (py : Python) (pre post : List (Bytes × ℚ)) : List (ℕ × Parsed) :=
  keptAt py pre ++ (post.zipIdx (pre.length + 1)).filterMap (fun e =>
    (usable? py e.1).map (fun p => (e.2, p)))

lemma keptAt_perm (py : Python) (pre post : List (Bytes × ℚ)) (e : Bytes × ℚ) :
    (keptAt py (pre ++ e :: post)).Perm
      (((usable? py e).map (fun p => (pre.length, p))).toList ++ othersAt py pre post) := by
  rw [keptAt, List.zipIdx_append, List.zipIdx_cons, List.filterMap_append, Nat.zero_add]
  unfold othersAt keptAt
  cases hused : usable? py e with
  | none =>
    rw [List.filterMap_cons_none (by rw [hused]; rfl)]
    exact List.Perm.refl _
  | some p =>
    rw [List.filterMap_cons_some (by rw [hused]; rfl)]
    exact List.perm_middle

lemma othersAt_ne {d : ℕ × Parsed} (hd : d ∈ othersAt py pre post) : d.1 ≠ pre.length := by
  rcases List.mem_append.mp hd with hd | hd
  · obtain ⟨e, he, hp⟩ := List.mem_filterMap.mp hd
    obtain ⟨p, -, rfl⟩ := Option.map_eq_some_iff.mp hp
    have hlt := (List.mem_zipIdx he).2.1
    dsimp only
    omega
  · obtain ⟨e, he, hp⟩ := List.mem_filterMap.mp hd
    obtain ⟨p, -, rfl⟩ := Option.map_eq_some_iff.mp hp
    have hle := (List.mem_zipIdx he).1
    dsimp only
    omega

lemma othersAt_pos {d : ℕ × Parsed} (hd : d ∈ othersAt py pre post) : 0 < d.2.weight := by
  have hused : ∃ e : Bytes × ℚ, usable? py e = some d.2 := by
    rcases List.mem_append.mp hd with hd | hd
    · obtain ⟨e, -, hp⟩ := List.mem_filterMap.mp hd
      obtain ⟨p, hused, rfl⟩ := Option.map_eq_some_iff.mp hp
      exact ⟨e.1, hused⟩
    · obtain ⟨e, -, hp⟩ := List.mem_filterMap.mp hd
      obtain ⟨p, hused, rfl⟩ := Option.map_eq_some_iff.mp hp
      exact ⟨e.1, hused⟩
  obtain ⟨e, he⟩ := hused
  obtain ⟨-, hweight, hpos, -⟩ := usable?_eq_some.mp he
  rw [hweight]
  exact hpos

lemma precedes_iff {a b : ℕ × Parsed} : Precedes a b ↔
    b.2.weight < a.2.weight ∨ a.2.weight = b.2.weight ∧ a.1 < b.1 := Iff.rfl

lemma Precedes.of_raise {a b b' : ℕ × Parsed} (hpos : b.1 = b'.1) (hle : b.2.weight ≤ b'.2.weight)
    (h : Precedes a b') : Precedes a b := by
  rw [precedes_iff] at h ⊢
  rcases h with hlt | ⟨heq, hbefore⟩
  · exact Or.inl (hle.trans_lt hlt)
  · rcases lt_or_eq_of_le hle with hlt | hsame
    · left
      linarith
    · exact Or.inr ⟨by linarith, by omega⟩

lemma Precedes.raise {a a' b : ℕ × Parsed} (hpos : a.1 = a'.1) (hle : a.2.weight ≤ a'.2.weight)
    (h : Precedes a b) : Precedes a' b := by
  rw [precedes_iff] at h ⊢
  rcases h with hlt | ⟨heq, hbefore⟩
  · exact Or.inl (hlt.trans_le hle)
  · rcases lt_or_eq_of_le hle with hlt | hsame
    · left
      linarith
    · exact Or.inr ⟨by linarith, by omega⟩

lemma floor_toNat_mono {x y : ℚ} (h : x ≤ y) : ⌊x⌋.toNat ≤ ⌊y⌋.toNat :=
  Int.toNat_le_toNat (Int.floor_le_floor h)

lemma prefixLength_anti {total total' : ℚ} {p : Parsed} (hpos : 0 < p.weight) (htotal : 0 < total)
    (hle : total ≤ total') : prefixLength total' p ≤ prefixLength total p := by
  have hnum : 0 ≤ ((treesOf p).length : ℚ) * p.weight := by positivity
  have hquot := div_le_div_of_nonneg_left hnum htotal hle
  exact max_le_max_left 1 (floor_toNat_mono hquot)

/-- A share grows with the weight, also of the total that the weight is part of. -/
lemma prefixLength_raise {others : ℚ} {p p' : Parsed} (hmodel : p.model = p'.model)
    (hothers : 0 ≤ others) (hpos : 0 < p.weight) (hle : p.weight ≤ p'.weight) :
    prefixLength (p.weight + others) p ≤ prefixLength (p'.weight + others) p' := by
  have htrees : treesOf p = treesOf p' := by rw [treesOf, treesOf, hmodel]
  have hquot : ((treesOf p).length : ℚ) * p.weight / (p.weight + others) ≤
      ((treesOf p).length : ℚ) * p'.weight / (p'.weight + others) := by
    rw [div_le_div_iff₀ (by linarith) (by linarith)]
    have hcross : p.weight * others ≤ p'.weight * others :=
      mul_le_mul_of_nonneg_right hle hothers
    have hlength : (0 : ℚ) ≤ (treesOf p).length := Nat.cast_nonneg _
    calc ((treesOf p).length : ℚ) * p.weight * (p'.weight + others)
        = (treesOf p).length * (p.weight * p'.weight + p.weight * others) := by ring
      _ ≤ (treesOf p).length * (p.weight * p'.weight + p'.weight * others) :=
        mul_le_mul_of_nonneg_left (by linarith) hlength
      _ = (treesOf p).length * p'.weight * (p.weight + others) := by ring
  unfold prefixLength
  rw [← htrees]
  exact max_le_max_left 1 (floor_toNat_mono hquot)

lemma keptAt_perm_some {p : Parsed} (h : usable? py (raw, w) = some p) :
    (keptAt py (pre ++ (raw, w) :: post)).Perm ((pre.length, p) :: othersAt py pre post) := by
  have hperm := keptAt_perm py pre post (raw, w)
  rw [h] at hperm
  exact hperm

variable {p p' : Parsed}

/-- A heavier entry: the same model at the same position. -/
structure Raised (py : Python) (pre post : List (Bytes × ℚ)) (raw : Bytes) (w w' : ℚ) (p p' : Parsed) :
    Prop where
  before : (keptAt py (pre ++ (raw, w) :: post)).Perm ((pre.length, p) :: othersAt py pre post)
  after : (keptAt py (pre ++ (raw, w') :: post)).Perm ((pre.length, p') :: othersAt py pre post)
  model : p.model = p'.model
  pos : 0 < p.weight
  le : p.weight ≤ p'.weight

namespace Raised

variable (r : Raised py pre post raw w w' p p')

include r

lemma mem_before {d : ℕ × Parsed} : d ∈ keptAt py (pre ++ (raw, w) :: post) ↔
    d = (pre.length, p) ∨ d ∈ othersAt py pre post := by
  rw [r.before.mem_iff, List.mem_cons]

lemma mem_after {d : ℕ × Parsed} : d ∈ keptAt py (pre ++ (raw, w') :: post) ↔
    d = (pre.length, p') ∨ d ∈ othersAt py pre post := by
  rw [r.after.mem_iff, List.mem_cons]

lemma precedes_of_after {d : ℕ × Parsed} (h : Precedes d (pre.length, p')) :
    Precedes d (pre.length, p) :=
  @Precedes.of_raise d (pre.length, p) (pre.length, p') rfl r.le h

/-- Another model that is the base after the raise was it before. -/
lemma isBase_of_after {d : ℕ × Parsed} (hd : d ∈ othersAt py pre post)
    (h : IsBase py (pre ++ (raw, w') :: post) d) : IsBase py (pre ++ (raw, w) :: post) d := by
  refine ⟨r.mem_before.mpr (Or.inr hd), fun e he hne => ?_⟩
  rcases r.mem_before.mp he with rfl | he
  · have hother : (pre.length, p') ≠ d := fun heq => othersAt_ne hd (heq ▸ rfl)
    exact r.precedes_of_after (h.2 _ (r.mem_after.mpr (Or.inl rfl)) hother)
  · exact h.2 e (r.mem_after.mpr (Or.inr he)) hne

lemma isBase_after (h : IsBase py (pre ++ (raw, w) :: post) (pre.length, p)) :
    IsBase py (pre ++ (raw, w') :: post) (pre.length, p') := by
  refine ⟨r.mem_after.mpr (Or.inl rfl), fun e he hne => ?_⟩
  rcases r.mem_after.mp he with rfl | he
  · exact absurd rfl hne
  · have hother : e ≠ (pre.length, p) := by
      rintro rfl
      exact othersAt_ne he rfl
    have hahead := h.2 e (r.mem_before.mpr (Or.inr he)) hother
    exact Precedes.raise (a := (pre.length, p)) rfl r.le hahead

lemma total_before : weightSum ((keptAt py (pre ++ (raw, w) :: post)).map Prod.snd) =
    p.weight + weightSum ((othersAt py pre post).map Prod.snd) := by
  rw [weightSum_perm (r.before.map Prod.snd)]
  rfl

lemma total_after : weightSum ((keptAt py (pre ++ (raw, w') :: post)).map Prod.snd) =
    p'.weight + weightSum ((othersAt py pre post).map Prod.snd) := by
  rw [weightSum_perm (r.after.map Prod.snd)]
  rfl

omit r in
lemma others_nonneg (py : Python) (pre post : List (Bytes × ℚ)) :
    0 ≤ weightSum ((othersAt py pre post).map Prod.snd) := by
  apply List.sum_nonneg
  intro x hx
  obtain ⟨q, hq, rfl⟩ := List.mem_map.mp hx
  obtain ⟨d, hd, rfl⟩ := List.mem_map.mp hq
  exact (othersAt_pos hd).le

lemma own_bag_le {base base' : ℕ × Parsed} (hbase : IsBase py (pre ++ (raw, w) :: post) base)
    (hbase' : IsBase py (pre ++ (raw, w') :: post) base') :
    (bagOfEntry (weightSum ((keptAt py (pre ++ (raw, w) :: post)).map Prod.snd)) base.1
      (pre.length, p)).length ≤
    (bagOfEntry (weightSum ((keptAt py (pre ++ (raw, w') :: post)).map Prod.snd)) base'.1
      (pre.length, p')).length := by
  have htrees : treesOf p = treesOf p' := by rw [treesOf, treesOf, r.model]
  have hshare := prefixLength_raise r.model (others_nonneg py pre post) r.pos r.le
  rw [r.total_before, r.total_after]
  by_cases hfirst : pre.length = base'.1
  · -- all trees
    rw [bagOfEntry, bagOfEntry, if_pos hfirst, htrees]
    split
    · exact le_refl _
    · exact List.length_take_le' _ _
  · have hnot : pre.length ≠ base.1 := by
      intro heq
      have hsame : (pre.length, p) = base :=
        keptAt_inj (r.mem_before.mpr (Or.inl rfl)) hbase.1 heq
      have hstays := isBase_unique (r.isBase_after (hsame ▸ hbase)) hbase'
      exact hfirst (hstays ▸ rfl)
    rw [bagOfEntry, bagOfEntry, if_neg hfirst, if_neg hnot, htrees, List.length_take,
      List.length_take]
    exact min_le_min_right _ hshare

lemma other_bag_le {base base' d : ℕ × Parsed} (hd : d ∈ othersAt py pre post)
    (hbase : IsBase py (pre ++ (raw, w) :: post) base)
    (hbase' : IsBase py (pre ++ (raw, w') :: post) base') :
    (bagOfEntry (weightSum ((keptAt py (pre ++ (raw, w') :: post)).map Prod.snd)) base'.1 d).length ≤
    (bagOfEntry (weightSum ((keptAt py (pre ++ (raw, w) :: post)).map Prod.snd)) base.1 d).length := by
  have hothers := others_nonneg py pre post
  have hpos := r.pos
  have hle := r.le
  have hshare : prefixLength (p'.weight + weightSum ((othersAt py pre post).map Prod.snd)) d.2 ≤
      prefixLength (p.weight + weightSum ((othersAt py pre post).map Prod.snd)) d.2 :=
    prefixLength_anti (othersAt_pos hd) (by linarith) (by linarith)
  rw [r.total_before, r.total_after]
  by_cases hfirst : d.1 = base.1
  · rw [bagOfEntry, bagOfEntry, if_pos hfirst]
    split
    · exact le_refl _
    · exact List.length_take_le' _ _
  · have hnot : d.1 ≠ base'.1 := by
      intro heq
      have hsame : d = base' := keptAt_inj (r.mem_after.mpr (Or.inr hd)) hbase'.1 heq
      have hwas := isBase_unique (r.isBase_of_after hd (hsame ▸ hbase')) hbase
      exact hfirst (hwas ▸ rfl)
    rw [bagOfEntry, bagOfEntry, if_neg hfirst, if_neg hnot, List.length_take, List.length_take]
    exact min_le_min_right _ hshare

end Raised

lemma sum_ahead_perm {c : ℕ × Parsed} {l others : List (ℕ × Parsed)} (h : l.Perm (c :: others))
    (f : ℕ × Parsed → ℕ) : ((l.filter (fun d => Precedes d c)).map f).sum =
      ((others.filter (fun d => Precedes d c)).map f).sum := by
  have hself : ¬Precedes c c := fun hc => hc.asymm hc
  have hperm := h.filter (fun d => Precedes d c)
  rw [List.filter_cons_of_neg (by simpa using hself)] at hperm
  exact (hperm.map f).sum_eq

lemma entryTrees_raise (hle : w ≤ w') (pre post : List (Bytes × ℚ)) (raw : Bytes) :
    entryTrees py (pre ++ (raw, w) :: post) pre.length ≤
      entryTrees py (pre ++ (raw, w') :: post) pre.length := by
  cases hused : usable? py (raw, w) with
  | none =>
    have hzero : entryTrees py (pre ++ (raw, w) :: post) pre.length = 0 := by
      apply entryTrees_eq_zero
      intro c hc
      have hperm := keptAt_perm py pre post (raw, w)
      rw [hused] at hperm
      exact othersAt_ne (hperm.mem_iff.mp hc)
    omega
  | some p =>
    obtain ⟨hload, hweight, hpos, htrees⟩ := usable?_eq_some.mp hused
    have hused' : usable? py (raw, w') = some { model := p.model, weight := w' } :=
      usable?_eq_some.mpr ⟨hload, rfl, hpos.trans_le hle, htrees⟩
    have r : Raised py pre post raw w w' p { model := p.model, weight := w' } :=
      { before := keptAt_perm_some hused
        after := keptAt_perm_some hused'
        model := rfl
        pos := hweight ▸ hpos
        le := hweight ▸ hle }
    obtain ⟨base, hbase, hcount⟩ := entryTrees_eq (r.mem_before.mpr (Or.inl rfl))
    obtain ⟨base', hbase', hcount'⟩ := entryTrees_eq (r.mem_after.mpr (Or.inl rfl))
    rw [sum_ahead_perm r.before] at hcount
    rw [sum_ahead_perm r.after] at hcount'
    have hown := r.own_bag_le hbase hbase'
    have hahead := sum_filter_le (l := othersAt py pre post)
      (p := fun d => Precedes d (pre.length, { model := p.model, weight := w' }))
      (q := fun d => Precedes d (pre.length, p))
      (fun d _ h => decide_eq_true (r.precedes_of_after (of_decide_eq_true h)))
      (fun d hd _ => r.other_bag_le hd hbase hbase')
    rw [hcount, hcount']
    exact min_le_min hown (Nat.sub_le_sub_left hahead _)

/-- What the weights of a merge mean, where they are exact. -/
theorem merge_weights (hexact : py.Exact) :
    (∀ ws c, 0 < c → mergeXgboostModels py (scaleWeights c ws) = mergeXgboostModels py ws) ∧
    ∀ pre post raw w w' bytes bytes' info info', w ≤ w' →
      mergeXgboostModels py (pre ++ (raw, w) :: post) = .ok (bytes, info) →
      mergeXgboostModels py (pre ++ (raw, w') :: post) = .ok (bytes', info') →
      Outputs py (pre ++ (raw, w) :: post) bytes ∧ Outputs py (pre ++ (raw, w') :: post) bytes' ∧
        entryTrees py (pre ++ (raw, w) :: post) pre.length ≤
          entryTrees py (pre ++ (raw, w') :: post) pre.length := by
  constructor
  · intro ws c hc
    exact mergeXgboostModels_scale hexact hc ws
  · intro pre post raw w w' bytes bytes' info info' hle hmerge hmerge'
    exact ⟨outputs_of_merge hexact hmerge, outputs_of_merge hexact hmerge',
      entryTrees_raise hle pre post raw⟩

/-- Two entries of one model: in halves, and with the second one raised. -/
theorem merge_weights_sample :
    mergeXgboostModels .exact (scaleWeights (1 / 2) [(Sample.model, 2), (Sample.model, 1)]) =
        mergeXgboostModels .exact [(Sample.model, 2), (Sample.model, 1)] ∧
      entryTrees .exact [(Sample.model, 2), (Sample.model, 1)] 1 ≤
        entryTrees .exact [(Sample.model, 2), (Sample.model, 3)] 1 := by
  have hok : (mergeXgboostModels .exact [(Sample.model, 2), (Sample.model, 1)]).toOption.isSome =
      true := by
    decide +kernel
  have hok' : (mergeXgboostModels .exact [(Sample.model, 2), (Sample.model, 3)]).toOption.isSome =
      true := by
    decide +kernel
  obtain ⟨⟨bytes, info⟩, hout⟩ := Option.isSome_iff_exists.mp hok
  obtain ⟨⟨bytes', info'⟩, hout'⟩ := Option.isSome_iff_exists.mp hok'
  refine ⟨(merge_weights Python.exact_exact).1 _ (1 / 2) (by norm_num), ?_⟩
  exact ((merge_weights Python.exact_exact).2 [(Sample.model, 2)] [] Sample.model 1 3 bytes bytes' info info'
    (by norm_num) (eq_ok_of_toOption hout) (eq_ok_of_toOption hout')).2.2

end Raise

end FlCoordinator
