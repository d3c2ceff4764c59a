import Mathlib.Tactic

/-!
# Tables with a primary key

`Table key` is a list of rows whose keys are distinct, as a SQL table with a `PRIMARY KEY`
is. `AutoTable key` adds an `AUTOINCREMENT` counter above every key ever used.
-/

namespace Lib

variable {α κ : Type}

/-- Rows with pairwise distinct keys. -/
structure Table (key : α → κ) where
  rows : List α
  nodup : (rows.map key).Nodup

namespace Table

section Keyed

variable {key : α → κ} [DecidableEq κ]

def empty : Table key := ⟨[], List.nodup_nil⟩

/-- `SELECT * FROM t WHERE key = k`. -/
def get? (t : Table key) (k : κ) : Option α := t.rows.find? (fun r => key r = k)

/-- `INSERT OR REPLACE`: the old row with this key goes, the new one is appended. -/
def upsert (t : Table key) (row : α) : Table key where
  rows := t.rows.filter (fun r => key r ≠ key row) ++ [row]
  nodup := by
    have hsub : ((t.rows.filter (fun r => key r ≠ key row)).map key).Nodup :=
      t.nodup.sublist (List.filter_sublist.map key)
    rw [List.map_append, List.map_singleton]
    refine List.nodup_append.mpr ⟨hsub, List.nodup_singleton _, ?_⟩
    intro a ha b hb
    obtain ⟨r, hr, rfl⟩ := List.mem_map.mp ha
    rw [List.mem_singleton.mp hb]
    simpa using (List.mem_filter.mp hr).2

/-- `INSERT`: refused when the key exists. -/
def insert? (t : Table key) (row : α) : Option (Table key) :=
  if h : key row ∈ t.rows.map key then none
  else some ⟨t.rows ++ [row], by
    rw [List.map_append, List.map_singleton]
    refine List.nodup_append.mpr ⟨t.nodup, List.nodup_singleton _, ?_⟩
    intro a ha b hb heq
    rw [List.mem_singleton.mp hb] at heq
    exact h (heq ▸ ha)⟩

/-- `UPDATE t SET … WHERE key = k`, for a change that keeps the key. -/
def update (t : Table key) (k : κ) (f : α → α) (hf : ∀ r, key (f r) = key r := by intro; rfl) :
    Table key where
  rows := t.rows.map (fun r => if key r = k then f r else r)
  nodup := by
    have h : (t.rows.map (fun r => if key r = k then f r else r)).map key = t.rows.map key := by
      rw [List.map_map]
      apply List.map_congr_left
      intro r _
      by_cases hr : key r = k
      · simp [hr, hf r]
      · simp [hr]
    rw [h]
    exact t.nodup

/-- `UPDATE t SET …` on every row, for a change that keeps the keys. -/
def updateAll (t : Table key) (f : α → α) (hf : ∀ r, key (f r) = key r) : Table key where
  rows := t.rows.map f
  nodup := by
    have h : (t.rows.map f).map key = t.rows.map key := by
      rw [List.map_map]
      exact List.map_congr_left fun r _ => hf r
    rw [h]
    exact t.nodup

/-- `UPDATE t SET … WHERE p`, for a change that keeps the keys, with its `rowcount`. -/
def updateWhere (t : Table key) (p : α → Bool) (f : α → α) (hf : ∀ r, key (f r) = key r) :
    ℕ × Table key :=
  (t.rows.countP p, t.updateAll (fun r => if p r then f r else r) (by
    intro r
    split
    · exact hf r
    · rfl))

omit [DecidableEq κ] in
@[simp] lemma empty_rows : (empty : Table key).rows = [] := rfl

@[simp] lemma get?_empty (k : κ) : (empty : Table key).get? k = none := rfl

lemma get?_mem {t : Table key} {k : κ} {r : α} (h : t.get? k = some r) : r ∈ t.rows :=
  List.mem_of_find?_eq_some h

lemma get?_key {t : Table key} {k : κ} {r : α} (h : t.get? k = some r) : key r = k := by
  simpa using List.find?_some h

lemma get?_of_mem {t : Table key} {r : α} (h : r ∈ t.rows) : t.get? (key r) = some r := by
  cases hg : t.get? (key r) with
  | none =>
    have := List.find?_eq_none.mp hg r h
    simp at this
  | some q =>
    have hq := get?_mem hg
    have hk := get?_key hg
    rw [List.inj_on_of_nodup_map t.nodup hq h hk]

lemma get?_eq_some_iff {t : Table key} {k : κ} {r : α} :
    t.get? k = some r ↔ r ∈ t.rows ∧ key r = k := by
  constructor
  · exact fun h => ⟨get?_mem h, get?_key h⟩
  · rintro ⟨hr, rfl⟩
    exact get?_of_mem hr

lemma get?_eq_none_iff {t : Table key} {k : κ} :
    t.get? k = none ↔ ∀ r ∈ t.rows, key r ≠ k := by
  simp [get?]

@[simp] lemma mem_upsert {t : Table key} {row r : α} :
    r ∈ (t.upsert row).rows ↔ (r ∈ t.rows ∧ key r ≠ key row) ∨ r = row := by
  simp [upsert]

lemma get?_upsert_self (t : Table key) (row : α) : (t.upsert row).get? (key row) = some row :=
  get?_of_mem (by simp)

lemma get?_upsert_ne (t : Table key) {row : α} {k : κ} (h : key row ≠ k) :
    (t.upsert row).get? k = t.get? k := by
  apply Option.ext
  intro r
  rw [get?_eq_some_iff, get?_eq_some_iff, mem_upsert]
  constructor
  · rintro ⟨⟨hr, -⟩ | rfl, hk⟩
    · exact ⟨hr, hk⟩
    · exact absurd hk h
  · rintro ⟨hr, hk⟩
    exact ⟨Or.inl ⟨hr, by rw [hk]; exact Ne.symm h⟩, hk⟩

lemma get?_upsert (t : Table key) (row : α) (k : κ) :
    (t.upsert row).get? k = if key row = k then some row else t.get? k := by
  split
  · rename_i h
    rw [← h]
    exact get?_upsert_self t row
  · rename_i h
    exact get?_upsert_ne t h

lemma mem_insert? {t t' : Table key} {row r : α} (h : t.insert? row = some t') :
    r ∈ t'.rows ↔ r ∈ t.rows ∨ r = row := by
  unfold insert? at h
  split at h
  · cases h
  · cases h
    simp

lemma insert?_fresh {t t' : Table key} {row : α} (h : t.insert? row = some t') :
    t.get? (key row) = none := by
  unfold insert? at h
  split at h
  · cases h
  · rename_i hk
    rw [get?_eq_none_iff]
    intro r hr heq
    exact hk (List.mem_map.mpr ⟨r, hr, heq⟩)

lemma get?_insert? {t t' : Table key} {row : α} (h : t.insert? row = some t') (k : κ) :
    t'.get? k = if key row = k then some row else t.get? k := by
  apply Option.ext
  intro r
  split
  · rename_i hk
    rw [get?_eq_some_iff, mem_insert? h, Option.some_inj]
    constructor
    · rintro ⟨hr | rfl, hkr⟩
      · exact absurd (hkr.trans hk.symm) (get?_eq_none_iff.mp (insert?_fresh h) r hr)
      · rfl
    · rintro rfl
      exact ⟨Or.inr rfl, hk⟩
  · rename_i hk
    rw [get?_eq_some_iff, get?_eq_some_iff, mem_insert? h]
    constructor
    · rintro ⟨hr | rfl, hkr⟩
      · exact ⟨hr, hkr⟩
      · exact absurd hkr hk
    · rintro ⟨hr, hkr⟩
      exact ⟨Or.inl hr, hkr⟩

lemma mem_update {t : Table key} {k : κ} {f : α → α} {hf : ∀ r, key (f r) = key r} {r : α} :
    r ∈ (t.update k f hf).rows ↔ ∃ q ∈ t.rows, r = if key q = k then f q else q := by
  simp only [update, List.mem_map]
  constructor
  · rintro ⟨q, hq, rfl⟩
    exact ⟨q, hq, rfl⟩
  · rintro ⟨q, hq, rfl⟩
    exact ⟨q, hq, rfl⟩

lemma get?_update (t : Table key) (k j : κ) (f : α → α) (hf : ∀ r, key (f r) = key r) :
    (t.update k f hf).get? j = if k = j then (t.get? j).map f else t.get? j := by
  apply Option.ext
  intro r
  rw [get?_eq_some_iff, mem_update]
  constructor
  · rintro ⟨⟨q, hq, rfl⟩, hkey⟩
    by_cases hqk : key q = k
    · rw [if_pos hqk] at hkey ⊢
      rw [hf, hqk] at hkey
      rw [if_pos hkey, ← hkey, ← hqk, get?_of_mem hq]
      rfl
    · rw [if_neg hqk] at hkey ⊢
      have hkj : k ≠ j := fun h => hqk (hkey.trans h.symm)
      rw [if_neg hkj, ← hkey, get?_of_mem hq]
  · intro h
    by_cases hkj : k = j
    · rw [if_pos hkj, Option.map_eq_some_iff] at h
      obtain ⟨q, hq, rfl⟩ := h
      have hkq := get?_key hq
      exact ⟨⟨q, get?_mem hq, by rw [if_pos (hkq.trans hkj.symm)]⟩, (hf q).trans hkq⟩
    · rw [if_neg hkj] at h
      have hkr := get?_key h
      exact ⟨⟨r, get?_mem h, by rw [if_neg (fun hc => hkj (hc.symm.trans hkr))]⟩, hkr⟩

lemma get?_updateAll (t : Table key) (f : α → α) (hf : ∀ r, key (f r) = key r) (j : κ) :
    (t.updateAll f hf).get? j = (t.get? j).map f := by
  simp only [get?, updateAll, List.find?_map]
  refine congrArg (Option.map f) (congrArg (fun p => t.rows.find? p) ?_)
  funext r
  simp [hf]

omit [DecidableEq κ] in
lemma mem_updateAll {t : Table key} {f : α → α} {hf : ∀ r, key (f r) = key r} {r : α} :
    r ∈ (t.updateAll f hf).rows ↔ ∃ q ∈ t.rows, f q = r := by
  simp [updateAll]

omit [DecidableEq κ] in
lemma updateAll_eq_self {t : Table key} {f : α → α} {hf : ∀ r, key (f r) = key r}
    (h : ∀ r ∈ t.rows, f r = r) : t.updateAll f hf = t := by
  have hrows : t.rows.map f = t.rows := (List.map_congr_left h).trans (List.map_id _)
  unfold updateAll
  congr

lemma updateAll_update {t : Table key} {k : κ} {f g : α → α} {hf : ∀ r, key (f r) = key r}
    {hg : ∀ r, key (g r) = key r} (hfg : ∀ r, g (f r) = f (g r)) :
    (t.update k f hf).updateAll g hg = (t.updateAll g hg).update k f hf := by
  have hrows : (t.rows.map (fun r => if key r = k then f r else r)).map g =
      (t.rows.map g).map (fun r => if key r = k then f r else r) := by
    rw [List.map_map, List.map_map]
    apply List.map_congr_left
    intro r _
    simp only [Function.comp_apply, hg]
    split
    · exact hfg r
    · rfl
  unfold updateAll update
  congr

omit [DecidableEq κ] in
lemma updateWhere_of_none {t : Table key} {p : α → Bool} {f : α → α}
    {hf : ∀ r, key (f r) = key r} (h : ∀ r ∈ t.rows, p r = false) :
    t.updateWhere p f hf = (0, t) := by
  have hcount : t.rows.countP p = 0 := List.countP_eq_zero.mpr fun r hr => by simp [h r hr]
  rw [updateWhere, hcount, updateAll_eq_self]
  intro r hr
  rw [h r hr, if_neg Bool.false_ne_true]

lemma updateWhere_of_some {t : Table key} {p : α → Bool} {f : α → α}
    {hf : ∀ r, key (f r) = key r} {k : κ} {r : α} (hkey : ∀ q, p q = true → key q = k)
    (hr : t.get? k = some r) (hp : p r = true) :
    t.updateWhere p f hf = (1, t.update k f hf) := by
  have hiff : ∀ q ∈ t.rows, (p q = true ↔ key q = k) := by
    intro q hq
    refine ⟨hkey q, fun hqk => ?_⟩
    have hget := get?_of_mem hq
    rw [hqk, hr] at hget
    rw [← Option.some.inj hget]
    exact hp
  have hcount : t.rows.countP p = 1 := by
    apply le_antisymm
    · calc t.rows.countP p ≤ t.rows.countP (fun q => key q == k) :=
            List.countP_mono_left fun q hq hpq => beq_iff_eq.mpr ((hiff q hq).mp hpq)
        _ = (t.rows.map key).count k := by rw [List.count, List.countP_map]; rfl
        _ ≤ 1 := List.nodup_iff_count_le_one.mp t.nodup k
    · exact List.countP_pos_iff.mpr ⟨r, get?_mem hr, hp⟩
  have hrows : t.rows.map (fun q => if p q then f q else q) =
      t.rows.map (fun q => if key q = k then f q else q) := by
    apply List.map_congr_left
    intro q hq
    by_cases hqk : key q = k
    · rw [if_pos ((hiff q hq).mpr hqk), if_pos hqk]
    · rw [if_neg (fun hpq => hqk ((hiff q hq).mp hpq)), if_neg hqk]
  rw [updateWhere, hcount]
  unfold updateAll update
  congr

/-- `WHERE key = k AND cond`, where `k` may be `NULL`. -/
lemma updateWhere_key_some {t : Table key} {k : Option κ} {cond : α → Bool} {f : α → α}
    {hf : ∀ r, key (f r) = key r} {r : α} (hr : k.bind t.get? = some r) (hcond : cond r = true) :
    t.updateWhere (fun q => k = some (key q) && cond q) f hf = (1, t.update (key r) f hf) := by
  obtain ⟨j, hk, hget⟩ := Option.bind_eq_some_iff.mp hr
  have hj : key r = j := get?_key hget
  rw [hj]
  apply updateWhere_of_some (r := r)
  · intro q hq
    have hkq : k = some (key q) := by
      by_contra hne
      simp [hne] at hq
    exact Option.some.inj (hkq.symm.trans hk)
  · exact hget
  · simp [hk, hj, hcond]

lemma updateWhere_key_none {t : Table key} {k : Option κ} {cond : α → Bool} {f : α → α}
    {hf : ∀ r, key (f r) = key r} (h : ∀ r, k.bind t.get? = some r → cond r = false) :
    t.updateWhere (fun q => k = some (key q) && cond q) f hf = (0, t) := by
  apply updateWhere_of_none
  intro q hq
  by_cases hk : k = some (key q)
  · have hfound : k.bind t.get? = some q := by
      rw [hk]
      exact get?_of_mem hq
    simp [h q hfound]
  · simp [hk]

end Keyed

end Table

/-- A table whose integer key is drawn from a counter that only grows, so that no key is
ever used twice. -/
structure AutoTable (key : α → ℤ) extends Table key where
  seq : ℤ
  bounded : ∀ r ∈ rows, key r ≤ seq

namespace AutoTable

variable {key : α → ℤ}

def empty : AutoTable key := ⟨Table.empty, 0, by simp⟩

/-- `INSERT`: the row gets the next id, which is returned. -/
def insert (t : AutoTable key) (mk : ℤ → α) (hmk : ∀ i, key (mk i) = i := by intro; rfl) :
    ℤ × AutoTable key :=
  (t.seq + 1,
    { rows := t.rows ++ [mk (t.seq + 1)]
      nodup := by
        rw [List.map_append, List.map_singleton]
        refine List.nodup_append.mpr ⟨t.nodup, List.nodup_singleton _, ?_⟩
        intro a ha b hb
        obtain ⟨r, hr, rfl⟩ := List.mem_map.mp ha
        rw [List.mem_singleton.mp hb, hmk]
        have := t.bounded r hr
        omega
      seq := t.seq + 1
      bounded := by
        intro r hr
        rcases List.mem_append.mp hr with h | h
        · have := t.bounded r h
          omega
        · rw [List.mem_singleton.mp h, hmk] })

/-- `UPDATE t SET … WHERE id = k`. -/
def update (t : AutoTable key) (k : ℤ) (f : α → α)
    (hf : ∀ r, key (f r) = key r := by intro; rfl) : AutoTable key where
  toTable := t.toTable.update k f hf
  seq := t.seq
  bounded := by
    intro r hr
    obtain ⟨q, hq, rfl⟩ := Table.mem_update.mp hr
    split
    · rw [hf]
      exact t.bounded q hq
    · exact t.bounded q hq

def updateAll (t : AutoTable key) (f : α → α) (hf : ∀ r, key (f r) = key r) : AutoTable key where
  toTable := t.toTable.updateAll f hf
  seq := t.seq
  bounded := by
    intro r hr
    obtain ⟨q, hq, rfl⟩ := Table.mem_updateAll.mp hr
    rw [hf]
    exact t.bounded q hq

@[simp] lemma empty_rows : (empty : AutoTable key).rows = [] := rfl

variable {t : AutoTable key} {f : ℤ → α} {e : ∀ i, key (f i) = i}

@[simp] lemma mem_insert {r : α} :
    r ∈ (t.insert f e).2.rows ↔ r ∈ t.rows ∨ r = f (t.seq + 1) := by
  simp [insert]

lemma get?_seq_succ : t.get? (t.seq + 1) = none := by
  rw [Table.get?_eq_none_iff]
  intro r hr h
  have := t.bounded r hr
  omega

lemma get?_insert (k : ℤ) :
    (t.insert f e).2.get? k = if k = t.seq + 1 then some (f k) else t.get? k := by
  apply Option.ext
  intro r
  rw [Table.get?_eq_some_iff, mem_insert]
  split
  · rename_i hk
    subst hk
    rw [Option.some_inj]
    constructor
    · rintro ⟨hr | hr, hkey⟩
      · exact absurd hkey (Table.get?_eq_none_iff.mp get?_seq_succ r hr)
      · exact hr.symm
    · rintro rfl
      exact ⟨Or.inr rfl, e _⟩
  · rename_i hk
    rw [Table.get?_eq_some_iff]
    constructor
    · rintro ⟨hr | rfl, hkey⟩
      · exact ⟨hr, hkey⟩
      · exact absurd ((e _).symm.trans hkey).symm hk
    · rintro ⟨hr, hkey⟩
      exact ⟨Or.inl hr, hkey⟩

lemma get?_update (k j : ℤ) (f : α → α) (hf : ∀ r, key (f r) = key r) :
    (t.update k f hf).get? j = if k = j then (t.get? j).map f else t.get? j :=
  Table.get?_update t.toTable k j f hf

lemma get?_updateAll (f : α → α) (hf : ∀ r, key (f r) = key r) (j : ℤ) :
    (t.updateAll f hf).get? j = (t.get? j).map f :=
  Table.get?_updateAll t.toTable f hf j

lemma updateAll_update {k : ℤ} {f g : α → α} {hf : ∀ r, key (f r) = key r}
    {hg : ∀ r, key (g r) = key r} (hfg : ∀ r, g (f r) = f (g r)) :
    (t.update k f hf).updateAll g hg = (t.updateAll g hg).update k f hf := by
  have htable : (t.toTable.update k f hf).updateAll g hg =
      (t.toTable.updateAll g hg).update k f hf := Table.updateAll_update hfg
  simp only [updateAll, update, htable]

lemma updateAll_eq_self {f : α → α} {hf : ∀ r, key (f r) = key r}
    (h : ∀ r ∈ t.rows, f r = r) : t.updateAll f hf = t := by
  have htable : t.toTable.updateAll f hf = t.toTable := Table.updateAll_eq_self h
  simp only [updateAll, htable]

end AutoTable

end Lib
