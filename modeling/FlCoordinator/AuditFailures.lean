import FlCoordinator.AuditThreads
import FlCoordinator.Lib.Transactions

/-!
# Failing calls of `log`

A call whose commit raises leaves its row pending, and the hash in memory is still that of the row
before. The next call that returns commits both rows, each with a hash after the same one.
-/

namespace FlCoordinator

open Lib

/-- A live `AuditTrail` on its connection. -/
structure LiveTrail where
  conn : Connection (List AuditRow)
  prevHash : String

namespace LiveTrail

/-- `AuditTrail.__init__` on a database with the rows `rows`. -/
def init (rows : List AuditRow) : LiveTrail := ⟨⟨rows, rows⟩, getLastHash rows⟩

/-- The `INSERT` of a call, and its commit. -/
def logStatements (host : Host) (prevHash : String) (call : LogCall) (rows : List AuditRow) :
    List (Statement (List AuditRow)) :=
  [.write (rows ++ [call.row (call.hash host prevHash)]), .commit]

/-- A call of `log`. It raises at its `INSERT` or before when `a.done` is 0, and at its commit when
that is 1. Only a call that gets past both sets `_prev_hash`. -/
def log (host : Host) (t : LiveTrail) (a : Attempt LogCall) : LiveTrail :=
  { conn := t.conn.attempt (logStatements host t.prevHash) a
    prevHash := if a.done < 2 then t.prevHash else a.call.hash host t.prevHash }

/-- The calls `as` on an instance that started on the rows `rows`. -/
def session (host : Host) (rows : List AuditRow) (as : List (Attempt LogCall)) : LiveTrail :=
  as.foldl (log host) (init rows)

variable {host : Host} {rows pending : List AuditRow} {t : LiveTrail} {a : Attempt LogCall}
  {as : List (Attempt LogCall)}

lemma session_concat (host : Host) (rows : List AuditRow) (as : List (Attempt LogCall))
    (a : Attempt LogCall) :
    session host rows (as ++ [a]) = (session host rows as).log host a := by
  rw [session, List.foldl_append]
  rfl

/-! ### One call -/

/-- The row that the call inserts. -/
def newRow (host : Host) (t : LiveTrail) (a : Attempt LogCall) : AuditRow :=
  a.call.row (a.call.hash host t.prevHash)

lemma newRow_hashed : chainHash host t.prevHash (t.newRow host a) = (t.newRow host a).chainHash := rfl

lemma log_insert_raises (h : a.done = 0) : t.log host a = t := by
  rw [log, Connection.attempt, h]
  rfl

lemma log_commit_raises (h : a.done = 1) :
    t.log host a = ⟨⟨t.conn.committed, t.conn.current ++ [t.newRow host a]⟩, t.prevHash⟩ := by
  rw [log, Connection.attempt, h]
  rfl

lemma log_returns (h : 2 ≤ a.done) :
    t.log host a = ⟨⟨t.conn.current ++ [t.newRow host a], t.conn.current ++ [t.newRow host a]⟩,
      (t.newRow host a).chainHash⟩ := by
  have hall : (logStatements host t.prevHash a.call t.conn.current).take a.done =
      logStatements host t.prevHash a.call t.conn.current := List.take_of_length_le h
  rw [log, Connection.attempt, hall, if_neg (by omega)]
  rfl

/-- Where nothing is pending, a call that returns does what it does on a trail without failures. -/
theorem log_idle (hidle : t.conn.current = t.conn.committed) (h : 2 ≤ a.done) :
    (⟨(t.log host a).conn.committed, (t.log host a).prevHash⟩ : AuditTrail) =
      a.call.append host ⟨t.conn.committed, t.prevHash⟩ := by
  rw [log_returns h, hidle]
  rfl

lemma done_cases (a : Attempt LogCall) : a.done = 0 ∨ a.done = 1 ∨ 2 ≤ a.done := by omega

lemma current_log : t.conn.current <+: (t.log host a).conn.current := by
  rcases done_cases a with h | h | h
  · rw [log_insert_raises h]
  · rw [log_commit_raises h]
    exact List.prefix_append _ _
  · rw [log_returns h]
    exact List.prefix_append _ _

/-! ### Runs -/

/-- The rows `pending` are not committed, and the hash in memory is that of the last committed
row. -/
structure Behind (host : Host) (t : LiveTrail) (pending : List AuditRow) : Prop where
  current : t.conn.current = t.conn.committed ++ pending
  head : t.prevHash = getLastHash t.conn.committed
  hashed : ∀ row ∈ pending, chainHash host t.prevHash row = row.chainHash

lemma behind_init : Behind host (init rows) [] where
  current := (List.append_nil rows).symm
  head := rfl
  hashed := fun _ h => (by cases h)

lemma Behind.commit_raises (h : Behind host t pending) (ha : a.done = 1) :
    Behind host (t.log host a) (pending ++ [t.newRow host a]) := by
  rw [log_commit_raises ha]
  constructor
  · rw [h.current, List.append_assoc]
  · exact h.head
  · intro row hrow
    rcases List.mem_append.mp hrow with hrow | hrow
    · exact h.hashed row hrow
    · rw [List.mem_singleton.mp hrow]
      exact newRow_hashed

lemma behind_of_returns (ha : 2 ≤ a.done) : Behind host (t.log host a) [] := by
  rw [log_returns ha]
  constructor
  · exact (List.append_nil _).symm
  · exact getLastHash_concat.symm
  · exact fun _ hrow => (by cases hrow)

/-- No call returns after one whose commit raised. -/
def Clean (as : List (Attempt LogCall)) : Prop :=
  as.Pairwise fun a b => a.done = 1 → b.done < 2

lemma clean_concat : Clean (as ++ [a]) ↔ Clean as ∧ ∀ b ∈ as, b.done = 1 → a.done < 2 := by
  rw [Clean, List.pairwise_append]
  simp [Clean]

lemma none_raised (hlast : ∀ b ∈ as, b.done = 1 → a.done < 2) (ha : 2 ≤ a.done) :
    ∀ b ∈ as, b.done ≠ 1 := by
  intro b hb hb1
  have hlt := hlast b hb hb1
  omega

lemma session_behind (host : Host) (rows : List AuditRow) (h : Clean as) :
    ∃ pending, Behind host (session host rows as) pending ∧
      (pending = [] ↔ ∀ a ∈ as, a.done ≠ 1) := by
  induction as using List.reverseRecOn with
  | nil => exact ⟨[], behind_init, by simp⟩
  | append_singleton as a ih =>
    obtain ⟨hclean, hlast⟩ := clean_concat.mp h
    obtain ⟨pending, hbehind, hnil⟩ := ih hclean
    rw [session_concat]
    rcases done_cases a with ha | ha | ha
    · rw [log_insert_raises ha]
      exact ⟨pending, hbehind, by simp [hnil, ha, or_imp, forall_and]⟩
    · exact ⟨_, hbehind.commit_raises ha, by simp [ha, or_imp, forall_and]⟩
    · have ha1 : a.done ≠ 1 := by omega
      refine ⟨[], behind_of_returns ha, ?_⟩
      simpa [or_imp, forall_and, ha1] using none_raised hlast ha

/-- What is committed after each call passes `verify_integrity`. -/
def CommittedVerify (host : Host) (rows : List AuditRow) (as : List (Attempt LogCall)) : Prop :=
  ∀ pre, pre <+: as → verifyIntegrity host (session host rows pre).conn.committed =
    (true, (session host rows pre).conn.committed.length)

lemma session_verifies (hrows : verifyIntegrity host rows = (true, rows.length))
    (h : Clean as) : verifyIntegrity host (session host rows as).conn.committed =
      (true, (session host rows as).conn.committed.length) := by
  induction as using List.reverseRecOn with
  | nil => exact hrows
  | append_singleton as a ih =>
    obtain ⟨hclean, hlast⟩ := clean_concat.mp h
    have hver := ih hclean
    rw [session_concat]
    rcases done_cases a with ha | ha | ha
    · rw [log_insert_raises ha]
      exact hver
    · rw [log_commit_raises ha]
      exact hver
    · obtain ⟨pending, hbehind, hnil⟩ := session_behind host rows hclean
      rw [hnil.mpr (none_raised hlast ha)] at hbehind
      rw [log_returns ha, hbehind.current, List.append_nil]
      exact verifyIntegrity_concat hver (hbehind.head ▸ newRow_hashed)

/-! ### Rows hashed after the same row -/

/-- No two different inputs have one digest, among those made of a row and of a stored hash of the
log. -/
def CollisionFree (host : Host) (rows : List AuditRow) : Prop :=
  ∀ k ∈ genesis :: rows.map AuditRow.chainHash, ∀ l ∈ genesis :: rows.map AuditRow.chainHash,
    ∀ r ∈ rows, ∀ s ∈ rows,
      host.sha256 (encode (chainInput k r)) = host.sha256 (encode (chainInput l s)) →
        chainInput k r = chainInput l s

lemma CollisionFree.mono {A B : List AuditRow} (h : CollisionFree host B) (hAB : A <+: B) :
    CollisionFree host A := by
  have hrow : A ⊆ B := hAB.subset
  have hlink : genesis :: A.map AuditRow.chainHash ⊆ genesis :: B.map AuditRow.chainHash :=
    List.cons_subset_cons _ (List.map_subset _ hrow)
  intro k hk l hl r hr s hs
  exact h k (hlink hk) l (hlink hl) r (hrow hr) s (hrow hs)

/-- A hash that can stand before a row. -/
def IsLink (k : String) : Prop := k = genesis ∨ ∃ b : Bytes, b.length = 32 ∧ k = toHex b

lemma hexDigit_ne_g : ∀ d < 16, hexDigit d ≠ 'g' := by decide

lemma g_notMem_toHex (b : Bytes) : 'g' ∉ (toHex b).toList := by
  rw [toHex, String.toList_ofList, List.mem_flatMap]
  rintro ⟨x, -, hx⟩
  have hlt : x.toNat < 256 := x.toNat_lt
  rcases List.mem_cons.mp hx with hx | hx
  · exact hexDigit_ne_g _ (by omega) hx.symm
  · exact hexDigit_ne_g _ (by omega) (List.mem_singleton.mp hx).symm

/-- A digest does not begin like the text that stands before the first row. -/
lemma genesis_append_ne {b : Bytes} (hb : b.length = 32) (s t : String) :
    genesis ++ s ≠ toHex b ++ t := by
  intro h
  have hchars := congrArg String.toList h
  rw [String.toList_append, String.toList_append] at hchars
  have hne : (toHex b).toList ≠ [] := by
    rw [← List.length_pos_iff, String.length_toList, toHex_length]
    omega
  obtain ⟨c, cs, hcs⟩ := List.exists_cons_of_ne_nil hne
  rw [hcs, genesis] at hchars
  have hc : 'g' = c := (List.cons.inj hchars).1
  apply g_notMem_toHex b
  rw [hcs, hc]
  exact List.mem_cons_self

lemma IsLink.eq_of_append {k l s t : String} (hk : IsLink k) (hl : IsLink l)
    (h : k ++ s = l ++ t) : k = l := by
  rcases hk with rfl | ⟨b, hb, rfl⟩
  · rcases hl with rfl | ⟨c, hc, rfl⟩
    · rfl
    · exact absurd h (genesis_append_ne hc s t)
  · rcases hl with rfl | ⟨c, hc, rfl⟩
    · exact absurd h.symm (genesis_append_ne hb t s)
    · have hchars := congrArg String.toList h
      rw [String.toList_append, String.toList_append] at hchars
      have hlen : (toHex b).toList.length = (toHex c).toList.length := by
        rw [String.length_toList, String.length_toList, toHex_length, toHex_length, hb, hc]
      exact String.toList_inj.mp (List.append_inj hchars hlen).1

section Collision

variable (hsha : ∀ b, (host.sha256 b).length = 32)
  (hver : verifyIntegrity host rows = (true, rows.length)) (hfree : CollisionFree host rows)

include hsha hver

lemma isLink_of_mem {k : String} (hk : k ∈ genesis :: rows.map AuditRow.chainHash) : IsLink k := by
  rcases List.mem_cons.mp hk with hk | hk
  · exact Or.inl hk
  · obtain ⟨r, hr, rfl⟩ := List.mem_map.mp hk
    obtain ⟨p, hp, rfl⟩ := mem_entries_link (k := genesis) hr
    right
    use host.sha256 (encode (chainInput p.1 p.2)), hsha _
    exact (verifyIntegrity_iff.mp hver p hp).symm

include hfree

lemma link_eq {k l : String} (hk : k ∈ genesis :: rows.map AuditRow.chainHash)
    (hl : l ∈ genesis :: rows.map AuditRow.chainHash) {r s : AuditRow} (hr : r ∈ rows)
    (hs : s ∈ rows) (h : chainHash host k r = chainHash host l s) : k = l := by
  have hinput := hfree k hk l hl r hr s hs (toHex_injective h)
  exact (isLink_of_mem hsha hver hk).eq_of_append (isLink_of_mem hsha hver hl) hinput

lemma chainHash_ne : ∀ p ∈ chained rows, p.2.chainHash ≠ p.1 := by
  apply link_ne_of_mem AuditRow.chainHash (chainHash host) (verifyIntegrity_iff.mp hver)
  · intro p hp q hq
    obtain ⟨hp1, hp2⟩ := mem_entries _ hp
    obtain ⟨hq1, hq2⟩ := mem_entries _ hq
    exact link_eq hsha hver hfree hp1 hq1 hp2 hq2
  · intro r hr hgen
    have hlen := chainHash_length hsha (congrArg Prod.fst hver) hr
    rw [hgen] at hlen
    exact absurd hlen (by decide)

/-- In a log that verifies, no row is hashed after the row two places before it. -/
lemma not_hashed_twice {A B : List AuditRow} {r s : AuditRow} (hrows : rows = A ++ r :: s :: B)
    (hs : chainHash host (getLastHash A) s = s.chainHash) : False := by
  have hentries : chained rows = chained A ++ (getLastHash A, r) :: (r.chainHash, s) ::
      entries AuditRow.chainHash s.chainHash B := by
    rw [hrows, chained, entries_append, lastLink_eq]
    rfl
  have hr : (getLastHash A, r) ∈ chained rows := by simp [hentries]
  have hnext : (r.chainHash, s) ∈ chained rows := by simp [hentries]
  obtain ⟨hr1, -⟩ := mem_entries _ hr
  obtain ⟨hs1, hs2⟩ := mem_entries _ hnext
  have hstored : chainHash host r.chainHash s = s.chainHash := verifyIntegrity_iff.mp hver _ hnext
  have hsame := link_eq hsha hver hfree hs1 hr1 hs2 hs2 (hstored.trans hs.symm)
  exact chainHash_ne hsha hver hfree _ hr hsame

end Collision

/-- The rows that a call commits after a failed commit do not verify. -/
lemma Behind.breaks (hsha : ∀ b, (host.sha256 b).length = 32) (h : Behind host t pending)
    (hpending : pending ≠ []) (ha : 2 ≤ a.done)
    (hfree : CollisionFree host (t.log host a).conn.current) :
    verifyIntegrity host (t.log host a).conn.committed ≠
      (true, (t.log host a).conn.committed.length) := by
  intro hver
  have hhashed : ∀ row ∈ pending ++ [t.newRow host a],
      chainHash host (getLastHash t.conn.committed) row = row.chainHash := by
    intro row hrow
    rw [← h.head]
    rcases List.mem_append.mp hrow with hrow | hrow
    · exact h.hashed row hrow
    · rw [List.mem_singleton.mp hrow]
      exact newRow_hashed
  rw [log_returns ha, h.current, List.append_assoc] at hver hfree
  obtain ⟨r, rest, rfl⟩ := List.exists_cons_of_ne_nil hpending
  obtain ⟨s, B, hsB⟩ := List.exists_cons_of_ne_nil (List.concat_ne_nil (t.newRow host a) rest)
  rw [List.cons_append, hsB] at hver hfree hhashed
  exact not_hashed_twice hsha hver hfree rfl (hhashed s (by simp))

lemma clean_of_committedVerify (hsha : ∀ b, (host.sha256 b).length = 32)
    (hfree : CollisionFree host (session host rows as).conn.current)
    (h : CommittedVerify host rows as) : Clean as := by
  induction as using List.reverseRecOn with
  | nil => exact List.Pairwise.nil
  | append_singleton as a ih =>
    rw [session_concat] at hfree
    have hclean := ih (hfree.mono current_log)
      (fun pre hpre => h pre (hpre.trans (List.prefix_append as [a])))
    rw [clean_concat]
    refine ⟨hclean, fun b hb hb1 => ?_⟩
    by_contra hreturns
    obtain ⟨pending, hbehind, hnil⟩ := session_behind host rows hclean
    have hpending : pending ≠ [] := fun hp => hnil.mp hp b hb hb1
    have hver := h (as ++ [a]) List.prefix_rfl
    rw [session_concat] at hver
    exact hbehind.breaks hsha hpending (by omega) hfree hver

/-- Every set of rows that becomes committed verifies when those that the instance found do and no
call returns after one whose commit raised. Without hash collisions, only then. -/
theorem committedVerify_iff (host : Host) (rows : List AuditRow) (as : List (Attempt LogCall)) :
    (verifyIntegrity host rows = (true, rows.length) ∧ Clean as →
      CommittedVerify host rows as) ∧
    ((∀ b, (host.sha256 b).length = 32) →
      CollisionFree host (session host rows as).conn.current → CommittedVerify host rows as →
        verifyIntegrity host rows = (true, rows.length) ∧ Clean as) := by
  constructor
  · rintro ⟨hrows, hclean⟩ pre hpre
    exact session_verifies hrows (List.Pairwise.sublist hpre.sublist hclean)
  · intro hsha hfree h
    exact ⟨h [] List.nil_prefix, clean_of_committedVerify hsha hfree h⟩

/-- An `INSERT` that raises, a call that returns, and a commit that raises with no call after it. -/
def harmlessFailures : List (Attempt LogCall) :=
  [⟨⟨Sample.zero, "fl.org.block", "admin", some "x", none⟩, 0⟩,
   ⟨⟨Sample.zero, "fl.org.block", "admin", some "x", none⟩, 2⟩,
   ⟨⟨Sample.zero, "fl.org.unblock", "admin", some "x", none⟩, 1⟩]

theorem committedVerify_harmlessFailures : CommittedVerify Sample.host [] harmlessFailures :=
  (committedVerify_iff Sample.host [] harmlessFailures).1
    ⟨by decide +kernel, by simp [Clean, harmlessFailures]⟩

/-- The commit of the first call raises. The second call returns. -/
def lostCommit : List (Attempt LogCall) :=
  [⟨⟨Sample.zero, "fl.org.block", "admin", some "x", none⟩, 1⟩,
   ⟨⟨Sample.zero, "fl.org.unblock", "admin", some "x", none⟩, 2⟩]

/-- The second of the two rows does not verify. -/
theorem lostCommit_breaks_chain : ¬∀ as, CommittedVerify Sample.host [] as := by
  intro h
  have hver := congrArg Prod.fst (h lostCommit lostCommit List.prefix_rfl)
  have hbroken :
      verifyIntegrity Sample.host (session Sample.host [] lostCommit).conn.committed =
        (false, 1) := by decide +kernel
  rw [hbroken] at hver
  cases hver

end LiveTrail

end FlCoordinator
