import FlCoordinator.Lib.Python
import Mathlib.Data.Int.Log
import Mathlib.Order.Monotone.Odd

/-!
# Doubles

Rounding to binary floats of a given precision, halves to even, and the interpreter that computes
in doubles.
-/

namespace Lib

namespace Binary

/-! ### Nearest integers -/

/-- The nearest integer, halves to even. -/
def nearest (q : ℚ) : ℤ :=
  if q - ⌊q⌋ < 1 / 2 then ⌊q⌋
  else if 1 / 2 < q - ⌊q⌋ then ⌊q⌋ + 1
  else if Even ⌊q⌋ then ⌊q⌋ else ⌊q⌋ + 1

/-- The integer is closest to the number, or one of two and even. -/
def IsNearest (n : ℤ) (q : ℚ) : Prop := |n - q| < 1 / 2 ∨ |n - q| = 1 / 2 ∧ Even n

lemma isNearest_nearest (q : ℚ) : IsNearest (nearest q) q := by
  have hlow := Int.floor_le q
  have hhigh := Int.lt_floor_add_one q
  unfold nearest IsNearest
  split_ifs with hdown hup heven
  · left
    rw [abs_lt]
    constructor <;> linarith
  · left
    push_cast
    rw [abs_lt]
    constructor <;> linarith
  · right
    refine ⟨?_, heven⟩
    rw [abs_of_nonpos (by linarith)]
    linarith
  · right
    push_cast
    refine ⟨?_, (Int.not_even_iff_odd.mp heven).add_one⟩
    rw [abs_of_nonneg (by linarith)]
    linarith

lemma IsNearest.near {n : ℤ} {q : ℚ} (h : IsNearest n q) : |n - q| ≤ 1 / 2 :=
  h.elim le_of_lt (fun h => h.1.le)

lemma IsNearest.unique {n m : ℤ} {q : ℚ} (hn : IsNearest n q) (hm : IsNearest m q) : n = m := by
  have hclose : |(n : ℚ) - m| ≤ |n - q| + |m - q| := by
    calc |(n : ℚ) - m| = |(n - q) - (m - q)| := by ring_nf
      _ ≤ |n - q| + |m - q| := abs_sub _ _
  have hstep : |(n : ℚ) - m| < 1 ∨ |(n : ℚ) - m| ≤ 1 ∧ Even n ∧ Even m := by
    rcases hn with hn | ⟨hn, hnEven⟩
    · left
      linarith [hm.near]
    · rcases hm with hm | ⟨hm, hmEven⟩
      · left
        linarith
      · exact .inr ⟨by linarith, hnEven, hmEven⟩
  rcases hstep with h | ⟨h, ⟨a, ha⟩, b, hb⟩
  · have h : |n - m| < 1 := by exact_mod_cast h
    have := abs_lt.mp h
    omega
  · have h : |n - m| ≤ 1 := by exact_mod_cast h
    have := abs_le.mp h
    omega

lemma nearest_eq {n : ℤ} {q : ℚ} (h : IsNearest n q) : nearest q = n :=
  (isNearest_nearest q).unique h

@[simp] lemma nearest_intCast (n : ℤ) : nearest n = n := nearest_eq (.inl (by simp))

lemma nearest_neg (q : ℚ) : nearest (-q) = -nearest q := by
  have hdist : |((-nearest q : ℤ) : ℚ) - -q| = |nearest q - q| := by
    rw [← abs_neg]
    push_cast
    ring_nf
  apply nearest_eq
  rcases isNearest_nearest q with h | ⟨h, heven⟩
  · exact .inl (hdist.trans_lt h)
  · exact .inr ⟨hdist.trans h, heven.neg⟩

lemma nearest_mono : Monotone nearest := by
  intro x y hxy
  by_contra hlt
  have hx := (abs_le.mp (isNearest_nearest x).near).2
  have hy := (abs_le.mp (isNearest_nearest y).near).1
  have hstep : ((nearest y : ℤ) : ℚ) + 1 ≤ nearest x := by exact_mod_cast not_le.mp hlt
  have heq : x = y := by linarith
  exact hlt (heq ▸ le_refl _)

lemma nearest_near {q u : ℚ} (hu : 0 < u) : |nearest (q / u) * u - q| ≤ u / 2 := by
  have hscale : nearest (q / u) * u - q = (nearest (q / u) - q / u) * u := by
    rw [sub_mul, div_mul_cancel₀ _ hu.ne']
  rw [hscale, abs_mul, abs_of_pos hu]
  linarith [mul_le_mul_of_nonneg_right (isNearest_nearest (q / u)).near hu.le]

/-! ### Rounding -/

section Rounding

variable (p : ℕ) (e : ℤ)

/-- The exponent of the last of `p` digits, which is `e` at least. -/
def place (q : ℚ) : ℤ := max (Int.log 2 |q| + 1 - p) e

/-- The nearest float with `p` digits and exponents from `e` on. -/
def round (q : ℚ) : ℚ := nearest (q / 2 ^ place p e q) * 2 ^ place p e q

variable {p e}

lemma unit_pos (k : ℤ) : (0 : ℚ) < 2 ^ k := by positivity

@[simp] lemma place_neg (q : ℚ) : place p e (-q) = place p e q := by rw [place, abs_neg, place]

lemma round_neg (q : ℚ) : round p e (-q) = -round p e q := by
  rw [round, place_neg, neg_div, nearest_neg, round]
  push_cast
  ring

lemma round_near (q : ℚ) : |round p e q - q| ≤ 2 ^ place p e q / 2 := nearest_near (unit_pos _)

lemma le_round {n : ℤ} {q : ℚ} (h : n * 2 ^ place p e q ≤ q) :
    n * 2 ^ place p e q ≤ round p e q := by
  have hunit := unit_pos (place p e q)
  have hmono := nearest_mono ((le_div_iff₀ hunit).mpr h)
  rw [nearest_intCast] at hmono
  exact mul_le_mul_of_nonneg_right (by exact_mod_cast hmono) hunit.le

lemma round_le {n : ℤ} {q : ℚ} (h : q ≤ n * 2 ^ place p e q) :
    round p e q ≤ n * 2 ^ place p e q := by
  have hunit := unit_pos (place p e q)
  have hmono := nearest_mono ((div_le_iff₀ hunit).mpr h)
  rw [nearest_intCast] at hmono
  exact mul_le_mul_of_nonneg_right (by exact_mod_cast hmono) hunit.le

lemma round_of_multiple {n : ℤ} {q : ℚ} (h : q = n * 2 ^ place p e q) : round p e q = q :=
  le_antisymm ((round_le h.le).trans h.ge) (h.le.trans (le_round h.ge))

@[simp] lemma round_zero : round p e 0 = 0 := round_of_multiple (n := 0) (by simp)

lemma round_nonneg {q : ℚ} (h : 0 ≤ q) : 0 ≤ round p e q := by
  simpa using le_round (p := p) (e := e) (n := 0) (q := q) (by simpa using h)

lemma round_eq_of_near {n : ℤ} {q : ℚ} (h : |q - n * 2 ^ place p e q| < 2 ^ place p e q / 2) :
    round p e q = n * 2 ^ place p e q := by
  have hunit := unit_pos (place p e q)
  have hscale : (n : ℚ) - q / 2 ^ place p e q =
      -(q - n * 2 ^ place p e q) / 2 ^ place p e q := by
    field_simp
    ring
  have hint : nearest (q / 2 ^ place p e q) = n := by
    apply nearest_eq
    left
    rw [hscale, abs_div, abs_neg, abs_of_pos hunit, div_lt_iff₀ hunit]
    linarith
  rw [round, hint]

lemma zpow_eq_multiple {k l : ℤ} (h : k ≤ l) : ∃ n : ℤ, (2 : ℚ) ^ l = n * 2 ^ k := by
  refine ⟨2 ^ (l - k).toNat, ?_⟩
  push_cast
  rw [← zpow_natCast, Int.toNat_of_nonneg (by omega), ← zpow_add₀ (by norm_num)]
  congr 1
  omega

/-- Where the larger number has fewer places, a power of two separates the two. -/
lemma log_lt_of_place_lt (hp : 0 < p) {x y : ℚ} (hx : 0 < x) (hy : 0 < y)
    (h : place p e x < place p e y) : Int.log 2 x < Int.log 2 y ∧ place p e y ≤ Int.log 2 y := by
  rw [place, place, abs_of_pos hx, abs_of_pos hy] at h
  rw [place, abs_of_pos hy]
  omega

lemma lt_two_zpow_log {x y : ℚ} (h : Int.log 2 x < Int.log 2 y) : x < 2 ^ Int.log 2 y :=
  (Int.lt_zpow_succ_log_self (by norm_num) x).trans_le (zpow_le_zpow_right₀ (by norm_num) h)

lemma round_mono_of_pos (hp : 0 < p) {x y : ℚ} (hx : 0 < x) (hxy : x ≤ y) :
    round p e x ≤ round p e y := by
  have hy := hx.trans_le hxy
  have hlog := Int.log_mono_right (b := 2) hx hxy
  have hplace : place p e x ≤ place p e y := by
    rw [place, place, abs_of_pos hx, abs_of_pos hy]
    omega
  rcases hplace.eq_or_lt with hsame | hless
  · have hmono := nearest_mono (div_le_div_of_nonneg_right hxy (unit_pos (place p e y)).le)
    rw [round, round, hsame]
    exact mul_le_mul_of_nonneg_right (by exact_mod_cast hmono) (unit_pos _).le
  · obtain ⟨hlog, hunit⟩ := log_lt_of_place_lt hp hx hy hless
    obtain ⟨n, hn⟩ := zpow_eq_multiple (hplace.trans hunit)
    obtain ⟨m, hm⟩ := zpow_eq_multiple hunit
    have hley : (2 : ℚ) ^ Int.log 2 y ≤ y := Int.zpow_log_le_self (by norm_num) hy
    calc round p e x ≤ n * 2 ^ place p e x := round_le (hn ▸ (lt_two_zpow_log hlog).le)
      _ = m * 2 ^ place p e y := hn.symm.trans hm
      _ ≤ round p e y := le_round (hm ▸ hley)

theorem round_mono (hp : 0 < p) : Monotone (round p e) := by
  refine monotone_of_odd_of_monotoneOn_nonneg round_neg fun x hx y hy hxy => ?_
  rcases (Set.mem_Ici.mp hx).eq_or_lt with rfl | hpos
  · rw [round_zero]
    exact round_nonneg hxy
  · exact round_mono_of_pos hp hpos hxy

/-! ### Floats -/

/-- A multiple of the unit in its last place. -/
def IsFloat (p : ℕ) (e : ℤ) (r : ℚ) : Prop := ∃ n : ℤ, r = n * 2 ^ place p e r

lemma IsFloat.neg {r : ℚ} (h : IsFloat p e r) : IsFloat p e (-r) := by
  obtain ⟨n, hn⟩ := h
  refine ⟨-n, ?_⟩
  rw [place_neg]
  push_cast
  linarith

lemma IsFloat.abs {r : ℚ} (h : IsFloat p e r) : IsFloat p e |r| := by
  rcases abs_choice r with habs | habs
  · rwa [habs]
  · rw [habs]
    exact h.neg

lemma lt_unit (q : ℚ) : |q| < 2 ^ p * 2 ^ place p e q := by
  rw [← zpow_natCast, ← zpow_add₀ (by norm_num)]
  refine (Int.lt_zpow_succ_log_self (b := 2) (by norm_num) |q|).trans_le ?_
  apply zpow_le_zpow_right₀ (by norm_num)
  rw [place]
  omega

/-- Rounding does not leave the places of the argument, unless it arrives at a power of two. -/
lemma isFloat_round_of_nonneg (hp : 0 < p) {q : ℚ} (hq : 0 ≤ q) : IsFloat p e (round p e q) := by
  by_cases hplace : place p e (round p e q) ≤ place p e q
  · obtain ⟨m, hm⟩ := zpow_eq_multiple hplace
    refine ⟨nearest (q / 2 ^ place p e q) * m, ?_⟩
    rw [Int.cast_mul, mul_assoc, ← hm, ← round]
  · rcases (round_nonneg hq).eq_or_lt with hzero | hpos
    · exact ⟨0, by rw [← hzero]; simp⟩
    have hle : round p e q ≤ 2 ^ (place p e q + p) := by
      have h := round_le (p := p) (e := e) (n := 2 ^ p) (q := q)
        (by push_cast; exact (le_abs_self q).trans (lt_unit q).le)
      push_cast at h
      rwa [zpow_add₀ (by norm_num), zpow_natCast, mul_comm]
    have hlog : place p e q + p ≤ Int.log 2 (round p e q) := by
      rw [place, abs_of_pos hpos] at hplace
      have hleast : e ≤ place p e q := le_max_right _ _
      omega
    have heq : round p e q = 2 ^ (place p e q + p) :=
      le_antisymm hle ((Int.zpow_le_iff_le_log (by norm_num) hpos).mpr hlog)
    have hunit : place p e (round p e q) ≤ place p e q + p := by
      have hleast : e ≤ place p e q := le_max_right _ _
      have hexact : Int.log 2 (round p e q) = place p e q + p := by
        rw [heq]
        simpa using Int.log_zpow (R := ℚ) (b := 2) (by norm_num) (place p e q + p)
      have hunfold : place p e (round p e q) = max (Int.log 2 (round p e q) + 1 - p) e := by
        rw [place, abs_of_pos hpos]
      omega
    obtain ⟨m, hm⟩ := zpow_eq_multiple hunit
    exact ⟨m, heq.trans hm⟩

lemma isFloat_round (hp : 0 < p) (q : ℚ) : IsFloat p e (round p e q) := by
  rcases le_total 0 q with hq | hq
  · exact isFloat_round_of_nonneg hp hq
  · have h := (isFloat_round_of_nonneg (e := e) hp (neg_nonneg.mpr hq)).neg
    rwa [round_neg, neg_neg] at h

/-- With fewer places, the number would have the next float between itself and `r`. -/
lemma place_le_of_close (hp : 0 < p) {r d : ℚ} (hr : IsFloat p e r) (h0 : 0 < r)
    (h : |d - r| * 2 ^ (p + 1) < d) : place p e d ≤ place p e r := by
  have hd : 0 < d := lt_of_le_of_lt (by positivity) h
  have hunit := unit_pos (place p e r)
  obtain ⟨n, hn⟩ := hr
  by_contra hlt
  obtain ⟨hlog, hplace⟩ := log_lt_of_place_lt hp h0 hd (not_le.mp hlt)
  obtain ⟨k, hk⟩ := zpow_eq_multiple ((not_le.mp hlt).le.trans hplace)
  have hpow : (2 : ℚ) ^ Int.log 2 d ≤ d := Int.zpow_log_le_self (by norm_num) hd
  have hnk : n + 1 ≤ k := by
    have hless : n * (2 : ℚ) ^ place p e r < k * 2 ^ place p e r := by
      rw [← hk, ← hn]
      exact lt_two_zpow_log hlog
    exact_mod_cast lt_of_mul_lt_mul_right hless hunit.le
  have hnext : r + 2 ^ place p e r ≤ d := by
    calc r + 2 ^ place p e r = (n + 1 : ℤ) * 2 ^ place p e r := by
          push_cast
          linarith
      _ ≤ k * 2 ^ place p e r := mul_le_mul_of_nonneg_right (by exact_mod_cast hnk) hunit.le
      _ ≤ d := by rwa [← hk]
  have hsize := lt_unit (p := p) (e := e) r
  rw [abs_of_pos h0] at hsize
  rw [abs_of_nonneg (by linarith), pow_succ] at h
  have hgap : 2 ^ place p e r ≤ d - r := by linarith
  have hscaled := mul_le_mul_of_nonneg_left hgap (by positivity : (0 : ℚ) ≤ 2 ^ p)
  have hself : d - r ≤ 2 ^ p * (d - r) :=
    le_mul_of_one_le_left (by linarith) (one_le_pow₀ (by norm_num))
  linarith

/-- A number rounds to a float that is as close as this. -/
theorem round_eq_of_close (hp : 0 < p) {r d : ℚ} (hr : IsFloat p e r) (h0 : 0 < r)
    (h : |d - r| * 2 ^ (p + 1) < d) : round p e d = r := by
  have hd : 0 < d := lt_of_le_of_lt (by positivity) h
  obtain ⟨m, hm⟩ := zpow_eq_multiple (place_le_of_close hp hr h0 h)
  obtain ⟨n, hn⟩ := hr
  have hmul : r = (n * m : ℤ) * 2 ^ place p e d := by
    push_cast
    rw [mul_assoc, ← hm]
    exact hn
  have hnear : |d - r| < 2 ^ place p e d / 2 := by
    have hsize := lt_unit (p := p) (e := e) d
    rw [abs_of_pos hd] at hsize
    have hscaled : 2 ^ p * (|d - r| * 2) < 2 ^ p * 2 ^ place p e d := by
      calc 2 ^ p * (|d - r| * 2) = |d - r| * 2 ^ (p + 1) := by ring
        _ < 2 ^ p * 2 ^ place p e d := h.trans hsize
    linarith [lt_of_mul_lt_mul_left hscaled (by positivity)]
  rw [hmul] at hnear ⊢
  exact round_eq_of_near hnear

end Rounding

/-! ### Doubles -/

/-- Doubles have 53 digits. -/
def double (q : ℚ) : ℚ := round 53 (-1074) q

lemma double_mono : Monotone double := round_mono (by norm_num)

lemma double_near {q : ℚ} (h : |q| ≤ 4) : |double q - q| ≤ 1 / 2 ^ 52 := by
  rcases h.lt_or_eq with hlt | heq
  · have hplace : place 53 (-1074) q ≤ -51 := by
      have hlog : Int.log 2 |q| ≤ 1 := by
        rcases (abs_nonneg q).eq_or_lt with hzero | hpos
        · rw [← hzero, Int.log_zero_right]
          norm_num
        · have htwo := (Int.lt_zpow_iff_log_lt (b := 2) (x := 2) (by norm_num) hpos).mp
            (by norm_num; exact hlt)
          omega
      rw [place]
      omega
    have hunit : (2 : ℚ) ^ place 53 (-1074) q ≤ 2 ^ (-51 : ℤ) :=
      zpow_le_zpow_right₀ (by norm_num) hplace
    calc |double q - q| ≤ 2 ^ place 53 (-1074) q / 2 := round_near q
      _ ≤ 2 ^ (-51 : ℤ) / 2 := div_le_div_of_nonneg_right hunit (by norm_num)
      _ = 1 / 2 ^ 52 := by norm_num
  · have hfour : double 4 = 4 := by decide +kernel
    have hsame : double q = q := by
      rcases (abs_eq (by norm_num)).mp heq with rfl | rfl
      · exact hfour
      · rw [double, round_neg, ← double, hfour]
    rw [hsame, sub_self, abs_zero]
    positivity

/-! ### Decimals -/

/-- The exponent of the digit of `r` that comes `k` places after the first. -/
def digitPlace (r : ℚ) (k : ℕ) : ℤ := Int.log 10 |r| - k

/-- The first of the decimals next to `|r|`, of `k` digits after the first, that reads as `r`. -/
def withDigits (neg : Bool) (r : ℚ) (k : ℕ) : Option Decimal :=
  let m := |r| / 10 ^ digitPlace r k
  ([nearest m, ⌊m⌋, ⌊m⌋ + 1].map fun n => Decimal.ofParts neg n.toNat (digitPlace r k)).find?
    fun d => double d.toRat = r

/-- Seventeen digits tell two doubles apart. -/
def seventeenDigits (neg : Bool) (r : ℚ) : Decimal :=
  Decimal.ofParts neg (nearest (|r| / 10 ^ digitPlace r 16)).toNat (digitPlace r 16)

/-- The shortest decimal that reads as `r`. -/
def shortest (neg : Bool) (r : ℚ) : Decimal :=
  ((List.range 16).findSome? (withDigits neg r)).getD (seventeenDigits neg r)

/-- `repr` of a float. -/
def repr (neg : Bool) (r : ℚ) : PyFloat :=
  if r = 0 then .fin (Decimal.ofParts neg 0 0)
  else if 2 ^ 1024 ≤ |r| then .inf neg
  else .fin (shortest neg r)

def read (d : Decimal) : PyFloat := repr d.neg (double d.toRat)

/-- One addition of `sum`, which keeps what was rounded away. -/
def addKeeping (s : ℚ × ℚ) (x : ℚ) : ℚ × ℚ :=
  let t := double (s.1 + x)
  (t, double (s.2 + if |x| ≤ |s.1| then double (double (s.1 - t) + x)
    else double (double (x - t) + s.1)))

/-- `sum` of floats. -/
def sum (xs : List ℚ) : ℚ :=
  let s := xs.foldl addKeeping (0, 0)
  double (s.1 + s.2)

lemma stripZeros_value (fuel m : ℕ) (k : ℤ) :
    ((stripZeros fuel m k).1 : ℚ) * 10 ^ (stripZeros fuel m k).2 = m * 10 ^ k := by
  induction fuel generalizing m k with
  | zero => rfl
  | succ fuel ih =>
    rw [stripZeros]
    split
    · rename_i hzero
      obtain ⟨c, rfl⟩ := Nat.dvd_of_mod_eq_zero hzero
      rw [ih, Nat.mul_div_cancel_left _ (by norm_num), zpow_add_one₀ (by norm_num)]
      push_cast
      ring
    · rfl

lemma ofParts_neg (neg : Bool) (m : ℕ) (k : ℤ) : (Decimal.ofParts neg m k).neg = neg := by
  unfold Decimal.ofParts
  split <;> rfl

lemma toRat_ofParts (neg : Bool) (m : ℕ) (k : ℤ) :
    (Decimal.ofParts neg m k).toRat = (if neg then -1 else 1) * (m * 10 ^ k) := by
  unfold Decimal.ofParts
  split
  · rename_i hzero
    simp [hzero, Decimal.toRat]
  · rw [Decimal.toRat, mul_assoc]
    exact congrArg _ (stripZeros_value _ _ _)

lemma double_neg (q : ℚ) : double (-q) = -double q := round_neg q

lemma double_toRat_sign (d : Decimal) :
    (if d.neg then -1 else 1) * |double d.toRat| = double d.toRat := by
  have hmag : 0 ≤ double (d.mant * 10 ^ d.exp) := round_nonneg (by positivity)
  rw [Decimal.toRat, mul_assoc]
  cases d.neg with
  | false => simp [abs_of_nonneg hmag]
  | true => simp [double_neg, abs_of_nonneg hmag]

lemma double_seventeenDigits {neg : Bool} {r : ℚ} (hr : IsFloat 53 (-1074) r) (h0 : r ≠ 0)
    (hsign : (if neg then -1 else 1) * |r| = r) : double (seventeenDigits neg r).toRat = r := by
  have hpos : 0 < |r| := abs_pos.mpr h0
  have hunit : (0 : ℚ) < 10 ^ digitPlace r 16 := by positivity
  have hdigits : 10 ^ 16 * (10 : ℚ) ^ digitPlace r 16 ≤ |r| := by
    have hlog := Int.zpow_log_le_self (b := 10) (by norm_num) hpos
    rw [← zpow_natCast, ← zpow_add₀ (by norm_num), digitPlace]
    simpa using hlog
  have hint : 0 ≤ nearest (|r| / 10 ^ digitPlace r 16) := by
    have h := nearest_mono (by positivity : ((0 : ℤ) : ℚ) ≤ |r| / 10 ^ digitPlace r 16)
    rwa [nearest_intCast] at h
  have hclose := nearest_near (q := |r|) hunit
  have hround : double (nearest (|r| / 10 ^ digitPlace r 16) * 10 ^ digitPlace r 16) = |r| := by
    refine round_eq_of_close (by norm_num) hr.abs hpos ?_
    have hlow := (abs_le.mp hclose).1
    norm_num at hdigits ⊢
    linarith
  have hcast : ((nearest (|r| / 10 ^ digitPlace r 16)).toNat : ℚ) =
      nearest (|r| / 10 ^ digitPlace r 16) := by exact_mod_cast Int.toNat_of_nonneg hint
  rw [seventeenDigits, toRat_ofParts, hcast]
  cases neg with
  | false => simpa [hround] using hsign
  | true => simpa [double_neg, hround] using hsign

lemma withDigits_some {neg : Bool} {r : ℚ} {k : ℕ} {d : Decimal}
    (h : withDigits neg r k = some d) : d.neg = neg ∧ double d.toRat = r := by
  unfold withDigits at h
  have hreads := List.find?_some h
  obtain ⟨n, -, rfl⟩ := List.mem_map.mp (List.mem_of_find?_eq_some h)
  exact ⟨ofParts_neg _ _ _, of_decide_eq_true hreads⟩

lemma shortest_reads {neg : Bool} {r : ℚ} (hr : IsFloat 53 (-1074) r) (h0 : r ≠ 0)
    (hsign : (if neg then -1 else 1) * |r| = r) :
    (shortest neg r).neg = neg ∧ double (shortest neg r).toRat = r := by
  unfold shortest
  cases h : (List.range 16).findSome? (withDigits neg r) with
  | none => exact ⟨ofParts_neg _ _ _, double_seventeenDigits hr h0 hsign⟩
  | some d =>
    obtain ⟨k, -, hk⟩ := List.exists_of_findSome?_eq_some h
    exact withDigits_some hk

/-- What is printed for a float is read as the same float. -/
theorem read_idem {d d' : Decimal} (h : read d = .fin d') : read d' = .fin d' := by
  have hfloat : IsFloat 53 (-1074) (double d.toRat) := isFloat_round (by norm_num) _
  have hreads : d'.neg = d.neg ∧ double d'.toRat = double d.toRat := by
    unfold read repr at h
    split_ifs at h with hzero hinf
    · obtain rfl := PyFloat.fin.inj h
      rw [hzero, toRat_ofParts]
      exact ⟨ofParts_neg _ _ _, by simp [double]⟩
    · obtain rfl := PyFloat.fin.inj h
      exact shortest_reads hfloat hzero (double_toRat_sign d)
  rw [read, hreads.1, hreads.2]
  exact h

end Binary

/-- CPython 3.12, on the texts that `Json.loads` reads as it does. -/
def Python.cpython : Python where
  round := Binary.double
  sum := Binary.sum
  float := Binary.read
  beyond := fun _ => none
  round_mono := Binary.double_mono
  round_near := fun _ h => Binary.double_near h
  float_idem := fun _ _ h => Binary.read_idem h
  beyond_value := fun b v h => by cases h
  beyond_text := Python.exact.beyond_text
  beyond_flat := Python.exact.beyond_flat

/-- A drop from 0.9 to 0.75 is more than 0.15, three times a fifth from 0.9 leaves less than 0.3,
and 15 of 44 parts of 44 are less than 15. -/
example :
    let round := Python.cpython.round
    round (15 / 100) < round (round (9 / 10) - round (3 / 4)) ∧
      round (round (round (round (9 / 10) - round (1 / 5)) - round (1 / 5)) - round (1 / 5)) <
        round (3 / 10) ∧
      round (44 * round (15 / 44)) < 15 := by
  decide +kernel

/-- `0.10000000000000000001` is read as 0.1, and `1e999` as infinity. -/
example :
    Python.cpython.float (Decimal.ofParts false 10000000000000000001 (-20)) =
        .fin (Decimal.ofParts false 1 (-1)) ∧
      Python.cpython.float (Decimal.ofParts false 1 999) = .inf false := by
  decide +kernel

end Lib
