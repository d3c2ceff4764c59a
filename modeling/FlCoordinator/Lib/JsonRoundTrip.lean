import FlCoordinator.Lib.JsonText

/-!
# Parsing printed JSON

`loads` reads back every value that `dumps` wrote, for values whose dicts have distinct keys.
The proof follows the printer: digits, floats, string literals, then values by recursion, each
with arbitrary text after it that cannot extend the token.
-/

namespace Lib

namespace Json

/-! ### Digits -/

/-- The text does not continue a run of digits. -/
def NoDigit (cs : List Char) : Prop := ∀ c ∈ cs.head?, c.isDigit = false

/-- The text does not continue a number. -/
def EndsNumber (cs : List Char) : Prop :=
  ∀ c ∈ cs.head?, c.isDigit = false ∧ c ≠ '.' ∧ c ≠ 'e' ∧ c ≠ 'E'

lemma EndsNumber.noDigit {cs : List Char} (h : EndsNumber cs) : NoDigit cs :=
  fun c hc => (h c hc).1

lemma endsNumber_nil : EndsNumber [] := by simp [EndsNumber]

lemma endsNumber_cons {c : Char} {cs : List Char} (h : c = ',' ∨ c = ']' ∨ c = '}') :
    EndsNumber (c :: cs) := by
  intro d hd
  obtain rfl : c = d := by simpa using hd
  rcases h with rfl | rfl | rfl <;> decide

lemma isDigit_digitChar : ∀ d < 10, (digitChar d).isDigit = true := by decide

lemma digitVal_digitChar : ∀ d < 10, digitVal (digitChar d) = d := by decide

lemma digitChar_eq_zero : ∀ d < 10, digitChar d = '0' → d = 0 := by decide

lemma natOfText_append (cs ds : List Char) :
    natOfText (cs ++ ds) = natOfText cs * 10 ^ ds.length + natOfText ds := by
  induction ds using List.reverseRecOn with
  | nil => simp [natOfText]
  | append_singleton ds d ih =>
    have hstep : ∀ xs : List Char, natOfText (xs ++ [d]) = 10 * natOfText xs + digitVal d := by
      intro xs
      simp [natOfText]
    rw [← List.append_assoc, hstep, hstep, ih, List.length_append, List.length_singleton, pow_succ]
    ring

lemma natOfText_zeros (k : ℕ) : natOfText (List.replicate k '0') = 0 := by
  induction k with
  | zero => rfl
  | succ k ih =>
    rw [List.replicate_succ', natOfText_append, ih]
    rfl

lemma natOfText_digits (ds : List ℕ) (h : ∀ d ∈ ds, d < 10) :
    natOfText (ds.reverse.map digitChar) = Nat.ofDigits 10 ds := by
  induction ds with
  | nil => rfl
  | cons d ds ih =>
    have hd : natOfText [digitChar d] = d := by
      simpa [natOfText] using digitVal_digitChar d (h d (by simp))
    rw [List.reverse_cons, List.map_append, List.map_singleton, natOfText_append, hd,
      ih fun x hx => h x (by simp [hx]), Nat.ofDigits_cons, List.length_singleton]
    ring

lemma natOfText_natText (n : ℕ) : natOfText (natText n) = n := by
  unfold natText
  split
  · subst n
    rfl
  · rw [natOfText_digits _ fun d hd => Nat.digits_lt_base (by omega) hd]
    exact Nat.ofDigits_digits 10 n

lemma isDigit_natText (n : ℕ) : ∀ c ∈ natText n, c.isDigit = true := by
  intro c hc
  unfold natText at hc
  split at hc
  · obtain rfl : c = '0' := by simpa using hc
    rfl
  · obtain ⟨d, hd, rfl⟩ := List.mem_map.mp hc
    exact isDigit_digitChar d (Nat.digits_lt_base (by omega) (List.mem_reverse.mp hd))

lemma natText_ne_nil (n : ℕ) : natText n ≠ [] := by
  unfold natText
  split
  · simp
  · rename_i h
    simp [Nat.digits_ne_nil_iff_ne_zero.mpr h]

lemma natText_head (n : ℕ) (hn : n ≠ 0) : (natText n).head? ≠ some '0' := by
  unfold natText
  rw [if_neg hn, List.head?_map, List.head?_reverse]
  have hne : Nat.digits 10 n ≠ [] := Nat.digits_ne_nil_iff_ne_zero.mpr hn
  rw [List.getLast?_eq_some_getLast hne]
  intro h
  have hz := digitChar_eq_zero _ (Nat.digits_lt_base (by omega) (List.getLast_mem hne))
    (Option.some.inj h)
  exact Nat.getLast_digit_ne_zero 10 hn hz

lemma takeWhile_digits {ds rest : List Char} (hds : ∀ c ∈ ds, c.isDigit = true)
    (hrest : NoDigit rest) : (ds ++ rest).takeWhile Char.isDigit = ds := by
  rw [List.takeWhile_append_of_pos hds]
  cases rest with
  | nil => simp
  | cons c rest => simp [hrest c (by simp)]

lemma dropWhile_digits {ds rest : List Char} (hds : ∀ c ∈ ds, c.isDigit = true)
    (hrest : NoDigit rest) : (ds ++ rest).dropWhile Char.isDigit = rest := by
  rw [List.dropWhile_append_of_pos hds]
  cases rest with
  | nil => simp
  | cons c rest => simp [hrest c (by simp)]

/-! ### Numbers -/

/-- A token that `scanDigits` takes whole: a zero, or digits that start with another one. -/
structure IsWhole (ds : List Char) : Prop where
  digits : ∀ c ∈ ds, c.isDigit = true
  nonempty : ds ≠ []
  zero : ds = ['0'] ∨ ds.head? ≠ some '0'

lemma isWhole_zero : IsWhole ['0'] :=
  ⟨by decide, by decide, Or.inl rfl⟩

lemma isWhole_natText (n : ℕ) : IsWhole (natText n) := by
  refine ⟨isDigit_natText n, natText_ne_nil n, ?_⟩
  by_cases hn : n = 0
  · subst hn
    exact Or.inl rfl
  · exact Or.inr (natText_head n hn)

lemma scanDigits_append {ds rest : List Char} (h : IsWhole ds) (hrest : NoDigit rest) :
    scanDigits (ds ++ rest) = (ds, rest) := by
  rcases h.zero with rfl | hz
  · rfl
  · have hhead : ∀ r, ds ++ rest ≠ '0' :: r := by
      intro r heq
      cases ds with
      | nil => exact h.nonempty rfl
      | cons c ds =>
        obtain ⟨rfl, -⟩ := List.cons.inj heq
        exact hz rfl
    rw [scanDigits.eq_2 _ hhead, takeWhile_digits h.digits hrest, dropWhile_digits h.digits hrest]

/-- The text of a fraction. -/
def fracText (fr : List Char) : List Char := if fr = [] then [] else '.' :: fr

lemma scanFrac_append (fr : List Char) {rest : List Char} (hfr : ∀ c ∈ fr, c.isDigit = true)
    (hrest : NoDigit rest) (hdot : rest.head? ≠ some '.') :
    scanFrac (fracText fr ++ rest) = (fr, rest) := by
  unfold fracText
  split
  · subst fr
    cases rest with
    | nil => rfl
    | cons c rest =>
      have hc : c ≠ '.' := by simpa using hdot
      simp [scanFrac, hc]
  · rename_i hne
    simp only [List.cons_append, scanFrac, takeWhile_digits hfr hrest, dropWhile_digits hfr hrest]
    simp [hne]

lemma scanExp_of_endsNumber {rest : List Char} (h : EndsNumber rest) :
    scanExp rest = (none, rest) := by
  cases rest with
  | nil => rfl
  | cons c rest =>
    have hc := h c (by simp)
    simp [scanExp, hc.2.2.1, hc.2.2.2]

lemma scanExp_expText (e : ℤ) {rest : List Char} (h : NoDigit rest) :
    scanExp ('e' :: (expText e ++ rest)) = (some e, rest) := by
  have hdigits : ∀ ds : List Char, (∀ c ∈ ds, c.isDigit = true) → ds ≠ [] →
      natOfText ds = e.natAbs →
      scanExp ('e' :: ((if e < 0 then '-' else '+') :: ds ++ rest)) = (some e, rest) := by
    intro ds hds hne hval
    have hsign : scanSign ((if e < 0 then '-' else '+') :: ds ++ rest) =
        (decide (e < 0), ds ++ rest) := by
      by_cases he : e < 0 <;> simp [he, scanSign]
    simp only [scanExp, hsign, takeWhile_digits hds h, dropWhile_digits hds h, hval]
    have hemp : ds.isEmpty = false := by simpa using hne
    by_cases he : e < 0
    · have habs : (e.natAbs : ℤ) = -e := by omega
      simp only [he, hemp, habs]
      simp
    · have habs : (e.natAbs : ℤ) = e := by omega
      simp only [he, hemp, habs]
      simp
  unfold expText
  by_cases hten : e.natAbs < 10
  · rw [if_pos hten]
    refine hdigits _ ?_ (by simp) ?_
    · intro c hc
      rcases List.mem_cons.mp hc with rfl | hc
      · rfl
      · exact isDigit_natText _ c hc
    · change natOfText (['0'] ++ natText e.natAbs) = e.natAbs
      rw [natOfText_append, natOfText_natText]
      simp [natOfText, digitVal]
  · rw [if_neg hten]
    exact hdigits _ (isDigit_natText _) (natText_ne_nil _) (natOfText_natText _)

lemma scanUnsigned_int (neg : Bool) {ds rest : List Char} (h : IsWhole ds)
    (hrest : EndsNumber rest) :
    scanUnsigned neg (ds ++ rest) =
      .ok (int (if neg then -(natOfText ds : ℤ) else natOfText ds), rest) := by
  have hfrac : scanFrac rest = ([], rest) :=
    scanFrac_append [] (by simp) hrest.noDigit fun hd => (hrest '.' hd).2.1 rfl
  have hemp : ds.isEmpty = false := by simpa using h.nonempty
  simp [scanUnsigned, scanDigits_append h hrest.noDigit, hfrac, scanExp_of_endsNumber hrest, hemp]

lemma scanUnsigned_float (neg : Bool) {ds fr rest : List Char} {eo : Option ℤ} (h : IsWhole ds)
    (hfr : ∀ c ∈ fr, c.isDigit = true) (hsome : fr ≠ [] ∨ eo ≠ none) (hrest : EndsNumber rest) :
    scanUnsigned neg (ds ++ (fracText fr ++ ((eo.elim [] fun e => 'e' :: expText e) ++ rest))) =
      .ok (float (.fin (.ofParts neg (natOfText (ds ++ fr)) (eo.getD 0 - fr.length))), rest) := by
  have htail : NoDigit ((eo.elim [] fun e => 'e' :: expText e) ++ rest) ∧
      ((eo.elim [] fun e => 'e' :: expText e) ++ rest).head? ≠ some '.' := by
    cases eo with
    | none => exact ⟨hrest.noDigit, fun hd => (hrest '.' hd).2.1 rfl⟩
    | some e => exact ⟨by simp [NoDigit], by simp⟩
  have hexp : scanExp ((eo.elim [] fun e => 'e' :: expText e) ++ rest) = (eo, rest) := by
    cases eo with
    | none => exact scanExp_of_endsNumber hrest
    | some e => exact scanExp_expText e hrest.noDigit
  have hnd : NoDigit (fracText fr ++ ((eo.elim [] fun e => 'e' :: expText e) ++ rest)) := by
    unfold fracText
    split
    · exact htail.1
    · simp [NoDigit]
  have hemp : ds.isEmpty = false := by simpa using h.nonempty
  have hor : ¬(fr = [] ∧ eo = none) := by tauto
  simp only [scanUnsigned, scanDigits_append h hnd, scanFrac_append _ hfr htail.1 htail.2, hexp, hemp]
  simp [hor]

lemma ofParts_mul_pow (d : Decimal) (k : ℕ) :
    Decimal.ofParts d.neg (d.mant * 10 ^ k) (d.exp - k) = d := by
  obtain ⟨neg, mant, exp, normal⟩ := d
  unfold Decimal.ofParts
  by_cases hm : mant = 0
  · subst hm
    obtain ⟨-, rfl⟩ := normal rfl
    simp
  · have hne : mant * 10 ^ k ≠ 0 := by positivity
    have hmod : mant % 10 ≠ 0 := fun h => hm (normal h).1
    have hk : k ≤ (mant * 10 ^ k).log2 + 1 := by
      have hlt : 2 ^ k ≤ mant * 10 ^ k :=
        calc 2 ^ k ≤ 10 ^ k := Nat.pow_le_pow_left (by omega) k
          _ ≤ mant * 10 ^ k := Nat.le_mul_of_pos_left _ (by omega)
      have := (Nat.le_log2 hne).mpr hlt
      omega
    rw [dif_neg hne]
    simp [stripZeros_mul_pow _ k mant _ hk hmod]

lemma ofParts_self (d : Decimal) : Decimal.ofParts d.neg d.mant d.exp = d := by
  simpa using ofParts_mul_pow d 0

/-- The body of a float token: where its digits, fraction and exponent stand. -/
structure FloatToken (d : Decimal) (body : List Char) where
  whole : List Char
  frac : List Char
  exp : Option ℤ
  isWhole : IsWhole whole
  digits : ∀ c ∈ frac, c.isDigit = true
  present : frac ≠ [] ∨ exp ≠ none
  text : body = whole ++ (fracText frac ++ (exp.elim [] fun e => 'e' :: expText e))
  value : Decimal.ofParts d.neg (natOfText (whole ++ frac)) (exp.getD 0 - frac.length) = d

lemma FloatToken.scan {d : Decimal} {body rest : List Char} (t : FloatToken d body)
    (hrest : EndsNumber rest) :
    scanUnsigned d.neg (body ++ rest) = .ok (float (.fin d), rest) := by
  have h := scanUnsigned_float d.neg t.isWhole t.digits t.present hrest
  rw [t.text]
  simp only [List.append_assoc] at h ⊢
  rw [h, t.value]

lemma isWhole_append {ds es : List Char} (h : IsWhole ds) (hds : ds ≠ ['0'])
    (hes : ∀ c ∈ es, c.isDigit = true) : IsWhole (ds ++ es) := by
  refine ⟨?_, by simp [h.nonempty], Or.inr ?_⟩
  · intro c hc
    exact (List.mem_append.mp hc).elim (h.digits c) (hes c)
  · have hhead := h.zero.resolve_left hds
    cases ds with
    | nil => exact absurd rfl h.nonempty
    | cons c ds => simpa using hhead

lemma natText_ne_zero {n : ℕ} (hn : n ≠ 0) : natText n ≠ ['0'] := by
  intro h
  exact natText_head n hn (by rw [h]; rfl)

lemma isWhole_take {n k : ℕ} (hn : n ≠ 0) (hk : 0 < k) : IsWhole ((natText n).take k) := by
  have hhead := natText_head n hn
  have hne := natText_ne_nil n
  refine ⟨fun c hc => isDigit_natText n c (List.mem_of_mem_take hc), ?_, Or.inr ?_⟩
  · simp [hne]
    omega
  · rw [List.head?_take, if_neg (by omega)]
    exact hhead

lemma fracText_ne_nil {fr : List Char} (h : fr ≠ []) : fracText fr = '.' :: fr := by
  simp [fracText, h]

lemma isDigit_replicate (k : ℕ) : ∀ c ∈ List.replicate k '0', c.isDigit = true := by
  intro c hc
  rw [List.eq_of_mem_replicate hc]
  rfl

/-- Every layout of `decimalText` is a float token that stands for the decimal. -/
lemma floatToken_decimalBody (d : Decimal) : Nonempty (FloatToken d (decimalBody d)) := by
  unfold decimalBody
  have hlen : 0 < (natText d.mant).length := List.length_pos_of_ne_nil (natText_ne_nil _)
  have hds := isDigit_natText d.mant
  by_cases hm : d.mant = 0
  · have hexp := (d.normal (by omega)).2
    refine ⟨⟨['0'], ['0'], none, isWhole_zero, by decide, by simp, ?_, ?_⟩⟩
    · simp [hm, fracText]
    · have h := ofParts_self d
      rw [hm, hexp] at h
      simpa [natOfText, digitVal, Decimal.ofParts] using h
  simp only [if_neg hm]
  split
  · split
    · -- `0.000ddd`
      rename_i hpoint
      refine ⟨⟨['0'], List.replicate (-(↑(natText d.mant).length + d.exp)).toNat '0' ++
        natText d.mant, none, isWhole_zero, ?_, by simp [natText_ne_nil], ?_, ?_⟩⟩
      · intro c hc
        exact (List.mem_append.mp hc).elim (isDigit_replicate _ c) (hds c)
      · rw [fracText_ne_nil (by simp [natText_ne_nil])]
        simp
      · have hval : natOfText (['0'] ++ (List.replicate
            (-(↑(natText d.mant).length + d.exp)).toNat '0' ++ natText d.mant)) = d.mant := by
          rw [natOfText_append, natOfText_append, natOfText_zeros, natOfText_natText]
          simp [natOfText, digitVal]
        have hlen' : (none : Option ℤ).getD 0 - ((List.replicate
            (-(↑(natText d.mant).length + d.exp)).toNat '0' ++ natText d.mant).length : ℤ) =
            d.exp := by
          rw [List.length_append, List.length_replicate]
          push_cast
          rw [Int.toNat_of_nonneg (by omega)]
          simp
        rw [hval, hlen', ofParts_self]
    · split
      · -- `ddd000.0`
        rename_i hpoint hexp
        refine ⟨⟨natText d.mant ++ List.replicate d.exp.toNat '0', ['0'], none,
          isWhole_append (isWhole_natText _) (natText_ne_zero hm) (isDigit_replicate _),
          by decide, by simp, ?_, ?_⟩⟩
        · simp [fracText]
        · have hval : natOfText (natText d.mant ++ List.replicate d.exp.toNat '0' ++ ['0']) =
              d.mant * 10 ^ (d.exp.toNat + 1) := by
            rw [natOfText_append, natOfText_append, natOfText_zeros, natOfText_natText, pow_succ,
              List.length_replicate]
            simp [natOfText, digitVal]
            ring
          have h := ofParts_mul_pow d (d.exp.toNat + 1)
          have he : d.exp - ((d.exp.toNat + 1 : ℕ) : ℤ) = (none : Option ℤ).getD 0 -
              (['0'].length : ℤ) := by
            push_cast
            rw [Int.toNat_of_nonneg hexp]
            simp
          rw [hval, ← he, h]
      · -- `dd.ddd`
        rename_i hpoint hexp
        have hk : 0 < (↑(natText d.mant).length + d.exp).toNat := by omega
        have hlt : (↑(natText d.mant).length + d.exp).toNat < (natText d.mant).length := by omega
        have hdrop : (natText d.mant).drop (↑(natText d.mant).length + d.exp).toNat ≠ [] := by
          simp
          omega
        refine ⟨⟨(natText d.mant).take (↑(natText d.mant).length + d.exp).toNat,
          (natText d.mant).drop (↑(natText d.mant).length + d.exp).toNat, none,
          isWhole_take hm hk, fun c hc => hds c (List.mem_of_mem_drop hc), Or.inl hdrop, ?_, ?_⟩⟩
        · rw [fracText_ne_nil hdrop]
          simp
        · have he : (none : Option ℤ).getD 0 - (((natText d.mant).drop
              (↑(natText d.mant).length + d.exp).toNat).length : ℤ) = d.exp := by
            rw [List.length_drop, Nat.cast_sub hlt.le, Int.toNat_of_nonneg (by omega)]
            simp
          rw [List.take_append_drop, natOfText_natText, he, ofParts_self]
  · -- `d.ddde±xx`
    have htake : IsWhole ((natText d.mant).take 1) := isWhole_take hm (by omega)
    refine ⟨⟨(natText d.mant).take 1, (natText d.mant).drop 1,
      some (↑(natText d.mant).length + d.exp - 1), htake,
      fun c hc => hds c (List.mem_of_mem_drop hc), Or.inr (by simp), ?_, ?_⟩⟩
    · have hfrac : (if (natText d.mant).length = 1 then [] else '.' :: (natText d.mant).drop 1) =
          fracText ((natText d.mant).drop 1) := by
        unfold fracText
        by_cases h1 : (natText d.mant).length = 1
        · rw [if_pos h1, if_pos (List.drop_eq_nil_of_le h1.le)]
        · rw [if_neg h1, if_neg]
          rw [List.drop_eq_nil_iff]
          omega
      rw [hfrac]
      simp
    · have he : (some (↑(natText d.mant).length + d.exp - 1)).getD 0 -
          (((natText d.mant).drop 1).length : ℤ) = d.exp := by
        rw [List.length_drop, Nat.cast_sub hlen]
        simp
      rw [List.take_append_drop, natOfText_natText, he, ofParts_self]

lemma head_isDigit {ds : List Char} (h : IsWhole ds) (tail : List Char) :
    ∃ c cs, ds ++ tail = c :: cs ∧ c.isDigit = true := by
  cases ds with
  | nil => exact absurd rfl h.nonempty
  | cons c ds => exact ⟨c, ds ++ tail, rfl, h.digits c (by simp)⟩

/-! ### Strings -/

/-- The code units of a character. -/
def charUnits (c : Char) : List ℕ :=
  if c.toNat < 65536 then [c.toNat]
  else [55296 + (c.toNat - 65536) / 1024, 56320 + (c.toNat - 65536) % 1024]

lemma hex4_hexDigit {n : ℕ} (hn : n < 65536) :
    hex4 (hexDigit (n / 4096 % 16)) (hexDigit (n / 256 % 16)) (hexDigit (n / 16 % 16))
      (hexDigit (n % 16)) = some n := by
  unfold hex4
  rw [hexValue_hexDigit _ (by omega), hexValue_hexDigit _ (by omega),
    hexValue_hexDigit _ (by omega), hexValue_hexDigit _ (by omega)]
  simp only [Option.some.injEq]
  omega

/-- Put units in front of what the rest of a literal scans to. -/
def consUnits (us : List ℕ) (o : Option (List ℕ × List Char)) : Option (List ℕ × List Char) :=
  o.map fun p => (us ++ p.1, p.2)

lemma scanUnits_unicodeEscape {n : ℕ} (hn : n < 65536) (r : List Char) :
    scanUnits (unicodeEscape n ++ r) = consUnits [n] (scanUnits r) := by
  simp only [unicodeEscape, List.cons_append, List.nil_append, scanUnits, hex4_hexDigit hn]
  cases scanUnits r <;> rfl

lemma scanUnits_simpleEscape {e c : Char} (he : simpleEscape e = some c) (r : List Char) :
    scanUnits ('\\' :: e :: r) = consUnits [c.toNat] (scanUnits r) := by
  have hu : e ≠ 'u' := by
    rintro rfl
    simp [simpleEscape] at he
  rw [scanUnits.eq_4 e r fun a b c d q h => absurd h hu, he]
  cases scanUnits r <;> rfl

lemma scanUnits_plain {c : Char} (hlow : 32 ≤ c.toNat) (hq : c ≠ '"') (hb : c ≠ '\\')
    (r : List Char) : scanUnits (c :: r) = consUnits [c.toNat] (scanUnits r) := by
  rw [scanUnits.eq_5 c r hq (fun _ _ _ _ _ h => absurd h hb) (fun _ _ h => absurd h hb)]
  rw [if_neg (by simp [hb]; omega)]
  cases scanUnits r <;> rfl

lemma charUnits_of_lt {c : Char} (h : c.toNat < 65536) : charUnits c = [c.toNat] := by
  rw [charUnits, if_pos h]

lemma scanUnits_escapeChar (c : Char) (r : List Char) :
    scanUnits (escapeChar c ++ r) = consUnits (charUnits c) (scanUnits r) := by
  have hescape : ∀ e d : Char, simpleEscape e = some d → d.toNat < 65536 →
      scanUnits (['\\', e] ++ r) = consUnits (charUnits d) (scanUnits r) := by
    intro e d he hd
    rw [charUnits_of_lt hd]
    exact scanUnits_simpleEscape he r
  unfold escapeChar
  split_ifs with h1 h2 h3 h4 h5 h6 h7 h8 h9
  · subst c; exact hescape _ _ rfl (by decide)
  · subst c; exact hescape _ _ rfl (by decide)
  · subst c; exact hescape _ _ rfl (by decide)
  · subst c; exact hescape _ _ rfl (by decide)
  · subst c; exact hescape _ _ rfl (by decide)
  · subst c; exact hescape _ _ rfl (by decide)
  · subst c; exact hescape _ _ rfl (by decide)
  · rw [charUnits_of_lt (by omega)]
    exact scanUnits_plain h8.1 h1 h2 r
  · rw [charUnits_of_lt h9]
    exact scanUnits_unicodeEscape h9 r
  · have hval : c.toNat < 1114112 := c.valid.elim (fun h => by
      have : c.val.toNat = c.toNat := rfl
      omega) (fun h => h.2)
    rw [List.append_assoc, scanUnits_unicodeEscape (by omega), scanUnits_unicodeEscape (by omega),
      charUnits, if_neg h9]
    cases scanUnits r <;> rfl

lemma scanUnits_flatMap (cs rest : List Char) :
    scanUnits (cs.flatMap escapeChar ++ '"' :: rest) = some (cs.flatMap charUnits, rest) := by
  induction cs with
  | nil => simp [scanUnits]
  | cons c cs ih =>
    rw [List.flatMap_cons, List.append_assoc, scanUnits_escapeChar, ih]
    rfl

lemma joinUnits_cons (u : ℕ) (us : List ℕ) :
    joinUnits (u :: us) =
      if h : u.isValidChar then (joinUnits us).map (Char.ofNatAux u h :: ·)
      else match us with
        | [] => none
        | v :: us =>
          if 55296 ≤ u ∧ u < 56320 ∧ 56320 ≤ v ∧ v < 57344 then
            (joinUnits us).map (Char.ofNat (65536 + (u - 55296) * 1024 + (v - 56320)) :: ·)
          else none := by
  cases us <;> rfl

lemma joinUnits_charUnits (c : Char) (us : List ℕ) :
    joinUnits (charUnits c ++ us) = (joinUnits us).map (c :: ·) := by
  unfold charUnits
  split
  · have hv : c.toNat.isValidChar := c.valid
    rw [List.singleton_append, joinUnits_cons]
    exact dif_pos hv
  · rename_i h
    have hval : c.toNat < 1114112 := c.valid.elim (fun h => by
      have : c.val.toNat = c.toNat := rfl
      omega) (fun h => h.2)
    have hno : ¬(55296 + (c.toNat - 65536) / 1024).isValidChar := by
      rintro (h | h) <;> omega
    have hc : 65536 + (55296 + (c.toNat - 65536) / 1024 - 55296) * 1024 +
        (56320 + (c.toNat - 65536) % 1024 - 56320) = c.toNat := by omega
    rw [List.cons_append, List.singleton_append, joinUnits_cons]
    refine (dif_neg hno).trans ((if_pos (by omega)).trans ?_)
    rw [hc, Char.ofNat_toNat]

lemma joinUnits_flatMap (cs : List Char) : joinUnits (cs.flatMap charUnits) = some cs := by
  induction cs with
  | nil => rfl
  | cons c cs ih => rw [List.flatMap_cons, joinUnits_charUnits, ih]; rfl

lemma scanString_strText (s : String) (rest : List Char) :
    scanString (s.toList.flatMap escapeChar ++ '"' :: rest) = .ok (s, rest) := by
  rw [scanString, scanUnits_flatMap]
  simp only [joinUnits_flatMap, String.ofList_toList]

/-! ### Values -/

mutual
/-- Every dict in the value has distinct keys. -/
def Plain : Json → Prop
  | arr xs => PlainList xs
  | obj fs => (fs.map (·.1)).Nodup ∧ PlainFields fs
  | _ => True
def PlainList : List Json → Prop
  | [] => True
  | x :: xs => Plain x ∧ PlainList xs
def PlainFields : List (String × Json) → Prop
  | [] => True
  | (_, v) :: fs => Plain v ∧ PlainFields fs
end

/-- The two layouts of the code: items after a comma, values after a colon, with or without a
blank. -/
structure Layout.Readable (l : Layout) : Prop where
  item : l.item = [','] ∨ l.item = [',', ' ']
  key : l.key = [':'] ∨ l.key = [':', ' ']

lemma readable_spaced : spaced.Readable := ⟨Or.inr rfl, Or.inr rfl⟩

lemma readable_compact : compact.Readable := ⟨Or.inl rfl, Or.inl rfl⟩

lemma dictOf_append_fields (done fs : List (String × Json))
    (h : ((done ++ fs).map (·.1)).Nodup) :
    fs.foldl (fun fields p => setField p.1 p.2 fields) done = done ++ fs := by
  induction fs generalizing done with
  | nil => simp
  | cons p fs ih =>
    have hnew : setField p.1 p.2 done = done ++ [p] := by
      have hp : p.1 ∉ done.map (·.1) := by
        rw [List.map_append, List.nodup_append] at h
        intro hmem
        exact h.2.2 p.1 hmem p.1 (by simp) rfl
      clear h ih
      induction done with
      | nil => rfl
      | cons q done ih =>
        rw [List.map_cons, List.mem_cons, not_or] at hp
        rw [setField, if_neg (fun hq => hp.1 hq.symm), ih hp.2]
        rfl
    rw [List.foldl_cons, hnew, ih (done ++ [p]) (by simpa using h)]
    simp

lemma dictOf_of_nodup {fs : List (String × Json)} (h : (fs.map (·.1)).Nodup) :
    dictOf fs = fs := dictOf_append_fields [] fs h

/-- The text starts with a character that no blank or closing bracket is. -/
def Starts (cs : List Char) : Prop :=
  ∃ c r, cs = c :: r ∧ isBlank c = false ∧ c ≠ ']' ∧ c ≠ '}'

lemma Starts.append {cs : List Char} (h : Starts cs) (ds : List Char) : Starts (cs ++ ds) := by
  obtain ⟨c, r, rfl, hc⟩ := h
  exact ⟨c, r ++ ds, rfl, hc⟩

lemma Starts.skipBlank {cs : List Char} (h : Starts cs) : skipBlank cs = cs := by
  obtain ⟨c, r, rfl, hc, -⟩ := h
  simp [Json.skipBlank, hc]

lemma Starts.length_pos {cs : List Char} (h : Starts cs) : 0 < cs.length := by
  obtain ⟨c, r, rfl, -⟩ := h
  simp

lemma digit_ne {c : Char} (h : c.isDigit = true) {d : Char} (hd : d.isDigit = false) : c ≠ d := by
  rintro rfl
  simp [h] at hd

lemma starts_of_digit {c : Char} (h : c.isDigit = true) (r : List Char) : Starts (c :: r) := by
  refine ⟨c, r, rfl, ?_, digit_ne h rfl, digit_ne h rfl⟩
  have h1 : c ≠ ' ' := digit_ne h rfl
  have h2 : c ≠ '\t' := digit_ne h rfl
  have h3 : c ≠ '\n' := digit_ne h rfl
  have h4 : c ≠ '\r' := digit_ne h rfl
  simp [isBlank, h1, h2, h3, h4]

lemma scanValue_number (fuel : ℕ) (neg : Bool) {c : Char} (hc : c.isDigit = true)
    (cs : List Char) :
    scanValue (fuel + 1) (if neg then '-' :: c :: cs else c :: cs) =
      scanUnsigned neg (c :: cs) := by
  cases neg with
  | true =>
    have hI : ∀ r, '-' :: c :: cs = '-' :: 'I' :: r → False := by
      intro r h
      injection h with _ h
      injection h with h _
      exact digit_ne hc (d := 'I') rfl h
    simp only [if_true]
    rw [scanValue.eq_11 _ fuel (by simp) (by simp) (by simp) (by simp) (by simp) (by simp)
      (by simp) (by simp) (fun r h => hI _ h)]
    rfl
  | false =>
    have hne : ∀ d : Char, d.isDigit = false → ∀ r, c :: cs = d :: r → False := by
      intro d hd r h
      injection h with h _
      exact digit_ne hc hd h
    simp only [Bool.false_eq_true, if_false]
    rw [scanValue.eq_11 _ fuel (hne _ rfl) (hne _ rfl) (hne _ rfl) (fun r => hne _ rfl _)
      (fun r => hne _ rfl _) (fun r => hne _ rfl _) (fun r => hne _ rfl _) (fun r => hne _ rfl _)
      (fun r => hne _ rfl _), scanNumber.eq_2 _ (hne _ rfl)]

lemma scanValue_intText (fuel : ℕ) (n : ℤ) {rest : List Char} (hrest : EndsNumber rest) :
    scanValue (fuel + 1) (intText n ++ rest) = .ok (int n, rest) := by
  obtain ⟨c, cs, hcs, hc⟩ := head_isDigit (isWhole_natText n.natAbs) rest
  have htext : intText n ++ rest =
      if decide (n < 0) then '-' :: c :: cs else c :: cs := by
    unfold intText
    by_cases h : n < 0 <;> simp [h, hcs]
  rw [htext, scanValue_number fuel _ hc, ← hcs, scanUnsigned_int _ (isWhole_natText _) hrest,
    natOfText_natText]
  by_cases h : n < 0
  · simp only [h, decide_true, if_true]
    rw [show -(n.natAbs : ℤ) = n by omega]
  · simp only [h, decide_false, Bool.false_eq_true, if_false]
    rw [show (n.natAbs : ℤ) = n by omega]

lemma scanValue_floatText (fuel : ℕ) (x : PyFloat) {rest : List Char} (hrest : EndsNumber rest) :
    scanValue (fuel + 1) (floatText x ++ rest) = .ok (float x, rest) := by
  cases x with
  | nan => rfl
  | inf neg => cases neg <;> rfl
  | fin d =>
    obtain ⟨t⟩ := floatToken_decimalBody d
    obtain ⟨c, cs, hcs, hc⟩ := head_isDigit t.isWhole
      (fracText t.frac ++ (t.exp.elim [] fun e => 'e' :: expText e) ++ rest)
    have hbody : decimalBody d ++ rest = c :: cs := by
      rw [t.text, ← hcs]
      simp
    have htext : floatText (.fin d) ++ rest = if d.neg then '-' :: c :: cs else c :: cs := by
      rw [floatText, decimalText]
      cases d.neg <;> simp [hbody]
    rw [htext, scanValue_number fuel _ hc, ← hbody, t.scan hrest]

lemma starts_intText (n : ℤ) : Starts (intText n) := by
  unfold intText
  split
  · exact ⟨'-', _, rfl, by decide, by decide, by decide⟩
  · obtain ⟨c, cs, hcs, hc⟩ := head_isDigit (isWhole_natText n.natAbs) []
    rw [List.append_nil] at hcs
    rw [hcs]
    exact starts_of_digit hc cs

lemma starts_floatText (x : PyFloat) : Starts (floatText x) := by
  cases x with
  | nan => exact ⟨'N', _, rfl, by decide, by decide, by decide⟩
  | inf neg => cases neg <;> exact ⟨_, _, rfl, by decide, by decide, by decide⟩
  | fin d =>
    rw [floatText, decimalText]
    obtain ⟨t⟩ := floatToken_decimalBody d
    split
    · exact ⟨'-', _, rfl, by decide, by decide, by decide⟩
    · obtain ⟨c, cs, hcs, hc⟩ := head_isDigit t.isWhole
        (fracText t.frac ++ (t.exp.elim [] fun e => 'e' :: expText e))
      rw [t.text, hcs]
      exact starts_of_digit hc cs

lemma starts_text (l : Layout) (v : Json) : Starts (text l v) := by
  cases v with
  | null => exact ⟨_, _, rfl, by decide, by decide, by decide⟩
  | bool b => cases b <;> exact ⟨_, _, rfl, by decide, by decide, by decide⟩
  | int n => exact starts_intText n
  | float x => exact starts_floatText x
  | str s => exact ⟨_, _, rfl, by decide, by decide, by decide⟩
  | arr xs => cases xs <;> exact ⟨_, _, rfl, by decide, by decide, by decide⟩
  | obj fs => cases fs <;> exact ⟨_, _, rfl, by decide, by decide, by decide⟩

section Readable

variable {l : Layout} (hl : l.Readable)
include hl

lemma skipBlank_item (cs : List Char) (h : Starts cs) :
    ∃ r, l.item ++ cs = ',' :: r ∧ skipBlank r = cs := by
  rcases hl.item with hi | hi
  · exact ⟨cs, by rw [hi]; rfl, h.skipBlank⟩
  · refine ⟨' ' :: cs, by rw [hi]; rfl, ?_⟩
    have hb : isBlank ' ' = true := by decide
    rw [skipBlank, List.dropWhile_cons_of_pos hb]
    exact h.skipBlank

lemma skipBlank_key (cs : List Char) (h : Starts cs) :
    ∃ r, l.key ++ cs = ':' :: r ∧ skipBlank r = cs := by
  rcases hl.key with hi | hi
  · exact ⟨cs, by rw [hi]; rfl, h.skipBlank⟩
  · refine ⟨' ' :: cs, by rw [hi]; rfl, ?_⟩
    have hb : isBlank ' ' = true := by decide
    rw [skipBlank, List.dropWhile_cons_of_pos hb]
    exact h.skipBlank

end Readable

lemma starts_strText (s : String) : Starts (strText s) :=
  ⟨_, _, rfl, by decide, by decide, by decide⟩

mutual
/-- A printed value scans to itself, whatever follows it. -/
theorem scanValue_text {l : Layout} (hl : l.Readable) (v : Json) (fuel : ℕ) (rest : List Char)
    (hv : Plain v)
    (hrest : EndsNumber rest) (hfuel : (text l v).length < fuel) :
    scanValue fuel (text l v ++ rest) = .ok (v, rest) := by
  obtain ⟨fuel, rfl⟩ := Nat.exists_eq_add_of_lt hfuel
  rw [show (text l v).length + fuel + 1 = ((text l v).length + fuel) + 1 from rfl]
  match hm : v with
  | null => rfl
  | bool true => rfl
  | bool false => rfl
  | int n => exact scanValue_intText _ n hrest
  | float x => exact scanValue_floatText _ x hrest
  | str s =>
    have h := scanString_strText s rest
    simp only [text, strText, List.cons_append, List.append_assoc, List.nil_append, scanValue, h]
    rfl
  | arr [] => rfl
  | arr (x :: xs) =>
    have hscan := scanItems_text hl x xs
        (('[' :: (text l x ++ (moreItems l xs ++ [']']))).length + fuel)
      rest hv.1 hv.2 (by simp only [List.length_cons, List.length_append, List.length_nil]; omega)
    have hstart : Starts (text l x ++ (moreItems l xs ++ ']' :: rest)) := (starts_text l x).append _
    obtain ⟨c, r, hcr, -, hc, -⟩ := hstart
    simp only [text, List.cons_append, List.append_assoc, List.nil_append, scanValue] at hscan ⊢
    rw [Starts.skipBlank ((starts_text l x).append _)]
    rw [hcr] at hscan ⊢
    split
    · rename_i h
      injection h with h _
      exact absurd h hc
    · rw [hscan]
      rfl
  | obj [] => rfl
  | obj ((k, w) :: fs) =>
    have hscan := scanFields_text hl k w fs
      (('{' :: (strText k ++ (l.key ++ (text l w ++ (moreFields l fs ++ ['}']))))).length + fuel)
      rest hv.2.1 hv.2.2 (by
        simp only [List.length_cons, List.length_append, List.length_nil]
        omega)
    have hstart := (starts_strText k).append (l.key ++ (text l w ++ (moreFields l fs ++ '}' :: rest)))
    obtain ⟨c, r, hcr, -, -, hc⟩ := hstart
    simp only [text, List.cons_append, List.append_assoc, List.nil_append, scanValue] at hscan ⊢
    rw [Starts.skipBlank ((starts_strText k).append _)]
    rw [hcr] at hscan ⊢
    split
    · rename_i h
      injection h with h _
      exact absurd h hc
    · rw [hscan]
      simp only [Except.map, dictOf_of_nodup hv.1]
termination_by sizeOf v
decreasing_by
  all_goals
    subst hm
    simp only [arr.sizeOf_spec, obj.sizeOf_spec, List.cons.sizeOf_spec, Prod.mk.sizeOf_spec]
    omega
theorem scanItems_text {l : Layout} (hl : l.Readable) (x : Json) (xs : List Json) (fuel : ℕ)
    (rest : List Char) (hx : Plain x)
    (hxs : PlainList xs) (hfuel : (text l x).length + (moreItems l xs).length + 1 < fuel) :
    scanItems fuel (text l x ++ (moreItems l xs ++ ']' :: rest)) = .ok (x :: xs, rest) := by
  obtain ⟨fuel, rfl⟩ := Nat.exists_eq_add_of_lt hfuel
  match hm : xs with
  | [] =>
    have hscan := scanValue_text hl x ((text l x).length + (moreItems l []).length + 1 + fuel)
      (']' :: rest) hx (endsNumber_cons (Or.inr (Or.inl rfl))) (by omega)
    rw [show moreItems l [] ++ ']' :: rest = ']' :: rest from rfl, scanItems, hscan]
    rfl
  | y :: ys =>
    obtain ⟨r, hr, hskip⟩ := skipBlank_item hl (text l y ++ (moreItems l ys ++ ']' :: rest))
      ((starts_text l y).append _)
    have hmore : moreItems l (y :: ys) ++ ']' :: rest = ',' :: r := by
      rw [moreItems, ← hr]
      simp
    have hlen : (moreItems l (y :: ys)).length =
        l.item.length + ((text l y).length + (moreItems l ys).length) := by
      simp [moreItems]
    have hpos := (starts_text l x).length_pos
    rw [hmore, scanItems, scanValue_text hl x _ _ hx (endsNumber_cons (Or.inl rfl)) (by omega)]
    change (scanItems _ (skipBlank r)).map (fun p => (x :: p.1, p.2)) = _
    rw [hskip, scanItems_text hl y ys _ rest hxs.1 hxs.2 (by omega)]
    rfl
termination_by sizeOf x + sizeOf xs + 1
decreasing_by
  all_goals
    subst hm
    try simp only [List.cons.sizeOf_spec]
    omega
theorem scanFields_text {l : Layout} (hl : l.Readable) (k : String) (v : Json)
    (fs : List (String × Json)) (fuel : ℕ)
    (rest : List Char) (hv : Plain v) (hfs : PlainFields fs)
    (hfuel : (strText k).length + l.key.length + (text l v).length + (moreFields l fs).length + 1
      < fuel) :
    scanFields fuel (strText k ++ (l.key ++ (text l v ++ (moreFields l fs ++ '}' :: rest)))) =
      .ok ((k, v) :: fs, rest) := by
  obtain ⟨fuel, rfl⟩ := Nat.exists_eq_add_of_lt hfuel
  match hm : fs with
  | [] =>
    obtain ⟨r, hr, hskip⟩ := skipBlank_key hl (text l v ++ '}' :: rest) ((starts_text l v).append _)
    have hkey := scanString_strText k (':' :: r)
    simp only [moreFields, List.nil_append, strText, List.cons_append, List.append_assoc, hr]
    rw [scanFields, hkey]
    change (match scanValue _ (skipBlank r) with | .error e => _ | .ok (v, r) => _) = _
    rw [hskip, scanValue_text hl v _ _ hv (endsNumber_cons (Or.inr (Or.inr rfl))) (by omega)]
    rfl
  | (j, w) :: gs =>
    obtain ⟨q, hq, hskipq⟩ := skipBlank_item hl
      (strText j ++ (l.key ++ (text l w ++ (moreFields l gs ++ '}' :: rest))))
      ((starts_strText j).append _)
    have hmore : moreFields l ((j, w) :: gs) ++ '}' :: rest = ',' :: q := by
      rw [moreFields, ← hq]
      simp
    have hlen : (moreFields l ((j, w) :: gs)).length = l.item.length + ((strText j).length +
        (l.key.length + ((text l w).length + (moreFields l gs).length))) := by
      simp [moreFields]
    have hpos := (starts_strText k).length_pos
    obtain ⟨r, hr, hskip⟩ := skipBlank_key hl (text l v ++ ',' :: q) ((starts_text l v).append _)
    have hkey := scanString_strText k (':' :: r)
    have hopen : strText k ++ ':' :: r = '"' :: (k.toList.flatMap escapeChar ++ '"' :: ':' :: r) := by
      simp [strText]
    rw [hmore, hr, hopen, scanFields, hkey]
    change (match scanValue _ (skipBlank r) with | .error e => _ | .ok (v, r) => _) = _
    rw [hskip, scanValue_text hl v _ _ hv (endsNumber_cons (Or.inl rfl)) (by omega)]
    change (scanFields _ (skipBlank q)).map (fun p => ((k, v) :: p.1, p.2)) = _
    rw [hskipq, scanFields_text hl j w gs _ rest hfs.1 hfs.2 (by omega)]
    rfl
termination_by sizeOf v + sizeOf fs + 1
decreasing_by
  all_goals
    subst hm
    try simp only [List.cons.sizeOf_spec, Prod.mk.sizeOf_spec]
    omega
end

/-- `json.loads(json.dumps(v)) == v` on text. -/
theorem parse_text {l : Layout} (hl : l.Readable) (v : Json) (hv : Plain v) :
    parse (text l v) = .ok v := by
  have h := scanValue_text hl v ((text l v).length + 1) [] hv endsNumber_nil (by omega)
  rw [List.append_nil] at h
  rw [parse, (starts_text l v).skipBlank, h]
  rfl

/-! ### Bytes -/

/-- Printable ASCII text. -/
def Ascii (cs : List Char) : Prop := ∀ c ∈ cs, 32 ≤ c.toNat ∧ c.toNat < 127

instance (cs : List Char) : Decidable (Ascii cs) :=
  inferInstanceAs (Decidable (∀ c ∈ cs, 32 ≤ c.toNat ∧ c.toNat < 127))

lemma ascii_nil : Ascii [] := by simp [Ascii]

lemma ascii_cons {c : Char} {cs : List Char} :
    Ascii (c :: cs) ↔ (32 ≤ c.toNat ∧ c.toNat < 127) ∧ Ascii cs := by
  simp [Ascii]

lemma ascii_append {cs ds : List Char} : Ascii (cs ++ ds) ↔ Ascii cs ∧ Ascii ds := by
  simp only [Ascii, List.mem_append]
  grind

lemma ascii_of_digits {ds : List Char} (h : ∀ c ∈ ds, c.isDigit = true) : Ascii ds := by
  intro c hc
  have hd := h c hc
  simp only [Char.isDigit, Bool.and_eq_true, decide_eq_true_eq, ge_iff_le] at hd
  have h1 : '0'.toNat ≤ c.toNat := hd.1
  have h2 : c.toNat ≤ '9'.toNat := hd.2
  have h3 : '0'.toNat = 48 := rfl
  have h4 : '9'.toNat = 57 := rfl
  omega

lemma ascii_natText (n : ℕ) : Ascii (natText n) := ascii_of_digits (isDigit_natText n)

lemma ascii_expText (e : ℤ) : Ascii (expText e) := by
  unfold expText
  have h0 : Ascii ('0' :: natText e.natAbs) := ascii_cons.mpr ⟨by decide, ascii_natText _⟩
  refine ascii_cons.mpr ⟨by split <;> decide, ?_⟩
  split
  · exact h0
  · exact ascii_natText _

lemma ascii_decimalText (d : Decimal) : Ascii (decimalText d) := by
  obtain ⟨t⟩ := floatToken_decimalBody d
  have hfrac : Ascii (fracText t.frac) := by
    unfold fracText
    split
    · exact ascii_nil
    · exact ascii_cons.mpr ⟨by decide, ascii_of_digits t.digits⟩
  have hexp : Ascii (t.exp.elim [] fun e => 'e' :: expText e) := by
    cases t.exp with
    | none => exact ascii_nil
    | some e => exact ascii_cons.mpr ⟨by decide, ascii_expText e⟩
  have hbody : Ascii (decimalBody d) := by
    rw [t.text]
    exact ascii_append.mpr ⟨ascii_of_digits t.isWhole.digits, ascii_append.mpr ⟨hfrac, hexp⟩⟩
  unfold decimalText
  split
  · exact ascii_cons.mpr ⟨by decide, hbody⟩
  · exact hbody

lemma hexDigit_ascii : ∀ d < 16, 32 ≤ (hexDigit d).toNat ∧ (hexDigit d).toNat < 127 := by decide

lemma ascii_unicodeEscape (n : ℕ) : Ascii (unicodeEscape n) := by
  intro c hc
  simp only [unicodeEscape, List.mem_cons, List.not_mem_nil, or_false] at hc
  rcases hc with rfl | rfl | rfl | rfl | rfl | rfl
  · decide
  · decide
  all_goals exact hexDigit_ascii _ (Nat.mod_lt _ (by omega))

lemma ascii_escapeChar (c : Char) : Ascii (escapeChar c) := by
  unfold escapeChar
  split_ifs with h1 h2 h3 h4 h5 h6 h7 h8
  · decide
  · decide
  · decide
  · decide
  · decide
  · decide
  · decide
  · exact ascii_cons.mpr ⟨h8, ascii_nil⟩
  · exact ascii_unicodeEscape _
  · exact ascii_append.mpr ⟨ascii_unicodeEscape _, ascii_unicodeEscape _⟩

lemma ascii_strText (s : String) : Ascii (strText s) := by
  have hbody : Ascii (s.toList.flatMap escapeChar) := by
    intro c hc
    obtain ⟨d, -, hd⟩ := List.mem_flatMap.mp hc
    exact ascii_escapeChar d c hd
  exact ascii_cons.mpr ⟨by decide, ascii_append.mpr ⟨hbody, by decide⟩⟩

lemma Layout.Readable.ascii_item {l : Layout} (hl : l.Readable) : Ascii l.item := by
  rcases hl.item with h | h <;> rw [h] <;> decide

lemma Layout.Readable.ascii_key {l : Layout} (hl : l.Readable) : Ascii l.key := by
  rcases hl.key with h | h <;> rw [h] <;> decide

mutual
lemma ascii_text {l : Layout} (hl : l.Readable) : ∀ v : Json, Ascii (text l v)
  | null => show Ascii ['n', 'u', 'l', 'l'] by decide
  | bool true => show Ascii ['t', 'r', 'u', 'e'] by decide
  | bool false => show Ascii ['f', 'a', 'l', 's', 'e'] by decide
  | int n => by
    rw [text, intText]
    split
    · exact ascii_cons.mpr ⟨by decide, ascii_natText _⟩
    · exact ascii_natText _
  | float (.fin d) => ascii_decimalText d
  | float .nan => show Ascii ['N', 'a', 'N'] by decide
  | float (.inf false) => show Ascii (floatText (.inf false)) by decide
  | float (.inf true) => show Ascii (floatText (.inf true)) by decide
  | str s => ascii_strText s
  | arr [] => show Ascii ['[', ']'] by decide
  | arr (x :: xs) => by
    rw [text]
    exact ascii_cons.mpr ⟨by decide, ascii_append.mpr ⟨ascii_text hl x,
      ascii_append.mpr ⟨ascii_moreItems hl xs, by decide⟩⟩⟩
  | obj [] => show Ascii ['{', '}'] by decide
  | obj ((k, v) :: fs) => by
    rw [text]
    exact ascii_cons.mpr ⟨by decide, ascii_append.mpr ⟨ascii_strText k,
      ascii_append.mpr ⟨hl.ascii_key, ascii_append.mpr ⟨ascii_text hl v,
        ascii_append.mpr ⟨ascii_moreFields hl fs, by decide⟩⟩⟩⟩⟩
lemma ascii_moreItems {l : Layout} (hl : l.Readable) : ∀ xs : List Json, Ascii (moreItems l xs)
  | [] => ascii_nil
  | x :: xs => by
    rw [moreItems]
    exact ascii_append.mpr ⟨hl.ascii_item, ascii_append.mpr ⟨ascii_text hl x,
      ascii_moreItems hl xs⟩⟩
lemma ascii_moreFields {l : Layout} (hl : l.Readable) :
    ∀ fs : List (String × Json), Ascii (moreFields l fs)
  | [] => ascii_nil
  | (k, v) :: fs => by
    rw [moreFields]
    exact ascii_append.mpr ⟨hl.ascii_item, ascii_append.mpr ⟨ascii_strText k,
      ascii_append.mpr ⟨hl.ascii_key, ascii_append.mpr ⟨ascii_text hl v,
        ascii_moreFields hl fs⟩⟩⟩⟩
end

lemma encodeChars_ascii {cs : List Char} (h : Ascii cs) :
    encodeChars cs = cs.map (fun c => UInt8.ofNat c.toNat) := by
  induction cs with
  | nil => rfl
  | cons c cs ih =>
    obtain ⟨hc, hcs⟩ := ascii_cons.mp h
    have hone : String.utf8EncodeChar c = [UInt8.ofNat c.toNat] := by
      have hv : c.val.toNat ≤ 127 := by
        have : c.val.toNat = c.toNat := rfl
        omega
      rw [String.utf8EncodeChar_eq_singleton (by rw [Char.utf8Size_eq_one_iff]; exact hv)]
      rfl
    rw [encodeChars, List.flatMap_cons, ← encodeChars, hone, ih hcs]
    rfl

lemma decodeUtf8_cons_ascii {a : UInt8} (ha : a.toNat < 128) (hv : a.toNat.isValidChar)
    (r : Bytes) : decodeUtf8 (a :: r) = (decodeUtf8 r).map (Char.ofNatAux a.toNat hv :: ·) := by
  have hput : 0 ≤ a.toNat ∧ a.toNat.isValidChar := ⟨Nat.zero_le _, hv⟩
  rcases r with _ | ⟨b, _ | ⟨c, _ | ⟨d, r⟩⟩⟩ <;> exact (if_pos ha).trans (dif_pos hput)

lemma ofNatAux_eq {n : ℕ} (hn : n.isValidChar) {c : Char} (h : n = c.toNat) :
    Char.ofNatAux n hn = c := by
  subst h
  rfl

lemma decodeUtf8_ascii {cs : List Char} (h : Ascii cs) :
    decodeUtf8 (cs.map (fun c => UInt8.ofNat c.toNat)) = some cs := by
  induction cs with
  | nil => rfl
  | cons c cs ih =>
    obtain ⟨hc, hcs⟩ := ascii_cons.mp h
    have hnat : (UInt8.ofNat c.toNat).toNat = c.toNat := by
      rw [UInt8.toNat_ofNat']
      omega
    have hvalid : (UInt8.ofNat c.toNat).toNat.isValidChar := by
      rw [hnat]
      exact c.valid
    rw [List.map_cons, decodeUtf8_cons_ascii (by omega) hvalid, ih hcs, ofNatAux_eq hvalid hnat]
    rfl

/-- Bytes without a zero byte are not taken as UTF-16 or UTF-32. -/
lemma decodeUnmarked_of_ne {b : Bytes} (h : (0 : UInt8) ∉ b) :
    decodeUnmarked b = decodeUtf8 b := by
  unfold decodeUnmarked
  split
  · rename_i x y z w r
    have hx : x ≠ 0 := fun h0 => h (by simp [h0])
    have hy : y ≠ 0 := fun h0 => h (by simp [h0])
    rw [if_neg hx, if_neg hy]
  · rename_i x y
    have hx : x ≠ 0 := fun h0 => h (by simp [h0])
    have hy : y ≠ 0 := fun h0 => h (by simp [h0])
    rw [if_neg hx, if_neg hy]
  · rfl

/-- Bytes of printable ASCII text are taken as UTF-8. -/
lemma decodeBytes_of_ascii {b : Bytes} (h : ∀ x ∈ b, 32 ≤ x.toNat ∧ x.toNat < 127) :
    decodeBytes b = decodeUtf8 b := by
  have hno : ∀ x : UInt8, ¬(32 ≤ x.toNat ∧ x.toNat < 127) → x ∉ b := fun x hx hb => hx (h x hb)
  unfold decodeBytes
  split
  · exact absurd (by simp) (hno 0 (by decide))
  · exact absurd (by simp) (hno 255 (by decide))
  · exact absurd (by simp) (hno 254 (by decide))
  · exact absurd (by simp) (hno 255 (by decide))
  · exact absurd (by simp) (hno 239 (by decide))
  · exact decodeUnmarked_of_ne (hno 0 (by decide))

lemma decodeBytes_encodeChars {cs : List Char} (h : Ascii cs) :
    decodeBytes (encodeChars cs) = some cs := by
  rw [encodeChars_ascii h, decodeBytes_of_ascii, decodeUtf8_ascii h]
  intro x hx
  obtain ⟨c, hc, rfl⟩ := List.mem_map.mp hx
  have hrange := h c hc
  rw [UInt8.toNat_ofNat']
  omega

/-- `json.loads(json.dumps(v).encode()) == v`, in either layout. -/
theorem loads_text {l : Layout} (hl : l.Readable) {v : Json} (hv : Plain v) :
    loads (encodeChars (text l v)) = .ok v := by
  rw [loads, decodeBytes_encodeChars (ascii_text hl v)]
  exact parse_text hl v hv

theorem loads_dumpsBytes {v : Json} (hv : Plain v) : loads (dumpsBytes v) = .ok v :=
  loads_text readable_spaced hv

/-- Values with distinct keys are determined by their bytes. -/
theorem dumpsBytes_inj {v w : Json} (hv : Plain v) (hw : Plain w)
    (h : dumpsBytes v = dumpsBytes w) : v = w := by
  have hvw := (loads_dumpsBytes hv).symm.trans ((congrArg loads h).trans (loads_dumpsBytes hw))
  exact Except.ok.inj hvw

/-! ### Sorted keys -/

lemma field?_eq_some_iff {k : String} {v : Json} {fs : List (String × Json)}
    (hnd : (fs.map (·.1)).Nodup) : field? k fs = some v ↔ (k, v) ∈ fs := by
  induction fs with
  | nil => simp [field?]
  | cons p fs ih =>
    obtain ⟨j, w⟩ := p
    rw [List.map_cons, List.nodup_cons] at hnd
    by_cases hj : j = k
    · subst hj
      have hno : (j, v) ∉ fs := fun hmem => hnd.1 (List.mem_map.mpr ⟨_, hmem, rfl⟩)
      simp [field?, hno, eq_comm]
    · have hne : k ≠ j := fun h => hj h.symm
      simpa [field?, hj, hne] using ih hnd.2

lemma field?_perm {k : String} {fs gs : List (String × Json)} (h : fs.Perm gs)
    (hnd : (fs.map (·.1)).Nodup) : field? k fs = field? k gs := by
  apply Option.ext
  intro v
  rw [field?_eq_some_iff hnd, field?_eq_some_iff ((h.map _).nodup_iff.mp hnd), h.mem_iff]

lemma sortKeysFields_eq (fs : List (String × Json)) :
    sortKeysFields fs = fs.map (fun p => (p.1, sortKeys p.2)) := by
  induction fs with
  | nil => rfl
  | cons p fs ih =>
    obtain ⟨k, v⟩ := p
    rw [sortKeysFields, ih]
    rfl

lemma sortKeysFields_keys (fs : List (String × Json)) :
    (sortKeysFields fs).map (·.1) = fs.map (·.1) := by
  rw [sortKeysFields_eq, List.map_map]
  rfl

lemma field?_sortKeysFields (k : String) (fs : List (String × Json)) :
    field? k (sortKeysFields fs) = (field? k fs).map sortKeys := by
  induction fs with
  | nil => rfl
  | cons p fs ih =>
    obtain ⟨j, w⟩ := p
    rw [sortKeysFields]
    by_cases hj : j = k
    · simp [field?, hj]
    · simpa [field?, hj] using ih

lemma get_sortKeys (k : String) {fs : List (String × Json)} (h : (fs.map (·.1)).Nodup) :
    ∃ gs, sortKeys (obj fs) = obj gs ∧ field? k gs = (field? k fs).map sortKeys := by
  refine ⟨_, rfl, ?_⟩
  rw [← field?_sortKeysFields]
  refine field?_perm (List.perm_insertionSort _ _) ?_
  have hp := (List.perm_insertionSort (fun p q : String × Json => p.1 ≤ q.1) (sortKeysFields fs)).map
    (·.1)
  rw [hp.nodup_iff, sortKeysFields_keys]
  exact h

lemma plainList_iff {xs : List Json} : PlainList xs ↔ ∀ x ∈ xs, Plain x := by
  induction xs with
  | nil => simp [PlainList]
  | cons x xs ih => simp [PlainList, ih]

lemma plainFields_iff {fs : List (String × Json)} : PlainFields fs ↔ ∀ p ∈ fs, Plain p.2 := by
  induction fs with
  | nil => simp [PlainFields]
  | cons p fs ih =>
    obtain ⟨k, v⟩ := p
    simp [PlainFields, ih]

lemma plain_arr {xs : List Json} : Plain (arr xs) ↔ ∀ x ∈ xs, Plain x := plainList_iff

lemma plain_obj {fs : List (String × Json)} :
    Plain (obj fs) ↔ (fs.map (·.1)).Nodup ∧ ∀ p ∈ fs, Plain p.2 := by
  rw [Plain, plainFields_iff]

mutual
lemma plain_sortKeys : ∀ v : Json, Plain v → Plain (sortKeys v)
  | null, h => h
  | bool _, h => h
  | int _, h => h
  | float _, h => h
  | str _, h => h
  | arr xs, h => plainList_sortKeys xs h
  | obj fs, h => by
    have hp := List.perm_insertionSort (fun p q : String × Json => p.1 ≤ q.1) (sortKeysFields fs)
    rw [sortKeys, plain_obj]
    refine ⟨?_, fun p hmem => ?_⟩
    · rw [(hp.map (·.1)).nodup_iff, sortKeysFields_keys]
      exact h.1
    · exact plainFields_iff.mp (plainFields_sortKeys fs h.2) p (hp.mem_iff.mp hmem)
lemma plainList_sortKeys : ∀ xs : List Json, PlainList xs → PlainList (sortKeysList xs)
  | [], h => h
  | x :: xs, h => ⟨plain_sortKeys x h.1, plainList_sortKeys xs h.2⟩
lemma plainFields_sortKeys : ∀ fs : List (String × Json), PlainFields fs →
    PlainFields (sortKeysFields fs)
  | [], h => h
  | (_, v) :: fs, h => ⟨plain_sortKeys v h.1, plainFields_sortKeys fs h.2⟩
end

/-! ### What the parser returns -/

lemma setField_keys_nodup (k : String) (v : Json) {fs : List (String × Json)}
    (h : (fs.map (·.1)).Nodup) : ((setField k v fs).map (·.1)).Nodup := by
  rw [setField_eq]
  exact nodup_keys_setItem h

lemma plain_setField {k : String} {v : Json} {fs : List (String × Json)} (hv : Plain v)
    (h : Plain (obj fs)) : Plain (obj (setField k v fs)) := by
  rw [plain_obj] at h ⊢
  refine ⟨setField_keys_nodup k v h.1, fun p hp => ?_⟩
  rw [setField_eq] at hp
  rcases mem_setItem hp with rfl | hp
  · exact hv
  · exact h.2 p hp

lemma plain_dictOf {pairs : List (String × Json)} (h : PlainFields pairs) :
    Plain (obj (dictOf pairs)) := by
  have hfold : ∀ (ps : List (String × Json)) (fs : List (String × Json)), PlainFields ps →
      Plain (obj fs) → Plain (obj (ps.foldl (fun fields p => setField p.1 p.2 fields) fs)) := by
    intro ps
    induction ps with
    | nil => exact fun fs _ h => h
    | cons p ps ih =>
      obtain ⟨k, v⟩ := p
      exact fun fs hps hfs => ih _ hps.2 (plain_setField hps.1 hfs)
  exact hfold pairs [] h (plain_obj.mpr ⟨List.nodup_nil, by simp⟩)

lemma plain_scanNumber {cs rest : List Char} {v : Json} (h : scanNumber cs = .ok (v, rest)) :
    Plain v := by
  have hun : ∀ neg cs, scanUnsigned neg cs = .ok (v, rest) → Plain v := by
    intro neg cs h
    unfold scanUnsigned at h
    simp only at h
    split at h
    · cases h
    · split at h <;> cases h <;> trivial
  unfold scanNumber at h
  split at h
  · exact hun _ _ h
  · exact hun _ _ h

lemma map_eq_ok {ε α β : Type} {r : Except ε α} {f : α → β} {b : β} (h : r.map f = .ok b) :
    ∃ a, r = .ok a ∧ f a = b := by
  cases r with
  | error e => cases h
  | ok a => exact ⟨a, rfl, Except.ok.inj h⟩

/-- Dicts built by the parser have distinct keys, because later values replace earlier ones. -/
theorem plain_scan (fuel : ℕ) :
    (∀ cs v rest, scanValue fuel cs = .ok (v, rest) → Plain v) ∧
    (∀ cs xs rest, scanItems fuel cs = .ok (xs, rest) → PlainList xs) ∧
    (∀ cs fs rest, scanFields fuel cs = .ok (fs, rest) → PlainFields fs) := by
  induction fuel with
  | zero =>
    refine ⟨fun cs v rest h => ?_, fun cs xs rest h => ?_, fun cs fs rest h => ?_⟩
    · cases h
    · cases h
    · cases h
  | succ fuel ih =>
    obtain ⟨ihv, ihi, ihf⟩ := ih
    refine ⟨fun cs v rest h => ?_, fun cs xs rest h => ?_, fun cs fs rest h => ?_⟩
    · unfold scanValue at h
      split at h
      · obtain ⟨p, -, hp⟩ := map_eq_ok h
        cases hp
        trivial
      · split at h
        · cases h
          exact plain_obj.mpr ⟨List.nodup_nil, by simp⟩
        · obtain ⟨p, hscan, hp⟩ := map_eq_ok h
          cases hp
          exact plain_dictOf (ihf _ _ _ hscan)
      · split at h
        · cases h
          trivial
        · obtain ⟨p, hscan, hp⟩ := map_eq_ok h
          cases hp
          exact ihi _ _ _ hscan
      all_goals first
        | (cases h; trivial)
        | exact plain_scanNumber h
    · unfold scanItems at h
      split at h
      · cases h
      · rename_i v r hscan
        split at h
        · cases h
          exact ⟨ihv _ _ _ hscan, trivial⟩
        · obtain ⟨p, hitems, hp⟩ := map_eq_ok h
          cases hp
          exact ⟨ihv _ _ _ hscan, ihi _ _ _ hitems⟩
        · cases h
    · unfold scanFields at h
      split at h
      · split at h
        · cases h
        · split at h
          · split at h
            · cases h
            · rename_i v r hscan
              split at h
              · cases h
                exact ⟨ihv _ _ _ hscan, trivial⟩
              · obtain ⟨p, hfields, hp⟩ := map_eq_ok h
                cases hp
                exact ⟨ihv _ _ _ hscan, ihf _ _ _ hfields⟩
              · cases h
          · cases h
      · cases h

theorem plain_loads {b : Bytes} {v : Json} (h : loads b = .ok v) : Plain v := by
  unfold loads at h
  split at h
  · cases h
  · unfold parse at h
    split at h
    · cases h
    · rename_i cs _ v r hscan
      split at h
      · cases h
        exact (plain_scan _).1 _ _ _ hscan
      · cases h

end Json

end Lib
