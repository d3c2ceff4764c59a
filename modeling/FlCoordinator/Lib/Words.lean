import FlCoordinator.Lib.JsonRoundTrip

/-!
# Words and lines

What `split`, `strip` and the lines of a file give back of a text that was put together from
words and lines.
-/

namespace Lib

/-! ### Words -/

lemma words_nil : words [] = [] := by
  rw [words, List.splitOnP_nil]
  rfl

lemma words_append_cons (cs ds : List Char) {c : Char} (hc : isSpace c = true) :
    words (cs ++ c :: ds) = words cs ++ words ds := by
  rw [words, List.splitOnP_append_cons _ _ hc, List.filter_append]
  rfl

lemma words_cons_space {c : Char} (hc : isSpace c = true) (cs : List Char) :
    words (c :: cs) = words cs := by
  have h := words_append_cons [] cs hc
  rw [words_nil, List.nil_append, List.nil_append] at h
  exact h

lemma words_append_space {c : Char} (hc : isSpace c = true) (cs : List Char) :
    words (cs ++ [c]) = words cs := by
  rw [words_append_cons cs [] hc, words_nil, List.append_nil]

lemma words_of_noSpace {w : List Char} (hne : w ≠ []) (hw : ∀ c ∈ w, isSpace c = false) :
    words w = [w] := by
  rw [words, List.splitOnP_eq_singleton hw, List.filter_cons_of_pos (by simpa using hne),
    List.filter_nil]

/-- `" ".join(ws).split()`. -/
lemma words_intercalate {ws : List (List Char)}
    (h : ∀ w ∈ ws, w ≠ [] ∧ ∀ c ∈ w, isSpace c = false) :
    words (List.intercalate [' '] ws) = ws := by
  induction ws with
  | nil => exact words_nil
  | cons w ws ih =>
    obtain ⟨⟨hne, hw⟩, hws⟩ := List.forall_mem_cons.mp h
    cases ws with
    | nil =>
      rw [List.intercalate_singleton]
      exact words_of_noSpace hne hw
    | cons w' ws =>
      rw [List.intercalate_cons_cons, List.append_assoc, List.singleton_append,
        words_append_cons _ _ rfl, words_of_noSpace hne hw, ih hws]
      rfl

/-! ### Blanks at the ends -/

lemma words_dropWhile (cs : List Char) : words (cs.dropWhile isSpace) = words cs := by
  induction cs with
  | nil => rfl
  | cons c cs ih =>
    cases hc : isSpace c with
    | true => rw [List.dropWhile_cons_of_pos hc, ih, words_cons_space hc]
    | false => rw [List.dropWhile_cons_of_neg (by simp [hc])]

lemma words_dropWhile_reverse (cs : List Char) :
    words (cs.reverse.dropWhile isSpace).reverse = words cs := by
  induction cs using List.reverseRecOn with
  | nil => rfl
  | append_singleton cs c ih =>
    rw [List.reverse_append, List.reverse_singleton, List.singleton_append]
    cases hc : isSpace c with
    | true => rw [List.dropWhile_cons_of_pos hc, ih, words_append_space hc]
    | false =>
      rw [List.dropWhile_cons_of_neg (by simp [hc]), List.reverse_cons, List.reverse_reverse]

lemma words_stripBoth (cs : List Char) : words (stripBoth isSpace cs) = words cs := by
  have h := words_dropWhile_reverse (cs.dropWhile isSpace)
  rw [stripBoth, h, words_dropWhile]

variable {blank : Char → Bool}

lemma stripBoth_cons {c : Char} (hc : blank c = false) (cs : List Char) :
    ∃ ds, stripBoth blank (c :: cs) = c :: ds := by
  rw [stripBoth, List.dropWhile_cons_of_neg (by simp [hc]), List.reverse_cons,
    List.dropWhile_append]
  split_ifs with hempty
  · exact ⟨[], by simp [hc]⟩
  · exact ⟨(cs.reverse.dropWhile blank).reverse, by simp⟩

lemma dropWhile_of_none {cs : List Char} (h : ∀ c ∈ cs, blank c = false) :
    cs.dropWhile blank = cs := by
  cases cs with
  | nil => rfl
  | cons c cs => rw [List.dropWhile_cons_of_neg (by simp [h c List.mem_cons_self])]

lemma stripBoth_of_none {cs : List Char} (h : ∀ c ∈ cs, blank c = false) :
    stripBoth blank cs = cs := by
  rw [stripBoth, dropWhile_of_none h,
    dropWhile_of_none (fun c hc => h c (List.mem_reverse.mp hc)), List.reverse_reverse]

/-! ### Lines -/

lemma oneNewline_of_notMem {cs : List Char} (h : '\r' ∉ cs) : oneNewline cs = cs := by
  induction cs with
  | nil => rfl
  | cons c cs ih =>
    obtain ⟨hc, hcs⟩ := List.ne_and_not_mem_of_not_mem_cons h
    rw [oneNewline, ih hcs]
    · rintro r rfl
      exact absurd rfl hc
    · rintro rfl
      exact absurd rfl hc

lemma splitOn_flatMap_newline {lines : List (List Char)} (h : ∀ line ∈ lines, '\n' ∉ line) :
    (lines.flatMap (· ++ ['\n'])).splitOn '\n' = lines ++ [[]] := by
  induction lines with
  | nil => rfl
  | cons line lines ih =>
    obtain ⟨hline, hlines⟩ := List.forall_mem_cons.mp h
    rw [List.flatMap_cons, List.append_assoc, List.singleton_append,
      List.splitOn_append_cons_self_of_not_mem hline, ih hlines]
    rfl

/-- Lines that are written with their ends are read as they were, and an empty one after
them. -/
lemma textLines_flatMap {lines : List (List Char)} (h : ∀ line ∈ lines, Json.Ascii line) :
    textLines (lines.flatMap (· ++ ['\n'])) = lines ++ [[]] := by
  have hline : ∀ line ∈ lines, ∀ c ∈ line, 32 ≤ c.toNat := fun line hl c hc => (h line hl c hc).1
  rw [textLines, oneNewline_of_notMem, splitOn_flatMap_newline]
  · intro line hl hmem
    exact absurd (hline line hl _ hmem) (by decide)
  · intro hmem
    obtain ⟨line, hl, hmem⟩ := List.mem_flatMap.mp hmem
    rcases List.mem_append.mp hmem with hmem | hmem
    · exact absurd (hline line hl _ hmem) (by decide)
    · exact absurd (List.mem_singleton.mp hmem) (by decide)

namespace Json

lemma decodeUtf8_encodeChars {cs : List Char} (h : ∀ c ∈ cs, c.toNat < 128) :
    decodeUtf8 (encodeChars cs) = some cs := by
  induction cs with
  | nil => rfl
  | cons c cs ih =>
    obtain ⟨hc, hcs⟩ := List.forall_mem_cons.mp h
    have hsmall : c.val.toNat ≤ 127 := Nat.lt_succ_iff.mp hc
    have hone : String.utf8EncodeChar c = [UInt8.ofNat c.toNat] := by
      rw [String.utf8EncodeChar_eq_singleton (by rw [Char.utf8Size_eq_one_iff]; exact hsmall)]
      rfl
    have hnat : (UInt8.ofNat c.toNat).toNat = c.toNat := by
      rw [UInt8.toNat_ofNat']
      omega
    have hvalid : (UInt8.ofNat c.toNat).toNat.isValidChar := by
      rw [hnat]
      exact c.valid
    have hcons : encodeChars (c :: cs) = UInt8.ofNat c.toNat :: encodeChars cs := by
      rw [encodeChars, List.flatMap_cons, hone]
      rfl
    rw [hcons, decodeUtf8_cons_ascii (by omega) hvalid, ih hcs, ofNatAux_eq hvalid hnat]
    rfl

lemma ascii_intercalate {ws : List (List Char)} (h : ∀ w ∈ ws, Ascii w) :
    Ascii (List.intercalate [' '] ws) := by
  induction ws with
  | nil => exact ascii_nil
  | cons w ws ih =>
    obtain ⟨hw, hws⟩ := List.forall_mem_cons.mp h
    cases ws with
    | nil =>
      rw [List.intercalate_singleton]
      exact hw
    | cons w' ws =>
      rw [List.intercalate_cons_cons]
      exact ascii_append.mpr ⟨ascii_append.mpr ⟨hw, ascii_cons.mpr ⟨by decide, ascii_nil⟩⟩, ih hws⟩

lemma isDigit_bounds {c : Char} (hc : c.isDigit = true) : 48 ≤ c.toNat ∧ c.toNat ≤ 57 :=
  Char.isDigit_iff_toNat.mp hc

lemma asciiChar_digit {c : Char} (hc : c.isDigit = true) : asciiChar c = c := by
  have hbounds := isDigit_bounds hc
  rw [asciiChar, if_pos (by omega)]

lemma intOfStr_natText (n : ℕ) : intOfStr (String.ofList (natText n)) = .ok n := by
  have hdigits := isDigit_natText n
  have hmap : (natText n).map asciiChar = natText n := by
    rw [List.map_congr_left (fun c hc => asciiChar_digit (hdigits c hc)), List.map_id']
  have hother : ∀ {c : Char}, c.isDigit = false → c ∉ natText n := fun hc hmem => by
    rw [hdigits _ hmem] at hc
    exact absurd hc (by decide)
  have hstrip : stripBoth (fun c => c = ' ' || ('\t' ≤ c && c ≤ '\r')) (natText n) = natText n := by
    apply stripBoth_of_none
    intro c hc
    have hbounds := isDigit_bounds (hdigits c hc)
    have hspace : c ≠ ' ' := fun heq => hother (by decide) (heq ▸ hc)
    have hhigh : ¬c ≤ '\r' := fun hle => by
      have hnat : c.toNat ≤ '\r'.toNat := hle
      have hr : '\r'.toNat = 13 := rfl
      omega
    simp [hspace, hhigh]
  have hgroups : (natText n).splitOn '_' = [natText n] :=
    List.splitOn_eq_singleton (hother (by decide))
  have hvalue : (natText n).foldl
      (fun a c => if c = '_' then a else 10 * a + (c.toNat - '0'.toNat)) 0 = n := by
    refine Eq.trans ?_ (natOfText_natText n)
    apply List.foldl_ext
    intro a c hc
    have hne : c ≠ '_' := fun heq => hother (by decide) (heq ▸ hc)
    rw [if_neg hne]
    rfl
  have hread : ∀ (e : PyErr) (p : Bool × List Char), p = (false, natText n) →
      (if (p.2.splitOn '_').all (fun g => !g.isEmpty && g.all Char.isDigit) then
        Except.ok (if p.1 then -((p.2.foldl (fun a c =>
            if c = '_' then a else 10 * a + (c.toNat - '0'.toNat)) 0 : ℕ) : ℤ)
          else (p.2.foldl (fun a c =>
            if c = '_' then a else 10 * a + (c.toNat - '0'.toNat)) 0 : ℕ))
      else .error e) = .ok (n : ℤ) := by
    rintro e p rfl
    dsimp only
    rw [hgroups, hvalue, if_pos]
    · rfl
    · simpa [natText_ne_nil] using hdigits
  unfold intOfStr
  rw [String.toList_ofList, hmap]
  dsimp only
  rw [hstrip]
  refine hread _ _ ?_
  -- The first character is a digit, so that there is no sign.
  split
  · rename_i r heq
    exact absurd (heq ▸ List.mem_cons_self) (hother (show Char.isDigit '-' = false by decide))
  · rename_i r heq
    exact absurd (heq ▸ List.mem_cons_self) (hother (show Char.isDigit '+' = false by decide))
  · rfl

end Json

end Lib
