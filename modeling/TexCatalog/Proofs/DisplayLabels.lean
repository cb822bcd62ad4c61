import TexCatalog.Bibliography.Label

/-!
# What a display label says

A label is the folded key of the authors with the end of a year behind it. The key is made of the
characters that folding keeps. The year is the first run of four digits and is cut behind its second
byte: of digits of ASCII the last two are left, of others there may be three, and where the second
byte lies inside a digit there is no label.
-/

namespace TexCatalog

namespace Text

/-- The digits of ASCII are the decimal digits of one byte. -/
theorem isDigit_iff (c : Char) : c.isDigit = true ↔ isDecimalDigit c = true ∧ c.utf8Size = 1 := by
  have hdigit : c.isDigit = true ↔ 0x30 ≤ c.toNat ∧ c.toNat < 0x3a := by
    simp only [Char.isDigit, Bool.and_eq_true, decide_eq_true_eq, ge_iff_le, UInt32.le_iff_toNat_le]
    exact and_congr_right fun _ => Nat.lt_succ_iff.symm
  have hsize : c.utf8Size = 1 ↔ c.toNat < 0x80 := by
    rw [Char.utf8Size_eq_one_iff, UInt32.le_iff_toNat_le]
    exact Nat.lt_succ_iff.symm
  rw [hdigit, hsize]
  by_cases hascii : c.toNat < 0x80
  · have hrecent : recent.has c.toNat = false := by
      rw [recent, Flips.has, if_pos (by omega)]
    have hlate (more : Flips) : Flips.has (0x660 :: more) c.toNat = false := by
      rw [Flips.has, if_pos (by omega)]
    have hfirst (more : Flips) : Flips.has (0x30 :: 0x3a :: 0x660 :: more) c.toNat =
        (decide (0x30 ≤ c.toNat) && decide (c.toNat < 0x3a)) := by
      rw [Flips.has, Flips.has, hlate]
      grind
    rw [isDecimalDigit, hrecent, decimalDigit, hfirst]
    simp [hascii]
  · constructor <;> intro h <;> omega

end Text

namespace Bibliography

/-! ### The characters of a key -/

/-- What folding makes of a character is made of characters that it keeps. -/
theorem foldChar_kept (c : Char) : ∀ d ∈ foldChar c, isKept d = true := by
  have hresults : foldings.all (fun row => row.result.all isKept) = true := by decide +kernel
  unfold foldChar
  split
  · next row hrow =>
    exact List.all_eq_true.1 (List.all_eq_true.1 hresults row (List.mem_of_find?_eq_some hrow))
  · split
    · next hc => simpa using hc
    · simp

theorem labelKey_kept (e : Entry) : ∀ c ∈ labelKey e, isKept c = true := by
  intro c hc
  obtain ⟨d, _, hd⟩ := List.mem_flatMap.1 hc
  exact foldChar_kept d c hd

theorem isKept_of_isDigit {c : Char} (h : c.isDigit = true) : isKept c = true := by
  simp [isKept, Char.isAlphanum, h]

/-- A kept character is one of ASCII. -/
theorem utf8Size_of_isKept {c : Char} (h : isKept c = true) : c.utf8Size = 1 := by
  rw [Char.utf8Size_eq_one_iff, UInt32.le_iff_toNat_le]
  have hranges : c.isAlphanum = (decide (65 ≤ c.val ∧ c.val ≤ 90) ||
      (decide (97 ≤ c.val) && decide (c.val ≤ 122)) ||
      (decide (48 ≤ c.val) && decide (c.val ≤ 57))) := rfl
  simp only [isKept, hranges, Bool.or_eq_true, Bool.and_eq_true, decide_eq_true_eq, beq_iff_eq,
    UInt32.le_iff_toNat_le] at h
  rcases h with ((((((⟨_, h⟩ | ⟨_, h⟩) | ⟨_, h⟩) | rfl) | rfl) | rfl) | rfl)
  · exact Nat.le_trans h (by decide)
  · exact Nat.le_trans h (by decide)
  · exact Nat.le_trans h (by decide)
  all_goals decide

/-! ### The year -/

def IsYear (run : Text) : Prop := run.length = 4 ∧ run.all Text.isDecimalDigit = true

def FirstYear (s run : Text) : Prop :=
  ∃ before after, s = before ++ run ++ after ∧ IsYear run ∧
    ∀ before' run' after', s = before' ++ run' ++ after' → IsYear run' →
      before.length ≤ before'.length

section

variable {c : Char} {s run : Text}

theorem firstYear_of_take (h : IsYear (s.take 4)) : FirstYear s run ↔ run = s.take 4 := by
  constructor
  · rintro ⟨before, after, rfl, hrun, hfirst⟩
    have hbefore : before = [] := List.eq_nil_of_length_eq_zero
      (Nat.le_zero.1 (hfirst [] _ _ (List.take_append_drop 4 _).symm h))
    subst hbefore
    exact (List.take_left' hrun.1).symm
  · rintro rfl
    exact ⟨[], s.drop 4, (List.take_append_drop 4 s).symm, h, fun _ _ _ _ _ => Nat.zero_le _⟩

theorem firstYear_cons (h : ¬IsYear ((c :: s).take 4)) :
    FirstYear (c :: s) run ↔ FirstYear s run := by
  have hlater {before run' after : Text} (hs : c :: s = before ++ run' ++ after)
      (hrun : IsYear run') : ∃ rest, before = c :: rest ∧ s = rest ++ run' ++ after := by
    cases before with
    | nil =>
      refine absurd hrun ?_
      rwa [hs, List.nil_append, List.take_left' hrun.1] at h
    | cons d rest =>
      injection hs with hd hs
      exact ⟨rest, by rw [hd], hs⟩
  constructor
  · rintro ⟨before, after, hs, hrun, hfirst⟩
    obtain ⟨rest, rfl, hrest⟩ := hlater hs hrun
    refine ⟨rest, after, hrest, hrun, fun before' run' after' hs' hrun' => ?_⟩
    exact Nat.le_of_succ_le_succ (hfirst (c :: before') run' after' (by rw [hs']; rfl) hrun')
  · rintro ⟨rest, after, rfl, hrun, hfirst⟩
    refine ⟨c :: rest, after, rfl, hrun, fun before' run' after' hs' hrun' => ?_⟩
    obtain ⟨rest', rfl, hrest⟩ := hlater hs' hrun'
    exact Nat.succ_le_succ (hfirst rest' run' after' hrest hrun')

theorem firstYear?_eq_some_iff : firstYear? s = some run ↔ FirstYear s run := by
  induction s with
  | nil =>
    refine iff_of_false (by simp [firstYear?]) ?_
    rintro ⟨before, after, hs, ⟨hlength, _⟩, _⟩
    have hrun : run = [] := (List.append_eq_nil_iff.1 (List.append_eq_nil_iff.1 hs.symm).1).2
    simp [hrun] at hlength
  | cons c s ih =>
    rw [firstYear?]
    by_cases h : IsYear ((c :: s).take 4)
    · rw [firstYear_of_take h]
      exact (if_pos h).symm ▸ ⟨fun hrun => (Option.some.inj hrun).symm, fun hrun => by rw [hrun]⟩
    · rw [firstYear_cons h, ← ih]
      exact (if_neg h).symm ▸ Iff.rfl

end

/-- Two bytes are two characters, or one, or end inside one. -/
theorem dropBytes?_two (a b : Char) (s : Text) :
    dropBytes? 2 (a :: b :: s) =
      if a.utf8Size = 1 ∧ b.utf8Size = 1 then some s
      else if a.utf8Size = 2 then some (b :: s)
      else none := by
  have ha := a.utf8Size_pos
  have hb := b.utf8Size_pos
  by_cases hone : a.utf8Size = 1
  · by_cases hnext : b.utf8Size = 1
    · simp [dropBytes?, hone, hnext]
    · simp [dropBytes?, hone, hnext]
      omega
  · by_cases htwo : a.utf8Size = 2
    · simp [dropBytes?, htwo]
    · simp [dropBytes?, hone, htwo]
      omega

/-! ### The label -/

def HasYear (e : Entry) (run : Text) : Prop := ∃ year, e.year = some year ∧ FirstYear year run

section

variable {e : Entry} {run : Text}

theorem hasYear_iff : HasYear e run ↔ e.year.bind firstYear? = some run := by
  simp only [HasYear, Option.bind_eq_some_iff, firstYear?_eq_some_iff]

theorem HasYear.eq_of_hasYear {run' : Text} (h : HasYear e run) (h' : HasYear e run') :
    run = run' :=
  Option.some.inj ((hasYear_iff.1 h).symm.trans (hasYear_iff.1 h'))

theorem HasYear.isYear (h : HasYear e run) : IsYear run := by
  obtain ⟨year, _, before, after, _, hrun, _⟩ := h
  exact hrun

theorem HasYear.exists_eq (h : HasYear e run) :
    ∃ a b c d, run = [a, b, c, d] := by
  obtain ⟨hlength, _⟩ := h.isYear
  match run, hlength with
  | [a, b, c, d], _ => exact ⟨a, b, c, d, rfl⟩

theorem HasYear.isDigit_iff (h : HasYear e run) {c : Char} (hc : c ∈ run) :
    c.isDigit = true ↔ c.utf8Size = 1 := by
  rw [Text.isDigit_iff, and_iff_right (List.all_eq_true.1 h.isYear.2 c hc)]

theorem displayLabel_of_noYear (h : ∀ run, ¬HasYear e run) : displayLabel e = .ok (labelKey e) := by
  have hnone : e.year.bind firstYear? = none :=
    Option.eq_none_iff_forall_ne_some.2 fun run hrun => h run (hasYear_iff.2 hrun)
  simp [displayLabel, yearSuffix, hnone]

theorem displayLabel_of_hasYear {a b c d : Char} (h : HasYear e [a, b, c, d]) :
    displayLabel e =
      if a.utf8Size = 1 ∧ b.utf8Size = 1 then .ok (labelKey e ++ [c, d])
      else if a.utf8Size = 2 then .ok (labelKey e ++ [b, c, d])
      else .error .splitCharacter := by
  simp only [displayLabel, yearSuffix, hasYear_iff.1 h, dropBytes?_two]
  by_cases hone : a.utf8Size = 1 ∧ b.utf8Size = 1
  · simp only [if_pos hone]
  · by_cases htwo : a.utf8Size = 2
    · simp only [if_neg hone, if_pos htwo]
    · simp only [if_neg hone, if_neg htwo]

end

/-- The label of every entry. It is the key alone where the year has no run of four digits, and the
key with what is behind the second byte of the first such run otherwise. It is a label of kept
characters that ends in the last two digits of the run exactly if these digits are of ASCII. -/
theorem displayLabel_outcome (e : Entry) :
    ((∀ run, ¬HasYear e run) → displayLabel e = .ok (labelKey e)) ∧
    (∀ a b c d, HasYear e [a, b, c, d] →
      displayLabel e =
        if a.utf8Size = 1 ∧ b.utf8Size = 1 then .ok (labelKey e ++ [c, d])
        else if a.utf8Size = 2 then .ok (labelKey e ++ [b, c, d])
        else .error .splitCharacter) ∧
    ((∃ label, displayLabel e = .ok label ∧ (∀ c ∈ label, isKept c = true) ∧
        ∀ run, HasYear e run → label = labelKey e ++ run.drop 2) ↔
      ∀ run, HasYear e run → ∀ c ∈ run, c.isDigit = true) := by
  refine ⟨displayLabel_of_noYear, fun a b c d => displayLabel_of_hasYear, ?_, fun hdigits => ?_⟩
  · rintro ⟨label, hlabel, hkept, hlast⟩ run hrun x hx
    obtain ⟨a, b, c, d, rfl⟩ := hrun.exists_eq
    obtain rfl := hlast _ hrun
    rw [displayLabel_of_hasYear hrun] at hlabel
    split at hlabel
    · next hsize =>
      have hshown (y : Char) (hy : y ∈ [c, d]) : y.utf8Size = 1 :=
        utf8Size_of_isKept (hkept y (List.mem_append_right _ hy))
      rw [hrun.isDigit_iff hx]
      rcases List.mem_cons.1 hx with rfl | hx
      · exact hsize.1
      · rcases List.mem_cons.1 hx with rfl | hx
        · exact hsize.2
        · exact hshown x hx
    · split at hlabel
      · simp at hlabel
      · cases hlabel
  · by_cases hyear : ∃ run, HasYear e run
    · obtain ⟨run, hrun⟩ := hyear
      obtain ⟨a, b, c, d, rfl⟩ := hrun.exists_eq
      have hsize (x : Char) (hx : x ∈ [a, b, c, d]) : x.utf8Size = 1 :=
        (hrun.isDigit_iff hx).1 (hdigits _ hrun x hx)
      refine ⟨labelKey e ++ [c, d], ?_, fun x hx => ?_, fun run hrun' => ?_⟩
      · rw [displayLabel_of_hasYear hrun, if_pos ⟨hsize a (by simp), hsize b (by simp)⟩]
      · rcases List.mem_append.1 hx with hx | hx
        · exact labelKey_kept e x hx
        · exact isKept_of_isDigit (hdigits _ hrun x (List.mem_of_mem_drop (i := 2) hx))
      · rw [← hrun.eq_of_hasYear hrun']
        rfl
    · have hnone (run : Text) : ¬HasYear e run := fun h => hyear ⟨run, h⟩
      exact ⟨_, displayLabel_of_noYear hnone, labelKey_kept e, fun run h => absurd h (hnone run)⟩

/-- A digit of three bytes in front of a year breaks its label off. -/
theorem displayLabel_of_bengaliYear :
    HasYear { year := some "১1999" } ['১', '1', '9', '9'] ∧
      displayLabel { year := some "১1999" } = .error .splitCharacter := by
  have hyear : HasYear { year := some "১1999" } ['১', '1', '9', '9'] :=
    ⟨"১1999", rfl, firstYear?_eq_some_iff.1 (by decide +kernel)⟩
  exact ⟨hyear, (displayLabel_outcome _).2.1 _ _ _ _ hyear⟩

end Bibliography

end TexCatalog
