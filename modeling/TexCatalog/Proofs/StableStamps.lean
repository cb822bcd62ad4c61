import Mathlib.Data.Nat.Digits.Defs
import TexCatalog.Proofs.CalendarDays
import TexCatalog.Proofs.TrimmedText
import TexCatalog.Site.Config

/-!
# Stable time stamps

The date that a stamp stands for may be given as a stamp in its turn, and stands for itself then: it
is printed in the form of a date, and no date is read as a number of seconds. A number of seconds
stands for the day that contains the second, in front of 1970 as well as behind it.
-/

namespace TexCatalog

namespace Date

/-! ### Digits -/

theorem value_eq (s : Text) : value s = Nat.ofDigitChars 10 s 0 := by
  simp only [value, Nat.ofDigitChars, Nat.mul_comm]

theorem value_zeros (n : Nat) (s : Text) : value (List.replicate n '0' ++ s) = value s := by
  induction n with
  | zero => rfl
  | succ n ih =>
    rw [← ih]
    rfl

@[simp] theorem value_padded (width n : Nat) : value (padded width n) = n := by
  rw [padded, value_zeros, value_eq]
  exact Nat.ofDigitChars_toDigits (by decide) (by decide)

theorem isDigit_padded (width n : Nat) : ∀ c ∈ padded width n, c.isDigit := by
  intro c hc
  rcases List.mem_append.1 hc with hc | hc
  · rw [List.eq_of_mem_replicate hc]
    decide
  · exact Nat.isDigit_of_mem_toDigits (by decide) (by decide) hc

theorem length_padded (width n : Nat) :
    (padded width n).length = max width (Text.ofNat n).length := by
  rw [padded, List.length_append, List.length_replicate]
  omega

theorem length_padded_of_lt (width n : Nat) (hwidth : 0 < width) (h : n < 10 ^ width) :
    (padded width n).length = width := by
  rw [length_padded]
  exact Nat.max_eq_left (Nat.toDigits_length 10 n width hwidth h)

theorem not_isBlank_of_isDigit {c : Char} (h : c.isDigit) : ¬c.isBlank := by
  have hdigit : 48 ≤ c.toNat ∧ c.toNat ≤ 57 := by
    simpa [Char.isDigit, UInt32.le_iff_toNat_le] using h
  simp only [Char.isBlank, Bool.or_eq_true, Bool.and_eq_true, decide_eq_true_eq, beq_iff_eq]
  omega

theorem trimStart_of_isDigit {c : Char} (h : c.isDigit) (s : Text) :
    Text.trimStart (c :: s) = c :: s :=
  List.dropWhile_cons_of_neg (not_isBlank_of_isDigit h)

theorem not_isDigit_head_dash (s : Text) : ∀ c ∈ ('-' :: s).head?, ¬c.isDigit := by
  rintro _ ⟨rfl⟩
  decide

/-- A number ends in front of what is no digit, or where it has as many digits as it may have. -/
theorem number?_append {least most : Nat} {digits rest : Text} (hdigits : ∀ c ∈ digits, c.isDigit)
    (hleast : least ≤ digits.length) (hmost : digits.length ≤ most)
    (hrest : ∀ c ∈ rest.head?, ¬c.isDigit) :
    number? least most (digits ++ rest) = some (value digits, rest) := by
  have hbehind : (rest.take (most - digits.length)).takeWhile Char.isDigit = [] := by
    cases rest with
    | nil => simp
    | cons c rest =>
      cases most - digits.length with
      | zero => rfl
      | succ more => exact List.takeWhile_cons_of_neg (hrest c rfl)
  have htake : ((digits ++ rest).take most).takeWhile Char.isDigit = digits := by
    rw [List.take_append, List.take_of_length_le hmost, List.takeWhile_append_of_pos hdigits,
      hbehind, List.append_nil]
  unfold number?
  simp only [htake]
  rw [if_neg (Nat.not_lt.2 hleast), List.drop_left]

/-! ### Reading what is printed -/

theorem exists_padded (width n : Nat) (hwidth : 0 < width) :
    ∃ c more, padded width n = c :: more ∧ c.isDigit := by
  have hpos : 0 < (padded width n).length := by
    rw [length_padded]
    omega
  obtain ⟨c, more, heq⟩ := List.exists_cons_of_ne_nil (List.length_pos_iff.1 hpos)
  exact ⟨c, more, heq, isDigit_padded width n c (heq ▸ List.mem_cons_self ..)⟩

theorem year?_of_isDigit {c : Char} (hc : c.isDigit) (s : Text) :
    year? (c :: s) = (number? 1 4 (c :: s)).map fun p => ((p.1 : Int), p.2) := by
  unfold year?
  rw [trimStart_of_isDigit hc]
  split
  · next heq =>
    cases heq
    exact absurd hc (by decide)
  · next heq =>
    cases heq
    exact absurd hc (by decide)
  · rfl

theorem year?_minus (s : Text) :
    year? ('-' :: s) = (number? 1 s.length s).map fun p => (-(p.1 : Int), p.2) := rfl

theorem year?_plus (s : Text) :
    year? ('+' :: s) = (number? 1 s.length s).map fun p => ((p.1 : Int), p.2) := rfl

theorem year?_printYear (year : Int) (s : Text) :
    year? (printYear year ++ '-' :: s) = some (year, '-' :: s) := by
  have hrest := not_isDigit_head_dash s
  unfold printYear
  split
  · next hyear =>
    have hlength := length_padded_of_lt 4 year.toNat (by decide) (by omega)
    have hread : number? 1 4 (padded 4 year.toNat ++ '-' :: s) = some (year.toNat, '-' :: s) := by
      rw [number?_append (isDigit_padded 4 _) (by omega) (by omega) hrest, value_padded]
    obtain ⟨c, more, heq, hc⟩ := exists_padded 4 year.toNat (by decide)
    rw [heq, List.cons_append] at hread ⊢
    rw [year?_of_isDigit hc, hread, Option.map_some, Int.toNat_of_nonneg hyear.1]
  · next hyear =>
    have hread : number? 1 (padded 4 year.natAbs ++ '-' :: s).length
        (padded 4 year.natAbs ++ '-' :: s) = some (year.natAbs, '-' :: s) := by
      have hlength := length_padded 4 year.natAbs
      rw [number?_append (isDigit_padded 4 _) (by omega) (by simp) hrest, value_padded]
    rw [List.cons_append]
    split
    · have hyear : -(year.natAbs : Int) = year := by omega
      rw [year?_minus, hread, Option.map_some, hyear]
    · have hyear : (year.natAbs : Int) = year := by omega
      rw [year?_plus, hread, Option.map_some, hyear]

theorem number?_twoDigits {n : Nat} (h : n < 100) {s : Text} (hs : ∀ c ∈ s.head?, ¬c.isDigit) :
    number? 1 2 (Text.trimStart (padded 2 n ++ s)) = some (n, s) := by
  have hlength := length_padded_of_lt 2 n (by decide) h
  obtain ⟨c, more, heq, hc⟩ := exists_padded 2 n (by decide)
  have hstart : Text.trimStart (padded 2 n ++ s) = padded 2 n ++ s := by
    rw [heq, List.cons_append, trimStart_of_isDigit hc]
  rw [hstart, number?_append (isDigit_padded 2 n) (by omega) (by omega) hs, value_padded]

/-- A date is read back as it is printed. -/
theorem calendarDate?_print {d : Date} (hday : d.IsDay) (hrange : d.InRange) :
    calendarDate? d.print = some d := by
  have hmonth := hday.month_le
  have hlast := Nat.le_trans hday.day_le (monthLength_le ..)
  have hdate : ofNumbers? d.year d.month d.day = some d :=
    ofNumbers?_eq_some_iff.2 ⟨rfl, hday, hrange⟩
  have hend : ∀ c ∈ ([] : Text).head?, ¬c.isDigit := by simp
  have hprint : d.print =
      printYear d.year ++ '-' :: (padded 2 d.month ++ '-' :: (padded 2 d.day ++ [])) := by
    simp [print]
  rw [hprint]
  unfold calendarDate?
  simp only [year?_printYear, mark?, if_pos, Option.bind_eq_bind, Option.bind_some,
    number?_twoDigits (Nat.lt_of_le_of_lt hmonth (by decide))
      (not_isDigit_head_dash _),
    number?_twoDigits (Nat.lt_of_le_of_lt hlast (by decide)) hend, hdate]

/-! ### Integers -/

def signs : List Text := [[], ['-'], ['+']]

def signed (sign : Text) (n : Nat) : Int := if sign = ['-'] then -n else n

theorem integer?_signed {sign : Text} (hsign : sign ∈ signs) {c : Char} (hc : c.isDigit)
    (more : Text) : integer? (sign ++ c :: more) =
      if (c :: more).all Char.isDigit ∧
        Int64.minValue.toInt ≤ signed sign (value (c :: more)) ∧
          signed sign (value (c :: more)) ≤ Int64.maxValue.toInt
      then some (signed sign (value (c :: more))) else none := by
  have hminus : c ≠ '-' := by
    rintro rfl
    exact absurd hc (by decide)
  have hplus : c ≠ '+' := by
    rintro rfl
    exact absurd hc (by decide)
  simp only [signs, List.mem_cons, List.not_mem_nil, or_false] at hsign
  rcases hsign with rfl | rfl | rfl <;>
    by_cases hall : (c :: more).all Char.isDigit <;>
      simp [integer?, signed, hminus, hplus, hall]

def IsNumeral (s : Text) (n : Int) : Prop :=
  ∃ sign ∈ signs, ∃ digits : Text, digits ≠ [] ∧ (∀ c ∈ digits, c.isDigit) ∧
    s = sign ++ digits ∧ n = signed sign (value digits)

theorem IsNumeral.integer? {s : Text} {n : Int} (h : IsNumeral s n)
    (hlow : Int64.minValue.toInt ≤ n) (hhigh : n ≤ Int64.maxValue.toInt) :
    integer? s = some n := by
  obtain ⟨sign, hsign, digits, hne, hdigits, rfl, rfl⟩ := h
  obtain ⟨c, more, rfl⟩ := List.exists_cons_of_ne_nil hne
  rw [integer?_signed hsign (hdigits c (List.mem_cons_self ..)),
    if_pos ⟨List.all_eq_true.2 hdigits, hlow, hhigh⟩]

theorem not_isBlank_of_mem_signs {sign : Text} (h : sign ∈ signs) : ∀ c ∈ sign, ¬c.isBlank := by
  simp only [signs, List.mem_cons, List.not_mem_nil, or_false] at h
  rcases h with rfl | rfl | rfl <;> simp [Char.isBlank]

/-- A sign and digits, or nothing but digits, are not trimmed. -/
theorem IsNumeral.trim {s : Text} {n : Int} (h : IsNumeral s n) {front back : Text}
    (hfront : ∀ c ∈ front, c.isBlank) (hback : ∀ c ∈ back, c.isBlank) :
    Text.trim (front ++ s ++ back) = s := by
  obtain ⟨sign, hsign, digits, -, hdigits, rfl, -⟩ := h
  have hs : ∀ c ∈ sign ++ digits, ¬c.isBlank := fun c hc =>
    (List.mem_append.1 hc).elim (not_isBlank_of_mem_signs hsign c)
      fun hc => not_isBlank_of_isDigit (hdigits c hc)
  rw [List.append_assoc, Text.trim_blanks_append hfront]
  exact Text.trim_append_blanks (fun c hc => hs c (List.mem_of_head? hc))
    (fun c hc => hs c (List.mem_of_getLast? hc)) hback

/-- A printed year begins with a digit, perhaps behind a sign. -/
theorem exists_printYear (year : Int) :
    ∃ sign ∈ signs, ∃ c more, printYear year = sign ++ c :: more ∧ c.isDigit := by
  unfold printYear
  split
  · obtain ⟨c, more, heq, hc⟩ := exists_padded 4 year.toNat (by decide)
    exact ⟨[], by simp [signs], c, more, heq, hc⟩
  · obtain ⟨c, more, heq, hc⟩ := exists_padded 4 year.natAbs (by decide)
    rw [heq]
    split
    · exact ⟨['-'], by simp [signs], c, more, rfl, hc⟩
    · exact ⟨['+'], by simp [signs], c, more, rfl, hc⟩

/-- A date has a dash behind its year, so it is no integer. -/
theorem integer?_print (d : Date) : integer? d.print = none := by
  obtain ⟨sign, hsign, c, more, heq, hc⟩ := exists_printYear d.year
  have hprint : d.print =
      sign ++ c :: (more ++ '-' :: (padded 2 d.month ++ '-' :: padded 2 d.day)) := by
    simp [print, heq]
  rw [hprint, integer?_signed hsign hc]
  refine if_neg fun h => ?_
  have hdash := List.all_eq_true.1 h.1 '-' (by simp)
  exact absurd hdash (by decide)

theorem trim_print (d : Date) : Text.trim d.print = d.print := by
  obtain ⟨sign, hsign, c, more, heq, hc⟩ := exists_printYear d.year
  have hfirst : ∀ a ∈ d.print.head?, ¬a.isBlank := by
    have hstart : (sign ++ [c]).head? = d.print.head? := by
      simp [print, heq]
    rw [← hstart]
    intro a ha
    rcases List.mem_append.1 (List.mem_of_head? ha) with ha | ha
    · exact not_isBlank_of_mem_signs hsign a ha
    · exact List.mem_singleton.1 ha ▸ not_isBlank_of_isDigit hc
  have hlast : ∀ a ∈ d.print.getLast?, ¬a.isBlank := by
    obtain ⟨c, more, heq, _⟩ := exists_padded 2 d.day (by decide)
    have hend : d.print.getLast? = (padded 2 d.day).getLast? := by
      rw [print, List.getLast?_append, heq, List.getLast?_cons, Option.some_or]
    rw [hend]
    exact fun a ha => not_isBlank_of_isDigit (isDigit_padded 2 d.day a (List.mem_of_getLast? ha))
  simpa using Text.trim_append_blanks hfirst hlast (List.forall_mem_nil _)

/-! ### Stamps -/

theorem calendarDate?_isDay {s : Text} {d : Date} (h : calendarDate? s = some d) :
    d.IsDay ∧ d.InRange := by
  simp only [calendarDate?, Option.bind_eq_bind, Option.bind_eq_some_iff] at h
  obtain ⟨_, _, _, _, _, _, _, _, _, _, h⟩ := h
  obtain ⟨_, h⟩ := Option.ite_none_right_eq_some.1 h
  exact (ofNumbers?_eq_some_iff.1 h).2

theorem timedDate?_isDay {s : Text} {d : Date} (h : timedDate? s = some d) :
    d.IsDay ∧ d.InRange := by
  simp only [timedDate?, Option.bind_eq_bind, Option.bind_eq_some_iff] at h
  obtain ⟨_, _, _, _, _, _, _, _, _, _, h⟩ := h
  split at h
  · cases h
  · obtain ⟨_, h⟩ := Option.ite_none_right_eq_some.1 h
    simp only [Option.bind_eq_some_iff] at h
    obtain ⟨_, _, _, _, h⟩ := h
    obtain ⟨_, h⟩ := Option.ite_none_right_eq_some.1 h
    exact (ofNumbers?_eq_some_iff.1 h).2

theorem ofStamp?_isDay {s : Text} {d : Date} (h : ofStamp? s = some d) :
    d.IsDay ∧ d.InRange := by
  unfold ofStamp? at h
  split at h
  · obtain ⟨hday, hrange, -⟩ := ofSeconds?_eq_some_iff.1 h
    exact ⟨hday, hrange⟩
  · rcases Option.or_eq_some_iff.1 h with h | ⟨-, h⟩
    · exact calendarDate?_isDay h
    · exact timedDate?_isDay h

theorem ofStamp?_print {d : Date} (hday : d.IsDay) (hrange : d.InRange) :
    ofStamp? d.print = some d := by
  unfold ofStamp?
  rw [trim_print, integer?_print, calendarDate?_print hday hrange]
  rfl

/-- Seconds in range are integers of 64 bits. -/
theorem ofStamp?_seconds {front s back : Text} {seconds : Int} (hs : IsNumeral s seconds)
    (hfront : ∀ c ∈ front, c.isBlank) (hback : ∀ c ∈ back, c.isBlank)
    (hfirst : 86400 * firstDay.dayNumber ≤ seconds)
    (hlast : seconds < 86400 * (lastDay.dayNumber + 1)) :
    ofStamp? (front ++ s ++ back) = ofSeconds? seconds := by
  have hlow : Int64.minValue.toInt ≤ 86400 * firstDay.dayNumber := by decide
  have hhigh : 86400 * (lastDay.dayNumber + 1) ≤ Int64.maxValue.toInt := by decide
  unfold ofStamp?
  rw [hs.trim hfront hback,
    hs.integer? (Int.le_trans hlow hfirst) (Int.le_trans (Int.le_of_lt hlast) hhigh)]

end Date

namespace Config

/-- The date that a stamp gives is a stamp that gives the same date, and a number of seconds gives
the day that contains the second. -/
theorem date_stable (c : Config) (today : Date) :
    (∀ stamp date, c.timestamp = some stamp → c.date today = .ok date →
      ∀ later, ({ c with timestamp := some date } : Config).date later = .ok date) ∧
    ∀ front s back seconds, Date.IsNumeral s seconds → (∀ c ∈ front, c.isBlank) →
      (∀ c ∈ back, c.isBlank) → 86400 * Date.firstDay.dayNumber ≤ seconds →
      seconds < 86400 * (Date.lastDay.dayNumber + 1) →
      c.timestamp = some (front ++ s ++ back) →
      ∃ d : Date, d.IsDay ∧ d.Contains seconds ∧ c.date today = .ok d.print := by
  constructor
  · intro stamp date hstamp hdate later
    simp only [Config.date, hstamp] at hdate
    split at hdate
    · next d hd =>
      cases hdate
      obtain ⟨hday, hrange⟩ := Date.ofStamp?_isDay hd
      simp only [Config.date, Date.ofStamp?_print hday hrange]
    · cases hdate
  · intro front s back seconds hs hfront hback hfirst hlast hstamp
    obtain ⟨d, hday, hrange, hcontains⟩ := Date.exists_contains hfirst hlast
    have hread := Date.ofStamp?_seconds hs hfront hback hfirst hlast
    rw [Date.ofSeconds?_eq_some_iff.2 ⟨hday, hrange, hcontains⟩] at hread
    refine ⟨d, hday, hcontains, ?_⟩
    simp only [Config.date, hstamp, hread]

/-- The last second of 1969. -/
theorem date_stable_lastSecond :
    let c : Config := { timestamp := some " -1\n" }
    (∃ d : Date, d.IsDay ∧ d.Contains (-1) ∧ c.date ⟨1970, 1, 1⟩ = .ok d.print) ∧
      c.date ⟨1970, 1, 1⟩ = .ok "1969-12-31" ∧
      ({ c with timestamp := some "1969-12-31" } : Config).date ⟨1970, 1, 1⟩ =
        .ok "1969-12-31" := by
  intro c
  have hdate : c.date ⟨1970, 1, 1⟩ = .ok "1969-12-31" := by decide +kernel
  have hminus : Date.IsNumeral ['-', '1'] (-1) :=
    ⟨['-'], by decide, ['1'], by decide, List.all_eq_true.1 (by decide), rfl, by decide +kernel⟩
  have hspace : ∀ c ∈ [' '], c.isBlank := List.all_eq_true.1 (by decide)
  have hnewline : ∀ c ∈ ['\n'], c.isBlank := List.all_eq_true.1 (by decide)
  obtain ⟨hstable, hseconds⟩ := date_stable c ⟨1970, 1, 1⟩
  exact ⟨hseconds [' '] ['-', '1'] ['\n'] (-1) hminus hspace hnewline (by decide) (by decide)
    (by decide +kernel), hdate, hstable _ _ rfl hdate _⟩

end Config

end TexCatalog
