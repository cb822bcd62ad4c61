import Mathlib.Algebra.GroupWithZero.Nat
import Mathlib.Tactic.ByContra
import TexCatalog.Date.Calendar

/-!
# Days and their numbers

The days of the calendar follow each other without gaps, so each has a number: how many days it is
behind the first day of 1970. The number of a day is found by adding up the years and the months in
front of it. Every number is that of one day only, and it is the day that the calendar gives for it.
-/

namespace TexCatalog.Date

/-- The days from the start of the year 0 to the start of a year: 365 for each year in between, and
one more for each leap year. -/
def yearStart (year : Int) : Int :=
  365 * year + (year + 3) / 4 - (year + 99) / 100 + (year + 399) / 400

def monthStart (year : Int) (month : Nat) : Nat := ((monthLengths year).take (month - 1)).sum

def monthLength (year : Int) (month : Nat) : Nat := (monthLengths year)[month - 1]?.getD 0

def dayNumber (d : Date) : Int :=
  yearStart d.year + monthStart d.year d.month + d.day - 1 - epochStart

structure IsDay (d : Date) : Prop where
  month_pos : 1 ≤ d.month
  day_pos : 1 ≤ d.day
  day_le : d.day ≤ monthLength d.year d.month

instance (d : Date) : Decidable d.IsDay :=
  decidable_of_iff (1 ≤ d.month ∧ 1 ≤ d.day ∧ d.day ≤ monthLength d.year d.month)
    ⟨fun ⟨hmonth, hpos, hle⟩ => ⟨hmonth, hpos, hle⟩, fun h => ⟨h.month_pos, h.day_pos, h.day_le⟩⟩

def InRange (d : Date) : Prop := lowestYear ≤ d.year ∧ d.year ≤ highestYear

instance (d : Date) : Decidable d.InRange :=
  inferInstanceAs (Decidable (lowestYear ≤ d.year ∧ d.year ≤ highestYear))

theorem ofNumbers?_eq_some_iff {year : Int} {month day : Nat} {d : Date} :
    ofNumbers? year month day = some d ↔ d = ⟨year, month, day⟩ ∧ d.IsDay ∧ d.InRange := by
  unfold ofNumbers?
  rw [Option.ite_none_right_eq_some, Option.some.injEq, eq_comm (b := d)]
  constructor
  · rintro ⟨⟨hlow, hhigh, hmonth, hpos, hle⟩, rfl⟩
    exact ⟨rfl, ⟨hmonth, hpos, hle⟩, hlow, hhigh⟩
  · rintro ⟨rfl, ⟨hmonth, hpos, hle⟩, hlow, hhigh⟩
    exact ⟨⟨hlow, hhigh, hmonth, hpos, hle⟩, rfl⟩

/-! ### Years -/

theorem isLeap_iff {year : Int} :
    isLeap year = true ↔ year % 4 = 0 ∧ (year % 100 ≠ 0 ∨ year % 400 = 0) := by
  simp [isLeap]

theorem yearStart_succ (year : Int) : yearStart (year + 1) = yearStart year + yearLength year := by
  unfold yearLength yearStart
  split
  · next h =>
    rw [isLeap_iff] at h
    omega
  · next h =>
    rw [isLeap_iff] at h
    omega

theorem yearStart_mono {year later : Int} (h : year ≤ later) :
    yearStart year ≤ yearStart later := by
  by_cases hsame : year = later
  · exact hsame ▸ Int.le_refl _
  · unfold yearStart
    omega

/-- The calendar repeats after 400 years. -/
theorem yearStart_cycle (cycles year : Int) :
    yearStart (400 * cycles + year) = cycleLength * cycles + yearStart year := by
  unfold yearStart cycleLength
  omega

theorem isLeap_cycle (cycles year : Int) : isLeap (400 * cycles + year) = isLeap year := by
  rw [Bool.eq_iff_iff, isLeap_iff, isLeap_iff]
  omega

theorem monthLengths_cycle (cycles year : Int) :
    monthLengths (400 * cycles + year) = monthLengths year := by
  rw [monthLengths, isLeap_cycle, ← monthLengths]

theorem findYear_spec {fuel : Nat} {year : Int} {n : Nat}
    (h : yearStart year + n < yearStart (year + fuel)) :
    yearStart (findYear fuel year n).1 + (findYear fuel year n).2 = yearStart year + n ∧
      (findYear fuel year n).2 < yearLength (findYear fuel year n).1 := by
  induction fuel generalizing year n with
  | zero =>
    rw [Int.natCast_zero, Int.add_zero] at h
    omega
  | succ fuel ih =>
    rw [findYear]
    have hnext := yearStart_succ year
    split
    · next hlt => exact ⟨rfl, hlt⟩
    · next hlt =>
      have hyear : year + 1 + fuel = year + (fuel + 1 : Nat) := by omega
      have hwithin : yearStart (year + 1) + (n - yearLength year : Nat) <
          yearStart (year + 1 + fuel) := by
        rw [hyear]
        omega
      obtain ⟨hsum, hrest⟩ := ih hwithin
      exact ⟨by omega, hrest⟩

/-! ### Months -/

theorem sum_monthLengths (year : Int) : (monthLengths year).sum = yearLength year := by
  unfold monthLengths yearLength
  split <;> rfl

/-- The month of a day of the year, and the day of that month. -/
theorem findMonth_spec {lengths : List Nat} (month : Nat) {n : Nat} (h : n < lengths.sum) :
    ∃ k, (findMonth month n lengths).1 = month + k ∧ 1 ≤ (findMonth month n lengths).2 ∧
      (findMonth month n lengths).2 ≤ lengths[k]?.getD 0 ∧
      (lengths.take k).sum + (findMonth month n lengths).2 = n + 1 := by
  induction lengths generalizing month n with
  | nil => exact absurd h (Nat.not_lt_zero n)
  | cons length more ih =>
    rw [findMonth]
    split
    · next hlt => exact ⟨0, rfl, by omega, hlt, by simp⟩
    · next hlt =>
      rw [List.sum_cons] at h
      have hwithin : n - length < more.sum := by omega
      obtain ⟨k, hmonth, hpos, hle, hsum⟩ := ih (month + 1) hwithin
      refine ⟨k + 1, by omega, hpos, by simpa using hle, ?_⟩
      rw [List.take_succ_cons, List.sum_cons]
      omega

theorem monthLength_le (year : Int) (month : Nat) : monthLength year month ≤ 31 := by
  have hall : ∀ length ∈ monthLengths year, length ≤ 31 := by
    unfold monthLengths
    split <;> decide
  unfold monthLength
  cases h : (monthLengths year)[month - 1]? with
  | none => exact Nat.zero_le _
  | some length => exact hall length (List.mem_of_getElem? h)

theorem IsDay.month_le {d : Date} (h : d.IsDay) : d.month ≤ 12 := by
  by_contra hmonth
  have hlength : (monthLengths d.year).length ≤ d.month - 1 := by
    simp only [monthLengths, List.length_cons, List.length_nil]
    omega
  have hle := h.day_le
  rw [monthLength, List.getElem?_eq_none hlength, Option.getD_none] at hle
  have hpos := h.day_pos
  omega

theorem monthStart_succ (year : Int) {month : Nat} (h : 1 ≤ month) :
    monthStart year (month + 1) = monthStart year month + monthLength year month := by
  obtain ⟨k, rfl⟩ : ∃ k, month = k + 1 := ⟨month - 1, by omega⟩
  rw [monthStart, monthStart, monthLength, Nat.add_sub_cancel, Nat.add_sub_cancel,
    List.take_add_one, List.sum_append]
  cases (monthLengths year)[k]? <;> simp

theorem monthStart_mono {year : Int} {month later : Nat} (hmonth : 1 ≤ month)
    (h : month ≤ later) : monthStart year month ≤ monthStart year later := by
  induction h with
  | refl => exact Nat.le_refl _
  | step h ih =>
    rw [monthStart_succ year (Nat.le_trans hmonth h)]
    omega

/-! ### Days -/

theorem IsDay.monthStart_add_day_le {d : Date} (h : d.IsDay) :
    monthStart d.year d.month + d.day ≤ yearLength d.year := by
  have hyear : monthStart d.year 13 = yearLength d.year := by
    rw [← sum_monthLengths]
    rfl
  have hnext := monthStart_succ d.year h.month_pos
  have hend : monthStart d.year (d.month + 1) ≤ monthStart d.year 13 :=
    monthStart_mono (Nat.le_add_left 1 _) (Nat.succ_le_succ h.month_le)
  have hle := h.day_le
  omega

/-- A day lies in its year. -/
theorem IsDay.dayNumber_bounds {d : Date} (h : d.IsDay) :
    yearStart d.year ≤ d.dayNumber + epochStart ∧
      d.dayNumber + epochStart < yearStart (d.year + 1) := by
  have hpos := h.day_pos
  have hle := h.monthStart_add_day_le
  rw [yearStart_succ, dayNumber]
  omega

theorem IsDay.year_le {d d' : Date} (h : d.IsDay) (h' : d'.IsDay)
    (hle : d.dayNumber ≤ d'.dayNumber) : d.year ≤ d'.year := by
  by_contra hlt
  have hstart : yearStart (d'.year + 1) ≤ yearStart d.year := yearStart_mono (by omega)
  have hd := h.dayNumber_bounds
  have hd' := h'.dayNumber_bounds
  omega

/-- No two days have one number. -/
theorem IsDay.eq_of_dayNumber {d d' : Date} (h : d.IsDay) (h' : d'.IsDay)
    (heq : d.dayNumber = d'.dayNumber) : d = d' := by
  obtain ⟨year, month, day⟩ := d
  obtain ⟨year', month', day'⟩ := d'
  obtain rfl : year = year' :=
    Int.le_antisymm (h.year_le h' (Int.le_of_eq heq)) (h'.year_le h (Int.le_of_eq heq.symm))
  have hsum : monthStart year month + day = monthStart year month' + day' := by
    simp only [dayNumber] at heq
    omega
  have hmonth {m m' n n' : Nat} (hd : IsDay ⟨year, m, n⟩) (hd' : IsDay ⟨year, m', n'⟩)
      (heq : monthStart year m + n = monthStart year m' + n') : m ≤ m' := by
    by_contra hlt
    have hnext : monthStart year (m' + 1) = _ := monthStart_succ year hd'.month_pos
    have hstart : monthStart year (m' + 1) ≤ monthStart year m :=
      monthStart_mono (Nat.le_add_left 1 _) (by omega)
    have hle := hd'.day_le
    have hpos := hd.day_pos
    simp only at hle hpos
    omega
  obtain rfl : month = month' := Nat.le_antisymm (hmonth h h' hsum) (hmonth h' h hsum.symm)
  rw [Nat.add_left_cancel hsum]

/-- The day that the calendar gives for a number. -/
theorem ofDayNumber_spec (n : Int) : (ofDayNumber n).IsDay ∧ (ofDayNumber n).dayNumber = n := by
  have hcycle : ((n + epochStart) % cycleLength).toNat =
      (n + epochStart) - cycleLength * ((n + epochStart) / cycleLength) := by
    unfold cycleLength
    omega
  have hfirst : yearStart 0 = 0 := by decide
  have hlast : yearStart (0 + (400 : Nat)) = cycleLength := by decide
  have hwithin :
      yearStart 0 + ((n + epochStart) % cycleLength).toNat < yearStart (0 + (400 : Nat)) := by
    rw [hlast, hfirst]
    unfold cycleLength
    omega
  obtain ⟨hyear, hrest⟩ := findYear_spec hwithin
  rw [← sum_monthLengths] at hrest
  obtain ⟨k, hmonth, hpos, hle, hday⟩ := findMonth_spec 1 hrest
  unfold ofDayNumber
  refine ⟨⟨?_, hpos, ?_⟩, ?_⟩
  · simp only [hmonth]
    omega
  · simp only [monthLength, monthLengths_cycle, hmonth, Nat.add_sub_cancel_left]
    exact hle
  · simp only [dayNumber, monthStart, monthLengths_cycle, yearStart_cycle, hmonth,
      Nat.add_sub_cancel_left]
    omega

theorem ofDayNumber_eq_iff {n : Int} {d : Date} :
    ofDayNumber n = d ↔ d.IsDay ∧ d.dayNumber = n := by
  obtain ⟨hday, hnumber⟩ := ofDayNumber_spec n
  constructor
  · rintro rfl
    exact ⟨hday, hnumber⟩
  · rintro ⟨hd, rfl⟩
    exact hday.eq_of_dayNumber hd hnumber

example : dayNumber ⟨1970, 1, 1⟩ = 0 ∧ dayNumber ⟨1969, 12, 31⟩ = -1 := by decide

/-! ### Seconds -/

def Contains (d : Date) (seconds : Int) : Prop :=
  86400 * d.dayNumber ≤ seconds ∧ seconds < 86400 * (d.dayNumber + 1)

instance (d : Date) (seconds : Int) : Decidable (d.Contains seconds) :=
  inferInstanceAs (Decidable (_ ∧ _))

/-- A number of seconds gives the day that contains the second, if it lies in range. -/
theorem ofSeconds?_eq_some_iff {seconds : Int} {d : Date} :
    ofSeconds? seconds = some d ↔ d.IsDay ∧ d.InRange ∧ d.Contains seconds := by
  have hfloor : d.dayNumber = seconds / 86400 ↔ d.Contains seconds := by
    unfold Contains
    omega
  rw [← hfloor]
  unfold ofSeconds?
  rw [Option.ite_none_right_eq_some, Option.some.injEq]
  constructor
  · rintro ⟨hrange, hd⟩
    obtain ⟨hday, hnumber⟩ := ofDayNumber_eq_iff.1 hd
    exact ⟨hday, hd ▸ hrange, hnumber⟩
  · rintro ⟨hday, hrange, hnumber⟩
    have hd := ofDayNumber_eq_iff.2 ⟨hday, hnumber⟩
    exact ⟨hd ▸ hrange, hd⟩

def firstDay : Date := ⟨lowestYear, 1, 1⟩

def lastDay : Date := ⟨highestYear, 12, 31⟩

/-- Every second from the start of the first day to the end of the last one lies in a day in
range. -/
theorem exists_contains {seconds : Int} (hfirst : 86400 * firstDay.dayNumber ≤ seconds)
    (hlast : seconds < 86400 * (lastDay.dayNumber + 1)) :
    ∃ d : Date, d.IsDay ∧ d.InRange ∧ d.Contains seconds := by
  obtain ⟨hday, hnumber⟩ := ofDayNumber_spec (seconds / 86400)
  have hlow : firstDay.dayNumber ≤ (ofDayNumber (seconds / 86400)).dayNumber := by omega
  have hhigh : (ofDayNumber (seconds / 86400)).dayNumber ≤ lastDay.dayNumber := by omega
  have hfirstDay : firstDay.IsDay := by decide
  have hlastDay : lastDay.IsDay := by decide
  refine ⟨_, hday, ⟨hfirstDay.year_le hday hlow, hday.year_le hlastDay hhigh⟩, ?_⟩
  unfold Contains
  omega

end TexCatalog.Date
