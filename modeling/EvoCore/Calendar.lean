import Mathlib

namespace EvoCore.Calendar

-- The proleptic Gregorian calendar. Days are numbered from 1970-01-01, day 0, in both directions.
def isLeap (y : Int) : Bool := y%4 = 0 && (y%100 ≠ 0 || y%400 = 0)

def daysIn (y : Int) (m : Nat) : Int :=
  if m = 2 then if isLeap y then 29 else 28
  else if m = 4 ∨ m = 6 ∨ m = 9 ∨ m = 11 then 30
  else 31

def yearStart (y : Int) : Int := 365*(y-1970)+(y-1)/4-(y-1)/100+(y-1)/400-477

def monthStart (y : Int) (m : Nat) : Int := ∑ k ∈ Finset.range (m-1),daysIn y (k+1)

structure IsDate (n y : Int) (m d : Nat) : Prop where
  month : 1 ≤ m ∧ m ≤ 12
  day : 1 ≤ d ∧ (d : Int) ≤ daysIn y m
  number : n = yearStart y+monthStart y m+(d-1)

-- Monday is 0; day 0 was a Thursday.
def weekdayNumber (n : Int) : Int := (n+3)%7

theorem daysIn_pos (y : Int) (m : Nat) : 28 ≤ daysIn y m := by
  unfold daysIn
  split
  · split <;> omega
  · split <;> omega

theorem monthStart_succ (y : Int) (m : Nat) : monthStart y (m+2) = monthStart y (m+1)+daysIn y (m+1) := Finset.sum_range_succ _ m

theorem monthStart_later {y : Int} {m later : Nat} (first : 1 ≤ m) (before : m < later) : monthStart y m+daysIn y m ≤ monthStart y later := by
  obtain ⟨k,rfl⟩ := Nat.exists_eq_add_of_le' first
  obtain ⟨more,rfl⟩ := Nat.exists_eq_add_of_lt before
  induction more with
  | zero => exact (monthStart_succ y k).symm.le
  | succ more ih =>
    have step := monthStart_succ y (k+1+more)
    have full := daysIn_pos y (k+1+more+1)
    have so_far := ih (by omega)
    rw [show k+1+(more+1)+1 = k+1+more+2 from rfl,step]
    omega

theorem year_days (y : Int) : monthStart y 13 = if isLeap y then 366 else 365 := by
  unfold monthStart daysIn
  cases isLeap y <;> decide

theorem yearStart_succ (y : Int) : yearStart (y+1) = yearStart y+monthStart y 13 := by
  rw [year_days]
  unfold yearStart isLeap
  by_cases four : y%4 = 0 <;> by_cases hundred : y%100 = 0 <;> by_cases cycle : y%400 = 0 <;> simp [four,hundred,cycle] <;> omega

theorem yearStart_mono : Monotone yearStart := by
  apply monotone_int_of_le_succ
  intro y
  rw [yearStart_succ,year_days]
  split <;> omega

variable {n y : Int} {m d : Nat}

theorem IsDate.inYear (date : IsDate n y m d) : yearStart y ≤ n ∧ n < yearStart (y+1) := by
  have number := date.number
  have fits := monthStart_later (y := y) date.month.1 (show m < 13 by have := date.month.2; omega)
  have early : 0 ≤ monthStart y m := Finset.sum_nonneg fun k _ => (show (0 : Int) ≤ daysIn y (k+1) from le_trans (by decide) (daysIn_pos y (k+1)))
  have day := date.day
  rw [yearStart_succ]
  omega

theorem IsDate.year_unique {z : Int} {k e : Nat} (date : IsDate n y m d) (other : IsDate n z k e) : y = z := by
  obtain ⟨from_,until_⟩ := date.inYear
  obtain ⟨from__,until__⟩ := other.inYear
  rcases lt_trichotomy y z with before | same | after
  · have := yearStart_mono (show y+1 ≤ z from before)
    omega
  · exact same
  · have := yearStart_mono (show z+1 ≤ y from after)
    omega

theorem IsDate.unique {z : Int} {k e : Nat} (date : IsDate n y m d) (other : IsDate n z k e) : y = z ∧ m = k ∧ d = e := by
  cases date.year_unique other
  have number := date.number
  have number_ := other.number
  have day := date.day
  have day_ := other.day
  rcases lt_trichotomy m k with before | same | after
  · have := monthStart_later (y := y) date.month.1 before
    omega
  · cases same
    omega
  · have := monthStart_later (y := y) other.month.1 after
    omega

-- The date of a day: the year is guessed from the mean length of a year, one off at most.
def yearOf (n : Int) : Int :=
  let guess := 400*(n+719162)/146097+1
  if n < yearStart guess then guess-1
  else if yearStart (guess+1) ≤ n then guess+1
  else guess

def monthOf (n : Int) : Nat := Nat.findGreatest (fun m => monthStart (yearOf n) m ≤ n-yearStart (yearOf n)) 12

def dayOf (n : Int) : Nat := (n-yearStart (yearOf n)-monthStart (yearOf n) (monthOf n)+1).toNat

theorem yearOf_within (n : Int) : yearStart (yearOf n) ≤ n ∧ n < yearStart (yearOf n+1) := by
  unfold yearOf
  simp only
  split
  · unfold yearStart at *
    omega
  · split
    · unfold yearStart at *
      omega
    · unfold yearStart at *
      omega

theorem monthOf_within (n : Int) : (1 ≤ monthOf n ∧ monthOf n ≤ 12) ∧ monthStart (yearOf n) (monthOf n) ≤ n-yearStart (yearOf n) ∧
    n-yearStart (yearOf n) < monthStart (yearOf n) (monthOf n)+daysIn (yearOf n) (monthOf n) := by
  obtain ⟨from_,until_⟩ := yearOf_within n
  have january : monthStart (yearOf n) 1 ≤ n-yearStart (yearOf n) := by
    have : monthStart (yearOf n) 1 = 0 := rfl
    omega
  have first : 1 ≤ monthOf n := Nat.le_findGreatest (by decide) january
  have last : monthOf n ≤ 12 := Nat.findGreatest_le 12
  have begun : monthStart (yearOf n) (monthOf n) ≤ n-yearStart (yearOf n) :=
    Nat.findGreatest_spec (P := fun m => monthStart (yearOf n) m ≤ n-yearStart (yearOf n)) (by decide : 1 ≤ 12) january
  refine ⟨⟨first,last⟩,begun,?_⟩
  obtain ⟨k,shape⟩ := Nat.exists_eq_add_of_le' first
  rw [shape,←monthStart_succ]
  by_cases december : k+1 = 12
  · have : k+2 = 13 := by omega
    rw [yearStart_succ] at until_
    rw [this]
    omega
  · exact not_le.mp (Nat.findGreatest_is_greatest (P := fun m => monthStart (yearOf n) m ≤ n-yearStart (yearOf n))
      (show monthOf n < k+2 by omega) (by omega))

theorem isDate_of (n : Int) : IsDate n (yearOf n) (monthOf n) (dayOf n) := by
  obtain ⟨month,begun,within_⟩ := monthOf_within n
  refine ⟨month,?_,?_⟩ <;> unfold dayOf <;> omega

end EvoCore.Calendar
