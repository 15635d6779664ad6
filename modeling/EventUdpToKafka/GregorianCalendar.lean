import Mathlib.Data.Nat.Find
import Mathlib.Tactic.Common

set_option autoImplicit false

/-!
# Days of the Gregorian calendar

Days are counted from the first day of year 0, and a date is a year with the
number of a day in it, from 1 on.
-/
namespace EventUdpToKafka.GregorianCalendar

def isLeap (y : ℕ) : Bool := y % 4 == 0 && (y % 100 != 0 || y % 400 == 0)

def yearLength (y : ℕ) : ℕ := if isLeap y then 366 else 365

def daysBefore : ℕ → Nat
  | 0 => 0
  | y + 1 => daysBefore y + yearLength y

def ValidDate (y day : ℕ) : Prop := 1 ≤ day ∧ day ≤ yearLength y

instance (y day : ℕ) : Decidable (ValidDate y day) := inferInstanceAs (Decidable (_ ∧ _))

def dayNumber (y day : ℕ) : ℕ := daysBefore y + (day - 1)

/-- The year of the day with number `n`. -/
def yearOf (n : ℕ) : ℕ := Nat.findGreatest (fun y => daysBefore y ≤ n) (n / 365)

def dayOf (n : ℕ) : ℕ := n - daysBefore (yearOf n) + 1

/-- The first day of 1970. -/
def epoch : ℕ := 719528

theorem yearLength_cases (y : ℕ) :
    (yearLength y = 366 ∧ y % 4 = 0 ∧ (y % 100 ≠ 0 ∨ y % 400 = 0)) ∨
      (yearLength y = 365 ∧ (y % 4 ≠ 0 ∨ y % 100 = 0 ∧ y % 400 ≠ 0)) := by
  unfold yearLength isLeap
  split
  · simp_all
  · simp_all
    omega

private theorem multiples_succ (y k : ℕ) (hk : 0 < k) :
    (y + 1 + (k - 1)) / k = (y + (k - 1)) / k + if y % k = 0 then 1 else 0 := by
  have hsum : y + 1 + (k - 1) = y + (k - 1) + 1 := by omega
  have hdvd : k ∣ y + (k - 1) + 1 ↔ y % k = 0 := by
    rw [Nat.add_assoc, Nat.sub_add_cancel hk, Nat.dvd_iff_mod_eq_zero, Nat.add_mod_right]
  rw [hsum, Nat.succ_div]
  simp only [hdvd]

/-- The leap years before `y` are the multiples of 4 that are no multiples of 100, and the
    multiples of 400. -/
theorem daysBefore_eq (y : ℕ) :
    daysBefore y + (y + 99) / 100 = 365 * y + (y + 3) / 4 + (y + 399) / 400 := by
  induction y with
  | zero => rfl
  | succ y ih =>
    have h4 : (y + 1 + 3) / 4 = (y + 3) / 4 + if y % 4 = 0 then 1 else 0 := multiples_succ y 4 (by decide)
    have h100 : (y + 1 + 99) / 100 = (y + 99) / 100 + if y % 100 = 0 then 1 else 0 :=
      multiples_succ y 100 (by decide)
    have h400 : (y + 1 + 399) / 400 = (y + 399) / 400 + if y % 400 = 0 then 1 else 0 :=
      multiples_succ y 400 (by decide)
    rw [daysBefore, h4, h100, h400]
    generalize (y + 3) / 4 = a at ih ⊢
    generalize (y + 99) / 100 = b at ih ⊢
    generalize (y + 399) / 400 = c at ih ⊢
    rcases yearLength_cases y with ⟨hlength, hfour, hcentury⟩ | ⟨hlength, hcommon⟩ <;> split_ifs <;> omega

theorem daysBefore_mono {y y' : ℕ} (h : y ≤ y') : daysBefore y ≤ daysBefore y' := by
  induction h with
  | refl => exact Nat.le_refl _
  | step _ ih => exact Nat.le_trans ih (Nat.le_add_right _ _)

theorem epoch_eq : epoch = daysBefore 1970 := by
  have h := daysBefore_eq 1970
  unfold epoch
  omega

theorem epoch_le_dayNumber {y : ℕ} (h : 1970 ≤ y) (day : ℕ) : epoch ≤ dayNumber y day := by
  rw [epoch_eq]
  exact Nat.le_trans (daysBefore_mono h) (Nat.le_add_right _ _)

theorem dayNumber_lt {y day : ℕ} (h : ValidDate y day) : dayNumber y day < daysBefore (y + 1) := by
  obtain ⟨hlo, hhi⟩ := h
  rw [daysBefore, dayNumber]
  omega

theorem dayNumber_next_day {y day : ℕ} (h : 1 ≤ day) : dayNumber y (day + 1) = dayNumber y day + 1 := by
  unfold dayNumber
  omega

theorem dayNumber_next_year {y day : ℕ} (h : ValidDate y day) (hlast : ¬ day < yearLength y) :
    dayNumber (y + 1) 1 = dayNumber y day + 1 := by
  obtain ⟨hlo, hhi⟩ := h
  unfold dayNumber
  rw [daysBefore]
  omega

theorem daysBefore_ge (y : ℕ) : 365 * y ≤ daysBefore y := by
  have h := daysBefore_eq y
  omega

theorem daysBefore_yearOf_le (n : ℕ) : daysBefore (yearOf n) ≤ n :=
  Nat.findGreatest_spec (P := fun y => daysBefore y ≤ n) (Nat.zero_le _) (Nat.zero_le n)

theorem lt_daysBefore_yearOf_succ (n : ℕ) : n < daysBefore (yearOf n + 1) := by
  by_contra hc
  have hle : daysBefore (yearOf n + 1) ≤ n := Nat.le_of_not_lt hc
  have hge := daysBefore_ge (yearOf n + 1)
  have hbound : yearOf n + 1 ≤ n / 365 := by omega
  have hgreatest : yearOf n + 1 ≤ yearOf n :=
    Nat.le_findGreatest (P := fun y => daysBefore y ≤ n) hbound hle
  omega

theorem validDate_yearOf (n : ℕ) : ValidDate (yearOf n) (dayOf n) := by
  have hle := daysBefore_yearOf_le n
  have hlt := lt_daysBefore_yearOf_succ n
  rw [daysBefore] at hlt
  unfold ValidDate dayOf
  omega

theorem dayNumber_yearOf (n : ℕ) : dayNumber (yearOf n) (dayOf n) = n := by
  have hle := daysBefore_yearOf_le n
  unfold dayNumber dayOf
  omega

theorem dayNumber_lt_iff {y y' day day' : ℕ} (h : ValidDate y day) (h' : ValidDate y' day') :
    dayNumber y day < dayNumber y' day' ↔ y < y' ∨ y = y' ∧ day < day' := by
  have hend := dayNumber_lt h
  have hend' := dayNumber_lt h'
  rcases Nat.lt_trichotomy y y' with hlt | rfl | hgt
  · have hmono : daysBefore (y + 1) ≤ daysBefore y' := daysBefore_mono hlt
    have hstart : daysBefore y' ≤ dayNumber y' day' := Nat.le_add_right _ _
    exact iff_of_true (by omega) (.inl hlt)
  · have hlo := h.1
    have hlo' := h'.1
    unfold dayNumber
    omega
  · have hmono : daysBefore (y' + 1) ≤ daysBefore y := daysBefore_mono hgt
    have hstart : daysBefore y ≤ dayNumber y day := Nat.le_add_right _ _
    exact iff_of_false (by omega) (by omega)

end EventUdpToKafka.GregorianCalendar
