import EventUdpToKafka.GpsClock
import EventUdpToKafka.GregorianCalendar

set_option autoImplicit false

/-!
# The instant of a packed clock

Over the Gregorian calendar the conversion of a packed clock never overflows, and
its result is the number of nanoseconds from the epoch to the instant that the
fields name.
-/
namespace EventUdpToKafka.GpsInstants
open MachineWords GregorianCalendar GpsClock

/-- What the `chrono` package documents, for the years that a packed clock can hold. -/
structure Gregorian (chrono : Chrono) : Prop where
  accepts {y day : ℕ} (hlo : 2000 ≤ y) (hhi : y < 2256) (hday : day < 2 ^ 32) :
    (chrono.fromYoOpt (Int32.ofNat y) (UInt32.ofNat day)).isSome ↔ ValidDate y day
  timestamp {y day : ℕ} (hlo : 2000 ≤ y) (hhi : y < 2256) (hday : day < 2 ^ 32)
    {date : chrono.NaiveDate} (h : chrono.fromYoOpt (Int32.ofNat y) (UInt32.ofNat day) = some date) :
    (chrono.timestamp date).toInt = ((dayNumber y day - epoch : ℕ) : ℤ) * 86400

def gregorianChrono : Chrono where
  NaiveDate := ℕ × ℕ
  fromYoOpt year day :=
    if ValidDate year.toNatClampNeg day.toNat then some (year.toNatClampNeg, day.toNat) else none
  timestamp date := Int64.ofInt (((dayNumber date.1 date.2 : ℤ) - epoch) * 86400)

variable (t : GpsTime)

def year : ℕ := 2000 + t.years.toNat

def DateValid : Prop := ValidDate (year t) t.days.toNat

/-- The fields name an instant. A second of 60 is that of a leap second. -/
structure Valid : Prop where
  date : DateValid t
  hours : t.hours.toNat < 24
  minutes : t.minutes.toNat < 60
  seconds : t.seconds.toNat ≤ 60
  milliseconds : t.milliseconds.toNat < 1000
  microseconds : t.microseconds.toNat < 1000
  nanoseconds : t.nanoseconds.toNat < 1000

/-- The code's range check is the check of the bounds. -/
theorem valid_iff : Valid t ↔ DateValid t ∧ t.inRange := by
  simp only [GpsTime.inRange, Bool.and_eq_true, decide_eq_true_eq, UInt64.lt_iff_toNat_lt,
    UInt64.le_iff_toNat_le]
  constructor
  · rintro ⟨date, hours, minutes, seconds, milliseconds, microseconds, nanoseconds⟩
    exact ⟨date, ⟨⟨⟨⟨hours, minutes⟩, seconds⟩, milliseconds⟩, microseconds⟩, nanoseconds⟩
  · rintro ⟨date, ⟨⟨⟨⟨hours, minutes⟩, seconds⟩, milliseconds⟩, microseconds⟩, nanoseconds⟩
    exact ⟨date, hours, minutes, seconds, milliseconds, microseconds, nanoseconds⟩

instance : Decidable (DateValid t) := inferInstanceAs (Decidable (ValidDate _ _))

instance : Decidable (Valid t) := decidable_of_iff _ (valid_iff t).symm

def midnightSeconds : ℕ := (dayNumber (year t) t.days.toNat - epoch) * 86400

def timeOfDay : ℕ :=
  t.hours.toNat * 3600 * 10 ^ 9 + t.minutes.toNat * 60 * 10 ^ 9 + t.seconds.toNat * 10 ^ 9 +
    t.milliseconds.toNat * 10 ^ 6 + t.microseconds.toNat * 10 ^ 3 + t.nanoseconds.toNat

def instant : ℕ := midnightSeconds t * 10 ^ 9 + timeOfDay t

theorem years_lt : t.years.toNat < 256 := by
  have h := t.content.toNat_lt
  have hs : t.years.toNat = t.content.toNat >>> 56 := UInt64.toNat_shiftRight t.content (24 + 32)
  rw [hs, Nat.shiftRight_eq_div_pow]
  omega

private theorem field_le (x m : UInt64) : (x &&& m).toNat ≤ m.toNat := by
  rw [UInt64.toNat_and]
  exact Nat.and_le_right

theorem days_lt : t.days.toNat < 512 := Nat.lt_succ_of_le (field_le _ 0b111111111)

theorem hours_lt : t.hours.toNat < 32 := Nat.lt_succ_of_le (field_le _ 0b11111)

theorem minutes_lt : t.minutes.toNat < 64 := Nat.lt_succ_of_le (field_le _ 0b111111)

theorem seconds_lt : t.seconds.toNat < 64 := Nat.lt_succ_of_le (field_le _ 0b111111)

theorem milliseconds_lt : t.milliseconds.toNat < 1024 := Nat.lt_succ_of_le (field_le _ 0b1111111111)

theorem microseconds_lt : t.microseconds.toNat < 1024 := Nat.lt_succ_of_le (field_le _ 0b1111111111)

theorem nanoseconds_lt : t.nanoseconds.toNat < 1024 := Nat.lt_succ_of_le (field_le _ 0b1111111111)

theorem midnightSeconds_pos : 0 < midnightSeconds t := by
  have h2000 := daysBefore_eq 2000
  have hmono := daysBefore_mono (Nat.le_add_right 2000 t.years.toNat)
  unfold midnightSeconds dayNumber year epoch
  omega

theorem midnightSeconds_lt (h : DateValid t) : midnightSeconds t < 9025257600 := by
  have hyear := years_lt t
  have hday := dayNumber_lt h
  have h2256 := daysBefore_eq 2256
  have hmono : daysBefore (year t + 1) ≤ daysBefore 2256 := daysBefore_mono (by unfold year; omega)
  unfold midnightSeconds epoch
  omega

theorem instant_pos : 0 < instant t := by
  have h := midnightSeconds_pos t
  unfold instant
  omega

/-- The bound does not need the range checks on the time of day. -/
theorem instant_lt (h : DateValid t) : instant t < 2 ^ 63 := by
  have hm := midnightSeconds_lt t h
  have hh := hours_lt t
  have hmin := minutes_lt t
  have hs := seconds_lt t
  have hms := milliseconds_lt t
  have hus := microseconds_lt t
  have hns := nanoseconds_lt t
  unfold instant timeOfDay
  omega

theorem sumNanos_eq (p : Profile) (h : DateValid t) :
    t.sumNanos p (UInt64.ofNat (midnightSeconds t)) = .ok (UInt64.ofNat (instant t)) := by
  have hm := midnightSeconds_lt t h
  have hh := hours_lt t
  have hmin := minutes_lt t
  have hs := seconds_lt t
  have hms := milliseconds_lt t
  have hus := microseconds_lt t
  have hns := nanoseconds_lt t
  have hfield (x : UInt64) : x = UInt64.ofNat x.toNat := UInt64.ofNat_toNat.symm
  unfold instant timeOfDay
  conv_lhs =>
    rw [GpsClock.GpsTime.sumNanos, hfield t.hours, hfield t.minutes, hfield t.seconds,
      hfield t.milliseconds, hfield t.microseconds, hfield t.nanoseconds]
  have hsec : GpsTime.nanosPerSec = UInt64.ofNat (10 ^ 9) := rfl
  have h3600 : (3600 : UInt64) = UInt64.ofNat 3600 := rfl
  have h60 : (60 : UInt64) = UInt64.ofNat 60 := rfl
  have hmilli : (1000000 : UInt64) = UInt64.ofNat (10 ^ 6) := rfl
  have hmicro : (1000 : UInt64) = UInt64.ofNat (10 ^ 3) := rfl
  simp (disch := omega) only [hsec, h3600, h60, hmilli, hmicro, u64Mul_ofNat, u64Add_ofNat, ok_bind]
  simp only [Nat.add_assoc]

theorem midnight_eq {chrono : Chrono} (hc : Gregorian chrono) (p : Profile) :
    t.midnight p chrono =
      .ok (if DateValid t then some (UInt64.ofNat (midnightSeconds t)) else none) := by
  have hy := years_lt t
  have hd := days_lt t
  have hlo : 2000 ≤ year t := Nat.le_add_right _ _
  have hhi : year t < 2256 := by unfold year; omega
  have hday : t.days.toNat < 2 ^ 32 := by omega
  have hyears : i32TryFrom t.years = some (Int32.ofNat t.years.toNat) := if_pos (by omega)
  have hdays : u32TryFrom t.days = some (UInt32.ofNat t.days.toNat) := if_pos hday
  have hsum : i32Add p (Int32.ofNat t.years.toNat) 2000 = .ok (Int32.ofNat (year t)) := by
    rw [year, Nat.add_comm]
    exact i32Add_ofNat p (show t.years.toNat + 2000 < 2 ^ 31 by omega)
  have haccepts := hc.accepts hlo hhi hday
  simp only [GpsTime.midnight, hyears, hdays, hsum, ok_bind]
  cases hdate : chrono.fromYoOpt (Int32.ofNat (year t)) (UInt32.ofNat t.days.toNat) with
  | none =>
    have hno : ¬ DateValid t := fun h => by
      have := haccepts.mpr h
      rw [hdate] at this
      cases this
    rw [if_neg hno]
    rfl
  | some date =>
    have hyes : DateValid t := haccepts.mp (by rw [hdate]; rfl)
    have hts : (chrono.timestamp date).toInt = (midnightSeconds t : ℤ) :=
      hc.timestamp hlo hhi hday hdate
    rw [if_pos hyes, ← u64TryFrom_of_toInt hts]
    rfl

theorem nanosecondsSinceEpoch_eq {chrono : Chrono} (hc : Gregorian chrono) (p : Profile) :
    t.nanosecondsSinceEpoch p chrono =
      .ok (if Valid t then some (UInt64.ofNat (instant t)) else none) := by
  rw [GpsTime.nanosecondsSinceEpoch, midnight_eq t hc]
  by_cases hdate : DateValid t
  · rw [if_pos hdate, ok_bind]
    dsimp only
    rw [sumNanos_eq t p hdate, ok_bind]
    by_cases hrange : t.inRange
    · rw [if_pos hrange, if_pos ((valid_iff t).mpr ⟨hdate, hrange⟩)]
      rfl
    · rw [if_neg hrange, if_neg fun h => hrange ((valid_iff t).mp h).2]
      rfl
  · rw [if_neg hdate, if_neg fun h => hdate h.date]
    rfl

theorem nanosecondsSinceEpoch_release (chrono : Chrono) :
    ∃ time, t.nanosecondsSinceEpoch .release chrono = .ok time := by
  have hmidnight : ∃ midnight, t.midnight .release chrono = .ok midnight := by
    unfold GpsTime.midnight
    split
    · exact ⟨_, rfl⟩
    · split <;> exact ⟨_, rfl⟩
  obtain ⟨_ | midnight, hm⟩ := hmidnight
  · exact ⟨none, by rw [GpsTime.nanosecondsSinceEpoch, hm]; rfl⟩
  · exact ⟨_, by rw [GpsTime.nanosecondsSinceEpoch, hm]; rfl⟩

theorem gregorianChrono_fromYoOpt {y day : ℕ} (hy : y < 2256) (hday : day < 2 ^ 32) :
    gregorianChrono.fromYoOpt (Int32.ofNat y) (UInt32.ofNat day) =
      if ValidDate y day then some (y, day) else none := by
  have hyear : (Int32.ofNat y).toNatClampNeg = y := Int32.toNatClampNeg_ofNat_of_lt (by omega)
  have hd : (UInt32.ofNat day).toNat = day := UInt32.toNat_ofNat_of_lt' hday
  simp only [gregorianChrono, hyear, hd]

theorem gregorianChrono_gregorian : Gregorian gregorianChrono where
  accepts {y day} _ hhi hday := by
    rw [gregorianChrono_fromYoOpt hhi hday]
    by_cases h : ValidDate y day
    · rw [if_pos h]
      exact iff_of_true rfl h
    · rw [if_neg h]
      exact iff_of_false Bool.false_ne_true h
  timestamp {y day} hlo hhi hday date h := by
    rw [gregorianChrono_fromYoOpt hhi hday] at h
    split at h
    · rename_i hvalid
      cases h
      have hle := epoch_le_dayNumber (Nat.le_trans (by decide) hlo) day
      have hlt := Nat.lt_of_lt_of_le (dayNumber_lt hvalid) (daysBefore_mono hhi)
      have h2256 := daysBefore_eq 2256
      have hcast : ((dayNumber y day - epoch : ℕ) : ℤ) = (dayNumber y day : ℤ) - epoch := by omega
      rw [hcast]
      change (Int64.ofInt (((dayNumber y day : ℤ) - epoch) * 86400)).toInt = _
      exact Int64.toInt_ofInt_of_le (by omega) (by omega)
    · cases h

end EventUdpToKafka.GpsInstants
