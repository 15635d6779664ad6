import EventUdpToKafka.GpsInstants

set_option autoImplicit false

/-!
# Packing a clock

The inverse of the field accessors: a clock reading as the word that they read it
from.
-/
namespace EventUdpToKafka.PackedClock
open GregorianCalendar GpsClock GpsInstants

/-- A shift and a mask cut a field out of the word. -/
theorem field_toNat {x s m : UInt64} {k w : ℕ} (hs : s.toNat % 64 = k) (hm : m.toNat = 2 ^ w - 1) :
    ((x >>> s) &&& m).toNat = x.toNat / 2 ^ k % 2 ^ w := by
  rw [UInt64.toNat_and, UInt64.toNat_shiftRight, hs, hm, Nat.and_two_pow_sub_one_eq_mod,
    Nat.shiftRight_eq_div_pow]

/-- A reading of the clock, each field within its bits. -/
structure Clock where
  years : ℕ
  days : ℕ
  hours : ℕ
  minutes : ℕ
  seconds : ℕ
  milliseconds : ℕ
  microseconds : ℕ
  nanoseconds : ℕ
  years_lt : years < 2 ^ 8
  days_lt : days < 2 ^ 9
  hours_lt : hours < 2 ^ 5
  minutes_lt : minutes < 2 ^ 6
  seconds_lt : seconds < 2 ^ 6
  milliseconds_lt : milliseconds < 2 ^ 10
  microseconds_lt : microseconds < 2 ^ 10
  nanoseconds_lt : nanoseconds < 2 ^ 10

namespace Clock
variable (c : Clock)

def packedRepr : ℕ :=
  c.years * 2 ^ 56 + c.days * 2 ^ 47 + c.hours * 2 ^ 42 + c.minutes * 2 ^ 36 + c.seconds * 2 ^ 30 +
    c.milliseconds * 2 ^ 20 + c.microseconds * 2 ^ 10 + c.nanoseconds

def pack : GpsTime := ⟨UInt64.ofNat c.packedRepr⟩

/-- The reading names an instant. A second of 60 is that of a leap second. -/
structure Valid : Prop where
  date : ValidDate (2000 + c.years) c.days
  hours : c.hours < 24
  minutes : c.minutes < 60
  seconds : c.seconds ≤ 60
  milliseconds : c.milliseconds < 1000
  microseconds : c.microseconds < 1000
  nanoseconds : c.nanoseconds < 1000

def nanosecondsSinceEpoch : ℕ :=
  (dayNumber (2000 + c.years) c.days - epoch) * 86400 * 10 ^ 9 +
    (c.hours * 3600 * 10 ^ 9 + c.minutes * 60 * 10 ^ 9 + c.seconds * 10 ^ 9 +
      c.milliseconds * 10 ^ 6 + c.microseconds * 10 ^ 3 + c.nanoseconds)

theorem packedRepr_digits : c.packedRepr < 2 ^ 64 ∧
    c.packedRepr / 2 ^ 56 = c.years ∧ c.packedRepr / 2 ^ 47 % 2 ^ 9 = c.days ∧
    c.packedRepr / 2 ^ 42 % 2 ^ 5 = c.hours ∧ c.packedRepr / 2 ^ 36 % 2 ^ 6 = c.minutes ∧
    c.packedRepr / 2 ^ 30 % 2 ^ 6 = c.seconds ∧ c.packedRepr / 2 ^ 20 % 2 ^ 10 = c.milliseconds ∧
    c.packedRepr / 2 ^ 10 % 2 ^ 10 = c.microseconds ∧ c.packedRepr % 2 ^ 10 = c.nanoseconds := by
  have hyears := c.years_lt
  have hdays := c.days_lt
  have hhours := c.hours_lt
  have hminutes := c.minutes_lt
  have hseconds := c.seconds_lt
  have hmilliseconds := c.milliseconds_lt
  have hmicroseconds := c.microseconds_lt
  have hnanoseconds := c.nanoseconds_lt
  unfold packedRepr
  omega

theorem pack_content : c.pack.content.toNat = c.packedRepr :=
  UInt64.toNat_ofNat_of_lt' c.packedRepr_digits.1

theorem pack_field {s m : UInt64} {k w : ℕ} (hs : s.toNat % 64 = k) (hm : m.toNat = 2 ^ w - 1) :
    ((c.pack.content >>> s) &&& m).toNat = c.packedRepr / 2 ^ k % 2 ^ w := by
  rw [field_toNat hs hm, pack_content]

theorem pack_years : c.pack.years.toNat = c.years := by
  obtain ⟨-, hyears, -⟩ := c.packedRepr_digits
  have hshift : c.pack.years.toNat = c.pack.content.toNat >>> 56 := UInt64.toNat_shiftRight _ (24 + 32)
  rw [hshift, pack_content, Nat.shiftRight_eq_div_pow, hyears]

theorem pack_days : c.pack.days.toNat = c.days := by
  obtain ⟨-, -, hdays, -⟩ := c.packedRepr_digits
  exact (c.pack_field (k := 47) (w := 9) rfl rfl).trans hdays

theorem pack_hours : c.pack.hours.toNat = c.hours := by
  obtain ⟨-, -, -, hhours, -⟩ := c.packedRepr_digits
  exact (c.pack_field (k := 42) (w := 5) rfl rfl).trans hhours

theorem pack_minutes : c.pack.minutes.toNat = c.minutes := by
  obtain ⟨-, -, -, -, hminutes, -⟩ := c.packedRepr_digits
  exact (c.pack_field (k := 36) (w := 6) rfl rfl).trans hminutes

theorem pack_seconds : c.pack.seconds.toNat = c.seconds := by
  obtain ⟨-, -, -, -, -, hseconds, -⟩ := c.packedRepr_digits
  exact (c.pack_field (k := 30) (w := 6) rfl rfl).trans hseconds

theorem pack_milliseconds : c.pack.milliseconds.toNat = c.milliseconds := by
  obtain ⟨-, -, -, -, -, -, hmilliseconds, -⟩ := c.packedRepr_digits
  exact (c.pack_field (k := 20) (w := 10) rfl rfl).trans hmilliseconds

theorem pack_microseconds : c.pack.microseconds.toNat = c.microseconds := by
  obtain ⟨-, -, -, -, -, -, -, hmicroseconds, -⟩ := c.packedRepr_digits
  exact (c.pack_field (k := 10) (w := 10) rfl rfl).trans hmicroseconds

theorem pack_nanoseconds : c.pack.nanoseconds.toNat = c.nanoseconds := by
  obtain ⟨-, -, -, -, -, -, -, -, hnanoseconds⟩ := c.packedRepr_digits
  have hmask : c.pack.nanoseconds.toNat = c.pack.content.toNat &&& (2 ^ 10 - 1) := UInt64.toNat_and _ _
  rw [hmask, Nat.and_two_pow_sub_one_eq_mod, pack_content, hnanoseconds]

theorem pack_instant : instant c.pack = c.nanosecondsSinceEpoch := by
  simp only [instant, midnightSeconds, timeOfDay, year, pack_years, pack_days, pack_hours,
    pack_minutes, pack_seconds, pack_milliseconds, pack_microseconds, pack_nanoseconds,
    nanosecondsSinceEpoch]

theorem pack_valid_iff : GpsInstants.Valid c.pack ↔ c.Valid := by
  have hdate : DateValid c.pack ↔ ValidDate (2000 + c.years) c.days := by
    rw [DateValid, year, pack_years, pack_days]
  constructor
  · intro h
    exact ⟨hdate.mp h.date, c.pack_hours ▸ h.hours, c.pack_minutes ▸ h.minutes,
      c.pack_seconds ▸ h.seconds, c.pack_milliseconds ▸ h.milliseconds,
      c.pack_microseconds ▸ h.microseconds, c.pack_nanoseconds ▸ h.nanoseconds⟩
  · intro h
    exact ⟨hdate.mpr h.date, c.pack_hours.symm ▸ h.hours, c.pack_minutes.symm ▸ h.minutes,
      c.pack_seconds.symm ▸ h.seconds, c.pack_milliseconds.symm ▸ h.milliseconds,
      c.pack_microseconds.symm ▸ h.microseconds, c.pack_nanoseconds.symm ▸ h.nanoseconds⟩

instance : Decidable c.Valid := decidable_of_iff _ c.pack_valid_iff

theorem pack_valid (h : c.Valid) : GpsInstants.Valid c.pack := c.pack_valid_iff.mpr h

theorem nanosecondsSinceEpoch_lt (h : c.Valid) : c.nanosecondsSinceEpoch < 2 ^ 63 := by
  rw [← pack_instant]
  exact instant_lt c.pack (c.pack_valid h).1

end Clock

/-- The reading of a word, valid or not. -/
def unpack (t : GpsTime) : Clock where
  years := t.years.toNat
  days := t.days.toNat
  hours := t.hours.toNat
  minutes := t.minutes.toNat
  seconds := t.seconds.toNat
  milliseconds := t.milliseconds.toNat
  microseconds := t.microseconds.toNat
  nanoseconds := t.nanoseconds.toNat
  years_lt := years_lt t
  days_lt := days_lt t
  hours_lt := hours_lt t
  minutes_lt := minutes_lt t
  seconds_lt := seconds_lt t
  milliseconds_lt := milliseconds_lt t
  microseconds_lt := microseconds_lt t
  nanoseconds_lt := nanoseconds_lt t

theorem unpack_packedRepr (t : GpsTime) : (unpack t).packedRepr = t.content.toNat := by
  have hword := t.content.toNat_lt
  have hyears : t.years.toNat = t.content.toNat / 2 ^ 56 :=
    (UInt64.toNat_shiftRight t.content (24 + 32)).trans (Nat.shiftRight_eq_div_pow _ _)
  have hdays : t.days.toNat = t.content.toNat / 2 ^ 47 % 2 ^ 9 := field_toNat rfl rfl
  have hhours : t.hours.toNat = t.content.toNat / 2 ^ 42 % 2 ^ 5 := field_toNat rfl rfl
  have hminutes : t.minutes.toNat = t.content.toNat / 2 ^ 36 % 2 ^ 6 := field_toNat rfl rfl
  have hseconds : t.seconds.toNat = t.content.toNat / 2 ^ 30 % 2 ^ 6 := field_toNat rfl rfl
  have hmilliseconds : t.milliseconds.toNat = t.content.toNat / 2 ^ 20 % 2 ^ 10 := field_toNat rfl rfl
  have hmicroseconds : t.microseconds.toNat = t.content.toNat / 2 ^ 10 % 2 ^ 10 := field_toNat rfl rfl
  have hnanoseconds : t.nanoseconds.toNat = t.content.toNat % 2 ^ 10 :=
    (UInt64.toNat_and _ _).trans (Nat.and_two_pow_sub_one_eq_mod t.content.toNat 10)
  simp only [Clock.packedRepr, unpack, hyears, hdays, hhours, hminutes, hseconds, hmilliseconds,
    hmicroseconds, hnanoseconds]
  omega

theorem pack_unpack (t : GpsTime) : (unpack t).pack = t := by
  rw [Clock.pack, unpack_packedRepr, UInt64.ofNat_toNat]

theorem unpack_pack (c : Clock) : unpack c.pack = c := by
  simp only [unpack, c.pack_years, c.pack_days, c.pack_hours, c.pack_minutes, c.pack_seconds,
    c.pack_milliseconds, c.pack_microseconds, c.pack_nanoseconds]

theorem unpack_valid_iff (t : GpsTime) : (unpack t).Valid ↔ GpsInstants.Valid t := by
  rw [← Clock.pack_valid_iff, pack_unpack]

end EventUdpToKafka.PackedClock
