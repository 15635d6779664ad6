import EventUdpToKafka.MixedRadix
import EventUdpToKafka.PackedClock
import Mathlib.Order.Hom.Basic
import Mathlib.Order.Interval.Set.Defs

set_option autoImplicit false

/-!
# The order of the packed clocks

A packed clock and its instant are two numerals over the same fields. Leap seconds
apart, the packed words are ordered as the instants are, and no instant of the years
2000 to 2255 is left out.
-/
namespace EventUdpToKafka.ClockOrder
open MachineWords GregorianCalendar GpsClock GpsInstants MixedRadix PackedClock

/-- The start of the year 2000. -/
def opening : ℕ := (dayNumber 2000 1 - epoch) * 86400 * 10 ^ 9

/-- The start of the year 2256. -/
def closing : ℕ := (dayNumber 2256 1 - epoch) * 86400 * 10 ^ 9

def Ordinary (c : Clock) : Prop := c.Valid ∧ c.seconds < 60

def packedRadices : List ℕ := [2 ^ 8, 2 ^ 9, 2 ^ 5, 2 ^ 6, 2 ^ 6, 2 ^ 10, 2 ^ 10, 2 ^ 10]

def timeRadices : List ℕ := [104459, 24, 60, 60, 1000, 1000, 1000]

def dayDigits (c : Clock) : List ℕ :=
  [c.hours, c.minutes, c.seconds, c.milliseconds, c.microseconds, c.nanoseconds]

def packedDigits (c : Clock) : List ℕ := c.years :: c.days :: dayDigits c

def timeDigits (c : Clock) : List ℕ :=
  (dayNumber (2000 + c.years) c.days - epoch) :: dayDigits c

theorem opening_eq : opening = 946684800 * 10 ^ 9 := by
  have h := daysBefore_eq 2000
  unfold opening dayNumber epoch
  generalize daysBefore 2000 = days at h ⊢
  omega

theorem closing_eq : closing = 9025257600 * 10 ^ 9 := by
  have h := daysBefore_eq 2256
  unfold closing dayNumber epoch
  generalize daysBefore 2256 = days at h ⊢
  omega

section Numerals
variable (c : Clock)

theorem packedRepr_value : c.packedRepr = value packedRadices (packedDigits c) := by
  simp only [Clock.packedRepr, packedRadices, packedDigits, dayDigits, value, List.prod_cons, List.prod_nil]
  omega

theorem nanosecondsSinceEpoch_value :
    c.nanosecondsSinceEpoch = value timeRadices (timeDigits c) := by
  simp only [Clock.nanosecondsSinceEpoch, timeRadices, timeDigits, dayDigits, value,
    List.prod_cons, List.prod_nil]
  omega

theorem packedDigits_within : Within packedRadices (packedDigits c) :=
  .cons c.years_lt (.cons c.days_lt (.cons c.hours_lt (.cons c.minutes_lt (.cons c.seconds_lt
    (.cons c.milliseconds_lt (.cons c.microseconds_lt (.cons c.nanoseconds_lt .nil)))))))

variable {c}

theorem days_bounds (h : c.Valid) : daysBefore 2000 ≤ dayNumber (2000 + c.years) c.days ∧
    dayNumber (2000 + c.years) c.days < daysBefore 2256 := by
  have hyears : 2000 + c.years + 1 ≤ 2256 := Nat.add_le_add_left c.years_lt 2000
  have hstart : daysBefore 2000 ≤ daysBefore (2000 + c.years) := daysBefore_mono (Nat.le_add_right _ _)
  exact ⟨Nat.le_trans hstart (Nat.le_add_right _ _),
    Nat.lt_of_lt_of_le (dayNumber_lt h.date) (daysBefore_mono hyears)⟩

theorem timeDigits_within (h : Ordinary c) : Within timeRadices (timeDigits c) := by
  obtain ⟨hvalid, hseconds⟩ := h
  have hdays : dayNumber (2000 + c.years) c.days - epoch < 104459 := by
    have hend := (days_bounds hvalid).2
    have h2256 := daysBefore_eq 2256
    unfold epoch
    omega
  exact .cons hdays (.cons hvalid.hours (.cons hvalid.minutes (.cons hseconds
    (.cons hvalid.milliseconds (.cons hvalid.microseconds (.cons hvalid.nanoseconds .nil))))))

variable {c' : Clock}

/-- The year and the day in it are ordered as the day count is. -/
theorem digits_lt_iff (h : c.Valid) (h' : c'.Valid) :
    packedDigits c < packedDigits c' ↔ timeDigits c < timeDigits c' := by
  have hlt := dayNumber_lt_iff h.date h'.date
  have hgt := dayNumber_lt_iff h'.date h.date
  have hlo := (days_bounds h).1
  have hlo' := (days_bounds h').1
  have h2000 := daysBefore_eq 2000
  rw [packedDigits, packedDigits, timeDigits, timeDigits, List.cons_lt_cons_iff,
    List.cons_lt_cons_iff, List.cons_lt_cons_iff]
  by_cases hds : dayDigits c < dayDigits c'
  · simp only [hds, and_true]
    unfold epoch
    omega
  · simp only [hds, and_false, or_false]
    unfold epoch
    omega

theorem packedRepr_lt_iff (h : Ordinary c) (h' : Ordinary c') :
    c.packedRepr < c'.packedRepr ↔ c.nanosecondsSinceEpoch < c'.nanosecondsSinceEpoch := by
  rw [packedRepr_value, packedRepr_value, nanosecondsSinceEpoch_value, nanosecondsSinceEpoch_value,
    value_lt_iff (packedDigits_within c) (packedDigits_within c'), digits_lt_iff h.1 h'.1,
    value_lt_iff (timeDigits_within h) (timeDigits_within h')]

end Numerals

/-- The number of the day that an instant falls on. -/
def dayAt (n : ℕ) : ℕ := n / 10 ^ 9 / 86400 + epoch

theorem dayAt_bounds {n : ℕ} (h : opening ≤ n ∧ n < closing) :
    daysBefore 2000 ≤ dayAt n ∧ dayAt n < daysBefore 2256 := by
  have h2000 := daysBefore_eq 2000
  have h2256 := daysBefore_eq 2256
  rw [opening_eq, closing_eq] at h
  unfold dayAt epoch
  omega

theorem yearOf_dayAt_bounds {n : ℕ} (h : opening ≤ n ∧ n < closing) :
    2000 ≤ yearOf (dayAt n) ∧ yearOf (dayAt n) < 2256 := by
  obtain ⟨hlo, hhi⟩ := dayAt_bounds h
  have hstart := daysBefore_yearOf_le (dayAt n)
  have hend := lt_daysBefore_yearOf_succ (dayAt n)
  constructor
  · by_contra hc
    have hmono : daysBefore (yearOf (dayAt n) + 1) ≤ daysBefore 2000 :=
      daysBefore_mono (Nat.lt_of_not_le hc)
    omega
  · by_contra hc
    have hmono : daysBefore 2256 ≤ daysBefore (yearOf (dayAt n)) :=
      daysBefore_mono (Nat.le_of_not_lt hc)
    omega

/-- The reading of the clock at an instant. -/
def clockAt (n : Set.Ico opening closing) : Clock where
  years := yearOf (dayAt n) - 2000
  days := dayOf (dayAt n)
  hours := n / 10 ^ 9 / 3600 % 24
  minutes := n / 10 ^ 9 / 60 % 60
  seconds := n / 10 ^ 9 % 60
  milliseconds := n / 10 ^ 6 % 1000
  microseconds := n / 10 ^ 3 % 1000
  nanoseconds := n % 1000
  years_lt := by
    have h := yearOf_dayAt_bounds n.2
    omega
  days_lt := by
    have hlength := (validDate_yearOf (dayAt n)).2
    have hcases := yearLength_cases (yearOf (dayAt n))
    omega
  hours_lt := by omega
  minutes_lt := by omega
  seconds_lt := by omega
  milliseconds_lt := by omega
  microseconds_lt := by omega
  nanoseconds_lt := by omega

section Instants
variable (n : Set.Ico opening closing)

theorem clockAt_year : 2000 + (clockAt n).years = yearOf (dayAt n) := by
  have h := yearOf_dayAt_bounds n.2
  change 2000 + (yearOf (dayAt n) - 2000) = _
  omega

theorem clockAt_ordinary : Ordinary (clockAt n) := by
  have hdate : ValidDate (2000 + (clockAt n).years) (clockAt n).days := by
    rw [clockAt_year]
    exact validDate_yearOf (dayAt n)
  have hdigit (a : ℕ) {r : ℕ} (hr : 0 < r) : a % r < r := Nat.mod_lt a hr
  have hseconds : (clockAt n).seconds < 60 := hdigit _ (by decide)
  exact ⟨⟨hdate, hdigit _ (by decide), hdigit _ (by decide), Nat.le_of_lt hseconds,
    hdigit _ (by decide), hdigit _ (by decide), hdigit _ (by decide)⟩, hseconds⟩

theorem clockAt_instant : (clockAt n).nanosecondsSinceEpoch = n := by
  have hday : dayNumber (2000 + (clockAt n).years) (clockAt n).days - epoch = n / 10 ^ 9 / 86400 := by
    rw [clockAt_year]
    change dayNumber (yearOf (dayAt n)) (dayOf (dayAt n)) - epoch = _
    rw [dayNumber_yearOf, dayAt, Nat.add_sub_cancel]
  rw [Clock.nanosecondsSinceEpoch, hday]
  change n.1 / 10 ^ 9 / 86400 * 86400 * 10 ^ 9 + (n.1 / 10 ^ 9 / 3600 % 24 * 3600 * 10 ^ 9 +
    n.1 / 10 ^ 9 / 60 % 60 * 60 * 10 ^ 9 + n.1 / 10 ^ 9 % 60 * 10 ^ 9 +
    n.1 / 10 ^ 6 % 1000 * 10 ^ 6 + n.1 / 10 ^ 3 % 1000 * 10 ^ 3 + n.1 % 1000) = n.1
  omega

end Instants

theorem instant_mem {c : Clock} (h : Ordinary c) : c.nanosecondsSinceEpoch ∈ Set.Ico opening closing := by
  obtain ⟨hlo, hhi⟩ := days_bounds h.1
  have h2000 := daysBefore_eq 2000
  have h2256 := daysBefore_eq 2256
  obtain ⟨⟨-, hhours, hminutes, -, hmilliseconds, hmicroseconds, hnanoseconds⟩, hseconds⟩ := h
  rw [Set.mem_Ico, opening_eq, closing_eq, Clock.nanosecondsSinceEpoch]
  unfold epoch
  generalize dayNumber (2000 + c.years) c.days = day at hlo hhi ⊢
  omega

section LeapSecond
variable (c : Clock)

/-- Second 0 of another minute, with the same fraction of a second. -/
def startOfMinute (years days hours minutes : ℕ) (hyears : years < 2 ^ 8) (hdays : days < 2 ^ 9)
    (hhours : hours < 2 ^ 5) (hminutes : minutes < 2 ^ 6) : Clock :=
  { c with
    years, days, hours, minutes
    seconds := 0
    years_lt := hyears
    days_lt := hdays
    hours_lt := hhours
    minutes_lt := hminutes
    seconds_lt := by decide }

theorem next_day_lt {y day : ℕ} (h : day < yearLength y) : day + 1 < 2 ^ 9 := by
  have hcases := yearLength_cases y
  omega

/-- The minute that follows, when its year fits the eight bits. -/
def nextMinute : Option Clock :=
  if h : c.minutes < 59 then
    some (startOfMinute c c.years c.days c.hours (c.minutes + 1) c.years_lt c.days_lt c.hours_lt
      (by omega))
  else if h : c.hours < 23 then
    some (startOfMinute c c.years c.days (c.hours + 1) 0 c.years_lt c.days_lt (by omega) (by decide))
  else if h : c.days < yearLength (2000 + c.years) then
    some (startOfMinute c c.years (c.days + 1) 0 0 c.years_lt (next_day_lt h) (by decide) (by decide))
  else if h : c.years < 255 then
    some (startOfMinute c (c.years + 1) 1 0 0 (Nat.succ_lt_succ h) (by decide) (by decide) (by decide))
  else none

def minuteNumber (years days hours minutes : ℕ) : ℕ :=
  (dayNumber (2000 + years) days * 24 + hours) * 60 + minutes

variable {c}

theorem startOfMinute_instant (h : c.Valid) (hleap : c.seconds = 60) {years days hours minutes : ℕ}
    {hyears : years < 2 ^ 8} {hdays : days < 2 ^ 9} {hhours : hours < 2 ^ 5}
    {hminutes : minutes < 2 ^ 6} (hdate : ValidDate (2000 + years) days) (hhour : hours < 24)
    (hminute : minutes < 60)
    (hnext : minuteNumber years days hours minutes =
      minuteNumber c.years c.days c.hours c.minutes + 1) :
    (startOfMinute c years days hours minutes hyears hdays hhours hminutes).Valid ∧
      (startOfMinute c years days hours minutes hyears hdays hhours hminutes).nanosecondsSinceEpoch =
        c.nanosecondsSinceEpoch := by
  have hvalid : (startOfMinute c years days hours minutes hyears hdays hhours hminutes).Valid :=
    ⟨hdate, hhour, hminute, Nat.zero_le 60, h.milliseconds, h.microseconds, h.nanoseconds⟩
  refine ⟨hvalid, ?_⟩
  have hlo := (days_bounds h).1
  have hlo' : daysBefore 2000 ≤ dayNumber (2000 + years) days := (days_bounds hvalid).1
  have h2000 := daysBefore_eq 2000
  unfold minuteNumber at hnext
  unfold startOfMinute Clock.nanosecondsSinceEpoch epoch
  dsimp only
  rw [hleap]
  generalize dayNumber (2000 + c.years) c.days = day at hlo hnext ⊢
  generalize dayNumber (2000 + years) days = day' at hlo' hnext ⊢
  omega

/-- The sixtieth second of a minute is the first second of the next one. -/
theorem nextMinute_instant {c' : Clock} (h : c.Valid) (hleap : c.seconds = 60)
    (hnext : nextMinute c = some c') :
    c'.Valid ∧ c'.nanosecondsSinceEpoch = c.nanosecondsSinceEpoch := by
  have hhours := h.hours
  have hminutes := h.minutes
  have hdate := h.date
  unfold nextMinute at hnext
  split_ifs at hnext with hminute hhour hday hyear
  · cases hnext
    exact startOfMinute_instant h hleap hdate hhours (Nat.succ_lt_succ hminute) rfl
  · cases hnext
    refine startOfMinute_instant h hleap hdate (Nat.succ_lt_succ hhour) (by decide) ?_
    unfold minuteNumber
    omega
  · cases hnext
    refine startOfMinute_instant h hleap ⟨Nat.le_add_left 1 _, hday⟩ (by decide) (by decide) ?_
    have hdays := dayNumber_next_day (y := 2000 + c.years) hdate.1
    unfold minuteNumber
    omega
  · cases hnext
    have hfirst : ValidDate (2000 + (c.years + 1)) 1 := ⟨Nat.le_refl 1, by
      have hcases := yearLength_cases (2000 + (c.years + 1))
      omega⟩
    refine startOfMinute_instant h hleap hfirst (by decide) (by decide) ?_
    have hdays := dayNumber_next_year hdate hday
    rw [Nat.add_assoc] at hdays
    unfold minuteNumber
    omega

end LeapSecond

section Words
variable (p : Profile) (chrono : Chrono)

/-- The code reads the packed value `w` as the instant `n`. -/
def Accepted (w : UInt64) (n : ℕ) : Prop :=
  ∃ time, (fromPackedRepr w).nanosecondsSinceEpoch p chrono = .ok (some time) ∧ time.toNat = n

def OrdinaryWord (w : UInt64) : Prop :=
  (∃ n, Accepted p chrono w n) ∧ (fromPackedRepr w).seconds < 60

variable {chrono} (hc : Gregorian chrono)
include hc

theorem accepted_iff {w : UInt64} {n : ℕ} : Accepted p chrono w n ↔
    (unpack (fromPackedRepr w)).Valid ∧ n = (unpack (fromPackedRepr w)).nanosecondsSinceEpoch := by
  unfold Accepted
  rw [nanosecondsSinceEpoch_eq _ hc, unpack_valid_iff]
  by_cases hvalid : Valid (fromPackedRepr w)
  · have hlt := instant_lt _ hvalid.1
    have htime : (UInt64.ofNat (instant (fromPackedRepr w))).toNat = instant (fromPackedRepr w) :=
      UInt64.toNat_ofNat_of_lt' (Nat.lt_trans hlt (by decide))
    rw [if_pos hvalid]
    constructor
    · rintro ⟨time, ht, rfl⟩
      cases ht
      exact ⟨hvalid, htime⟩
    · rintro ⟨-, rfl⟩
      exact ⟨_, rfl, htime⟩
  · rw [if_neg hvalid]
    exact iff_of_false (fun ⟨_, ht, _⟩ => nomatch ht) fun h => hvalid h.1

theorem ordinaryWord_iff {w : UInt64} :
    OrdinaryWord p chrono w ↔ Ordinary (unpack (fromPackedRepr w)) := by
  simp only [OrdinaryWord, accepted_iff p hc]
  exact ⟨fun ⟨⟨_, hvalid, _⟩, hseconds⟩ => ⟨hvalid, hseconds⟩,
    fun ⟨hvalid, hseconds⟩ => ⟨⟨_, hvalid, rfl⟩, hseconds⟩⟩

theorem word_lt_iff {w w' : UInt64} (h : OrdinaryWord p chrono w) (h' : OrdinaryWord p chrono w') :
    w < w' ↔ (unpack (fromPackedRepr w)).nanosecondsSinceEpoch <
      (unpack (fromPackedRepr w')).nanosecondsSinceEpoch := by
  rw [← packedRepr_lt_iff ((ordinaryWord_iff p hc).mp h) ((ordinaryWord_iff p hc).mp h'),
    unpack_packedRepr, unpack_packedRepr]
  exact UInt64.lt_iff_toNat_lt

theorem word_eq_of_instant {w w' : UInt64} (h : OrdinaryWord p chrono w)
    (h' : OrdinaryWord p chrono w') (he : (unpack (fromPackedRepr w)).nanosecondsSinceEpoch =
      (unpack (fromPackedRepr w')).nanosecondsSinceEpoch) : w = w' := by
  have hlt := word_lt_iff p hc h h'
  have hgt := word_lt_iff p hc h' h
  rw [UInt64.lt_iff_toNat_lt] at hlt hgt
  apply UInt64.toNat_inj.mp
  omega

theorem clockAt_word (n : Set.Ico opening closing) :
    OrdinaryWord p chrono (clockAt n).pack.content ∧
      (unpack (fromPackedRepr (clockAt n).pack.content)).nanosecondsSinceEpoch = n := by
  have hunpack : unpack (fromPackedRepr (clockAt n).pack.content) = clockAt n := unpack_pack _
  rw [ordinaryWord_iff p hc, hunpack]
  exact ⟨clockAt_ordinary n, clockAt_instant n⟩

/-- Packed words, leap seconds apart, and the instants of the years 2000 to 2255. -/
def instantIso : {w : UInt64 // OrdinaryWord p chrono w} ≃o Set.Ico opening closing where
  toFun w := ⟨(unpack (fromPackedRepr w.1)).nanosecondsSinceEpoch,
    instant_mem ((ordinaryWord_iff p hc).mp w.2)⟩
  invFun n := ⟨(clockAt n).pack.content, (clockAt_word p hc n).1⟩
  left_inv w := Subtype.ext (word_eq_of_instant p hc (clockAt_word p hc _).1 w.2 (clockAt_word p hc _).2)
  right_inv n := Subtype.ext (clockAt_word p hc n).2
  map_rel_iff' {w w'} := by
    have hgt := word_lt_iff p hc w'.2 w.2
    change _ ≤ _ ↔ w.1 ≤ w'.1
    rw [← UInt64.not_lt, hgt, Nat.not_lt]
    rfl

/-- Up to leap seconds the conversion is an order isomorphism from the accepted packed values to the
    instants of the years 2000 to 2255, and its inverse packs the calendar fields of an instant. A
    leap second is the first second of the following minute. -/
theorem nanosecondsSinceEpoch_orderIso :
    (∃ e : {w : UInt64 // OrdinaryWord p chrono w} ≃o Set.Ico opening closing,
      (∀ w, Accepted p chrono w.1 (e w)) ∧ ∀ n, (e.symm n).1 = (clockAt n).pack.content) ∧
    ∀ w n c, Accepted p chrono w n → (fromPackedRepr w).seconds = 60 →
      nextMinute (unpack (fromPackedRepr w)) = some c → Accepted p chrono c.pack.content n := by
  refine ⟨⟨instantIso p hc, fun w => ?_, fun n => rfl⟩, fun w n c haccepted hleap hnext => ?_⟩
  · exact (accepted_iff p hc).mpr ⟨((ordinaryWord_iff p hc).mp w.2).1, rfl⟩
  · obtain ⟨hvalid, rfl⟩ := (accepted_iff p hc).mp haccepted
    obtain ⟨hvalid', hinstant⟩ := nextMinute_instant hvalid (congrArg UInt64.toNat hleap) hnext
    have hunpack : unpack (fromPackedRepr c.pack.content) = c := unpack_pack c
    rw [accepted_iff p hc, hunpack]
    exact ⟨hvalid', hinstant.symm⟩

end Words

/-- The last second of the year 2016, a leap second. -/
def leapSecond : GpsTime := ⟨0x10b75fbf07b72315⟩

theorem nanosecondsSinceEpoch_orderIso_leap :
    Accepted .dev gregorianChrono (startOfMinute (unpack leapSecond) 17 1 0 0 (by decide) (by decide)
      (by decide) (by decide)).pack.content 1483228800123456789 :=
  (nanosecondsSinceEpoch_orderIso .dev gregorianChrono_gregorian).2 leapSecond.content _ _
    ⟨1483228800123456789, by decide +kernel, rfl⟩ rfl rfl

end EventUdpToKafka.ClockOrder
