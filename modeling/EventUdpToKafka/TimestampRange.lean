import EventUdpToKafka.DatagramRuns
import EventUdpToKafka.GpsInstants

set_option autoImplicit false

/-!
# The range of the timestamps

The sum that converts a packed clock fits its type even where the range check will
reject the fields, and the result fits the signed type it is sent in.
-/
namespace EventUdpToKafka.TimestampRange
open LoggedRun MachineWords GpsClock GpsInstants Config UdpMessage Metrics DataProcessing
open MessageReading FrameProcessing DatagramRuns

/-- The products and the partial sums of the conversion, in the order of the code. -/
def partials (t : GpsTime) (timestampS : ℕ) : List ℕ :=
  let date := timestampS * 10 ^ 9
  let hours := t.hours.toNat * 3600 * 10 ^ 9
  let minutes := t.minutes.toNat * 60 * 10 ^ 9
  let seconds := t.seconds.toNat * 10 ^ 9
  let milliseconds := t.milliseconds.toNat * 10 ^ 6
  let microseconds := t.microseconds.toNat * 10 ^ 3
  [date, t.hours.toNat * 3600, hours, date + hours, t.minutes.toNat * 60, minutes,
    date + hours + minutes, seconds, date + hours + minutes + seconds, milliseconds,
    date + hours + minutes + seconds + milliseconds, microseconds,
    date + hours + minutes + seconds + milliseconds + microseconds,
    date + hours + minutes + seconds + milliseconds + microseconds + t.nanoseconds.toNat]

/-- With overflow checks the sum is computed just when none of them leaves the 64 bits. -/
theorem sumNanos_dev_iff (t : GpsTime) (timestampS : UInt64) :
    (∃ sum, t.sumNanos .dev timestampS = .ok sum) ↔
      ∀ v ∈ partials t timestampS.toNat, v < 2 ^ 64 := by
  have hsec : GpsTime.nanosPerSec.toNat = 10 ^ 9 := rfl
  have h3600 : (3600 : UInt64).toNat = 3600 := rfl
  have h60 : (60 : UInt64).toNat = 60 := rfl
  have hmilli : (1000000 : UInt64).toNat = 10 ^ 6 := rfl
  have hmicro : (1000 : UInt64).toNat = 10 ^ 3 := rfl
  simp only [GpsTime.sumNanos, u64Mul, u64Add, arith_dev_bind_iff, arith_dev_iff, UInt64.toNat_mul,
    UInt64.toNat_add, hsec, h3600, h60, hmilli, hmicro, partials, List.forall_mem_cons,
    List.not_mem_nil, false_implies, implies_true, and_true]
  -- a check that holds makes the remainder of its result vanish in the checks behind it
  simp +contextual only [and_congr_right_iff, Nat.mod_eq_of_lt, iff_self, implies_true]

def referenceTimes : KafkaMessage → List Int64
  | .pu00 message => [message.referenceTime]
  | .ev44 message => message.referenceTime

theorem frameRun_referenceTimes (p : Profile) (chrono : Chrono) (controlBoard : Bool)
    (scaling : Float32) (r : Reading) {message : KafkaMessage}
    (h : message ∈ sent (frameRun p chrono controlBoard scaling r).log) : ∃ time,
    r.gpsTime.nanosecondsSinceEpoch p chrono = .ok (some time) ∧
      referenceTimes message = [time.toInt64] := by
  rcases frameRun_cases p chrono controlBoard scaling r with
    ⟨-, hrun⟩ | ⟨-, s, -, hrun⟩ | ⟨-, -, hrun⟩ | ⟨-, time, ht, hrun⟩
  · rw [hrun] at h
    exact absurd h List.not_mem_nil
  · rw [hrun] at h
    exact absurd h List.not_mem_nil
  · rw [hrun] at h
    exact absurd h List.not_mem_nil
  · rw [hrun, sent_increment, timedRun_sent] at h
    refine ⟨time, ht, ?_⟩
    rcases List.mem_cons.mp h with rfl | h
    · rfl
    · rcases bodyRun_sent time (decoding p r) with hnone | ⟨events, hevents⟩
      · rw [hnone] at h
        exact absurd h List.not_mem_nil
      · rw [hevents] at h
        obtain rfl := List.mem_singleton.mp h
        rfl

section Gregorian
variable {chrono : Chrono} (hc : Gregorian chrono) (p : Profile)
include hc

theorem timestamp_fits {t : GpsTime} (h : DateValid t) : ∃ date timestampS,
    chrono.fromYoOpt (Int32.ofNat (year t)) (UInt32.ofNat t.days.toNat) = some date ∧
    u64TryFrom (chrono.timestamp date) = some timestampS ∧
    t.midnight p chrono = .ok (some timestampS) ∧ timestampS.toNat = midnightSeconds t := by
  have hlo : 2000 ≤ year t := Nat.le_add_right _ _
  have hhi : year t < 2256 := Nat.add_lt_add_left (years_lt t) 2000
  have hday : t.days.toNat < 2 ^ 32 := Nat.lt_trans (days_lt t) (by decide)
  obtain ⟨date, hdate⟩ := Option.isSome_iff_exists.mp ((hc.accepts hlo hhi hday).mpr h)
  have hlt := midnightSeconds_lt t h
  refine ⟨date, UInt64.ofNat (midnightSeconds t), hdate,
    u64TryFrom_of_toInt (hc.timestamp hlo hhi hday hdate), ?_,
    UInt64.toNat_ofNat_of_lt' (Nat.lt_trans hlt (by decide))⟩
  rw [midnight_eq t hc, if_pos h]

theorem result_bounds {t : GpsTime} {n : UInt64}
    (h : t.nanosecondsSinceEpoch p chrono = .ok (some n)) :
    0 < n.toNat ∧ n.toNat < 2 ^ 63 ∧ n.toInt64.toInt = n.toNat := by
  rw [nanosecondsSinceEpoch_eq t hc] at h
  by_cases hvalid : Valid t
  · rw [if_pos hvalid] at h
    cases h
    have hlt := instant_lt t hvalid.1
    rw [UInt64.toNat_ofNat_of_lt' (Nat.lt_trans hlt (by decide))]
    exact ⟨instant_pos t, hlt, u64_ofNat_toInt64_toInt hlt⟩
  · rw [if_neg hvalid] at h
    cases h

/-- Every product and every partial sum of the conversion fits, whatever the fields of the time of
    day, and every result is positive and unchanged by the cast with which it is sent. -/
theorem nanosecondsSinceEpoch_fits :
    (∀ t, DateValid t → ∃ date timestampS,
      chrono.fromYoOpt (Int32.ofNat (year t)) (UInt32.ofNat t.days.toNat) = some date ∧
      u64TryFrom (chrono.timestamp date) = some timestampS ∧
      t.midnight p chrono = .ok (some timestampS) ∧
      (∀ v ∈ partials t timestampS.toNat, v < 2 ^ 64) ∧ ∃ sum, t.sumNanos p timestampS = .ok sum) ∧
    (∀ (t : GpsTime) n, t.nanosecondsSinceEpoch p chrono = .ok (some n) →
      0 < n.toNat ∧ n.toNat < 2 ^ 63 ∧ n.toInt64.toInt = n.toNat) ∧
    ∀ (u : List UInt8) (srcIp : IpAddr) (config : EventUdpToKafkaConfig), u.length ≤ isizeMax →
      ∃ views, (packetToFrames u).outcome = .ok views ∧
        ∀ message ∈ sent (processUdpBytesToKafka p chrono u srcIp config).log, ∃ view ∈ views,
          ∃ clock n, view.gpsTime = .ok clock ∧
            clock.nanosecondsSinceEpoch p chrono = .ok (some n) ∧ referenceTimes message ≠ [] ∧
            ∀ r ∈ referenceTimes message, r.toInt = n.toNat ∧ 0 < r.toInt := by
  refine ⟨fun t h => ?_, fun t n h => result_bounds hc p h, fun u srcIp config hu => ?_⟩
  · obtain ⟨date, timestampS, hdate, htry, hmidnight, hseconds⟩ := timestamp_fits hc p h
    have hsum (q : Profile) : t.sumNanos q timestampS = .ok (UInt64.ofNat (instant t)) := by
      rw [← sumNanos_eq t q h, ← hseconds, UInt64.ofNat_toNat]
    exact ⟨date, timestampS, hdate, htry, hmidnight, (sumNanos_dev_iff t timestampS).mp ⟨_, hsum .dev⟩,
      _, hsum p⟩
  · obtain ⟨views, hframes, hviews, -, hsent⟩ := exists_frames p chrono srcIp config hu
    refine ⟨views, hframes, fun message hmessage => ?_⟩
    rw [hsent] at hmessage
    obtain ⟨view, hv, hin⟩ := Run.exists_mem_of_mem_each _ (mem_sent.mp hmessage)
    obtain ⟨ha, hlen⟩ := hviews view hv
    rw [← mem_sent, processFrame_eq ha (.inl hlen)] at hin
    obtain ⟨time, ht, href⟩ := frameRun_referenceTimes _ _ _ _ _ hin
    obtain ⟨hpos, -, hcast⟩ := result_bounds hc p ht
    rw [href]
    refine ⟨view, hv, _, time, gpsTime_eq ha.long, ht, List.cons_ne_nil _ _, ?_⟩
    rw [List.forall_mem_singleton, hcast]
    exact ⟨rfl, by omega⟩

end Gregorian

def latest : GpsTime := ⟨0xFFB6FFFFFFFFFFFF⟩

/-- The last day of the year 2255 with every field of the time of day at its largest. -/
theorem nanosecondsSinceEpoch_fits_latest : ∃ timestampS,
    latest.midnight .dev gregorianChrono = .ok (some timestampS) ∧ timestampS.toNat = 9025171200 ∧
      (∀ v ∈ partials latest timestampS.toNat, v < 2 ^ 64) ∧
      ∃ sum, latest.sumNanos .dev timestampS = .ok sum := by
  obtain ⟨-, timestampS, -, -, hmidnight, hpartials, hsum⟩ :=
    (nanosecondsSinceEpoch_fits gregorianChrono_gregorian .dev).1 latest (by decide +kernel)
  have hday : latest.midnight .dev gregorianChrono = .ok (some 9025171200) := by decide +kernel
  have hseconds : timestampS = 9025171200 := by
    rw [hday] at hmidnight
    cases hmidnight
    rfl
  exact ⟨timestampS, hmidnight, hseconds ▸ rfl, hpartials, hsum⟩

end EventUdpToKafka.TimestampRange
