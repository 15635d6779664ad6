import EventUdpToKafka.ClockOrder
import EventUdpToKafka.FrameEmission
import EventUdpToKafka.ServiceRuns

set_option autoImplicit false

/-!
# The times that a run hands over

The reference times of the pulses of a run are the instants of the packed clocks
that arrive, in their order. Leap seconds apart, it is enough to compare the
packed clocks as plain words to know how the reference times compare.
-/
namespace EventUdpToKafka.Chronology
open LoggedRun MachineWords BigEndianBytes GpsClock GpsInstants Config UdpMessage Metrics MessageReading
open FrameProcessing FrameEmission DatagramRuns UdpProcess ServiceRuns PackedClock ClockOrder Testing

def pulseTime : KafkaMessage → Option Int64
  | .pu00 m => some m.referenceTime
  | .ev44 _ => none

def pulseTimes (log : List Effect) : List ℤ := ((sent log).filterMap pulseTime).map Int64.toInt

/-- The packed clock of a message that has a time. -/
def stamp? (x : IpAddr × List UInt8) : Option GpsTime :=
  if Timed x.2 then some (readMessage x.2).gpsTime else none

def stamps (config : EventUdpToKafkaConfig) (results : List Received) : List GpsTime :=
  (results.flatMap (carried config)).filterMap stamp?

def instants (ts : List GpsTime) : List ℤ := ts.map fun t => (instant t : ℤ)

theorem pulseTimes_flatMap {α : Type} (f : α → List Effect) (xs : List α) :
    pulseTimes (xs.flatMap f) = xs.flatMap fun x => pulseTimes (f x) := by
  rw [pulseTimes, sent_flatMap, List.filterMap_flatMap, List.map_flatMap]
  rfl

theorem pulseTimes_timedRun (controlBoard : Bool) (scaling : Float32) (r : Reading) (time : UInt64)
    (d : Option EventArithmetic.Decoding) :
    pulseTimes (timedRun controlBoard scaling r time d).log = [time.toInt64.toInt] := by
  rw [pulseTimes, timedRun_sent]
  rcases bodyRun_sent time d with hs | ⟨events, hs⟩
  · rw [hs]
    rfl
  · rw [hs]
    rfl

section Messages
variable (p : Profile) {chrono : Chrono} (hc : Gregorian chrono) (config : EventUdpToKafkaConfig)
include hc

/-- Also where the message makes the code panic. -/
theorem sourceRun_pulseTimes (x : IpAddr × List UInt8) :
    pulseTimes (sourceRun p chrono config x).log = instants (stamp? x).toList := by
  have htime := nanosecondsSinceEpoch_eq (readMessage x.2).gpsTime hc p
  have htype : (readMessage x.2).packetType = .neutronData ↔ byteAt x.2 11 = 0xFF :=
    packetTypeOf_neutronData
  rw [sourceRun, messageRun, stamp?]
  rcases frameRun_cases p chrono (isControlBoard x.1 config) config.rawToUahScalingOrDefault
    (readMessage x.2) with ⟨hn, hr⟩ | ⟨-, s, hs, -⟩ | ⟨-, hs, hr⟩ | ⟨hn, time, hs, hr⟩
  · rw [hr, if_neg fun ht => hn (htype.mpr ht.1)]
    rfl
  · rw [htime] at hs
    cases hs
  · have hvalid : ¬ Valid (readMessage x.2).gpsTime := fun hv => by
      rw [htime, if_pos hv] at hs
      cases hs
    rw [hr, if_neg fun ht => hvalid (timed_iff.mp ht).2]
    rfl
  · rw [htime] at hs
    split at hs
    · rename_i hv
      cases hs
      rw [hr, if_pos (timed_iff.mpr ⟨htype.mp hn, hv⟩)]
      change pulseTimes (timedRun _ _ _ _ _).log = _
      rw [pulseTimes_timedRun, UInt64.toInt64_ofNat', Int64.toInt_ofNat_of_lt (instant_lt _ hv.1)]
      rfl
    · cases hs

theorem pulseTimes_messages (xs : List (IpAddr × List UInt8)) :
    pulseTimes (xs.flatMap fun x => (sourceRun p chrono config x).log) = instants (xs.filterMap stamp?) := by
  rw [pulseTimes_flatMap, List.flatMap_congr fun x _ => sourceRun_pulseTimes p hc config x, instants,
    List.filterMap_eq_flatMap_toList, List.map_flatMap]
  rfl

end Messages

section Order
variable {t t' : GpsTime}

def LeapFree (t : GpsTime) : Prop := Valid t ∧ t.seconds < 60

theorem instant_unpack (t : GpsTime) : (unpack t).nanosecondsSinceEpoch = instant t := by
  rw [← Clock.pack_instant, pack_unpack]

theorem content_lt_iff (h : LeapFree t) (h' : LeapFree t') :
    t.content < t'.content ↔ instant t < instant t' := by
  have hordinary {t : GpsTime} (h : LeapFree t) : Ordinary (unpack t) :=
    ⟨(unpack_valid_iff t).mpr h.1, UInt64.lt_iff_toNat_lt.mp h.2⟩
  rw [← instant_unpack, ← instant_unpack, ← packedRepr_lt_iff (hordinary h) (hordinary h'),
    unpack_packedRepr, unpack_packedRepr]
  exact UInt64.lt_iff_toNat_lt

theorem content_eq_iff (h : LeapFree t) (h' : LeapFree t') :
    t.content = t'.content ↔ instant t = instant t' := by
  have hlt := content_lt_iff h h'
  have hgt := content_lt_iff h' h
  rw [UInt64.lt_iff_toNat_lt] at hlt hgt
  rw [← UInt64.toNat_inj]
  omega

variable {ts : List GpsTime} (h : ∀ t ∈ ts, LeapFree t)
include h

theorem instants_increasing_iff :
    (instants ts).Pairwise (· < ·) ↔ (ts.map GpsTime.content).Pairwise (· < ·) := by
  rw [instants, List.pairwise_map, List.pairwise_map]
  refine List.Pairwise.iff_of_mem fun ht ht' => ?_
  rw [Int.ofNat_lt]
  exact (content_lt_iff (h _ ht) (h _ ht')).symm

theorem instants_nodup_iff : (instants ts).Nodup ↔ (ts.map GpsTime.content).Nodup := by
  rw [instants, List.Nodup, List.Nodup, List.pairwise_map, List.pairwise_map]
  refine List.Pairwise.iff_of_mem fun ht ht' => ?_
  rw [Ne, Ne, Int.ofNat_inj]
  exact not_congr (content_eq_iff (h _ ht) (h _ ht')).symm

end Order

theorem stamps_valid {config : EventUdpToKafkaConfig} {results : List Received} {t : GpsTime}
    (h : t ∈ stamps config results) : Valid t := by
  obtain ⟨x, -, hx⟩ := List.mem_filterMap.mp h
  rw [stamp?] at hx
  split at hx
  · rename_i htimed
    cases hx
    exact (timed_iff.mp htimed).2
  · cases hx

/-- The reference times of the pulses that a run hands over are the instants of the packed clocks
    that arrive, up to a panic. Where no leap second is among them, a run that gets through hands over
    increasing reference times, or different ones, exactly when the packed clocks are that as plain
    words. -/
theorem udpProcess_chronological (p : Profile) {chrono : Chrono} (hc : Gregorian chrono)
    (length : KafkaMessage → ℕ) (config : EventUdpToKafkaConfig)
    (hbuffer : config.udpBufferSizeOrDefault ≤ isizeMax) (results : List Received) :
    pulseTimes (udpProcess p chrono length config results).log <+: instants (stamps config results) ∧
    ((udpProcess p chrono length config results).Returns →
      pulseTimes (udpProcess p chrono length config results).log = instants (stamps config results)) ∧
    ((∀ t ∈ stamps config results, t.seconds < 60) →
      (((stamps config results).map GpsTime.content).Pairwise (· < ·) →
        (pulseTimes (udpProcess p chrono length config results).log).Pairwise (· < ·)) ∧
      ((udpProcess p chrono length config results).Returns →
        ((pulseTimes (udpProcess p chrono length config results).log).Pairwise (· < ·) ↔
          ((stamps config results).map GpsTime.content).Pairwise (· < ·)) ∧
        ((pulseTimes (udpProcess p chrono length config results).log).Nodup ↔
          ((stamps config results).map GpsTime.content).Nodup))) := by
  have hsent : pulseTimes (udpProcess p chrono length config results).log =
      pulseTimes (carriedRun p chrono config results).log := by
    rw [pulseTimes, sent_carriedRun p chrono length config results hbuffer]
    rfl
  have hfront : pulseTimes (carriedRun p chrono config results).log <+:
      instants (stamps config results) := by
    obtain ⟨ys, hys, hlog⟩ := Run.exists_each_log (sourceRun p chrono config)
      (results.flatMap (carried config))
    rw [carriedRun, hlog, pulseTimes_messages p hc]
    exact (hys.filterMap stamp?).map _
  have hall (h : (udpProcess p chrono length config results).Returns) :
      pulseTimes (carriedRun p chrono config results).log = instants (stamps config results) := by
    obtain ⟨-, hpasses⟩ := udpProcess_passes p chrono length config h
    rw [carriedRun, Run.each_of_returns _ hpasses, pulseTimes_messages p hc]
    rfl
  rw [hsent]
  refine ⟨hfront, hall, fun hleap => ?_⟩
  have hfree : ∀ t ∈ stamps config results, LeapFree t := fun t ht => ⟨stamps_valid ht, hleap t ht⟩
  refine ⟨fun hsorted => ((instants_increasing_iff hfree).mpr hsorted).sublist hfront.sublist,
    fun hreturns => ?_⟩
  rw [hall hreturns]
  exact ⟨instants_increasing_iff hfree, instants_nodup_iff hfree⟩

/-- Two messages with the same packed clock. -/
theorem udpProcess_chronological_fake :
    ¬ (pulseTimes (udpProcess .release gregorianChrono (fun _ => 100) .makeTestingConfig
      oneDatagram).log).Nodup := by
  have hstamps : stamps .makeTestingConfig oneDatagram = [⟨testingTimestamp⟩, ⟨testingTimestamp⟩] := by
    decide +kernel
  have hreturns : (udpProcess .release gregorianChrono (fun _ => 100) .makeTestingConfig
      oneDatagram).Returns := ⟨(), by decide +kernel⟩
  have hleap : ∀ t ∈ stamps .makeTestingConfig oneDatagram, t.seconds < 60 := by
    rw [hstamps]
    decide +kernel
  obtain ⟨-, -, horder⟩ := udpProcess_chronological .release gregorianChrono_gregorian (fun _ => 100)
    .makeTestingConfig (by decide) oneDatagram
  rw [((horder hleap).2 hreturns).2, hstamps]
  decide +kernel

end EventUdpToKafka.Chronology
