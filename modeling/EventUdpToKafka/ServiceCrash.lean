import EventUdpToKafka.CrashFreedom
import EventUdpToKafka.ServiceRuns

set_option autoImplicit false

/-!
# Where the service stops for good

A panic ends the process. In both builds it comes with the first message that is
fatal, whatever else arrives, and the service has handed over by then what the
messages before it lead to and the pulse message of the fatal one. The same goes
for the counters of frames, but not for those of packets and of the producer.
-/
namespace EventUdpToKafka.ServiceCrash
open LoggedRun MachineWords GpsClock GpsInstants Config UdpMessage Metrics EventArithmetic
open DataProcessing MessageReading FrameProcessing FrameEmission CrashFreedom DatagramRuns UdpProcess
open ServiceRuns Testing

/-- A message that a build panics on. -/
structure Fatal (p : Profile) (m : List UInt8) : Prop where
  timed : Timed m
  body : ¬ (HeaderFits m ∧ (p = .dev → ArithmeticFits m))

/-- All that a fatal message leads to: the count of its header, that of a control board's frame where
    it is one, and its pulse message. -/
def lastLog (controlBoard : Bool) (scaling : Float32) (m : List UInt8) : List Effect :=
  .increment (.incomingUdpHeaders .neutronData) 1 :: (controlBoardLog controlBoard ++
    [.sink (.pu00 (pu00Message controlBoard scaling (readMessage m)
      (UInt64.ofNat (instant (readMessage m).gpsTime))))])

theorem bodyRun_stops {time : UInt64} {d : Option Decoding} (h : ¬ (bodyRun time d).Returns) :
    bodyRun time d = .stop .panic := by
  rw [bodyRun_returns_iff] at h
  cases d with
  | none => rfl
  | some d =>
    cases d with
    | overflow => rfl
    | refused | invalid count | decoded events => exact absurd ⟨_, rfl, Decoding.noConfusion⟩ h

section Message
variable (p : Profile) {chrono : Chrono} (hc : Gregorian chrono) (config : EventUdpToKafkaConfig)
include hc

theorem sourceRun_returns_iff (x : IpAddr × List UInt8) :
    (sourceRun p chrono config x).Returns ↔ ¬ Fatal p x.2 := by
  rw [sourceRun, messageRun_returns_iff p x.1 config hc]
  exact ⟨fun h hf => hf.body (h hf.timed), fun h ht => by_contra fun hb => h ⟨ht, hb⟩⟩

theorem sourceRun_fatal {x : IpAddr × List UInt8} (h : Fatal p x.2) : sourceRun p chrono config x =
    ⟨lastLog (isControlBoard x.1 config) config.rawToUahScalingOrDefault x.2, .error .panic⟩ := by
  have htype : (readMessage x.2).packetType = .neutronData := packetTypeOf_neutronData.mpr h.timed.1
  have hbody : bodyRun (UInt64.ofNat (instant (readMessage x.2).gpsTime))
      (decoding p (readMessage x.2)) = .stop .panic := by
    apply bodyRun_stops
    rw [bodyRun_returns_iff, decoding_returns_iff]
    exact h.body
  rw [sourceRun, messageRun, frameRun, if_pos htype, neutronRun, nanosecondsSinceEpoch_eq _ hc,
    if_pos (timed_iff.mp h.timed).2]
  dsimp only
  rw [timedRun, hbody]
  rfl

end Message

section Service
variable (p : Profile) {chrono : Chrono} (hc : Gregorian chrono) (length : KafkaMessage → ℕ)
  (config : EventUdpToKafkaConfig) (results : List Received)
include hc

theorem carriedRun_returns_iff : (carriedRun p chrono config results).Returns ↔
    ∀ x ∈ results.flatMap (carried config), ¬ Fatal p x.2 := by
  rw [carriedRun, Run.each_returns_iff]
  exact forall₂_congr fun x _ => sourceRun_returns_iff p hc config x

theorem udpProcess_returns_iff : (udpProcess p chrono length config results).Returns ↔
    config.udpBufferSizeOrDefault ≤ isizeMax ∧
      ∀ x ∈ results.flatMap (carried config), ¬ Fatal p x.2 := by
  by_cases hbuffer : config.udpBufferSizeOrDefault ≤ isizeMax
  · rw [and_iff_right hbuffer, ← carriedRun_returns_iff p hc, Run.Returns,
      (udpProcess_core p chrono length config results hbuffer).1]
    rfl
  · refine iff_of_false ?_ fun h => hbuffer h.1
    rintro ⟨u, hu⟩
    rw [udpProcess_of_no_buffer p chrono length config results hbuffer] at hu
    cases hu

/-- The service panics exactly when a message that arrives is fatal. The messages handed over by then
    and the increments of the frame counters are those that the messages before the first fatal one
    lead to, and the few that it leads to itself. Nothing that arrives later has any part in them. -/
theorem udpProcess_crashes (hbuffer : config.udpBufferSizeOrDefault ≤ isizeMax) :
    ((udpProcess p chrono length config results).outcome = .error .panic ↔
      ∃ x ∈ results.flatMap (carried config), Fatal p x.2) ∧
    ∀ before x after, results.flatMap (carried config) = before ++ x :: after →
      (∀ y ∈ before, ¬ Fatal p y.2) → Fatal p x.2 →
        core (udpProcess p chrono length config results).log =
          (before.flatMap fun y => (sourceRun p chrono config y).log) ++
            lastLog (isControlBoard x.1 config) config.rawToUahScalingOrDefault x.2 := by
  obtain ⟨houtcome, hcore⟩ := udpProcess_core p chrono length config results hbuffer
  rw [houtcome, hcore, carriedRun]
  refine ⟨Run.each_error_iff _ (fun x _ => (sourceRun_returns_iff p hc config x).mpr) fun x _ hx => ?_,
    fun before x after hsplit hbefore hx => ?_⟩
  · rw [sourceRun_fatal p hc config hx]
  · have hstop := sourceRun_fatal p hc config hx
    have hreturns : ∀ y ∈ before, (sourceRun p chrono config y).Returns := fun y hy =>
      (sourceRun_returns_iff p hc config y).mpr (hbefore y hy)
    rw [hsplit, Run.each_of_stop _ after hreturns (congrArg Run.outcome hstop), hstop]

end Service

/-- A good message, a message with a header length of zero, and another good one. -/
def brokenHeader : List Received :=
  [.datagram (makeUdpPacket packetFormat1 1 12 ++ (makeUdpHeader packetFormat1 0 123).set 7 0) (.v4 0)
      fun _ => true,
    .datagram (makeUdpPacket packetFormat1 0 34) (.v4 0) fun _ => true]

theorem udpProcess_crashes_fake :
    (udpProcess .release gregorianChrono (fun _ => 100) .makeTestingConfig brokenHeader).outcome =
      .error .panic ∧
    core (udpProcess .release gregorianChrono (fun _ => 100) .makeTestingConfig brokenHeader).log =
      (sourceRun .release gregorianChrono .makeTestingConfig
        (.v4 0, makeUdpPacket packetFormat1 1 12)).log ++
        lastLog false EventUdpToKafkaConfig.makeTestingConfig.rawToUahScalingOrDefault
          ((makeUdpHeader packetFormat1 0 123).set 7 0) := by
  have hcarried : brokenHeader.flatMap (carried .makeTestingConfig) =
      [(.v4 0, makeUdpPacket packetFormat1 1 12)] ++
        (.v4 0, (makeUdpHeader packetFormat1 0 123).set 7 0) ::
          [(.v4 0, makeUdpPacket packetFormat1 0 34)] := by
    decide +kernel
  have hfatal : Fatal .release ((makeUdpHeader packetFormat1 0 123).set 7 0) :=
    ⟨⟨rfl, by decide +kernel⟩, fun h => (by decide +kernel :
      ¬ HeaderFits ((makeUdpHeader packetFormat1 0 123).set 7 0)) h.1⟩
  have hgood : ¬ Fatal .release (makeUdpPacket packetFormat1 1 12) := fun h =>
    h.body ⟨by decide +kernel, fun hp => nomatch hp⟩
  obtain ⟨houtcome, hcore⟩ := udpProcess_crashes .release gregorianChrono_gregorian (fun _ => 100)
    .makeTestingConfig brokenHeader (by decide)
  refine ⟨houtcome.mpr ⟨(.v4 0, (makeUdpHeader packetFormat1 0 123).set 7 0), ?_, hfatal⟩, ?_⟩
  · rw [hcarried]
    exact List.mem_append_right _ List.mem_cons_self
  · have hlog := hcore _ _ _ hcarried (fun y hy => List.mem_singleton.mp hy ▸ hgood) hfatal
    rwa [List.flatMap_singleton] at hlog

end EventUdpToKafka.ServiceCrash
