import EventUdpToKafka.CrashFreedom

set_option autoImplicit false

/-!
# What is sent before a panic

Without overflow checks a frame makes the code panic just when it is a neutron frame
with a valid timestamp and a header length that is too short or too long. By then the
messages of the frames before it and its own pulse message have been sent.
-/
namespace EventUdpToKafka.CrashEmission
open LoggedRun MachineWords BigEndianBytes GpsClock GpsInstants Config UdpMessage Metrics
open EventDecoding DataProcessing SelfDelimiting MessageReading FrameProcessing PacketFraming
open DatagramRuns CrashFreedom Testing

/-- The timestamp of a frame, as the code reads it. -/
def TimedAt (chrono : Chrono) (view : UdpMessageView) (time : Option UInt64) : Prop :=
  ∃ clock, view.gpsTime = .ok clock ∧ clock.nanosecondsSinceEpoch .release chrono = .ok time

def BadHeader (view : UdpMessageView) : Prop :=
  ∃ header total, view.headerLengthWords = .ok header ∧ view.totalLengthWords = .ok total ∧
    (header < 14 ∨ total < header)

structure Fatal (chrono : Chrono) (view : UdpMessageView) : Prop where
  type : view.packetType = .ok .neutronData
  timed : ∃ time, TimedAt chrono view (some time)
  header : BadHeader view

variable (chrono : Chrono) (srcIp : IpAddr) (config : EventUdpToKafkaConfig)

section Frame
variable {content : List UInt8} (h : Accepted content)
include h

theorem timedAt_iff {time : Option UInt64} : TimedAt chrono ⟨content⟩ time ↔
    (readMessage content).gpsTime.nanosecondsSinceEpoch .release chrono = .ok time := by
  constructor
  · rintro ⟨clock, hclock, ht⟩
    rw [gpsTime_eq h.long] at hclock
    cases hclock
    exact ht
  · intro ht
    exact ⟨_, gpsTime_eq h.long, ht⟩

theorem packetType_iff {type : UdpPacketType} :
    (⟨content⟩ : UdpMessageView).packetType = .ok type ↔ (readMessage content).packetType = type := by
  rw [packetType_eq h.long]
  exact ⟨Except.ok.inj, congrArg _⟩

theorem badHeader_iff : BadHeader ⟨content⟩ ↔ ¬ HeaderFits content := by
  unfold HeaderFits
  constructor
  · rintro ⟨header, total, hheader, htotal, hbad⟩
    rw [headerLengthWords_eq h.long] at hheader
    rw [totalLengthWords_eq h.long] at htotal
    cases hheader
    cases htotal
    omega
  · intro hbad
    exact ⟨_, _, headerLengthWords_eq h.long, totalLengthWords_eq h.long, by omega⟩

variable (hlen : content.length ≤ isizeMax)
include hlen

theorem processFrame_returns_iff :
    (processFrame .release chrono srcIp config ⟨content⟩).Returns ↔ ¬ Fatal chrono ⟨content⟩ := by
  obtain ⟨time, ht⟩ := nanosecondsSinceEpoch_release (readMessage content).gpsTime chrono
  rw [processFrame_eq h (.inl hlen), frameRun_returns_iff .release chrono _ _ ht,
    decoding_returns_iff]
  constructor
  · rintro hreturns ⟨htype, ⟨time', ht'⟩, hbad⟩
    rw [timedAt_iff chrono h, ht] at ht'
    cases ht'
    exact (badHeader_iff h).mp hbad (hreturns ((packetType_iff h).mp htype) rfl).1
  · intro hfatal htype hsome
    obtain ⟨time, rfl⟩ := Option.isSome_iff_exists.mp hsome
    refine ⟨?_, fun hp => nomatch hp⟩
    by_contra hbad
    exact hfatal ⟨(packetType_iff h).mpr htype, ⟨time, (timedAt_iff chrono h).mpr ht⟩,
      (badHeader_iff h).mpr hbad⟩

/-- A fatal frame sends its pulse message before the slice bound fails. -/
theorem processFrame_fatal (hfatal : Fatal chrono ⟨content⟩) : ∃ log time,
    TimedAt chrono ⟨content⟩ (some time) ∧
    processFrame .release chrono srcIp config ⟨content⟩ = ⟨log, .error .panic⟩ ∧
    sent log = [.pu00 (pu00Message (isControlBoard srcIp config) config.rawToUahScalingOrDefault
      (readMessage content) time)] := by
  obtain ⟨htype, ⟨time, ht⟩, hbad⟩ := hfatal
  have hbody : (readMessage content).body = none := if_neg ((badHeader_iff h).mp hbad)
  have hdecoding : decoding .release (readMessage content) = none := by
    rw [decoding, hbody, Option.map_none]
  have hsent := timedRun_sent (isControlBoard srcIp config) config.rawToUahScalingOrDefault
    (readMessage content) time none
  rw [processFrame_eq h (.inl hlen), frameRun, if_pos ((packetType_iff h).mp htype), neutronRun,
    (timedAt_iff chrono h).mp ht, hdecoding]
  exact ⟨_, time, ht, rfl, hsent⟩

end Frame

section Datagram
variable {u : List UInt8}

theorem packetType_or_timed {view : UdpMessageView}
    (hsafe : view.packetType ≠ .ok .neutronData ∨ TimedAt chrono view none) : ¬ Fatal chrono view := by
  rintro ⟨htype, ⟨time, clock, hclock, ht⟩, -⟩
  rcases hsafe with hother | ⟨clock', hclock', ht'⟩
  · exact hother htype
  · rw [hclock] at hclock'
    cases hclock'
    rw [ht] at ht'
    cases ht'

/-- The code panics exactly on the datagrams with a fatal frame. The messages of the frames before
    the first fatal one and the pulse message of that frame have been sent by then, and no others. -/
theorem processUdpBytesToKafka_escaped (hu : u.length ≤ isizeMax) : ∃ views,
    (packetToFrames u).outcome = .ok views ∧
    ((processUdpBytesToKafka .release chrono u srcIp config).outcome = .error .panic ↔
      ∃ view ∈ views, Fatal chrono view) ∧
    (∀ before view after, views = before ++ view :: after → (∀ v ∈ before, ¬ Fatal chrono v) →
      Fatal chrono view → ∃ time, TimedAt chrono view (some time) ∧
        sent (processUdpBytesToKafka .release chrono u srcIp config).log =
          (before.flatMap fun v => sent (processFrame .release chrono srcIp config v).log) ++
            [.pu00 (pu00Message (isControlBoard srcIp config) config.rawToUahScalingOrDefault
              (readMessage view.content) time)]) ∧
    ∀ view ∈ views, view.packetType ≠ .ok .neutronData ∨ TimedAt chrono view none →
      (processFrame .release chrono srcIp config view).Returns := by
  obtain ⟨views, hframes, hviews, houtcome, hsent⟩ := exists_frames .release chrono srcIp config hu
  have hok : ∀ view ∈ views, ¬ Fatal chrono view →
      (processFrame .release chrono srcIp config view).Returns := fun view hv =>
    (processFrame_returns_iff chrono srcIp config (hviews view hv).1 (hviews view hv).2).mpr
  have hbad := fun view hv =>
    processFrame_fatal chrono srcIp config (hviews view hv).1 (hviews view hv).2
  refine ⟨views, hframes, ?_, fun before view after hsplit hbefore hf => ?_,
    fun view hv hsafe => hok view hv (packetType_or_timed chrono hsafe)⟩
  · rw [houtcome]
    refine Run.each_error_iff _ hok fun view hv hf => ?_
    obtain ⟨log, time, -, hrun, -⟩ := hbad view hv hf
    rw [hrun]
  · have hreturns : ∀ v ∈ before, (processFrame .release chrono srcIp config v).Returns :=
      fun v hv => hok v (hsplit ▸ List.mem_append_left _ hv) (hbefore v hv)
    obtain ⟨log, time, ht, hrun, hpulse⟩ := hbad view (hsplit ▸ List.mem_append_cons_self) hf
    have hstop : (processFrame .release chrono srcIp config view).outcome = .error .panic := by
      rw [hrun]
    refine ⟨time, ht, ?_⟩
    rw [hsent, hsplit, Run.each_of_stop _ after hreturns hstop, sent_append, sent_flatMap, hrun]
    exact congrArg _ hpulse

/-- A message with one event, then one with a header length of zero. -/
theorem processUdpBytesToKafka_escaped_fake :
    (processUdpBytesToKafka .release gregorianChrono (makeUdpPacket packetFormat1 1 12 ++
      (makeUdpHeader packetFormat1 0 123).set 7 0) (.v4 0) .makeTestingConfig).outcome =
        .error .panic := by
  obtain ⟨views, hframes, hpanics, -⟩ := processUdpBytesToKafka_escaped gregorianChrono (.v4 0)
    .makeTestingConfig (u := makeUdpPacket packetFormat1 1 12 ++
      (makeUdpHeader packetFormat1 0 123).set 7 0) (by decide +kernel)
  have hviews : (packetToFrames (makeUdpPacket packetFormat1 1 12 ++
      (makeUdpHeader packetFormat1 0 123).set 7 0)).outcome =
        .ok [⟨makeUdpPacket packetFormat1 1 12 ++ (makeUdpHeader packetFormat1 0 123).set 7 0⟩,
          ⟨(makeUdpHeader packetFormat1 0 123).set 7 0⟩] := by
    decide +kernel
  rw [hframes] at hviews
  cases hviews
  exact hpanics.mpr ⟨_, List.mem_cons_of_mem _ (List.mem_singleton_self _),
    ⟨rfl, ⟨1776359375123456789, _, rfl, by decide +kernel⟩, 0, _, rfl, rfl, .inl (by decide)⟩⟩

end Datagram

end EventUdpToKafka.CrashEmission
