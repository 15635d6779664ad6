import EventUdpToKafka.EarlyStop
import EventUdpToKafka.ServiceCrash

set_option autoImplicit false

/-!
# The two builds

A build with overflow checks does what a release build does, or it panics on the
way. So what holds of every run of a release build up to any point holds of the
other one as well.
-/
namespace EventUdpToKafka.BuildProfiles
open LoggedRun EarlyStop MachineWords BigEndianBytes GpsClock GpsInstants Config UdpMessage Metrics
open EventDecoding PacketFormat1 DataProcessing UdpProcess MessageReading FrameEmission CrashFreedom
open ServiceRuns ServiceCrash Testing

/-- What the build with overflow checks computes against what the release build does. -/
abbrev Checks {α : Type} (f : Profile → Checked α) : Prop := Sooner .panic (f .dev) (f .release)

abbrev Stops {α : Type} (f : Profile → Exec α) : Prop := StopsEarly .panic (f .dev) (f .release)

theorem arith_checks {α : Type} (fits : Prop) [Decidable fits] (wrapped : α) :
    Checks fun p => p.arith fits wrapped := by
  by_cases h : fits
  · exact .inl (arith_fits .dev h)
  · exact .inr (arith_dev_panics h)

theorem u32Add_checks (a b : UInt32) : Checks fun p => u32Add p a b := arith_checks _ _

theorem u32Mul_checks (a b : UInt32) : Checks fun p => u32Mul p a b := arith_checks _ _

theorem u64Add_checks (a b : UInt64) : Checks fun p => u64Add p a b := arith_checks _ _

theorem u64Mul_checks (a b : UInt64) : Checks fun p => u64Mul p a b := arith_checks _ _

theorem i32Add_checks (a b : Int32) : Checks fun p => i32Add p a b := arith_checks _ _

theorem usizeSub_checks (a b : ℕ) : Checks fun p => usizeSub p a b := arith_checks _ _

section Clock
variable (t : GpsTime) (chrono : Chrono)

theorem sumNanos_checks (timestampS : UInt64) : Checks fun p => t.sumNanos p timestampS := by
  refine (u64Mul_checks _ _).bind fun date => ?_
  refine (u64Mul_checks _ _).bind fun hours => ?_
  refine (u64Mul_checks _ _).bind fun hours => ?_
  refine (u64Add_checks _ _).bind fun sum => ?_
  refine (u64Mul_checks _ _).bind fun minutes => ?_
  refine (u64Mul_checks _ _).bind fun minutes => ?_
  refine (u64Add_checks _ _).bind fun sum => ?_
  refine (u64Mul_checks _ _).bind fun seconds => ?_
  refine (u64Add_checks _ _).bind fun sum => ?_
  refine (u64Mul_checks _ _).bind fun milliseconds => ?_
  refine (u64Add_checks _ _).bind fun sum => ?_
  refine (u64Mul_checks _ _).bind fun microseconds => ?_
  exact (u64Add_checks _ _).bind fun sum => u64Add_checks _ _

theorem midnight_checks : Checks fun p => t.midnight p chrono := by
  unfold GpsTime.midnight
  split
  · exact .refl _
  · split
    · exact .refl _
    · exact (i32Add_checks _ _).bind fun _ => .refl _

theorem nanosecondsSinceEpoch_checks : Checks fun p => t.nanosecondsSinceEpoch p chrono := by
  refine (midnight_checks t chrono).bind fun midnight => ?_
  cases midnight with
  | none => exact .refl _
  | some timestampS => exact (sumNanos_checks t timestampS).bind fun _ => .refl _

end Clock

section Events

theorem mapEvent_checks (c : Captured) (event : Bytes8) : Checks fun p => mapEvent p c event := by
  refine (u32Mul_checks _ _).bind fun tof => ?_
  refine (u32Add_checks _ _).bind fun tof => ?_
  refine (u32Add_checks _ _).bind fun pos => ?_
  refine (u32Mul_checks _ _).bind fun channelOffset => ?_
  exact (u32Add_checks _ _).bind fun pos => .refl _

theorem decodeRecords_stops (c : Captured) (data : List UInt8) :
    Stops fun p => decodeRecords p c data := by
  refine (StopsEarly.lift ?_).bind fun _ => .refl _
  exact Sooner.foldlM (fun acc event => (mapEvent_checks c event).bind fun _ => .refl _) _ _

theorem parseRawData_stops (bytes data : List UInt8) (delayUs : UInt32) :
    Stops fun p => parseRawData p bytes data delayUs := by
  unfold parseRawData
  split
  · exact .refl _
  · split
    · exact .refl _
    · refine (StopsEarly.refl _).bind fun channelBits => ?_
      refine (StopsEarly.refl _).bind fun positionBits => ?_
      refine (StopsEarly.refl _).bind fun offsetBytes => ?_
      cases Bytes4.tryFrom offsetBytes with
      | none => exact .refl _
      | some offsetBytes =>
        dsimp only
        split
        · exact .refl _
        · exact decodeRecords_stops _ _

theorem parseBoardData_stops (code : UInt16) (bytes data : List UInt8) (delayUs : UInt32) :
    Stops fun p => parseBoardData p code bytes data delayUs := by
  unfold parseBoardData
  split
  · exact .refl _
  · split
    · exact parseRawData_stops bytes data delayUs
    · exact .refl _

end Events

section Frames
variable (chrono : Chrono) (srcIp : IpAddr) (config : EventUdpToKafkaConfig)

theorem boardSpecificParameters_checks (view : UdpMessageView) :
    Checks fun p => view.boardSpecificParameters p := by
  refine (Sooner.refl _).bind fun headerLength => ?_
  exact (usizeSub_checks _ _).bind fun stop => .refl _

theorem processEvents_stops (message : UdpMessageView) (time : UInt64) :
    Stops fun p => processEvents p message time := by
  refine (StopsEarly.refl _).bind fun code => ?_
  refine (StopsEarly.lift (boardSpecificParameters_checks message)).bind fun bytes => ?_
  refine (StopsEarly.refl _).bind fun data => ?_
  refine (StopsEarly.refl _).bind fun delay => ?_
  exact (parseBoardData_stops code bytes data delay).bind fun result => .refl _

theorem processTimedFrame_stops (message : UdpMessageView) (time : UInt64) :
    Stops fun p => processTimedFrame p message srcIp config time := by
  have hpulse (controlBoard : Bool) : Stops fun p => (do
      let vetoes ← Run.lift message.vetoes
      let period ← Run.lift message.periodNumber
      let ppp ← Run.lift (message.pppPerFrame config)
      sendPu00 sourceName 0 time (some vetoes) (thenSome controlBoard period.toUInt32)
        (thenSome controlBoard ppp)
      processEvents p message time) := by
    refine (StopsEarly.refl _).bind fun vetoes => ?_
    refine (StopsEarly.refl _).bind fun period => ?_
    refine (StopsEarly.refl _).bind fun ppp => ?_
    exact (StopsEarly.refl _).bind fun _ => processEvents_stops message time
  unfold processTimedFrame
  generalize decide (srcIp = config.streamingControlBoardIp) = controlBoard
  cases controlBoard with
  | true => exact (StopsEarly.refl _).bind fun _ => hpulse true
  | false => exact hpulse false

theorem processNeutronFrame_stops (message : UdpMessageView) :
    Stops fun p => processNeutronFrame p chrono message srcIp config := by
  refine (StopsEarly.refl _).bind fun clock => ?_
  refine (StopsEarly.lift (nanosecondsSinceEpoch_checks clock chrono)).bind fun time => ?_
  cases time with
  | none => exact .refl _
  | some time => exact processTimedFrame_stops srcIp config message time

theorem processFrame_stops (frame : UdpMessageView) :
    Stops fun p => processFrame p chrono srcIp config frame := by
  refine (StopsEarly.refl _).bind fun type => ?_
  refine (StopsEarly.refl _).bind fun _ => ?_
  cases type with
  | neutronData =>
    exact (processNeutronFrame_stops chrono srcIp config frame).bind fun result => .refl _
  | vetoFrame | sampleEnvironment | endOfRun | invalid => exact .refl _

theorem processUdpBytesToKafka_stops (udpPacket : List UInt8) :
    Stops fun p => processUdpBytesToKafka p chrono udpPacket srcIp config := by
  refine (StopsEarly.refl _).bind fun _ => ?_
  refine (StopsEarly.refl _).bind fun _ => ?_
  refine (StopsEarly.refl _).bind fun frames => ?_
  exact .each (processFrame_stops chrono srcIp config) frames

end Frames

section Service
variable (chrono : Chrono) (length : KafkaMessage → ℕ) (config : EventUdpToKafkaConfig)

theorem withSink_prefix {accepts : ℕ → Bool} {n : ℕ} {log log' : List Effect} (h : log <+: log') :
    withSink length accepts n log <+: withSink length accepts n log' := by
  obtain ⟨rest, rfl⟩ := h
  induction log generalizing n with
  | nil => exact List.nil_prefix
  | cons e log ih =>
    cases e with
    | increment c amount => exact (List.prefix_cons_inj _).mpr ih
    | sink message =>
      exact (List.prefix_cons_inj _).mpr ((List.prefix_append_right_inj _).mpr ih)

theorem readSocket_stops (result : Received) :
    Stops fun p => readSocket p chrono length config result := by
  cases result with
  | error => exact .refl _
  | datagram bytes srcIp accepts =>
    rcases processUdpBytesToKafka_stops chrono srcIp config (received config bytes) with
      hsame | ⟨houtcome, hlog⟩
    · refine .inl ?_
      simp only [readSocket, hsame]
    · exact .inr ⟨houtcome, withSink_prefix length hlog⟩

theorem udpProcess_stops (results : List Received) :
    Stops fun p => udpProcess p chrono length config results := by
  refine (StopsEarly.refl _).bind fun _ => ?_
  exact .each (readSocket_stops chrono length config) results

end Service

theorem fatal_dev_iff {m : List UInt8} :
    Fatal .dev m ↔ Fatal .release m ∨ Timed m ∧ ¬ ArithmeticFits m := by
  constructor
  · rintro ⟨ht, hbody⟩
    by_cases hf : HeaderFits m
    · exact .inr ⟨ht, fun ha => hbody ⟨hf, fun _ => ha⟩⟩
    · exact .inl ⟨ht, fun h => hf h.1⟩
  · rintro (⟨ht, hbody⟩ | ⟨ht, ha⟩)
    · exact ⟨ht, fun h => hbody ⟨h.1, fun hp => nomatch hp⟩⟩
    · exact ⟨ht, fun h => ha (h.2 rfl)⟩

/-- The build with overflow checks does in every run what the release build does, or it panics when
    it has done a part of that. It gets through a run exactly when the release build does and the
    sums over the events of all messages that arrive fit. -/
theorem udpProcess_builds {chrono : Chrono} (hc : Gregorian chrono) (length : KafkaMessage → ℕ)
    (config : EventUdpToKafkaConfig) (results : List Received) :
    (udpProcess .dev chrono length config results = udpProcess .release chrono length config results ∨
      (udpProcess .dev chrono length config results).outcome = .error .panic ∧
      (udpProcess .dev chrono length config results).log <+:
        (udpProcess .release chrono length config results).log) ∧
    ((udpProcess .dev chrono length config results).Returns ↔
      (udpProcess .release chrono length config results).Returns ∧
        ∀ x ∈ results.flatMap (carried config), Timed x.2 → ArithmeticFits x.2) := by
  refine ⟨?_, ?_⟩
  · rcases udpProcess_stops chrono length config results with hsame | ⟨houtcome, hlog⟩
    · exact .inl hsame
    · exact .inr ⟨houtcome, hlog⟩
  · rw [udpProcess_returns_iff .dev hc, udpProcess_returns_iff .release hc, and_assoc]
    refine and_congr_right fun _ => ?_
    rw [← forall₂_and]
    refine forall₂_congr fun x _ => ?_
    rw [fatal_dev_iff, not_or, not_and_not_right]

/-- A frame sync delay that fits in microseconds, and in nanoseconds, but not with the time of
    flight of the event added. -/
def longDelay : List UInt8 :=
  (((makeUdpPacket packetFormat1 1 12).set 49 0x41).set 50 0x89).set 51 0x37

theorem longDelay_overflows : ¬ ArithmeticFits longDelay := by
  intro h
  have hfits := h (by decide +kernel) (by decide +kernel) (by decide +kernel) (by decide +kernel) _ rfl _
    (List.mem_of_getElem? (i := 0) rfl)
  revert hfits
  decide +kernel

theorem udpProcess_builds_fake :
    ¬ (udpProcess .dev gregorianChrono (fun _ => 100) .makeTestingConfig
      [.datagram longDelay (.v4 0) fun _ => true]).Returns := fun h =>
  longDelay_overflows (((udpProcess_builds gregorianChrono_gregorian (fun _ => 100) .makeTestingConfig
    [.datagram longDelay (.v4 0) fun _ => true]).2.mp h).2 (.v4 0, longDelay) (by decide +kernel)
      ⟨rfl, by decide +kernel⟩)

end EventUdpToKafka.BuildProfiles
