import EventUdpToKafka.DataProcessing
import EventUdpToKafka.MessageReading

set_option autoImplicit false

/-!
# What the processing of one frame does

`frameRun` states the log and the end of one pass through the loop over the
frames as a case distinction on the reading of the message. The code's loop body
on an accepted view is this run.
-/
namespace EventUdpToKafka.FrameProcessing
open LoggedRun MachineWords GpsClock Config UdpMessage Metrics EventDecoding EventArithmetic
open DataProcessing MessageReading

def pu00Message (controlBoard : Bool) (scaling : Float32) (r : Reading) (time : UInt64) :
    Pu00Message where
  sourceName := sourceName
  messageId := (0 : UInt64).toInt64
  referenceTime := time.toInt64
  vetos := some r.vetoes
  periodNumber := thenSome controlBoard r.periodNumber.toUInt32
  protonCharge := thenSome controlBoard (r.rawPpp.toFloat32 * scaling)

def event44Message (time : UInt64) (events : EventData) : Event44Message where
  sourceName := sourceName
  messageId := (0 : UInt64).toInt64
  referenceTime := [time.toInt64]
  referenceTimeIndex := [0]
  timeOfFlight := events.timeOfFlight
  pixelId := events.pixelId

def failed (type : UdpPacketType) : Effect := .increment (.processingErrors type) 1

/-- What follows the pulse message. Without a decoding a slice bound has failed. -/
def bodyRun (time : UInt64) : Option Decoding → Exec Unit
  | none => .stop .panic
  | some .overflow => .stop .panic
  | some .refused => ⟨[failed .neutronData], .ok ()⟩
  | some (.invalid count) =>
    ⟨[.increment .invalidNeutronEvents count, failed .neutronData], .ok ()⟩
  | some (.decoded events) =>
    if events.isEmpty then ⟨[], .ok ()⟩
    else ⟨[.increment .neutronEvents events.len, .sink (.ev44 (event44Message time events))], .ok ()⟩

def controlBoardLog (controlBoard : Bool) : List Effect :=
  if controlBoard then [.increment .streamingControlBoardFrames 1] else []

def timedRun (controlBoard : Bool) (scaling : Float32) (r : Reading) (time : UInt64)
    (d : Option Decoding) : Exec Unit :=
  ⟨controlBoardLog controlBoard ++ .sink (.pu00 (pu00Message controlBoard scaling r time)) ::
    (bodyRun time d).log, (bodyRun time d).outcome⟩

def decoding (p : Profile) (r : Reading) : Option Decoding :=
  r.body.map fun b => decode p r.formatCode b.1 b.2 r.frameSyncDelayUs

def neutronRun (p : Profile) (chrono : Chrono) (controlBoard : Bool) (scaling : Float32)
    (r : Reading) : Exec Unit :=
  match r.gpsTime.nanosecondsSinceEpoch p chrono with
  | .error s => .stop s
  | .ok none => ⟨[failed .neutronData], .ok ()⟩
  | .ok (some time) => timedRun controlBoard scaling r time (decoding p r)

def frameRun (p : Profile) (chrono : Chrono) (controlBoard : Bool) (scaling : Float32)
    (r : Reading) : Exec Unit :=
  if r.packetType = .neutronData then
    ⟨.increment (.incomingUdpHeaders .neutronData) 1 ::
      (neutronRun p chrono controlBoard scaling r).log,
      (neutronRun p chrono controlBoard scaling r).outcome⟩
  else ⟨[.increment (.incomingUdpHeaders r.packetType) 1, failed r.packetType], .ok ()⟩

def isControlBoard (srcIp : IpAddr) (config : EventUdpToKafkaConfig) : Bool :=
  decide (srcIp = config.streamingControlBoardIp)

theorem frameRun_cases (p : Profile) (chrono : Chrono) (controlBoard : Bool) (scaling : Float32)
    (r : Reading) :
    (r.packetType ≠ .neutronData ∧ frameRun p chrono controlBoard scaling r =
      ⟨[.increment (.incomingUdpHeaders r.packetType) 1, failed r.packetType], .ok ()⟩) ∨
    (r.packetType = .neutronData ∧ ∃ s, r.gpsTime.nanosecondsSinceEpoch p chrono = .error s ∧
      frameRun p chrono controlBoard scaling r =
        ⟨[.increment (.incomingUdpHeaders .neutronData) 1], .error s⟩) ∨
    (r.packetType = .neutronData ∧ r.gpsTime.nanosecondsSinceEpoch p chrono = .ok none ∧
      frameRun p chrono controlBoard scaling r =
        ⟨[.increment (.incomingUdpHeaders .neutronData) 1, failed .neutronData], .ok ()⟩) ∨
    (r.packetType = .neutronData ∧ ∃ time,
      r.gpsTime.nanosecondsSinceEpoch p chrono = .ok (some time) ∧
      frameRun p chrono controlBoard scaling r =
        ⟨.increment (.incomingUdpHeaders .neutronData) 1 ::
            (timedRun controlBoard scaling r time (decoding p r)).log,
          (bodyRun time (decoding p r)).outcome⟩) := by
  rw [frameRun]
  by_cases hn : r.packetType = .neutronData
  · rw [if_pos hn, neutronRun]
    right
    cases r.gpsTime.nanosecondsSinceEpoch p chrono with
    | error s => exact .inl ⟨hn, s, rfl, rfl⟩
    | ok time =>
      cases time with
      | none => exact .inr (.inl ⟨hn, rfl, rfl⟩)
      | some time => exact .inr (.inr ⟨hn, time, rfl, rfl⟩)
  · rw [if_neg hn]
    exact .inl ⟨hn, rfl⟩

theorem timedRun_sent (controlBoard : Bool) (scaling : Float32) (r : Reading) (time : UInt64)
    (d : Option Decoding) : sent (timedRun controlBoard scaling r time d).log =
      .pu00 (pu00Message controlBoard scaling r time) :: sent (bodyRun time d).log := by
  cases controlBoard <;> rfl

theorem bodyRun_sent (time : UInt64) (d : Option Decoding) :
    sent (bodyRun time d).log = [] ∨
      ∃ events, sent (bodyRun time d).log = [.ev44 (event44Message time events)] := by
  match d with
  | none | some .overflow | some .refused | some (.invalid _) => exact .inl rfl
  | some (.decoded events) =>
    rw [bodyRun]
    split
    · exact .inl rfl
    · exact .inr ⟨events, rfl⟩

theorem bodyRun_returns_iff (time : UInt64) (d : Option Decoding) :
    (bodyRun time d).Returns ↔ ∃ e, d = some e ∧ e ≠ .overflow := by
  constructor
  · rintro ⟨u, hu⟩
    cases d with
    | none => cases hu
    | some e => exact ⟨e, rfl, fun he => by subst he; cases hu⟩
  · rintro ⟨e, rfl, he⟩
    cases e with
    | overflow => exact absurd rfl he
    | refused | invalid count => exact ⟨(), rfl⟩
    | decoded events =>
      rw [bodyRun]
      split <;> exact ⟨(), rfl⟩

/-- A frame's run returns unless it is a neutron frame with a valid timestamp that fails later. -/
theorem frameRun_returns_iff (p : Profile) (chrono : Chrono) (controlBoard : Bool)
    (scaling : Float32) {r : Reading} {time : Option UInt64}
    (ht : r.gpsTime.nanosecondsSinceEpoch p chrono = .ok time) :
    (frameRun p chrono controlBoard scaling r).Returns ↔
      (r.packetType = .neutronData → time.isSome →
        ∃ d, decoding p r = some d ∧ d ≠ .overflow) := by
  rw [frameRun]
  split
  · rename_i hn
    rw [neutronRun, ht]
    cases time with
    | none => exact iff_of_true ⟨(), rfl⟩ fun _ h => absurd h Bool.false_ne_true
    | some time =>
      rw [← bodyRun_returns_iff time]
      exact ⟨fun h _ _ => h, fun h => h hn rfl⟩
  · rename_i hn
    exact iff_of_true ⟨(), rfl⟩ fun h => absurd h hn

theorem publish_countError (time : UInt64) {d : Decoding} {m : Exec (Anyhow EventData)}
    (h : d.Describes m) :
    (m >>= fun result => match result with
      | .error e => pure (.error e)
      | .ok events => publishEvents time events >>= fun _ => pure (.ok ())) >>=
        countError .neutronData = bodyRun time (some d) := by
  cases d with
  | overflow =>
    rw [show m = .stop .panic from h]
    rfl
  | refused =>
    obtain ⟨text, rfl⟩ := h
    rfl
  | invalid count =>
    obtain ⟨text, rfl⟩ := h
    rfl
  | decoded events =>
    rw [show m = pure (.ok events) from h, pure_bind, bodyRun]
    dsimp only
    rw [publishEvents]
    split <;> rfl

section Accepted
variable {content : List UInt8} (h : Accepted content)
  (hlen : content.length ≤ isizeMax ∨ HeaderFits content)
include h hlen

theorem processEvents_eq (p : Profile) (time : UInt64) :
    processEvents p ⟨content⟩ time >>= countError .neutronData =
      bodyRun time (decoding p (readMessage content)) := by
  rw [processEvents, packetFormatCode_eq h.long, Run.lift_ok_bind, decoding]
  by_cases hf : HeaderFits content
  · rw [boardSpecificParameters_eq h p hf, Run.lift_ok_bind, dataBytes_eq h hf, Run.lift_ok_bind,
      frameSyncDelayUs_eq h.long, Run.lift_ok_bind, readMessage, if_pos hf, Option.map_some]
    exact publish_countError time (parseBoardData_describes p _ _ _ _)
  · have hbody : (readMessage content).body = none := if_neg hf
    rw [hbody, Option.map_none]
    rcases slices_panic h p (hlen.resolve_right hf) hf with hs | ⟨bytes, hs, hd⟩
    · rw [hs]
      rfl
    · rw [hs, hd]
      rfl

theorem processTimedFrame_eq (p : Profile) (srcIp : IpAddr) (config : EventUdpToKafkaConfig)
    (time : UInt64) :
    processTimedFrame p ⟨content⟩ srcIp config time >>= countError .neutronData =
      timedRun (isControlBoard srcIp config) config.rawToUahScalingOrDefault (readMessage content)
        time (decoding p (readMessage content)) := by
  rw [processTimedFrame, timedRun, ← processEvents_eq h hlen p time, vetoes_eq h.long,
    periodNumber_eq h.long, pppPerFrame_eq h.long, isControlBoard]
  generalize decide (srcIp = config.streamingControlBoardIp) = controlBoard
  cases controlBoard with
  | false =>
    simp only [Run.lift_ok_bind, Bool.false_eq_true, ite_false, bind_assoc]
    rfl
  | true =>
    simp only [Run.lift_ok_bind, ite_true, bind_assoc]
    rfl

theorem processNeutronFrame_eq (p : Profile) (chrono : Chrono) (srcIp : IpAddr)
    (config : EventUdpToKafkaConfig) :
    processNeutronFrame p chrono ⟨content⟩ srcIp config >>= countError .neutronData =
      neutronRun p chrono (isControlBoard srcIp config) config.rawToUahScalingOrDefault
        (readMessage content) := by
  rw [processNeutronFrame, gpsTime_eq h.long, Run.lift_ok_bind, neutronRun]
  change (Run.lift ((readMessage content).gpsTime.nanosecondsSinceEpoch p chrono) >>= _) >>= _ = _
  cases (readMessage content).gpsTime.nanosecondsSinceEpoch p chrono with
  | error s => rfl
  | ok time =>
    cases time with
    | none => rfl
    | some time => exact processTimedFrame_eq h hlen p srcIp config time

theorem processFrame_eq (p : Profile) (chrono : Chrono) (srcIp : IpAddr)
    (config : EventUdpToKafkaConfig) :
    processFrame p chrono srcIp config ⟨content⟩ =
      frameRun p chrono (isControlBoard srcIp config) config.rawToUahScalingOrDefault
        (readMessage content) := by
  have hp : (⟨content⟩ : UdpMessageView).packetType = .ok (readMessage content).packetType :=
    packetType_eq h.long
  rw [processFrame, hp, Run.lift_ok_bind, frameRun, ← processNeutronFrame_eq h hlen]
  cases (readMessage content).packetType <;> rfl

end Accepted

end EventUdpToKafka.FrameProcessing
