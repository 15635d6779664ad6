import EventUdpToKafka.EventDecoding

set_option autoImplicit false

/-!
# From UDP bytes to messages

The framing loop over a datagram, the processing of one frame and the loop over
the frames. The log macros have no part in the model, and neither has the
flatbuffers builder, which every message resets before it is built.
-/
namespace EventUdpToKafka.DataProcessing
open LoggedRun MachineWords GpsClock Config UdpMessage Metrics EventDecoding

structure Framing where
  offset : ℕ
  result : List UdpMessageView

/-- One test of the loop condition and, when it holds, one pass through the body. -/
def framingStep (udp : List UInt8) (s : Framing) :
    Exec (Run.LoopStep Framing (List UdpMessageView)) :=
  if s.offset < udp.length then
    match getFrom udp s.offset with
    | none => return .leave s.result
    | some content => do
      match ← Run.lift (newView content) with
      | .ok view =>
        let length ← Run.lift view.totalLengthBytes
        return .again ⟨s.offset + length, s.result ++ [view]⟩
      -- likely trailing padding, which is not an error
      | .error .contentTooShort => return .leave s.result
      | .error .missingHeaderMarker => return .leave s.result
      | .error (.declaredLengthTooShort _) =>
        increment .incomingUdpInvalidHeaderDeclaredLengthTooShort 1
        return .leave s.result
      | .error (.declaredLengthTooLong _) =>
        increment .incomingUdpInvalidHeaderDeclaredLengthTooLong 1
        return .leave s.result
  else
    return .leave s.result

def framingLoop (udp : List UInt8) (fuel : ℕ) : Exec (List UdpMessageView) :=
  Run.whileLoop .outOfFuel (framingStep udp) fuel ⟨0, []⟩

def packetToFrames (udp : List UInt8) : Exec (List UdpMessageView) :=
  framingLoop udp (udp.length + 1)

def sendEv44 (sourceName : String) (messageId pulseTime : UInt64)
    (tofs detIds : List Int32) : Exec Unit :=
  sink (.ev44 {
    sourceName
    messageId := messageId.toInt64
    referenceTime := [pulseTime.toInt64]
    referenceTimeIndex := [0]
    timeOfFlight := tofs
    pixelId := detIds })

def sendPu00 (sourceName : String) (messageId pulseTime : UInt64) (vetos periodNumber : Option UInt32)
    (protonCharge : Option Float32) : Exec Unit :=
  sink (.pu00 {
    sourceName
    messageId := messageId.toInt64
    referenceTime := pulseTime.toInt64
    vetos
    periodNumber
    protonCharge })

def sourceName : String := "event_udp_to_kafka"

/-- `b.then_some(x)`. -/
def thenSome {α : Type} (b : Bool) (x : α) : Option α := if b then some x else none

def publishEvents (frameSyncTime : UInt64) (events : EventData) : Exec Unit :=
  if events.isEmpty then
    pure ()
  else do
    increment .neutronEvents events.len
    sendEv44 sourceName 0 frameSyncTime events.timeOfFlight events.pixelId

/-- `processNeutronFrame` after the pulse message. -/
def processEvents (p : Profile) (message : UdpMessageView) (frameSyncTime : UInt64) :
    Exec (Anyhow Unit) := do
  let formatCode ← Run.lift message.packetFormatCode
  let boardSpecificParameters ← Run.lift (message.boardSpecificParameters p)
  let data ← Run.lift message.dataBytes
  let delay ← Run.lift message.frameSyncDelayUs
  match ← parseBoardData p formatCode boardSpecificParameters data delay with
  | .error e => return .error e
  | .ok events =>
    publishEvents frameSyncTime events
    return .ok ()

/-- `processNeutronFrame` once the timestamp is known to be valid. -/
def processTimedFrame (p : Profile) (message : UdpMessageView) (srcIp : IpAddr)
    (config : EventUdpToKafkaConfig) (frameSyncTime : UInt64) : Exec (Anyhow Unit) := do
  let isStreamingControlBoard := decide (srcIp = config.streamingControlBoardIp)
  if isStreamingControlBoard then
    increment .streamingControlBoardFrames 1
  let vetoes ← Run.lift message.vetoes
  let period ← Run.lift message.periodNumber
  let ppp ← Run.lift (message.pppPerFrame config)
  sendPu00 sourceName 0 frameSyncTime (some vetoes)
    (thenSome isStreamingControlBoard period.toUInt32) (thenSome isStreamingControlBoard ppp)
  processEvents p message frameSyncTime

def processNeutronFrame (p : Profile) (chrono : Chrono) (message : UdpMessageView) (srcIp : IpAddr)
    (config : EventUdpToKafkaConfig) : Exec (Anyhow Unit) := do
  let gpsTime ← Run.lift message.gpsTime
  match ← Run.lift (gpsTime.nanosecondsSinceEpoch p chrono) with
  | none =>
    let gpsTime ← Run.lift message.gpsTime
    return .error ("Invalid frame header; timestamp " ++ gpsTime.debug ++ " is invalid")
  | some frameSyncTime => processTimedFrame p message srcIp config frameSyncTime

def countError (packetType : UdpPacketType) (result : Anyhow Unit) : Exec Unit :=
  match result with
  | .error _ => increment (.processingErrors packetType) 1
  | .ok () => pure ()

/-- The body of the loop over the frames. -/
def processFrame (p : Profile) (chrono : Chrono) (srcIp : IpAddr) (config : EventUdpToKafkaConfig)
    (frame : UdpMessageView) : Exec Unit := do
  let packetType ← Run.lift frame.packetType
  increment (.incomingUdpHeaders packetType) 1
  let result ← match packetType with
    | .neutronData => processNeutronFrame p chrono frame srcIp config
    | _ => pure (.error "unimplemented packet type")
  countError packetType result

def processUdpBytesToKafka (p : Profile) (chrono : Chrono) (udpPacket : List UInt8) (srcIp : IpAddr)
    (config : EventUdpToKafkaConfig) : Exec Unit := do
  increment .incomingUdpPackets 1
  increment .incomingUdpPacketSize udpPacket.length
  let frames ← packetToFrames udpPacket
  Run.each (processFrame p chrono srcIp config) frames

end EventUdpToKafka.DataProcessing
