import EventUdpToKafka.LogMachine
import EventUdpToKafka.UdpProcess

set_option autoImplicit false

/-!
# The service with its buffer and its builder

The code reads every datagram into one buffer and builds every payload with one
flatbuffers builder, and neither is cleared in between. Both are in the state of
the loop here, and messages leave as the records that the producer is given.
-/
namespace EventUdpToKafka.KafkaService
open LoggedRun LogMachine MachineWords GpsClock Config Metrics DataProcessing UdpProcess

structure Event44MessageArgs (Offset : Type) where
  sourceName : Option Offset
  messageId : Int64
  referenceTime : Option Offset
  referenceTimeIndex : Option Offset
  timeOfFlight : Option Offset
  pixelId : Option Offset

structure Pu00MessageArgs (Offset : Type) where
  sourceName : Option Offset
  messageId : Int64
  referenceTime : Int64
  vetos : Option UInt32
  periodNumber : Option UInt32
  protonCharge : Option Float32

/-- The builder of the `flatbuffers` package with the generated code for the two tables. -/
structure FlatBuffers where
  Builder : Type
  Offset : Type
  new : Builder
  reset : Builder → Builder
  createString : String → StateM Builder Offset
  createVectorI64 : List Int64 → StateM Builder Offset
  createVectorI32 : List Int32 → StateM Builder Offset
  createEvent44 : Event44MessageArgs Offset → StateM Builder Offset
  createPu00 : Pu00MessageArgs Offset → StateM Builder Offset
  finishEvent44 : Offset → Builder → Builder
  finishPu00 : Offset → Builder → Builder
  finishedData : Builder → List UInt8

/-- The fields that the configuration has besides those of the message processing. -/
structure ServiceConfig extends EventUdpToKafkaConfig where
  udpBindAddr : String
  destKafkaTopic : String
  metricsBindAddr : String
  kafkaProducer : List (String × String)

structure BaseRecord where
  topic : String
  key : String
  payload : List UInt8
  deriving DecidableEq

inductive ServiceEffect where
  | increment (counter : Counter) (amount : ℕ)
  | send (record : BaseRecord)
  /-- A sample of the histogram of processing times. -/
  | recordTime (seconds : Float)

/-- A result of reading from the socket and, for a datagram, the time that it takes. -/
structure Arrival where
  result : Received
  elapsed : Float

section Payloads
variable (fb : FlatBuffers)

def writeEv44 (m : Event44Message) : StateM fb.Builder (List UInt8) := do
  modify fb.reset
  let sourceName ← fb.createString m.sourceName
  let referenceTime ← fb.createVectorI64 m.referenceTime
  let referenceTimeIndex ← fb.createVectorI32 m.referenceTimeIndex
  let timeOfFlight ← fb.createVectorI32 m.timeOfFlight
  let pixelId ← fb.createVectorI32 m.pixelId
  let ev44Offset ← fb.createEvent44 {
    sourceName := some sourceName
    messageId := m.messageId
    referenceTime := some referenceTime
    referenceTimeIndex := some referenceTimeIndex
    timeOfFlight := some timeOfFlight
    pixelId := some pixelId }
  modify (fb.finishEvent44 ev44Offset)
  fb.finishedData <$> get

def writePu00 (m : Pu00Message) : StateM fb.Builder (List UInt8) := do
  modify fb.reset
  let sourceName ← fb.createString m.sourceName
  let pu00Offset ← fb.createPu00 {
    sourceName := some sourceName
    messageId := m.messageId
    referenceTime := m.referenceTime
    vetos := m.vetos
    periodNumber := m.periodNumber
    protonCharge := m.protonCharge }
  modify (fb.finishPu00 pu00Offset)
  fb.finishedData <$> get

def writeMessage : KafkaMessage → StateM fb.Builder (List UInt8)
  | .pu00 m => writePu00 fb m
  | .ev44 m => writeEv44 fb m

end Payloads

structure ServiceState (fb : FlatBuffers) where
  fbb : fb.Builder
  udpBuf : List UInt8

/-- What the start-up code gets from outside. -/
structure Environment where
  readToString : Except String String
  fromToml : String → Except String ServiceConfig
  SocketAddr : Type
  parseSocketAddr : String → Except String SocketAddr
  installExporter : SocketAddr → Except String Unit
  createProducer : List (String × String) → Except String Unit
  bindSocket : String → Except String Unit

def expectOk {α : Type} : Except String α → Checked α
  | .ok a => .ok a
  | .error _ => .error .panic

section Loop
variable (fb : FlatBuffers) (p : Profile) (chrono : Chrono) (config : ServiceConfig)

/-- The closure that a payload is handed to. -/
def produce (payload : List UInt8) (accepted : Bool) : List ServiceEffect :=
  .send ⟨config.destKafkaTopic, "", payload⟩ ::
    if accepted then
      [.increment .outgoingKafkaMessages 1, .increment .outgoingKafkaMessageSize payload.length]
    else
      [.increment .outgoingKafkaProduceErrors 1]

/-- Builds the payload of every message with the one builder and counts the messages of the
    datagram. -/
def sinkMachine (accepts : ℕ → Bool) : Machine (fb.Builder × ℕ) Effect ServiceEffect where
  step
    | s, .increment counter amount => (s, [.increment counter amount])
    | (fbb, n), .sink message =>
      let written := writeMessage fb message fbb
      ((written.2, n + 1), produce config written.1 (accepts n))

/-- The socket overwrites the front of the buffer and reports how much it has written. -/
def recvFrom (udpBuf bytes : List UInt8) : List UInt8 × ℕ :=
  (bytes.take udpBuf.length ++ udpBuf.drop bytes.length, min bytes.length udpBuf.length)

def handle (state : ServiceState fb) (arrival : Arrival) :
    Run ServiceEffect Stop (ServiceState fb) :=
  match arrival.result with
  | .datagram bytes srcIp accepts => do
    let (udpBuf, numberOfBytes) := recvFrom state.udpBuf bytes
    let udpPacket ← Run.lift (slice udpBuf 0 numberOfBytes)
    let (fbb, _) ← through (sinkMachine fb config accepts) (state.fbb, 0)
      (processUdpBytesToKafka p chrono udpPacket srcIp config.toEventUdpToKafkaConfig)
    Run.emit (.recordTime arrival.elapsed)
    return ⟨fbb, udpBuf⟩
  | .error => do
    Run.emit (.increment .incomingUdpPacketErrors 1)
    return state

def serve (state : ServiceState fb) (arrivals : List Arrival) :
    Run ServiceEffect Stop (ServiceState fb) :=
  arrivals.foldlM (handle fb p chrono config) state

def udpProcess (env : Environment) (arrivals : List Arrival) : Run ServiceEffect Stop Unit := do
  Run.lift (expectOk (env.createProducer config.kafkaProducer))
  -- no vector is longer than this
  Run.lift (assert (config.udpBufferSizeOrDefault ≤ isizeMax))
  let udpBuf := List.replicate config.udpBufferSizeOrDefault 0
  Run.lift (expectOk (env.bindSocket config.udpBindAddr))
  let _ ← serve fb p chrono config ⟨fb.new, udpBuf⟩ arrivals
  return ()

end Loop

end EventUdpToKafka.KafkaService
