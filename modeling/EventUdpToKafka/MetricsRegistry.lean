import EventUdpToKafka.MetricStore
import EventUdpToKafka.KafkaService

set_option autoImplicit false

/-!
# The exported metrics and the start of the program

The series that the counters are exported as, their registration before the
service starts, and the program from its first line on.
-/
namespace EventUdpToKafka.MetricsRegistry
open LoggedRun MachineWords GpsClock UdpMessage Metrics KafkaService MetricStore

def asPrometheusLabel : UdpPacketType → String
  | .vetoFrame => "VetoFrame"
  | .sampleEnvironment => "SampleEnvironment"
  | .neutronData => "NeutronData"
  | .endOfRun => "EndOfRun"
  | .invalid => "Invalid"

/-- `UdpPacketType::iter()`. -/
def packetTypeIter : List UdpPacketType :=
  [.vetoFrame, .sampleEnvironment, .neutronData, .endOfRun, .invalid]

def incomingUdpPackets : String := "udp2kafka_incoming_udp_packets"
def incomingUdpPacketSize : String := "udp2kafka_incoming_udp_packet_size"
def incomingUdpHeaders : String := "udp2kafka_incoming_udp_headers"
def incomingUdpPacketErrors : String := "udp2kafka_incoming_udp_packet_errors"
def incomingUdpInvalidHeaderDeclaredLengthTooShort : String :=
  "udp2kafka_incoming_udp_invalid_header_length_too_short"
def incomingUdpInvalidHeaderDeclaredLengthTooLong : String :=
  "udp2kafka_incoming_udp_invalid_header_length_too_long"
def processingErrors : String := "udp2kafka_processing_errors"
def processingTime : String := "udp2kafka_processing_time"
def streamingControlBoardFrames : String := "udp2kafka_streaming_control_board_frames"
def neutronEvents : String := "udp2kafka_neutron_events"
def invalidNeutronEvents : String := "udp2kafka_invalid_neutron_events"
def outgoingKafkaProduceErrors : String := "udp2kafka_outgoing_kafka_production_errors"
def outgoingKafkaMessages : String := "udp2kafka_outgoing_kafka_messages"
def outgoingKafkaMessageSize : String := "udp2kafka_outgoing_kafka_message_size"

/-- A series: its name, and the packet type that it is labelled with. -/
structure Key where
  name : String
  type : Option String
  deriving DecidableEq

def plain (name : String) : Key := ⟨name, none⟩

def typed (name : String) (type : UdpPacketType) : Key := ⟨name, some (asPrometheusLabel type)⟩

/-- The series that the code increments for a counter. -/
def key : Counter → Key
  | .incomingUdpPackets => plain incomingUdpPackets
  | .incomingUdpPacketSize => plain incomingUdpPacketSize
  | .incomingUdpHeaders type => typed incomingUdpHeaders type
  | .incomingUdpPacketErrors => plain incomingUdpPacketErrors
  | .incomingUdpInvalidHeaderDeclaredLengthTooShort =>
    plain incomingUdpInvalidHeaderDeclaredLengthTooShort
  | .incomingUdpInvalidHeaderDeclaredLengthTooLong =>
    plain incomingUdpInvalidHeaderDeclaredLengthTooLong
  | .processingErrors type => typed processingErrors type
  | .streamingControlBoardFrames => plain streamingControlBoardFrames
  | .neutronEvents => plain neutronEvents
  | .invalidNeutronEvents => plain invalidNeutronEvents
  | .outgoingKafkaProduceErrors => plain outgoingKafkaProduceErrors
  | .outgoingKafkaMessages => plain outgoingKafkaMessages
  | .outgoingKafkaMessageSize => plain outgoingKafkaMessageSize

inductive MetricUnit where
  | count
  | bytes
  | seconds
  deriving DecidableEq

inductive Registration where
  | describeCounter (name : String) (unit : MetricUnit) (description : String)
  | describeHistogram (name : String) (unit : MetricUnit) (description : String)
  | absolute (key : Key) (value : UInt64)
  deriving DecidableEq

def startCounter (name : String) (unit : MetricUnit) (description : String) : List Registration :=
  [.describeCounter name unit description, .absolute (plain name) 0]

/-- One series for each packet type. -/
def startTyped (name : String) (unit : MetricUnit) (description : String) : List Registration :=
  .describeCounter name unit description ::
    packetTypeIter.map fun type => .absolute (typed name type) 0

def registrations : List Registration :=
  startCounter incomingUdpPackets .count "Total UDP packets received" ++
  startCounter incomingUdpPacketSize .bytes "Size of total UDP packets received" ++
  startTyped incomingUdpHeaders .count "Incoming UDP headers." ++
  startCounter incomingUdpPacketErrors .count
    "Number of errors returned from UDP socket recvfrom()" ++
  startCounter incomingUdpInvalidHeaderDeclaredLengthTooShort .count
    "Number of UDP headers that contained an length declaration shorter than a header" ++
  startCounter incomingUdpInvalidHeaderDeclaredLengthTooLong .count
    "Number of UDP headers that contained an length declaration longer than the remaining content" ++
  startCounter streamingControlBoardFrames .count
    "Number of frame headers received from streaming control board." ++
  startTyped processingErrors .count "Message processing errors." ++
  [.describeHistogram processingTime .seconds "Processing time for each UDP packet."] ++
  startCounter neutronEvents .count "Number of neutron events" ++
  startCounter invalidNeutronEvents .count
    "Number of invalid (dropped) neutron events which were part of a valid packet" ++
  startCounter outgoingKafkaProduceErrors .count "Number of errors producing a message to Kafka" ++
  startCounter outgoingKafkaMessages .count
    "Number of messages successfully enqueued for sending to Kafka" ++
  startCounter outgoingKafkaMessageSize .bytes
    "Size of messages successfully enqueued for sending to Kafka"

def initializeMetrics (env : Environment) (config : ServiceConfig) :
    Except String (List Registration) := do
  let addr ← env.parseSocketAddr config.metricsBindAddr
  env.installExporter addr
  return registrations

inductive ProcessEffect where
  | register (registration : Registration)
  | service (effect : ServiceEffect)

/-- A run as a part of the program's. -/
def asService {α : Type} (r : Run ServiceEffect Stop α) : Run ProcessEffect Stop α :=
  ⟨r.log.map .service, r.outcome⟩

def main (fb : FlatBuffers) (p : Profile) (chrono : Chrono) (env : Environment)
    (arrivals : List Arrival) : Run ProcessEffect Stop Unit := do
  let text ← Run.lift (expectOk env.readToString)
  let config ← Run.lift (expectOk (env.fromToml text))
  let registered ← Run.lift (expectOk (initializeMetrics env config))
  Run.each (fun r => Run.emit (.register r)) registered
  asService (udpProcess fb p chrono config env arrivals)

end EventUdpToKafka.MetricsRegistry
