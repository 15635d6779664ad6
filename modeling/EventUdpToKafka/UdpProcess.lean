import EventUdpToKafka.DataProcessing

set_option autoImplicit false

/-!
# The service loop

The loop has no end in the code, so a run is one over finitely many results of
reading from the socket. The time that a datagram takes is not recorded here.
-/
namespace EventUdpToKafka.UdpProcess
open LoggedRun MachineWords GpsClock Config Metrics DataProcessing

/-- A result of reading from the socket. With a datagram come the producer's verdicts on the
    messages that it leads to, by their numbers. -/
inductive Received where
  | datagram (bytes : List UInt8) (srcIp : IpAddr) (accepts : ℕ → Bool)
  | error

section Loop
variable (p : Profile) (chrono : Chrono) (payloadLength : KafkaMessage → ℕ)
  (config : EventUdpToKafkaConfig)

def sinkClosure (message : KafkaMessage) (accepted : Bool) : List Effect :=
  if accepted then
    [.increment .outgoingKafkaMessages 1, .increment .outgoingKafkaMessageSize (payloadLength message)]
  else
    [.increment .outgoingKafkaProduceErrors 1]

/-- The log of a run whose messages go to the producer, from message `n` on. -/
def withSink (accepts : ℕ → Bool) : ℕ → List Effect → List Effect
  | _, [] => []
  | n, .increment counter amount :: log => .increment counter amount :: withSink accepts n log
  | n, .sink message :: log =>
    .sink message :: (sinkClosure payloadLength message (accepts n) ++ withSink accepts (n + 1) log)

/-- `recv_from` drops what does not fit in the buffer, as on Unix. -/
def received (bytes : List UInt8) : List UInt8 := bytes.take config.udpBufferSizeOrDefault

def readSocket : Received → Exec Unit
  | .datagram bytes srcIp accepts =>
    let run := processUdpBytesToKafka p chrono (received config bytes) srcIp config
    ⟨withSink payloadLength accepts 0 run.log, run.outcome⟩
  | .error => increment .incomingUdpPacketErrors 1

def udpProcess (results : List Received) : Exec Unit := do
  -- no vector is longer than this
  Run.lift (assert (config.udpBufferSizeOrDefault ≤ isizeMax))
  Run.each (readSocket p chrono payloadLength config) results

end Loop

end EventUdpToKafka.UdpProcess
