import EventUdpToKafka.Noninterference
import EventUdpToKafka.ServiceRuns

set_option autoImplicit false

/-!
# Where sources and configuration show

The source of a message, the configured address of the control board and the
scaling show in the control board's fields and in the count of its frames. The
rest of what is handed over and counted for frames follows from the bytes of the
messages alone.
-/
namespace EventUdpToKafka.SourceNoninterference
open LoggedRun LogMachine MachineWords GpsClock GpsInstants Config UdpMessage Metrics EventArithmetic
open MessageReading FrameProcessing DatagramRuns UdpProcess MetricsBalance ServiceRuns Noninterference
open EventDecoding.PacketFormat1 Testing

/-- An effect without what the control board adds to it. -/
def bare? : Effect → Option Effect
  | .increment .streamingControlBoardFrames _ => none
  | .increment c amount => some (.increment c amount)
  | .sink message => some (.sink (erase message))

def bare (log : List Effect) : List Effect := log.filterMap bare?

theorem bare_append (log log' : List Effect) : bare (log ++ log') = bare log ++ bare log' :=
  List.filterMap_append

theorem bare_controlBoardLog (controlBoard : Bool) : bare (controlBoardLog controlBoard) = [] := by
  cases controlBoard <;> rfl

/-- The run of a message, as from no board in particular. -/
def plainRun (p : Profile) (chrono : Chrono) (m : List UInt8) : Exec Unit :=
  frameRun p chrono false 0 (readMessage m)

section Messages
variable (p : Profile) (chrono : Chrono)

theorem frameRun_bare (controlBoard controlBoard' : Bool) (scaling scaling' : Float32) (r : Reading) :
    (frameRun p chrono controlBoard scaling r).outcome =
      (frameRun p chrono controlBoard' scaling' r).outcome ∧
    bare (frameRun p chrono controlBoard scaling r).log =
      bare (frameRun p chrono controlBoard' scaling' r).log := by
  have htimed (time : UInt64) (d : Option Decoding) :
      bare (timedRun controlBoard scaling r time d).log =
        bare (timedRun controlBoard' scaling' r time d).log := by
    rw [timedRun, timedRun, bare_append, bare_append, bare_controlBoardLog, bare_controlBoardLog]
    rfl
  rw [frameRun, frameRun]
  split
  · rw [neutronRun, neutronRun]
    split
    · exact ⟨rfl, rfl⟩
    · exact ⟨rfl, rfl⟩
    · exact ⟨rfl, congrArg (List.cons _) (htimed _ _)⟩
  · exact ⟨rfl, rfl⟩

variable (config : EventUdpToKafkaConfig)

theorem each_bare (xs : List (IpAddr × List UInt8)) :
    (Run.each (sourceRun p chrono config) xs).outcome =
      (Run.each (plainRun p chrono) (xs.map Prod.snd)).outcome ∧
    bare (Run.each (sourceRun p chrono config) xs).log =
      bare (Run.each (plainRun p chrono) (xs.map Prod.snd)).log := by
  rw [each_map]
  apply Run.each_related _ (R := fun log log' => bare log = bare log')
  · rfl
  · intro a b c d hab hcd
    rw [bare_append, bare_append, hab, hcd]
  · intro x _
    exact frameRun_bare p chrono _ _ _ _ _

end Messages

/-- Two runs that bring the same messages, in datagrams and from sources of their own and under two
    configurations, end alike. They hand over the same messages and have the same increments of frame
    counters, in the same order, once the control board's additions are left out: its frames' count,
    its period numbers and its proton charges. -/
theorem udpProcess_bare (p : Profile) (chrono : Chrono) (length length' : KafkaMessage → ℕ)
    {config config' : EventUdpToKafkaConfig} (hbuffer : config.udpBufferSizeOrDefault ≤ isizeMax)
    (hbuffer' : config'.udpBufferSizeOrDefault ≤ isizeMax) {results results' : List Received}
    (h : (results.flatMap (carried config)).map Prod.snd =
      (results'.flatMap (carried config')).map Prod.snd) :
    (udpProcess p chrono length config results).outcome =
      (udpProcess p chrono length' config' results').outcome ∧
    bare (core (udpProcess p chrono length config results).log) =
      bare (core (udpProcess p chrono length' config' results').log) := by
  obtain ⟨houtcome, hcore⟩ := udpProcess_core p chrono length config results hbuffer
  obtain ⟨houtcome', hcore'⟩ := udpProcess_core p chrono length' config' results' hbuffer'
  obtain ⟨hplain, hbare⟩ := each_bare p chrono config (results.flatMap (carried config))
  obtain ⟨hplain', hbare'⟩ := each_bare p chrono config' (results'.flatMap (carried config'))
  rw [houtcome, houtcome', hcore, hcore', carriedRun, carriedRun, hplain, hplain', hbare, hbare', h]
  exact ⟨rfl, rfl⟩

/-- The two messages of `oneDatagram`, the first one from the control board. -/
def mixedSources : List Received :=
  [.datagram (makeUdpPacket packetFormat1 1 12) (.v4 0x7F000001) fun _ => false, .error,
    .datagram (makeUdpPacket packetFormat1 0 34) (.v4 7) fun _ => true]

theorem udpProcess_bare_fake :
    bare (core (udpProcess .release gregorianChrono (fun _ => 100) .makeTestingConfig oneDatagram).log) =
      bare (core (udpProcess .release gregorianChrono (fun _ => 200) shortBufferConfig mixedSources).log) :=
  have hmessages : (oneDatagram.flatMap (carried .makeTestingConfig)).map Prod.snd =
      (mixedSources.flatMap (carried shortBufferConfig)).map Prod.snd := by decide +kernel
  (udpProcess_bare .release gregorianChrono (fun _ => 100) (fun _ => 200) (by decide) (by decide)
    hmessages).2

end EventUdpToKafka.SourceNoninterference
