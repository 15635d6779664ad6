import EventUdpToKafka.ServiceRuns
import Mathlib.Data.List.Flatten

set_option autoImplicit false

/-!
# What a longer buffer brings

The socket cuts a datagram off at the end of the buffer, as on Unix. The service
then does without the messages that end behind it. For the others it makes no
difference, neither in what is handed over nor in the counts of frames.
-/
namespace EventUdpToKafka.BufferSize
open LoggedRun MachineWords GpsClock GpsInstants Config UdpMessage Metrics DataProcessing
open SelfDelimiting MessageReading UdpProcess ServiceRuns Testing

/-- The messages that come whole in a buffer of `size` bytes. -/
def whole (size : ℕ) (result : Received) : List (IpAddr × List UInt8) :=
  match result with
  | .datagram bytes srcIp _ =>
    ((located 0 (messages udpDelimiter bytes)).filter fun q => q.1 + q.2.length ≤ size).map
      fun q => (srcIp, q.2)
  | .error => []

theorem carried_whole (config : EventUdpToKafkaConfig) (result : Received) :
    carried config result = whole config.udpBufferSizeOrDefault result := by
  cases result with
  | error => rfl
  | datagram bytes srcIp accepts =>
    rw [carried_eq, received, messages_take, List.map_map]
    rfl

theorem whole_sublist {size size' : ℕ} (h : size ≤ size') (result : Received) :
    (whole size result).Sublist (whole size' result) := by
  cases result with
  | error => exact .slnil
  | datagram bytes srcIp accepts =>
    refine List.Sublist.map _ (List.monotone_filter_right _ fun q hq => ?_)
    simp only [decide_eq_true_eq] at hq ⊢
    exact Nat.le_trans hq h

/-- How long the datagram of a result is. -/
def datagramLength : Received → ℕ
  | .datagram bytes _ _ => bytes.length
  | .error => 0

theorem whole_of_length_le {size : ℕ} {result : Received} (h : datagramLength result ≤ size) :
    whole size result = whole (datagramLength result) result := by
  cases result with
  | error => rfl
  | datagram bytes srcIp accepts =>
    have hs := (splits_iff.mp (messages_splits (d := udpDelimiter) bytes)).1
    have hlen := congrArg List.length hs
    rw [List.length_append] at hlen
    refine congrArg _ (List.filter_congr fun q hq => ?_)
    have hend := located_end_le hq
    change bytes.length ≤ size at h
    exact decide_eq_decide.mpr (iff_of_true (by omega) (show _ ≤ bytes.length by omega))

/-- Of every datagram the service processes the messages that end within its buffer. When it gets
    through with the longer one of two buffers, then it does with the shorter one, and of the messages
    handed over and the increments of frame counters only some are left out. These are the same when
    no datagram is longer than the buffers. -/
theorem udpProcess_buffers (p : Profile) (chrono : Chrono) (length : KafkaMessage → ℕ)
    {config config' : EventUdpToKafkaConfig}
    (hboard : config.streamingControlBoardIp = config'.streamingControlBoardIp)
    (hscaling : config.rawToUahScaling = config'.rawToUahScaling)
    (hle : config.udpBufferSizeOrDefault ≤ config'.udpBufferSizeOrDefault)
    (hbuffer : config'.udpBufferSizeOrDefault ≤ isizeMax) (results : List Received) :
    (∀ result, carried config result = whole config.udpBufferSizeOrDefault result) ∧
    ((udpProcess p chrono length config' results).Returns →
      (udpProcess p chrono length config results).Returns ∧
      (core (udpProcess p chrono length config results).log).Sublist
        (core (udpProcess p chrono length config' results).log)) ∧
    ((∀ result ∈ results, datagramLength result ≤ config.udpBufferSizeOrDefault) →
      (udpProcess p chrono length config results).outcome =
        (udpProcess p chrono length config' results).outcome ∧
      core (udpProcess p chrono length config results).log =
        core (udpProcess p chrono length config' results).log) := by
  obtain ⟨houtcome, hcore⟩ := udpProcess_core p chrono length config results (hle.trans hbuffer)
  obtain ⟨houtcome', hcore'⟩ := udpProcess_core p chrono length config' results hbuffer
  rw [Run.Returns, Run.Returns, houtcome, houtcome', hcore, hcore', carriedRun, carriedRun,
    ← sourceRun_config p chrono hboard hscaling]
  refine ⟨carried_whole config, fun hreturns => ?_, fun hshort => ?_⟩
  · have hsub : (results.flatMap (carried config)).Sublist (results.flatMap (carried config')) := by
      refine List.Sublist.flatMap_right _ fun result _ => ?_
      rw [carried_whole, carried_whole]
      exact whole_sublist hle result
    have hpasses := (Run.each_returns_iff _ _).mp hreturns
    have hthese := fun x hx => hpasses x (hsub.subset hx)
    rw [Run.each_of_returns _ hpasses, Run.each_of_returns _ hthese]
    exact ⟨⟨(), rfl⟩, hsub.flatMap _⟩
  · have hsame : results.flatMap (carried config) = results.flatMap (carried config') := by
      refine List.flatMap_congr fun result hr => ?_
      rw [carried_whole, carried_whole, whole_of_length_le (hshort result hr),
        whole_of_length_le ((hshort result hr).trans hle)]
    rw [hsame]
    exact ⟨rfl, rfl⟩

/-- A buffer of 80 bytes, too short for the second of two messages. -/
theorem udpProcess_buffers_fake :
    (udpProcess .release gregorianChrono (fun _ => 100) shortBufferConfig oneDatagram).Returns ∧
    (core (udpProcess .release gregorianChrono (fun _ => 100) shortBufferConfig oneDatagram).log).Sublist
      (core (udpProcess .release gregorianChrono (fun _ => 100) .makeTestingConfig oneDatagram).log) :=
  have hboard : shortBufferConfig.streamingControlBoardIp =
      EventUdpToKafkaConfig.makeTestingConfig.streamingControlBoardIp := rfl
  (udpProcess_buffers .release gregorianChrono (fun _ => 100) hboard rfl (by decide) (by decide)
    oneDatagram).2.1 ⟨(), by decide +kernel⟩

end EventUdpToKafka.BufferSize
