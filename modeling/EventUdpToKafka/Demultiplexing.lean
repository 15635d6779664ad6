import EventUdpToKafka.StreamGrammar

set_option autoImplicit false

/-!
# Taking the output apart again

The messages of the streaming control board and those of the other boards go to
one topic, in the order in which their datagrams happen to arrive. A reader can
tell them apart, and what it then has does not depend on that order.
-/
namespace EventUdpToKafka.Demultiplexing
open LoggedRun LogMachine MachineWords GpsClock GpsInstants Config Metrics EventArithmetic MessageReading
open FrameProcessing DatagramRuns UdpProcess ServiceBalance ServiceRuns StreamGrammar Testing

/-- Keeps the pulses with a period number, or those without one, each with the events behind it. The
    state is whether the last pulse had one. -/
def reader (control : Bool) : Machine Bool KafkaMessage KafkaMessage where
  step
    | _, .pu00 m =>
      (m.periodNumber.isSome, if m.periodNumber.isSome = control then [.pu00 m] else [])
    | s, .ev44 m => (s, if s = control then [.ev44 m] else [])

/-- What the reader has of a stream that starts with a pulse. -/
def read (control : Bool) (stream : List KafkaMessage) : List KafkaMessage :=
  ((reader control).run false stream).2

/-- The two readers have every message of a stream between them. -/
theorem run_perm (s : Bool) (stream : List KafkaMessage) :
    (((reader true).run s stream).2 ++ ((reader false).run s stream).2).Perm stream := by
  induction stream generalizing s with
  | nil => exact .nil
  | cons message stream ih =>
    have hto (t : Bool) (m : KafkaMessage)
        (h : ∀ c, ((reader c).step s m) = (t, if t = c then [m] else [])) :
        (((reader true).run s (m :: stream)).2 ++ ((reader false).run s (m :: stream)).2).Perm
          (m :: stream) := by
      rw [Machine.run, Machine.run, h, h]
      cases t with
      | true => exact (ih true).cons m
      | false => exact List.perm_middle.trans ((ih false).cons m)
    cases message with
    | pu00 m => exact hto m.periodNumber.isSome _ fun c => rfl
    | ev44 m => exact hto s _ fun c => rfl

def fromControlBoard (config : EventUdpToKafkaConfig) : Received → Bool
  | .datagram _ srcIp _ => isControlBoard srcIp config
  | .error => false

theorem run_group (control s : Bool) (g : Group) : ((reader control).run s g.messages).2 =
    if g.pulse.periodNumber.isSome == control then g.messages else [] := by
  obtain ⟨pulse, events⟩ := g
  cases hm : pulse.periodNumber.isSome == control with
  | false =>
    have hne : pulse.periodNumber.isSome ≠ control := by simpa using hm
    cases events <;> simp [Group.messages, Machine.run, reader, hne]
  | true =>
    have heq : pulse.periodNumber.isSome = control := by simpa using hm
    cases events <;> simp [Group.messages, Machine.run, reader, heq]

section Messages
variable (p : Profile) (chrono : Chrono) (config : EventUdpToKafkaConfig)

/-- A message leads to nothing or to one pulse with what is behind it. -/
theorem sourceRun_group (x : IpAddr × List UInt8) : sent (sourceRun p chrono config x).log = [] ∨
    ∃ g : Group, sent (sourceRun p chrono config x).log = g.messages ∧
      g.pulse.periodNumber.isSome = isControlBoard x.1 config := by
  rw [sourceRun, messageRun]
  rcases frameRun_cases p chrono (isControlBoard x.1 config) config.rawToUahScalingOrDefault
    (readMessage x.2) with ⟨-, hr⟩ | ⟨-, s, -, hr⟩ | ⟨-, -, hr⟩ | ⟨-, time, -, hr⟩ <;> rw [hr]
  · exact .inl rfl
  · exact .inl rfl
  · exact .inl rfl
  · have hperiod : (pu00Message (isControlBoard x.1 config) config.rawToUahScalingOrDefault
        (readMessage x.2) time).periodNumber.isSome = isControlBoard x.1 config := by
      cases isControlBoard x.1 config <;> rfl
    rw [sent_increment, timedRun_sent]
    rcases bodyRun_sent time (decoding p (readMessage x.2)) with hs | ⟨events, hs⟩
    · exact .inr ⟨⟨_, none⟩, by rw [hs]; rfl, hperiod⟩
    · exact .inr ⟨⟨_, some (event44Message time events)⟩, by rw [hs]; rfl, hperiod⟩

theorem sourceRun_read (control s : Bool) (x : IpAddr × List UInt8) :
    ((reader control).run s (sent (sourceRun p chrono config x).log)).2 =
      if isControlBoard x.1 config == control then sent (sourceRun p chrono config x).log else [] := by
  rcases sourceRun_group p chrono config x with hs | ⟨g, hs, hperiod⟩
  · rw [hs, ite_self]
    rfl
  · rw [hs, run_group, hperiod]

theorem carried_source {result : Received} {x : IpAddr × List UInt8} (h : x ∈ carried config result) :
    isControlBoard x.1 config = fromControlBoard config result := by
  obtain ⟨bytes, accepts, rfl, -⟩ := exists_of_mem_carried config h
  rfl

theorem carried_filter (control : Bool) (results : List Received) :
    (results.filter fun r => fromControlBoard config r == control).flatMap (carried config) =
      (results.flatMap (carried config)).filter fun x => isControlBoard x.1 config == control := by
  induction results with
  | nil => rfl
  | cons result results ih =>
    rw [List.flatMap_cons, List.filter_append, ← ih]
    cases hk : fromControlBoard config result == control with
    | true =>
      have hall : (carried config result).filter (fun x => isControlBoard x.1 config == control) =
          carried config result :=
        List.filter_eq_self.mpr fun x hx => by rw [carried_source config hx, hk]
      rw [List.filter_cons_of_pos (by simpa using hk), hall, List.flatMap_cons]
    | false =>
      have hnone : (carried config result).filter (fun x => isControlBoard x.1 config == control) = [] :=
        List.filter_eq_nil_iff.mpr fun x hx => by simp [carried_source config hx, hk]
      rw [List.filter_cons_of_neg (by simpa using hk), hnone, List.nil_append]

end Messages

/-- Of everything that the service hands over, the pulses with a period number and the events behind
    them are what it hands over when only the datagrams of the streaming control board arrive, and the
    others are what it hands over when only the other datagrams do, in whatever order the two kinds of
    datagrams come. Where a datagram stops the service the other kind may come off with less. -/
theorem udpProcess_demultiplexed (p : Profile) (chrono : Chrono) (length : KafkaMessage → ℕ)
    (config : EventUdpToKafkaConfig) (results : List Received) :
    (∀ control, read control (sent (udpProcess p chrono length config results).log) <+:
        sent (udpProcess p chrono length config
          (results.filter fun r => fromControlBoard config r == control)).log ∧
      ((udpProcess p chrono length config results).Returns →
        (udpProcess p chrono length config
          (results.filter fun r => fromControlBoard config r == control)).Returns ∧
        read control (sent (udpProcess p chrono length config results).log) =
          sent (udpProcess p chrono length config
            (results.filter fun r => fromControlBoard config r == control)).log)) ∧
    (read true (sent (udpProcess p chrono length config results).log) ++
      read false (sent (udpProcess p chrono length config results).log)).Perm
        (sent (udpProcess p chrono length config results).log) := by
  refine ⟨fun control => ?_, run_perm false _⟩
  by_cases hbuffer : config.udpBufferSizeOrDefault ≤ isizeMax
  · obtain ⟨houtcome, -⟩ := udpProcess_core p chrono length config results hbuffer
    obtain ⟨houtcome', -⟩ := udpProcess_core p chrono length config
      (results.filter fun r => fromControlBoard config r == control) hbuffer
    rw [sent_carriedRun p chrono length config _ hbuffer, sent_carriedRun p chrono length config _ hbuffer,
      Run.Returns, Run.Returns, houtcome, houtcome', carriedRun, carriedRun, carried_filter]
    exact each_demultiplexed (fun s x => sourceRun_read p chrono config control s x) false _
  · rw [udpProcess_of_no_buffer p chrono length config _ hbuffer,
      udpProcess_of_no_buffer p chrono length config _ hbuffer]
    exact ⟨List.prefix_refl [], fun h => ⟨h, rfl⟩⟩

end EventUdpToKafka.Demultiplexing
