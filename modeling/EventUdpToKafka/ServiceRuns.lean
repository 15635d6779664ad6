import EventUdpToKafka.LogMachine
import EventUdpToKafka.ServiceBalance

set_option autoImplicit false

/-!
# The service as a run over messages

What the service sends, and what it counts for its frames, comes from the
messages of the datagrams with their sources, one after the other. Where one
datagram ends and the next one starts, what lies behind the last message of a
datagram, read errors and the producer's verdicts have no part in it.
-/
namespace EventUdpToKafka.ServiceRuns
open LoggedRun LogMachine MachineWords GpsClock Config UdpMessage Metrics DataProcessing
open SelfDelimiting MessageReading FrameProcessing PacketFraming DatagramRuns UdpProcess
open MetricsBalance ServiceBalance GpsInstants Testing

/-- The messages of the frames in a datagram, with its source. -/
def carried (config : EventUdpToKafkaConfig) (result : Received) : List (IpAddr × List UInt8) :=
  match result with
  | .datagram _ srcIp _ =>
    (framesOf config result).filterMap fun view => (ownBytes view).toOption.map (srcIp, ·)
  | .error => []

/-- The effects of frames: messages, and increments of the counters that frames count in. -/
def ofMessages : Effect → Bool
  | .increment c _ => ofFrames c
  | .sink _ => true

def core (log : List Effect) : List Effect := log.filter ofMessages

theorem core_append (log log' : List Effect) : core (log ++ log') = core log ++ core log' :=
  List.filter_append ..

theorem sent_core (log : List Effect) : sent (core log) = sent log := by
  induction log with
  | nil => rfl
  | cons e log ih =>
    cases e with
    | sink message =>
      change sent (.sink message :: core log) = _
      rw [sent_sink, sent_sink, ih]
    | increment c amount =>
      rw [sent_increment, ← ih, core]
      cases h : ofMessages (.increment c amount) with
      | true => rw [List.filter_cons_of_pos h, ← core, sent_increment]
      | false => rw [List.filter_cons_of_neg (by simp [h]), ← core]

theorem total_core {c : Counter} (hc : ofFrames c) (log : List Effect) :
    total c (core log) = total c log := by
  induction log with
  | nil => rfl
  | cons e log ih =>
    rw [total_cons, ← ih, core]
    cases he : ofMessages e with
    | true => rw [List.filter_cons_of_pos he, total_cons, core]
    | false =>
      rw [List.filter_cons_of_neg (by simp [he]), ← core]
      cases e with
      | sink message => cases he
      | increment c' amount =>
        have hne : c' ≠ c := by
          rintro rfl
          rw [ofMessages, hc] at he
          cases he
        rw [Effect.amountOf, if_neg hne, Nat.zero_add]

theorem core_withSink (length : KafkaMessage → ℕ) (accepts : ℕ → Bool) (n : ℕ) (log : List Effect) :
    core (withSink length accepts n log) = core log := by
  induction log generalizing n with
  | nil => rfl
  | cons e log ih =>
    cases e with
    | increment c amount =>
      rw [withSink, core, core, List.filter_cons, List.filter_cons, ← core, ← core, ih]
    | sink message =>
      have hclosure : core (sinkClosure length message (accepts n)) = [] := by
        rw [sinkClosure]
        split <;> rfl
      rw [withSink, core, List.filter_cons_of_pos rfl, ← core, core_append, hclosure, ih,
        List.nil_append]
      rfl

theorem core_stopLog (t : List UInt8) : core (stopLog t) = [] := by
  unfold stopLog
  split <;> rfl

section Service
variable (p : Profile) (chrono : Chrono) (length : KafkaMessage → ℕ) (config : EventUdpToKafkaConfig)

def sourceRun (x : IpAddr × List UInt8) : Exec Unit := messageRun p chrono x.1 config x.2

def carriedRun (results : List Received) : Exec Unit :=
  Run.each (sourceRun p chrono config) (results.flatMap (carried config))

theorem carried_eq (bytes : List UInt8) (srcIp : IpAddr) (accepts : ℕ → Bool) :
    carried config (.datagram bytes srcIp accepts) =
      (messages udpDelimiter (received config bytes)).map (srcIp, ·) := by
  have hs := messages_splits (d := udpDelimiter) (received config bytes)
  have hown := viewsOf_ownBytes (splits_iff.mp hs).2.1 (remainder udpDelimiter (received config bytes))
  have hmap : ∀ views : List UdpMessageView,
      views.filterMap (fun view => (ownBytes view).toOption.map (srcIp, ·)) =
        (views.map ownBytes).filterMap fun m => m.toOption.map (srcIp, ·) := fun views => by
    rw [List.filterMap_map]
    rfl
  rw [carried, framesOf, packetToFrames_eq hs]
  dsimp only
  rw [hmap, hown, List.filterMap_map]
  exact congrFun List.filterMap_eq_map' _

theorem exists_of_mem_carried {result : Received} {x : IpAddr × List UInt8} (h : x ∈ carried config result) :
    ∃ bytes accepts, result = .datagram bytes x.1 accepts ∧
      x.2 ∈ messages udpDelimiter (received config bytes) := by
  cases result with
  | error => cases h
  | datagram bytes srcIp accepts =>
    rw [carried_eq] at h
    obtain ⟨m, hm, rfl⟩ := List.mem_map.mp h
    exact ⟨bytes, accepts, rfl, hm⟩

/-- One pass of the loop: the messages of its result, run one after the other. -/
theorem core_readSocket {result : Received}
    (hbuffer : config.udpBufferSizeOrDefault ≤ isizeMax) :
    (readSocket p chrono length config result).outcome =
      (Run.each (sourceRun p chrono config) (carried config result)).outcome ∧
    core (readSocket p chrono length config result).log =
      (Run.each (sourceRun p chrono config) (carried config result)).log := by
  cases result with
  | error => exact ⟨rfl, rfl⟩
  | datagram bytes srcIp accepts =>
    have hs := messages_splits (d := udpDelimiter) (received config bytes)
    have hrun := processUdpBytesToKafka_eq p chrono srcIp config hs
      (.inl ((received_length_le bytes).trans hbuffer))
    have hcarried : Run.each (sourceRun p chrono config) (carried config (.datagram bytes srcIp accepts)) =
        messagesRun p chrono srcIp config (messages udpDelimiter (received config bytes)) := by
      rw [carried_eq, each_map]
      rfl
    have hown : core (messagesRun p chrono srcIp config
        (messages udpDelimiter (received config bytes))).log = (messagesRun p chrono srcIp config
        (messages udpDelimiter (received config bytes))).log := by
      refine List.filter_eq_self.mpr fun e he => ?_
      obtain ⟨m, -, hm⟩ := Run.exists_mem_of_mem_each _ he
      cases e with
      | sink message => rfl
      | increment c amount => exact frameRun_ofFrames hm
    rw [hcarried, readSocket, core_withSink, hrun]
    refine ⟨rfl, ?_⟩
    rw [core_append, core_append, core_stopLog, hown]
    rfl

/-- Without room for its buffer the service does not start. -/
theorem udpProcess_of_no_buffer (results : List Received)
    (h : ¬ config.udpBufferSizeOrDefault ≤ isizeMax) :
    udpProcess p chrono length config results = Run.stop .panic := by
  rw [udpProcess, assert, if_neg h]
  rfl

theorem udpProcess_core (results : List Received)
    (hbuffer : config.udpBufferSizeOrDefault ≤ isizeMax) :
    (udpProcess p chrono length config results).outcome = (carriedRun p chrono config results).outcome ∧
    core (udpProcess p chrono length config results).log =
      (carriedRun p chrono config results).log := by
  rw [udpProcess, assert, if_pos hbuffer, Run.lift_ok_bind, carriedRun, each_flatMap]
  exact Run.each_related _ (R := fun log log' => core log = log') rfl
    (fun ha hb => by rw [core_append, ha, hb])
    fun result _ => core_readSocket p chrono length config hbuffer

theorem udpProcess_passes {results : List Received}
    (h : (udpProcess p chrono length config results).Returns) :
    config.udpBufferSizeOrDefault ≤ isizeMax ∧
      ∀ x ∈ results.flatMap (carried config), (sourceRun p chrono config x).Returns := by
  by_cases hbuffer : config.udpBufferSizeOrDefault ≤ isizeMax
  · rw [Run.Returns, (udpProcess_core p chrono length config results hbuffer).1] at h
    exact ⟨hbuffer, (Run.each_returns_iff _ _).mp h⟩
  · rw [udpProcess_of_no_buffer p chrono length config results hbuffer] at h
    obtain ⟨_, hstop⟩ := h
    cases hstop

theorem sent_carriedRun (results : List Received)
    (hbuffer : config.udpBufferSizeOrDefault ≤ isizeMax) :
    sent (udpProcess p chrono length config results).log = sent (carriedRun p chrono config results).log := by
  rw [← sent_core, (udpProcess_core p chrono length config results hbuffer).2]

end Service

theorem sourceRun_config (p : Profile) (chrono : Chrono) {config config' : EventUdpToKafkaConfig}
    (hboard : config.streamingControlBoardIp = config'.streamingControlBoardIp)
    (hscaling : config.rawToUahScaling = config'.rawToUahScaling) :
    sourceRun p chrono config = sourceRun p chrono config' := by
  funext x
  rw [sourceRun, sourceRun, messageRun, messageRun, isControlBoard, isControlBoard, hboard,
    EventUdpToKafkaConfig.rawToUahScalingOrDefault, hscaling]
  rfl

/-- Two runs that bring the same messages from the same sources do the same, however the messages
    are spread over datagrams and whatever else arrives; also with buffers of different sizes. -/
theorem udpProcess_rebatched (p : Profile) (chrono : Chrono) (length length' : KafkaMessage → ℕ)
    {config config' : EventUdpToKafkaConfig}
    (hboard : config.streamingControlBoardIp = config'.streamingControlBoardIp)
    (hscaling : config.rawToUahScaling = config'.rawToUahScaling)
    (hbuffer : config.udpBufferSizeOrDefault ≤ isizeMax)
    (hbuffer' : config'.udpBufferSizeOrDefault ≤ isizeMax) {results results' : List Received}
    (h : results.flatMap (carried config) = results'.flatMap (carried config')) :
    (udpProcess p chrono length config results).outcome =
      (udpProcess p chrono length' config' results').outcome ∧
    core (udpProcess p chrono length config results).log =
      core (udpProcess p chrono length' config' results').log := by
  have hrun : carriedRun p chrono config results = carriedRun p chrono config' results' := by
    rw [carriedRun, carriedRun, h, sourceRun_config p chrono hboard hscaling]
  obtain ⟨houtcome, hcore⟩ := udpProcess_core p chrono length config results hbuffer
  obtain ⟨houtcome', hcore'⟩ := udpProcess_core p chrono length' config' results' hbuffer'
  rw [houtcome, houtcome', hcore, hcore', hrun]
  exact ⟨rfl, rfl⟩

def shortBufferConfig : EventUdpToKafkaConfig :=
  { EventUdpToKafkaConfig.makeTestingConfig with udpBufferSize := some 80 }

def oneDatagram : List Received :=
  [.datagram (makeUdpPacket packetFormat1 1 12 ++ makeUdpPacket packetFormat1 0 34) (.v4 0)
    fun _ => true]

def twoDatagrams : List Received :=
  [.datagram (makeUdpPacket packetFormat1 1 12 ++ [0, 0, 0]) (.v4 0) fun _ => false, .error,
    .datagram (makeUdpPacket packetFormat1 0 34) (.v4 0) fun _ => true]

/-- Two messages in one datagram, and in two with padding and a read error between them. -/
theorem udpProcess_rebatched_fake :
    core (udpProcess .release gregorianChrono (fun _ => 100) .makeTestingConfig oneDatagram).log =
      core (udpProcess .release gregorianChrono (fun _ => 200) shortBufferConfig twoDatagrams).log :=
  have hboard : EventUdpToKafkaConfig.makeTestingConfig.streamingControlBoardIp =
      shortBufferConfig.streamingControlBoardIp := rfl
  have hcarried : oneDatagram.flatMap (carried .makeTestingConfig) =
      twoDatagrams.flatMap (carried shortBufferConfig) := by decide +kernel
  (udpProcess_rebatched .release gregorianChrono (fun _ => 100) (fun _ => 200) hboard rfl (by decide)
    (by decide) hcarried).2

end EventUdpToKafka.ServiceRuns
