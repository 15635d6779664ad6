import EventUdpToKafka.GpsInstants
import EventUdpToKafka.KafkaService
import EventUdpToKafka.ServiceBalance

set_option autoImplicit false

/-!
# Nothing is left over from one datagram to the next

The loop with its buffer and its builder does what the loop over single datagrams
does: no byte of an earlier datagram and no part of an earlier payload shows.
-/
namespace EventUdpToKafka.ServiceRefinement
open LoggedRun LogMachine MachineWords GpsClock GpsInstants Config Metrics DataProcessing UdpProcess
open BigEndianBytes EventDecoding.PacketFormat1 KafkaService Testing

section Agreement
variable {σ α β : Type} (Same : σ → σ → Prop)

/-- States that are the same give the same result, and states that are the same again. -/
def Agrees (x : StateM σ α) : Prop :=
  ∀ b b', Same b b' → (x b).1 = (x b').1 ∧ Same (x b).2 (x b').2

variable {Same}

theorem Agrees.bind {x : StateM σ α} {f : α → StateM σ β} (hx : Agrees Same x)
    (hf : ∀ a, Agrees Same (f a)) : Agrees Same (x >>= f) := by
  intro b b' h
  obtain ⟨hresult, hsame⟩ := hx b b' h
  change (f (x b).1 (x b).2).1 = (f (x b').1 (x b').2).1 ∧ Same (f (x b).1 (x b).2).2 _
  rw [hresult]
  exact hf _ _ _ hsame

theorem Agrees.modify {f : σ → σ} (h : ∀ {b b'}, Same b b' → Same (f b) (f b')) :
    Agrees Same (modify f : StateM σ PUnit) := fun _ _ hb => ⟨rfl, h hb⟩

theorem Agrees.read {f : σ → α} (h : ∀ {b b'}, Same b b' → f b = f b') :
    Agrees Same (f <$> get : StateM σ α) := fun _ _ hb => ⟨h hb, hb⟩

end Agreement

/-- What `reset` is for: the states of a builder that has been reset are all the same to its other
    operations, and to what they lead to. -/
structure Reusable (fb : FlatBuffers) (Same : fb.Builder → fb.Builder → Prop) : Prop where
  reset (b b' : fb.Builder) : Same (fb.reset b) (fb.reset b')
  createString (s : String) : Agrees Same (fb.createString s)
  createVectorI64 (xs : List Int64) : Agrees Same (fb.createVectorI64 xs)
  createVectorI32 (xs : List Int32) : Agrees Same (fb.createVectorI32 xs)
  createEvent44 (args : Event44MessageArgs fb.Offset) : Agrees Same (fb.createEvent44 args)
  createPu00 (args : Pu00MessageArgs fb.Offset) : Agrees Same (fb.createPu00 args)
  finishEvent44 (offset : fb.Offset) {b b' : fb.Builder} (h : Same b b') :
    Same (fb.finishEvent44 offset b) (fb.finishEvent44 offset b')
  finishPu00 (offset : fb.Offset) {b b' : fb.Builder} (h : Same b b') :
    Same (fb.finishPu00 offset b) (fb.finishPu00 offset b')
  finishedData {b b' : fb.Builder} (h : Same b b') : fb.finishedData b = fb.finishedData b'

/-- The payload of a message from a new builder. -/
def payload (fb : FlatBuffers) (message : KafkaMessage) : List UInt8 :=
  (writeMessage fb message fb.new).1

def payloadLength (fb : FlatBuffers) (message : KafkaMessage) : ℕ := (payload fb message).length

section Builder
variable {fb : FlatBuffers} {Same : fb.Builder → fb.Builder → Prop} (h : Reusable fb Same)
include h

theorem resets {α : Type} {f : PUnit → StateM fb.Builder α} (hf : Agrees Same (f ⟨⟩))
    (b b' : fb.Builder) : ((modify fb.reset >>= f) b).1 = ((modify fb.reset >>= f) b').1 :=
  (hf _ _ (h.reset b b')).1

theorem writeEv44_eq (m : Event44Message) (b b' : fb.Builder) :
    (writeEv44 fb m b).1 = (writeEv44 fb m b').1 := by
  apply resets h
  refine (h.createString _).bind fun _ => ?_
  refine (h.createVectorI64 _).bind fun _ => ?_
  refine (h.createVectorI32 _).bind fun _ => ?_
  refine (h.createVectorI32 _).bind fun _ => ?_
  refine (h.createVectorI32 _).bind fun _ => ?_
  refine (h.createEvent44 _).bind fun _ => ?_
  exact (Agrees.modify (h.finishEvent44 _)).bind fun _ => .read h.finishedData

theorem writePu00_eq (m : Pu00Message) (b b' : fb.Builder) :
    (writePu00 fb m b).1 = (writePu00 fb m b').1 := by
  apply resets h
  refine (h.createString _).bind fun _ => ?_
  refine (h.createPu00 _).bind fun _ => ?_
  exact (Agrees.modify (h.finishPu00 _)).bind fun _ => .read h.finishedData

theorem writeMessage_payload (message : KafkaMessage) (b : fb.Builder) :
    (writeMessage fb message b).1 = payload fb message := by
  cases message with
  | pu00 m => exact writePu00_eq h m b fb.new
  | ev44 m => exact writeEv44_eq h m b fb.new

end Builder

section Sink

/-- The handling of the sink's messages as a machine that only counts them. -/
def producerMachine (length : KafkaMessage → ℕ) (accepts : ℕ → Bool) : Machine ℕ Effect Effect where
  step
    | n, .increment counter amount => (n, [.increment counter amount])
    | n, .sink message => (n + 1, .sink message :: sinkClosure length message (accepts n))

theorem producerMachine_run (length : KafkaMessage → ℕ) (accepts : ℕ → Bool) (n : ℕ)
    (log : List Effect) :
    ((producerMachine length accepts).run n log).2 = withSink length accepts n log := by
  induction log generalizing n with
  | nil => rfl
  | cons e log ih =>
    rw [Machine.run, ih]
    cases e <;> rfl

variable (fb : FlatBuffers) (config : ServiceConfig)

/-- An effect with its message as the record that is sent. -/
def shown : Effect → ServiceEffect
  | .increment counter amount => .increment counter amount
  | .sink message => .send ⟨config.destKafkaTopic, "", payload fb message⟩

def isTime : ServiceEffect → Bool
  | .recordTime _ => true
  | _ => false

/-- Apart from the samples of the processing time the one log is the other one with payloads. -/
def Shows (log : List ServiceEffect) (log' : List Effect) : Prop :=
  log.filter (fun e => ! isTime e) = log'.map (shown fb config)

variable {fb config}

theorem Shows.nil : Shows fb config [] [] := rfl

theorem Shows.append {a b : List ServiceEffect} {c d : List Effect} (h : Shows fb config a c)
    (h' : Shows fb config b d) : Shows fb config (a ++ b) (c ++ d) := by
  rw [Shows, List.filter_append, List.map_append, h, h']

theorem produce_shows (message : KafkaMessage) (accepted : Bool) :
    Shows fb config (produce config (payload fb message) accepted)
      (.sink message :: sinkClosure (payloadLength fb) message accepted) := by
  cases accepted <;> rfl

variable {Same : fb.Builder → fb.Builder → Prop} (h : Reusable fb Same)
include h

theorem sinkMachine_shows (accepts : ℕ → Bool) (fbb : fb.Builder) (log : List Effect) :
    Shows fb config ((sinkMachine fb config accepts).run (fbb, 0) log).2
      (withSink (payloadLength fb) accepts 0 log) := by
  rw [← producerMachine_run]
  refine (Machine.run_related (R := fun s n => s.2 = n) .nil .append ?_ rfl log).2
  rintro ⟨b, n⟩ _ e rfl
  cases e with
  | increment counter amount => exact ⟨rfl, rfl⟩
  | sink message =>
    refine ⟨rfl, ?_⟩
    change Shows fb config (produce config (writeMessage fb message b).1 (accepts n)) _
    rw [writeMessage_payload h]
    exact produce_shows message (accepts n)

end Sink

theorem recvFrom_length (udpBuf bytes : List UInt8) :
    (recvFrom udpBuf bytes).1.length = udpBuf.length := by
  rw [recvFrom, List.length_append, List.length_take, List.length_drop]
  omega

/-- The slice that the code processes, whatever the buffer held before. -/
theorem recvFrom_slice (udpBuf bytes : List UInt8) :
    slice (recvFrom udpBuf bytes).1 0 (recvFrom udpBuf bytes).2 = .ok (bytes.take udpBuf.length) := by
  have hcount : (bytes.take udpBuf.length).length = (recvFrom udpBuf bytes).2 := by
    rw [List.length_take, recvFrom, Nat.min_comm]
  have hle : (recvFrom udpBuf bytes).2 ≤ (recvFrom udpBuf bytes).1.length := by
    rw [recvFrom_length]
    exact Nat.min_le_right _ _
  rw [slice_of_le (Nat.zero_le _) hle, List.drop_zero, ← hcount]
  exact congrArg Except.ok (List.take_left' rfl)

section Service
variable (p : Profile) (chrono : Chrono) {fb : FlatBuffers} {config : ServiceConfig}

/-- The message processing of the loop over single datagrams. -/
def statelessLoop (fb : FlatBuffers) (config : ServiceConfig) (results : List Received) : Exec Unit :=
  Run.each (readSocket p chrono (payloadLength fb) config.toEventUdpToKafkaConfig) results

def Sized (config : ServiceConfig) (state : ServiceState fb) : Prop :=
  state.udpBuf.length = config.udpBufferSizeOrDefault

/-- The producer and the socket are there. -/
def Connected (env : Environment) (config : ServiceConfig) : Prop :=
  env.createProducer config.kafkaProducer = .ok () ∧ env.bindSocket config.udpBindAddr = .ok ()

theorem udpProcess_of_connected {env : Environment} (hc : Connected env config)
    (hbuffer : config.udpBufferSizeOrDefault ≤ isizeMax) (arrivals : List Arrival) :
    KafkaService.udpProcess fb p chrono config env arrivals =
      serve fb p chrono config ⟨fb.new, List.replicate config.udpBufferSizeOrDefault 0⟩ arrivals >>=
        fun _ => pure () := by
  rw [KafkaService.udpProcess, hc.1, hc.2, assert, if_pos hbuffer]
  rfl

variable {Same : fb.Builder → fb.Builder → Prop} (h : Reusable fb Same)
include h

theorem handle_simulates {state : ServiceState fb} (hs : Sized config state) (arrival : Arrival) :
    Simulates (Sized config) (Shows fb config) (handle fb p chrono config state arrival)
      (readSocket p chrono (payloadLength fb) config.toEventUdpToKafkaConfig arrival.result) := by
  obtain ⟨result, elapsed⟩ := arrival
  cases result with
  | error => exact ⟨rfl, .inl ⟨state, (), rfl, rfl, hs⟩⟩
  | datagram bytes srcIp accepts =>
    have hbuf := recvFrom_length state.udpBuf bytes
    have hslice := recvFrom_slice state.udpBuf bytes
    simp only [handle]
    rw [hslice, Run.lift_ok_bind, hs, readSocket, received]
    generalize processUdpBytesToKafka p chrono (bytes.take config.udpBufferSizeOrDefault) srcIp
      config.toEventUdpToKafkaConfig = r
    have hlog : Shows fb config ((sinkMachine fb config accepts).run (state.fbb, 0) r.log).2
        (withSink (payloadLength fb) accepts 0 r.log) := sinkMachine_shows h accepts state.fbb r.log
    cases hr : r.outcome with
    | error s =>
      have hthrough : (through (sinkMachine fb config accepts) (state.fbb, 0) r).outcome = .error s := by
        rw [through, hr]
        rfl
      rw [Run.bind_of_error hthrough]
      exact ⟨hlog, .inr ⟨s, rfl, rfl⟩⟩
    | ok u =>
      have hthrough : (through (sinkMachine fb config accepts) (state.fbb, 0) r).outcome =
          .ok ((sinkMachine fb config accepts).run (state.fbb, 0) r.log).1 := by
        rw [through, hr]
        rfl
      rw [Run.bind_of_ok hthrough]
      refine ⟨?_, .inl ⟨_, u, rfl, rfl, hbuf.trans hs⟩⟩
      have htimed := hlog.append (d := []) (show Shows fb config [.recordTime elapsed] [] from rfl)
      rwa [List.append_nil] at htimed

theorem serve_simulates {state : ServiceState fb} (hs : Sized config state) (arrivals : List Arrival) :
    Simulates (Sized config) (Shows fb config) (serve fb p chrono config state arrivals)
      (statelessLoop p chrono fb config (arrivals.map Arrival.result)) := by
  rw [statelessLoop, each_map]
  exact foldlM_simulates .nil .append (fun s x hs => handle_simulates p chrono h hs x) hs arrivals

theorem udpProcess_simulates {env : Environment} (hc : Connected env config)
    (arrivals : List Arrival) :
    Simulates (fun _ => True) (Shows fb config) (KafkaService.udpProcess fb p chrono config env arrivals)
      (UdpProcess.udpProcess p chrono (payloadLength fb) config.toEventUdpToKafkaConfig
        (arrivals.map Arrival.result)) := by
  rw [UdpProcess.udpProcess]
  by_cases hbuffer : config.udpBufferSizeOrDefault ≤ isizeMax
  · rw [udpProcess_of_connected p chrono hc hbuffer, assert, if_pos hbuffer]
    have hsized : Sized config (⟨fb.new, List.replicate config.udpBufferSizeOrDefault 0⟩ : ServiceState fb) :=
      List.length_replicate
    have hsim := serve_simulates p chrono h hsized arrivals
    have hdone := hsim.bind .append (g := pure ()) fun s _ =>
      (⟨rfl, .inl ⟨(), (), rfl, rfl, trivial⟩⟩ :
        Simulates (fun _ => True) (Shows fb config) (pure () : Run ServiceEffect Stop Unit) (pure ()))
    rw [statelessLoop, bind_pure_unit] at hdone
    exact hdone
  · rw [KafkaService.udpProcess, hc.1, assert, if_neg hbuffer]
    exact ⟨rfl, .inr ⟨.panic, rfl, rfl⟩⟩

end Service

section Times

def time? : ServiceEffect → Option Float
  | .recordTime elapsed => some elapsed
  | _ => none

def times (log : List ServiceEffect) : List Float := log.filterMap time?

/-- The times that a run without a panic takes, one for each datagram. -/
def elapsedOf (arrival : Arrival) : List Float :=
  match arrival.result with
  | .datagram _ _ _ => [arrival.elapsed]
  | .error => []

variable (p : Profile) (chrono : Chrono) {fb : FlatBuffers} {config : ServiceConfig}

theorem sinkMachine_times (accepts : ℕ → Bool) (s : fb.Builder × ℕ) (log : List Effect) :
    times ((sinkMachine fb config accepts).run s log).2 = [] := by
  refine Machine.run_writes (P := fun l => times l = []) rfl (fun ha hb => ?_) (fun s e => ?_) s log
  · rw [times, List.filterMap_append, ← times, ← times, ha, hb]
    rfl
  · obtain ⟨b, n⟩ := s
    cases e with
    | increment counter amount => rfl
    | sink message =>
      change times (produce config _ (accepts n)) = []
      rw [produce]
      cases accepts n <;> rfl

variable (config)

theorem handle_times (state : ServiceState fb) (arrival : Arrival) :
    times (handle fb p chrono config state arrival).log <+: elapsedOf arrival ∧
      ((handle fb p chrono config state arrival).Returns →
        times (handle fb p chrono config state arrival).log = elapsedOf arrival) := by
  obtain ⟨result, elapsed⟩ := arrival
  cases result with
  | error => exact ⟨List.prefix_refl _, fun _ => rfl⟩
  | datagram bytes srcIp accepts =>
    simp only [handle]
    rw [recvFrom_slice, Run.lift_ok_bind]
    generalize processUdpBytesToKafka p chrono (bytes.take state.udpBuf.length) srcIp
      config.toEventUdpToKafkaConfig = r
    have hsink : times (through (sinkMachine fb config accepts) (state.fbb, 0) r).log = [] :=
      sinkMachine_times accepts (state.fbb, 0) r.log
    cases hr : (through (sinkMachine fb config accepts) (state.fbb, 0) r).outcome with
    | error s =>
      rw [Run.bind_of_error hr, hsink]
      refine ⟨List.nil_prefix, ?_⟩
      rintro ⟨_, h⟩
      cases h
    | ok u =>
      rw [Run.bind_of_ok hr]
      have htimes : times ((through (sinkMachine fb config accepts) (state.fbb, 0) r).log ++
          [.recordTime elapsed]) = [elapsed] := by
        rw [times, List.filterMap_append, ← times, hsink]
        rfl
      exact ⟨htimes ▸ List.prefix_refl _, fun _ => htimes⟩

/-- A run takes the times of its datagrams, in their order and up to a panic. -/
theorem serve_times (state : ServiceState fb) (arrivals : List Arrival) :
    times (serve fb p chrono config state arrivals).log <+: arrivals.flatMap elapsedOf ∧
      ((serve fb p chrono config state arrivals).Returns →
        times (serve fb p chrono config state arrivals).log = arrivals.flatMap elapsedOf) := by
  induction arrivals generalizing state with
  | nil => exact ⟨List.prefix_refl _, fun _ => rfl⟩
  | cons arrival arrivals ih =>
    obtain ⟨hfront, hreturns⟩ := handle_times p chrono config state arrival
    rw [serve, List.foldlM_cons]
    cases hstep : (handle fb p chrono config state arrival).outcome with
    | error s =>
      rw [Run.bind_of_error hstep]
      refine ⟨hfront.trans (List.prefix_append _ _), ?_⟩
      rintro ⟨_, h⟩
      cases h
    | ok next =>
      obtain ⟨hlater, hall⟩ := ih next
      rw [Run.bind_of_ok hstep, ← serve, times, List.filterMap_append, ← times, ← times,
        hreturns ⟨next, hstep⟩, List.flatMap_cons]
      exact ⟨(List.prefix_append_right_inj _).mpr hlater,
        fun h => congrArg (elapsedOf arrival ++ ·) (hall h)⟩

end Times

/-- The loop with its buffer and its builder refines the loop over single datagrams, from any
    contents of the buffer and any state of the builder. -/
theorem serve_refines {fb : FlatBuffers} {Same : fb.Builder → fb.Builder → Prop}
    (h : Reusable fb Same) (p : Profile) (chrono : Chrono) {config : ServiceConfig}
    {state : ServiceState fb} (hs : state.udpBuf.length = config.udpBufferSizeOrDefault)
    (arrivals : List Arrival) :
    (serve fb p chrono config state arrivals).log.filter (fun e => ! isTime e) =
      (statelessLoop p chrono fb config (arrivals.map Arrival.result)).log.map (shown fb config) ∧
    ((serve fb p chrono config state arrivals).outcome.map fun _ => ()) =
      (statelessLoop p chrono fb config (arrivals.map Arrival.result)).outcome ∧
    ∀ last, (serve fb p chrono config state arrivals).outcome = .ok last →
      last.udpBuf.length = config.udpBufferSizeOrDefault ∧
      times (serve fb p chrono config state arrivals).log = arrivals.flatMap elapsedOf := by
  have hsized : Sized config state := hs
  have hsim := serve_simulates p chrono h hsized arrivals
  exact ⟨hsim.log, hsim.outcome_map, fun last hlast =>
    ⟨hsim.last hlast, (serve_times p chrono config state arrivals).2 ⟨last, hlast⟩⟩⟩

/-- A builder that puts every value in front of those before it. Its capacity never shrinks, so that
    a reset does not lead back to a new builder. -/
structure ByteBuilder where
  bytes : List UInt8
  capacity : ℕ

/-- An offset is a distance from the end of the bytes. -/
def push (new : List UInt8) : StateM ByteBuilder ℕ := fun b =>
  ((new ++ b.bytes).length, ⟨new ++ b.bytes, max b.capacity (new ++ b.bytes).length⟩)

def littleEndian32 (x : UInt32) : List UInt8 := (u32ToBeBytes x).toList.reverse

def littleEndian64 (x : Int64) : List UInt8 := (u64ToBeBytes x.toUInt64).toList.reverse

def vectorBytes (elements : List (List UInt8)) : List UInt8 :=
  littleEndian32 (UInt32.ofNat elements.length) ++ elements.flatten

/-- The field of a table, which is empty where the value is missing. -/
def slot (field : Option UInt32) : List UInt8 := (field.map littleEndian32).getD []

def byteFlatBuffers : FlatBuffers where
  Builder := ByteBuilder
  Offset := ℕ
  new := ⟨[], 0⟩
  reset b := ⟨[], b.capacity⟩
  createString s := push (vectorBytes (s.toUTF8.data.toList.map fun c => [c]))
  createVectorI64 xs := push (vectorBytes (xs.map littleEndian64))
  createVectorI32 xs := push (vectorBytes (xs.map fun x => littleEndian32 x.toUInt32))
  createEvent44 args := push (littleEndian64 args.messageId ++
    [args.sourceName, args.referenceTime, args.referenceTimeIndex, args.timeOfFlight, args.pixelId].flatMap
      fun offset => slot (offset.map UInt32.ofNat))
  createPu00 args := push (littleEndian64 args.messageId ++ littleEndian64 args.referenceTime ++
    [args.sourceName.map UInt32.ofNat, args.vetos, args.periodNumber,
      args.protonCharge.map Float32.toBits].flatMap slot)
  finishEvent44 offset b := (push (slot (some (UInt32.ofNat offset)) ++ "ev44".toUTF8.data.toList) b).2
  finishPu00 offset b := (push (slot (some (UInt32.ofNat offset)) ++ "pu00".toUTF8.data.toList) b).2
  finishedData b := b.bytes

def sameBytes (b b' : ByteBuilder) : Prop := b.bytes = b'.bytes

theorem push_agrees (new : List UInt8) : Agrees sameBytes (push new) := fun _ _ h =>
  ⟨congrArg (fun bytes => (new ++ bytes).length) h, congrArg (new ++ ·) h⟩

theorem byteFlatBuffers_reusable : Reusable byteFlatBuffers sameBytes where
  reset _ _ := rfl
  createString _ := push_agrees _
  createVectorI64 _ := push_agrees _
  createVectorI32 _ := push_agrees _
  createEvent44 _ := push_agrees _
  createPu00 _ := push_agrees _
  finishEvent44 _ _ _ h := (push_agrees _ _ _ h).2
  finishPu00 _ _ _ h := (push_agrees _ _ _ h).2
  finishedData h := h

def smallConfig : ServiceConfig where
  udpBufferSize := some 96
  rawToUahScaling := none
  streamingControlBoardIp := .v4 0x7F000001
  udpBindAddr := "127.0.0.1:1234"
  destKafkaTopic := "unittest_events"
  metricsBindAddr := "127.0.0.1:2345"
  kafkaProducer := []

/-- A buffer and a builder in use. -/
def usedState : ServiceState byteFlatBuffers := ⟨⟨[0xDE, 0xAD], 16⟩, List.replicate 96 0xFF⟩

/-- Two events whose message the producer refuses, a read error, and a shorter message, which comes
    from the control board. -/
def neutronArrivals : List Arrival :=
  [⟨.datagram (makeUdpPacket packetFormat1 2 12) (.v4 0) fun n => n = 0, 0.5⟩, ⟨.error, 0⟩,
    ⟨.datagram (makeUdpPacket packetFormat1 1 34) (.v4 0x7F000001) fun _ => true, 0.25⟩]

/-- The shorter message is read into a buffer that holds the longer one, and its payloads are built
    by a builder that holds the longer payloads. -/
theorem serve_refines_fake :
    (serve byteFlatBuffers .release gregorianChrono smallConfig usedState neutronArrivals).log.filter
        (fun e => ! isTime e) =
      (statelessLoop .release gregorianChrono byteFlatBuffers smallConfig
        (neutronArrivals.map Arrival.result)).log.map (shown byteFlatBuffers smallConfig) ∧
    (sent (statelessLoop .release gregorianChrono byteFlatBuffers smallConfig
      (neutronArrivals.map Arrival.result)).log).length = 4 ∧
    times (serve byteFlatBuffers .release gregorianChrono smallConfig usedState neutronArrivals).log =
      [0.5, 0.25] := by
  have hsized : usedState.udpBuf.length = smallConfig.udpBufferSizeOrDefault := rfl
  obtain ⟨hlog, houtcome, hlast⟩ := serve_refines byteFlatBuffers_reusable .release gregorianChrono
    hsized neutronArrivals
  have hreturns : (statelessLoop .release gregorianChrono byteFlatBuffers smallConfig
      (neutronArrivals.map Arrival.result)).outcome = .ok () := by
    decide +kernel
  refine ⟨hlog, by decide +kernel, ?_⟩
  rw [hreturns] at houtcome
  cases hserve : (serve byteFlatBuffers .release gregorianChrono smallConfig usedState
      neutronArrivals).outcome with
  | error s =>
    rw [hserve] at houtcome
    cases houtcome
  | ok last => exact (hlast last hserve).2

end EventUdpToKafka.ServiceRefinement
