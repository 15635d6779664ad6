import EventUdpToKafka.MetricsRegistry
import EventUdpToKafka.ServiceRefinement
import Mathlib.Data.List.Nodup

set_option autoImplicit false

/-!
# What the exporter shows

Every series that the service counts in is started at zero before the first
datagram, and what it shows at any moment is the total of its counter. The only
other series is the histogram of processing times, which is there from the first
datagram that has been processed.
-/
namespace EventUdpToKafka.ExposedMetrics
open LoggedRun LogMachine MachineWords GpsClock GpsInstants Config UdpMessage Metrics DataProcessing
open SelfDelimiting MessageReading FrameProcessing PacketFraming DatagramRuns UdpProcess
open MetricsBalance ServiceBalance KafkaService ServiceRefinement MetricStore MetricsRegistry

def counters : List Counter :=
  [.incomingUdpPackets, .incomingUdpPacketSize] ++ packetTypeIter.map .incomingUdpHeaders ++
    [.incomingUdpPacketErrors, .incomingUdpInvalidHeaderDeclaredLengthTooShort,
      .incomingUdpInvalidHeaderDeclaredLengthTooLong, .streamingControlBoardFrames] ++
    packetTypeIter.map .processingErrors ++
    [.neutronEvents, .invalidNeutronEvents, .outgoingKafkaProduceErrors, .outgoingKafkaMessages,
      .outgoingKafkaMessageSize]

def started? : Registration → Option Key
  | .absolute k _ => some k
  | _ => none

def described? : Registration → Option String
  | .describeCounter name _ _ | .describeHistogram name _ _ => some name
  | .absolute _ _ => none

def startsAtZero : Registration → Bool
  | .absolute _ value => value = 0
  | _ => true

theorem mem_counters (c : Counter) : c ∈ counters := by
  cases c with
  | incomingUdpHeaders type | processingErrors type => cases type <;> decide
  | _ => decide

theorem keys_nodup : (counters.map key).Nodup := by decide +kernel

theorem key_inj {c c' : Counter} : key c = key c' ↔ c = c' :=
  ⟨fun h => List.inj_on_of_nodup_map keys_nodup (mem_counters c) (mem_counters c') h, congrArg key⟩

/-- The registration starts the series of the counters and describes each of their names once. -/
theorem registrations_started : registrations.filterMap started? = counters.map key := rfl

theorem registrations_described :
    (registrations.filterMap described?).Nodup ∧
      ∀ c, (key c).name ∈ registrations.filterMap described? := by
  refine ⟨by decide +kernel, fun c => ?_⟩
  have hall : ∀ c ∈ counters, (key c).name ∈ registrations.filterMap described? := by
    decide +kernel
  exact hall c (mem_counters c)

def Initialized (env : Environment) (config : ServiceConfig) : Prop :=
  ∃ text addr, env.readToString = .ok text ∧ env.fromToml text = .ok config ∧
    env.parseSocketAddr config.metricsBindAddr = .ok addr ∧ env.installExporter addr = .ok ()

/-- What a log of the service adds to a counter. -/
def served (c : Counter) (log : List ServiceEffect) : ℕ :=
  (log.map fun
    | .increment c' amount => if c' = c then amount else 0
    | _ => 0).sum

section Store
variable (store : Store Key Float)

/-- A description shows no series of its own. -/
def expose (s : store.State) : ProcessEffect → store.State
  | .register (.absolute k value) => store.absolute k value s
  | .register _ => s
  | .service (.increment c amount) => store.increment (key c) (UInt64.ofNat amount) s
  | .service (.recordTime seconds) => store.record (plain processingTime) seconds s
  | .service (.send _) => s

/-- The state of the exporter after a log of the program. -/
def exposed (log : List ProcessEffect) : store.State := log.foldl (expose store) store.empty

def update? : ServiceEffect → Option (Update Key Float)
  | .increment c amount => some (.increment (key c) (UInt64.ofNat amount))
  | .recordTime seconds => some (.record (plain processingTime) seconds)
  | .send _ => none

def updates (log : List ServiceEffect) : List (Update Key Float) := log.filterMap update?

theorem registered_state (s : store.State) {rs : List Registration}
    (h : ∀ r ∈ rs, startsAtZero r) :
    (rs.map .register).foldl (expose store) s = store.startAll s (rs.filterMap started?) := by
  induction rs generalizing s with
  | nil => rfl
  | cons r rs ih =>
    obtain ⟨hr, hrs⟩ := List.forall_mem_cons.mp h
    cases r with
    | describeCounter | describeHistogram => exact ih s hrs
    | absolute k value =>
      obtain rfl : value = 0 := of_decide_eq_true hr
      exact ih _ hrs

theorem served_state (s : store.State) (log : List ServiceEffect) :
    (log.map .service).foldl (expose store) s = store.updateAll s (updates log) := by
  induction log generalizing s with
  | nil => rfl
  | cons e log ih => cases e <;> exact ih _

theorem amount_updates (c : Counter) (log : List ServiceEffect) :
    amount (updates log) (key c) = UInt64.ofNat (served c log) := by
  induction log with
  | nil => rfl
  | cons e log ih =>
    cases e with
    | send record =>
      rw [served, List.map_cons, List.sum_cons, Nat.zero_add, ← served]
      exact ih
    | recordTime seconds =>
      have hcons : updates (.recordTime seconds :: log) =
          .record (plain processingTime) seconds :: updates log := rfl
      rw [served, List.map_cons, List.sum_cons, Nat.zero_add, ← served, hcons, amount_cons, ih,
        Update.amount, UInt64.zero_add]
    | increment c' amount =>
      have hcons : updates (.increment c' amount :: log) =
          .increment (key c') (UInt64.ofNat amount) :: updates log := rfl
      rw [served, List.map_cons, List.sum_cons, ← served, hcons, amount_cons, ih, Update.amount,
        UInt64.ofNat_add]
      dsimp only
      by_cases hc : c' = c
      · rw [if_pos (key_inj.mpr hc), if_pos hc]
      · rw [if_neg fun hk => hc (key_inj.mp hk), if_neg hc]
        rfl

variable {store} (hs : store.Lawful)
include hs

theorem exposed_started (k : Key) :
    store.value (exposed store (registrations.map .register)) k =
      if k ∈ counters.map key then some 0 else none := by
  rw [exposed, registered_state store _ (by decide), hs.startAll, hs.empty,
    registrations_started]
  rfl

theorem exposed_served (log : List ServiceEffect) (k : Key) :
    store.value (exposed store (registrations.map .register ++ log.map .service)) k =
      if k ∈ counters.map key then some (amount (updates log) k) else none := by
  rw [exposed, List.foldl_append, ← exposed, served_state, hs.updateAll, exposed_started hs]
  · split
    · simp
    · rfl
  · intro k' n hmem
    obtain ⟨e, -, he⟩ := List.mem_filterMap.mp hmem
    rw [exposed_started hs, if_pos]
    · rfl
    · cases e with
      | send record | recordTime seconds => cases he
      | increment c amount =>
        cases he
        exact List.mem_map_of_mem (mem_counters c)

theorem exposed_counter (log : List ServiceEffect) (c : Counter) :
    store.value (exposed store (registrations.map .register ++ log.map .service)) (key c) =
      some (UInt64.ofNat (served c log)) := by
  rw [exposed_served hs, if_pos (List.mem_map_of_mem (mem_counters c)), amount_updates]

end Store

theorem served_shows {fb : FlatBuffers} {config : ServiceConfig} {log : List ServiceEffect}
    {log' : List Effect} (h : Shows fb config log log') (c : Counter) :
    served c log = total c log' := by
  have hshown : served c (log'.map (shown fb config)) = total c log' := by
    rw [served, List.map_map, total]
    congr 1
    refine List.map_congr_left fun e _ => ?_
    cases e <;> rfl
  rw [← hshown, ← h]
  clear h hshown
  induction log with
  | nil => rfl
  | cons e log ih => cases e <;> simp_all [served, isTime]

section Types

variable {p : Profile} {chrono : Chrono} {config : EventUdpToKafkaConfig}

end Types

section Program
variable {fb : FlatBuffers} {p : Profile} {chrono : Chrono} {env : Environment}
  {arrivals : List Arrival}

theorem main_of_initialized {config : ServiceConfig} (h : Initialized env config) :
    main fb p chrono env arrivals =
      ⟨registrations.map .register ++
          (KafkaService.udpProcess fb p chrono config env arrivals).log.map .service,
        (KafkaService.udpProcess fb p chrono config env arrivals).outcome⟩ := by
  obtain ⟨text, addr, htext, hconfig, haddr, hexporter⟩ := h
  have hregistered : initializeMetrics env config = .ok registrations := by
    rw [initializeMetrics, haddr]
    change (env.installExporter addr >>= fun _ => pure registrations) = _
    rw [hexporter]
    rfl
  have heach : Run.each (fun r => Run.emit (.register r)) registrations =
      (⟨registrations.map .register, .ok ()⟩ : Run ProcessEffect Stop Unit) := by
    rw [Run.each_of_returns _ fun r _ => ⟨(), rfl⟩, List.map_eq_flatMap]
    rfl
  rw [main, htext, expectOk, Run.lift_ok_bind, hconfig, expectOk, Run.lift_ok_bind, hregistered,
    expectOk, Run.lift_ok_bind, heach]
  rfl

end Program

def workingEnvironment : Environment where
  readToString := .ok ""
  fromToml _ := .ok smallConfig
  SocketAddr := Unit
  parseSocketAddr _ := .ok ()
  installExporter _ := .ok ()
  createProducer _ := .ok ()
  bindSocket _ := .ok ()

end EventUdpToKafka.ExposedMetrics
