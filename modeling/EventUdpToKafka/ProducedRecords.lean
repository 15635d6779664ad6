import EventUdpToKafka.ExposedMetrics
import EventUdpToKafka.MessageFormat

set_option autoImplicit false

/-!
# What the program gives to its producer

From the start of the program to the records that its producer is given and the
numbers on its exporter: what a program leads to whose traffic is well-formed.
Which of the records the producer then takes is up to the producer.
-/
namespace EventUdpToKafka.ProducedRecords
open LoggedRun MachineWords GpsClock GpsInstants Config UdpMessage Metrics EventArithmetic MessageReading
open FrameProcessing DatagramRuns MessageEncoding MessageRoundTrip MetricsBalance UdpProcess
open KafkaService ServiceRefinement MetricStore MetricsRegistry ExposedMetrics ServiceRuns MessageFormat

def sentRecord? : ServiceEffect → Option BaseRecord
  | .send record => some record
  | _ => none

def producedRecord? : ProcessEffect → Option BaseRecord
  | .service effect => sentRecord? effect
  | .register _ => none

/-- The records that the producer is given, in their order, those that it refuses among them. -/
def produced (log : List ProcessEffect) : List BaseRecord := log.filterMap producedRecord?

theorem produced_served (rs : List Registration) (log : List ServiceEffect) :
    produced (rs.map .register ++ log.map .service) = log.filterMap sentRecord? := by
  have hregistered : (rs.map ProcessEffect.register).filterMap producedRecord? = [] := by
    rw [List.filterMap_map]
    exact List.filterMap_eq_nil_iff.mpr fun _ _ => rfl
  rw [produced, List.filterMap_append, hregistered, List.filterMap_map]
  rfl

section Records
variable (fb : FlatBuffers) (config : ServiceConfig)

def recordOf (message : KafkaMessage) : BaseRecord := ⟨config.destKafkaTopic, "", payload fb message⟩

variable {fb config}

theorem sentRecord_shows {log : List ServiceEffect} {log' : List Effect} (h : Shows fb config log log') :
    log.filterMap sentRecord? = (sent log').map (recordOf fb config) := by
  have htimes : (log.filter fun e => ! isTime e).filterMap sentRecord? = log.filterMap sentRecord? := by
    rw [List.filterMap_filter]
    congr 1
    funext e
    cases e <;> rfl
  rw [← htimes, h, List.filterMap_map, sent, List.map_filterMap]
  congr 1
  funext e
  cases e <;> rfl

end Records

section Counts
variable {chrono : Chrono} (hc : Gregorian chrono) (p : Profile) (config : EventUdpToKafkaConfig)

/-- What a message is to count. -/
def told (c : Counter) (x : IpAddr × Description) : ℕ :=
  match c with
  | .incomingUdpHeaders .neutronData => 1
  | .streamingControlBoardFrames => if isControlBoard x.1 config then 1 else 0
  | .neutronEvents => x.2.events.length
  | _ => 0

include hc

theorem frameRun_encode_log (controlBoard : Bool) (scaling : Float32) (d : Description) :
    (frameRun p chrono controlBoard scaling (readMessage d.encode)).log =
      .increment (.incomingUdpHeaders .neutronData) 1 ::
        (timedRun controlBoard scaling (readMessage d.encode)
          (UInt64.ofNat d.clock.nanosecondsSinceEpoch) (some (.decoded d.eventData))).log := by
  have htype : (readMessage d.encode).packetType = .neutronData := by rw [d.readMessage_encode]
  have htime : (readMessage d.encode).gpsTime.nanosecondsSinceEpoch p chrono =
      .ok (some (UInt64.ofNat d.clock.nanosecondsSinceEpoch)) := by
    rw [d.readMessage_encode, nanosecondsSinceEpoch_eq _ hc,
      if_pos (d.clock.pack_valid d.clock_valid), d.clock.pack_instant]
  have hdecoding : decoding p (readMessage d.encode) = some (.decoded d.eventData) := by
    rw [d.readMessage_encode, decoding, Option.map_some, decode_events]
  rw [frameRun, if_pos htype, neutronRun, htime, hdecoding]

theorem sourceRun_told {c : Counter} (hframes : ofFrames c) (x : IpAddr × Description) :
    total c (sourceRun p chrono config (encodeFrom x)).log = told config c x := by
  have hbody : total c (bodyRun (UInt64.ofNat x.2.clock.nanosecondsSinceEpoch)
      (some (.decoded x.2.eventData))).log =
        if Counter.neutronEvents = c then x.2.events.length else 0 := by
    have hlen : x.2.eventData.len = x.2.events.length := List.length_map _
    rw [bodyRun]
    split
    · rename_i hempty
      have hzero : x.2.events.length = 0 := hlen ▸ List.length_eq_zero_iff.mpr (List.isEmpty_iff.mp hempty)
      rw [hzero, ite_self]
      rfl
    · rw [total_cons, total_cons, total_nil, Effect.amountOf, Effect.amountOf, hlen]
      rfl
  have hboard : total c (controlBoardLog (isControlBoard x.1 config)) =
      if Counter.streamingControlBoardFrames = c then
        if isControlBoard x.1 config then 1 else 0 else 0 := by
    rw [controlBoardLog]
    split
    · rw [total_cons, total_nil, Effect.amountOf, Nat.add_zero]
    · rw [total_nil, ite_self]
  rw [sourceRun, messageRun, encodeFrom, frameRun_encode_log hc, timedRun, total_cons, total_append,
    total_cons, hbody, hboard]
  cases c with
  | incomingUdpHeaders type | processingErrors type => cases type <;> rfl
  | streamingControlBoardFrames | neutronEvents | invalidNeutronEvents => simp [told, Effect.amountOf]
  | _ => cases hframes

theorem carriedRun_told {results : List Received} {ds : List (IpAddr × Description)}
    (hds : results.flatMap (carried config) = ds.map encodeFrom) {c : Counter} (hframes : ofFrames c) :
    total c (carriedRun p chrono config results).log = (ds.map (told config c)).sum := by
  rw [carriedRun_encode hc p config hds]
  clear hds
  induction ds with
  | nil => rfl
  | cons x ds ih =>
    rw [List.flatMap_cons, total_append, sourceRun_told hc p config hframes, ih, List.map_cons, List.sum_cons]

end Counts

/-- The records that a program gives to its producer are those of the messages that the loop over
    single datagrams hands over, when the producer and the socket are there. When all messages that
    arrive are well-formed, in whichever datagrams and in either build, the program gets through, the
    records are what the descriptions of these messages say, and so are the numbers that the exporter
    shows for its frames. -/
theorem main_produces {store : Store Key Float} (hs : store.Lawful) {fb : FlatBuffers}
    {Same : fb.Builder → fb.Builder → Prop} (hfb : Reusable fb Same) (p : Profile) {chrono : Chrono}
    (hc : Gregorian chrono) {env : Environment} {config : ServiceConfig} (hinit : Initialized env config)
    (hconn : Connected env config) (hbuffer : config.udpBufferSizeOrDefault ≤ isizeMax)
    (arrivals : List Arrival) :
    produced (main fb p chrono env arrivals).log =
      (sent (UdpProcess.udpProcess p chrono (payloadLength fb) config.toEventUdpToKafkaConfig
        (arrivals.map Arrival.result)).log).map (recordOf fb config) ∧
    ((∀ x ∈ (arrivals.map Arrival.result).flatMap (carried config.toEventUdpToKafkaConfig),
        WellFormed x.2) →
      ∃! ds : List (IpAddr × Description),
        (arrivals.map Arrival.result).flatMap (carried config.toEventUdpToKafkaConfig) =
          ds.map encodeFrom ∧
        (main fb p chrono env arrivals).Returns ∧
        produced (main fb p chrono env arrivals).log =
          (ds.flatMap fun x => x.2.emitted (isControlBoard x.1 config.toEventUdpToKafkaConfig)
            config.rawToUahScalingOrDefault).map (recordOf fb config) ∧
        ∀ c, ofFrames c → store.value (exposed store (main fb p chrono env arrivals).log) (key c) =
          some (UInt64.ofNat (ds.map (told config.toEventUdpToKafkaConfig c)).sum)) := by
  have hsim := udpProcess_simulates p chrono hfb hconn arrivals
  rw [main_of_initialized hinit, produced_served, sentRecord_shows hsim.log]
  refine ⟨rfl, fun h => ?_⟩
  obtain ⟨ds, ⟨hds, hreturns, hsent⟩, -⟩ := udpProcess_described hc p config.toEventUdpToKafkaConfig
    (payloadLength fb) (arrivals.map Arrival.result) hbuffer h
  refine ⟨ds, ⟨hds, hsim.returns_iff.mpr hreturns, by rw [hsent], fun c hframes => ?_⟩, fun ds' h' => ?_⟩
  · rw [exposed_counter hs, served_shows hsim.log, ← total_core hframes,
      (udpProcess_core p chrono (payloadLength fb) config.toEventUdpToKafkaConfig _ hbuffer).2,
      carriedRun_told hc p config.toEventUdpToKafkaConfig hds hframes]
  · exact List.map_injective_iff.mpr encodeFrom_injective (h'.1.symm.trans hds)

def neutronDescriptions : List (IpAddr × Description) :=
  [(.v4 0, fakeDescription 2 12 (by decide)), (.v4 0x7F000001, fakeDescription 1 34 (by decide))]

/-- Messages of two events and of one. Of their four records the producer refuses one. -/
theorem main_produces_fake :
    (main byteFlatBuffers .dev gregorianChrono workingEnvironment neutronArrivals).Returns ∧
      produced (main byteFlatBuffers .dev gregorianChrono workingEnvironment neutronArrivals).log =
        (neutronDescriptions.flatMap fun x => x.2.emitted
          (isControlBoard x.1 smallConfig.toEventUdpToKafkaConfig)
          smallConfig.rawToUahScalingOrDefault).map (recordOf byteFlatBuffers smallConfig) ∧
      (functionStore Key Float).value (exposed (functionStore Key Float)
        (main byteFlatBuffers .dev gregorianChrono workingEnvironment neutronArrivals).log)
          (key .streamingControlBoardFrames) = some 1 := by
  have hinit : Initialized workingEnvironment smallConfig := ⟨"", (), rfl, rfl, rfl, rfl⟩
  have hconn : Connected workingEnvironment smallConfig := ⟨rfl, rfl⟩
  have hcarried : (neutronArrivals.map Arrival.result).flatMap
      (carried smallConfig.toEventUdpToKafkaConfig) = neutronDescriptions.map encodeFrom := by
    rw [neutronDescriptions, List.map_cons, List.map_singleton, encodeFrom, encodeFrom,
      ← makeUdpPacket_eq, ← makeUdpPacket_eq]
    decide +kernel
  obtain ⟨ds, ⟨hds, hreturns, hproduced, hshown⟩, -⟩ := (main_produces functionStore_lawful
    byteFlatBuffers_reusable .dev gregorianChrono_gregorian hinit hconn (by decide) neutronArrivals).2
      fun x hx => by
        rw [hcarried] at hx
        obtain ⟨d, -, rfl⟩ := List.mem_map.mp hx
        exact encode_wellFormed d.2
  obtain rfl : ds = neutronDescriptions :=
    List.map_injective_iff.mpr encodeFrom_injective (hds.symm.trans hcarried)
  exact ⟨hreturns, hproduced, hshown .streamingControlBoardFrames rfl⟩

end EventUdpToKafka.ProducedRecords
