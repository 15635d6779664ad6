import EventUdpToKafka.CrashFreedom
import EventUdpToKafka.Ledger
import EventUdpToKafka.ServiceRuns

set_option autoImplicit false

/-!
# How much comes out for what goes in

Frames and records take room in a datagram, and a frame ends in at most two
messages or one message and an error. So at every moment of a run what has been
counted and handed over is bounded by what has been received.
-/
namespace EventUdpToKafka.OutputBounds
open LoggedRun MachineWords GpsClock GpsInstants Config UdpMessage Metrics BigEndianBytes EventDecoding
open EventArithmetic DataProcessing SelfDelimiting MessageReading FrameProcessing PacketFraming
open DatagramRuns FrameEmission UdpProcess MetricsBalance ServiceBalance ServiceRuns Ledger PacketFormat1
open Testing

/-- Bytes that are received against the bytes that frames and records take. -/
def spaceWeight : Effect → ℤ
  | .increment .incomingUdpPacketSize amount => amount
  | .increment (.incomingUdpHeaders _) amount => -(56 * amount)
  | .increment .neutronEvents amount => -(8 * amount)
  | .increment .invalidNeutronEvents amount => -(8 * amount)
  | _ => 0

/-- Two for a frame against its messages and its error. -/
def outcomeWeight : Effect → ℤ
  | .increment (.incomingUdpHeaders _) amount => 2 * amount
  | .increment (.processingErrors _) amount => -amount
  | .sink _ => -1
  | _ => 0

/-- Messages against the verdicts on them. -/
def verdictWeight : Effect → ℤ
  | .increment .outgoingKafkaMessages amount => -amount
  | .increment .outgoingKafkaProduceErrors amount => -amount
  | .sink _ => 1
  | _ => 0

/-- A counter with a label, over all labels. -/
def totalOver (counter : UdpPacketType → Counter) (log : List Effect) : ℕ :=
  (packetTypes.map fun type => total (counter type) log).sum

def amountOver (counter : UdpPacketType → Counter) (e : Effect) : ℕ :=
  (packetTypes.map fun type => e.amountOf (counter type)).sum

theorem totalOver_cons (counter : UdpPacketType → Counter) (e : Effect) (log : List Effect) :
    totalOver counter (e :: log) = amountOver counter e + totalOver counter log := by
  simp only [totalOver, amountOver, packetTypes, List.map_cons, List.map_nil, List.sum_cons,
    List.sum_nil, total_cons]
  omega

theorem spaceWeight_eq (e : Effect) : spaceWeight e =
    e.amountOf .incomingUdpPacketSize - 56 * amountOver .incomingUdpHeaders e -
      8 * (e.amountOf .neutronEvents + e.amountOf .invalidNeutronEvents) := by
  cases e with
  | sink message => rfl
  | increment c amount =>
    cases c with
    | incomingUdpHeaders type => cases type <;> simp [spaceWeight, amountOver, packetTypes, Effect.amountOf]
    | _ => simp [spaceWeight, amountOver, packetTypes, Effect.amountOf]

theorem space_balance (log : List Effect) : balance spaceWeight log =
    total .incomingUdpPacketSize log - 56 * totalOver .incomingUdpHeaders log -
      8 * (total .neutronEvents log + total .invalidNeutronEvents log) := by
  induction log with
  | nil => rfl
  | cons e log ih =>
    simp only [balance_cons, ih, spaceWeight_eq, totalOver_cons, total_cons]
    omega

theorem outcomeWeight_eq (e : Effect) : outcomeWeight e =
    2 * amountOver .incomingUdpHeaders e - amountOver .processingErrors e - (sent [e]).length := by
  cases e with
  | sink message => rfl
  | increment c amount =>
    cases c with
    | incomingUdpHeaders type | processingErrors type =>
      cases type <;> simp [outcomeWeight, amountOver, packetTypes, Effect.amountOf]
    | _ => simp [outcomeWeight, amountOver, packetTypes, Effect.amountOf]

theorem outcome_balance (log : List Effect) : balance outcomeWeight log =
    2 * totalOver .incomingUdpHeaders log - totalOver .processingErrors log - (sent log).length := by
  induction log with
  | nil => rfl
  | cons e log ih =>
    have hsent : (sent (e :: log)).length = (sent [e]).length + (sent log).length := by
      rw [← List.length_append, ← sent_append]
      rfl
    simp only [balance_cons, ih, outcomeWeight_eq, totalOver_cons, hsent]
    omega

theorem verdict_balance (log : List Effect) : balance verdictWeight log =
    (sent log).length - total .outgoingKafkaMessages log - total .outgoingKafkaProduceErrors log := by
  induction log with
  | nil => rfl
  | cons e log ih =>
    rw [balance_cons, ih]
    cases e with
    | sink message =>
      simp only [verdictWeight, sent_sink, List.length_cons, total_cons, Effect.amountOf]
      omega
    | increment c amount =>
      cases c <;> simp [verdictWeight, Effect.amountOf] <;> omega

section Frames

/-- The records that a decoding counts, as events or as invalid ones. -/
def recordsOf : Option Decoding → ℕ
  | some (.invalid count) => count
  | some (.decoded events) => events.len
  | _ => 0

theorem decode_records_le (p : Profile) (code : UInt16) (board : Option BoardParameters)
    (data : List UInt8) (delayUs : UInt32) :
    8 * recordsOf (some (decode p code board data delayUs)) ≤ data.length ∧
      (0 < recordsOf (some (decode p code board data delayUs)) → board.isSome) := by
  have hnone : 8 * 0 ≤ data.length ∧ (0 < 0 → board.isSome) := ⟨Nat.zero_le _, fun h => absurd h (Nat.lt_irrefl 0)⟩
  rw [decode]
  split
  · exact hnone
  · split
    · rcases decodeFormat1_cases p board data delayUs with ⟨-, hd⟩ | ⟨-, -, b, rfl, hd⟩
      · rw [hd]
        exact hnone
      · have hchunks := asChunks8_length data
        rw [hd, decodeChunks]
        split
        · exact hnone
        · split
          · have hlen : (eventData (captured b (delayUs * 1000)) (asChunks8 data)).len =
                (asChunks8 data).length := List.length_map _
            rw [recordsOf, hlen]
            exact ⟨by omega, fun _ => rfl⟩
          · have hbad : badRecords (asChunks8 data) ≤ (asChunks8 data).length := List.countP_le_length
            rw [recordsOf]
            exact ⟨by omega, fun _ => rfl⟩
    · exact hnone

/-- The board's own header takes another eight bytes, and without it there are no records. -/
theorem message_records_le (p : Profile) {m : List UInt8} (h : Complete udpDelimiter m) :
    56 + 8 * recordsOf (decoding p (readMessage m)) ≤ m.length ∧
      (0 < recordsOf (decoding p (readMessage m)) →
        64 + 8 * recordsOf (decoding p (readMessage m)) ≤ m.length) := by
  obtain ⟨ha, hlen⟩ := complete_iff.mp h
  have hdata := eventBytes_length ha
  have hlong := ha.long
  rw [decoding, readMessage]
  by_cases hf : HeaderFits m
  · have hboard := boardBytes_length ha hf
    obtain ⟨hrecords, hsome⟩ := decode_records_le p (u16FromBeBytes (byteAt m 5) (byteAt m 6))
      (boardParameters (boardBytes m)) (eventBytes m) (u32FromBeBytes (bytes4At m 48))
    rw [boardParameters_isSome] at hsome
    obtain ⟨hlo, hhi⟩ := hf
    rw [if_pos ⟨hlo, hhi⟩, Option.map_some]
    dsimp only
    unfold declaredBytes at hlen
    exact ⟨by omega, fun hpos => by
      have height := hsome hpos
      omega⟩
  · rw [if_neg hf, Option.map_none]
    exact ⟨hlong, fun hpos => absurd hpos (Nat.lt_irrefl 0)⟩

/-- What a frame's effects after its header take out of the two ledgers. -/
structure Spends (log : List Effect) (records outcomes : ℕ) : Prop where
  space_le : ∀ e ∈ log, spaceWeight e ≤ 0
  outcome_le : ∀ e ∈ log, outcomeWeight e ≤ 0
  space : -(8 * records : ℤ) ≤ balance spaceWeight log
  outcome : -(outcomes : ℤ) ≤ balance outcomeWeight log

theorem Spends.nil (records outcomes : ℕ) : Spends [] records outcomes :=
  ⟨fun _ h => absurd h List.not_mem_nil, fun _ h => absurd h List.not_mem_nil,
    by rw [balance_nil]; omega, by rw [balance_nil]; omega⟩

theorem Spends.cons {log : List Effect} {records outcomes r n : ℕ} {e : Effect}
    (hspace : spaceWeight e = -(8 * r : ℤ)) (houtcome : outcomeWeight e = -(n : ℤ))
    (h : Spends log records outcomes) : Spends (e :: log) (r + records) (n + outcomes) where
  space_le := List.forall_mem_cons.mpr ⟨by omega, h.space_le⟩
  outcome_le := List.forall_mem_cons.mpr ⟨by omega, h.outcome_le⟩
  space := by
    have hs := h.space
    rw [balance_cons]
    omega
  outcome := by
    have ho := h.outcome
    rw [balance_cons]
    omega

theorem Spends.mono {log : List Effect} {records records' outcomes outcomes' : ℕ}
    (h : Spends log records outcomes) (hr : records ≤ records') (ho : outcomes ≤ outcomes') :
    Spends log records' outcomes' := by
  have hs := h.space
  have hout := h.outcome
  exact ⟨h.space_le, h.outcome_le, by omega, by omega⟩

/-- A message or an error. -/
theorem Spends.one {log : List Effect} {records outcomes : ℕ} {e : Effect} (hspace : spaceWeight e = 0)
    (houtcome : outcomeWeight e = -1) (h : Spends log records outcomes) :
    Spends (e :: log) records (1 + outcomes) := by
  have hcons := h.cons (r := 0) (n := 1) hspace houtcome
  rwa [Nat.zero_add] at hcons

theorem bodyRun_spends (time : UInt64) (d : Option Decoding) :
    Spends (bodyRun time d).log (recordsOf d) 1 := by
  match d with
  | none | some .overflow => exact .nil _ _
  | some .refused => exact (Spends.nil _ 0).one rfl rfl
  | some (.invalid count) => exact ((Spends.nil 0 0).one (e := failed .neutronData) rfl rfl).cons rfl rfl
  | some (.decoded events) =>
    rw [bodyRun]
    split
    · exact .nil _ _
    · exact ((Spends.nil 0 0).one (e := .sink (.ev44 (event44Message time events))) rfl rfl).cons rfl rfl

theorem frameRun_spends (p : Profile) (chrono : Chrono) (controlBoard : Bool) (scaling : Float32)
    (r : Reading) : ∃ rest, (frameRun p chrono controlBoard scaling r).log =
      .increment (.incomingUdpHeaders r.packetType) 1 :: rest ∧
        Spends rest (recordsOf (decoding p r)) 2 := by
  have hfailed (type : UdpPacketType) : Spends [failed type] (recordsOf (decoding p r)) 2 :=
    (Spends.nil _ 1).one rfl rfl
  rcases frameRun_cases p chrono controlBoard scaling r with ⟨-, hr⟩ | ⟨hn, s, -, hr⟩ | ⟨hn, -, hr⟩ |
    ⟨hn, time, -, hr⟩
  · exact ⟨_, congrArg Run.log hr, hfailed _⟩
  · rw [hr, hn]
    exact ⟨_, rfl, .nil _ _⟩
  · rw [hr, hn]
    exact ⟨_, rfl, hfailed _⟩
  · rw [hr, hn]
    have hpulse : Spends (.sink (.pu00 (pu00Message controlBoard scaling r time)) ::
        (bodyRun time (decoding p r)).log) (recordsOf (decoding p r)) 2 :=
      (bodyRun_spends time _).one rfl rfl
    cases controlBoard with
    | false => exact ⟨_, rfl, hpulse⟩
    | true =>
      have hboard := hpulse.cons (e := .increment .streamingControlBoardFrames 1) (r := 0) (n := 0)
        rfl rfl
      exact ⟨_, rfl, hboard.mono (by omega) (by omega)⟩

end Frames

section Messages
variable (p : Profile) (chrono : Chrono) (srcIp : IpAddr) (config : EventUdpToKafkaConfig)

theorem messageRun_space {m : List UInt8} (h : Complete udpDelimiter m) :
    (∀ e ∈ (messageRun p chrono srcIp config m).log, spaceWeight e ≤ 0) ∧
      0 ≤ m.length + balance spaceWeight (messageRun p chrono srcIp config m).log := by
  obtain ⟨rest, hlog, hrest⟩ := frameRun_spends p chrono (isControlBoard srcIp config)
    config.rawToUahScalingOrDefault (readMessage m)
  have hrecords := (message_records_le p h).1
  have hspace := hrest.space
  have hheader : spaceWeight (.increment (.incomingUdpHeaders (readMessage m).packetType) 1) = -56 := rfl
  rw [messageRun, hlog]
  refine ⟨List.forall_mem_cons.mpr ⟨by omega, hrest.space_le⟩, ?_⟩
  rw [balance_cons, hheader]
  omega

theorem messageRun_outcome (m : List UInt8) :
    Solvent outcomeWeight 0 (messageRun p chrono srcIp config m).log := by
  obtain ⟨rest, hlog, hrest⟩ := frameRun_spends p chrono (isControlBoard srcIp config)
    config.rawToUahScalingOrDefault (readMessage m)
  have houtcome := hrest.outcome
  rw [messageRun, hlog]
  exact solvent_cons_iff.mpr ⟨Int.le_refl 0, solvent_of_spent hrest.outcome_le (by
    change (0 : ℤ) ≤ 0 + 2 + _
    omega)⟩

variable {ms : List (List UInt8)} (h : ∀ m ∈ ms, Complete udpDelimiter m)
include h

theorem messagesRun_space : Solvent spaceWeight ms.flatten.length (messagesRun p chrono srcIp config ms).log := by
  induction ms with
  | nil => exact solvent_nil (Int.le_refl 0)
  | cons m ms ih =>
    obtain ⟨hm, hms⟩ := List.forall_mem_cons.mp h
    obtain ⟨hout, hspace⟩ := messageRun_space p chrono srcIp config hm
    have hfirst := solvent_of_spent hout hspace
    have htail := ih hms
    rw [List.flatten_cons, List.length_append, messagesRun, Run.each]
    cases ho : (messageRun p chrono srcIp config m).outcome with
    | error s =>
      rw [Run.bind_of_error ho]
      exact hfirst.mono (by omega)
    | ok u =>
      rw [Run.bind_of_ok ho]
      exact (hfirst.mono (by omega)).append (htail.mono (by omega))

end Messages

/-- The events that one message has room for. -/
structure Sized (message : Event44Message) : Prop where
  nonempty : 0 < message.timeOfFlight.length
  sameLength : message.pixelId.length = message.timeOfFlight.length
  bounded : message.timeOfFlight.length ≤ 2039

theorem bodyRun_sized {time : UInt64} {d : Option Decoding} {message : KafkaMessage}
    (h : .sink message ∈ (bodyRun time d).log) : ∃ events, message = .ev44 (event44Message time events) ∧
      recordsOf d = events.len ∧ 0 < events.len := by
  match d with
  | none | some .overflow => cases h
  | some .refused | some (.invalid _) => simp [bodyRun, failed] at h
  | some (.decoded events) =>
    rw [bodyRun] at h
    split at h
    · cases h
    · rename_i hne
      simp only [List.mem_cons, List.not_mem_nil, or_false, reduceCtorEq, false_or] at h
      cases h
      exact ⟨events, rfl, rfl, List.length_pos_iff.mpr fun he => hne (List.isEmpty_iff.mpr he)⟩

theorem messageRun_sized (p : Profile) (chrono : Chrono) (srcIp : IpAddr) (config : EventUdpToKafkaConfig)
    {m : List UInt8} (h : Complete udpDelimiter m) {message : Event44Message}
    (hm : .sink (.ev44 message) ∈ (messageRun p chrono srcIp config m).log) : Sized message := by
  rw [messageRun] at hm
  rcases frameRun_cases p chrono (isControlBoard srcIp config) config.rawToUahScalingOrDefault
    (readMessage m) with ⟨-, hr⟩ | ⟨-, s, -, hr⟩ | ⟨-, -, hr⟩ | ⟨-, time, -, hr⟩ <;> rw [hr] at hm
  · simp [failed] at hm
  · simp at hm
  · simp [failed] at hm
  · have hbody : .sink (.ev44 message) ∈ (bodyRun time (decoding p (readMessage m))).log := by
      rw [← mem_sent, sent_increment, timedRun_sent] at hm
      rcases List.mem_cons.mp hm with he | hm
      · cases he
      · exact mem_sent.mp hm
    obtain ⟨events, he, hrecords, hpos⟩ := bodyRun_sized hbody
    have hroom := (message_records_le p h).2
    have hwords : declaredWords m < 4096 := by
      rw [declaredWords_eq]
      exact Nat.mod_lt _ (by decide)
    have hlen : declaredWords m * 4 = m.length := (complete_iff.mp h).2
    cases he
    refine ⟨hpos, events.sameLength.symm, ?_⟩
    change events.len ≤ 2039
    rw [hrecords] at hroom
    have hspace := hroom hpos
    omega

theorem outgoing_weights {c : Counter} (amount : ℕ) (hc : outgoing c) :
    spaceWeight (.increment c amount) = 0 ∧ outcomeWeight (.increment c amount) = 0 := by
  cases c with
  | outgoingKafkaMessages | outgoingKafkaMessageSize | outgoingKafkaProduceErrors => exact ⟨rfl, rfl⟩
  | _ => cases hc

section Sink
variable (length : KafkaMessage → ℕ) (accepts : ℕ → Bool)

/-- The sink counts in counters of its own. -/
theorem solvent_withSink {w : Effect → ℤ} (hw : ∀ c amount, outgoing c → w (.increment c amount) = 0)
    {log : List Effect} {stock : ℤ} (h : Solvent w stock log) (n : ℕ) :
    Solvent w stock (withSink length accepts n log) := by
  induction log generalizing stock n with
  | nil => exact h
  | cons e log ih =>
    obtain ⟨hstock, hrest⟩ := solvent_cons_iff.mp h
    cases e with
    | increment c amount => exact solvent_cons_iff.mpr ⟨hstock, ih hrest n⟩
    | sink message =>
      have hidle : ∀ e ∈ sinkClosure length message (accepts n), w e = 0 := by
        rw [sinkClosure]
        split
        · exact List.forall_mem_cons.mpr ⟨hw _ _ rfl, List.forall_mem_singleton.mpr (hw _ _ rfl)⟩
        · exact List.forall_mem_singleton.mpr (hw _ _ rfl)
      exact solvent_cons_iff.mpr ⟨hstock, (solvent_idle_append hidle).mpr (ih hrest (n + 1))⟩

/-- Every message gets its own verdict. -/
theorem verdicts_withSink {log : List Effect} (h : ∀ c amount, .increment c amount ∈ log → outgoing c = false)
    (n : ℕ) : Solvent verdictWeight 0 (withSink length accepts n log) := by
  induction log generalizing n with
  | nil => exact solvent_nil (Int.le_refl 0)
  | cons e log ih =>
    have htail (n : ℕ) := ih (fun c amount hm => h c amount (List.mem_cons_of_mem e hm)) n
    cases e with
    | increment c amount =>
      have hzero : verdictWeight (.increment c amount) = 0 := by
        have hc := h c amount List.mem_cons_self
        cases c with
        | outgoingKafkaMessages | outgoingKafkaProduceErrors => cases hc
        | _ => rfl
      exact (solvent_idle_append (List.forall_mem_singleton.mpr hzero)).mpr (htail n)
    | sink message =>
      have hverdict : Solvent verdictWeight 1 (sinkClosure length message (accepts n)) ∧
          balance verdictWeight (sinkClosure length message (accepts n)) = -1 := by
        rw [sinkClosure]
        split
        · exact ⟨solvent_of_spent (by simp [verdictWeight]) (Int.le_refl 0), rfl⟩
        · exact ⟨solvent_of_spent (by simp [verdictWeight]) (Int.le_refl 0), rfl⟩
      obtain ⟨hsolvent, hbalance⟩ := hverdict
      refine solvent_cons_iff.mpr ⟨Int.le_refl 0, hsolvent.append ?_⟩
      rw [hbalance]
      exact htail (n + 1)

end Sink

section Service
variable (p : Profile) (chrono : Chrono) (length : KafkaMessage → ℕ) (config : EventUdpToKafkaConfig)

section Datagram
variable (srcIp : IpAddr) {u : List UInt8} (hu : u.length ≤ isizeMax)
include hu

theorem datagram_space : Solvent spaceWeight 0 (processUdpBytesToKafka p chrono u srcIp config).log := by
  have hs := messages_splits (d := udpDelimiter) u
  obtain ⟨hcut, hms, -⟩ := splits_iff.mp hs
  have hlen := congrArg List.length hcut
  rw [List.length_append] at hlen
  have hidle : ∀ e ∈ stopLog (remainder udpDelimiter u), spaceWeight e = 0 := by
    unfold stopLog
    split <;> simp [spaceWeight]
  have hmessages := messagesRun_space p chrono srcIp config hms
  rw [processUdpBytesToKafka_eq p chrono srcIp config hs (.inl hu)]
  refine solvent_cons_iff.mpr ⟨Int.le_refl 0, solvent_cons_iff.mpr ⟨Int.le_refl 0, ?_⟩⟩
  refine (solvent_idle_append hidle).mpr (hmessages.mono ?_)
  change _ ≤ (0 : ℤ) + 0 + u.length
  omega

theorem datagram_outcome : Solvent outcomeWeight 0 (processUdpBytesToKafka p chrono u srcIp config).log := by
  have hidle : ∀ e ∈ receivedLog u ++ stopLog (remainder udpDelimiter u), outcomeWeight e = 0 := by
    unfold receivedLog stopLog
    split <;> simp [outcomeWeight]
  rw [processUdpBytesToKafka_eq p chrono srcIp config (messages_splits u) (.inl hu), ← List.append_assoc]
  exact (solvent_idle_append hidle).mpr
    (solvent_each fun m _ => messageRun_outcome p chrono srcIp config m)

theorem datagram_outgoing {c : Counter} {amount : ℕ}
    (h : .increment c amount ∈ (processUdpBytesToKafka p chrono u srcIp config).log) :
    outgoing c = false := by
  rw [processUdpBytesToKafka_eq p chrono srcIp config (messages_splits u) (.inl hu), receivedLog,
    stopLog] at h
  rcases List.mem_append.mp h with h | h
  · simp only [List.mem_cons, List.not_mem_nil, or_false, Effect.increment.injEq] at h
    rcases h with ⟨rfl, -⟩ | ⟨rfl, -⟩ <;> rfl
  · rcases List.mem_append.mp h with h | h
    · split at h
      · cases List.mem_singleton.mp h
        rfl
      · cases List.mem_singleton.mp h
        rfl
      · cases h
    · obtain ⟨m, -, hm⟩ := Run.exists_mem_of_mem_each _ h
      have hc := frameRun_ofFrames hm
      cases c with
      | outgoingKafkaMessages | outgoingKafkaMessageSize | outgoingKafkaProduceErrors => cases hc
      | _ => rfl

end Datagram

theorem udpProcess_solvent {w : Effect → ℤ} (herror : w (.increment .incomingUdpPacketErrors 1) = 0)
    (h : ∀ {u}, u.length ≤ isizeMax → ∀ srcIp accepts,
      Solvent w 0 (withSink length accepts 0 (processUdpBytesToKafka p chrono u srcIp config).log))
    (results : List Received) : Solvent w 0 (udpProcess p chrono length config results).log := by
  rw [udpProcess, assert]
  split
  · rename_i hbuffer
    refine solvent_each fun result _ => ?_
    cases result with
    | datagram bytes srcIp accepts => exact h ((received_length_le bytes).trans hbuffer) srcIp accepts
    | error =>
      exact (solvent_idle_append (List.forall_mem_singleton.mpr herror)).mpr (solvent_nil (Int.le_refl 0))
  · exact solvent_nil (Int.le_refl 0)

theorem udpProcess_space (results : List Received) :
    Solvent spaceWeight 0 (udpProcess p chrono length config results).log :=
  udpProcess_solvent p chrono length config rfl (fun hu srcIp accepts =>
    solvent_withSink length accepts (fun _ amount hc => (outgoing_weights amount hc).1)
      (datagram_space p chrono config srcIp hu) 0) results

theorem udpProcess_outcome (results : List Received) :
    Solvent outcomeWeight 0 (udpProcess p chrono length config results).log :=
  udpProcess_solvent p chrono length config rfl (fun hu srcIp accepts =>
    solvent_withSink length accepts (fun _ amount hc => (outgoing_weights amount hc).2)
      (datagram_outcome p chrono config srcIp hu) 0) results

theorem udpProcess_verdict (results : List Received) :
    Solvent verdictWeight 0 (udpProcess p chrono length config results).log :=
  udpProcess_solvent p chrono length config rfl (fun hu srcIp accepts =>
    verdicts_withSink length accepts (fun _ _ => datagram_outgoing p chrono config srcIp hu) 0) results

theorem carried_complete {result : Received} {x : IpAddr × List UInt8} (h : x ∈ carried config result) :
    Complete udpDelimiter x.2 := by
  obtain ⟨bytes, accepts, -, hm⟩ := exists_of_mem_carried config h
  exact (splits_iff.mp (messages_splits (d := udpDelimiter) _)).2.1 x.2 hm

theorem udpProcess_sized (results : List Received) {message : Event44Message}
    (h : .ev44 message ∈ sent (udpProcess p chrono length config results).log) : Sized message := by
  by_cases hbuffer : config.udpBufferSizeOrDefault ≤ isizeMax
  · rw [sent_carriedRun p chrono length config results hbuffer] at h
    obtain ⟨x, hx, hm⟩ := Run.exists_mem_of_mem_each _ (mem_sent.mp h)
    obtain ⟨result, -, hr⟩ := List.mem_flatMap.mp hx
    exact messageRun_sized p chrono x.1 config (carried_complete config hr) hm
  · rw [udpProcess_of_no_buffer p chrono length config results hbuffer] at h
    cases h

/-- The accounts of a log. -/
structure Bounded (log : List Effect) : Prop where
  room : 56 * totalOver .incomingUdpHeaders log +
    8 * (total .neutronEvents log + total .invalidNeutronEvents log) ≤ total .incomingUdpPacketSize log
  outcomes : (sent log).length + totalOver .processingErrors log ≤ 2 * totalOver .incomingUdpHeaders log
  verdicts : total .outgoingKafkaMessages log + total .outgoingKafkaProduceErrors log ≤ (sent log).length
  sizes : ∀ message, .ev44 message ∈ sent log → Sized message

/-- At every moment of every run, and whether or not it ends in a panic. A frame has taken 56 bytes
    and a record eight of those received; no frame has led to more than two messages and errors; and
    no message has two verdicts or more than 2039 events. -/
theorem udpProcess_bounds (results : List Received) {seen : List Effect}
    (h : seen <+: (udpProcess p chrono length config results).log) : Bounded seen := by
  have hroom := udpProcess_space p chrono length config results seen h
  have houtcomes := udpProcess_outcome p chrono length config results seen h
  have hverdicts := udpProcess_verdict p chrono length config results seen h
  rw [space_balance] at hroom
  rw [outcome_balance] at houtcomes
  rw [verdict_balance] at hverdicts
  refine ⟨by omega, by omega, by omega, fun message hm => ?_⟩
  exact udpProcess_sized p chrono length config results ((h.sublist.filterMap _).subset hm)

end Service

/-- Up to the pulse message of the second frame. -/
theorem udpProcess_bounds_fake : Bounded
    ((udpProcess .release gregorianChrono (fun _ => 100) .makeTestingConfig oneDatagram).log.take 12) :=
  udpProcess_bounds .release gregorianChrono (fun _ => 100) .makeTestingConfig oneDatagram
    (List.take_prefix 12 _)

end EventUdpToKafka.OutputBounds
