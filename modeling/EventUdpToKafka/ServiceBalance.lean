import EventUdpToKafka.GpsInstants
import EventUdpToKafka.MetricsBalance
import EventUdpToKafka.Testing
import EventUdpToKafka.UdpProcess

set_option autoImplicit false

/-!
# The counters over a run of the service

The balances of the frames hold over a run. Datagrams, read errors, stops of the
framing loop and the producer's verdicts are each counted once as well.
-/
namespace EventUdpToKafka.ServiceBalance
open LoggedRun MachineWords GpsClock Config UdpMessage Metrics EventDecoding EventArithmetic
open DataProcessing SelfDelimiting MessageReading FrameProcessing PacketFraming DatagramRuns
open UdpProcess MetricsBalance GpsInstants Testing

section Sink
variable (payloadLength : KafkaMessage → ℕ)

def sinkLog (attempts : List (KafkaMessage × Bool)) : List Effect :=
  attempts.flatMap fun a => sinkClosure payloadLength a.1 a.2

/-- The messages of a log with the verdicts on them, from message `n` on. -/
def attemptsOf (accepts : ℕ → Bool) (n : ℕ) (messages : List KafkaMessage) :
    List (KafkaMessage × Bool) :=
  (messages.zipIdx n).map fun x => (x.1, accepts x.2)

theorem sent_sinkClosure (message : KafkaMessage) (accepted : Bool) :
    sent (sinkClosure payloadLength message accepted) = [] := by
  cases accepted <;> rfl

theorem sent_withSink (accepts : ℕ → Bool) (n : ℕ) (log : List Effect) :
    sent (withSink payloadLength accepts n log) = sent log := by
  induction log generalizing n with
  | nil => rfl
  | cons e log ih =>
    cases e with
    | increment c amount => exact ih n
    | sink message =>
      rw [withSink, sent_sink, sent_append, sent_sinkClosure, List.nil_append, ih, sent_sink]

theorem total_withSink (accepts : ℕ → Bool) (n : ℕ) (log : List Effect) (c : Counter) :
    total c (withSink payloadLength accepts n log) =
      total c log + total c (sinkLog payloadLength (attemptsOf accepts n (sent log))) := by
  induction log generalizing n with
  | nil => rfl
  | cons e log ih =>
    cases e with
    | increment c' amount =>
      rw [withSink, total_cons, ih, sent_increment, total_cons, Nat.add_assoc]
    | sink message =>
      rw [withSink, total_cons, total_append, ih, sent_sink, total_cons]
      simp only [attemptsOf, sinkLog, List.zipIdx_cons, List.map_cons, List.flatMap_cons,
        total_append]
      omega

theorem sinkLog_messages (attempts : List (KafkaMessage × Bool)) :
    total .outgoingKafkaMessages (sinkLog payloadLength attempts) = attempts.countP (·.2) := by
  induction attempts with
  | nil => rfl
  | cons a attempts ih =>
    obtain ⟨message, _ | _⟩ := a <;>
      simp_all [sinkLog, sinkClosure, Effect.amountOf, Nat.add_comm]

theorem sinkLog_errors (attempts : List (KafkaMessage × Bool)) :
    total .outgoingKafkaProduceErrors (sinkLog payloadLength attempts) =
      attempts.countP (fun a => ! a.2) := by
  induction attempts with
  | nil => rfl
  | cons a attempts ih =>
    obtain ⟨message, _ | _⟩ := a <;>
      simp_all [sinkLog, sinkClosure, Effect.amountOf, Nat.add_comm]

theorem sinkLog_size (attempts : List (KafkaMessage × Bool)) :
    total .outgoingKafkaMessageSize (sinkLog payloadLength attempts) =
      ((attempts.filter (·.2)).map fun a => payloadLength a.1).sum := by
  induction attempts with
  | nil => rfl
  | cons a attempts ih =>
    obtain ⟨message, _ | _⟩ := a <;>
      simp_all [sinkLog, sinkClosure, Effect.amountOf]

end Sink

section Service
variable (p : Profile) (chrono : Chrono) (payloadLength : KafkaMessage → ℕ)
  (config : EventUdpToKafkaConfig)

def isDatagram : Received → Bool
  | .datagram _ _ _ => true
  | .error => false

def bytesRead : Received → ℕ
  | .datagram bytes _ _ => (received config bytes).length
  | .error => 0

def framesOf : Received → List UdpMessageView
  | .datagram bytes _ _ =>
    match (packetToFrames (received config bytes)).outcome with
    | .ok frames => frames
    | .error _ => []
  | .error => []

def rejection (t : List UInt8) : Option InvalidMessageReason :=
  match newView t with
  | .ok (.error reason) => some reason
  | _ => none

/-- What the remainder behind the last frame is rejected for. -/
def stopReason : Received → Option InvalidMessageReason
  | .datagram bytes _ _ => rejection (remainder udpDelimiter (received config bytes))
  | .error => none

def isTooShort : Option InvalidMessageReason → Bool
  | some (.declaredLengthTooShort _) => true
  | _ => false

def isTooLong : Option InvalidMessageReason → Bool
  | some (.declaredLengthTooLong _) => true
  | _ => false

/-- The messages handed to the sink with the producer's verdicts. -/
def attempts : Received → List (KafkaMessage × Bool)
  | .datagram bytes srcIp accepts => attemptsOf accepts 0
      (sent (processUdpBytesToKafka p chrono (received config bytes) srcIp config).log)
  | .error => []

/-- The balances between a log and the results of reading that it comes from. -/
structure Balanced (results : List Received) (log : List Effect) : Prop where
  packets : total .incomingUdpPackets log = results.countP isDatagram
  packetSizes : total .incomingUdpPacketSize log = (results.map (bytesRead config)).sum
  readErrors : total .incomingUdpPacketErrors log = results.countP (fun r => ! isDatagram r)
  tooShort : total .incomingUdpInvalidHeaderDeclaredLengthTooShort log =
    results.countP fun r => isTooShort (stopReason config r)
  tooLong : total .incomingUdpInvalidHeaderDeclaredLengthTooLong log =
    results.countP fun r => isTooLong (stopReason config r)
  frames : Accounts (frameTraits p chrono) (results.flatMap (framesOf config)) log
  silent : ∀ frame ∈ results.flatMap (framesOf config), frame.packetType ≠ .ok .neutronData →
    ∀ srcIp, sent (processFrame p chrono srcIp config frame).log = []
  handed : sent log = (results.flatMap (attempts p chrono config)).map Prod.fst
  delivered : total .outgoingKafkaMessages log =
    (results.flatMap (attempts p chrono config)).countP (·.2)
  undelivered : total .outgoingKafkaProduceErrors log =
    (results.flatMap (attempts p chrono config)).countP (fun a => ! a.2)
  payloads : total .outgoingKafkaMessageSize log =
    (((results.flatMap (attempts p chrono config)).filter (·.2)).map fun a => payloadLength a.1).sum

variable {p chrono payloadLength config}

theorem Balanced.nil : Balanced p chrono payloadLength config [] [] :=
  ⟨rfl, rfl, rfl, rfl, rfl, .nil, fun _ h => absurd h List.not_mem_nil, rfl, rfl, rfl, rfl⟩

theorem Balanced.append {results results' : List Received} {log log' : List Effect}
    (h : Balanced p chrono payloadLength config results log)
    (h' : Balanced p chrono payloadLength config results' log') :
    Balanced p chrono payloadLength config (results ++ results') (log ++ log') where
  packets := by rw [total_append, h.packets, h'.packets, List.countP_append]
  packetSizes := by
    rw [total_append, h.packetSizes, h'.packetSizes, List.map_append, List.sum_append]
  readErrors := by rw [total_append, h.readErrors, h'.readErrors, List.countP_append]
  tooShort := by rw [total_append, h.tooShort, h'.tooShort, List.countP_append]
  tooLong := by rw [total_append, h.tooLong, h'.tooLong, List.countP_append]
  frames := by
    rw [List.flatMap_append]
    exact h.frames.append h'.frames
  silent frame hm := by
    rw [List.flatMap_append] at hm
    exact (List.mem_append.mp hm).elim (h.silent frame) (h'.silent frame)
  handed := by rw [sent_append, h.handed, h'.handed, List.flatMap_append, List.map_append]
  delivered := by
    rw [total_append, h.delivered, h'.delivered, List.flatMap_append, List.countP_append]
  undelivered := by
    rw [total_append, h.undelivered, h'.undelivered, List.flatMap_append, List.countP_append]
  payloads := by
    rw [total_append, h.payloads, h'.payloads, List.flatMap_append, List.filter_append,
      List.map_append, List.sum_append]

theorem Balanced.flatMap {f : Received → List Effect} {results : List Received}
    (h : ∀ r ∈ results, Balanced p chrono payloadLength config [r] (f r)) :
    Balanced p chrono payloadLength config results (results.flatMap f) := by
  induction results with
  | nil => exact .nil
  | cons r results ih =>
    obtain ⟨hr, hresults⟩ := List.forall_mem_cons.mp h
    exact hr.append (ih hresults)

theorem processFrame_silent {frame : UdpMessageView} (h : frame.packetType ≠ .ok .neutronData)
    (srcIp : IpAddr) : sent (processFrame p chrono srcIp config frame).log = [] := by
  rw [processFrame]
  cases ht : frame.packetType with
  | error s => rfl
  | ok type =>
    cases type with
    | neutronData => exact absurd ht h
    | vetoFrame | sampleEnvironment | endOfRun | invalid => rfl

theorem viewsOf_readings {ms : List (List UInt8)} (h : ∀ m ∈ ms, Complete udpDelimiter m)
    (t : List UInt8) : (viewsOf ms t).map (fun view => readMessage view.content) =
      ms.map readMessage := by
  induction ms with
  | nil => rfl
  | cons m ms ih =>
    obtain ⟨hm, hms⟩ := List.forall_mem_cons.mp h
    rw [viewsOf, List.map_cons, List.map_cons, readMessage_append hm, ih hms]

theorem datagram_accounts {u t : List UInt8} {ms : List (List UInt8)}
    (h : Splits udpDelimiter u ms t) (hlen : u.length ≤ isizeMax) (srcIp : IpAddr)
    (hr : ∀ m ∈ ms, (messageRun p chrono srcIp config m).Returns) :
    Accounts (frameTraits p chrono) (viewsOf ms t) (messagesRun p chrono srcIp config ms).log := by
  obtain ⟨rfl, hms, -⟩ := splits_iff.mp h
  have hreadings : Accounts (readingTraits p chrono)
      ((viewsOf ms t).map fun view => readMessage view.content)
      (messagesRun p chrono srcIp config ms).log := by
    rw [viewsOf_readings hms, messagesRun_of_returns p chrono srcIp config hr]
    exact accounts_flatMap fun m hm => frameRun_accounts _ _ (hr m hm)
  refine hreadings.map _ fun view hv => ?_
  obtain ⟨ha, hle⟩ := viewsOf_accepted hms t hv
  exact ⟨untimed_eq p chrono ha, eventless_eq p chrono ha, rejected_eq p chrono ha (hle.trans hlen)⟩

theorem accounts_congr {φ : Type} {traits : Traits φ} {frames : List φ} {log log' : List Effect}
    (ht : ∀ c, ofFrames c → total c log' = total c log) (hs : sent log' = sent log)
    (h : Accounts traits frames log) : Accounts traits frames log' where
  headers := by
    have hh := h.headers
    simp only [packetTypes, List.map_cons, List.map_nil, List.sum_cons, List.sum_nil] at hh ⊢
    rw [ht _ rfl, ht _ rfl, ht _ rfl, ht _ rfl, ht _ rfl, hh]
  others type hne := by rw [ht _ rfl, ht _ rfl, h.others type hne]
  pulses := by rw [ht _ rfl, hs, h.pulses]
  events := by rw [ht _ rfl, ht _ rfl, hs, h.events]
  tofs := by rw [ht _ rfl, hs, h.tofs]
  pixels := by rw [ht _ rfl, hs, h.pixels]
  periods := by rw [ht _ rfl, hs, h.periods]
  charges := by rw [ht _ rfl, hs, h.charges]
  rejected := by rw [ht _ rfl, h.rejected]

def outgoing : Counter → Bool
  | .outgoingKafkaMessages | .outgoingKafkaMessageSize | .outgoingKafkaProduceErrors => true
  | _ => false

theorem sinkLog_total {c : Counter} (hc : outgoing c = false)
    (attempts : List (KafkaMessage × Bool)) : total c (sinkLog payloadLength attempts) = 0 := by
  apply total_eq_zero
  intro amount h
  obtain ⟨a, -, ha⟩ := List.mem_flatMap.mp h
  unfold sinkClosure at ha
  split at ha
  · simp at ha
    rcases ha with ⟨rfl, -⟩ | ⟨rfl, -⟩ <;> cases hc
  · simp at ha
    rw [ha.1] at hc
    cases hc

theorem attemptsOf_fst (accepts : ℕ → Bool) (n : ℕ) (messages : List KafkaMessage) :
    (attemptsOf accepts n messages).map Prod.fst = messages := by
  rw [attemptsOf, List.map_map]
  exact List.zipIdx_map_fst n messages

theorem stopLog_total {c : Counter} (hs : c ≠ .incomingUdpInvalidHeaderDeclaredLengthTooShort)
    (hl : c ≠ .incomingUdpInvalidHeaderDeclaredLengthTooLong) (t : List UInt8) :
    total c (stopLog t) = 0 := by
  unfold stopLog
  split
  · simp [Effect.amountOf, hs.symm]
  · simp [Effect.amountOf, hl.symm]
  · rfl

theorem stopLog_tooShort (t : List UInt8) :
    total .incomingUdpInvalidHeaderDeclaredLengthTooShort (stopLog t) =
      if isTooShort (rejection t) then 1 else 0 := by
  rw [rejection, newView_eq, stopLog]
  cases classify t with
  | ok view => rfl
  | error reason => cases reason <;> rfl

theorem stopLog_tooLong (t : List UInt8) :
    total .incomingUdpInvalidHeaderDeclaredLengthTooLong (stopLog t) =
      if isTooLong (rejection t) then 1 else 0 := by
  rw [rejection, newView_eq, stopLog]
  cases classify t with
  | ok view => rfl
  | error reason => cases reason <;> rfl

section Datagram
variable {bytes : List UInt8} {srcIp : IpAddr} {accepts : ℕ → Bool}
  (hlen : (received config bytes).length ≤ isizeMax)
include hlen

/-- A counter of a datagram counts in the datagram, its remainder, its frames or the sink. -/
theorem datagram_total (c : Counter) :
    total c (readSocket p chrono payloadLength config (.datagram bytes srcIp accepts)).log =
      total c (receivedLog (received config bytes)) +
        (total c (stopLog (remainder udpDelimiter (received config bytes))) +
          total c (messagesRun p chrono srcIp config
            (messages udpDelimiter (received config bytes))).log) +
        total c (sinkLog payloadLength (attempts p chrono config (.datagram bytes srcIp accepts))) := by
  have heq := processUdpBytesToKafka_eq p chrono srcIp config
    (messages_splits (received config bytes)) (.inl hlen)
  rw [readSocket, total_withSink, attempts, heq, total_append, total_append]

theorem socket_total {c : Counter} (hf : ofFrames c = false) (ho : outgoing c = false) :
    total c (readSocket p chrono payloadLength config (.datagram bytes srcIp accepts)).log =
      total c (receivedLog (received config bytes)) +
        total c (stopLog (remainder udpDelimiter (received config bytes))) := by
  rw [datagram_total hlen, messagesRun_total _ hf, sinkLog_total ho, Nat.add_zero, Nat.add_zero]

theorem frames_total {c : Counter} (hf : ofFrames c) :
    total c (readSocket p chrono payloadLength config (.datagram bytes srcIp accepts)).log =
      total c (messagesRun p chrono srcIp config
        (messages udpDelimiter (received config bytes))).log := by
  have hstart : total c (receivedLog (received config bytes)) = 0 := by
    cases c <;> first | rfl | cases hf
  have hstop : total c (stopLog (remainder udpDelimiter (received config bytes))) = 0 :=
    stopLog_total (by rintro rfl; cases hf) (by rintro rfl; cases hf) _
  have hsink : outgoing c = false := by cases c <;> first | rfl | cases hf
  rw [datagram_total hlen, hstart, hstop, sinkLog_total hsink, Nat.zero_add, Nat.zero_add,
    Nat.add_zero]

theorem sink_total {c : Counter} (ho : outgoing c) :
    total c (readSocket p chrono payloadLength config (.datagram bytes srcIp accepts)).log =
      total c (sinkLog payloadLength (attempts p chrono config (.datagram bytes srcIp accepts))) := by
  have hstart : total c (receivedLog (received config bytes)) = 0 := by
    cases c <;> first | rfl | cases ho
  have hstop : total c (stopLog (remainder udpDelimiter (received config bytes))) = 0 :=
    stopLog_total (by rintro rfl; cases ho) (by rintro rfl; cases ho) _
  have hframes : ofFrames c = false := by cases c <;> first | rfl | cases ho
  rw [datagram_total hlen, hstart, hstop, messagesRun_total _ hframes, Nat.zero_add]

theorem readSocket_datagram
    (hr : (readSocket p chrono payloadLength config (.datagram bytes srcIp accepts)).Returns) :
    Balanced p chrono payloadLength config [.datagram bytes srcIp accepts]
      (readSocket p chrono payloadLength config (.datagram bytes srcIp accepts)).log := by
  have hsplit := messages_splits (d := udpDelimiter) (received config bytes)
  have hreturns := (datagram_returns_iff p chrono srcIp config hsplit (.inl hlen)).mp hr
  have hsent := datagram_sent p chrono srcIp config hsplit (.inl hlen)
  have hhanded :
      sent (readSocket p chrono payloadLength config (.datagram bytes srcIp accepts)).log =
        sent (processUdpBytesToKafka p chrono (received config bytes) srcIp config).log := by
    rw [readSocket, sent_withSink]
  have hview : framesOf config (.datagram bytes srcIp accepts) =
      viewsOf (messages udpDelimiter (received config bytes))
        (remainder udpDelimiter (received config bytes)) := by
    rw [framesOf, packetToFrames_eq hsplit]
  refine ⟨?_, ?_, ?_, ?_, ?_, ?_, ?_, ?_, ?_, ?_, ?_⟩
  · rw [socket_total hlen rfl rfl, stopLog_total (by decide) (by decide)]
    rfl
  · rw [socket_total hlen rfl rfl, stopLog_total (by decide) (by decide)]
    simp [receivedLog, Effect.amountOf, bytesRead]
  · rw [socket_total hlen rfl rfl, stopLog_total (by decide) (by decide)]
    rfl
  · rw [socket_total hlen rfl rfl, stopLog_tooShort, List.countP_singleton]
    exact Nat.zero_add _
  · rw [socket_total hlen rfl rfl, stopLog_tooLong, List.countP_singleton]
    exact Nat.zero_add _
  · rw [List.flatMap_singleton, hview]
    exact accounts_congr (fun c hf => frames_total hlen hf) (hhanded.trans hsent)
      (datagram_accounts hsplit hlen srcIp hreturns)
  · intro frame _
    exact processFrame_silent
  · rw [List.flatMap_singleton, attempts, attemptsOf_fst, hhanded]
  · rw [sink_total hlen rfl, sinkLog_messages, List.flatMap_singleton]
  · rw [sink_total hlen rfl, sinkLog_errors, List.flatMap_singleton]
  · rw [sink_total hlen rfl, sinkLog_size, List.flatMap_singleton]

end Datagram

theorem readSocket_error :
    Balanced p chrono payloadLength config [.error]
      (readSocket p chrono payloadLength config .error).log :=
  ⟨rfl, rfl, rfl, rfl, rfl, ⟨rfl, fun _ _ => rfl, rfl, rfl, rfl, rfl, rfl, rfl, rfl⟩,
    fun _ h => absurd h List.not_mem_nil, rfl, rfl, rfl, rfl⟩

theorem received_length_le (bytes : List UInt8) :
    (received config bytes).length ≤ config.udpBufferSizeOrDefault := List.length_take_le _ _

theorem readSocket_balanced (hbuffer : config.udpBufferSizeOrDefault ≤ isizeMax) (result : Received)
    (hr : (readSocket p chrono payloadLength config result).Returns) :
    Balanced p chrono payloadLength config [result]
      (readSocket p chrono payloadLength config result).log := by
  cases result with
  | datagram bytes srcIp accepts =>
    exact readSocket_datagram ((received_length_le bytes).trans hbuffer) hr
  | error => exact readSocket_error

/-- The balances hold after every run without a panic. -/
theorem udpProcess_balanced {results : List Received}
    (h : (udpProcess p chrono payloadLength config results).Returns) :
    Balanced p chrono payloadLength config results
      (udpProcess p chrono payloadLength config results).log := by
  unfold udpProcess at h ⊢
  by_cases hbuffer : config.udpBufferSizeOrDefault ≤ isizeMax
  · rw [assert, if_pos hbuffer, Run.lift_ok_bind] at h ⊢
    have hr := (Run.each_returns_iff _ results).mp h
    rw [Run.each_of_returns _ hr]
    exact .flatMap fun result hm => readSocket_balanced hbuffer result (hr result hm)
  · rw [assert, if_neg hbuffer] at h
    obtain ⟨_, he⟩ := h
    cases he

end Service

def fakeResults : List Received :=
  [.datagram (makeUdpPacket packetFormat1 2 34) (.v4 0x7F000001) (· % 2 = 0), .error,
    .datagram [0, 0] (.v4 0) fun _ => true]

theorem udpProcess_balanced_fake :
    Balanced .release gregorianChrono (fun _ => 100) .makeTestingConfig fakeResults
      (udpProcess .release gregorianChrono (fun _ => 100) .makeTestingConfig fakeResults).log ∧
    ((fakeResults.flatMap (attempts .release gregorianChrono .makeTestingConfig)).map Prod.snd =
      [true, false]) :=
  ⟨udpProcess_balanced ⟨(), by decide +kernel⟩, by decide +kernel⟩

end EventUdpToKafka.ServiceBalance
