import EventUdpToKafka.DatagramRuns

set_option autoImplicit false

/-!
# The balance of the counters

Every counter increment of a frame is on one side of a balance with the frame's
output or with a count of frames, and the balances add up over a run.
-/
namespace EventUdpToKafka.MetricsBalance
open LoggedRun MachineWords GpsClock Config UdpMessage Metrics EventDecoding EventArithmetic
open DataProcessing SelfDelimiting MessageReading FrameProcessing PacketFraming DatagramRuns

def packetTypes : List UdpPacketType :=
  [.vetoFrame, .sampleEnvironment, .neutronData, .endOfRun, .invalid]

def isPulse : KafkaMessage → Bool
  | .pu00 _ => true
  | .ev44 _ => false

def hasPeriod : KafkaMessage → Bool
  | .pu00 m => m.periodNumber.isSome
  | .ev44 _ => false

def hasCharge : KafkaMessage → Bool
  | .pu00 m => m.protonCharge.isSome
  | .ev44 _ => false

@[simp] theorem isPulse_pu00 (m : Pu00Message) : isPulse (.pu00 m) = true := rfl

def tofCount : KafkaMessage → ℕ
  | .pu00 _ => 0
  | .ev44 m => m.timeOfFlight.length

def pixelCount : KafkaMessage → ℕ
  | .pu00 _ => 0
  | .ev44 m => m.pixelId.length

structure Traits (φ : Type) where
  /-- A neutron frame with an invalid timestamp. -/
  untimed : φ → Bool
  /-- A neutron frame with a valid timestamp and no data. -/
  eventless : φ → Bool
  /-- The records that make the decoder reject the frame's data. -/
  rejected : φ → ℕ

/-- The balances between a log and the frames that it comes from. -/
structure Accounts {φ : Type} (traits : Traits φ) (frames : List φ) (log : List Effect) : Prop where
  headers : (packetTypes.map fun type => total (.incomingUdpHeaders type) log).sum = frames.length
  others : ∀ type ≠ .neutronData,
    total (.processingErrors type) log = total (.incomingUdpHeaders type) log
  pulses : total (.incomingUdpHeaders .neutronData) log =
    (sent log).countP isPulse + frames.countP traits.untimed
  events : total (.incomingUdpHeaders .neutronData) log =
    total (.processingErrors .neutronData) log + (sent log).countP (fun m => ! isPulse m) +
      frames.countP traits.eventless
  tofs : total .neutronEvents log = ((sent log).map tofCount).sum
  pixels : total .neutronEvents log = ((sent log).map pixelCount).sum
  periods : total .streamingControlBoardFrames log = (sent log).countP hasPeriod
  charges : total .streamingControlBoardFrames log = (sent log).countP hasCharge
  rejected : total .invalidNeutronEvents log = (frames.map traits.rejected).sum

section Accounts
variable {φ : Type} {traits : Traits φ}

theorem Accounts.nil : Accounts traits [] [] :=
  ⟨rfl, fun _ _ => rfl, rfl, rfl, rfl, rfl, rfl, rfl, rfl⟩

theorem Accounts.append {frames frames' : List φ} {log log' : List Effect}
    (h : Accounts traits frames log) (h' : Accounts traits frames' log') :
    Accounts traits (frames ++ frames') (log ++ log') where
  headers := by
    have hh := h.headers
    have hh' := h'.headers
    simp only [packetTypes, List.map_cons, List.map_nil, List.sum_cons, List.sum_nil, total_append,
      List.length_append] at hh hh' ⊢
    omega
  others type ht := by rw [total_append, total_append, h.others type ht, h'.others type ht]
  pulses := by
    rw [total_append, h.pulses, h'.pulses, sent_append, List.countP_append, List.countP_append]
    omega
  events := by
    rw [total_append, h.events, h'.events, total_append, sent_append, List.countP_append,
      List.countP_append]
    omega
  tofs := by rw [total_append, h.tofs, h'.tofs, sent_append, List.map_append, List.sum_append]
  pixels := by rw [total_append, h.pixels, h'.pixels, sent_append, List.map_append, List.sum_append]
  periods := by rw [total_append, h.periods, h'.periods, sent_append, List.countP_append]
  charges := by rw [total_append, h.charges, h'.charges, sent_append, List.countP_append]
  rejected := by
    rw [total_append, h.rejected, h'.rejected, List.map_append, List.sum_append]

theorem Accounts.map {ψ : Type} {traits' : Traits ψ} {frames : List ψ} {log : List Effect} (f : ψ → φ)
    (h : ∀ frame ∈ frames, traits.untimed (f frame) = traits'.untimed frame ∧
      traits.eventless (f frame) = traits'.eventless frame ∧
      traits.rejected (f frame) = traits'.rejected frame)
    (ha : Accounts traits (frames.map f) log) : Accounts traits' frames log := by
  have huntimed : (frames.map f).countP traits.untimed = frames.countP traits'.untimed := by
    rw [List.countP_map]
    exact List.countP_congr fun frame hm => by rw [← (h frame hm).1]; rfl
  have heventless : (frames.map f).countP traits.eventless = frames.countP traits'.eventless := by
    rw [List.countP_map]
    exact List.countP_congr fun frame hm => by rw [← (h frame hm).2.1]; rfl
  have hrejected : (frames.map f).map traits.rejected = frames.map traits'.rejected := by
    rw [List.map_map]
    exact List.map_congr_left fun frame hm => (h frame hm).2.2
  exact ⟨by rw [ha.headers, List.length_map], ha.others, by rw [ha.pulses, huntimed],
    by rw [ha.events, heventless], ha.tofs, ha.pixels, ha.periods, ha.charges,
    by rw [ha.rejected, hrejected]⟩

end Accounts

section Frames
variable (p : Profile) (chrono : Chrono)

def untimed (r : Reading) : Bool :=
  match r.packetType, r.gpsTime.nanosecondsSinceEpoch p chrono with
  | .neutronData, .ok none => true
  | _, _ => false

def eventless (r : Reading) : Bool :=
  match r.packetType, r.gpsTime.nanosecondsSinceEpoch p chrono, r.body with
  | .neutronData, .ok (some _), some (_, []) => true
  | _, _, _ => false

def rejected (r : Reading) : ℕ :=
  match r.packetType, r.gpsTime.nanosecondsSinceEpoch p chrono, r.body with
  | .neutronData, .ok (some _), some (board, data) =>
    rejectedRecords r.formatCode board data r.frameSyncDelayUs
  | _, _, _ => 0

@[simps] def readingTraits : Traits Reading := ⟨untimed p chrono, eventless p chrono, rejected p chrono⟩

def timestampOf (frame : UdpMessageView) : Checked (Option UInt64) := do
  let gpsTime ← frame.gpsTime
  gpsTime.nanosecondsSinceEpoch p chrono

def untimedFrame (frame : UdpMessageView) : Bool :=
  match frame.packetType, timestampOf p chrono frame with
  | .ok .neutronData, .ok none => true
  | _, _ => false

def eventlessFrame (frame : UdpMessageView) : Bool :=
  match frame.packetType, timestampOf p chrono frame, frame.dataBytes with
  | .ok .neutronData, .ok (some _), .ok [] => true
  | _, _, _ => false

/-- The records without a marker in the data, if they are looked at. -/
def rejectedData (frame : UdpMessageView) : Checked ℕ := do
  let formatCode ← frame.packetFormatCode
  let bytes ← frame.boardSpecificParameters p
  let data ← frame.dataBytes
  let delayUs ← frame.frameSyncDelayUs
  return rejectedRecords formatCode (boardParameters bytes) data delayUs

def rejectedInFrame (frame : UdpMessageView) : ℕ :=
  match frame.packetType, timestampOf p chrono frame, rejectedData p frame with
  | .ok .neutronData, .ok (some _), .ok count => count
  | _, _, _ => 0

def frameTraits : Traits UdpMessageView :=
  ⟨untimedFrame p chrono, eventlessFrame p chrono, rejectedInFrame p chrono⟩

section Accepted
variable {content : List UInt8} (h : Accepted content)
include h

theorem timestampOf_eq : timestampOf p chrono ⟨content⟩ =
    (readMessage content).gpsTime.nanosecondsSinceEpoch p chrono := by
  rw [timestampOf, gpsTime_eq h.long]
  rfl

theorem untimed_eq :
    untimed p chrono (readMessage content) = untimedFrame p chrono ⟨content⟩ := by
  have hp : (⟨content⟩ : UdpMessageView).packetType = .ok (readMessage content).packetType :=
    packetType_eq h.long
  rw [untimed, untimedFrame, hp, timestampOf_eq p chrono h]
  cases (readMessage content).packetType <;>
    rcases (readMessage content).gpsTime.nanosecondsSinceEpoch p chrono with _ | _ | _ <;> rfl

theorem headerFits_of_dataBytes (hd : (⟨content⟩ : UdpMessageView).dataBytes = .ok []) :
    HeaderFits content := by
  have hge := h.declared_ge
  have hle := h.declared_le
  rw [UdpMessageView.dataBytes, headerLengthBytes_eq h.long, ok_bind, totalLengthBytes_eq h.long,
    ok_bind, slice] at hd
  split_ifs at hd with hbounds
  have hlen := congrArg List.length (Except.ok.inj hd)
  rw [List.length_drop, List.length_take, List.length_nil] at hlen
  unfold declaredBytes at *
  exact ⟨by omega, by omega⟩

theorem eventless_eq :
    eventless p chrono (readMessage content) = eventlessFrame p chrono ⟨content⟩ := by
  have hp : (⟨content⟩ : UdpMessageView).packetType = .ok (readMessage content).packetType :=
    packetType_eq h.long
  rw [eventless, eventlessFrame, hp, timestampOf_eq p chrono h]
  by_cases hf : HeaderFits content
  · have hbody : (readMessage content).body =
        some (boardParameters (boardBytes content), eventBytes content) := if_pos hf
    rw [hbody, dataBytes_eq h hf]
    cases (readMessage content).packetType <;>
      rcases (readMessage content).gpsTime.nanosecondsSinceEpoch p chrono with _ | _ | _ <;>
      cases eventBytes content <;> rfl
  · have hbody : (readMessage content).body = none := if_neg hf
    rw [hbody]
    split
    · rename_i hd
      cases hd
    · split
      · rename_i hd
        exact absurd (headerFits_of_dataBytes h hd) hf
      · rfl

theorem rejected_eq (hlen : content.length ≤ isizeMax) :
    rejected p chrono (readMessage content) = rejectedInFrame p chrono ⟨content⟩ := by
  have hp : (⟨content⟩ : UdpMessageView).packetType = .ok (readMessage content).packetType :=
    packetType_eq h.long
  rw [rejected, rejectedInFrame, hp, timestampOf_eq p chrono h, rejectedData,
    packetFormatCode_eq h.long, ok_bind, frameSyncDelayUs_eq h.long]
  by_cases hf : HeaderFits content
  · have hbody : (readMessage content).body =
        some (boardParameters (boardBytes content), eventBytes content) := if_pos hf
    rw [hbody, boardSpecificParameters_eq h p hf, ok_bind, dataBytes_eq h hf]
    cases (readMessage content).packetType <;>
      rcases (readMessage content).gpsTime.nanosecondsSinceEpoch p chrono with _ | _ | _ <;> rfl
  · have hbody : (readMessage content).body = none := if_neg hf
    rw [hbody]
    rcases slices_panic h p hlen hf with hs | ⟨bytes, hs, hd⟩
    · rw [hs]
      cases (readMessage content).packetType <;>
        rcases (readMessage content).gpsTime.nanosecondsSinceEpoch p chrono with _ | _ | _ <;> rfl
    · rw [hs, hd]
      cases (readMessage content).packetType <;>
        rcases (readMessage content).gpsTime.nanosecondsSinceEpoch p chrono with _ | _ | _ <;> rfl

end Accepted

variable {p chrono}

theorem other_accounts {r : Reading} (h : r.packetType ≠ .neutronData) : Accounts (readingTraits p chrono) [r]
    [.increment (.incomingUdpHeaders r.packetType) 1, failed r.packetType] := by
  have huntimed : untimed p chrono r = false := by
    unfold untimed
    split <;> simp_all
  have heventless : eventless p chrono r = false := by
    unfold eventless
    split <;> simp_all
  have hrejected : MetricsBalance.rejected p chrono r = 0 := by
    unfold MetricsBalance.rejected
    split <;> simp_all
  refine ⟨?_, ?_, ?_, ?_, rfl, rfl, rfl, rfl, ?_⟩
  · cases r.packetType <;> rfl
  · intro type _
    simp [failed, Effect.amountOf]
  · simp [failed, Effect.amountOf, huntimed, h]
  · simp [failed, Effect.amountOf, heventless, h]
  · simp [failed, Effect.amountOf, hrejected]

theorem untimed_accounts {r : Reading} (h : r.packetType = .neutronData)
    (ht : r.gpsTime.nanosecondsSinceEpoch p chrono = .ok none) : Accounts (readingTraits p chrono) [r]
    [.increment (.incomingUdpHeaders .neutronData) 1, failed .neutronData] := by
  have huntimed : untimed p chrono r = true := by simp only [untimed, h, ht]
  have heventless : eventless p chrono r = false := by simp only [eventless, h, ht]
  have hrejected : MetricsBalance.rejected p chrono r = 0 := by
    simp only [MetricsBalance.rejected, h, ht]
  refine ⟨rfl, ?_, ?_, ?_, rfl, rfl, rfl, rfl, ?_⟩
  · intro type hne
    simp [failed, Effect.amountOf, hne.symm]
  · simp [failed, Effect.amountOf, huntimed]
  · simp [failed, Effect.amountOf, heventless]
  · simp [failed, Effect.amountOf, hrejected]

/-- A body log is what a frame logs after its pulse message. -/
structure BodyAccounts (p : Profile) (chrono : Chrono) (r : Reading) (log : List Effect) : Prop where
  headers : ∀ type, total (.incomingUdpHeaders type) log = 0
  others : ∀ type ≠ .neutronData, total (.processingErrors type) log = 0
  frames : total .streamingControlBoardFrames log = 0
  pulses : ∀ m ∈ sent log, isPulse m = false
  events : 1 = total (.processingErrors .neutronData) log + (sent log).length +
    [r].countP (eventless p chrono)
  tofs : total .neutronEvents log = ((sent log).map tofCount).sum
  pixels : total .neutronEvents log = ((sent log).map pixelCount).sum
  rejected : total .invalidNeutronEvents log = rejected p chrono r

theorem not_pulse {m : KafkaMessage} (h : isPulse m = false) :
    hasPeriod m = false ∧ hasCharge m = false := by
  cases m with
  | pu00 m => cases h
  | ev44 m => exact ⟨rfl, rfl⟩

theorem BodyAccounts.accounts {r : Reading} {log : List Effect} (hb : BodyAccounts p chrono r log)
    (huntimed : untimed p chrono r = false) (controlBoard : Bool) (scaling : Float32)
    (time : UInt64) : Accounts (readingTraits p chrono) [r]
    (.increment (.incomingUdpHeaders .neutronData) 1 ::
      (controlBoardLog controlBoard ++
        .sink (.pu00 (pu00Message controlBoard scaling r time)) :: log)) := by
  have hpulse : (sent log).countP isPulse = 0 :=
    List.countP_eq_zero.mpr fun m hm => by simp [hb.pulses m hm]
  have hevents : (sent log).countP (fun m => ! isPulse m) = (sent log).length :=
    List.countP_eq_length.mpr fun m hm => by simp [hb.pulses m hm]
  have hperiod : (sent log).countP hasPeriod = 0 :=
    List.countP_eq_zero.mpr fun m hm => by simp [(not_pulse (hb.pulses m hm)).1]
  have hcharge : (sent log).countP hasCharge = 0 :=
    List.countP_eq_zero.mpr fun m hm => by simp [(not_pulse (hb.pulses m hm)).2]
  set whole := Effect.increment (.incomingUdpHeaders .neutronData) 1 ::
    (controlBoardLog controlBoard ++
    .sink (.pu00 (pu00Message controlBoard scaling r time)) :: log)
  have htotal (c : Counter) : total c whole = (if .incomingUdpHeaders .neutronData = c then 1 else 0) +
      (if controlBoard ∧ .streamingControlBoardFrames = c then 1 else 0) + total c log := by
    cases controlBoard <;> simp [whole, controlBoardLog, Effect.amountOf, Nat.add_assoc]
  have hsent : sent whole = .pu00 (pu00Message controlBoard scaling r time) :: sent log := by
    cases controlBoard <;> rfl
  have hcount (q : KafkaMessage → Bool) : (sent whole).countP q = (sent log).countP q +
      if q (.pu00 (pu00Message controlBoard scaling r time)) then 1 else 0 := by
    rw [hsent, List.countP_cons]
  refine ⟨?_, fun type hne => ?_, ?_, ?_, ?_, ?_, ?_, ?_, ?_⟩
  · simp [packetTypes, htotal, hb.headers]
  · simp [htotal, hb.headers, hb.others type hne, hne.symm]
  · simp [htotal, hcount, hb.headers, hpulse, huntimed]
  · have he := hb.events
    rw [List.countP_singleton] at he
    simp only [htotal, hcount, hb.headers, hevents, isPulse_pu00]
    simp
    omega
  · simp [htotal, hsent, hb.tofs, tofCount]
  · simp [htotal, hsent, hb.pixels, pixelCount]
  · rw [htotal, hcount, hb.frames, hperiod]
    cases controlBoard <;> rfl
  · rw [htotal, hcount, hb.frames, hcharge]
    cases controlBoard <;> rfl
  · simp [htotal, hb.rejected]

/-- A body that fails, with or without a count of rejected records. -/
theorem failed_accounts {r : Reading} {log : List Effect} {count : ℕ}
    (hlog : log = [failed .neutronData] ∧ count = 0 ∨
      log = [.increment .invalidNeutronEvents count, failed .neutronData])
    (heventless : [r].countP (eventless p chrono) = 0)
    (hrejected : MetricsBalance.rejected p chrono r = count) : BodyAccounts p chrono r log := by
  have htotal (c : Counter) : total c log = (if .invalidNeutronEvents = c then count else 0) +
      if .processingErrors .neutronData = c then 1 else 0 := by
    rcases hlog with ⟨rfl, rfl⟩ | rfl
    · simp [failed, Effect.amountOf]
    · simp [failed, Effect.amountOf]
  have hsent : sent log = [] := by rcases hlog with ⟨rfl, -⟩ | rfl <;> rfl
  refine ⟨?_, ?_, ?_, ?_, ?_, ?_, ?_, ?_⟩
  · simp [htotal]
  · intro type hne
    simp [htotal, hne.symm]
  · simp [htotal]
  · simp [hsent]
  · simp [htotal, hsent, heventless]
  · simp [htotal, hsent]
  · simp [htotal, hsent]
  · simp [htotal, hrejected]

theorem decoded_accounts {r : Reading} {time : UInt64} {events : EventData}
    (heventless : [r].countP (eventless p chrono) = if events.isEmpty then 1 else 0)
    (hrejected : MetricsBalance.rejected p chrono r = 0) :
    BodyAccounts p chrono r (bodyRun time (some (.decoded events))).log := by
  rw [bodyRun]
  cases hempty : events.isEmpty with
  | true =>
    rw [hempty] at heventless
    refine ⟨fun type => rfl, fun type _ => rfl, rfl, ?_, ?_, rfl, rfl, hrejected.symm⟩
    · intro m hm
      cases hm
    · rw [heventless]
      rfl
  | false =>
    rw [hempty] at heventless
    refine ⟨?_, ?_, rfl, ?_, ?_, ?_, ?_, hrejected.symm⟩
    · intro type
      cases type <;> rfl
    · intro type _
      cases type <;> rfl
    · intro m hm
      rw [List.mem_singleton.mp hm]
      rfl
    · rw [heventless]
      rfl
    · simp [Effect.amountOf, tofCount, event44Message, EventData.len]
    · simp [Effect.amountOf, pixelCount, event44Message, EventData.len, events.sameLength]

theorem timed_accounts (controlBoard : Bool) (scaling : Float32) {r : Reading} {time : UInt64}
    (h : r.packetType = .neutronData)
    (ht : r.gpsTime.nanosecondsSinceEpoch p chrono = .ok (some time))
    (hreturns : (bodyRun time (decoding p r)).Returns) : Accounts (readingTraits p chrono) [r]
    (.increment (.incomingUdpHeaders .neutronData) 1 ::
      (timedRun controlBoard scaling r time (decoding p r)).log) := by
  obtain ⟨d, hd, hne⟩ := (bodyRun_returns_iff time (decoding p r)).mp hreturns
  have huntimed : untimed p chrono r = false := by simp only [untimed, h, ht]
  rw [decoding] at hd
  obtain ⟨⟨board, data⟩, hbody, rfl⟩ := Option.map_eq_some_iff.mp hd
  have heventless : [r].countP (eventless p chrono) = if data = [] then 1 else 0 := by
    simp only [List.countP_cons, List.countP_nil, eventless, h, ht, hbody]
    cases data <;> rfl
  have hrejected : MetricsBalance.rejected p chrono r =
      rejectedRecords r.formatCode board data r.frameSyncDelayUs := by
    simp only [MetricsBalance.rejected, h, ht, hbody]
  have hdecoding : decoding p r =
      some (decode p r.formatCode board data r.frameSyncDelayUs) := by rw [decoding, hbody]; rfl
  have hb : BodyAccounts p chrono r (bodyRun time (decoding p r)).log := by
    rw [hdecoding]
    rcases decode_cases p r.formatCode board data r.frameSyncDelayUs with
      hov | ⟨he, hdata, hz⟩ | ⟨count, he, hdata, hz⟩ | ⟨events, he, hempty, hz⟩
    · exact absurd hov hne
    · rw [he]
      exact failed_accounts (.inl ⟨rfl, rfl⟩) (by rw [heventless, if_neg hdata]) (hrejected.trans hz)
    · rw [he]
      exact failed_accounts (.inr rfl) (by rw [heventless, if_neg hdata]) (hrejected.trans hz)
    · rw [he]
      exact decoded_accounts (by simp only [heventless, ← hempty]) (hrejected.trans hz)
  exact hb.accounts huntimed controlBoard scaling time

theorem frameRun_accounts (controlBoard : Bool) (scaling : Float32) {r : Reading}
    (h : (frameRun p chrono controlBoard scaling r).Returns) :
    Accounts (readingTraits p chrono) [r] (frameRun p chrono controlBoard scaling r).log := by
  rcases frameRun_cases p chrono controlBoard scaling r with ⟨hn, hr⟩ | ⟨hn, s, ht, hr⟩ |
    ⟨hn, ht, hr⟩ | ⟨hn, time, ht, hr⟩ <;> rw [hr] at h ⊢
  · exact other_accounts hn
  · obtain ⟨_, ho⟩ := h
    cases ho
  · exact untimed_accounts hn ht
  · exact timed_accounts controlBoard scaling hn ht h

theorem accounts_flatMap {f : List UInt8 → List Effect} {ms : List (List UInt8)}
    (h : ∀ m ∈ ms, Accounts (readingTraits p chrono) [readMessage m] (f m)) :
    Accounts (readingTraits p chrono) (ms.map readMessage) (ms.flatMap f) := by
  induction ms with
  | nil => exact .nil
  | cons m ms ih =>
    obtain ⟨hm, hms⟩ := List.forall_mem_cons.mp h
    exact hm.append (ih hms)

end Frames

def ofFrames : Counter → Bool
  | .incomingUdpHeaders _ | .processingErrors _ | .streamingControlBoardFrames | .neutronEvents
  | .invalidNeutronEvents => true
  | _ => false

theorem bodyRun_ofFrames {time : UInt64} {d : Option Decoding} {c : Counter} {amount : ℕ}
    (h : .increment c amount ∈ (bodyRun time d).log) : ofFrames c := by
  match d with
  | none | some .overflow => cases h
  | some .refused | some (.invalid _) =>
    simp [bodyRun, failed] at h
    rcases h with ⟨rfl, rfl⟩ | ⟨rfl, rfl⟩ <;> rfl
  | some (.decoded events) =>
    rw [bodyRun] at h
    split at h
    · cases h
    · simp at h
      rw [h.1]
      rfl

theorem frameRun_ofFrames {p : Profile} {chrono : Chrono} {controlBoard : Bool} {scaling : Float32}
    {r : Reading} {c : Counter} {amount : ℕ}
    (h : .increment c amount ∈ (frameRun p chrono controlBoard scaling r).log) : ofFrames c := by
  rcases frameRun_cases p chrono controlBoard scaling r with ⟨-, hr⟩ | ⟨-, s, -, hr⟩ | ⟨-, -, hr⟩ |
    ⟨-, time, -, hr⟩ <;> rw [hr] at h
  · simp [failed] at h
    rcases h with ⟨rfl, -⟩ | ⟨rfl, -⟩ <;> rfl
  · simp at h
    rw [h.1]
    rfl
  · simp [failed] at h
    rcases h with ⟨rfl, -⟩ | ⟨rfl, -⟩ <;> rfl
  · rcases List.mem_cons.mp h with he | h
    · cases he
      rfl
    · rcases List.mem_append.mp h with h | h
      · cases controlBoard with
        | false => cases h
        | true =>
          cases List.mem_singleton.mp h
          rfl
      · rcases List.mem_cons.mp h with he | h
        · cases he
        · exact bodyRun_ofFrames h

theorem messagesRun_total {p : Profile} {chrono : Chrono} {srcIp : IpAddr}
    {config : EventUdpToKafkaConfig} (ms : List (List UInt8)) {c : Counter} (hc : ofFrames c = false) :
    total c (messagesRun p chrono srcIp config ms).log = 0 := by
  apply total_eq_zero
  intro amount h
  obtain ⟨m, -, hm⟩ := Run.exists_mem_of_mem_each _ h
  rw [frameRun_ofFrames hm] at hc
  cases hc


end EventUdpToKafka.MetricsBalance
