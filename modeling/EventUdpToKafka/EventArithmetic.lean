import EventUdpToKafka.EventDecoding

set_option autoImplicit false

/-!
# What the event decoder computes

Every record is decoded by a chain of machine operations. The chain is one
operation that fits when every link does, so a whole pass over the records is
one as well, and the decoder's result is a case distinction on plain values.
-/
namespace EventUdpToKafka.EventArithmetic
open LoggedRun MachineWords BigEndianBytes BitUtils Metrics EventDecoding PacketFormat1

/-- The board-specific parameters that the decoder reads. The board address and the
    number of diagnostic bits, at offsets 0 and 2, are not among them. -/
structure BoardParameters where
  channelBits : UInt8
  positionBits : UInt8
  detectorIdOffset : UInt32
  deriving DecidableEq

def boardParameters (bytes : List UInt8) : Option BoardParameters :=
  (Bytes8.tryFrom bytes).map fun w => ⟨w.b1, w.b3, u32FromBeBytes w.low⟩

def captured (b : BoardParameters) (frameSyncDelayNs : UInt32) : Captured where
  channelBits := b.channelBits
  posMask := mask b.positionBits.toUInt32
  channelMultiplier := u32UnboundedShl 1 b.positionBits.toUInt32
  detectorIdOffset := b.detectorIdOffset
  frameSyncDelayNs := frameSyncDelayNs

section Event
variable (c : Captured) (event : Bytes8)

def tickWord : UInt32 := u32FromBeBytes event.high &&& mask 25

def tofWord : UInt32 := tickWord event * clockTicksToNs + c.frameSyncDelayNs

def channelWord : UInt32 := (extractMsb (u32FromBeBytes event.low) c.channelBits.toUInt32).getD 0

def positionWord : UInt32 := u32FromBeBytes event.low &&& c.posMask

def pixelWord : UInt32 :=
  positionWord c event + c.detectorIdOffset + channelWord c event * c.channelMultiplier

def TofFits : Prop :=
  (tickWord event).toNat * clockTicksToNs.toNat < 2 ^ 32 ∧
    (tickWord event * clockTicksToNs).toNat + c.frameSyncDelayNs.toNat < 2 ^ 32

def PixelFits : Prop :=
  (positionWord c event).toNat + c.detectorIdOffset.toNat < 2 ^ 32 ∧
    (channelWord c event).toNat * c.channelMultiplier.toNat < 2 ^ 32 ∧
    (positionWord c event + c.detectorIdOffset).toNat +
      (channelWord c event * c.channelMultiplier).toNat < 2 ^ 32

instance : Decidable (TofFits c event) := inferInstanceAs (Decidable (_ ∧ _))

instance : Decidable (PixelFits c event) := inferInstanceAs (Decidable (_ ∧ _ ∧ _))

def EventFits : Prop := TofFits c event ∧ PixelFits c event

instance : Decidable (EventFits c event) := inferInstanceAs (Decidable (_ ∧ _))

theorem mapEvent_eq (p : Profile) : mapEvent p c event =
    p.arith (EventFits c event) ((tofWord c event).toInt32, (pixelWord c event).toInt32) := by
  have h : mapEvent p c event = p.arith _ ((tofWord c event).toInt32, (pixelWord c event).toInt32) :=
    arith_bind p (arith_bind p (arith_bind p (arith_bind p (arith_map p _))))
  rw [h]
  apply arith_congr
  unfold EventFits TofFits PixelFits
  exact and_assoc.symm

end Event

def timesOfFlight (c : Captured) (events : List Bytes8) : List Int32 :=
  events.map fun e => (tofWord c e).toInt32

def pixelIds (c : Captured) (events : List Bytes8) : List Int32 :=
  events.map fun e => (pixelWord c e).toInt32

def badRecords (events : List Bytes8) : ℕ := events.countP fun e => ! validMarker e

theorem decodeStep_eq (p : Profile) (c : Captured) (acc : Decoded) (event : Bytes8) :
    decodeStep p c acc event = p.arith (EventFits c event)
      ⟨if validMarker event then acc.invalidEvents else acc.invalidEvents + 1,
        acc.timeOfFlight ++ [(tofWord c event).toInt32],
        acc.pixelId ++ [(pixelWord c event).toInt32]⟩ := by
  rw [decodeStep, mapEvent_eq]
  exact arith_map p _

theorem decode_fold (p : Profile) (c : Captured) (events : List Bytes8) (acc : Decoded) :
    events.foldlM (decodeStep p c) acc = p.arith (∀ e ∈ events, EventFits c e)
      ⟨acc.invalidEvents + badRecords events, acc.timeOfFlight ++ timesOfFlight c events,
        acc.pixelId ++ pixelIds c events⟩ := by
  induction events generalizing acc with
  | nil =>
    rw [arith_fits p fun e he => absurd he List.not_mem_nil]
    simp only [List.foldlM_nil, pure_eq_ok, badRecords, timesOfFlight, pixelIds, List.countP_nil,
      List.map_nil, List.append_nil, Nat.add_zero]
  | cons event events ih =>
    let next : Decoded := ⟨if validMarker event then acc.invalidEvents else acc.invalidEvents + 1,
      acc.timeOfFlight ++ [(tofWord c event).toInt32], acc.pixelId ++ [(pixelWord c event).toInt32]⟩
    have hbad : next.invalidEvents + badRecords events =
        acc.invalidEvents + badRecords (event :: events) := by
      simp only [next, badRecords, List.countP_cons]
      cases validMarker event <;> simp only [Bool.not_true, Bool.not_false, Bool.false_eq_true,
        ite_true, ite_false] <;> omega
    have hlink : p.arith (EventFits c event) next >>= events.foldlM (decodeStep p c) =
        p.arith (EventFits c event ∧ ∀ e ∈ events, EventFits c e) _ := arith_bind p (ih next)
    rw [List.foldlM_cons, decodeStep_eq, hlink, hbad]
    simp only [next, List.append_assoc]
    exact arith_congr p List.forall_mem_cons.symm

theorem decodeAll_eq (p : Profile) (c : Captured) (events : List Bytes8) :
    decodeAll p c events = p.arith (∀ e ∈ events, EventFits c e)
      ⟨badRecords events, timesOfFlight c events, pixelIds c events⟩ := by
  rw [decodeAll, decode_fold]
  simp only [Nat.zero_add, List.nil_append]

inductive Decoding where
  | overflow
  | refused
  | invalid (count : ℕ)
  | decoded (events : EventData)

def eventData (c : Captured) (events : List Bytes8) : EventData where
  timeOfFlight := timesOfFlight c events
  pixelId := pixelIds c events
  sameLength := by rw [timesOfFlight, pixelIds, List.length_map, List.length_map]

def decodeChunks (p : Profile) (c : Captured) (events : List Bytes8) : Decoding :=
  if p = .dev ∧ ¬ ∀ e ∈ events, EventFits c e then .overflow
  else if badRecords events = 0 then .decoded (eventData c events)
  else .invalid (badRecords events)

def decodeFormat1 (p : Profile) (board : Option BoardParameters) (data : List UInt8)
    (delayUs : UInt32) : Decoding :=
  if data.length % 8 ≠ 0 then .refused
  else
    match board with
    | none => .refused
    | some b =>
      match u32CheckedMul delayUs 1000 with
      | none => .refused
      | some delayNs => decodeChunks p (captured b delayNs) (asChunks8 data)

def decode (p : Profile) (formatCode : UInt16) (board : Option BoardParameters) (data : List UInt8)
    (delayUs : UInt32) : Decoding :=
  if data.isEmpty then .decoded EventData.default
  else if formatCode = packetFormatCode then decodeFormat1 p board data delayUs
  else .refused

structure Intact (board : Option BoardParameters) (data : List UInt8) (delayUs : UInt32) : Prop where
  whole : data.length % 8 = 0
  board : board.isSome
  delay : delayUs.toNat * 1000 < 2 ^ 32
  marked : ∀ e ∈ asChunks8 data, validMarker e

def Decoding.Failed : Decoding → Prop
  | .refused | .invalid _ => True
  | .overflow | .decoded _ => False

theorem badRecords_eq_zero {events : List Bytes8} :
    badRecords events = 0 ↔ ∀ e ∈ events, validMarker e := by
  rw [badRecords, List.countP_eq_zero]
  simp only [Bool.not_eq_true, Bool.not_eq_false']

theorem checkedMul_thousand (delayUs : UInt32) : u32CheckedMul delayUs 1000 =
    if delayUs.toNat * 1000 < 2 ^ 32 then some (delayUs * 1000) else none := rfl

/-- The guards ahead of the records. -/
theorem decodeFormat1_cases (p : Profile) (board : Option BoardParameters) (data : List UInt8)
    (delayUs : UInt32) :
    (¬ (data.length % 8 = 0 ∧ board.isSome ∧ delayUs.toNat * 1000 < 2 ^ 32) ∧
      decodeFormat1 p board data delayUs = .refused) ∨
    (data.length % 8 = 0 ∧ delayUs.toNat * 1000 < 2 ^ 32 ∧ ∃ b, board = some b ∧
      decodeFormat1 p board data delayUs =
        decodeChunks p (captured b (delayUs * 1000)) (asChunks8 data)) := by
  unfold decodeFormat1
  by_cases hdata : data.length % 8 = 0
  swap
  · rw [if_pos hdata]
    exact .inl ⟨fun h => hdata h.1, rfl⟩
  rw [if_neg (not_not.mpr hdata)]
  cases board with
  | none => exact .inl ⟨fun h => absurd h.2.1 Bool.false_ne_true, rfl⟩
  | some b =>
    dsimp only
    rw [checkedMul_thousand]
    by_cases hdelay : delayUs.toNat * 1000 < 2 ^ 32
    · rw [if_pos hdelay]
      exact .inr ⟨hdata, hdelay, b, rfl, rfl⟩
    · rw [if_neg hdelay]
      exact .inl ⟨fun h => hdelay h.2.2, rfl⟩

/-- Without overflow checks the decoder succeeds on the intact messages. -/
theorem decodeFormat1_release (board : Option BoardParameters) (data : List UInt8)
    (delayUs : UInt32) :
    (Intact board data delayUs ∧ ∃ c, decodeFormat1 .release board data delayUs =
      .decoded (eventData c (asChunks8 data))) ∨
    (¬ Intact board data delayUs ∧ (decodeFormat1 .release board data delayUs).Failed) := by
  rcases decodeFormat1_cases .release board data delayUs with
    ⟨hguards, hd⟩ | ⟨hwhole, hdelay, b, rfl, hd⟩
  · rw [hd]
    exact .inr ⟨fun h => hguards ⟨h.whole, h.board, h.delay⟩, trivial⟩
  · rw [hd, decodeChunks, if_neg fun h => Profile.noConfusion h.1]
    by_cases hbad : badRecords (asChunks8 data) = 0
    · rw [if_pos hbad]
      exact .inl ⟨⟨hwhole, rfl, hdelay, badRecords_eq_zero.mp hbad⟩, _, rfl⟩
    · rw [if_neg hbad]
      exact .inr ⟨fun h => hbad (badRecords_eq_zero.mpr h.marked), trivial⟩

theorem decodeFormat1_overflow_iff (p : Profile) (board : Option BoardParameters)
    (data : List UInt8) (delayUs : UInt32) :
    decodeFormat1 p board data delayUs = .overflow ↔ p = .dev ∧ data.length % 8 = 0 ∧
      delayUs.toNat * 1000 < 2 ^ 32 ∧ ∃ b, board = some b ∧
        ¬ ∀ e ∈ asChunks8 data, EventFits (captured b (delayUs * 1000)) e := by
  rcases decodeFormat1_cases p board data delayUs with
    ⟨hguards, hd⟩ | ⟨hwhole, hdelay, b, rfl, hd⟩
  · rw [hd]
    refine iff_of_false Decoding.noConfusion ?_
    rintro ⟨-, hwhole, hdelay, b, rfl, -⟩
    exact hguards ⟨hwhole, rfl, hdelay⟩
  · rw [hd, decodeChunks]
    constructor
    · intro h
      split_ifs at h with hfit
      exact ⟨hfit.1, hwhole, hdelay, b, rfl, hfit.2⟩
    · rintro ⟨hp, -, -, b', hb, hfit⟩
      cases hb
      exact if_pos ⟨hp, hfit⟩

/-- The records without a marker in a message whose records are looked at. -/
def rejectedRecords (formatCode : UInt16) (board : Option BoardParameters) (data : List UInt8)
    (delayUs : UInt32) : ℕ :=
  if formatCode = packetFormatCode ∧ data.length % 8 = 0 ∧ board.isSome ∧
    delayUs.toNat * 1000 < 2 ^ 32 then badRecords (asChunks8 data) else 0

theorem eventData_isEmpty_iff (c : Captured) {data : List UInt8} (h : data.length % 8 = 0) :
    (eventData c (asChunks8 data)).isEmpty ↔ data = [] := by
  have hlen : (eventData c (asChunks8 data)).timeOfFlight.length = data.length / 8 :=
    (List.length_map _).trans (asChunks8_length data)
  rw [EventData.isEmpty, List.isEmpty_iff, ← List.length_eq_zero_iff, hlen,
    ← List.length_eq_zero_iff]
  omega

theorem decode_cases (p : Profile) (formatCode : UInt16) (board : Option BoardParameters)
    (data : List UInt8) (delayUs : UInt32) :
    decode p formatCode board data delayUs = .overflow ∨
    (decode p formatCode board data delayUs = .refused ∧ data ≠ [] ∧
      rejectedRecords formatCode board data delayUs = 0) ∨
    (∃ count, decode p formatCode board data delayUs = .invalid count ∧ data ≠ [] ∧
      rejectedRecords formatCode board data delayUs = count) ∨
    (∃ events, decode p formatCode board data delayUs = .decoded events ∧
      (events.isEmpty ↔ data = []) ∧ rejectedRecords formatCode board data delayUs = 0) := by
  rw [decode, rejectedRecords]
  by_cases hdata : data = []
  · rw [if_pos (List.isEmpty_iff.mpr hdata), hdata]
    exact .inr (.inr (.inr ⟨_, rfl, iff_of_true rfl rfl, ite_self 0⟩))
  rw [if_neg fun he => hdata (List.isEmpty_iff.mp he)]
  by_cases hcode : formatCode = packetFormatCode
  swap
  · rw [if_neg hcode, if_neg fun h => hcode h.1]
    exact .inr (.inl ⟨rfl, hdata, rfl⟩)
  rw [if_pos hcode]
  rcases decodeFormat1_cases p board data delayUs with
    ⟨hguards, hd⟩ | ⟨hwhole, hdelay, b, rfl, hd⟩
  · rw [hd, if_neg fun h => hguards h.2]
    exact .inr (.inl ⟨rfl, hdata, rfl⟩)
  · rw [hd, if_pos ⟨hcode, hwhole, rfl, hdelay⟩, decodeChunks]
    split
    · exact .inl rfl
    · by_cases hbad : badRecords (asChunks8 data) = 0
      · rw [if_pos hbad]
        exact .inr (.inr (.inr ⟨_, rfl, eventData_isEmpty_iff _ hwhole, hbad⟩))
      · rw [if_neg hbad]
        exact .inr (.inr (.inl ⟨_, rfl, hdata, rfl⟩))

/-- The run that a decoding describes, up to the text of the error. -/
def Decoding.Describes (d : Decoding) (m : Exec (Anyhow EventData)) : Prop :=
  match d with
  | .overflow => m = .stop .panic
  | .refused => ∃ text, m = pure (.error text)
  | .invalid count => ∃ text, m = ⟨[.increment .invalidNeutronEvents count], .ok (.error text)⟩
  | .decoded events => m = pure (.ok events)

theorem eventData_new (c : Captured) (events : List Bytes8) :
    EventData.new (timesOfFlight c events) (pixelIds c events) = .ok (eventData c events) :=
  dif_pos (eventData c events).sameLength

theorem decodeRecords_describes (p : Profile) (c : Captured) (data : List UInt8) :
    (decodeChunks p c (asChunks8 data)).Describes (decodeRecords p c data) := by
  rw [decodeRecords, decodeAll_eq, decodeChunks]
  set decoded : Decoded := ⟨badRecords (asChunks8 data), timesOfFlight c (asChunks8 data),
    pixelIds c (asChunks8 data)⟩ with hdecoded
  by_cases hfit : p = .dev ∧ ¬ ∀ e ∈ asChunks8 data, EventFits c e
  · obtain ⟨rfl, hf⟩ := hfit
    rw [if_pos ⟨rfl, hf⟩, arith_dev_panics hf]
    rfl
  · have hok : p.arith (∀ e ∈ asChunks8 data, EventFits c e) decoded = .ok decoded := by
      cases p with
      | release => rfl
      | dev => exact arith_fits _ (not_not.mp fun hc => hfit ⟨rfl, hc⟩)
    rw [if_neg hfit, hok, Run.lift_ok_bind, hdecoded]
    dsimp only
    by_cases hbad : badRecords (asChunks8 data) = 0
    · rw [if_pos hbad, if_neg (by omega), eventData_new]
      rfl
    · rw [if_neg hbad, if_pos (by omega)]
      exact ⟨_, rfl⟩

theorem parseRawData_describes (p : Profile) (bytes data : List UInt8) (delayUs : UInt32) :
    (decodeFormat1 p (boardParameters bytes) data delayUs).Describes
      (parseRawData p bytes data delayUs) := by
  unfold decodeFormat1 parseRawData
  by_cases hd : data.length % 8 ≠ 0
  · rw [if_pos hd, if_pos hd]
    exact ⟨_, rfl⟩
  · rw [if_neg hd, if_neg hd]
    by_cases hb : bytes.length = 8
    · obtain ⟨w, rfl⟩ := bytes8_of_length bytes hb
      rw [if_neg (not_not.mpr hb), boardParameters, bytes8_tryFrom_toList, Option.map_some]
      cases hm : u32CheckedMul delayUs 1000 with
      | none => exact ⟨_, rfl⟩
      | some delayNs => exact decodeRecords_describes p _ data
    · rw [if_pos hb, boardParameters, bytes8_tryFrom_of_length hb, Option.map_none]
      exact ⟨_, rfl⟩

theorem parseBoardData_describes (p : Profile) (formatCode : UInt16) (bytes data : List UInt8)
    (delayUs : UInt32) :
    (decode p formatCode (boardParameters bytes) data delayUs).Describes
      (parseBoardData p formatCode bytes data delayUs) := by
  rw [decode, parseBoardData]
  split
  · rfl
  · split
    · exact parseRawData_describes p bytes data delayUs
    · exact ⟨_, rfl⟩

end EventUdpToKafka.EventArithmetic
