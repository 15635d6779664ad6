import EventUdpToKafka.FrameEmission
import EventUdpToKafka.MessageRoundTrip
import EventUdpToKafka.ServiceRuns
import Mathlib.Data.Set.List

set_option autoImplicit false

/-!
# The strings that are encodings

What the code looks for in a neutron message, with events whose numbers are in
range, is all that there is to the format: these strings are the encodings, and
each is the encoding of one description.
-/
namespace EventUdpToKafka.MessageFormat
open LoggedRun LogMachine MachineWords BigEndianBytes GpsClock GpsInstants Config UdpMessage Metrics
open EventDecoding EventArithmetic EventExactness DataProcessing SelfDelimiting MessageReading
open FrameProcessing FrameEmission DatagramRuns PackedClock MessageEncoding MessageRoundTrip
open PacketFraming PacketFormat1 UdpProcess ServiceRuns Testing

def boardAt (m : List UInt8) : BoardParameters :=
  ⟨byteAt m 53, byteAt m 55, u32FromBeBytes (bytes4At m 56)⟩

def records (m : List UInt8) : List Bytes8 := asChunks8 (eventBytes m)

structure WellFormed (m : List UInt8) : Prop where
  complete : Complete udpDelimiter m
  timed : Timed m
  format : (readMessage m).formatCode = packetFormatCode
  header : headerWords m = 16
  fits : 16 ≤ declaredWords m
  even : declaredWords m % 2 = 0
  marked : ∀ w ∈ records m, validMarker w
  split : (boardAt m).channelBits.toNat + (boardAt m).positionBits.toNat ≤ 32
  tofs_lt : ∀ w ∈ records m, timeOfFlight (readMessage m).frameSyncDelayUs w < 2 ^ 31
  pixels_lt : ∀ w ∈ records m, pixelId (boardAt m) w < 2 ^ 31

section Records
variable {channelBits positionBits : ℕ} (h : channelBits + positionBits ≤ 32)
include h

theorem channel_lt (w : Bytes8) : channel channelBits w < 2 ^ channelBits := by
  have hword := (u32FromBeBytes w.low).toNat_lt
  have hplace : 2 ^ (32 - channelBits) * 2 ^ channelBits = 2 ^ 32 := Nat.pow_sub_mul_pow 2 (by omega)
  rw [channel, positionWordOf]
  exact Nat.div_lt_of_lt_mul (hplace.symm ▸ hword)

/-- The event of a record, with all bits of its position word. -/
def eventOf (w : Bytes8) : Event channelBits positionBits where
  tick := tick w
  channel := channel channelBits w
  diagnostic := positionWordOf w / 2 ^ positionBits % 2 ^ (32 - channelBits - positionBits)
  position := position positionBits w
  tick_lt := Nat.mod_lt _ (Nat.two_pow_pos _)
  channel_lt := channel_lt h w
  diagnostic_lt := Nat.mod_lt _ (Nat.two_pow_pos _)
  position_lt := Nat.mod_lt _ (Nat.two_pow_pos _)

theorem eventOf_words (e : Event channelBits positionBits) : eventOf h e.words = e := by
  have hdiagnostic : positionWordOf e.words / 2 ^ positionBits %
      2 ^ (32 - channelBits - positionBits) = e.diagnostic := by
    have hplace := Event.channel_place h
    have hword : positionWordOf e.words = 2 ^ positionBits *
        (2 ^ (32 - channelBits - positionBits) * e.channel + e.diagnostic) + e.position := by
      rw [e.positionWordOf_words h, hplace]
      ring
    rw [hword, Nat.mul_add_div (Nat.two_pow_pos _), Nat.div_eq_of_lt e.position_lt, Nat.add_zero,
      Nat.mul_add_mod, Nat.mod_eq_of_lt e.diagnostic_lt]
  simp only [eventOf, e.tick_words, e.channel_words h, e.position_words h, hdiagnostic]

theorem eventOf_positionWord (w : Bytes8) : (eventOf h w).positionWord = u32FromBeBytes w.low := by
  apply UInt32.toNat_inj.mp
  have hlow : positionWordOf w % 2 ^ (32 - channelBits) = positionWordOf w % 2 ^ positionBits +
      2 ^ positionBits * (positionWordOf w / 2 ^ positionBits % 2 ^ (32 - channelBits - positionBits)) := by
    rw [Event.channel_place h, Nat.mul_comm (2 ^ (32 - channelBits - positionBits)), Nat.mod_mul]
  have hword := Nat.div_add_mod (positionWordOf w) (2 ^ (32 - channelBits))
  rw [(eventOf h w).positionWord_toNat h]
  change channel channelBits w * _ + (positionWordOf w / 2 ^ positionBits % _ * _ +
    position positionBits w) = positionWordOf w
  rw [channel, position, Nat.mul_comm, Nat.mul_comm (_ % _), Nat.add_comm (_ * (_ % _)), ← hlow]
  exact hword

theorem eventOf_tofWord {w : Bytes8} (hw : validMarker w) :
    (eventOf h w).tofWord = u32FromBeBytes w.high := by
  have hmarker := (validMarker_iff w).mp hw
  have h1 := w.b1.toNat_lt
  have h2 := w.b2.toNat_lt
  have h3 := w.b3.toNat_lt
  apply UInt32.toNat_inj.mp
  rw [(eventOf h w).tofWord_toNat]
  change 0xE0 * 2 ^ 24 + (u32FromBeBytes w.high).toNat % 2 ^ 25 = _
  rw [u32FromBeBytes_toNat, beNat_four]
  change _ + (((w.b0.toNat * 256 + w.b1.toNat) * 256 + w.b2.toNat) * 256 + w.b3.toNat) % _ =
    ((w.b0.toNat * 256 + w.b1.toNat) * 256 + w.b2.toNat) * 256 + w.b3.toNat
  have hb : w.b0.toNat = 224 ∨ w.b0.toNat = 225 := hmarker.imp (congrArg UInt8.toNat) (congrArg UInt8.toNat)
  omega

theorem words_eventOf {w : Bytes8} (hw : validMarker w) : (eventOf h w).words = w := by
  have hhigh := congrArg u32ToBeBytes (eventOf_tofWord h hw)
  have hlow := congrArg u32ToBeBytes (eventOf_positionWord h w)
  rw [u32ToBeBytes_fromBeBytes] at hhigh hlow
  rw [Event.words, hhigh, hlow]
  rfl

end Records

/-- The header fields of a description. The number of events is that of the records. -/
structure Fields where
  boardNumber : UInt16
  upperFlags : UInt8
  clock : Clock
  frameNumber : UInt32
  periodNumber : UInt16
  unused6 : UInt16
  eventsInFrame : UInt32
  lengthPadding : ℕ
  unused8 : UInt8
  ppp : UInt8
  vetoes : UInt32
  nextFrameAddress : UInt32
  nextFrameWordAddress : UInt32
  frameSyncDelayUs : UInt32
  boardAddress : UInt8
  channelBits : UInt8
  diagnosticBits : UInt8
  positionBits : UInt8
  detectorIdOffset : UInt32
  checksum : UInt32

def fieldsOf (d : Description) : Fields :=
  ⟨d.boardNumber, d.upperFlags, d.clock, d.frameNumber, d.periodNumber, d.unused6, d.eventsInFrame,
    d.lengthPadding, d.unused8, d.ppp, d.vetoes, d.nextFrameAddress, d.nextFrameWordAddress,
    d.frameSyncDelayUs, d.boardAddress, d.channelBits, d.diagnosticBits, d.positionBits,
    d.detectorIdOffset, d.checksum⟩

def readFields (m : List UInt8) : Fields where
  boardNumber := u16FromBeBytes (byteAt m 8) (byteAt m 9)
  upperFlags := byteAt m 10
  clock := unpack (readMessage m).gpsTime
  frameNumber := u32FromBeBytes (bytes4At m 20)
  periodNumber := u16FromBeBytes (byteAt m 24) (byteAt m 25)
  unused6 := u16FromBeBytes (byteAt m 26) (byteAt m 27)
  eventsInFrame := u32FromBeBytes (bytes4At m 28)
  lengthPadding := (u16FromBeBytes (byteAt m 32) (byteAt m 33)).toNat / 2 ^ 12
  unused8 := byteAt m 34
  ppp := byteAt m 35
  vetoes := u32FromBeBytes (bytes4At m 36)
  nextFrameAddress := u32FromBeBytes (bytes4At m 40)
  nextFrameWordAddress := u32FromBeBytes (bytes4At m 44)
  frameSyncDelayUs := u32FromBeBytes (bytes4At m 48)
  boardAddress := byteAt m 52
  channelBits := byteAt m 53
  diagnosticBits := byteAt m 54
  positionBits := byteAt m 55
  detectorIdOffset := u32FromBeBytes (bytes4At m 56)
  checksum := u32FromBeBytes (bytes4At m 60)

section Encoding
variable (d : Description)

theorem readFields_encode : readFields d.encode = fieldsOf d := by
  have h16 (x : UInt16) : u16FromBeBytes (UInt8.ofNat (x.toNat / 256 ^ 1))
      (UInt8.ofNat (x.toNat / 256 ^ 0)) = x := u16FromBeBytes_toBeBytes x
  have hclock : unpack (readMessage d.encode).gpsTime = d.clock := by
    rw [d.readMessage_encode]
    exact unpack_pack d.clock
  have hpadding : (u16FromBeBytes (byteAt d.encode 32) (byteAt d.encode 33)).toNat / 2 ^ 12 =
      d.lengthPadding := by
    have hword : u16FromBeBytes (byteAt d.encode 32) (byteAt d.encode 33) = d.lengthWord :=
      h16 d.lengthWord
    have hshort := d.short
    rw [hword, d.lengthWord_toNat]
    omega
  rw [readFields, hclock, hpadding, fieldsOf, Fields.mk.injEq]
  exact ⟨h16 _, rfl, rfl, u32FromBeBytes_toBeBytes _, h16 _, h16 _, u32FromBeBytes_toBeBytes _, rfl, rfl,
    rfl, u32FromBeBytes_toBeBytes _, u32FromBeBytes_toBeBytes _, u32FromBeBytes_toBeBytes _,
    u32FromBeBytes_toBeBytes _, rfl, rfl, rfl, rfl, u32FromBeBytes_toBeBytes _, u32FromBeBytes_toBeBytes _⟩

theorem records_encode : records d.encode = d.events.map Event.words := by
  rw [records, d.encode_eventBytes, asChunks8_events]

theorem boardAt_encode : boardAt d.encode = d.board := by
  have hoffset : u32FromBeBytes (bytes4At d.encode 56) = d.detectorIdOffset := u32FromBeBytes_toBeBytes _
  rw [boardAt, hoffset]
  rfl

theorem encode_wellFormed : WellFormed d.encode where
  complete := d.encode_complete
  timed := by
    refine ⟨rfl, ?_⟩
    rw [d.readMessage_encode]
    exact (unpack_pack d.clock).symm ▸ d.clock_valid
  format := by rw [d.readMessage_encode]
  header := d.encode_headerWords
  fits := by
    rw [d.encode_declaredWords]
    omega
  even := by
    rw [d.encode_declaredWords]
    omega
  marked w hw := by
    rw [records_encode] at hw
    obtain ⟨e, -, rfl⟩ := List.mem_map.mp hw
    exact e.validMarker_words
  split := by
    rw [boardAt_encode]
    exact d.split
  tofs_lt w hw := by
    rw [records_encode] at hw
    obtain ⟨e, he, rfl⟩ := List.mem_map.mp hw
    rw [d.readMessage_encode, timeOfFlight, e.tick_words]
    exact d.tofs_lt e he
  pixels_lt w hw := by
    rw [records_encode] at hw
    obtain ⟨e, he, rfl⟩ := List.mem_map.mp hw
    rw [boardAt_encode, pixelId_words]
    exact d.pixels_lt e he

theorem words_injective {channelBits positionBits : ℕ} (h : channelBits + positionBits ≤ 32) :
    Function.Injective (Event.words : Event channelBits positionBits → Bytes8) :=
  Function.LeftInverse.injective (eventOf_words h)

end Encoding

/-- Every field shows in the bytes. -/
theorem encode_injective : Function.Injective Description.encode := by
  intro d d' h
  have hfields : fieldsOf d = fieldsOf d' := by rw [← readFields_encode, ← readFields_encode, h]
  have hrecords : d.events.map Event.words = d'.events.map Event.words := by
    rw [← records_encode, ← records_encode, h]
  cases d
  cases d'
  simp only [fieldsOf, Fields.mk.injEq] at hfields
  obtain ⟨rfl, rfl, rfl, rfl, rfl, rfl, rfl, rfl, rfl, rfl, rfl, rfl, rfl, rfl, rfl, rfl, rfl, rfl, rfl,
    rfl⟩ := hfields
  have hevents := (List.map_injective_iff.mpr (words_injective ‹_›)) hrecords
  subst hevents
  rfl

theorem halves_high (b0 b1 : UInt8) (low : UInt16) :
    (Description.halves (u16FromBeBytes b0 b1) low).b0 = b0 ∧
      (Description.halves (u16FromBeBytes b0 b1) low).b1 = b1 := by
  obtain ⟨h0, htail⟩ := List.cons.inj (u16ToBeBytes_fromBeBytes b0 b1)
  exact ⟨h0, (List.cons.inj htail).1⟩

theorem halves_low (high : UInt16) (b2 b3 : UInt8) :
    (Description.halves high (u16FromBeBytes b2 b3)).b2 = b2 ∧
      (Description.halves high (u16FromBeBytes b2 b3)).b3 = b3 := by
  obtain ⟨h2, htail⟩ := List.cons.inj (u16ToBeBytes_fromBeBytes b2 b3)
  exact ⟨h2, (List.cons.inj htail).1⟩

section Reading
variable {m : List UInt8} (h : WellFormed m)
include h

theorem length_eq : m.length = declaredWords m * 4 := (complete_iff.mp h.complete).2.symm

theorem eventBytes_drop : eventBytes m = m.drop 64 := by
  rw [eventBytes, h.header, declaredBytes, ← length_eq h, List.take_length]

theorem records_length : 16 + 2 * (records m).length = declaredWords m := by
  have hlen := eventBytes_length (complete_iff.mp h.complete).1
  have heven := h.even
  have hfits := h.fits
  rw [h.header] at hlen
  rw [records, asChunks8_length]
  omega

theorem lengthWord_toNat : (u16FromBeBytes (byteAt m 32) (byteAt m 33)).toNat % 2 ^ 12 =
    16 + 2 * (records m).length := by
  rw [records_length h, declaredWords_eq, u16FromBeBytes_toNat]

/-- What a well-formed string says. -/
def describe : Description where
  boardNumber := (readFields m).boardNumber
  upperFlags := (readFields m).upperFlags
  clock := (readFields m).clock
  frameNumber := (readFields m).frameNumber
  periodNumber := (readFields m).periodNumber
  unused6 := (readFields m).unused6
  eventsInFrame := (readFields m).eventsInFrame
  lengthPadding := (readFields m).lengthPadding
  unused8 := (readFields m).unused8
  ppp := (readFields m).ppp
  vetoes := (readFields m).vetoes
  nextFrameAddress := (readFields m).nextFrameAddress
  nextFrameWordAddress := (readFields m).nextFrameWordAddress
  frameSyncDelayUs := (readFields m).frameSyncDelayUs
  boardAddress := (readFields m).boardAddress
  channelBits := (readFields m).channelBits
  diagnosticBits := (readFields m).diagnosticBits
  positionBits := (readFields m).positionBits
  detectorIdOffset := (readFields m).detectorIdOffset
  checksum := (readFields m).checksum
  events := (records m).map (eventOf h.split)
  clock_valid := h.timed.2
  lengthPadding_lt := by
    have hword := (u16FromBeBytes (byteAt m 32) (byteAt m 33)).toNat_lt
    rw [readFields]
    dsimp only
    omega
  split := h.split
  short := by
    have hword := lengthWord_toNat h
    rw [List.length_map]
    omega
  tofs_lt e he := by
    obtain ⟨w, hw, rfl⟩ := List.mem_map.mp he
    exact h.tofs_lt w hw
  pixels_lt e he := by
    obtain ⟨w, hw, rfl⟩ := List.mem_map.mp he
    exact h.pixels_lt w hw

theorem describe_lengthWord :
    (describe h).lengthWord = u16FromBeBytes (byteAt m 32) (byteAt m 33) := by
  have hword := lengthWord_toNat h
  have hevents : (describe h).events.length = (records m).length := List.length_map _
  apply UInt16.toNat_inj.mp
  rw [Description.lengthWord_toNat, hevents, ← hword]
  exact Nat.div_add_mod' _ _

theorem describe_words : (describe h).headerWordList =
    (List.range 16).map fun i => bytes4At m (4 * i) := by
  have hmarked := (complete_iff.mp h.complete).1.marked
  have hclock : u64ToBeBytes (describe h).clock.pack.content = bytes8At m 12 := by
    change u64ToBeBytes (unpack (readMessage m).gpsTime).pack.content = _
    rw [pack_unpack]
    exact u64ToBeBytes_fromBeBytes _
  obtain ⟨hformat, htail⟩ := List.cons.inj ((u16ToBeBytes_fromBeBytes (byteAt m 5) (byteAt m 6)).symm.trans
    (congrArg u16ToBeBytes h.format))
  have hmarker : (⟨0xFF, 0xFF, 0xFF, 0xFF⟩ : Bytes4) = bytes4At m 0 := by
    rw [bytes4At, hmarked 0 (by decide), hmarked 1 (by decide), hmarked 2 (by decide),
      hmarked 3 (by decide)]
  have hfixed : (⟨0xFF, 0, 1, 16⟩ : Bytes4) = bytes4At m 4 := by
    have hheader : byteAt m 7 = 16 := UInt8.toNat_inj.mp h.header
    rw [bytes4At, hmarked 4 (by decide), hformat, (List.cons.inj htail).1, hheader]
    rfl
  have hflags : (⟨(Description.halves (describe h).boardNumber 0).b0,
      (Description.halves (describe h).boardNumber 0).b1, (describe h).upperFlags, 0xFF⟩ : Bytes4) =
        bytes4At m 8 := by
    obtain ⟨h0, h1⟩ := halves_high (byteAt m 8) (byteAt m 9) 0
    have hboard : (describe h).boardNumber = u16FromBeBytes (byteAt m 8) (byteAt m 9) := rfl
    rw [hboard, h0, h1, ← h.timed.1]
    rfl
  have hperiod : Description.halves (describe h).periodNumber (describe h).unused6 = bytes4At m 24 := by
    obtain ⟨h0, h1⟩ := halves_high (byteAt m 24) (byteAt m 25) (describe h).unused6
    obtain ⟨h2, h3⟩ := halves_low (describe h).periodNumber (byteAt m 26) (byteAt m 27)
    exact congr (congr (congr (congrArg Bytes4.mk h0) h1) h2) h3
  have hlength : (⟨(Description.halves (describe h).lengthWord 0).b0,
      (Description.halves (describe h).lengthWord 0).b1, (describe h).unused8, (describe h).ppp⟩ :
        Bytes4) = bytes4At m 32 := by
    obtain ⟨h0, h1⟩ := halves_high (byteAt m 32) (byteAt m 33) 0
    rw [describe_lengthWord, h0, h1]
    rfl
  have hrange : (List.range 16).map (fun i => bytes4At m (4 * i)) =
      [bytes4At m 0, bytes4At m 4, bytes4At m 8, bytes4At m 12, bytes4At m 16, bytes4At m 20,
        bytes4At m 24, bytes4At m 28, bytes4At m 32, bytes4At m 36, bytes4At m 40, bytes4At m 44,
        bytes4At m 48, bytes4At m 52, bytes4At m 56, bytes4At m 60] := rfl
  rw [hrange, Description.headerWordList, hclock, hmarker, hfixed, hflags, hperiod, hlength]
  simp only [List.cons.injEq, and_true, true_and]
  exact ⟨rfl, rfl, u32ToBeBytes_fromBeBytes _, u32ToBeBytes_fromBeBytes _,
    u32ToBeBytes_fromBeBytes _, u32ToBeBytes_fromBeBytes _, u32ToBeBytes_fromBeBytes _,
    u32ToBeBytes_fromBeBytes _, rfl, u32ToBeBytes_fromBeBytes _, u32ToBeBytes_fromBeBytes _⟩

theorem describe_encode : (describe h).encode = m := by
  have hlen := length_eq h
  have hfits := h.fits
  have hheader : (describe h).header = m.take 64 := by
    rw [Description.header, describe_words h, List.flatMap_map]
    exact (take_words (n := 16) (by omega)).symm
  have hevents : (describe h).events.flatMap Event.encode = m.drop 64 := by
    have hwhole : (eventBytes m).length % 8 = 0 := by
      have hrecords := records_length h
      rw [eventBytes_drop h, List.length_drop]
      omega
    rw [← eventBytes_drop h, ← asChunks8_flatten hwhole]
    change ((records m).map (eventOf h.split)).flatMap Event.encode = _
    rw [List.flatMap_map]
    refine List.flatMap_congr fun w hw => ?_
    exact congrArg Bytes8.toList (words_eventOf h.split (h.marked w hw))
  rw [Description.encode, hheader, hevents, List.take_append_drop]

end Reading

/-- The well-formed strings are the encodings, and each is that of one description only. -/
theorem wellFormed_iff (m : List UInt8) : WellFormed m ↔ ∃! d : Description, d.encode = m := by
  constructor
  · intro h
    exact ⟨describe h, describe_encode h, fun d hd => encode_injective (hd.trans (describe_encode h).symm)⟩
  · rintro ⟨d, rfl, -⟩
    exact encode_wellFormed d

/-- What `WellFormed` says, by the functions of the code alone. What the decoder returns is compared
    with the sums over the natural numbers, because the code has them only modulo `2 ^ 32`. -/
structure ExactlyDecoded (p : Profile) (chrono : Chrono) (m : List UInt8) : Prop where
  complete : CompleteMessage m
  packetType : (⟨m⟩ : UdpMessageView).packetType = .ok .neutronData
  timed : ∃ gpsTime instant, (⟨m⟩ : UdpMessageView).gpsTime = .ok gpsTime ∧
    gpsTime.nanosecondsSinceEpoch p chrono = .ok (some instant)
  format : (⟨m⟩ : UdpMessageView).packetFormatCode = .ok packetFormatCode
  header : (⟨m⟩ : UdpMessageView).headerLengthWords = .ok 16
  decoded : ∃ delayUs bytes data events,
    (⟨m⟩ : UdpMessageView).frameSyncDelayUs = .ok delayUs ∧
    (⟨m⟩ : UdpMessageView).boardSpecificParameters p = .ok bytes ∧
    (⟨m⟩ : UdpMessageView).dataBytes = .ok data ∧
    parseBoardData p packetFormatCode bytes data delayUs = pure (.ok events) ∧
    EventExactness.Disjoint (boardOf bytes) ∧
    events.timeOfFlight.map Int32.toInt =
      (asChunks8 data).map (fun w => (timeOfFlight delayUs w : ℤ)) ∧
    events.pixelId.map Int32.toInt = (asChunks8 data).map (fun w => (pixelId (boardOf bytes) w : ℤ))

section Code
variable {chrono : Chrono} (hc : Gregorian chrono) (p : Profile)

include hc in
theorem encode_exactlyDecoded (d : Description) : ExactlyDecoded p chrono d.encode := by
  have ha := (complete_iff.mp d.encode_complete).1
  have hread := d.readMessage_encode
  have hgps := gpsTime_eq ha.long
  have hformat := packetFormatCode_eq ha.long
  have hdelay := frameSyncDelayUs_eq ha.long
  change _ = Except.ok (readMessage d.encode).gpsTime at hgps
  change _ = Except.ok (readMessage d.encode).formatCode at hformat
  change _ = Except.ok (readMessage d.encode).frameSyncDelayUs at hdelay
  rw [hread] at hgps hformat hdelay
  have hboard : boardOf (boardBytes d.encode) = d.board :=
    (boardParameters_eq d.encode_boardParameters).2.symm
  have hrecords : asChunks8 (eventBytes d.encode) = d.events.map Event.words := records_encode d
  have hdecode := parseBoardData_describes p packetFormatCode (boardBytes d.encode)
    (eventBytes d.encode) d.frameSyncDelayUs
  rw [d.encode_boardParameters, d.encode_eventBytes, decode_events, ← d.encode_eventBytes] at hdecode
  constructor
  case complete => exact completeMessage_iff.mpr d.encode_complete
  case packetType => exact packetType_eq ha.long
  case timed =>
    refine ⟨_, UInt64.ofNat (instant d.clock.pack), hgps, ?_⟩
    rw [nanosecondsSinceEpoch_eq _ hc, if_pos (d.clock.pack_valid d.clock_valid)]
  case format => exact hformat
  case header => exact headerLengthWords_eq ha.long
  case decoded =>
    refine ⟨_, _, _, d.eventData, hdelay, boardSpecificParameters_eq ha p d.encode_headerFits,
      dataBytes_eq ha d.encode_headerFits, hdecode, hboard ▸ d.split, ?_, ?_⟩
    · rw [d.exact.timeOfFlight, hrecords, List.map_map]
      refine List.map_congr_left fun e _ => ?_
      change _ = ((timeOfFlight d.frameSyncDelayUs e.words : ℕ) : ℤ)
      rw [timeOfFlight, e.tick_words, Description.timeOfFlight]
    · rw [d.exact.pixelId, hrecords, List.map_map, hboard]
      refine List.map_congr_left fun e _ => ?_
      change _ = ((pixelId d.board e.words : ℕ) : ℤ)
      rw [pixelId_words]

/-- Numbers that a signed word has are below `2 ^ 31`. -/
theorem lt_of_map_toInt {words : List Int32} {α : Type} {xs : List α} {f : α → ℕ}
    (h : words.map Int32.toInt = xs.map fun x => (f x : ℤ)) : ∀ x ∈ xs, f x < 2 ^ 31 := by
  intro x hx
  have hmem : (f x : ℤ) ∈ words.map Int32.toInt := h ▸ List.mem_map_of_mem hx
  obtain ⟨w, -, hw⟩ := List.mem_map.mp hmem
  have hlt := w.toInt_lt
  omega

theorem parseBoardData_ok {bytes data : List UInt8} {delayUs : UInt32} {events : EventData}
    (h : parseBoardData p packetFormatCode bytes data delayUs = pure (.ok events)) :
    data.length % 8 = 0 ∧ ∀ w ∈ asChunks8 data, validMarker w := by
  rw [parseBoardData] at h
  cases hempty : data.isEmpty with
  | true =>
    rw [List.isEmpty_iff.mp hempty]
    exact ⟨rfl, fun _ hw => absurd hw List.not_mem_nil⟩
  | false =>
    rw [hempty, if_neg Bool.false_ne_true, if_pos rfl] at h
    obtain ⟨-, hwhole, -, hmarked, -⟩ := decodes_iff.mp ⟨[], events, h⟩
    exact ⟨hwhole, hmarked⟩

include hc in
theorem ExactlyDecoded.wellFormed {m : List UInt8} (h : ExactlyDecoded p chrono m) : WellFormed m := by
  have hcomplete := completeMessage_iff.mp h.complete
  have ha := (complete_iff.mp hcomplete).1
  have hheader := Except.ok.inj ((headerLengthWords_eq ha.long).symm.trans h.header)
  have htype := Except.ok.inj ((packetType_eq ha.long).symm.trans h.packetType)
  obtain ⟨gpsTime, time, hgps, htime⟩ := h.timed
  obtain ⟨delayUs, bytes, data, events, hdelay, hbytes, hdata, hparse, hdisjoint, htofs, hpixels⟩ :=
    h.decoded
  obtain rfl : gpsTime = (readMessage m).gpsTime := Except.ok.inj (hgps.symm.trans (gpsTime_eq ha.long))
  obtain rfl : delayUs = (readMessage m).frameSyncDelayUs :=
    Except.ok.inj (hdelay.symm.trans (frameSyncDelayUs_eq ha.long))
  have hfits : 16 ≤ declaredWords m := by
    by_contra hshort
    rw [UdpMessageView.dataBytes, headerLengthBytes_eq ha.long, ok_bind, totalLengthBytes_eq ha.long,
      ok_bind, slice_of_not (by unfold declaredBytes; omega)] at hdata
    cases hdata
  have hf : HeaderFits m := ⟨hheader ▸ by decide, hheader ▸ hfits⟩
  obtain rfl : data = eventBytes m := Except.ok.inj (hdata.symm.trans (dataBytes_eq ha hf))
  obtain rfl : bytes = boardBytes m :=
    Except.ok.inj (hbytes.symm.trans (boardSpecificParameters_eq ha p hf))
  have hboard : boardOf (boardBytes m) = boardAt m := by
    have hsome := boardParameters_message ha hf
    rw [if_pos hheader] at hsome
    exact (boardParameters_eq hsome).2.symm
  rw [hboard] at hdisjoint hpixels
  obtain ⟨hwhole, hmarked⟩ := parseBoardData_ok p hparse
  constructor
  case complete => exact hcomplete
  case timed =>
    refine timed_iff.mpr ⟨packetTypeOf_neutronData.mp htype, ?_⟩
    by_contra hinvalid
    rw [nanosecondsSinceEpoch_eq _ hc, if_neg hinvalid] at htime
    cases htime
  case format => exact Except.ok.inj ((packetFormatCode_eq ha.long).symm.trans h.format)
  case header => exact hheader
  case fits => exact hfits
  case even =>
    rw [eventBytes_length ha, hheader] at hwhole
    omega
  case marked => exact hmarked
  case split => exact hdisjoint
  case tofs_lt => exact lt_of_map_toInt htofs
  case pixels_lt => exact lt_of_map_toInt hpixels

include hc in
/-- A string is well formed if and only if the code reads it as a message of a known time and decodes
    its events, in either build, to the numbers that its fields say. -/
theorem wellFormed_iff_exactlyDecoded (m : List UInt8) : WellFormed m ↔ ExactlyDecoded p chrono m :=
  ⟨fun h => describe_encode h ▸ encode_exactlyDecoded hc p (describe h),
    ExactlyDecoded.wellFormed hc p⟩

end Code

def encodeFrom (x : IpAddr × Description) : IpAddr × List UInt8 := (x.1, x.2.encode)

theorem encodeFrom_injective : Function.Injective encodeFrom := fun _ _ h =>
  Prod.ext (Prod.ext_iff.mp h).1 (encode_injective (Prod.ext_iff.mp h).2)

section Service
variable {chrono : Chrono} (hc : Gregorian chrono) (p : Profile) (config : EventUdpToKafkaConfig)
include hc

theorem sourceRun_encode (x : IpAddr × Description) :
    (sourceRun p chrono config (encodeFrom x)).Returns ∧
      sent (sourceRun p chrono config (encodeFrom x)).log =
        x.2.emitted (isControlBoard x.1 config) config.rawToUahScalingOrDefault := by
  obtain ⟨houtcome, hsent⟩ := frameRun_encode hc p (isControlBoard x.1 config)
    config.rawToUahScalingOrDefault x.2
  exact ⟨⟨(), houtcome⟩, hsent⟩

theorem carriedRun_encode {results : List Received} {ds : List (IpAddr × Description)}
    (hds : results.flatMap (carried config) = ds.map encodeFrom) : carriedRun p chrono config results =
      ⟨ds.flatMap fun x => (sourceRun p chrono config (encodeFrom x)).log, .ok ()⟩ := by
  rw [carriedRun, hds, each_map]
  exact Run.each_of_returns _ fun x _ => (sourceRun_encode hc p config x).1

/-- A run of the service in which all messages are well-formed, in either build and however they come
    in datagrams: the messages have one description each, and the service hands over exactly what
    these say. -/
theorem udpProcess_described (length : KafkaMessage → ℕ) (results : List Received)
    (hbuffer : config.udpBufferSizeOrDefault ≤ isizeMax)
    (h : ∀ x ∈ results.flatMap (carried config), WellFormed x.2) :
    ∃! ds : List (IpAddr × Description), results.flatMap (carried config) = ds.map encodeFrom ∧
      (udpProcess p chrono length config results).Returns ∧
      sent (udpProcess p chrono length config results).log =
        ds.flatMap fun x => x.2.emitted (isControlBoard x.1 config) config.rawToUahScalingOrDefault := by
  have hrange : results.flatMap (carried config) ∈ Set.range (List.map encodeFrom) := by
    rw [Set.range_list_map]
    exact fun x hx => ⟨(x.1, describe (h x hx)), Prod.ext rfl (describe_encode (h x hx))⟩
  obtain ⟨ds, hds⟩ := hrange
  have hrun := carriedRun_encode hc p config hds.symm
  refine ⟨ds, ⟨hds.symm, ?_, ?_⟩, fun ds' h' => ?_⟩
  · refine ⟨(), ?_⟩
    rw [(udpProcess_core p chrono length config results hbuffer).1, hrun]
  · rw [sent_carriedRun p chrono length config results hbuffer, hrun, sent_flatMap]
    exact List.flatMap_congr fun x _ => (sourceRun_encode hc p config x).2
  · exact List.map_injective_iff.mpr encodeFrom_injective (h'.1.symm.trans hds.symm)

end Service

/-- Two fabricated messages in one datagram. -/
theorem udpProcess_described_fake :
    (udpProcess .dev gregorianChrono (fun _ => 100) .makeTestingConfig oneDatagram).Returns := by
  have hcarried : oneDatagram.flatMap (carried .makeTestingConfig) =
      [(.v4 0, makeUdpPacket packetFormat1 1 12), (.v4 0, makeUdpPacket packetFormat1 0 34)] := by
    decide +kernel
  obtain ⟨ds, ⟨-, hreturns, -⟩, -⟩ := udpProcess_described gregorianChrono_gregorian .dev .makeTestingConfig
    (fun _ => 100) oneDatagram (by decide) (by
      intro x hx
      rw [hcarried] at hx
      rcases List.mem_cons.mp hx with rfl | hx
      · exact makeUdpPacket_eq 1 12 (by decide) ▸ encode_wellFormed _
      · rw [List.mem_singleton.mp hx]
        exact makeUdpPacket_eq 0 34 (by decide) ▸ encode_wellFormed _)
  exact hreturns

end EventUdpToKafka.MessageFormat
