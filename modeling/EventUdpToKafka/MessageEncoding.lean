import EventUdpToKafka.EventExactness
import EventUdpToKafka.FrameProcessing
import EventUdpToKafka.MixedRadix
import EventUdpToKafka.PackedClock
import EventUdpToKafka.Testing

set_option autoImplicit false

/-!
# Encoding neutron messages

The byte layout of the fabricated messages with arbitrary values in every field.
-/
namespace EventUdpToKafka.MessageEncoding
open MachineWords BigEndianBytes GpsClock UdpMessage Metrics EventDecoding EventArithmetic
open DataProcessing SelfDelimiting MessageReading PackedClock PacketFormat1 Testing

/-- An event, with diagnostic bits between its channel and its position. -/
structure Event (channelBits positionBits : ℕ) where
  tick : ℕ
  channel : ℕ
  diagnostic : ℕ
  position : ℕ
  tick_lt : tick < 2 ^ 25
  channel_lt : channel < 2 ^ channelBits
  diagnostic_lt : diagnostic < 2 ^ (32 - channelBits - positionBits)
  position_lt : position < 2 ^ positionBits

namespace Event
variable {channelBits positionBits : ℕ} (e : Event channelBits positionBits)

def tofWord : UInt32 := UInt32.ofNat (0xE0 * 2 ^ 24 + e.tick)

def positionWord : UInt32 :=
  UInt32.ofNat (e.channel * 2 ^ (32 - channelBits) + e.diagnostic * 2 ^ positionBits + e.position)

def words : Bytes8 :=
  ⟨(u32ToBeBytes e.tofWord).b0, (u32ToBeBytes e.tofWord).b1, (u32ToBeBytes e.tofWord).b2,
    (u32ToBeBytes e.tofWord).b3, (u32ToBeBytes e.positionWord).b0, (u32ToBeBytes e.positionWord).b1,
    (u32ToBeBytes e.positionWord).b2, (u32ToBeBytes e.positionWord).b3⟩

def encode : List UInt8 := (u32ToBeBytes e.tofWord).toList ++ (u32ToBeBytes e.positionWord).toList

theorem tofWord_toNat : e.tofWord.toNat = 0xE0 * 2 ^ 24 + e.tick := by
  have h := e.tick_lt
  exact UInt32.toNat_ofNat_of_lt' (show 0xE0 * 2 ^ 24 + e.tick < 2 ^ 32 by omega)

theorem tick_words : EventExactness.tick e.words = e.tick := by
  have h := e.tick_lt
  have hword : u32FromBeBytes e.words.high = e.tofWord := u32FromBeBytes_toBeBytes e.tofWord
  rw [EventExactness.tick, hword, tofWord_toNat]
  omega

theorem validMarker_words : validMarker e.words := by
  have h := e.tick_lt
  have hb : e.words.b0 = UInt8.ofNat (0xE0 + e.tick / 2 ^ 24) := by
    change UInt8.ofNat (e.tofWord.toNat / 256 ^ 3) = _
    rw [tofWord_toNat]
    congr 1
    omega
  have hcases : e.tick / 2 ^ 24 = 0 ∨ e.tick / 2 ^ 24 = 1 := by omega
  rw [validMarker, hb]
  rcases hcases with hz | ho
  · rw [hz]
    rfl
  · rw [ho]
    rfl

section Split
variable (h : channelBits + positionBits ≤ 32)
include h

theorem channel_place :
    2 ^ (32 - channelBits) = 2 ^ (32 - channelBits - positionBits) * 2 ^ positionBits :=
  (Nat.pow_sub_mul_pow 2 (by omega)).symm

theorem below_channel : e.diagnostic * 2 ^ positionBits + e.position < 2 ^ (32 - channelBits) := by
  rw [channel_place h]
  exact MixedRadix.place_lt e.diagnostic_lt e.position_lt

theorem positionWord_toNat : e.positionWord.toNat =
    e.channel * 2 ^ (32 - channelBits) + (e.diagnostic * 2 ^ positionBits + e.position) := by
  have hpow : 2 ^ channelBits * 2 ^ (32 - channelBits) = 2 ^ 32 := by
    rw [Nat.mul_comm]
    exact Nat.pow_sub_mul_pow 2 (by omega)
  have hlt := MixedRadix.place_lt e.channel_lt (e.below_channel h)
  rw [hpow] at hlt
  rw [positionWord, Nat.add_assoc]
  exact UInt32.toNat_ofNat_of_lt' hlt

theorem positionWordOf_words : EventExactness.positionWordOf e.words =
    e.channel * 2 ^ (32 - channelBits) + (e.diagnostic * 2 ^ positionBits + e.position) := by
  have hword : u32FromBeBytes e.words.low = e.positionWord := u32FromBeBytes_toBeBytes e.positionWord
  rw [EventExactness.positionWordOf, hword, e.positionWord_toNat h]

theorem channel_words : EventExactness.channel channelBits e.words = e.channel := by
  rw [EventExactness.channel, e.positionWordOf_words h, Nat.mul_comm,
    Nat.mul_add_div (Nat.two_pow_pos _), Nat.div_eq_of_lt (e.below_channel h), Nat.add_zero]

theorem position_words : EventExactness.position positionBits e.words = e.position := by
  have hpow := channel_place h
  rw [EventExactness.position, e.positionWordOf_words h, hpow, ← Nat.mul_assoc, ← Nat.add_assoc,
    ← Nat.add_mul, Nat.mul_comm, Nat.mul_add_mod, Nat.mod_eq_of_lt e.position_lt]

end Split

end Event

/-- A message with arbitrary values in every field, also in those that are not looked at. -/
structure Description where
  boardNumber : UInt16
  upperFlags : UInt8
  clock : Clock
  frameNumber : UInt32
  periodNumber : UInt16
  unused6 : UInt16
  eventsInFrame : UInt32
  /-- The top 4 bits of word 8, above the length. -/
  lengthPadding : ℕ
  unused8 : UInt8
  ppp : UInt8
  vetoes : UInt32
  nextFrameAddress : UInt32
  nextFrameWordAddress : UInt32
  frameSyncDelayUs : UInt32
  boardAddress : UInt8
  channelBits : UInt8
  diagnosticBits : UInt8
  positionBits : UInt8
  detectorIdOffset : UInt32
  checksum : UInt32
  events : List (Event channelBits.toNat positionBits.toNat)
  clock_valid : clock.Valid
  lengthPadding_lt : lengthPadding < 2 ^ 4
  split : channelBits.toNat + positionBits.toNat ≤ 32
  short : 16 + 2 * events.length ≤ 4095
  tofs_lt : ∀ e ∈ events, 20 * e.tick + 1000 * frameSyncDelayUs.toNat < 2 ^ 31
  pixels_lt : ∀ e ∈ events,
    detectorIdOffset.toNat + e.channel * 2 ^ positionBits.toNat + e.position < 2 ^ 31

namespace Description
variable (d : Description)

def lengthWord : UInt16 := UInt16.ofNat (d.lengthPadding * 2 ^ 12 + (16 + 2 * d.events.length))

def halves (high low : UInt16) : Bytes4 :=
  ⟨UInt8.ofNat (high.toNat / 256 ^ 1), UInt8.ofNat (high.toNat / 256 ^ 0),
    UInt8.ofNat (low.toNat / 256 ^ 1), UInt8.ofNat (low.toNat / 256 ^ 0)⟩

def headerWordList : List Bytes4 :=
  [⟨0xFF, 0xFF, 0xFF, 0xFF⟩,
    ⟨0xFF, 0, 1, 16⟩,
    ⟨(halves d.boardNumber 0).b0, (halves d.boardNumber 0).b1, d.upperFlags, 0xFF⟩,
    (u64ToBeBytes d.clock.pack.content).high,
    (u64ToBeBytes d.clock.pack.content).low,
    u32ToBeBytes d.frameNumber,
    halves d.periodNumber d.unused6,
    u32ToBeBytes d.eventsInFrame,
    ⟨(halves d.lengthWord 0).b0, (halves d.lengthWord 0).b1, d.unused8, d.ppp⟩,
    u32ToBeBytes d.vetoes,
    u32ToBeBytes d.nextFrameAddress,
    u32ToBeBytes d.nextFrameWordAddress,
    u32ToBeBytes d.frameSyncDelayUs,
    ⟨d.boardAddress, d.channelBits, d.diagnosticBits, d.positionBits⟩,
    u32ToBeBytes d.detectorIdOffset,
    u32ToBeBytes d.checksum]

def header : List UInt8 := d.headerWordList.flatMap Bytes4.toList

def encode : List UInt8 := d.header ++ d.events.flatMap Event.encode

def board : BoardParameters := ⟨d.channelBits, d.positionBits, d.detectorIdOffset⟩

def timeOfFlight (e : Event d.channelBits.toNat d.positionBits.toNat) : ℕ :=
  20 * e.tick + 1000 * d.frameSyncDelayUs.toNat

def pixelId (e : Event d.channelBits.toNat d.positionBits.toNat) : ℕ :=
  d.detectorIdOffset.toNat + e.channel * 2 ^ d.positionBits.toNat + e.position

/-- The times and numbers below are exact in their signed types (`exact`). -/
def referenceTime : Int64 := Int64.ofNat d.clock.nanosecondsSinceEpoch

def eventData : EventData where
  timeOfFlight := d.events.map fun e => Int32.ofNat (d.timeOfFlight e)
  pixelId := d.events.map fun e => Int32.ofNat (d.pixelId e)
  sameLength := by rw [List.length_map, List.length_map]

def pulse (controlBoard : Bool) (scaling : Float32) : Pu00Message where
  sourceName := sourceName
  messageId := 0
  referenceTime := d.referenceTime
  vetos := some d.vetoes
  periodNumber := if controlBoard then some d.periodNumber.toUInt32 else none
  protonCharge := if controlBoard then some (d.ppp.toFloat32 * scaling) else none

def eventMessage : Event44Message where
  sourceName := sourceName
  messageId := 0
  referenceTime := [d.referenceTime]
  referenceTimeIndex := [0]
  timeOfFlight := d.eventData.timeOfFlight
  pixelId := d.eventData.pixelId

/-- What the message is to lead to. -/
def emitted (controlBoard : Bool) (scaling : Float32) : List KafkaMessage :=
  .pu00 (d.pulse controlBoard scaling) :: if d.events.isEmpty then [] else [.ev44 d.eventMessage]

structure Exact : Prop where
  referenceTime : d.referenceTime.toInt = d.clock.nanosecondsSinceEpoch
  timeOfFlight : d.eventData.timeOfFlight.map Int32.toInt = d.events.map fun e => (d.timeOfFlight e : ℤ)
  pixelId : d.eventData.pixelId.map Int32.toInt = d.events.map fun e => (d.pixelId e : ℤ)

theorem exact : d.Exact where
  referenceTime := Int64.toInt_ofNat_of_lt (d.clock.nanosecondsSinceEpoch_lt d.clock_valid)
  timeOfFlight := by
    rw [eventData, List.map_map]
    exact List.map_congr_left fun e he => Int32.toInt_ofNat_of_lt (d.tofs_lt e he)
  pixelId := by
    rw [eventData, List.map_map]
    exact List.map_congr_left fun e he => Int32.toInt_ofNat_of_lt (d.pixels_lt e he)

theorem events_length : (d.events.flatMap Event.encode).length = 8 * d.events.length := by
  generalize d.events = events
  induction events with
  | nil => rfl
  | cons e events ih =>
    rw [List.flatMap_cons, List.length_append, ih, List.length_cons]
    change 8 + _ = _
    omega

theorem encode_length : d.encode.length = (16 + 2 * d.events.length) * 4 := by
  rw [encode, List.length_append, events_length]
  change 64 + _ = _
  omega

theorem lengthWord_toNat :
    d.lengthWord.toNat = d.lengthPadding * 2 ^ 12 + (16 + 2 * d.events.length) := by
  have hpadding := d.lengthPadding_lt
  have hshort := d.short
  exact UInt16.toNat_ofNat_of_lt' (by change _ < 2 ^ 16; omega)

theorem encode_declaredWords : declaredWords d.encode = 16 + 2 * d.events.length := by
  have hshort := d.short
  have hword : (byteAt d.encode 32).toNat * 256 + (byteAt d.encode 33).toNat = d.lengthWord.toNat := by
    rw [← u16FromBeBytes_toNat]
    exact congrArg UInt16.toNat (u16FromBeBytes_toBeBytes d.lengthWord)
  rw [declaredWords_eq, hword, lengthWord_toNat]
  omega

theorem encode_declaredBytes : declaredBytes d.encode = d.encode.length := by
  rw [declaredBytes, encode_declaredWords, encode_length]

theorem encode_headerWords : headerWords d.encode = 16 := rfl

theorem encode_complete : Complete udpDelimiter d.encode := by
  have hlen : 56 ≤ d.encode.length := by
    rw [encode_length]
    omega
  have hd := d.encode_declaredBytes
  have hmarked : Marked d.encode := by
    intro i hi
    match i, hi with
    | 0, _ | 1, _ | 2, _ | 3, _ | 4, _ => rfl
  exact complete_iff.mpr ⟨⟨hlen, hmarked, hd ▸ hlen, Nat.le_of_eq hd⟩, hd⟩

theorem encode_headerFits : HeaderFits d.encode := by
  rw [HeaderFits, encode_headerWords, encode_declaredWords]
  omega

theorem encode_boardParameters : boardParameters (boardBytes d.encode) = some d.board := by
  change some (⟨d.channelBits, d.positionBits, u32FromBeBytes (u32ToBeBytes d.detectorIdOffset)⟩ :
    BoardParameters) = _
  rw [u32FromBeBytes_toBeBytes]
  rfl

theorem encode_eventBytes : eventBytes d.encode = d.events.flatMap Event.encode := by
  rw [eventBytes, encode_declaredBytes, List.take_length]
  rfl

theorem readMessage_encode : readMessage d.encode =
    { packetType := .neutronData
      gpsTime := d.clock.pack
      formatCode := packetFormatCode
      periodNumber := d.periodNumber
      rawPpp := d.ppp
      vetoes := d.vetoes
      frameSyncDelayUs := d.frameSyncDelayUs
      body := some (some d.board, d.events.flatMap Event.encode) } := by
  have htype : packetTypeOf (byteAt d.encode 11) = .neutronData := rfl
  have hgps : u64FromBeBytes (bytes8At d.encode 12) = d.clock.pack.content :=
    u64FromBeBytes_toBeBytes d.clock.pack.content
  have hcode : u16FromBeBytes (byteAt d.encode 5) (byteAt d.encode 6) = packetFormatCode := by
    change u16FromBeBytes 0 1 = 1
    decide
  have hperiod : u16FromBeBytes (byteAt d.encode 24) (byteAt d.encode 25) = d.periodNumber :=
    u16FromBeBytes_toBeBytes d.periodNumber
  have hppp : byteAt d.encode 35 = d.ppp := rfl
  have hvetoes : u32FromBeBytes (bytes4At d.encode 36) = d.vetoes := u32FromBeBytes_toBeBytes d.vetoes
  have hdelay : u32FromBeBytes (bytes4At d.encode 48) = d.frameSyncDelayUs :=
    u32FromBeBytes_toBeBytes d.frameSyncDelayUs
  rw [readMessage, if_pos d.encode_headerFits, htype, hgps, hcode, hperiod, hppp, hvetoes, hdelay,
    encode_boardParameters, encode_eventBytes]
  rfl

end Description

section Fabricated

def fakeClock : Clock where
  years := 26
  days := 106
  hours := 17
  minutes := 9
  seconds := 35
  milliseconds := 123
  microseconds := 456
  nanoseconds := 789
  years_lt := by decide
  days_lt := by decide
  hours_lt := by decide
  minutes_lt := by decide
  seconds_lt := by decide
  milliseconds_lt := by decide
  microseconds_lt := by decide
  nanoseconds_lt := by decide

def fakeEvent : Event 8 12 := ⟨22800, 2, 0xFFF, 1234, by decide, by decide, by decide, by decide⟩

variable (numEvents : ℕ) (ppp : UInt8) (h : 16 + 2 * numEvents ≤ 4095)

def fakeDescription : Description where
  boardNumber := 0
  upperFlags := 0
  clock := fakeClock
  frameNumber := 0
  periodNumber := 0
  unused6 := 0
  eventsInFrame := UInt32.ofNat numEvents
  lengthPadding := 0
  unused8 := 0
  ppp := ppp
  vetoes := 0
  nextFrameAddress := 0
  nextFrameWordAddress := 0
  frameSyncDelayUs := 0
  boardAddress := 0x78
  channelBits := 8
  diagnosticBits := 12
  positionBits := 12
  detectorIdOffset := 282828
  checksum := 0
  events := List.replicate numEvents fakeEvent
  clock_valid := ⟨by decide, by decide, by decide, by decide, by decide, by decide, by decide⟩
  lengthPadding_lt := by decide
  split := by decide
  short := by rwa [List.length_replicate]
  tofs_lt e he := by
    rw [List.eq_of_mem_replicate he]
    decide
  pixels_lt e he := by
    rw [List.eq_of_mem_replicate he]
    decide

theorem fakeEvent_encode : fakeEvent.encode = packetFormat1.makeFakeEvent := by decide +kernel

theorem fakeClock_pack : fakeClock.pack.content = testingTimestamp := by decide +kernel

example : fakeClock.nanosecondsSinceEpoch = testingTimestampNsSinceEpoch.toNat := by decide +kernel

example : (fakeDescription 1 0 (by decide)).eventData.timeOfFlight = [packetFormat1.fakeEventTof] ∧
    (fakeDescription 1 0 (by decide)).eventData.pixelId = [packetFormat1.fakeEventPixel] := by
  decide +kernel

/-- The layout is that of the test utilities. -/
theorem makeUdpPacket_eq :
    makeUdpPacket packetFormat1 numEvents ppp = (fakeDescription numEvents ppp h).encode := by
  have hevents : (List.replicate numEvents packetFormat1.makeFakeEvent).flatten =
      (List.replicate numEvents fakeEvent).flatMap Event.encode := by
    rw [List.flatMap_def, List.map_replicate, fakeEvent_encode]
  have hlength : (fakeDescription numEvents ppp h).lengthWord =
      UInt16.ofNat (14 + 2 + numEvents * 2) := by
    have hwords : 0 * 2 ^ 12 + (16 + 2 * numEvents) = 14 + 2 + numEvents * 2 := by omega
    rw [Description.lengthWord, ← hwords]
    change UInt16.ofNat (0 * 2 ^ 12 + (16 + 2 * (List.replicate numEvents fakeEvent).length)) = _
    rw [List.length_replicate]
  have hheader : makeUdpHeader packetFormat1 numEvents ppp = (fakeDescription numEvents ppp h).header := by
    have hcode : u16ToBeBytes packetFormat1.packetFormatCode = [0, 1] := by decide
    have hwords : 14 + UInt8.ofNat (packetFormat1.makeFakeBoardSpecificHeaderData.length / 4) = 16 := by
      decide
    have hzero : u32ToBeBytes 0 = ⟨0, 0, 0, 0⟩ := by decide
    have hhalves : Description.halves 0 0 = ⟨0, 0, 0, 0⟩ := by decide
    rw [Description.header, Description.headerWordList, hlength]
    unfold makeUdpHeader fakeDescription
    dsimp only
    rw [hcode, hwords, fakeClock_pack, hzero, hhalves]
    rfl
  rw [makeUdpPacket, hheader, hevents]
  rfl

end Fabricated

end EventUdpToKafka.MessageEncoding
