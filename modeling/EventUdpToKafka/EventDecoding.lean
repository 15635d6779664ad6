import EventUdpToKafka.BitUtils
import EventUdpToKafka.Metrics

set_option autoImplicit false

/-!
# Decoding of event data

The event vectors, the decoder for packet format 1 and the choice of decoder by
format code.
-/
namespace EventUdpToKafka.EventDecoding
open LoggedRun MachineWords BigEndianBytes BitUtils Metrics

/-- The vectors are private in the code and `new` checks their lengths. -/
structure EventData where
  timeOfFlight : List Int32
  pixelId : List Int32
  sameLength : timeOfFlight.length = pixelId.length

namespace EventData

def new (timeOfFlight pixelId : List Int32) : Anyhow EventData :=
  if h : timeOfFlight.length = pixelId.length then
    .ok ⟨timeOfFlight, pixelId, h⟩
  else
    .error "time-of-flight length does not match pixel ID length"

def default : EventData := ⟨[], [], rfl⟩

def isEmpty (events : EventData) : Bool := events.timeOfFlight.isEmpty

def len (events : EventData) : ℕ := events.timeOfFlight.length

end EventData

namespace PacketFormat1

def packetFormatCode : UInt16 := 1

def clockTicksToNs : UInt32 := 20

structure Captured where
  channelBits : UInt8
  posMask : UInt32
  channelMultiplier : UInt32
  detectorIdOffset : UInt32
  frameSyncDelayNs : UInt32

/-- The count that the closure mutates and the two vectors that `unzip` extends. -/
structure Decoded where
  invalidEvents : ℕ
  timeOfFlight : List Int32
  pixelId : List Int32

def validMarker (event : Bytes8) : Bool := event.b0 &&& 0b11111110 == 0b11100000

def mapEvent (p : Profile) (c : Captured) (event : Bytes8) : Checked (Int32 × Int32) := do
  let tofWord := u32FromBeBytes event.high
  let posWord := u32FromBeBytes event.low
  let tof := tofWord &&& mask 25
  let tof ← u32Mul p tof clockTicksToNs
  -- relative to the original frame sync rather than the delayed one
  let tof ← u32Add p tof c.frameSyncDelayNs
  let channel := (extractMsb posWord c.channelBits.toUInt32).getD 0
  let pos := posWord &&& c.posMask
  let pos ← u32Add p pos c.detectorIdOffset
  let channelOffset ← u32Mul p channel c.channelMultiplier
  let pos ← u32Add p pos channelOffset
  return (tof.toInt32, pos.toInt32)

def decodeStep (p : Profile) (c : Captured) (acc : Decoded) (event : Bytes8) :
    Checked Decoded := do
  let invalidEvents := if validMarker event then acc.invalidEvents else acc.invalidEvents + 1
  let (tof, pos) ← mapEvent p c event
  return ⟨invalidEvents, acc.timeOfFlight ++ [tof], acc.pixelId ++ [pos]⟩

def decodeAll (p : Profile) (c : Captured) (events : List Bytes8) : Checked Decoded :=
  events.foldlM (decodeStep p c) ⟨0, [], []⟩

def decodeRecords (p : Profile) (c : Captured) (data : List UInt8) : Exec (Anyhow EventData) := do
  let decoded ← Run.lift (decodeAll p c (asChunks8 data))
  if decoded.invalidEvents > 0 then
    increment .invalidNeutronEvents decoded.invalidEvents
    return .error "PacketFormat1 decoder encountered invalid neutron events; dropping all events in this message."
  else
    return EventData.new decoded.timeOfFlight decoded.pixelId

def parseRawData (p : Profile) (boardSpecificParameters data : List UInt8)
    (frameSyncDelayUs : UInt32) : Exec (Anyhow EventData) :=
  if data.length % 8 ≠ 0 then
    return .error "PacketFormat1 Event data is not a multiple of pairs of 4-byte words"
  else if boardSpecificParameters.length ≠ 8 then
    return .error "PacketFormat1 board-specific parameters should have length 8"
  else do
    let channelBits ← Run.lift (index boardSpecificParameters 1)
    let positionBitsPerChannel ← Run.lift (index boardSpecificParameters 3)
    let offsetBytes ← Run.lift (slice boardSpecificParameters 4 8)
    match Bytes4.tryFrom offsetBytes with
    | none => return .error "could not convert slice to array"
    | some offsetBytes =>
      let detectorIdOffset := u32FromBeBytes offsetBytes
      let posMask := mask positionBitsPerChannel.toUInt32
      let channelMultiplier := u32UnboundedShl 1 positionBitsPerChannel.toUInt32
      match u32CheckedMul frameSyncDelayUs 1000 with
      | none => return .error "frame_sync_delay is invalid; outside u32 nanoseconds range"
      | some frameSyncDelayNs =>
        decodeRecords p
          ⟨channelBits, posMask, channelMultiplier, detectorIdOffset, frameSyncDelayNs⟩ data

end PacketFormat1

def parseBoardData (p : Profile) (packetFormatCode : UInt16)
    (boardSpecificParameters data : List UInt8) (frameSyncDelayUs : UInt32) :
    Exec (Anyhow EventData) :=
  if data.isEmpty then
    return .ok EventData.default
  else if packetFormatCode = PacketFormat1.packetFormatCode then
    PacketFormat1.parseRawData p boardSpecificParameters data frameSyncDelayUs
  else
    return .error ("unknown packet format code " ++ toString packetFormatCode)

end EventUdpToKafka.EventDecoding
