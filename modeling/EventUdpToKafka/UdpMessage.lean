import EventUdpToKafka.BigEndianBytes
import EventUdpToKafka.Config
import EventUdpToKafka.GpsClock

set_option autoImplicit false

/-!
# Views onto UDP messages

Word offsets, masks and slice bounds are those of the code, and an accessor
panics where the code's slice, assertion or `expect` does. That none of these
happens on an accepted view is a theorem, not part of the definitions.
-/
namespace EventUdpToKafka.UdpMessage
open MachineWords BigEndianBytes GpsClock Config

def wordSize : ℕ := 4

def headerMarker : List UInt8 := [0xFF, 0xFF, 0xFF, 0xFF]

/-- The fixed part of the header and a checksum word. -/
def minimumHeaderLenWords : ℕ := 14

def minimumHeaderLenBytes : ℕ := minimumHeaderLenWords * wordSize

inductive InvalidMessageReason where
  | contentTooShort
  | missingHeaderMarker
  | declaredLengthTooShort (length : ℕ)
  | declaredLengthTooLong (length : ℕ)
  deriving DecidableEq

inductive UdpPacketType where
  | vetoFrame
  | sampleEnvironment
  | neutronData
  | endOfRun
  | invalid
  deriving DecidableEq

/-- The content may run past the end of the message. -/
structure UdpMessageView where
  content : List UInt8
  deriving DecidableEq

namespace UdpMessageView
variable (view : UdpMessageView)

def headerWord (n : ℕ) : Checked Bytes4 := do
  assert (n ≤ 15)
  let bytes ← slice view.content (wordSize * n) (wordSize * (n + 1))
  expect (Bytes4.tryFrom bytes)

def totalLengthWords : Checked ℕ := do
  let word ← view.headerWord 8
  return ((u32FromBeBytes word >>> 16) &&& 0xFFF).toNat

def totalLengthBytes : Checked ℕ := do
  let words ← view.totalLengthWords
  return words * 4

def headerLengthWords : Checked ℕ := do
  let word ← view.headerWord 1
  return word.b3.toNat

def packetFormatCode : Checked UInt16 := do
  let word ← view.headerWord 1
  return u16FromBeBytes word.b1 word.b2

def headerLengthBytes : Checked ℕ := do
  let words ← view.headerLengthWords
  return words * wordSize

def rawPppPerFrame : Checked UInt8 := do
  let word ← view.headerWord 8
  return word.b3

def pppPerFrame (config : EventUdpToKafkaConfig) : Checked Float32 := do
  let raw ← view.rawPppPerFrame
  return raw.toFloat32 * config.rawToUahScalingOrDefault

def vetoes : Checked UInt32 := do
  let word ← view.headerWord 9
  return u32FromBeBytes word

def headerFlags : Checked UInt8 := do
  let word ← view.headerWord 2
  return word.b3

def periodNumber : Checked UInt16 := do
  let word ← view.headerWord 6
  return u16FromBeBytes word.b0 word.b1

def gpsTime : Checked GpsTime := do
  let bytes ← slice view.content (3 * 4) (5 * 4)
  let packed ← expect (Bytes8.tryFrom bytes)
  return fromPackedRepr (u64FromBeBytes packed)

/-- The flags are active-low: all bits high is a neutron data packet. -/
def packetType : Checked UdpPacketType := do
  let flags ← view.headerFlags
  return match flags with
    | 0b11111111 => .neutronData
    | 0b11111110 => .endOfRun
    | 0b11111101 => .vetoFrame
    | _ => .invalid

/-- From word 13 up to the checksum word that ends the header. -/
def boardSpecificParameters (p : Profile) : Checked (List UInt8) := do
  let headerLength ← view.headerLengthBytes
  let stop ← usizeSub p headerLength wordSize
  slice view.content (13 * wordSize) stop

def dataBytes : Checked (List UInt8) := do
  let headerLength ← view.headerLengthBytes
  let totalLength ← view.totalLengthBytes
  slice view.content headerLength totalLength

def frameSyncDelayUs : Checked UInt32 := do
  let word ← view.headerWord 12
  return u32FromBeBytes word

end UdpMessageView

/-- `UdpMessageView::new`. -/
def newView (content : List UInt8) : Checked (Except InvalidMessageReason UdpMessageView) :=
  if content.length < minimumHeaderLenBytes then
    .ok (.error .contentTooShort)
  else if ¬ headerMarker.isPrefixOf content then
    .ok (.error .missingHeaderMarker)
  -- the most significant byte of word 1 is a marker too
  else if content[wordSize]? ≠ some 0xFF then
    .ok (.error .missingHeaderMarker)
  else do
    let view : UdpMessageView := ⟨content⟩
    let declaredLength ← view.totalLengthBytes
    if declaredLength < minimumHeaderLenBytes then
      return .error (.declaredLengthTooShort declaredLength)
    else if declaredLength > content.length then
      return .error (.declaredLengthTooLong declaredLength)
    else
      return .ok view

end EventUdpToKafka.UdpMessage
