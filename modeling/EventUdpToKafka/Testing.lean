import EventUdpToKafka.EventDecoding

set_option autoImplicit false

/-!
# Fabricated messages

The byte layout of a neutron message, as the code's test utilities lay it out.
-/
namespace EventUdpToKafka.Testing
open BigEndianBytes EventDecoding

structure TestablePacketFormat where
  packetFormatCode : UInt16
  fakeEventTof : Int32
  fakeEventPixel : Int32
  makeFakeEvent : List UInt8
  makeFakeBoardSpecificHeaderData : List UInt8

def packetFormat1 : TestablePacketFormat where
  packetFormatCode := PacketFormat1.packetFormatCode
  fakeEventTof := 456000
  fakeEventPixel := 282828 + 1234 + 2 * 2 ^ 12
  makeFakeEvent := [0xE0, 0x00, 0x59, 0x10, 2, 0xFF, 0xF4, 0xD2]
  -- board address, channel bits, diagnostic bits, position bits, detector id offset
  makeFakeBoardSpecificHeaderData := [0x78, 8, 12, 12] ++ (u32ToBeBytes 282828).toList

/-- 17:09:35.123456789 on the 106th day of 2026. -/
def testingTimestamp : UInt64 :=
  (26 : UInt64) <<< 56 + (106 : UInt64) <<< 47 + (17 : UInt64) <<< 42 + (9 : UInt64) <<< 36 +
    (35 : UInt64) <<< 30 + (123 : UInt64) <<< 20 + (456 : UInt64) <<< 10 + 789

def testingTimestampNsSinceEpoch : UInt64 := 1776359375123456789

def makeUdpHeader (format : TestablePacketFormat) (numEvents : ℕ) (ppp : UInt8) : List UInt8 :=
  let boardSpecificData := format.makeFakeBoardSpecificHeaderData
  let boardSpecificLenWords := boardSpecificData.length / 4
  let packetLengthWords := 14 + boardSpecificLenWords + numEvents * 2
  [0xFF, 0xFF, 0xFF, 0xFF] ++ [0xFF] ++ u16ToBeBytes format.packetFormatCode ++
    [14 + UInt8.ofNat boardSpecificLenWords] ++ [0, 0] ++ [0x00, 0xFF] ++
    (u64ToBeBytes testingTimestamp).toList ++ [0, 0, 0, 0] ++ [0, 0] ++ [0, 0] ++
    (u32ToBeBytes (UInt32.ofNat numEvents)).toList ++
    u16ToBeBytes (UInt16.ofNat packetLengthWords) ++ [0] ++ [ppp] ++ [0, 0, 0, 0] ++
    [0, 0, 0, 0] ++ [0, 0, 0, 0] ++ [0, 0, 0, 0] ++ boardSpecificData ++ [0, 0, 0, 0]

def makeUdpPacket (format : TestablePacketFormat) (numEvents : ℕ) (ppp : UInt8) : List UInt8 :=
  makeUdpHeader format numEvents ppp ++ (List.replicate numEvents format.makeFakeEvent).flatten

end EventUdpToKafka.Testing
