import Mathlib.Tactic.Common

set_option autoImplicit false

namespace EventUdpToKafka.Config

inductive IpAddr where
  | v4 (octets : BitVec 32)
  | v6 (octets : BitVec 128)
  deriving DecidableEq

structure EventUdpToKafkaConfig where
  udpBufferSize : Option ℕ
  rawToUahScaling : Option Float32
  streamingControlBoardIp : IpAddr

namespace EventUdpToKafkaConfig

def defaultRawToUahScaling : Float32 := 1.738e-6

def defaultUdpBufferSize : ℕ := 9000

def udpBufferSizeOrDefault (config : EventUdpToKafkaConfig) : ℕ :=
  config.udpBufferSize.getD defaultUdpBufferSize

def rawToUahScalingOrDefault (config : EventUdpToKafkaConfig) : Float32 :=
  config.rawToUahScaling.getD defaultRawToUahScaling

def makeTestingConfig : EventUdpToKafkaConfig where
  udpBufferSize := none
  rawToUahScaling := none
  streamingControlBoardIp := .v4 0x7F000001

end EventUdpToKafkaConfig

end EventUdpToKafka.Config
