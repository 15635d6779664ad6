import EventUdpToKafka.FrameProcessing
import EventUdpToKafka.PacketFraming

set_option autoImplicit false

/-!
# The run over a datagram

The run is the framing followed by one run for each message of the datagram, and
the run for a message depends on the message alone.
-/
namespace EventUdpToKafka.DatagramRuns
open LoggedRun MachineWords GpsClock Config UdpMessage Metrics DataProcessing
open SelfDelimiting MessageReading FrameProcessing PacketFraming

variable (p : Profile) (chrono : Chrono) (srcIp : IpAddr) (config : EventUdpToKafkaConfig)

def messageRun (m : List UInt8) : Exec Unit :=
  frameRun p chrono (isControlBoard srcIp config) config.rawToUahScalingOrDefault (readMessage m)

def messagesRun (ms : List (List UInt8)) : Exec Unit := Run.each (messageRun p chrono srcIp config) ms

def receivedLog (u : List UInt8) : List Effect :=
  [.increment .incomingUdpPackets 1, .increment .incomingUdpPacketSize u.length]

theorem processFrame_message {m : List UInt8} (h : Complete udpDelimiter m) (l : List UInt8)
    (hlen : (m ++ l).length ≤ isizeMax ∨ HeaderFits m) :
    processFrame p chrono srcIp config ⟨m ++ l⟩ = messageRun p chrono srcIp config m := by
  rw [messageRun, ← readMessage_append h l]
  exact processFrame_eq (accepted_append h l) (hlen.imp_right (headerFits_append h l).mpr) p chrono
    srcIp config

theorem each_viewsOf {ms : List (List UInt8)} (h : ∀ m ∈ ms, Complete udpDelimiter m)
    (t : List UInt8) (hlen : (ms.flatten ++ t).length ≤ isizeMax ∨ ∀ m ∈ ms, HeaderFits m) :
    Run.each (processFrame p chrono srcIp config) (viewsOf ms t) =
      messagesRun p chrono srcIp config ms := by
  induction ms with
  | nil => rfl
  | cons m ms ih =>
    obtain ⟨hm, hms⟩ := List.forall_mem_cons.mp h
    rw [List.flatten_cons, List.append_assoc] at hlen
    have htail : (ms.flatten ++ t).length ≤ isizeMax ∨ ∀ m ∈ ms, HeaderFits m := by
      refine hlen.imp (fun hl => ?_) fun hf m' hm' => hf m' (List.mem_cons_of_mem m hm')
      rw [List.length_append] at hl
      omega
    rw [viewsOf, messagesRun, Run.each, Run.each, ih hms htail,
      processFrame_message p chrono srcIp config hm _ (hlen.imp_right fun hf => hf m List.mem_cons_self)]
    rfl

section Datagram
variable {u t : List UInt8} {ms : List (List UInt8)} (h : Splits udpDelimiter u ms t)
  (hlen : u.length ≤ isizeMax ∨ ∀ m ∈ ms, HeaderFits m)
include h hlen

theorem processUdpBytesToKafka_eq :
    processUdpBytesToKafka p chrono u srcIp config =
      ⟨receivedLog u ++ (stopLog t ++ (messagesRun p chrono srcIp config ms).log),
        (messagesRun p chrono srcIp config ms).outcome⟩ := by
  obtain ⟨rfl, hms, -⟩ := splits_iff.mp h
  rw [processUdpBytesToKafka, packetToFrames_eq h, Run.mk_ok_bind,
    each_viewsOf p chrono srcIp config hms t hlen]
  rfl

theorem datagram_returns_iff :
    (processUdpBytesToKafka p chrono u srcIp config).Returns ↔
      ∀ m ∈ ms, (messageRun p chrono srcIp config m).Returns := by
  rw [processUdpBytesToKafka_eq p chrono srcIp config h hlen]
  exact Run.each_returns_iff _ ms

theorem datagram_sent :
    sent (processUdpBytesToKafka p chrono u srcIp config).log =
      sent (messagesRun p chrono srcIp config ms).log := by
  rw [processUdpBytesToKafka_eq p chrono srcIp config h hlen, sent_append, sent_append, stopLog_sent]
  rfl

end Datagram

/-- The run over a datagram is a run over the views that the framing returns. -/
theorem exists_frames {u : List UInt8} (hu : u.length ≤ isizeMax) : ∃ views,
    (packetToFrames u).outcome = .ok views ∧
    (∀ view ∈ views, Accepted view.content ∧ view.content.length ≤ isizeMax) ∧
    (processUdpBytesToKafka p chrono u srcIp config).outcome =
      (Run.each (processFrame p chrono srcIp config) views).outcome ∧
    sent (processUdpBytesToKafka p chrono u srcIp config).log =
      sent (Run.each (processFrame p chrono srcIp config) views).log := by
  have hs := messages_splits (d := udpDelimiter) u
  have hframes := packetToFrames_eq hs
  obtain ⟨hcut, hms, -⟩ := splits_iff.mp hs
  refine ⟨_, by rw [hframes], fun view hv => ?_, ?_, ?_⟩
  · obtain ⟨ha, hle⟩ := viewsOf_accepted hms _ hv
    rw [← hcut] at hle
    exact ⟨ha, Nat.le_trans hle hu⟩
  · rw [processUdpBytesToKafka, hframes, Run.mk_ok_bind]
    rfl
  · rw [processUdpBytesToKafka, hframes, Run.mk_ok_bind]
    change sent (receivedLog u ++ (stopLog _ ++ _)) = _
    rw [sent_append, sent_append, stopLog_sent]
    rfl

theorem messagesRun_of_returns {ms : List (List UInt8)}
    (h : ∀ m ∈ ms, (messageRun p chrono srcIp config m).Returns) :
    messagesRun p chrono srcIp config ms =
      ⟨ms.flatMap fun m => (messageRun p chrono srcIp config m).log, .ok ()⟩ :=
  Run.each_of_returns _ h

theorem splits_message {m : List UInt8} (h : Complete udpDelimiter m) :
    Splits udpDelimiter m [m] [] := by
  have hs := Splits.message h (.rest size_nil)
  rwa [List.append_nil] at hs

end EventUdpToKafka.DatagramRuns
