import EventUdpToKafka.DatagramRuns
import EventUdpToKafka.FrameEmission

set_option autoImplicit false

/-!
# What the output does not depend on

Two runs are compared: of one datagram from two sources, and of two datagrams that
differ in bits the code never looks at.
-/
namespace EventUdpToKafka.Noninterference
open LoggedRun MachineWords BigEndianBytes GpsClock Config UdpMessage Metrics EventArithmetic
open DataProcessing SelfDelimiting MessageReading FrameProcessing PacketFraming DatagramRuns
open FrameEmission GpsInstants Testing

/-- A message without what only the streaming control board may set. -/
def erase : KafkaMessage → KafkaMessage
  | .pu00 m => .pu00 { m with periodNumber := none, protonCharge := none }
  | .ev44 m => .ev44 m

def ControlFields (controlBoard : Bool) : KafkaMessage → Prop
  | .pu00 m => m.periodNumber.isSome = controlBoard ∧ m.protonCharge.isSome = controlBoard
  | .ev44 _ => True

section Sources
variable (p : Profile) (chrono : Chrono) (scaling : Float32) (r : Reading)

theorem bodyRun_erase (time : UInt64) (d : Option Decoding) :
    (sent (bodyRun time d).log).map erase = sent (bodyRun time d).log := by
  rcases bodyRun_sent time d with h | ⟨events, h⟩ <;> rw [h] <;> rfl

theorem frameRun_erase :
    (frameRun p chrono true scaling r).outcome = (frameRun p chrono false scaling r).outcome ∧
      (sent (frameRun p chrono true scaling r).log).map erase =
        sent (frameRun p chrono false scaling r).log := by
  rw [frameRun, frameRun]
  split
  · rw [neutronRun, neutronRun]
    split
    · exact ⟨rfl, rfl⟩
    · exact ⟨rfl, rfl⟩
    · refine ⟨rfl, ?_⟩
      rw [sent_increment, sent_increment, timedRun_sent, timedRun_sent, List.map_cons,
        bodyRun_erase]
      rfl
  · exact ⟨rfl, rfl⟩

theorem frameRun_controlFields (controlBoard : Bool) {message : KafkaMessage}
    (h : message ∈ sent (frameRun p chrono controlBoard scaling r).log) :
    ControlFields controlBoard message := by
  rcases frameRun_cases p chrono controlBoard scaling r with ⟨-, hr⟩ | ⟨-, s, -, hr⟩ | ⟨-, -, hr⟩ |
    ⟨-, time, -, hr⟩ <;> rw [hr] at h
  · cases h
  · cases h
  · cases h
  · rw [sent_increment, timedRun_sent] at h
    rcases List.mem_cons.mp h with rfl | h
    · cases controlBoard <;> exact ⟨rfl, rfl⟩
    · rcases bodyRun_sent time (decoding p r) with hb | ⟨events, hb⟩ <;> rw [hb] at h
      · cases h
      · rw [List.mem_singleton.mp h]
        exact trivial

end Sources

/-- Bytes of a message that the code never looks at. A source that is not the control board may
    also put anything into the period number and the protons per pulse. -/
def FreeByte (controlBoard : Bool) (m : List UInt8) (i : ℕ) : Prop :=
  (8 ≤ i ∧ i ≤ 10) ∨ (20 ≤ i ∧ i ≤ 23) ∨ (26 ≤ i ∧ i ≤ 31) ∨ i = 34 ∨ (40 ≤ i ∧ i ≤ 47) ∨
    (headerWords m * 4 - 4 ≤ i ∧ i < headerWords m * 4) ∨
    (headerWords m = 16 ∧ (i = 52 ∨ i = 54)) ∨
    (controlBoard = false ∧ (i = 24 ∨ i = 25 ∨ i = 35))

/-- Bytes that differ in free bits. Only the low half of byte 32 belongs to the length. -/
def FreeChange (controlBoard : Bool) (m : List UInt8) (i : ℕ) (x y : UInt8) : Prop :=
  FreeByte controlBoard m i ∨ i = 32 ∧ x &&& 0x0F = y &&& 0x0F

/-- Datagrams that differ in free bits of messages with a sound header length. -/
def Variant (controlBoard : Bool) (u u' : List UInt8) : Prop :=
  u'.length = u.length ∧ ∀ i, byteAt u i = byteAt u' i ∨
    ∃ o m, (o, m) ∈ located 0 (messages udpDelimiter u) ∧ HeaderFits m ∧ o ≤ i ∧
      i < o + m.length ∧ FreeChange controlBoard m (i - o) (byteAt u i) (byteAt u' i)

structure Similar (controlBoard : Bool) (m m' : List UInt8) : Prop where
  length : m'.length = m.length
  bytes : ∀ i < m.length, byteAt m i = byteAt m' i ∨
    HeaderFits m ∧ FreeChange controlBoard m i (byteAt m i) (byteAt m' i)

theorem similar_of_located {controlBoard : Bool} {ms : List (List UInt8)} {t l' : List UInt8}
    (o : ℕ) (hlen : l'.length = (ms.flatten ++ t).length)
    (h : ∀ i, byteAt (ms.flatten ++ t) i = byteAt l' i ∨
      ∃ q m, (q, m) ∈ located o ms ∧ HeaderFits m ∧ q ≤ o + i ∧ o + i < q + m.length ∧
        FreeChange controlBoard m (o + i - q) (byteAt (ms.flatten ++ t) i) (byteAt l' i)) :
    ∃ ms', l' = ms'.flatten ++ t ∧ List.Forall₂ (Similar controlBoard) ms ms' := by
  induction ms generalizing o l' with
  | nil =>
    refine ⟨[], (eq_of_byteAt hlen fun i _ => ?_).symm, .nil⟩
    rcases h i with he | ⟨q, m, hmem, -⟩
    · exact he
    · exact absurd hmem List.not_mem_nil
  | cons m ms ih =>
    rw [List.flatten_cons, List.append_assoc] at hlen h
    have hlong : m.length ≤ l'.length := by
      rw [hlen, List.length_append]
      omega
    have htail : (l'.drop m.length).length = (ms.flatten ++ t).length := by
      rw [List.length_drop, hlen, List.length_append, Nat.add_sub_cancel_left]
    obtain ⟨ms', hl, hsim⟩ := ih (o + m.length) htail fun i => by
      have hi := h (m.length + i)
      rw [byteAt_append_right, ← byteAt_drop l', ← Nat.add_assoc] at hi
      refine hi.imp_right fun ⟨q, m', hmem, hf, hlo, hhi, hfree⟩ => ?_
      rcases List.mem_cons.mp hmem with he | hmem
      · cases he
        omega
      · exact ⟨q, m', hmem, hf, hlo, hhi, hfree⟩
    refine ⟨l'.take m.length :: ms', ?_, .cons ⟨List.length_take_of_le hlong, fun i hi => ?_⟩ hsim⟩
    · rw [List.flatten_cons, List.append_assoc, ← hl, List.take_append_drop]
    · have hb := h i
      rw [byteAt_append_left hi, ← byteAt_take hi (l := l')] at hb
      refine hb.imp_right fun ⟨q, m', hmem, hf, hlo, hhi, hfree⟩ => ?_
      rcases List.mem_cons.mp hmem with he | hmem
      · cases he
        rw [Nat.add_sub_cancel_left] at hfree
        exact ⟨hf, hfree⟩
      · have hoff := located_offset_le hmem
        omega

def visible (controlBoard : Bool) (r : Reading) : Reading :=
  if controlBoard then r else { r with periodNumber := 0, rawPpp := 0 }

theorem frameRun_visible (p : Profile) (chrono : Chrono) (controlBoard : Bool) (scaling : Float32)
    (r : Reading) : frameRun p chrono controlBoard scaling (visible controlBoard r) =
      frameRun p chrono controlBoard scaling r := by
  cases controlBoard <;> rfl

section Similar
variable {controlBoard : Bool} {m m' : List UInt8} (hs : Similar controlBoard m m')
include hs

theorem Similar.eq_of_not_headerFits (hf : ¬ HeaderFits m) : m' = m :=
  (eq_of_byteAt hs.length fun i hi => (hs.bytes i hi).resolve_right fun h => hf h.1).symm

theorem Similar.byteAt_eq {i : ℕ} (hi : i < m.length) (h32 : i ≠ 32)
    (hfree : ¬ FreeByte controlBoard m i) : byteAt m' i = byteAt m i :=
  ((hs.bytes i hi).resolve_right fun ⟨_, hc⟩ => hc.elim hfree fun hn => h32 hn.1).symm

variable (h : Complete udpDelimiter m) (hf : HeaderFits m)
include h hf

theorem Similar.header {i : ℕ} (hi : i < 8 ∨ 11 ≤ i ∧ i ≤ 19 ∨ i = 33 ∨ 36 ≤ i ∧ i ≤ 39 ∨
    48 ≤ i ∧ i ≤ 51) : byteAt m' i = byteAt m i := by
  have hlong := (complete_iff.mp h).1.long
  have hlo := hf.1
  apply hs.byteAt_eq (by omega) (by omega)
  unfold FreeByte
  omega

theorem Similar.headerWords_eq : headerWords m' = headerWords m := by
  rw [headerWords, hs.header h hf (by omega)]
  rfl

theorem Similar.declaredWords_eq : declaredWords m' = declaredWords m := by
  have hlong := (complete_iff.mp h).1.long
  have hlo := hf.1
  have hlow {x y : UInt8} (hxy : x &&& 0x0F = y &&& 0x0F) : x.toNat % 2 ^ 4 = y.toNat % 2 ^ 4 := by
    have hn := congrArg UInt8.toNat hxy
    rw [UInt8.toNat_and, UInt8.toNat_and] at hn
    rwa [← Nat.and_two_pow_sub_one_eq_mod, ← Nat.and_two_pow_sub_one_eq_mod]
  have h32 : (byteAt m 32).toNat % 2 ^ 4 = (byteAt m' 32).toNat % 2 ^ 4 := by
    rcases hs.bytes 32 (by omega) with he | ⟨-, hfree | ⟨-, he⟩⟩
    · rw [he]
    · unfold FreeByte at hfree
      omega
    · exact hlow he
  have h33 : byteAt m' 33 = byteAt m 33 := hs.header h hf (by omega)
  rw [MessageReading.declaredWords_eq, MessageReading.declaredWords_eq, h33]
  omega

theorem Similar.headerFits : HeaderFits m' := by
  unfold HeaderFits
  rwa [hs.headerWords_eq h hf, hs.declaredWords_eq h hf]

theorem Similar.complete : Complete udpDelimiter m' := by
  obtain ⟨ha, hd⟩ := complete_iff.mp h
  have hdeclared : declaredBytes m' = m'.length := by
    rw [hs.length, ← hd, declaredBytes, hs.declaredWords_eq h hf]
    rfl
  have hge := ha.declared_ge
  refine complete_iff.mpr ⟨⟨?_, fun i hi => ?_, ?_, Nat.le_of_eq hdeclared⟩, hdeclared⟩
  · rw [hs.length]
    exact ha.long
  · rw [hs.header h hf (by omega)]
    exact ha.marked i hi
  · rw [hdeclared, hs.length, ← hd]
    exact hge

theorem Similar.boardParameters_eq :
    boardParameters (boardBytes m') = boardParameters (boardBytes m) := by
  obtain ⟨ha, hd⟩ := complete_iff.mp h
  have ha' := (complete_iff.mp (hs.complete h hf)).1
  rw [boardParameters_message ha hf, boardParameters_message ha' (hs.headerFits h hf),
    hs.headerWords_eq h hf]
  split
  · rename_i h16
    have hbyte {i : ℕ} (hi : i = 53 ∨ i = 55 ∨ 56 ≤ i ∧ i < 60) : byteAt m' i = byteAt m i := by
      have hhi := hf.2
      unfold declaredBytes at hd
      apply hs.byteAt_eq (by omega) (by omega)
      unfold FreeByte
      omega
    have hoffset : bytes4At m' 56 = bytes4At m 56 := by
      simp (disch := omega) only [bytes4At, hbyte]
    rw [hbyte (by omega), hbyte (by omega), hoffset]
  · rfl

theorem Similar.eventBytes_eq : eventBytes m' = eventBytes m := by
  obtain ⟨ha, hd⟩ := complete_iff.mp h
  obtain ⟨hlo, hhi⟩ := hf
  unfold declaredBytes at hd
  have hend : declaredWords m * 4 = headerWords m * 4 + (declaredWords m - headerWords m) * 4 := by
    omega
  rw [eventBytes, eventBytes, declaredBytes, declaredBytes, hs.headerWords_eq h ⟨hlo, hhi⟩,
    hs.declaredWords_eq h ⟨hlo, hhi⟩, hend, window_eq (by rw [hs.length]; omega),
    window_eq (by omega)]
  apply List.map_congr_left
  intro j hj
  have hj := List.mem_range.mp hj
  apply hs.byteAt_eq (by omega) (by omega)
  unfold FreeByte
  omega

theorem Similar.visible_eq :
    visible controlBoard (readMessage m') = visible controlBoard (readMessage m) := by
  have hlong := (complete_iff.mp h).1.long
  have hlo := hf.1
  have hbody : (readMessage m').body = (readMessage m).body := by
    rw [readMessage, readMessage, if_pos hf, if_pos (hs.headerFits h hf),
      hs.boardParameters_eq h hf, hs.eventBytes_eq h hf]
  have hheader {i : ℕ} := hs.header h hf (i := i)
  have hgps : bytes8At m' 12 = bytes8At m 12 := by
    simp (disch := omega) only [bytes8At, hheader]
  have hvetoes : bytes4At m' 36 = bytes4At m 36 := by
    simp (disch := omega) only [bytes4At, hheader]
  have hdelay : bytes4At m' 48 = bytes4At m 48 := by
    simp (disch := omega) only [bytes4At, hheader]
  simp only [readMessage] at hbody
  cases controlBoard with
  | false =>
    simp (disch := omega) only [visible, readMessage, hheader, hgps, hvetoes, hdelay, hbody,
      Bool.false_eq_true, ite_false]
  | true =>
    have hcontrol {i : ℕ} (hi : i = 24 ∨ i = 25 ∨ i = 35) : byteAt m' i = byteAt m i := by
      apply hs.byteAt_eq (by omega) (by omega)
      simp only [FreeByte, Bool.true_eq_false, false_and, or_false]
      omega
    simp (disch := omega) only [visible, readMessage, hheader, hcontrol, hgps, hvetoes, hdelay,
      hbody]

end Similar

section Runs
variable (p : Profile) (chrono : Chrono) (config : EventUdpToKafkaConfig)

theorem messageRun_similar (srcIp : IpAddr) {m m' : List UInt8}
    (hs : Similar (isControlBoard srcIp config) m m') (h : Complete udpDelimiter m) :
    Complete udpDelimiter m' ∧
      messageRun p chrono srcIp config m' = messageRun p chrono srcIp config m := by
  by_cases hf : HeaderFits m
  · refine ⟨hs.complete h hf, ?_⟩
    rw [messageRun, messageRun, ← frameRun_visible, hs.visible_eq h hf, frameRun_visible]
  · rw [hs.eq_of_not_headerFits hf]
    exact ⟨h, rfl⟩

theorem messagesRun_similar (srcIp : IpAddr) {ms ms' : List (List UInt8)}
    (hs : List.Forall₂ (Similar (isControlBoard srcIp config)) ms ms')
    (h : ∀ m ∈ ms, Complete udpDelimiter m) : (∀ m ∈ ms', Complete udpDelimiter m) ∧
      messagesRun p chrono srcIp config ms' = messagesRun p chrono srcIp config ms := by
  induction hs with
  | nil => exact ⟨h, rfl⟩
  | cons hm _ ih =>
    obtain ⟨hfirst, hrest⟩ := List.forall_mem_cons.mp h
    obtain ⟨hc, hr⟩ := messageRun_similar p chrono config srcIp hm hfirst
    obtain ⟨hcs, hrs⟩ := ih hrest
    refine ⟨List.forall_mem_cons.mpr ⟨hc, hcs⟩, ?_⟩
    unfold messagesRun at hrs ⊢
    rw [Run.each, Run.each, hr, hrs]

variable {u : List UInt8} (hu : u.length ≤ isizeMax)
include hu

theorem run_eq_of_variant (srcIp : IpAddr) {u' : List UInt8}
    (h : Variant (isControlBoard srcIp config) u u') :
    processUdpBytesToKafka p chrono u' srcIp config =
      processUdpBytesToKafka p chrono u srcIp config := by
  have hsplit := messages_splits (d := udpDelimiter) u
  obtain ⟨hwhole, hcomplete, ht⟩ := splits_iff.mp hsplit
  obtain ⟨hlen, hbytes⟩ := h
  obtain ⟨ms', hu', hs⟩ := similar_of_located 0 (hlen.trans (congrArg List.length hwhole))
    fun i => by simpa only [← hwhole, Nat.zero_add] using hbytes i
  obtain ⟨hcomplete', hrun⟩ := messagesRun_similar p chrono config srcIp hs hcomplete
  have hsplit' : Splits udpDelimiter u' ms' (remainder udpDelimiter u) :=
    splits_iff.mpr ⟨hu', hcomplete', ht⟩
  rw [processUdpBytesToKafka_eq p chrono srcIp config hsplit (.inl hu),
    processUdpBytesToKafka_eq p chrono srcIp config hsplit' (.inl (hlen ▸ hu)), hrun, receivedLog,
    receivedLog, hlen]

theorem run_eq_of_not_controlBoard {srcIp srcIp' : IpAddr}
    (h : isControlBoard srcIp config = isControlBoard srcIp' config) :
    processUdpBytesToKafka p chrono u srcIp config =
      processUdpBytesToKafka p chrono u srcIp' config := by
  have hrun : messageRun p chrono srcIp config = messageRun p chrono srcIp' config := by
    funext m
    rw [messageRun, messageRun, h]
  have hsplit := messages_splits (d := udpDelimiter) u
  rw [processUdpBytesToKafka_eq p chrono srcIp config hsplit (.inl hu),
    processUdpBytesToKafka_eq p chrono srcIp' config hsplit (.inl hu), messagesRun, messagesRun, hrun]

theorem sent_erase {srcIp srcIp' : IpAddr} (h : isControlBoard srcIp config = true)
    (h' : isControlBoard srcIp' config = false) :
    (sent (processUdpBytesToKafka p chrono u srcIp config).log).map erase =
      sent (processUdpBytesToKafka p chrono u srcIp' config).log := by
  have hsplit := messages_splits (d := udpDelimiter) u
  rw [datagram_sent p chrono srcIp config hsplit (.inl hu),
    datagram_sent p chrono srcIp' config hsplit (.inl hu)]
  refine (Run.each_related _ (R := fun l l' => (sent l).map erase = sent l') rfl ?_ fun m _ => ?_).2
  · intro a b c d hab hcd
    rw [sent_append, sent_append, List.map_append, hab, hcd]
  · rw [messageRun, messageRun, h, h']
    exact frameRun_erase p chrono _ _

theorem sent_controlFields (srcIp : IpAddr) {message : KafkaMessage}
    (h : message ∈ sent (processUdpBytesToKafka p chrono u srcIp config).log) :
    ControlFields (isControlBoard srcIp config) message := by
  rw [datagram_sent p chrono srcIp config (messages_splits u) (.inl hu), mem_sent] at h
  obtain ⟨m, -, hm⟩ := Run.exists_mem_of_mem_each _ h
  exact frameRun_controlFields p chrono _ _ _ (mem_sent.mpr hm)

end Runs

theorem erase_eq_ev44 {message : KafkaMessage} {events : Event44Message} :
    erase message = .ev44 events ↔ message = .ev44 events := by
  cases message with
  | pu00 m => exact iff_of_false KafkaMessage.noConfusion KafkaMessage.noConfusion
  | ev44 m => rfl

/-- The source of a datagram shows in the period numbers and the proton charges only, which the
    control board alone sets, and the free bits of a datagram show nowhere. -/
theorem noninterference (p : Profile) (chrono : Chrono) (config : EventUdpToKafkaConfig)
    {u : List UInt8} (hu : u.length ≤ isizeMax) :
    (∀ srcIp srcIp', srcIp ≠ config.streamingControlBoardIp →
      srcIp' ≠ config.streamingControlBoardIp →
      processUdpBytesToKafka p chrono u srcIp config =
        processUdpBytesToKafka p chrono u srcIp' config) ∧
    (∀ srcIp srcIp' messages messages', srcIp = config.streamingControlBoardIp →
      srcIp' ≠ config.streamingControlBoardIp →
      messages = sent (processUdpBytesToKafka p chrono u srcIp config).log →
      messages' = sent (processUdpBytesToKafka p chrono u srcIp' config).log →
      messages.length = messages'.length ∧
      (∀ (i : ℕ) events, messages[i]? = some (.ev44 events) ↔ messages'[i]? = some (.ev44 events)) ∧
      messages.map erase = messages'.map erase ∧
      (∀ message ∈ messages, ControlFields true message) ∧
      ∀ message ∈ messages', ControlFields false message) ∧
    ∀ srcIp u', Variant (isControlBoard srcIp config) u u' →
      processUdpBytesToKafka p chrono u' srcIp config =
        processUdpBytesToKafka p chrono u srcIp config := by
  have hsame {srcIp : IpAddr} (h : srcIp = config.streamingControlBoardIp) :
      isControlBoard srcIp config = true := decide_eq_true h
  have hother {srcIp : IpAddr} (h : srcIp ≠ config.streamingControlBoardIp) :
      isControlBoard srcIp config = false := decide_eq_false h
  refine ⟨fun srcIp srcIp' h h' => ?_, fun srcIp srcIp' messages messages' h h' hm hm' => ?_,
    fun srcIp u' h => run_eq_of_variant p chrono config hu srcIp h⟩
  · exact run_eq_of_not_controlBoard p chrono config hu ((hother h).trans (hother h').symm)
  · have herase : messages.map erase = messages' := by
      rw [hm, hm']
      exact sent_erase p chrono config hu (hsame h) (hother h')
    have hidem (l : List KafkaMessage) : (l.map erase).map erase = l.map erase := by
      rw [List.map_map]
      exact List.map_congr_left fun message _ => by cases message <;> rfl
    refine ⟨?_, fun i events => ?_, ?_, fun message hmem => ?_, fun message hmem => ?_⟩
    · rw [← herase, List.length_map]
    · rw [← herase, List.getElem?_map, Option.map_eq_some_iff]
      simp only [erase_eq_ev44, exists_eq_right]
    · rw [← herase, hidem]
    · rw [← hsame h]
      exact sent_controlFields p chrono config hu srcIp (hm ▸ hmem)
    · rw [← hother h']
      exact sent_controlFields p chrono config hu srcIp' (hm' ▸ hmem)

theorem noninterference_fake :
    processUdpBytesToKafka .release gregorianChrono ((makeUdpPacket packetFormat1 2 123).set 8 7)
        (.v4 0) .makeTestingConfig =
      processUdpBytesToKafka .release gregorianChrono (makeUdpPacket packetFormat1 2 123)
        (.v4 0) .makeTestingConfig := by
  refine (noninterference .release gregorianChrono .makeTestingConfig (by decide +kernel)).2.2 _ _
    ⟨List.length_set, fun i => ?_⟩
  by_cases hi : i = 8
  · subst hi
    exact .inr ⟨0, makeUdpPacket packetFormat1 2 123, by decide +kernel, by decide +kernel,
      by decide, by decide +kernel, .inl (.inl ⟨by decide, by decide⟩)⟩
  · left
    simp only [byteAt, List.getD_eq_getElem?_getD, List.getElem?_set_ne (Ne.symm hi)]

end EventUdpToKafka.Noninterference
