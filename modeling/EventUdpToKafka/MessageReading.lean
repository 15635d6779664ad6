import EventUdpToKafka.EventArithmetic
import EventUdpToKafka.SelfDelimiting

set_option autoImplicit false

/-!
# What an accepted message says

On a string of 56 bytes or more every accessor of the fixed header returns, with
a value given here by plain byte positions. An accepted string is a message by
its own bytes alone, so `UdpMessageView::new` delimits messages.
-/
namespace EventUdpToKafka.MessageReading
open MachineWords BigEndianBytes GpsClock Config UdpMessage EventArithmetic SelfDelimiting

def headerWords (m : List UInt8) : ℕ := (byteAt m 7).toNat

def declaredWords (m : List UInt8) : ℕ := ((u32FromBeBytes (bytes4At m 32) >>> 16) &&& 0xFFF).toNat

def declaredBytes (m : List UInt8) : ℕ := declaredWords m * 4

theorem declaredWords_eq (m : List UInt8) :
    declaredWords m = ((byteAt m 32).toNat * 256 + (byteAt m 33).toNat) % 2 ^ 12 := by
  have h0 := (byteAt m 32).toNat_lt
  have h1 := (byteAt m 33).toNat_lt
  have h2 := (byteAt m 34).toNat_lt
  have h3 := (byteAt m 35).toNat_lt
  rw [declaredWords, UInt32.toNat_and, UInt32.toNat_shiftRight, u32FromBeBytes_toNat, beNat_four]
  change _ >>> 16 &&& (2 ^ 12 - 1) = _
  rw [Nat.and_two_pow_sub_one_eq_mod, Nat.shiftRight_eq_div_pow]
  simp only [bytes4At, Nat.reduceAdd]
  omega

def Marked (m : List UInt8) : Prop := ∀ i < 5, byteAt m i = 0xFF

instance (m : List UInt8) : Decidable (Marked m) := inferInstanceAs (Decidable (∀ i < 5, _))

theorem marked_iff {content : List UInt8} (h : 56 ≤ content.length) :
    headerMarker.isPrefixOf content ∧ content[wordSize]? = some 0xFF ↔ Marked content := by
  match content, h with
  | b0 :: b1 :: b2 :: b3 :: b4 :: rest, _ =>
    have hbytes : Marked (b0 :: b1 :: b2 :: b3 :: b4 :: rest) ↔
        b0 = 0xFF ∧ b1 = 0xFF ∧ b2 = 0xFF ∧ b3 = 0xFF ∧ b4 = 0xFF := by
      constructor
      · intro hm
        exact ⟨hm 0 (by decide), hm 1 (by decide), hm 2 (by decide), hm 3 (by decide),
          hm 4 (by decide)⟩
      · rintro ⟨h0, h1, h2, h3, h4⟩ i hi
        match i, hi with
        | 0, _ => exact h0
        | 1, _ => exact h1
        | 2, _ => exact h2
        | 3, _ => exact h3
        | 4, _ => exact h4
    rw [hbytes]
    simp [headerMarker, wordSize, List.isPrefixOf, and_assoc, @eq_comm UInt8 255]

/-- `UdpMessageView::new` on plain values. -/
def classify (content : List UInt8) : Except InvalidMessageReason UdpMessageView :=
  if content.length < 56 then .error .contentTooShort
  else if ¬ Marked content then .error .missingHeaderMarker
  else if declaredBytes content < 56 then .error (.declaredLengthTooShort (declaredBytes content))
  else if content.length < declaredBytes content then
    .error (.declaredLengthTooLong (declaredBytes content))
  else .ok ⟨content⟩

def packetTypeOf (flags : UInt8) : UdpPacketType :=
  match flags with
  | 0b11111111 => .neutronData
  | 0b11111110 => .endOfRun
  | 0b11111101 => .vetoFrame
  | _ => .invalid

section Accessors
variable {content : List UInt8} (h : 56 ≤ content.length)
include h

theorem headerWord_eq {n : ℕ} (hn : n ≤ 13) :
    (⟨content⟩ : UdpMessageView).headerWord n = .ok (bytes4At content (4 * n)) := by
  have hle : wordSize * (n + 1) ≤ content.length := by simp only [wordSize]; omega
  have hslice : slice content (wordSize * n) (wordSize * (n + 1)) =
      .ok ((content.take (4 * n + 4)).drop (4 * n)) := slice_of_le (Nat.mul_le_mul_left _ (by omega)) hle
  have hwin := bytes4_tryFrom_window (l := content) (i := 4 * n) (by omega)
  rw [UdpMessageView.headerWord, assert, if_pos (by omega), ok_bind, hslice, ok_bind, hwin]
  rfl

theorem totalLengthWords_eq :
    (⟨content⟩ : UdpMessageView).totalLengthWords = .ok (declaredWords content) := by
  rw [UdpMessageView.totalLengthWords, headerWord_eq h (by omega)]
  rfl

theorem totalLengthBytes_eq :
    (⟨content⟩ : UdpMessageView).totalLengthBytes = .ok (declaredBytes content) := by
  rw [UdpMessageView.totalLengthBytes, totalLengthWords_eq h]
  rfl

theorem headerLengthWords_eq :
    (⟨content⟩ : UdpMessageView).headerLengthWords = .ok (headerWords content) := by
  rw [UdpMessageView.headerLengthWords, headerWord_eq h (by omega)]
  rfl

theorem headerLengthBytes_eq :
    (⟨content⟩ : UdpMessageView).headerLengthBytes = .ok (headerWords content * 4) := by
  rw [UdpMessageView.headerLengthBytes, headerLengthWords_eq h]
  rfl

theorem packetFormatCode_eq : (⟨content⟩ : UdpMessageView).packetFormatCode =
    .ok (u16FromBeBytes (byteAt content 5) (byteAt content 6)) := by
  rw [UdpMessageView.packetFormatCode, headerWord_eq h (by omega)]
  rfl

theorem pppPerFrame_eq (config : EventUdpToKafkaConfig) :
    (⟨content⟩ : UdpMessageView).pppPerFrame config =
      .ok ((byteAt content 35).toFloat32 * config.rawToUahScalingOrDefault) := by
  rw [UdpMessageView.pppPerFrame, UdpMessageView.rawPppPerFrame, headerWord_eq h (by omega)]
  rfl

theorem vetoes_eq :
    (⟨content⟩ : UdpMessageView).vetoes = .ok (u32FromBeBytes (bytes4At content 36)) := by
  rw [UdpMessageView.vetoes, headerWord_eq h (by omega)]
  rfl

theorem periodNumber_eq : (⟨content⟩ : UdpMessageView).periodNumber =
    .ok (u16FromBeBytes (byteAt content 24) (byteAt content 25)) := by
  rw [UdpMessageView.periodNumber, headerWord_eq h (by omega)]
  rfl

theorem frameSyncDelayUs_eq :
    (⟨content⟩ : UdpMessageView).frameSyncDelayUs = .ok (u32FromBeBytes (bytes4At content 48)) := by
  rw [UdpMessageView.frameSyncDelayUs, headerWord_eq h (by omega)]
  rfl

theorem gpsTime_eq : (⟨content⟩ : UdpMessageView).gpsTime =
    .ok (fromPackedRepr (u64FromBeBytes (bytes8At content 12))) := by
  have hslice : slice content (3 * 4) (5 * 4) = .ok ((content.take (12 + 8)).drop 12) :=
    slice_of_le (by omega) (by omega)
  rw [UdpMessageView.gpsTime, hslice, ok_bind, bytes8_tryFrom_window (by omega)]
  rfl

theorem packetType_eq :
    (⟨content⟩ : UdpMessageView).packetType = .ok (packetTypeOf (byteAt content 11)) := by
  rw [UdpMessageView.packetType, UdpMessageView.headerFlags, headerWord_eq h (by omega)]
  rfl

end Accessors

theorem newView_eq (content : List UInt8) : newView content = .ok (classify content) := by
  rw [newView, classify]
  change (if content.length < 56 then _ else _) = _
  by_cases hlen : content.length < 56
  · rw [if_pos hlen, if_pos hlen]
  · have h : 56 ≤ content.length := Nat.le_of_not_lt hlen
    rw [if_neg hlen, if_neg hlen]
    by_cases hm : Marked content
    · obtain ⟨hp, hb⟩ := (marked_iff h).mpr hm
      rw [if_neg (not_not.mpr hp), if_neg (not_not.mpr hb), if_neg (not_not.mpr hm)]
      dsimp only
      rw [totalLengthBytes_eq h, ok_bind]
      change (if declaredBytes content < 56 then _ else _) = _
      split
      · rfl
      · split <;> rfl
    · rw [if_pos hm]
      by_cases hp : headerMarker.isPrefixOf content
      · rw [if_neg (not_not.mpr hp), if_pos fun hb => hm ((marked_iff h).mp ⟨hp, hb⟩)]
      · rw [if_pos hp]

/-- What `UdpMessageView::new` checks. -/
structure Accepted (content : List UInt8) : Prop where
  long : 56 ≤ content.length
  marked : Marked content
  declared_ge : 56 ≤ declaredBytes content
  declared_le : declaredBytes content ≤ content.length

instance (content : List UInt8) : Decidable (Accepted content) :=
  decidable_of_iff (56 ≤ content.length ∧ Marked content ∧ 56 ≤ declaredBytes content ∧
    declaredBytes content ≤ content.length)
    ⟨fun ⟨h0, h1, h2, h3⟩ => ⟨h0, h1, h2, h3⟩, fun ⟨h0, h1, h2, h3⟩ => ⟨h0, h1, h2, h3⟩⟩

theorem classify_accepted {content : List UInt8} (h : Accepted content) :
    classify content = .ok ⟨content⟩ := by
  rw [classify, if_neg (Nat.not_lt.mpr h.long), if_neg (not_not.mpr h.marked),
    if_neg (Nat.not_lt.mpr h.declared_ge), if_neg (Nat.not_lt.mpr h.declared_le)]

theorem classify_ok {content : List UInt8} {view : UdpMessageView}
    (h : classify content = .ok view) : Accepted content ∧ view = ⟨content⟩ := by
  unfold classify at h
  split_ifs at h with hl hm hs ht
  exact ⟨⟨Nat.le_of_not_lt hl, hm, Nat.le_of_not_lt hs, Nat.le_of_not_lt ht⟩,
    (Except.ok.inj h).symm⟩

def messageSize (content : List UInt8) : Option ℕ :=
  if Accepted content then some (declaredBytes content) else none

theorem messageSize_eq_some {content : List UInt8} {n : ℕ} (h : messageSize content = some n) :
    Accepted content ∧ n = declaredBytes content := by
  rw [messageSize] at h
  split at h
  · rename_i ha
    exact ⟨ha, (Option.some.inj h).symm⟩
  · cases h

theorem messageSize_eq_none {content : List UInt8} :
    messageSize content = none ↔ ¬ Accepted content := by
  rw [messageSize]
  split <;> simp only [*, reduceCtorEq, not_true_eq_false, not_false_eq_true]

/-- The checks read nothing past the declared end. -/
theorem accepted_local {content : List UInt8} (h : Accepted content) (t : List UInt8) :
    Accepted (content.take (declaredBytes content) ++ t) ∧
      declaredBytes (content.take (declaredBytes content) ++ t) = declaredBytes content := by
  have hge := h.declared_ge
  have hlen : (content.take (declaredBytes content)).length = declaredBytes content := by
    rw [List.length_take, Nat.min_eq_left h.declared_le]
  have hbyte : ∀ i < 56, byteAt (content.take (declaredBytes content) ++ t) i = byteAt content i := by
    intro i hi
    rw [byteAt_append_left (by omega)]
    conv_rhs => rw [← List.take_append_drop (declaredBytes content) content]
    rw [byteAt_append_left (by omega)]
  have hdecl : declaredBytes (content.take (declaredBytes content) ++ t) = declaredBytes content := by
    rw [declaredBytes, declaredWords_eq, hbyte 32 (by omega), hbyte 33 (by omega),
      ← declaredWords_eq]
    rfl
  refine ⟨⟨?_, ?_, by rw [hdecl]; exact hge, ?_⟩, hdecl⟩
  · rw [List.length_append]; omega
  · intro i hi
    rw [hbyte i (by omega)]
    exact h.marked i hi
  · rw [hdecl, List.length_append]; omega

def udpDelimiter : Delimiter UInt8 where
  size := messageSize
  size_pos h := by
    obtain ⟨ha, rfl⟩ := messageSize_eq_some h
    exact Nat.lt_of_lt_of_le (by decide) ha.declared_ge
  size_le h := by
    obtain ⟨ha, rfl⟩ := messageSize_eq_some h
    exact ha.declared_le
  size_local h t := by
    obtain ⟨ha, rfl⟩ := messageSize_eq_some h
    obtain ⟨hl, hd⟩ := accepted_local ha t
    rw [messageSize, if_pos hl, hd]

theorem complete_iff {m : List UInt8} :
    Complete udpDelimiter m ↔ Accepted m ∧ declaredBytes m = m.length := by
  constructor
  · intro h
    obtain ⟨ha, hd⟩ := messageSize_eq_some h
    exact ⟨ha, hd.symm⟩
  · rintro ⟨ha, hd⟩
    change messageSize m = some m.length
    rw [messageSize, if_pos ha, hd]

theorem accepted_append {m : List UInt8} (h : Complete udpDelimiter m) (t : List UInt8) :
    Accepted (m ++ t) := (messageSize_eq_some (h.size_append t)).1

/-- The header length is one that the two variable slices can be taken with. -/
def HeaderFits (m : List UInt8) : Prop := 14 ≤ headerWords m ∧ headerWords m ≤ declaredWords m

instance (m : List UInt8) : Decidable (HeaderFits m) := inferInstanceAs (Decidable (_ ∧ _))

def boardBytes (m : List UInt8) : List UInt8 := (m.take (headerWords m * 4 - 4)).drop 52

def eventBytes (m : List UInt8) : List UInt8 := (m.take (declaredBytes m)).drop (headerWords m * 4)

section Slices
variable {content : List UInt8} (h : Accepted content)
include h

theorem boardSpecificParameters_eq (p : Profile) (hf : HeaderFits content) :
    (⟨content⟩ : UdpMessageView).boardSpecificParameters p = .ok (boardBytes content) := by
  have hle := h.declared_le
  obtain ⟨hlo, hhi⟩ := hf
  have hbyte := (byteAt content 7).toNat_lt
  unfold declaredBytes headerWords at *
  have hsub : usizeSub p ((byteAt content 7).toNat * 4) wordSize =
      .ok ((byteAt content 7).toNat * 4 - 4) := usizeSub_of_le p (by simp only [wordSize]; omega) (by omega)
  rw [UdpMessageView.boardSpecificParameters, headerLengthBytes_eq h.long, ok_bind]
  simp only [headerWords]
  rw [hsub, ok_bind]
  exact slice_of_le (by simp only [wordSize]; omega) (by omega)

theorem dataBytes_eq (hf : HeaderFits content) :
    (⟨content⟩ : UdpMessageView).dataBytes = .ok (eventBytes content) := by
  rw [UdpMessageView.dataBytes, headerLengthBytes_eq h.long, ok_bind, totalLengthBytes_eq h.long,
    ok_bind]
  exact slice_of_le (Nat.mul_le_mul_right 4 hf.2) h.declared_le

/-- A short header fails in the first slice, also where the subtraction wraps. A header longer than
    its message fails in the second one, if the first has not run past the end of the string. -/
theorem slices_panic (p : Profile) (hlen : content.length ≤ isizeMax) (hf : ¬ HeaderFits content) :
    (⟨content⟩ : UdpMessageView).boardSpecificParameters p = .error .panic ∨
      ∃ bytes, (⟨content⟩ : UdpMessageView).boardSpecificParameters p = .ok bytes ∧
        (⟨content⟩ : UdpMessageView).dataBytes = .error .panic := by
  have hbyte : headerWords content < 2 ^ 8 := (byteAt content 7).toNat_lt
  rw [UdpMessageView.boardSpecificParameters, headerLengthBytes_eq h.long, ok_bind]
  by_cases h0 : headerWords content = 0
  · left
    rw [h0]
    cases p with
    | dev => rfl
    | release =>
      exact slice_of_not fun hc => absurd hc.2 (by simp only [wordSize, isizeMax] at *; omega)
  rw [usizeSub_of_le p (by simp only [wordSize]; omega) (by omega), ok_bind]
  by_cases hs : 13 * wordSize ≤ headerWords content * 4 - wordSize ∧
      headerWords content * 4 - wordSize ≤ content.length
  · right
    refine ⟨_, slice_of_le hs.1 hs.2, ?_⟩
    rw [UdpMessageView.dataBytes, headerLengthBytes_eq h.long, ok_bind, totalLengthBytes_eq h.long,
      ok_bind]
    apply slice_of_not
    rintro ⟨hle, -⟩
    simp only [wordSize, declaredBytes] at hs hle
    exact hf ⟨by omega, by omega⟩
  · exact .inl (slice_of_not hs)

end Slices

/-- Everything that the processing of a message depends on. -/
structure Reading where
  packetType : UdpPacketType
  gpsTime : GpsTime
  formatCode : UInt16
  periodNumber : UInt16
  rawPpp : UInt8
  vetoes : UInt32
  frameSyncDelayUs : UInt32
  /-- The board parameters, when they have the right length, and the event data. It is `none`
      when the header length makes a slice bound fail. -/
  body : Option (Option BoardParameters × List UInt8)

def readMessage (m : List UInt8) : Reading where
  packetType := packetTypeOf (byteAt m 11)
  gpsTime := fromPackedRepr (u64FromBeBytes (bytes8At m 12))
  formatCode := u16FromBeBytes (byteAt m 5) (byteAt m 6)
  periodNumber := u16FromBeBytes (byteAt m 24) (byteAt m 25)
  rawPpp := byteAt m 35
  vetoes := u32FromBeBytes (bytes4At m 36)
  frameSyncDelayUs := u32FromBeBytes (bytes4At m 48)
  body := if HeaderFits m then some (boardParameters (boardBytes m), eventBytes m) else none

section Append
variable {m : List UInt8} (h : Complete udpDelimiter m) (t : List UInt8)
include h

theorem byteAt_message {i : ℕ} (hi : i < 56) : byteAt (m ++ t) i = byteAt m i := by
  have hlong := (complete_iff.mp h).1.long
  exact byteAt_append_left (by omega) t

theorem headerWords_append : headerWords (m ++ t) = headerWords m := by
  rw [headerWords, byteAt_message h t (by omega)]
  rfl

theorem declaredWords_append : declaredWords (m ++ t) = declaredWords m := by
  rw [declaredWords_eq, declaredWords_eq, byteAt_message h t (by omega),
    byteAt_message h t (by omega)]

theorem headerFits_append : HeaderFits (m ++ t) ↔ HeaderFits m := by
  unfold HeaderFits
  rw [headerWords_append h, declaredWords_append h]

theorem readMessage_append : readMessage (m ++ t) = readMessage m := by
  obtain ⟨ha, hd⟩ := complete_iff.mp h
  have hlong := ha.long
  have hbyte : ∀ i < 56, byteAt (m ++ t) i = byteAt m i := fun i hi => byteAt_message h t hi
  have hfits := headerFits_append h t
  have hbody : (if HeaderFits (m ++ t) then
      some (boardParameters (boardBytes (m ++ t)), eventBytes (m ++ t)) else none) =
      if HeaderFits m then some (boardParameters (boardBytes m), eventBytes m) else none := by
    by_cases hf : HeaderFits m
    · have hle : headerWords m * 4 - 4 ≤ m.length := by
        have := hf.2
        unfold declaredBytes at hd
        omega
      have hend : declaredWords m * 4 ≤ m.length := Nat.le_of_eq hd
      rw [if_pos (hfits.mpr hf), if_pos hf, boardBytes, boardBytes, eventBytes, eventBytes,
        declaredBytes, declaredBytes, headerWords_append h, declaredWords_append h,
        List.take_append_of_le_length hle,
        List.take_append_of_le_length hend]
    · rw [if_neg fun hc => hf (hfits.mp hc), if_neg hf]
  simp only [readMessage, hbody, hbyte 5 (by omega), hbyte 6 (by omega), hbyte 11 (by omega),
    hbyte 24 (by omega), hbyte 25 (by omega), hbyte 35 (by omega),
    bytes4At_append_left (show 36 + 4 ≤ m.length by omega) t,
    bytes4At_append_left (show 48 + 4 ≤ m.length by omega) t,
    bytes8At_append_left (show 12 + 8 ≤ m.length by omega) t]

end Append

end EventUdpToKafka.MessageReading
