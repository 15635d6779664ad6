import EventUdpToKafka.DataProcessing
import EventUdpToKafka.MessageReading
import EventUdpToKafka.Testing

set_option autoImplicit false

/-!
# What the framing loop returns

The loop over a datagram cuts it as the delimiter does. It stops at the remainder
and logs what that remainder is rejected for.
-/
namespace EventUdpToKafka.PacketFraming
open LoggedRun MachineWords BigEndianBytes UdpMessage Metrics DataProcessing
open SelfDelimiting MessageReading EventDecoding.PacketFormat1 Testing

/-- A string that `UdpMessageView::new` accepts and that declares its own length. -/
def CompleteMessage (m : List UInt8) : Prop :=
  newView m = .ok (.ok ⟨m⟩) ∧ (⟨m⟩ : UdpMessageView).totalLengthBytes = .ok m.length

/-- An end of a datagram that holds no further message. -/
def Tail (t : List UInt8) : Prop := t = [] ∨ ∃ reason, newView t = .ok (.error reason)

/-- A view's own message, without what follows it in the datagram. -/
def ownBytes (view : UdpMessageView) : Checked (List UInt8) := do
  let length ← view.totalLengthBytes
  return view.content.take length

theorem completeMessage_iff {m : List UInt8} : CompleteMessage m ↔ Complete udpDelimiter m := by
  rw [complete_iff, CompleteMessage, newView_eq]
  constructor
  · rintro ⟨hv, hl⟩
    obtain ⟨ha, -⟩ := classify_ok (Except.ok.inj hv)
    rw [totalLengthBytes_eq ha.long] at hl
    exact ⟨ha, Except.ok.inj hl⟩
  · rintro ⟨ha, hd⟩
    rw [classify_accepted ha, totalLengthBytes_eq ha.long, hd]
    exact ⟨rfl, rfl⟩

theorem not_accepted_nil : ¬ Accepted [] := fun h => absurd h.long (by decide)

theorem tail_iff {t : List UInt8} : Tail t ↔ udpDelimiter.size t = none := by
  change _ ↔ messageSize t = none
  rw [messageSize_eq_none, Tail, newView_eq]
  constructor
  · rintro (rfl | ⟨reason, hr⟩) ha
    · exact not_accepted_nil ha
    · rw [classify_accepted ha] at hr
      cases hr
  · intro hn
    right
    cases hc : classify t with
    | error reason => exact ⟨reason, rfl⟩
    | ok view => exact absurd (classify_ok hc).1 hn

def Decomposes (u : List UInt8) (ms : List (List UInt8)) (t : List UInt8) : Prop :=
  u = ms.flatten ++ t ∧ (∀ m ∈ ms, CompleteMessage m) ∧ Tail t

theorem decomposes_iff {u t : List UInt8} {ms : List (List UInt8)} :
    Decomposes u ms t ↔ Splits udpDelimiter u ms t := by
  simp only [Decomposes, splits_iff, completeMessage_iff, tail_iff]

/-- The views are onto these messages, which lie one behind the other from the front. -/
structure Denotes (u : List UInt8) (views : List UdpMessageView) (ms : List (List UInt8)) : Prop where
  messages : views.map ownBytes = ms.map .ok
  places : views.map UdpMessageView.content = (located 0 ms).map fun p => u.drop p.1

/-- The views onto consecutive messages. Each one runs to the end of the datagram. -/
def viewsOf : List (List UInt8) → List UInt8 → List UdpMessageView
  | [], _ => []
  | m :: ms, t => ⟨m ++ (ms.flatten ++ t)⟩ :: viewsOf ms t

def stopLog (t : List UInt8) : List Effect :=
  match classify t with
  | .error (.declaredLengthTooShort _) =>
    [.increment .incomingUdpInvalidHeaderDeclaredLengthTooShort 1]
  | .error (.declaredLengthTooLong _) =>
    [.increment .incomingUdpInvalidHeaderDeclaredLengthTooLong 1]
  | _ => []

theorem stopLog_sent (t : List UInt8) : sent (stopLog t) = [] := by
  unfold stopLog
  split <;> rfl

theorem framingStep_message {before content : List UInt8} (result : List UdpMessageView)
    (h : Accepted content) :
    framingStep (before ++ content) ⟨before.length, result⟩ =
      pure (.again ⟨before.length + declaredBytes content, result ++ [⟨content⟩]⟩) := by
  have hlong := h.long
  have hlt : before.length < (before ++ content).length := by
    rw [List.length_append]
    omega
  simp only [framingStep, if_pos hlt, getFrom_of_le (Nat.le_of_lt hlt), List.drop_left,
    newView_eq, classify_accepted h, Run.lift_ok_bind, totalLengthBytes_eq hlong]

theorem framingStep_rest {before t : List UInt8} (result : List UdpMessageView)
    (h : ¬ Accepted t) :
    framingStep (before ++ t) ⟨before.length, result⟩ = ⟨stopLog t, .ok (.leave result)⟩ := by
  rw [framingStep]
  by_cases hlt : before.length < (before ++ t).length
  · dsimp only
    rw [if_pos hlt, getFrom_of_le (Nat.le_of_lt hlt), List.drop_left]
    dsimp only
    rw [newView_eq, Run.lift_ok_bind, stopLog]
    cases hc : classify t with
    | ok view => exact absurd (classify_ok hc).1 h
    | error reason => cases reason <;> rfl
  · have ht : t = [] := by
      rw [List.length_append] at hlt
      exact List.eq_nil_of_length_eq_zero (by omega)
    subst ht
    exact if_neg hlt

theorem framing_from {l t : List UInt8} {ms : List (List UInt8)} (h : Splits udpDelimiter l ms t)
    (before : List UInt8) (result : List UdpMessageView) {fuel : ℕ} (hfuel : ms.length < fuel) :
    Run.whileLoop .outOfFuel (framingStep (before ++ l)) fuel ⟨before.length, result⟩ =
      ⟨stopLog t, .ok (result ++ viewsOf ms t)⟩ := by
  induction h generalizing before result fuel with
  | @rest t ht =>
    obtain _ | fuel := fuel
    · exact absurd hfuel (Nat.not_lt_zero _)
    · rw [viewsOf, List.append_nil]
      exact Run.whileLoop_leave _ (framingStep_rest result (messageSize_eq_none.mp ht)) fuel
  | @message m l ms t hm tail ih =>
    obtain _ | fuel := fuel
    · exact absurd hfuel (Nat.not_lt_zero _)
    · have hd : declaredBytes (m ++ l) = m.length :=
        (messageSize_eq_some (hm.size_append l)).2.symm
      have hnext := ih (before ++ m) (result ++ [⟨m ++ l⟩]) (Nat.lt_of_succ_lt_succ hfuel)
      rw [Run.whileLoop_again _ (framingStep_message result (accepted_append hm l)), hd,
        ← List.append_assoc, ← List.length_append, hnext, List.append_assoc, viewsOf,
        ← (splits_iff.mp tail).1]
      rfl

theorem framingLoop_eq {u t : List UInt8} {ms : List (List UInt8)}
    (h : Splits udpDelimiter u ms t) {fuel : ℕ} (hfuel : ms.length < fuel) :
    framingLoop u fuel = ⟨stopLog t, .ok (viewsOf ms t)⟩ := framing_from h [] [] hfuel

theorem messages_length_le {u t : List UInt8} {ms : List (List UInt8)}
    (h : Splits udpDelimiter u ms t) : ms.length ≤ u.length / 56 := by
  apply (Nat.le_div_iff_mul_le (by decide)).mpr
  apply h.length_bound
  intro l n hn
  obtain ⟨ha, rfl⟩ := messageSize_eq_some hn
  exact ha.declared_ge

theorem packetToFrames_eq {u t : List UInt8} {ms : List (List UInt8)}
    (h : Splits udpDelimiter u ms t) : packetToFrames u = ⟨stopLog t, .ok (viewsOf ms t)⟩ := by
  have hle := messages_length_le h
  exact framingLoop_eq h (by omega)

theorem viewsOf_length (ms : List (List UInt8)) (t : List UInt8) :
    (viewsOf ms t).length = ms.length := by
  induction ms with
  | nil => rfl
  | cons m ms ih => rw [viewsOf, List.length_cons, ih, List.length_cons]

theorem viewsOf_accepted {ms : List (List UInt8)} (h : ∀ m ∈ ms, Complete udpDelimiter m)
    (t : List UInt8) {view : UdpMessageView} (hv : view ∈ viewsOf ms t) :
    Accepted view.content ∧ view.content.length ≤ (ms.flatten ++ t).length := by
  induction ms with
  | nil => exact absurd hv List.not_mem_nil
  | cons m ms ih =>
    obtain ⟨hm, hms⟩ := List.forall_mem_cons.mp h
    rw [List.flatten_cons, List.append_assoc]
    rcases List.mem_cons.mp hv with rfl | hv
    · exact ⟨accepted_append hm _, Nat.le_refl _⟩
    · obtain ⟨ha, hle⟩ := ih hms hv
      refine ⟨ha, ?_⟩
      rw [List.length_append]
      omega

theorem ownBytes_append {m : List UInt8} (h : Complete udpDelimiter m) (l : List UInt8) :
    ownBytes ⟨m ++ l⟩ = .ok m := by
  have hd : declaredBytes (m ++ l) = m.length := (messageSize_eq_some (h.size_append l)).2.symm
  rw [ownBytes, totalLengthBytes_eq (accepted_append h l).long, hd, ok_bind, List.take_left]
  rfl

theorem viewsOf_ownBytes {ms : List (List UInt8)} (h : ∀ m ∈ ms, Complete udpDelimiter m)
    (t : List UInt8) : (viewsOf ms t).map ownBytes = ms.map .ok := by
  induction ms with
  | nil => rfl
  | cons m ms ih =>
    obtain ⟨hm, hms⟩ := List.forall_mem_cons.mp h
    rw [viewsOf, List.map_cons, List.map_cons, ownBytes_append hm, ih hms]

theorem viewsOf_content (before : List UInt8) (ms : List (List UInt8)) (t : List UInt8) :
    (viewsOf ms t).map UdpMessageView.content =
      (located before.length ms).map fun p => (before ++ (ms.flatten ++ t)).drop p.1 := by
  induction ms generalizing before with
  | nil => rfl
  | cons m ms ih =>
    have hnext := ih (before ++ m)
    rw [List.length_append] at hnext
    rw [viewsOf, located, List.map_cons, List.map_cons, List.drop_left, hnext, List.flatten_cons,
      List.append_assoc, List.append_assoc]

theorem reached_offset_le {u : List UInt8} {s : Framing}
    (h : Run.Reaches (framingStep u) ⟨0, []⟩ s) : s.offset ≤ u.length := by
  refine h.invariant (fun s => s.offset ≤ u.length) ?_ (Nat.zero_le _)
  rintro ⟨offset, result⟩ s' hs hstep
  obtain ⟨before, content, rfl, rfl⟩ : ∃ before content, u = before ++ content ∧
      offset = before.length :=
    ⟨u.take offset, u.drop offset, (List.take_append_drop _ _).symm,
      (List.length_take_of_le hs).symm⟩
  by_cases ha : Accepted content
  · rw [framingStep_message result ha] at hstep
    cases hstep
    rw [List.length_append]
    exact Nat.add_le_add_left ha.declared_le _
  · rw [framingStep_rest result ha] at hstep
    cases hstep

theorem viewsOf_denotes {u t : List UInt8} {ms : List (List UInt8)}
    (h : Splits udpDelimiter u ms t) : Denotes u (viewsOf ms t) ms := by
  obtain ⟨rfl, hms, -⟩ := splits_iff.mp h
  exact ⟨viewsOf_ownBytes hms t, viewsOf_content [] ms t⟩

theorem packetToFrames_denotes {u t : List UInt8} {ms : List (List UInt8)}
    (h : Decomposes u ms t) : ∃ views, (packetToFrames u).outcome = .ok views ∧
      views.length = ms.length ∧ Denotes u views ms := by
  have hs := decomposes_iff.mp h
  rw [packetToFrames_eq hs]
  exact ⟨_, rfl, viewsOf_length ms t, viewsOf_denotes hs⟩

/-- The loop parses messages followed by a tail. It ends, its guarded access is always in range, it
    finds the decomposition of the datagram, and there is only one, which is maximal. -/
theorem packetToFrames_grammar (u : List UInt8) :
    (∀ fuel, u.length / 56 < fuel → framingLoop u fuel = packetToFrames u) ∧
    (∀ s, Run.Reaches (framingStep u) ⟨0, []⟩ s → getFrom u s.offset ≠ none) ∧
    (∃ ms t, Decomposes u ms t ∧ ms.length ≤ u.length / 56) ∧
    (∀ ms t, Decomposes u ms t → ∃ views, (packetToFrames u).outcome = .ok views ∧
      views.length = ms.length ∧ Denotes u views ms) ∧
    (∀ ms t ms' t', Decomposes u ms t → Decomposes u ms' t' → ms = ms' ∧ t = t') ∧
    (∀ ms t ms', Decomposes u ms t → (∀ m ∈ ms', CompleteMessage m) → ms'.flatten <+: u →
      ms' <+: ms) := by
  have hsplit := messages_splits (d := udpDelimiter) u
  have hle := messages_length_le hsplit
  refine ⟨fun fuel hfuel => ?_, fun s hs => ?_, ⟨_, _, decomposes_iff.mpr hsplit, hle⟩,
    fun ms t h => packetToFrames_denotes h, fun ms t ms' t' h h' => ?_, fun ms t ms' h hc hp => ?_⟩
  · rw [framingLoop_eq hsplit (Nat.lt_of_le_of_lt hle hfuel), packetToFrames_eq hsplit]
  · rw [getFrom_of_le (reached_offset_le hs)]
    exact Option.some_ne_none _
  · exact (decomposes_iff.mp h).unique (decomposes_iff.mp h')
  · exact (decomposes_iff.mp h).maximal (fun m hm => completeMessage_iff.mp (hc m hm)) hp

/-- Two messages, and the front of a third one. -/
example : (packetToFrames (makeUdpPacket packetFormat1 1 12 ++ makeUdpPacket packetFormat1 0 34 ++
    (makeUdpPacket packetFormat1 2 56).take 60)).outcome.map (List.map ownBytes) =
      .ok [.ok (makeUdpPacket packetFormat1 1 12), .ok (makeUdpPacket packetFormat1 0 34)] := by
  decide +kernel

end EventUdpToKafka.PacketFraming
