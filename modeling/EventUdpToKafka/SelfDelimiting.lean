import Mathlib.Data.List.Basic
import Mathlib.Tactic.Common

set_option autoImplicit false

/-!
# Streams of self-delimiting messages

A delimiter says how long the message at the front of a string is. Its answer
may depend on that message only, so a string has one decomposition into messages
and an undelimited rest, and cutting the string short loses messages at its end.
-/
namespace EventUdpToKafka.SelfDelimiting

structure Delimiter (α : Type) where
  size : List α → Option ℕ
  size_pos : ∀ {l : List α} {n : ℕ}, size l = some n → 0 < n
  size_le : ∀ {l : List α} {n : ℕ}, size l = some n → n ≤ l.length
  size_local : ∀ {l : List α} {n : ℕ}, size l = some n → ∀ t, size (l.take n ++ t) = some n

variable {α : Type} (d : Delimiter α)

def Complete (m : List α) : Prop := d.size m = some m.length

inductive Splits : List α → List (List α) → List α → Prop where
  | rest {t : List α} (h : d.size t = none) : Splits t [] t
  | message {m l : List α} {ms : List (List α)} {t : List α} (h : Complete d m)
      (tail : Splits l ms t) : Splits (m ++ l) (m :: ms) t

def cut : ℕ → List α → List (List α) × List α
  | 0, l => ([], l)
  | fuel + 1, l =>
    match d.size l with
    | none => ([], l)
    | some n => (l.take n :: (cut fuel (l.drop n)).1, (cut fuel (l.drop n)).2)

def messages (l : List α) : List (List α) := (cut d l.length l).1

def remainder (l : List α) : List α := (cut d l.length l).2

variable {d}

theorem Complete.size_append {m : List α} (h : Complete d m) (t : List α) :
    d.size (m ++ t) = some m.length := by
  simpa only [List.take_length] using d.size_local h t

theorem complete_take {l : List α} {n : ℕ} (h : d.size l = some n) : Complete d (l.take n) := by
  have hn := d.size_le h
  have hs := d.size_local h []
  rw [List.append_nil] at hs
  rw [Complete, hs, List.length_take, Nat.min_eq_left hn]

/-- A message that shows up only after more symbols arrive reaches into them. -/
theorem lt_size_append {t : List α} (h : d.size t = none) {b : List α} {n : ℕ}
    (hn : d.size (t ++ b) = some n) : t.length < n := by
  by_contra hc
  have hle : n ≤ t.length := Nat.le_of_not_lt hc
  have hs := d.size_local hn (t.drop n)
  rw [List.take_append_of_le_length hle, List.take_append_drop, h] at hs
  cases hs

theorem size_nil : d.size [] = none := by
  cases h : d.size [] with
  | none => rfl
  | some n =>
    have hp := d.size_pos h
    have hl := d.size_le h
    rw [List.length_nil] at hl
    omega

theorem cut_splits (fuel : ℕ) (l : List α) (h : l.length ≤ fuel) :
    Splits d l (cut d fuel l).1 (cut d fuel l).2 := by
  induction fuel generalizing l with
  | zero =>
    have hl : l = [] := List.eq_nil_of_length_eq_zero (Nat.le_zero.mp h)
    subst hl
    exact .rest size_nil
  | succ fuel ih =>
    cases hs : d.size l with
    | none =>
      simp only [cut, hs]
      exact .rest hs
    | some n =>
      have hp := d.size_pos hs
      have hr := ih (l.drop n) (by rw [List.length_drop]; omega)
      have hm := Splits.message (complete_take hs) hr
      rw [List.take_append_drop] at hm
      simpa only [cut, hs] using hm

theorem messages_splits (l : List α) : Splits d l (messages d l) (remainder d l) :=
  cut_splits l.length l (Nat.le_refl _)

theorem splits_iff {l t : List α} {ms : List (List α)} :
    Splits d l ms t ↔ l = ms.flatten ++ t ∧ (∀ m ∈ ms, Complete d m) ∧ d.size t = none := by
  constructor
  · intro h
    induction h with
    | rest h => exact ⟨rfl, fun m hm => absurd hm List.not_mem_nil, h⟩
    | message h _ ih =>
      obtain ⟨hl, hc, ht⟩ := ih
      refine ⟨?_, List.forall_mem_cons.mpr ⟨h, hc⟩, ht⟩
      rw [hl, List.flatten_cons, List.append_assoc]
  · rintro ⟨rfl, hc, ht⟩
    induction ms with
    | nil => exact .rest ht
    | cons m ms ih =>
      obtain ⟨hm, hms⟩ := List.forall_mem_cons.mp hc
      rw [List.flatten_cons, List.append_assoc]
      exact .message hm (ih hms)

theorem Splits.unique {l t t' : List α} {ms ms' : List (List α)} (h : Splits d l ms t)
    (h' : Splits d l ms' t') : ms = ms' ∧ t = t' := by
  induction h generalizing ms' with
  | rest ht =>
    cases h' with
    | rest _ => exact ⟨rfl, rfl⟩
    | message hm _ => rw [hm.size_append] at ht; cases ht
  | @message m l ms t hm _ ih =>
    generalize hs : m ++ l = s at h'
    cases h' with
    | rest ht => rw [← hs, hm.size_append] at ht; cases ht
    | @message m' l' _ _ hm' tail =>
      -- both messages have the length the delimiter gives for the whole string
      have hlen : m.length = m'.length := by
        have hsize := hm.size_append l
        rw [hs, hm'.size_append] at hsize
        exact (Option.some.inj hsize).symm
      obtain ⟨rfl, rfl⟩ := List.append_inj hs hlen
      obtain ⟨rfl, rfl⟩ := ih tail
      exact ⟨rfl, rfl⟩

/-- No longer list of whole messages fits on the front of the string. -/
theorem Splits.maximal {l t : List α} {ms ms' : List (List α)} (h : Splits d l ms t)
    (hc : ∀ m ∈ ms', Complete d m) (hp : ms'.flatten <+: l) : ms' <+: ms := by
  obtain ⟨rest, rfl⟩ := hp
  obtain ⟨hrest, hcr, ht⟩ := splits_iff.mp (messages_splits (d := d) rest)
  have hwhole : Splits d (ms'.flatten ++ rest) (ms' ++ messages d rest) (remainder d rest) := by
    rw [splits_iff, List.flatten_append, List.append_assoc, ← hrest]
    exact ⟨rfl, fun m hm => (List.mem_append.mp hm).elim (hc m) (hcr m), ht⟩
  rw [(h.unique hwhole).1]
  exact List.prefix_append _ _

theorem Splits.length_bound {l t : List α} {ms : List (List α)} (h : Splits d l ms t) {k : ℕ}
    (hk : ∀ {l : List α} {n : ℕ}, d.size l = some n → k ≤ n) : ms.length * k ≤ l.length := by
  induction h with
  | rest _ => exact Nat.zero_mul k ▸ Nat.zero_le _
  | message hm _ ih =>
    have hmk := hk hm
    rw [List.length_append, List.length_cons, Nat.succ_mul]
    omega

theorem Splits.message_le {l t : List α} {ms : List (List α)} (h : Splits d l ms t) {m : List α}
    (hm : m ∈ ms) : m.length ≤ l.length := by
  rw [(splits_iff.mp h).1, List.length_append]
  exact Nat.le_trans (List.sublist_flatten_of_mem hm).length_le (Nat.le_add_right _ _)

/-- Messages with the offset each one starts at. -/
def located : ℕ → List (List α) → List (ℕ × List α)
  | _, [] => []
  | o, m :: ms => (o, m) :: located (o + m.length) ms

theorem located_append (o : ℕ) (ms ms' : List (List α)) :
    located o (ms ++ ms') = located o ms ++ located (o + ms.flatten.length) ms' := by
  induction ms generalizing o with
  | nil => rfl
  | cons m ms ih =>
    simp only [List.cons_append, located, ih, List.flatten_cons, List.length_append, Nat.add_assoc]

theorem located_map_snd (o : ℕ) (ms : List (List α)) : (located o ms).map Prod.snd = ms := by
  induction ms generalizing o with
  | nil => rfl
  | cons m ms ih => simp only [located, List.map_cons, ih]

theorem exists_located {ms : List (List α)} {m : List α} (h : m ∈ ms) (o : ℕ) :
    ∃ q, (q, m) ∈ located o ms := by
  rw [← located_map_snd o ms] at h
  obtain ⟨⟨q, m'⟩, hq, rfl⟩ := List.mem_map.mp h
  exact ⟨q, hq⟩

theorem located_offset_le {o : ℕ} {ms : List (List α)} {p : ℕ × List α} (h : p ∈ located o ms) :
    o ≤ p.1 := by
  induction ms generalizing o with
  | nil => exact absurd h List.not_mem_nil
  | cons m ms ih =>
    rcases List.mem_cons.mp h with rfl | h
    · exact Nat.le_refl o
    · have := ih h
      omega

/-- More symbols only add messages behind those already there. -/
theorem Splits.append {a b t t' : List α} {ms ms' : List (List α)} (h : Splits d a ms t)
    (h' : Splits d (a ++ b) ms' t') : ∃ extra, ms' = ms ++ extra ∧ Splits d (t ++ b) extra t' := by
  induction h generalizing ms' with
  | rest _ => exact ⟨ms', rfl, h'⟩
  | @message m l ms t hm _ ih =>
    have hr := messages_splits (d := d) (l ++ b)
    have hwhole := Splits.message hm hr
    rw [← List.append_assoc] at hwhole
    obtain ⟨rfl, rfl⟩ := h'.unique hwhole
    obtain ⟨extra, he, hs⟩ := ih hr
    exact ⟨extra, by rw [he, List.cons_append], hs⟩

theorem Splits.extra_end {t b t' : List α} {extra : List (List α)} (ht : d.size t = none)
    (h : Splits d (t ++ b) extra t') {o : ℕ} {p : ℕ × List α} (hp : p ∈ located o extra) :
    o + t.length < p.1 + p.2.length := by
  generalize hs : t ++ b = s at h
  cases h with
  | rest _ => exact absurd hp List.not_mem_nil
  | @message m l ms _ hm tail =>
    have hfirst : t.length < m.length := lt_size_append ht (by rw [hs]; exact hm.size_append l)
    rcases List.mem_cons.mp hp with rfl | hp
    · exact Nat.add_lt_add_left hfirst o
    · have hoff := located_offset_le hp
      omega

theorem located_end_le {o : ℕ} {ms : List (List α)} {p : ℕ × List α} (h : p ∈ located o ms) :
    p.1 + p.2.length ≤ o + ms.flatten.length := by
  induction ms generalizing o with
  | nil => exact absurd h List.not_mem_nil
  | cons m ms ih =>
    rw [List.flatten_cons, List.length_append]
    rcases List.mem_cons.mp h with rfl | h
    · exact Nat.add_le_add_left (Nat.le_add_right _ _) o
    · have := ih h
      omega

/-- A string that is cut short keeps exactly the messages that end before the cut. -/
theorem messages_take (l : List α) (n : ℕ) : messages d (l.take n) =
    ((located 0 (messages d l)).filter fun p => p.1 + p.2.length ≤ n).map Prod.snd := by
  have hfront := messages_splits (d := d) (l.take n)
  obtain ⟨hcut, -, hrest⟩ := splits_iff.mp hfront
  have hwhole := messages_splits (d := d) l
  rw [← List.take_append_drop n l] at hwhole
  obtain ⟨extra, hms, hextra⟩ := hfront.append hwhole
  rw [List.take_append_drop] at hms
  have hlen := congrArg List.length hcut
  rw [List.length_append, List.length_take] at hlen
  have hkept : ∀ p ∈ located 0 (messages d (l.take n)), decide (p.1 + p.2.length ≤ n) = true := by
    intro p hp
    have hend := located_end_le hp
    exact decide_eq_true (by omega)
  have hlost : ∀ p ∈ located (0 + (messages d (l.take n)).flatten.length) extra,
      ¬ decide (p.1 + p.2.length ≤ n) = true := by
    intro p hp
    have hpast := hextra.extra_end hrest hp
    by_cases hn : n ≤ l.length
    · simp only [decide_eq_true_eq]
      omega
    · -- nothing is cut off, so there is nothing behind the remainder
      rw [List.drop_eq_nil_of_le (by omega), List.append_nil] at hextra
      obtain ⟨rfl, -⟩ := hextra.unique (.rest hrest)
      exact absurd hp List.not_mem_nil
  rw [hms, located_append, List.filter_append, List.filter_eq_self.mpr hkept,
    List.filter_eq_nil_iff.mpr hlost, List.append_nil, located_map_snd]

end EventUdpToKafka.SelfDelimiting
