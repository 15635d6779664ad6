import EventUdpToKafka.LoggedRun

set_option autoImplicit false

/-!
# Machines that rewrite logs, and loops that carry a state

A machine reads the log of a computation entry by entry, writes entries of its
own and keeps a state from one entry to the next. Two computations simulate each
other when they end alike and log what is related.
-/
namespace EventUdpToKafka.LogMachine
open LoggedRun

structure Machine (σ ε δ : Type) where
  step : σ → ε → σ × List δ

namespace Machine
variable {σ τ ε δ κ : Type}

def run (m : Machine σ ε δ) : σ → List ε → σ × List δ
  | s, [] => (s, [])
  | s, e :: l => ((m.run (m.step s e).1 l).1, (m.step s e).2 ++ (m.run (m.step s e).1 l).2)

variable {m : Machine σ ε δ} {m' : Machine τ ε κ} {R : σ → τ → Prop} {T : List δ → List κ → Prop}

/-- Two machines on one log, for relations of their states and of what they write. -/
theorem run_related (nil : T [] [])
    (append : ∀ {a b : List δ} {c d : List κ}, T a c → T b d → T (a ++ b) (c ++ d))
    (step : ∀ s t e, R s t → R (m.step s e).1 (m'.step t e).1 ∧ T (m.step s e).2 (m'.step t e).2)
    {s : σ} {t : τ} (h : R s t) (l : List ε) :
    R (m.run s l).1 (m'.run t l).1 ∧ T (m.run s l).2 (m'.run t l).2 := by
  induction l generalizing s t with
  | nil => exact ⟨h, nil⟩
  | cons e l ih =>
    obtain ⟨hnext, hwritten⟩ := step s t e h
    obtain ⟨hlast, hrest⟩ := ih hnext
    exact ⟨hlast, append hwritten hrest⟩

theorem run_append (s : σ) (l l' : List ε) : m.run s (l ++ l') =
    ((m.run (m.run s l).1 l').1, (m.run s l).2 ++ (m.run (m.run s l).1 l').2) := by
  induction l generalizing s with
  | nil => rfl
  | cons e l ih => simp only [List.cons_append, run, ih, List.append_assoc]

theorem run_writes {P : List δ → Prop} (nil : P []) (append : ∀ {a b : List δ}, P a → P b → P (a ++ b))
    (step : ∀ s e, P (m.step s e).2) (s : σ) (l : List ε) : P (m.run s l).2 := by
  induction l generalizing s with
  | nil => exact nil
  | cons e l ih => exact append (step s e) (ih (m.step s e).1)

end Machine

section Through
variable {σ ε δ ς α : Type}

/-- The log of a computation goes through a machine. The last state is the result. -/
def through (m : Machine σ ε δ) (s : σ) (r : Run ε ς α) : Run δ ς σ :=
  ⟨(m.run s r.log).2, r.outcome.map fun _ => (m.run s r.log).1⟩

end Through

section Simulation
variable {σ α β δ ε ς : Type}

structure Simulates (I : α → Prop) (T : List δ → List ε → Prop) (m : Run δ ς α) (r : Run ε ς β) :
    Prop where
  log : T m.log r.log
  outcome : (∃ a b, m.outcome = .ok a ∧ r.outcome = .ok b ∧ I a) ∨
    ∃ s, m.outcome = .error s ∧ r.outcome = .error s

variable {I : σ → Prop} {T : List δ → List ε → Prop}

theorem Simulates.bind (append : ∀ {a b : List δ} {c d : List ε}, T a c → T b d → T (a ++ b) (c ++ d))
    {J : α → Prop} {m : Run δ ς σ} {r : Run ε ς Unit} (h : Simulates I T m r)
    {f : σ → Run δ ς α} {g : Run ε ς β} (hf : ∀ s, I s → Simulates J T (f s) g) :
    Simulates J T (m >>= f) (r >>= fun _ => g) := by
  rcases h.outcome with ⟨s, _, hm, hr, hs⟩ | ⟨stop, hm, hr⟩
  · rw [Run.bind_of_ok hm, Run.bind_of_ok hr]
    exact ⟨append h.log (hf s hs).log, (hf s hs).outcome⟩
  · rw [Run.bind_of_error hm, Run.bind_of_error hr]
    exact ⟨h.log, .inr ⟨stop, rfl, rfl⟩⟩

section Outcomes
variable {m : Run δ ς σ} {r : Run ε ς Unit} (h : Simulates I T m r)
include h

theorem Simulates.outcome_map : (m.outcome.map fun _ => ()) = r.outcome := by
  rcases h.outcome with ⟨s, _, hm, hr, -⟩ | ⟨stop, hm, hr⟩
  · rw [hm, hr]
    rfl
  · rw [hm, hr]
    rfl

theorem Simulates.returns_iff : m.Returns ↔ r.Returns := by
  rcases h.outcome with ⟨s, u, hm, hr, -⟩ | ⟨stop, hm, hr⟩
  · exact iff_of_true ⟨s, hm⟩ ⟨u, hr⟩
  · refine iff_of_false ?_ ?_
    · rintro ⟨s, hs⟩
      rw [hm] at hs
      cases hs
    · rintro ⟨u, hu⟩
      rw [hr] at hu
      cases hu

theorem Simulates.last {s : σ} (hs : m.outcome = .ok s) : I s := by
  rcases h.outcome with ⟨s', _, hm, -, hlast⟩ | ⟨stop, hm, -⟩
  · rw [hm] at hs
    cases hs
    exact hlast
  · rw [hm] at hs
    cases hs

end Outcomes

/-- A loop that carries a state against one that carries none: an invariant of the state under which
    every pass simulates its counterpart is kept, and so the loops simulate each other. -/
theorem foldlM_simulates (nil : T [] [])
    (append : ∀ {a b : List δ} {c d : List ε}, T a c → T b d → T (a ++ b) (c ++ d))
    {f : σ → α → Run δ ς σ} {g : α → Run ε ς Unit}
    (step : ∀ s x, I s → Simulates I T (f s x) (g x)) {s : σ} (hs : I s) (xs : List α) :
    Simulates I T (xs.foldlM f s) (Run.each g xs) := by
  induction xs generalizing s with
  | nil => exact ⟨nil, .inl ⟨s, (), rfl, rfl, hs⟩⟩
  | cons x xs ih => exact (step s x hs).bind append fun s' hs' => ih hs'

end Simulation

theorem each_map {ε ς α β : Type} (f : β → Run ε ς Unit) (h : α → β) (xs : List α) :
    Run.each f (xs.map h) = Run.each (fun x => f (h x)) xs := by
  induction xs with
  | nil => rfl
  | cons x xs ih => rw [List.map_cons, Run.each, Run.each, ih]

theorem each_flatMap {ε ς α β : Type} (f : β → Run ε ς Unit) (h : α → List β) (xs : List α) :
    Run.each f (xs.flatMap h) = Run.each (fun x => Run.each f (h x)) xs := by
  induction xs with
  | nil => rfl
  | cons x xs ih => rw [List.flatMap_cons, Run.each_append, Run.each, ih]

section Demultiplexing
variable {σ α δ ε ς : Type} {m : Machine σ δ δ} {keep : α → Bool} {view : ε → Option δ}
  {f : α → Run ε ς Unit}

/-- A machine reads what is to be seen of a loop, and writes down the passes for the elements to keep,
    whatever state a pass finds it in. Then it writes down what is to be seen of the loop over these
    elements alone. Where the loop is stopped by another element, the loop over these may do more. -/
theorem each_demultiplexed (hpass : ∀ s x, (m.run s ((f x).log.filterMap view)).2 =
      if keep x then (f x).log.filterMap view else [])
    (s : σ) (xs : List α) :
    (m.run s ((Run.each f xs).log.filterMap view)).2 <+:
      (Run.each f (xs.filter keep)).log.filterMap view ∧
    ((Run.each f xs).Returns → (Run.each f (xs.filter keep)).Returns ∧
      (m.run s ((Run.each f xs).log.filterMap view)).2 =
        (Run.each f (xs.filter keep)).log.filterMap view) := by
  induction xs generalizing s with
  | nil => exact ⟨List.prefix_refl [], fun h => ⟨h, rfl⟩⟩
  | cons x xs ih =>
    have hwritten := hpass s x
    rw [Run.each]
    cases hx : (f x).outcome with
    | error stop =>
      have hstop : ¬ Run.Returns (⟨(f x).log, .error stop⟩ : Run ε ς Unit) := by
        rintro ⟨_, h⟩
        cases h
      rw [Run.bind_of_error hx]
      refine ⟨?_, fun h => absurd h hstop⟩
      rw [hwritten]
      cases hk : keep x with
      | false => exact List.nil_prefix
      | true =>
        rw [List.filter_cons_of_pos hk, Run.each, Run.bind_of_error hx]
        exact List.prefix_refl _
    | ok u =>
      obtain ⟨hfront, hall⟩ := ih (m.run s ((f x).log.filterMap view)).1
      rw [Run.bind_of_ok hx, List.filterMap_append, Machine.run_append, hwritten]
      cases hk : keep x with
      | false =>
        rw [List.filter_cons_of_neg (by simp [hk])]
        exact ⟨hfront, hall⟩
      | true =>
        rw [List.filter_cons_of_pos hk, Run.each, Run.bind_of_ok hx, List.filterMap_append]
        refine ⟨(List.prefix_append_right_inj _).mpr hfront, fun h => ⟨(hall h).1, ?_⟩⟩
        exact congrArg _ (hall h).2

end Demultiplexing

end EventUdpToKafka.LogMachine
