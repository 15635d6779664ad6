import Mathlib.Data.List.Basic
import Mathlib.Tactic.Common

set_option autoImplicit false

/-!
# Computations that log and may stop early

A `Run` appends to a log and then returns a value or stops. What was logged
before a stop stays logged, so a prefix of the log is never taken back.
-/
namespace EventUdpToKafka.LoggedRun

@[ext] structure Run (ε σ α : Type) where
  log : List ε
  outcome : Except σ α

namespace Run
variable {ε σ α β : Type}

def andThen (m : Run ε σ α) (f : α → Run ε σ β) : Run ε σ β :=
  match m.outcome with
  | .ok a => ⟨m.log ++ (f a).log, (f a).outcome⟩
  | .error s => ⟨m.log, .error s⟩

instance : Monad (Run ε σ) where
  pure a := ⟨[], .ok a⟩
  bind := andThen

def emit (e : ε) : Run ε σ Unit := ⟨[e], .ok ()⟩

def stop (s : σ) : Run ε σ α := ⟨[], .error s⟩

def lift (x : Except σ α) : Run ε σ α := ⟨[], x⟩

def Returns (m : Run ε σ α) : Prop := ∃ a, m.outcome = .ok a

@[simp] theorem pure_log (a : α) : (pure a : Run ε σ α).log = [] := rfl
@[simp] theorem pure_outcome (a : α) : (pure a : Run ε σ α).outcome = .ok a := rfl

theorem bind_of_ok {m : Run ε σ α} {a : α} (h : m.outcome = .ok a) (f : α → Run ε σ β) :
    m >>= f = ⟨m.log ++ (f a).log, (f a).outcome⟩ := by
  change andThen m f = _
  simp only [andThen, h]

theorem bind_of_error {m : Run ε σ α} {s : σ} (h : m.outcome = .error s) (f : α → Run ε σ β) :
    m >>= f = ⟨m.log, .error s⟩ := by
  change andThen m f = _
  simp only [andThen, h]

@[simp] theorem lift_ok_bind (a : α) (f : α → Run ε σ β) : lift (.ok a) >>= f = f a := rfl

@[simp] theorem mk_ok_bind (l : List ε) (a : α) (f : α → Run ε σ β) :
    (⟨l, .ok a⟩ : Run ε σ α) >>= f = ⟨l ++ (f a).log, (f a).outcome⟩ := rfl

instance : LawfulMonad (Run ε σ) := LawfulMonad.mk' (Run ε σ)
  (by
    intro α x
    obtain ⟨l, _ | a⟩ := x
    · rfl
    · change (⟨l ++ [], .ok a⟩ : Run ε σ α) = _
      rw [List.append_nil])
  (by intros; rfl)
  (by
    intro α β γ x f g
    obtain ⟨l, _ | a⟩ := x
    · rfl
    · simp only [mk_ok_bind]
      cases h : (f a).outcome with
      | error s => rw [bind_of_error rfl, bind_of_error h]
      | ok b => rw [bind_of_ok rfl, bind_of_ok h, List.append_assoc])

theorem returns_bind_iff {m : Run ε σ α} {a : α} (h : m.outcome = .ok a) (f : α → Run ε σ β) :
    (m >>= f).Returns ↔ (f a).Returns := by
  rw [bind_of_ok h]
  rfl

def each (f : α → Run ε σ Unit) : List α → Run ε σ Unit
  | [] => pure ()
  | x :: xs => f x >>= fun _ => each f xs

section Each
variable (f : α → Run ε σ Unit)

theorem each_append (xs ys : List α) :
    each f (xs ++ ys) = each f xs >>= fun _ => each f ys := by
  induction xs with
  | nil => simp only [List.nil_append, each, pure_bind]
  | cons x xs ih => simp only [List.cons_append, each, ih, bind_assoc]

theorem each_of_returns {xs : List α} (h : ∀ x ∈ xs, (f x).Returns) :
    each f xs = ⟨xs.flatMap fun x => (f x).log, .ok ()⟩ := by
  induction xs with
  | nil => rfl
  | cons x xs ih =>
    obtain ⟨_, hx⟩ := h x List.mem_cons_self
    rw [each, bind_of_ok hx, ih fun y hy => h y (List.mem_cons_of_mem x hy)]
    rfl

/-- The first stop ends the loop: the log holds what came before it and its own part. -/
theorem each_of_stop {xs : List α} {y : α} {s : σ} (ys : List α)
    (h : ∀ x ∈ xs, (f x).Returns) (hy : (f y).outcome = .error s) :
    each f (xs ++ y :: ys) = ⟨(xs.flatMap fun x => (f x).log) ++ (f y).log, .error s⟩ := by
  rw [each_append, each_of_returns f h, mk_ok_bind, each, bind_of_error hy]

theorem each_returns_iff (xs : List α) : (each f xs).Returns ↔ ∀ x ∈ xs, (f x).Returns := by
  induction xs with
  | nil => exact ⟨fun _ x hx => absurd hx List.not_mem_nil, fun _ => ⟨(), rfl⟩⟩
  | cons x xs ih =>
    rw [List.forall_mem_cons, ← ih, each]
    cases h : (f x).outcome with
    | error s =>
      rw [bind_of_error h]
      constructor
      · rintro ⟨_, he⟩; cases he
      · rintro ⟨⟨_, he⟩, _⟩; rw [h] at he; cases he
    | ok u =>
      rw [returns_bind_iff h]
      exact ⟨fun hr => ⟨⟨u, h⟩, hr⟩, And.right⟩

/-- Where only the bad elements stop the loop, it stops if and only if there is one. -/
theorem each_error_iff {bad : α → Prop} {xs : List α} {s : σ}
    (hok : ∀ x ∈ xs, ¬ bad x → (f x).Returns) (hbad : ∀ x ∈ xs, bad x → (f x).outcome = .error s) :
    (each f xs).outcome = .error s ↔ ∃ x ∈ xs, bad x := by
  induction xs with
  | nil => exact iff_of_false (fun h => nomatch h) fun ⟨x, hx, _⟩ => absurd hx List.not_mem_nil
  | cons x xs ih =>
    obtain ⟨hxok, hxsok⟩ := List.forall_mem_cons.mp hok
    obtain ⟨hxbad, hxsbad⟩ := List.forall_mem_cons.mp hbad
    simp only [each, List.mem_cons, exists_eq_or_imp]
    by_cases hx : bad x
    · rw [bind_of_error (hxbad hx)]
      exact iff_of_true rfl (.inl hx)
    · obtain ⟨u, hu⟩ := hxok hx
      rw [bind_of_ok hu, or_iff_right hx]
      exact ih hxsok hxsbad

theorem exists_mem_of_mem_each {xs : List α} {e : ε} (h : e ∈ (each f xs).log) :
    ∃ x ∈ xs, e ∈ (f x).log := by
  induction xs with
  | nil => exact absurd h List.not_mem_nil
  | cons x xs ih =>
    rw [each] at h
    have hcases : e ∈ (f x).log ∨ e ∈ (each f xs).log := by
      cases hx : (f x).outcome with
      | error s => exact .inl (by rwa [bind_of_error hx] at h)
      | ok u => exact List.mem_append.mp (by rwa [bind_of_ok hx] at h)
    rcases hcases with hx | hxs
    · exact ⟨x, List.mem_cons_self, hx⟩
    · obtain ⟨y, hy, he⟩ := ih hxs
      exact ⟨y, List.mem_cons_of_mem x hy, he⟩

/-- The log of a loop is that of the passes it gets to. -/
theorem exists_each_log (xs : List α) :
    ∃ ys, ys <+: xs ∧ (each f xs).log = ys.flatMap fun x => (f x).log := by
  induction xs with
  | nil => exact ⟨[], List.prefix_refl [], rfl⟩
  | cons x xs ih =>
    rw [each]
    cases hx : (f x).outcome with
    | error s =>
      rw [bind_of_error hx]
      exact ⟨[x], (List.prefix_cons_inj x).mpr List.nil_prefix, (List.append_nil _).symm⟩
    | ok u =>
      obtain ⟨ys, hys, hlog⟩ := ih
      rw [bind_of_ok hx, hlog]
      exact ⟨x :: ys, (List.prefix_cons_inj x).mpr hys, rfl⟩

/-- Two loops whose passes end alike and log what is related, for a relation that appending keeps. -/
theorem each_related {g : α → Run ε σ Unit} {R : List ε → List ε → Prop} (nil : R [] [])
    (append : ∀ {a b c d : List ε}, R a b → R c d → R (a ++ c) (b ++ d)) {xs : List α}
    (h : ∀ x ∈ xs, (f x).outcome = (g x).outcome ∧ R (f x).log (g x).log) :
    (each f xs).outcome = (each g xs).outcome ∧ R (each f xs).log (each g xs).log := by
  induction xs with
  | nil => exact ⟨rfl, nil⟩
  | cons x xs ih =>
    obtain ⟨⟨ho, hl⟩, hxs⟩ := List.forall_mem_cons.mp h
    obtain ⟨iho, ihl⟩ := ih hxs
    rw [each, each]
    cases hx : (f x).outcome with
    | error s =>
      rw [bind_of_error hx, bind_of_error (ho ▸ hx)]
      exact ⟨rfl, hl⟩
    | ok u =>
      rw [bind_of_ok hx, bind_of_ok (ho ▸ hx)]
      exact ⟨iho, append hl ihl⟩

end Each

/-- One pass through a loop body: go round again from a new state, or leave. -/
inductive LoopStep (β ρ : Type) where
  | again (state : β)
  | leave (result : ρ)

/-- A `while` loop that stops with `exhausted` when it is not done after `fuel` passes. -/
def whileLoop {ρ : Type} (exhausted : σ) (body : β → Run ε σ (LoopStep β ρ)) :
    ℕ → β → Run ε σ ρ
  | 0, _ => stop exhausted
  | fuel + 1, s => body s >>= fun
    | .again s' => whileLoop exhausted body fuel s'
    | .leave r => pure r

inductive Reaches {ρ : Type} (body : β → Run ε σ (LoopStep β ρ)) : β → β → Prop where
  | refl (s : β) : Reaches body s s
  | next {s u v : β} (h : (body s).outcome = .ok (.again u)) (tail : Reaches body u v) :
      Reaches body s v

theorem Reaches.invariant {ρ : Type} {body : β → Run ε σ (LoopStep β ρ)} (I : β → Prop)
    (step : ∀ s u, I s → (body s).outcome = .ok (.again u) → I u)
    {s v : β} (h : Reaches body s v) (hs : I s) : I v := by
  induction h with
  | refl s => exact hs
  | next h _ ih => exact ih (step _ _ hs h)

theorem whileLoop_again {ρ : Type} (exhausted : σ) {body : β → Run ε σ (LoopStep β ρ)}
    {s s' : β} (h : body s = pure (.again s')) (fuel : ℕ) :
    whileLoop exhausted body (fuel + 1) s = whileLoop exhausted body fuel s' := by
  rw [whileLoop, h, pure_bind]

theorem whileLoop_leave {ρ : Type} (exhausted : σ) {body : β → Run ε σ (LoopStep β ρ)}
    {s : β} {l : List ε} {r : ρ} (h : body s = ⟨l, .ok (.leave r)⟩) (fuel : ℕ) :
    whileLoop exhausted body (fuel + 1) s = ⟨l, .ok r⟩ := by
  rw [whileLoop, h, mk_ok_bind, pure_log, pure_outcome, List.append_nil]

end Run

end EventUdpToKafka.LoggedRun
