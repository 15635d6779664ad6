import EventUdpToKafka.LoggedRun

set_option autoImplicit false

/-!
# Computations that may stop where others go on

One computation stops early against another one when the two are the same up to a
point at which the first one stops and the second one may not. The relation goes
through sequences and loops.
-/
namespace EventUdpToKafka.EarlyStop
open LoggedRun

variable {ε σ α β : Type}

def Sooner (s : σ) (x y : Except σ α) : Prop := x = y ∨ x = .error s

structure StopsAt (s : σ) (m m' : Run ε σ α) : Prop where
  outcome : m.outcome = .error s
  log : m.log <+: m'.log

def StopsEarly (s : σ) (m m' : Run ε σ α) : Prop := m = m' ∨ StopsAt s m m'

variable {s : σ}

theorem Sooner.refl (x : Except σ α) : Sooner s x x := .inl rfl

theorem Sooner.bind {x y : Except σ α} {f g : α → Except σ β} (h : Sooner s x y)
    (hf : ∀ a, Sooner s (f a) (g a)) : Sooner s (x >>= f) (y >>= g) := by
  rcases h with rfl | rfl
  · cases x with
    | error e => exact .refl _
    | ok a => exact hf a
  · exact .inr rfl

theorem Sooner.foldlM {f g : β → α → Except σ β} (h : ∀ b a, Sooner s (f b a) (g b a)) (xs : List α)
    (b : β) : Sooner s (xs.foldlM f b) (xs.foldlM g b) := by
  induction xs generalizing b with
  | nil => exact .refl _
  | cons x xs ih => exact (h b x).bind fun b' => ih b'

theorem StopsEarly.refl (m : Run ε σ α) : StopsEarly s m m := .inl rfl

theorem StopsEarly.lift {x y : Except σ α} (h : Sooner s x y) :
    StopsEarly s (Run.lift x : Run ε σ α) (Run.lift y) := by
  rcases h with rfl | rfl
  · exact .refl _
  · exact .inr ⟨rfl, List.prefix_refl []⟩

theorem log_prefix_bind (m : Run ε σ α) (f : α → Run ε σ β) : m.log <+: (m >>= f).log := by
  cases h : m.outcome with
  | error e =>
    have hlog : (m >>= f).log = m.log := congrArg Run.log (Run.bind_of_error h f)
    exact hlog ▸ List.prefix_refl m.log
  | ok a =>
    rw [Run.bind_of_ok h]
    exact List.prefix_append _ _

theorem StopsEarly.bind {m m' : Run ε σ α} {f g : α → Run ε σ β} (h : StopsEarly s m m')
    (hf : ∀ a, StopsEarly s (f a) (g a)) : StopsEarly s (m >>= f) (m' >>= g) := by
  rcases h with rfl | ⟨houtcome, hlog⟩
  · cases hm : m.outcome with
    | error e =>
      rw [Run.bind_of_error hm, Run.bind_of_error hm]
      exact .refl _
    | ok a =>
      rw [Run.bind_of_ok hm, Run.bind_of_ok hm]
      rcases hf a with hsame | ⟨hstop, hfront⟩
      · rw [hsame]
        exact .refl _
      · exact .inr ⟨hstop, (List.prefix_append_right_inj m.log).mpr hfront⟩
  · rw [Run.bind_of_error houtcome]
    exact .inr ⟨rfl, hlog.trans (log_prefix_bind m' g)⟩

theorem StopsEarly.each {f g : α → Run ε σ Unit} (h : ∀ a, StopsEarly s (f a) (g a)) (xs : List α) :
    StopsEarly s (Run.each f xs) (Run.each g xs) := by
  induction xs with
  | nil => exact .refl _
  | cons x xs ih => exact (h x).bind fun _ => ih

end EventUdpToKafka.EarlyStop
