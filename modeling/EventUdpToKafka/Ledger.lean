import EventUdpToKafka.LoggedRun
import Mathlib.Data.List.Infix
import Mathlib.Tactic.Common

set_option autoImplicit false

/-!
# Ledgers that are never overdrawn

Every entry of a log brings something in or takes something out. A log is solvent
from a stock when the stock lasts at every point of it and not only at its end.
-/
namespace EventUdpToKafka.Ledger
open LoggedRun

variable {ε : Type} (w : ε → ℤ)

def balance : List ε → ℤ
  | [] => 0
  | e :: l => w e + balance l

def Solvent (stock : ℤ) (l : List ε) : Prop := ∀ seen, seen <+: l → 0 ≤ stock + balance w seen

variable {w}

@[simp] theorem balance_nil : balance w [] = 0 := rfl

@[simp] theorem balance_cons (e : ε) (l : List ε) : balance w (e :: l) = w e + balance w l := rfl

@[simp] theorem balance_append (l l' : List ε) : balance w (l ++ l') = balance w l + balance w l' := by
  induction l with
  | nil => rw [List.nil_append, balance_nil, Int.zero_add]
  | cons e l ih => rw [List.cons_append, balance_cons, balance_cons, ih, Int.add_assoc]

theorem solvent_nil {stock : ℤ} (h : 0 ≤ stock) : Solvent w stock [] := by
  intro seen hseen
  rw [List.prefix_nil.mp hseen, balance_nil, Int.add_zero]
  exact h

theorem Solvent.stock_nonneg {stock : ℤ} {l : List ε} (h : Solvent w stock l) : 0 ≤ stock := by
  have hnil := h [] List.nil_prefix
  rwa [balance_nil, Int.add_zero] at hnil

theorem solvent_cons_iff {stock : ℤ} {e : ε} {l : List ε} :
    Solvent w stock (e :: l) ↔ 0 ≤ stock ∧ Solvent w (stock + w e) l := by
  constructor
  · intro h
    refine ⟨h.stock_nonneg, fun seen hseen => ?_⟩
    have hcons := h (e :: seen) ((List.prefix_cons_inj e).mpr hseen)
    rwa [balance_cons, ← Int.add_assoc] at hcons
  · rintro ⟨hstock, h⟩ seen hseen
    rcases List.prefix_cons_iff.mp hseen with rfl | ⟨rest, rfl, hrest⟩
    · rwa [balance_nil, Int.add_zero]
    · rw [balance_cons, ← Int.add_assoc]
      exact h rest hrest

/-- Entries that bring in and take out nothing make no difference. -/
theorem solvent_idle_append {stock : ℤ} {idle : List ε} (hidle : ∀ e ∈ idle, w e = 0) {l : List ε} :
    Solvent w stock (idle ++ l) ↔ Solvent w stock l := by
  induction idle with
  | nil => rfl
  | cons e idle ih =>
    obtain ⟨he, hrest⟩ := List.forall_mem_cons.mp hidle
    rw [List.cons_append, solvent_cons_iff, he, Int.add_zero, ih hrest]
    exact ⟨And.right, fun h => ⟨h.stock_nonneg, h⟩⟩

theorem Solvent.append {stock : ℤ} {l l' : List ε} (h : Solvent w stock l)
    (h' : Solvent w (stock + balance w l) l') : Solvent w stock (l ++ l') := by
  induction l generalizing stock with
  | nil => rwa [balance_nil, Int.add_zero] at h'
  | cons e l ih =>
    obtain ⟨hstock, hl⟩ := solvent_cons_iff.mp h
    rw [balance_cons, ← Int.add_assoc] at h'
    exact solvent_cons_iff.mpr ⟨hstock, ih hl h'⟩

theorem Solvent.mono {stock stock' : ℤ} {l : List ε} (h : Solvent w stock l) (hle : stock ≤ stock') :
    Solvent w stock' l := fun seen hseen => by
  have hs := h seen hseen
  omega

/-- What is left at the end goes into the next log. -/
theorem Solvent.chain {l l' : List ε} (h : Solvent w 0 l) (h' : Solvent w 0 l') :
    Solvent w 0 (l ++ l') := by
  have hend := h l (List.prefix_refl l)
  exact h.append (h'.mono hend)

/-- Where nothing comes in, it is enough that the stock lasts to the end. -/
theorem solvent_of_spent {stock : ℤ} {l : List ε} (hout : ∀ e ∈ l, w e ≤ 0)
    (h : 0 ≤ stock + balance w l) : Solvent w stock l := by
  have hspent : ∀ l' : List ε, (∀ e ∈ l', w e ≤ 0) → balance w l' ≤ 0 := by
    intro l'
    induction l' with
    | nil => exact fun _ => Int.le_refl 0
    | cons e l' ih =>
      intro hl
      obtain ⟨he, hrest⟩ := List.forall_mem_cons.mp hl
      have hle := ih hrest
      rw [balance_cons]
      omega
  rintro seen ⟨rest, rfl⟩
  have hrest := hspent rest fun e he => hout e (List.mem_append_right seen he)
  rw [balance_append] at h
  omega

theorem solvent_each {α σ : Type} {f : α → Run ε σ Unit} {xs : List α}
    (h : ∀ x ∈ xs, Solvent w 0 (f x).log) : Solvent w 0 (Run.each f xs).log :=
  (Run.each_related f (g := f) (R := fun log _ => Solvent w 0 log) (solvent_nil (Int.le_refl 0))
    (fun ha hc => ha.chain hc) fun x hx => ⟨rfl, h x hx⟩).2

end EventUdpToKafka.Ledger
