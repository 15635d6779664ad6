import Mathlib.Algebra.BigOperators.Group.List.Basic
import Mathlib.Data.List.Forall2
import Mathlib.Tactic.Common

set_option autoImplicit false

/-!
# Mixed radix numerals

A numeral is a list of digits, the most significant one first, and each place has
a radix of its own. Numerals are ordered as lists are, digit by digit.
-/
namespace EventUdpToKafka.MixedRadix

def value : List ℕ → List ℕ → ℕ
  | _ :: rs, d :: ds => d * rs.prod + value rs ds
  | _, _ => 0

def digits : List ℕ → ℕ → List ℕ
  | [], _ => []
  | _ :: rs, n => n / rs.prod :: digits rs (n % rs.prod)

def Within (rs ds : List ℕ) : Prop := List.Forall₂ (· < ·) ds rs

theorem value_pair (r r' d d' : ℕ) : value [r, r'] [d, d'] = d * r' + d' := by
  simp only [value, List.prod_cons, List.prod_nil, Nat.mul_one, Nat.add_zero]

theorem place_lt {m r a b : ℕ} (ha : a < r) (hb : b < m) : a * m + b < r * m := by
  have hplace : (a + 1) * m ≤ r * m := Nat.mul_le_mul_right m ha
  rw [Nat.succ_mul] at hplace
  omega

theorem value_lt {rs ds : List ℕ} (h : Within rs ds) : value rs ds < rs.prod := by
  induction h with
  | nil => exact Nat.zero_lt_one
  | cons hd _ ih =>
    rw [value, List.prod_cons]
    exact place_lt hd ih

/-- A leading digit outweighs what stands behind it. -/
theorem place_lt_iff {m a a' b b' : ℕ} (h : b < m) (h' : b' < m) :
    a * m + b < a' * m + b' ↔ a < a' ∨ a = a' ∧ b < b' := by
  rcases Nat.lt_trichotomy a a' with hlt | rfl | hgt
  · have hplace := place_lt hlt h
    exact iff_of_true (by omega) (.inl hlt)
  · rw [Nat.add_lt_add_iff_left]
    exact ⟨fun hb => .inr ⟨rfl, hb⟩, fun hc => hc.elim (fun hlt => absurd hlt (Nat.lt_irrefl a)) And.right⟩
  · have hplace := place_lt hgt h'
    exact iff_of_false (by omega) (by omega)

theorem place_inj {m a a' b b' : ℕ} (h : b < m) (h' : b' < m) :
    a * m + b = a' * m + b' ↔ a = a' ∧ b = b' := by
  have hlt : a * m + b < a' * m + b' ↔ _ := place_lt_iff h h'
  have hgt : a' * m + b' < a * m + b ↔ _ := place_lt_iff h' h
  omega

theorem value_lt_iff {rs ds ds' : List ℕ} (h : Within rs ds) (h' : Within rs ds') :
    value rs ds < value rs ds' ↔ ds < ds' := by
  induction h generalizing ds' with
  | nil =>
    cases h'
    exact iff_of_false (Nat.lt_irrefl 0) (List.not_lt_nil [])
  | cons _ hds ih =>
    cases h' with
    | cons _ hds' =>
      rw [value, value, List.cons_lt_cons_iff, place_lt_iff (value_lt hds) (value_lt hds'), ih hds']

theorem value_inj {rs ds ds' : List ℕ} (h : Within rs ds) (h' : Within rs ds') :
    value rs ds = value rs ds' ↔ ds = ds' := by
  have hlt := value_lt_iff h h'
  have hgt := value_lt_iff h' h
  constructor
  · intro he
    have hnot : ¬ ds < ds' := fun hc => Nat.ne_of_lt (hlt.mpr hc) he
    have hnot' : ¬ ds' < ds := fun hc => Nat.ne_of_gt (hgt.mpr hc) he
    exact List.le_antisymm hnot' hnot
  · rintro rfl
    rfl

theorem value_digits {rs : List ℕ} {n : ℕ} (h : n < rs.prod) :
    Within rs (digits rs n) ∧ value rs (digits rs n) = n := by
  induction rs generalizing n with
  | nil => exact ⟨.nil, (Nat.lt_one_iff.mp h).symm⟩
  | cons r rs ih =>
    rw [List.prod_cons] at h
    have hpos : 0 < rs.prod := Nat.pos_of_ne_zero fun h0 => by
      rw [h0, Nat.mul_zero] at h
      exact Nat.not_lt_zero n h
    obtain ⟨hwithin, hvalue⟩ := ih (Nat.mod_lt n hpos)
    refine ⟨.cons ((Nat.div_lt_iff_lt_mul hpos).mpr h) hwithin, ?_⟩
    rw [digits, value, hvalue, Nat.mul_comm]
    exact Nat.div_add_mod n rs.prod

end EventUdpToKafka.MixedRadix
