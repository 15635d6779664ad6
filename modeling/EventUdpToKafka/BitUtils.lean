import EventUdpToKafka.MachineWords

set_option autoImplicit false

namespace EventUdpToKafka.BitUtils
open MachineWords

/-- A bit-mask of the given width, all ones from 32 on. -/
def mask (numBits : UInt32) : UInt32 :=
  u32UnboundedShr 0xFFFFFFFF (u32SaturatingSub 32 numBits)

/-- The number in the most significant bits of a word. It is `none` for widths over 32, and also
    for width zero, where the shift would be by the whole word. -/
def extractMsb (data numBits : UInt32) : Option UInt32 := do
  let shift ← u32CheckedSub 32 numBits
  u32CheckedShr data shift

private theorem sub_toNat {n : UInt32} (h : n.toNat ≤ 32) : (32 - n).toNat = 32 - n.toNat :=
  UInt32.toNat_sub_of_le 32 n h

theorem mask_toNat {n : UInt32} (h : n.toNat ≤ 32) : (mask n).toNat = 2 ^ n.toNat - 1 := by
  have hs := sub_toNat h
  have hle : n.toNat ≤ (32 : UInt32).toNat := h
  rw [mask, u32SaturatingSub, if_pos hle, u32UnboundedShr, hs]
  by_cases h0 : n.toNat = 0
  · rw [if_neg (by omega), h0]
    rfl
  · rw [if_pos (by omega), UInt32.toNat_shiftRight, hs, Nat.mod_eq_of_lt (by omega),
      Nat.shiftRight_eq_div_pow]
    have hpow : 2 ^ 32 = 2 ^ (32 - n.toNat) * 2 ^ n.toNat := by
      rw [← Nat.pow_add, Nat.sub_add_cancel h]
    have hr := Nat.two_pow_pos (32 - n.toNat)
    have hdiv := Nat.mul_sub_div 0 (2 ^ (32 - n.toNat)) (2 ^ n.toNat) (by rw [← hpow]; decide)
    rw [← hpow, Nat.zero_div] at hdiv
    exact hdiv

theorem mask_wide {n : UInt32} (h : 32 ≤ n.toNat) : mask n = 0xFFFFFFFF := by
  rw [mask, u32SaturatingSub]
  split
  · rename_i hle
    have hn : n = 32 := UInt32.toNat_inj.mp (Nat.le_antisymm hle h)
    subst hn
    rfl
  · rfl

theorem and_mask_toNat (w n : UInt32) : (w &&& mask n).toNat = w.toNat % 2 ^ n.toNat := by
  rw [UInt32.toNat_and]
  rcases Nat.le_total n.toNat 32 with h | h
  · rw [mask_toNat h, Nat.and_two_pow_sub_one_eq_mod]
  · have hw : w.toNat < 2 ^ n.toNat :=
      Nat.lt_of_lt_of_le w.toNat_lt (Nat.pow_le_pow_right (by decide) h)
    rw [mask_wide h, Nat.mod_eq_of_lt hw]
    exact (Nat.and_two_pow_sub_one_eq_mod w.toNat 32).trans (Nat.mod_eq_of_lt w.toNat_lt)

theorem extractMsb_toNat (w : UInt32) {n : UInt32} (h : n.toNat ≤ 32) :
    ((extractMsb w n).getD 0).toNat = w.toNat / 2 ^ (32 - n.toNat) := by
  have hs := sub_toNat h
  have hle : n.toNat ≤ (32 : UInt32).toNat := h
  simp only [extractMsb, u32CheckedSub, if_pos hle, Option.bind_eq_bind, Option.bind_some,
    u32CheckedShr, hs]
  by_cases h0 : n.toNat = 0
  · rw [if_neg (by omega), h0]
    exact (Nat.div_eq_of_lt w.toNat_lt).symm
  · rw [if_pos (by omega), Option.getD_some, UInt32.toNat_shiftRight, hs,
      Nat.mod_eq_of_lt (by omega), Nat.shiftRight_eq_div_pow]

theorem extractMsb_wide (w : UInt32) {n : UInt32} (h : 32 < n.toNat) : extractMsb w n = none := by
  have hle : ¬ n.toNat ≤ (32 : UInt32).toNat := Nat.not_le_of_gt h
  simp only [extractMsb, u32CheckedSub, if_neg hle, Option.bind_eq_bind, Option.bind_none]

theorem unboundedShl_one_toNat (n : UInt32) :
    (u32UnboundedShl 1 n).toNat = if n.toNat < 32 then 2 ^ n.toNat else 0 := by
  rw [u32UnboundedShl]
  split
  · rename_i h
    have hlt : 2 ^ n.toNat < 2 ^ 32 := Nat.pow_lt_pow_right (by decide) h
    rw [UInt32.toNat_shiftLeft, Nat.mod_eq_of_lt h, Nat.shiftLeft_eq]
    change 1 * 2 ^ n.toNat % 2 ^ 32 = _
    rw [Nat.one_mul, Nat.mod_eq_of_lt hlt]
  · rfl

example : extractMsb 0b11010011111111110000000010101010 5 = some 0b11010 := by decide

end EventUdpToKafka.BitUtils
