import Mathlib.Data.List.Basic
import Mathlib.Tactic.Ring
import Mathlib.Tactic.Common

set_option autoImplicit false

/-!
# Big-endian byte strings

Numerals in base 256 with the most significant byte first, the fixed arrays
`[u8; 4]` and `[u8; 8]`, and the unsigned words read from them.
-/
namespace EventUdpToKafka.BigEndianBytes

def beNat (l : List UInt8) : ℕ := l.foldl (fun acc b => acc * 256 + b.toNat) 0

/-- The `k` low bytes of `n`. -/
def beBytes : ℕ → ℕ → List UInt8
  | 0, _ => []
  | k + 1, n => UInt8.ofNat (n / 256 ^ k) :: beBytes k n

private theorem foldl_start (l : List UInt8) (a : ℕ) :
    l.foldl (fun acc b => acc * 256 + b.toNat) a = a * 256 ^ l.length + beNat l := by
  induction l generalizing a with
  | nil => simp only [List.foldl_nil, List.length_nil, Nat.pow_zero, Nat.mul_one, beNat,
      Nat.add_zero]
  | cons b l ih =>
    have hb : beNat (b :: l) = (0 * 256 + b.toNat) * 256 ^ l.length + beNat l := ih _
    rw [List.foldl_cons, ih, hb, List.length_cons, Nat.pow_succ]
    ring

theorem beNat_cons (b : UInt8) (l : List UInt8) :
    beNat (b :: l) = b.toNat * 256 ^ l.length + beNat l := by
  have h := foldl_start l (0 * 256 + b.toNat)
  rw [Nat.zero_mul, Nat.zero_add] at h
  simpa only [beNat, List.foldl_cons, Nat.zero_mul, Nat.zero_add] using h

theorem beNat_lt (l : List UInt8) : beNat l < 256 ^ l.length := by
  induction l with
  | nil => exact Nat.zero_lt_one
  | cons b l ih =>
    have hb := b.toNat_lt
    have hm : b.toNat * 256 ^ l.length ≤ 255 * 256 ^ l.length :=
      Nat.mul_le_mul_right _ (by omega)
    rw [beNat_cons, List.length_cons, Nat.pow_succ]
    omega

theorem beBytes_length (k n : ℕ) : (beBytes k n).length = k := by
  induction k with
  | zero => rfl
  | succ k ih => rw [beBytes, List.length_cons, ih]

theorem beNat_beBytes (k n : ℕ) : beNat (beBytes k n) = n % 256 ^ k := by
  induction k with
  | zero => rw [Nat.pow_zero, Nat.mod_one]; rfl
  | succ k ih =>
    have hb : (UInt8.ofNat (n / 256 ^ k)).toNat = n / 256 ^ k % 256 := UInt8.toNat_ofNat'
    rw [beBytes, beNat_cons, ih, beBytes_length, hb, Nat.pow_succ, Nat.mod_mul,
      Nat.mul_comm (256 ^ k), Nat.add_comm]

/-- Numerals of the same length are the same when their values are. -/
theorem beNat_inj {l l' : List UInt8} (hlen : l.length = l'.length) (h : beNat l = beNat l') :
    l = l' := by
  induction l generalizing l' with
  | nil => exact (List.eq_nil_of_length_eq_zero hlen.symm).symm
  | cons b l ih =>
    cases l' with
    | nil => cases hlen
    | cons b' l' =>
      have hrest : l.length = l'.length := Nat.succ.inj hlen
      have hlead (c : UInt8) {k : List UInt8} (hk : k.length = l.length) :
          beNat (c :: k) / 256 ^ l.length = c.toNat ∧ beNat (c :: k) % 256 ^ l.length = beNat k := by
        have hlt := beNat_lt k
        rw [hk] at hlt
        rw [beNat_cons, hk, Nat.mul_comm, Nat.mul_add_div (Nat.pow_pos (by decide)), Nat.mul_add_mod,
          Nat.div_eq_of_lt hlt, Nat.mod_eq_of_lt hlt, Nat.add_zero]
        exact ⟨rfl, rfl⟩
      obtain ⟨hb, hl⟩ := hlead b (k := l) rfl
      obtain ⟨hb', hl'⟩ := hlead b' hrest.symm
      rw [h] at hb hl
      rw [UInt8.toNat_inj.mp (hb.symm.trans hb'), ih hrest (hl.symm.trans hl')]

theorem beBytes_beNat (l : List UInt8) : beBytes l.length (beNat l) = l := by
  apply beNat_inj (beBytes_length _ _)
  rw [beNat_beBytes, Nat.mod_eq_of_lt (beNat_lt l)]

structure Bytes4 where
  b0 : UInt8
  b1 : UInt8
  b2 : UInt8
  b3 : UInt8
  deriving DecidableEq

structure Bytes8 where
  b0 : UInt8
  b1 : UInt8
  b2 : UInt8
  b3 : UInt8
  b4 : UInt8
  b5 : UInt8
  b6 : UInt8
  b7 : UInt8
  deriving DecidableEq

def Bytes4.toList (w : Bytes4) : List UInt8 := [w.b0, w.b1, w.b2, w.b3]

def Bytes8.toList (w : Bytes8) : List UInt8 := [w.b0, w.b1, w.b2, w.b3, w.b4, w.b5, w.b6, w.b7]

def Bytes4.tryFrom : List UInt8 → Option Bytes4
  | [b0, b1, b2, b3] => some ⟨b0, b1, b2, b3⟩
  | _ => none

def Bytes8.tryFrom : List UInt8 → Option Bytes8
  | [b0, b1, b2, b3, b4, b5, b6, b7] => some ⟨b0, b1, b2, b3, b4, b5, b6, b7⟩
  | _ => none

theorem bytes8_of_length : (l : List UInt8) → l.length = 8 → ∃ w : Bytes8, l = w.toList
  | [b0, b1, b2, b3, b4, b5, b6, b7], _ => ⟨⟨b0, b1, b2, b3, b4, b5, b6, b7⟩, rfl⟩

theorem bytes8_tryFrom_toList (w : Bytes8) : Bytes8.tryFrom w.toList = some w := rfl

theorem bytes8_tryFrom_of_length {l : List UInt8} (h : l.length ≠ 8) : Bytes8.tryFrom l = none := by
  unfold Bytes8.tryFrom
  split
  · exact absurd rfl h
  · rfl

def Bytes8.high (w : Bytes8) : Bytes4 := ⟨w.b0, w.b1, w.b2, w.b3⟩

def Bytes8.low (w : Bytes8) : Bytes4 := ⟨w.b4, w.b5, w.b6, w.b7⟩

def u16FromBeBytes (b0 b1 : UInt8) : UInt16 := UInt16.ofNat (beNat [b0, b1])

def u32FromBeBytes (w : Bytes4) : UInt32 := UInt32.ofNat (beNat w.toList)

def u64FromBeBytes (w : Bytes8) : UInt64 := UInt64.ofNat (beNat w.toList)

def u16ToBeBytes (x : UInt16) : List UInt8 :=
  [UInt8.ofNat (x.toNat / 256 ^ 1), UInt8.ofNat (x.toNat / 256 ^ 0)]

def u32ToBeBytes (x : UInt32) : Bytes4 :=
  ⟨UInt8.ofNat (x.toNat / 256 ^ 3), UInt8.ofNat (x.toNat / 256 ^ 2),
    UInt8.ofNat (x.toNat / 256 ^ 1), UInt8.ofNat (x.toNat / 256 ^ 0)⟩

def u64ToBeBytes (x : UInt64) : Bytes8 :=
  ⟨UInt8.ofNat (x.toNat / 256 ^ 7), UInt8.ofNat (x.toNat / 256 ^ 6),
    UInt8.ofNat (x.toNat / 256 ^ 5), UInt8.ofNat (x.toNat / 256 ^ 4),
    UInt8.ofNat (x.toNat / 256 ^ 3), UInt8.ofNat (x.toNat / 256 ^ 2),
    UInt8.ofNat (x.toNat / 256 ^ 1), UInt8.ofNat (x.toNat / 256 ^ 0)⟩

theorem beNat_two (b0 b1 : UInt8) : beNat [b0, b1] = b0.toNat * 256 + b1.toNat := by
  simp only [beNat, List.foldl_cons, List.foldl_nil]
  omega

theorem beNat_four (w : Bytes4) : beNat w.toList =
    ((w.b0.toNat * 256 + w.b1.toNat) * 256 + w.b2.toNat) * 256 + w.b3.toNat := by
  simp only [beNat, Bytes4.toList, List.foldl_cons, List.foldl_nil]
  omega

theorem u16FromBeBytes_toNat (b0 b1 : UInt8) :
    (u16FromBeBytes b0 b1).toNat = b0.toNat * 256 + b1.toNat := by
  have h : beNat [b0, b1] < 256 ^ 2 := beNat_lt [b0, b1]
  rw [u16FromBeBytes, UInt16.toNat_ofNat', Nat.mod_eq_of_lt (by omega), beNat_two]

theorem u32FromBeBytes_toNat (w : Bytes4) : (u32FromBeBytes w).toNat = beNat w.toList := by
  have h : beNat w.toList < 256 ^ 4 := beNat_lt w.toList
  rw [u32FromBeBytes, UInt32.toNat_ofNat', Nat.mod_eq_of_lt (by omega)]

theorem u64FromBeBytes_toNat (w : Bytes8) : (u64FromBeBytes w).toNat = beNat w.toList := by
  have h : beNat w.toList < 256 ^ 8 := beNat_lt w.toList
  rw [u64FromBeBytes, UInt64.toNat_ofNat', Nat.mod_eq_of_lt (by omega)]

theorem u16FromBeBytes_toBeBytes (x : UInt16) :
    u16FromBeBytes (UInt8.ofNat (x.toNat / 256 ^ 1)) (UInt8.ofNat (x.toNat / 256 ^ 0)) = x := by
  apply UInt16.toNat_inj.mp
  have h := beNat_beBytes 2 x.toNat
  rw [u16FromBeBytes_toNat, ← beNat_two]
  exact h.trans (Nat.mod_eq_of_lt x.toNat_lt)

theorem u32FromBeBytes_toBeBytes (x : UInt32) : u32FromBeBytes (u32ToBeBytes x) = x := by
  apply UInt32.toNat_inj.mp
  rw [u32FromBeBytes_toNat]
  exact (beNat_beBytes 4 x.toNat).trans (Nat.mod_eq_of_lt x.toNat_lt)

theorem u64FromBeBytes_toBeBytes (x : UInt64) : u64FromBeBytes (u64ToBeBytes x) = x := by
  apply UInt64.toNat_inj.mp
  rw [u64FromBeBytes_toNat]
  exact (beNat_beBytes 8 x.toNat).trans (Nat.mod_eq_of_lt x.toNat_lt)

theorem toList4_inj {w w' : Bytes4} (h : w.toList = w'.toList) : w = w' :=
  Option.some.inj (congrArg Bytes4.tryFrom h)

theorem toList8_inj {w w' : Bytes8} (h : w.toList = w'.toList) : w = w' :=
  Option.some.inj (congrArg Bytes8.tryFrom h)

theorem u16ToBeBytes_fromBeBytes (b0 b1 : UInt8) : u16ToBeBytes (u16FromBeBytes b0 b1) = [b0, b1] := by
  have h := beBytes_beNat [b0, b1]
  rwa [beNat_two, ← u16FromBeBytes_toNat] at h

theorem u32ToBeBytes_fromBeBytes (w : Bytes4) : u32ToBeBytes (u32FromBeBytes w) = w := by
  have h := beBytes_beNat w.toList
  rw [← u32FromBeBytes_toNat] at h
  exact toList4_inj h

theorem u64ToBeBytes_fromBeBytes (w : Bytes8) : u64ToBeBytes (u64FromBeBytes w) = w := by
  have h := beBytes_beNat w.toList
  rw [← u64FromBeBytes_toNat] at h
  exact toList8_inj h

/-- The byte at an index, zero past the end. -/
def byteAt (l : List UInt8) (i : ℕ) : UInt8 := l.getD i 0

def bytes4At (l : List UInt8) (i : ℕ) : Bytes4 :=
  ⟨byteAt l i, byteAt l (i + 1), byteAt l (i + 2), byteAt l (i + 3)⟩

def bytes8At (l : List UInt8) (i : ℕ) : Bytes8 :=
  ⟨byteAt l i, byteAt l (i + 1), byteAt l (i + 2), byteAt l (i + 3),
    byteAt l (i + 4), byteAt l (i + 5), byteAt l (i + 6), byteAt l (i + 7)⟩

theorem byteAt_append_left {l : List UInt8} {i : ℕ} (h : i < l.length) (t : List UInt8) :
    byteAt (l ++ t) i = byteAt l i := by
  simp only [byteAt, List.getD_eq_getElem?_getD, List.getElem?_append_left h]

theorem byteAt_append_right {l : List UInt8} {i : ℕ} (t : List UInt8) :
    byteAt (l ++ t) (l.length + i) = byteAt t i := by
  simp only [byteAt, List.getD_eq_getElem?_getD, List.getElem?_append_right (Nat.le_add_right _ _),
    Nat.add_sub_cancel_left]

theorem byteAt_take {l : List UInt8} {i n : ℕ} (h : i < n) : byteAt (l.take n) i = byteAt l i := by
  simp only [byteAt, List.getD_eq_getElem?_getD, List.getElem?_take_of_lt h]

theorem byteAt_drop (l : List UInt8) (n i : ℕ) : byteAt (l.drop n) i = byteAt l (n + i) := by
  simp only [byteAt, List.getD_eq_getElem?_getD, List.getElem?_drop]

theorem eq_of_byteAt {l l' : List UInt8} (hlen : l'.length = l.length)
    (h : ∀ i < l.length, byteAt l i = byteAt l' i) : l = l' := by
  apply List.ext_getElem hlen.symm
  intro i hi hi'
  have hb := h i hi
  simp only [byteAt, List.getD_eq_getElem?_getD, List.getElem?_eq_getElem hi,
    List.getElem?_eq_getElem hi', Option.getD_some] at hb
  exact hb

theorem bytes4At_append_left {l : List UInt8} {i : ℕ} (h : i + 4 ≤ l.length) (t : List UInt8) :
    bytes4At (l ++ t) i = bytes4At l i := by
  simp (disch := omega) only [bytes4At, byteAt_append_left]

theorem bytes8At_append_left {l : List UInt8} {i : ℕ} (h : i + 8 ≤ l.length) (t : List UInt8) :
    bytes8At (l ++ t) i = bytes8At l i := by
  simp (disch := omega) only [bytes8At, byteAt_append_left]

theorem window_eq {l : List UInt8} {i k : ℕ} (h : i + k ≤ l.length) :
    (l.take (i + k)).drop i = (List.range k).map fun j => byteAt l (i + j) := by
  apply List.ext_getElem
  · rw [List.length_drop, List.length_take, List.length_map, List.length_range]
    omega
  · intro j hj _
    rw [List.length_drop, List.length_take] at hj
    have hij : i + j < l.length := by omega
    simp only [List.getElem_drop, List.getElem_take, List.getElem_map, List.getElem_range, byteAt,
      List.getD_eq_getElem?_getD, List.getElem?_eq_getElem hij, Option.getD_some]

theorem bytes4_tryFrom_window {l : List UInt8} {i : ℕ} (h : i + 4 ≤ l.length) :
    Bytes4.tryFrom ((l.take (i + 4)).drop i) = some (bytes4At l i) := by
  rw [window_eq h]
  rfl

theorem bytes8_tryFrom_window {l : List UInt8} {i : ℕ} (h : i + 8 ≤ l.length) :
    Bytes8.tryFrom ((l.take (i + 8)).drop i) = some (bytes8At l i) := by
  rw [window_eq h]
  rfl

/-- A whole number of blocks of the same length, taken from the front. -/
theorem take_blocks {l : List UInt8} {k n : ℕ} (h : k * n ≤ l.length) :
    l.take (k * n) = (List.range n).flatMap fun i => (List.range k).map fun j => byteAt l (k * i + j) := by
  induction n with
  | zero => rw [Nat.mul_zero, List.take_zero, List.range_zero, List.flatMap_nil]
  | succ n ih =>
    rw [Nat.mul_succ] at h ⊢
    have htake : l.take (k * n) = (l.take (k * n + k)).take (k * n) := by
      rw [List.take_take, Nat.min_eq_left (Nat.le_add_right _ _)]
    rw [List.range_succ, List.flatMap_append, ← ih (by omega), List.flatMap_singleton, ← window_eq h,
      htake, List.take_append_drop]

theorem take_words {l : List UInt8} {n : ℕ} (h : 4 * n ≤ l.length) :
    l.take (4 * n) = (List.range n).flatMap fun i => (bytes4At l (4 * i)).toList := take_blocks h

/-- `as_chunks::<8>().0`: the whole chunks, without the bytes left over. -/
def asChunks8 : List UInt8 → List Bytes8
  | b0 :: b1 :: b2 :: b3 :: b4 :: b5 :: b6 :: b7 :: l =>
    ⟨b0, b1, b2, b3, b4, b5, b6, b7⟩ :: asChunks8 l
  | _ => []

theorem asChunks8_toList_append (w : Bytes8) (l : List UInt8) :
    asChunks8 (w.toList ++ l) = w :: asChunks8 l := rfl

/-- The whole chunks lie behind one another from the front. -/
theorem asChunks8_eq (l : List UInt8) :
    asChunks8 l = (List.range (l.length / 8)).map fun k => bytes8At l (8 * k) := by
  fun_induction asChunks8 l with
  | case1 b0 b1 b2 b3 b4 b5 b6 b7 l ih =>
    have hlen : (b0 :: b1 :: b2 :: b3 :: b4 :: b5 :: b6 :: b7 :: l).length / 8 = l.length / 8 + 1 := by
      simp only [List.length_cons]
      omega
    rw [hlen, List.range_succ_eq_map, List.map_cons, List.map_map, ih]
    rfl
  | case2 l h =>
    have hlt : l.length < 8 := by
      by_contra hc
      obtain ⟨w, hw⟩ := bytes8_of_length (l.take 8) (by rw [List.length_take]; omega)
      exact h w.b0 w.b1 w.b2 w.b3 w.b4 w.b5 w.b6 w.b7 (l.drop 8)
        ((List.take_append_drop 8 l).symm.trans (congrArg (· ++ l.drop 8) hw))
    rw [Nat.div_eq_of_lt hlt]
    rfl

theorem asChunks8_length (l : List UInt8) : (asChunks8 l).length = l.length / 8 := by
  rw [asChunks8_eq, List.length_map, List.length_range]

theorem asChunks8_append {l : List UInt8} (h : l.length % 8 = 0) (t : List UInt8) :
    asChunks8 (l ++ t) = asChunks8 l ++ asChunks8 t := by
  fun_induction asChunks8 l with
  | case1 b0 b1 b2 b3 b4 b5 b6 b7 l ih =>
    simp only [List.length_cons] at h
    exact congrArg (List.cons _) (ih (by omega))
  | case2 l hshort =>
    have hchunks : (asChunks8 l).length = 0 := by
      rw [asChunks8]
      · rfl
      · exact hshort
    rw [asChunks8_length] at hchunks
    obtain rfl : l = [] := List.eq_nil_of_length_eq_zero (by omega)
    rfl

theorem asChunks8_flatten {l : List UInt8} (h : l.length % 8 = 0) :
    (asChunks8 l).flatMap Bytes8.toList = l := by
  have hlen : 8 * (l.length / 8) = l.length := by omega
  have hblocks := take_blocks (Nat.le_of_eq hlen)
  rw [hlen, List.take_length] at hblocks
  rw [asChunks8_eq, List.flatMap_map]
  exact hblocks.symm

end EventUdpToKafka.BigEndianBytes
