import Mathlib.Data.Int.Notation
import Mathlib.Data.List.Basic
import Mathlib.Tactic.Ring
import Mathlib.Tactic.Common

set_option autoImplicit false

/-!
# Rust machine words, slices and panics

Arithmetic of the fixed-width integers as the two cargo profiles compile it: the
dev profile panics on overflow, the release profile wraps. Slice bounds are
checked in both.
-/
namespace EventUdpToKafka.MachineWords

inductive Profile where
  | dev
  | release
  deriving DecidableEq

/-- Ways a computation ends without a value. Running out of loop fuel is no
    behaviour of the code; it is kept apart so that it can be proved absent. -/
inductive Stop where
  | panic
  | outOfFuel
  deriving DecidableEq

abbrev Checked (α : Type) := Except Stop α

/-- Slices are at most `isize::MAX` bytes long. -/
def isizeMax : ℕ := 2 ^ 63 - 1

def Profile.arith {α : Type} (p : Profile) (fits : Prop) [Decidable fits] (wrapped : α) :
    Checked α :=
  match p with
  | .dev => if fits then .ok wrapped else .error .panic
  | .release => .ok wrapped

def u32Add (p : Profile) (a b : UInt32) : Checked UInt32 :=
  p.arith (a.toNat + b.toNat < 2 ^ 32) (a + b)

def u32Mul (p : Profile) (a b : UInt32) : Checked UInt32 :=
  p.arith (a.toNat * b.toNat < 2 ^ 32) (a * b)

def u64Add (p : Profile) (a b : UInt64) : Checked UInt64 :=
  p.arith (a.toNat + b.toNat < 2 ^ 64) (a + b)

def u64Mul (p : Profile) (a b : UInt64) : Checked UInt64 :=
  p.arith (a.toNat * b.toNat < 2 ^ 64) (a * b)

def i32Add (p : Profile) (a b : Int32) : Checked Int32 :=
  p.arith (-2 ^ 31 ≤ a.toInt + b.toInt ∧ a.toInt + b.toInt < 2 ^ 31) (a + b)

/-- Subtraction of two `usize` values on a 64-bit target. -/
def usizeSub (p : Profile) (a b : ℕ) : Checked ℕ :=
  p.arith (b ≤ a) ((a + (2 ^ 64 - b)) % 2 ^ 64)

def u32CheckedMul (a b : UInt32) : Option UInt32 :=
  if a.toNat * b.toNat < 2 ^ 32 then some (a * b) else none

def u32CheckedSub (a b : UInt32) : Option UInt32 :=
  if b.toNat ≤ a.toNat then some (a - b) else none

def u32SaturatingSub (a b : UInt32) : UInt32 :=
  if b.toNat ≤ a.toNat then a - b else 0

def u32CheckedShr (a n : UInt32) : Option UInt32 :=
  if n.toNat < 32 then some (a >>> n) else none

def u32UnboundedShr (a n : UInt32) : UInt32 :=
  if n.toNat < 32 then a >>> n else 0

def u32UnboundedShl (a n : UInt32) : UInt32 :=
  if n.toNat < 32 then a <<< n else 0

/-- `u64 → i32` by `try_into`. -/
def i32TryFrom (a : UInt64) : Option Int32 :=
  if a.toNat < 2 ^ 31 then some (Int32.ofNat a.toNat) else none

/-- `u64 → u32` by `try_into`. -/
def u32TryFrom (a : UInt64) : Option UInt32 :=
  if a.toNat < 2 ^ 32 then some a.toUInt32 else none

/-- `i64 → u64` by `try_into`. -/
def u64TryFrom (a : Int64) : Option UInt64 :=
  if 0 ≤ a.toInt then some a.toUInt64 else none

section Slices
variable {α : Type}

def index (l : List α) (i : ℕ) : Checked α :=
  match l[i]? with
  | some a => .ok a
  | none => .error .panic

/-- `&l[a..b]`. -/
def slice (l : List α) (a b : ℕ) : Checked (List α) :=
  if a ≤ b ∧ b ≤ l.length then .ok ((l.take b).drop a) else .error .panic

/-- `l.get(a..)`. -/
def getFrom (l : List α) (a : ℕ) : Option (List α) :=
  if a ≤ l.length then some (l.drop a) else none

def expect (x : Option α) : Checked α :=
  match x with
  | some a => .ok a
  | none => .error .panic

def assert (c : Prop) [Decidable c] : Checked Unit :=
  if c then .ok () else .error .panic

end Slices

@[simp] theorem ok_bind {α β : Type} (a : α) (f : α → Checked β) :
    (Except.ok a >>= f : Checked β) = f a := rfl

@[simp] theorem error_bind {α β : Type} (s : Stop) (f : α → Checked β) :
    (Except.error s >>= f : Checked β) = .error s := rfl

@[simp] theorem pure_eq_ok {α : Type} (a : α) : (pure a : Checked α) = .ok a := rfl

section Arith
variable {α : Type} {fits : Prop} [Decidable fits] {wrapped : α}

theorem arith_fits (p : Profile) (h : fits) : p.arith fits wrapped = .ok wrapped := by
  cases p with
  | dev => exact if_pos h
  | release => rfl

theorem arith_dev_panics (h : ¬ fits) : Profile.dev.arith fits wrapped = .error .panic := if_neg h

/-- A chain of operations is one operation that fits when each link does. -/
theorem arith_bind {β : Type} (p : Profile) {fits' : Prop} [Decidable fits'] {y : β}
    {g : α → Checked β} (h : g wrapped = p.arith fits' y) :
    p.arith fits wrapped >>= g = p.arith (fits ∧ fits') y := by
  cases p with
  | release => exact h
  | dev =>
    by_cases hf : fits
    · rw [arith_fits _ hf, ok_bind, h]
      simp only [Profile.arith, hf, true_and]
    · rw [arith_dev_panics hf, error_bind, arith_dev_panics fun hc => hf hc.1]

theorem arith_map {β : Type} (p : Profile) (f : α → β) :
    (p.arith fits wrapped >>= fun a => .ok (f a)) = p.arith fits (f wrapped) := by
  cases p with
  | release => rfl
  | dev =>
    by_cases hf : fits
    · rw [arith_fits _ hf, arith_fits _ hf, ok_bind]
    · rw [arith_dev_panics hf, arith_dev_panics hf, error_bind]

theorem arith_dev_iff : (∃ a, Profile.dev.arith fits wrapped = .ok a) ↔ fits := by
  by_cases h : fits
  · rw [arith_fits _ h]
    exact iff_of_true ⟨_, rfl⟩ h
  · rw [arith_dev_panics h]
    exact iff_of_false (fun ⟨_, ha⟩ => nomatch ha) h

theorem arith_dev_bind_iff {β : Type} {g : α → Checked β} :
    (∃ b, (Profile.dev.arith fits wrapped >>= g) = .ok b) ↔ fits ∧ ∃ b, g wrapped = .ok b := by
  by_cases h : fits
  · rw [arith_fits _ h, ok_bind, and_iff_right h]
  · rw [arith_dev_panics h, error_bind]
    exact iff_of_false (fun ⟨_, hb⟩ => nomatch hb) fun hb => h hb.1

theorem arith_congr (p : Profile) {fits' : Prop} [Decidable fits'] (h : fits ↔ fits') :
    p.arith fits wrapped = p.arith fits' wrapped := by
  cases p with
  | release => rfl
  | dev => simp only [Profile.arith, h]

end Arith

theorem u32_toInt32_toInt (x : UInt32) :
    x.toInt32.toInt = if x.toNat < 2 ^ 31 then (x.toNat : ℤ) else (x.toNat : ℤ) - 2 ^ 32 := by
  have h := BitVec.toInt_eq_toNat_cond x.toInt32.toBitVec
  have hiff : 2 * x.toNat < 2 ^ 32 ↔ x.toNat < 2 ^ 31 := by omega
  rw [UInt32.toBitVec_toInt32] at h
  change x.toInt32.toInt = if 2 * x.toNat < 2 ^ 32 then (x.toNat : ℤ) else (x.toNat : ℤ) - 2 ^ 32 at h
  simpa only [hiff] using h

theorem u32_toInt32_eq_iff {x : UInt32} {n : ℕ} (h : x.toNat = n % 2 ^ 32) :
    x.toInt32.toInt = (n : ℤ) ↔ n < 2 ^ 31 := by
  constructor
  · intro he
    have hlt := x.toInt32.toInt_lt
    rw [he] at hlt
    omega
  · intro hn
    have hx : x.toNat = n := by omega
    rw [u32_toInt32_toInt, hx, if_pos hn]

theorem u64Mul_ofNat (p : Profile) {a b : ℕ} (ha : a < 2 ^ 64) (hb : b < 2 ^ 64)
    (h : a * b < 2 ^ 64) : u64Mul p (UInt64.ofNat a) (UInt64.ofNat b) = .ok (UInt64.ofNat (a * b)) := by
  rw [u64Mul, UInt64.toNat_ofNat_of_lt' ha, UInt64.toNat_ofNat_of_lt' hb, arith_fits p h,
    UInt64.ofNat_mul]

theorem u64Add_ofNat (p : Profile) {a b : ℕ} (h : a + b < 2 ^ 64) :
    u64Add p (UInt64.ofNat a) (UInt64.ofNat b) = .ok (UInt64.ofNat (a + b)) := by
  have ha : a < 2 ^ 64 := by omega
  have hb : b < 2 ^ 64 := by omega
  rw [u64Add, UInt64.toNat_ofNat_of_lt' ha, UInt64.toNat_ofNat_of_lt' hb, arith_fits p h,
    UInt64.ofNat_add]

theorem i32Add_ofNat (p : Profile) {a b : ℕ} (h : a + b < 2 ^ 31) :
    i32Add p (Int32.ofNat a) (Int32.ofNat b) = .ok (Int32.ofNat (a + b)) := by
  have ha : a < 2 ^ 31 := by omega
  have hb : b < 2 ^ 31 := by omega
  rw [i32Add, Int32.toInt_ofNat_of_lt ha, Int32.toInt_ofNat_of_lt hb, arith_fits p (by omega),
    Int32.ofNat_add]

theorem u64TryFrom_of_toInt {a : Int64} {n : ℕ} (h : a.toInt = (n : ℤ)) :
    u64TryFrom a = some (UInt64.ofNat n) := by
  have ha : a = Int64.ofNat n := by
    rw [← Int64.ofInt_toInt a, h, Int64.ofInt_eq_ofNat]
  rw [u64TryFrom, if_pos (by omega), ha]
  rfl

theorem u64_ofNat_toInt64_toInt {n : ℕ} (h : n < 2 ^ 63) :
    (UInt64.ofNat n).toInt64.toInt = (n : ℤ) := Int64.toInt_ofNat_of_lt h

theorem slice_of_le {α : Type} {l : List α} {a b : ℕ} (h : a ≤ b) (hb : b ≤ l.length) :
    slice l a b = .ok ((l.take b).drop a) := if_pos ⟨h, hb⟩

theorem slice_of_not {α : Type} {l : List α} {a b : ℕ} (h : ¬ (a ≤ b ∧ b ≤ l.length)) :
    slice l a b = .error .panic := if_neg h

theorem getFrom_of_le {α : Type} {l : List α} {a : ℕ} (h : a ≤ l.length) :
    getFrom l a = some (l.drop a) := if_pos h

theorem usizeSub_of_le (p : Profile) {a b : ℕ} (h : b ≤ a) (ha : a < 2 ^ 64) :
    usizeSub p a b = .ok (a - b) := by
  have he : (a + (2 ^ 64 - b)) % 2 ^ 64 = a - b := by omega
  rw [usizeSub, arith_fits p h, he]

end EventUdpToKafka.MachineWords
