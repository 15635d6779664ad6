import Mathlib.Data.List.Basic
import Mathlib.Tactic.Common

set_option autoImplicit false

/-!
# Stores of named counters and histograms

A store holds 64-bit counters and the samples of histograms, both under keys. A key
has neither until it is first used, and an operation leaves every other key alone.
-/
namespace EventUdpToKafka.MetricStore

structure Store (κ α : Type) where
  State : Type
  empty : State
  absolute : κ → UInt64 → State → State
  increment : κ → UInt64 → State → State
  record : κ → α → State → State
  value : State → κ → Option UInt64
  samples : State → κ → Option (List α)

variable {κ α : Type} [DecidableEq κ]

/-- Counters and histograms do not share their keys: a key can have both, and neither sees the
    other. -/
structure Store.Lawful (store : Store κ α) : Prop where
  empty (k : κ) : store.value store.empty k = none
  absolute (k : κ) (n : UInt64) (s : store.State) (k' : κ) :
    store.value (store.absolute k n s) k' =
      if k = k' then some (max ((store.value s k').getD 0) n) else store.value s k'
  increment (k : κ) (n : UInt64) (s : store.State) (k' : κ) :
    store.value (store.increment k n s) k' =
      if k = k' then some ((store.value s k').getD 0 + n) else store.value s k'
  record (k : κ) (x : α) (s : store.State) : store.value (store.record k x s) = store.value s
  emptySamples (k : κ) : store.samples store.empty k = none
  absoluteSamples (k : κ) (n : UInt64) (s : store.State) :
    store.samples (store.absolute k n s) = store.samples s
  incrementSamples (k : κ) (n : UInt64) (s : store.State) :
    store.samples (store.increment k n s) = store.samples s
  recordSamples (k : κ) (x : α) (s : store.State) (k' : κ) :
    store.samples (store.record k x s) k' =
      if k = k' then some ((store.samples s k').getD [] ++ [x]) else store.samples s k'

inductive Update (κ α : Type) where
  | increment (k : κ) (n : UInt64)
  | record (k : κ) (x : α)

/-- What an update adds to the counter of a key. -/
def Update.amount (k : κ) : Update κ α → UInt64
  | .increment k' n => if k' = k then n else 0
  | .record _ _ => 0

/-- What a list of updates adds to the counter of a key. -/
def amount (us : List (Update κ α)) (k : κ) : UInt64 :=
  us.foldr (fun u total => u.amount k + total) 0

theorem amount_cons (u : Update κ α) (us : List (Update κ α)) (k : κ) :
    amount (u :: us) k = u.amount k + amount us k := rfl

namespace Store
variable (store : Store κ α)

def startAll (s : store.State) (keys : List κ) : store.State :=
  keys.foldl (fun s k => store.absolute k 0 s) s

def update (s : store.State) : Update κ α → store.State
  | .increment k n => store.increment k n s
  | .record k x => store.record k x s

def updateAll (s : store.State) (us : List (Update κ α)) : store.State := us.foldl store.update s

private theorem max_zero (v : UInt64) : max v 0 = v := by
  change (if v ≤ 0 then 0 else v) = v
  split
  · rename_i h
    exact (UInt64.toNat_inj.mp (Nat.le_zero.mp (UInt64.le_iff_toNat_le.mp h))).symm
  · rfl

variable {store}

theorem Lawful.startAll (h : store.Lawful) (s : store.State) (keys : List κ) (k : κ) :
    store.value (store.startAll s keys) k =
      if k ∈ keys then some ((store.value s k).getD 0) else store.value s k := by
  induction keys generalizing s with
  | nil => rfl
  | cons key keys ih =>
    have hnext := ih (store.absolute key 0 s)
    rw [h.absolute, max_zero] at hnext
    rw [Store.startAll, List.foldl_cons, ← Store.startAll, hnext]
    by_cases hk : key = k
    · subst hk
      simp
    · simp [hk, Ne.symm hk]

/-- A store in which every key of the increments has a counter gets no other ones. -/
theorem Lawful.updateAll (h : store.Lawful) {s : store.State} {us : List (Update κ α)}
    (hus : ∀ k n, .increment k n ∈ us → (store.value s k).isSome) (k : κ) :
    store.value (store.updateAll s us) k = (store.value s k).map (· + amount us k) := by
  induction us generalizing s with
  | nil =>
    change store.value s k = (store.value s k).map (· + 0)
    simp
  | cons u us ih =>
    have hkept : ∀ k n, .increment k n ∈ us → (store.value (store.update s u) k).isSome := by
      intro k' n' hm
      have hsome := hus k' n' (List.mem_cons_of_mem u hm)
      cases u with
      | record key x => rwa [Store.update, h.record]
      | increment key n =>
        rw [Store.update, h.increment]
        split
        · rfl
        · exact hsome
    have hhead : store.value (store.update s u) k = (store.value s k).map (· + u.amount k) := by
      cases u with
      | record key x =>
        rw [Store.update, h.record, Update.amount]
        simp
      | increment key n =>
        rw [Store.update, h.increment, Update.amount]
        by_cases hk : key = k
        · subst hk
          obtain ⟨v, hv⟩ := Option.isSome_iff_exists.mp (hus key n List.mem_cons_self)
          simp [hv]
        · simp [hk]
    rw [Store.updateAll, List.foldl_cons, ← Store.updateAll, ih hkept, hhead, Option.map_map, amount_cons]
    congr 1
    funext v
    exact UInt64.add_assoc v (u.amount k) (amount us k)

end Store

/-- A store that keeps its counters and its samples as functions. -/
def functionStore (κ α : Type) [DecidableEq κ] : Store κ α where
  State := (κ → Option UInt64) × (κ → Option (List α))
  empty := (fun _ => none, fun _ => none)
  absolute k n s := (fun k' => if k = k' then some (max ((s.1 k').getD 0) n) else s.1 k', s.2)
  increment k n s := (fun k' => if k = k' then some ((s.1 k').getD 0 + n) else s.1 k', s.2)
  record k x s := (s.1, fun k' => if k = k' then some ((s.2 k').getD [] ++ [x]) else s.2 k')
  value s k := s.1 k
  samples s k := s.2 k

theorem functionStore_lawful : (functionStore κ α).Lawful :=
  ⟨fun _ => rfl, fun _ _ _ _ => rfl, fun _ _ _ _ => rfl, fun _ _ _ => rfl, fun _ => rfl,
    fun _ _ _ => rfl, fun _ _ _ => rfl, fun _ _ _ _ => rfl⟩

end EventUdpToKafka.MetricStore
