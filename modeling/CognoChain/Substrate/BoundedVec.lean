import Mathlib.Data.List.Nodup
import Mathlib.Tactic

/-!
# Bounded vectors

A list that cannot grow past its bound: pushing onto a full one fails, and
keeping a part of it never does.
-/

namespace Substrate

structure BoundedVec (α : Type*) (max : ℕ) where
  items : List α
  bounded : items.length ≤ max
deriving DecidableEq

namespace BoundedVec

variable {α : Type*} {max : ℕ} {v : BoundedVec α max}

instance : EmptyCollection (BoundedVec α max) := ⟨⟨[], Nat.zero_le max⟩⟩

def ofList (items : List α) : Option (BoundedVec α max) :=
  if h : items.length ≤ max then some ⟨items, h⟩ else none

def tryPush (v : BoundedVec α max) (a : α) : Option (BoundedVec α max) :=
  ofList (v.items ++ [a])

def retain (v : BoundedVec α max) (keep : α → Bool) : BoundedVec α max :=
  ⟨v.items.filter keep, Nat.le_trans (List.length_filter_le keep v.items) v.bounded⟩

theorem ofList_eq_some {items : List α} (h : ofList items = some v) :
    v.items = items := by
  unfold ofList at h
  split at h
  next => exact (congrArg BoundedVec.items (Option.some.inj h)).symm
  next => cases h

theorem tryPush_eq_some {w : BoundedVec α max} {a : α} (h : v.tryPush a = some w) :
    w.items = v.items ++ [a] :=
  ofList_eq_some h

@[simp] theorem retain_items (v : BoundedVec α max) (keep : α → Bool) :
    (v.retain keep).items = v.items.filter keep := rfl

theorem length_le_retain_ne [DecidableEq α] (hnodup : v.items.Nodup) (a : α) :
    v.items.length - 1 ≤ (v.retain (· ≠ a)).items.length := by
  have hfilter : (v.retain (· ≠ a)).items = v.items.erase a := by
    rw [hnodup.erase_eq_filter, retain_items]
    exact List.filter_congr fun b _ => decide_not.trans rfl
  rw [hfilter, List.length_erase]
  split <;> omega

end BoundedVec

end Substrate
