import Mathlib.Data.List.Chain
import Mathlib.Tactic

/-!
# Climbing parent links

A climb follows parent links from a starting point as long as they lead to
stored points it has not seen, up to a cap.  Links may be dangling or run in
circles; there is one maximal climb from every point.
-/

namespace Substrate

variable {α : Type*} {parent : α → Option α} {stored : α → Prop} {room : ℕ} {seen up : List α}
  {start above : α}

/-- The points of a maximal climb, nearest first.  Points of `seen` count as
visited before it began. -/
structure Climbs (parent : α → Option α) (stored : α → Prop) (room : ℕ) (seen : List α)
    (start : α) (up : List α) : Prop where
  linked : List.IsChain (fun child above => parent child = some above) (start :: up)
  isStored : ∀ above ∈ up, stored above
  nodup : up.Nodup
  fresh : ∀ above ∈ up, above ∉ seen
  capped : up.length ≤ room
  maximal : up.length < room → ∀ above, parent ((start :: up).getLast (by simp)) = some above →
    stored above → above ∈ seen ∨ above ∈ up

theorem Climbs.stop (hstop : 0 < room → ∀ above, parent start = some above → stored above →
    above ∈ seen) : Climbs parent stored room seen start [] where
  linked := .singleton _
  isStored := nofun
  nodup := .nil
  fresh := nofun
  capped := Nat.zero_le _
  maximal := fun hroom above hparent hstored => Or.inl (hstop hroom above hparent hstored)

theorem Climbs.cons (hparent : parent start = some above) (hstored : stored above)
    (hfresh : above ∉ seen) (hrest : Climbs parent stored room (above :: seen) above up) :
    Climbs parent stored (room + 1) seen start (above :: up) where
  linked := .cons_cons hparent hrest.linked
  isStored := by
    rintro other (_ | ⟨_, hother⟩)
    · exact hstored
    · exact hrest.isStored other hother
  nodup := List.nodup_cons.mpr
    ⟨fun hmem => hrest.fresh above hmem List.mem_cons_self, hrest.nodup⟩
  fresh := by
    rintro other (_ | ⟨_, hother⟩)
    · exact hfresh
    · exact fun hseen => hrest.fresh other hother (List.mem_cons_of_mem _ hseen)
  capped := Nat.succ_le_succ hrest.capped
  maximal := by
    intro hroom other hlast hstored
    rw [List.getLast_cons (List.cons_ne_nil _ _)] at hlast
    rcases hrest.maximal (Nat.lt_of_succ_lt_succ hroom) other hlast hstored with hseen | hup
    · rcases List.mem_cons.mp hseen with rfl | hseen
      · exact Or.inr List.mem_cons_self
      · exact Or.inl hseen
    · exact Or.inr (List.mem_cons_of_mem _ hup)

theorem Climbs.tail (hclimb : Climbs parent stored room seen start (above :: up)) :
    parent start = some above ∧ ∃ left, room = left + 1 ∧
      Climbs parent stored left (above :: seen) above up := by
  obtain ⟨hparent, hlinked⟩ := List.isChain_cons_cons.mp hclimb.linked
  obtain ⟨hnotMem, hnodup⟩ := List.nodup_cons.mp hclimb.nodup
  have hcapped : up.length + 1 ≤ room := hclimb.capped
  refine ⟨hparent, room - 1, by omega, hlinked,
    fun other hother => hclimb.isStored other (List.mem_cons_of_mem _ hother), hnodup, ?_,
    by omega, ?_⟩
  · intro other hother hseen
    rcases List.mem_cons.mp hseen with rfl | hseen
    · exact hnotMem hother
    · exact hclimb.fresh other (List.mem_cons_of_mem _ hother) hseen
  · intro hroom other hlast hstored
    have hmax := hclimb.maximal (by rw [List.length_cons]; omega) other
    rw [List.getLast_cons (List.cons_ne_nil _ _)] at hmax
    rcases hmax hlast hstored with hseen | hup
    · exact Or.inl (List.mem_cons_of_mem _ hseen)
    · rcases List.mem_cons.mp hup with rfl | hup
      · exact Or.inl List.mem_cons_self
      · exact Or.inr hup

theorem Climbs.not_stop (hclimb : Climbs parent stored room seen start (above :: up))
    (hstop : Climbs parent stored room seen start []) : False := by
  obtain ⟨hparent, left, hroom, -⟩ := hclimb.tail
  have hseen := hstop.maximal (by rw [hroom]; exact Nat.succ_pos left) above hparent
    (hclimb.isStored above List.mem_cons_self)
  rcases hseen with hseen | hnone
  · exact hclimb.fresh above List.mem_cons_self hseen
  · cases hnone

theorem Climbs.unique {up' : List α} (hclimb : Climbs parent stored room seen start up)
    (hclimb' : Climbs parent stored room seen start up') : up = up' := by
  induction up generalizing room seen start up' with
  | nil =>
    cases up' with
    | nil => rfl
    | cons above up' => exact (hclimb'.not_stop hclimb).elim
  | cons above up ih =>
    cases up' with
    | nil => exact (hclimb.not_stop hclimb').elim
    | cons above' up' =>
      obtain ⟨hparent, left, hroom, hrest⟩ := hclimb.tail
      obtain ⟨hparent', left', hroom', hrest'⟩ := hclimb'.tail
      have habove : above = above' := Option.some.inj (hparent.symm.trans hparent')
      subst habove
      have hleft : left = left' := by omega
      subst hleft
      rw [ih hrest hrest']

end Substrate
