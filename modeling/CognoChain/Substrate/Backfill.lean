import CognoChain.Substrate.SlotTable
import CognoChain.Substrate.StorageIteration

/-!
# Filling a slot table while members come and go

A slot table is to hold everyone of a stored set, and is filled by a walk over
the set in trie order that stops and resumes.  Newcomers join at the tail at
once.  Whoever is still missing lies ahead of the last key walked, however the
set changes between two parts of the walk.
-/

namespace Substrate.SlotTable

variable {A : Type*} [StorageKey A] {t : SlotTable A} {a b : A} {bound : ℕ}
  {owed owed' : List A}

theorem isSome_slotOf_join (bound : ℕ) :
    ((t.join bound a).slotOf.get b).isSome ↔ b = a ∨ (t.slotOf.get b).isSome := by
  classical
  unfold join
  split_ifs with hjoined
  · constructor
    · exact Or.inr
    · rintro (rfl | hb)
      · exact hjoined
      · exact hb
  · simp only [StorageMap.get_insert]
    split_ifs with hb <;> simp [hb]

/-! ## Counting members -/

theorem Dense.memberAt_injOn (hdense : t.Dense) :
    Set.InjOn t.memberAt.get (Finset.range t.count) := by
  intro i hi j _ hsame
  obtain ⟨a, ha⟩ := Option.isSome_iff_exists.mp (hdense.filled (by simpa using hi))
  have hi' := (hdense.inverse a i).mpr ha
  have hj' := (hdense.inverse a j).mpr (hsame ▸ ha)
  exact Option.some.inj (hi'.symm.trans hj')

theorem Dense.count_le (hdense : t.Dense)
    (hsub : ∀ a, (t.slotOf.get a).isSome → a ∈ owed) : t.count ≤ owed.length := by
  classical
  calc t.count = (Finset.range t.count).card := (Finset.card_range _).symm
    _ ≤ (owed.map some).toFinset.card := by
        apply Finset.card_le_card_of_injOn t.memberAt.get _ hdense.memberAt_injOn
        intro slot hslot
        obtain ⟨a, ha⟩ := Option.isSome_iff_exists.mp (hdense.filled (by simpa using hslot))
        have hmem : a ∈ owed := hsub a (by simp [(hdense.inverse a slot).mpr ha])
        simpa [ha] using hmem
    _ ≤ (owed.map some).length := List.toFinset_card_le _
    _ = owed.length := List.length_map _

theorem Dense.count_lt (hdense : t.Dense)
    (hsub : ∀ a, (t.slotOf.get a).isSome → a ∈ owed) (ha : a ∈ owed)
    (hmissing : t.slotOf.get a = none) : t.count < owed.length := by
  classical
  have hle : t.count ≤ (owed.erase a).length := by
    apply hdense.count_le
    intro b hb
    have hne : b ≠ a := by
      rintro rfl
      simp [hmissing] at hb
    exact (List.mem_erase_of_ne hne).mpr (hsub b hb)
  have hlength := List.length_erase_of_mem ha
  have hpos := List.length_pos_of_mem ha
  omega

theorem Dense.length_memberAt (hdense : t.Dense) : t.memberAt.keys.length = t.count := by
  have hperm : t.memberAt.keys.Perm (List.range t.count) := by
    rw [List.perm_ext_iff_of_nodup t.memberAt.keys_nodup List.nodup_range]
    intro slot
    rw [StorageMap.mem_keys_iff, List.mem_range]
    refine ⟨fun hsome => ?_, hdense.filled⟩
    by_contra hout
    simp [hdense.memberAt_eq_none (Nat.le_of_not_lt hout)] at hsome
  rw [hperm.length_eq, List.length_range]

theorem Dense.length_slotOf (hdense : t.Dense) : t.slotOf.keys.length = t.count := by
  have henrolled : ∀ {a}, a ∈ t.slotOf.keys → ∃ slot, t.slotOf.get a = some slot := by
    intro a ha
    exact Option.isSome_iff_exists.mp (StorageMap.mem_keys_iff.mp ha)
  apply le_antisymm
  · have hnodup : (t.slotOf.keys.map t.slotOf.get).Nodup := by
      apply t.slotOf.keys_nodup.map_on
      intro a ha b _ hsame
      obtain ⟨slot, hslot⟩ := henrolled ha
      exact hdense.slotOf_injective hslot (hsame ▸ hslot)
    have hsub : t.slotOf.keys.map t.slotOf.get ⊆ (List.range t.count).map some := by
      intro slot hmem
      obtain ⟨a, ha, rfl⟩ := List.mem_map.mp hmem
      obtain ⟨slot, hslot⟩ := henrolled ha
      rw [hslot]
      exact List.mem_map_of_mem (List.mem_range.mpr (hdense.bounded hslot))
    simpa using (List.subperm_of_subset hnodup hsub).length_le
  · exact hdense.count_le (fun a ha => StorageMap.mem_keys_iff.mpr ha)

/-! ## Backfills -/

structure Within (owed : List A) (t : SlotTable A) : Prop where
  dense : t.Dense
  owed_of_enrolled : ∀ a, (t.slotOf.get a).isSome → a ∈ owed

/-- Everyone missing from the table is ahead of the cursor. -/
structure Backfilling (hash : ℕ → ℕ) (owed : List A) (t : SlotTable A)
    (cursor : Option A) : Prop extends Within owed t where
  ahead : ∀ a ∈ owed, t.slotOf.get a = none → ∃ last, cursor = some last ∧ HashLt hash last a

theorem Within.join (hwithin : Within owed t) (hmem : ∀ b, b ∈ owed' ↔ b = a ∨ b ∈ owed)
    (hroom : owed'.length ≤ bound) : Within owed' (t.join bound a) := by
  constructor
  · cases ha : t.slotOf.get a with
    | some slot =>
      have hjoined : t.slotOf.contains a := by simp [StorageMap.contains, ha]
      rw [SlotTable.join, if_pos hjoined]
      exact hwithin.dense
    | none =>
      have hlt : t.count < owed'.length := by
        apply hwithin.dense.count_lt _ ((hmem a).mpr (Or.inl rfl)) ha
        intro b hb
        exact (hmem b).mpr (Or.inr (hwithin.owed_of_enrolled b hb))
      exact hwithin.dense.join (hlt.trans_le hroom) a
  · intro b hb
    rw [hmem]
    exact ((isSome_slotOf_join bound).mp hb).imp_right (hwithin.owed_of_enrolled b)

variable {hash : ℕ → ℕ} {cursor : Option A}

theorem Backfilling.join (hfill : Backfilling hash owed t cursor)
    (hmem : ∀ b, b ∈ owed' ↔ b = a ∨ b ∈ owed) (hroom : owed'.length ≤ bound) :
    Backfilling hash owed' (t.join bound a) cursor := by
  refine ⟨hfill.toWithin.join hmem hroom, ?_⟩
  intro b hb hmissing
  have hout : ¬ (b = a ∨ (t.slotOf.get b).isSome) := by
    rw [← isSome_slotOf_join bound, hmissing]
    simp
  rw [not_or, Option.not_isSome_iff_eq_none] at hout
  exact hfill.ahead b (((hmem b).mp hb).resolve_left hout.1) hout.2

theorem Backfilling.leave (hfill : Backfilling hash owed t cursor)
    (hmem : ∀ b, b ∈ owed' ↔ b ≠ a ∧ b ∈ owed) :
    Backfilling hash owed' (t.leave a) cursor := by
  refine ⟨⟨hfill.dense.leave a, ?_⟩, ?_⟩
  · intro b hb
    have hkept := hfill.dense.leave_slotOf_eq_none.not.mp (Option.isSome_iff_ne_none.mp hb)
    rw [not_or] at hkept
    exact (hmem b).mpr
      ⟨hkept.1, hfill.owed_of_enrolled b (Option.isSome_iff_ne_none.mpr hkept.2)⟩
  · intro b hb hmissing
    obtain ⟨hne, hb⟩ := (hmem b).mp hb
    exact hfill.ahead b hb
      ((hfill.dense.leave_slotOf_eq_none.mp hmissing).resolve_left hne)

def joinAll (bound : ℕ) (t : SlotTable A) (members : List A) : SlotTable A :=
  members.foldl (join bound) t

theorem isSome_slotOf_joinAll (bound : ℕ) {members : List A} :
    ((t.joinAll bound members).slotOf.get b).isSome ↔
      b ∈ members ∨ (t.slotOf.get b).isSome := by
  induction members generalizing t with
  | nil => simp [joinAll]
  | cons a members ih =>
    have hnext := ih (t := t.join bound a)
    rw [isSome_slotOf_join] at hnext
    rw [List.mem_cons, or_comm (a := b = a), or_assoc]
    exact hnext

theorem Within.joinAll {members : List A} (hwithin : Within owed t)
    (hsub : ∀ a ∈ members, a ∈ owed) (hroom : owed.length ≤ bound) :
    Within owed (t.joinAll bound members) := by
  induction members generalizing t with
  | nil => exact hwithin
  | cons a members ih =>
    have ha : a ∈ owed := hsub a List.mem_cons_self
    apply ih (hwithin.join _ hroom) (fun b hb => hsub b (List.mem_cons_of_mem a hb))
    intro b
    exact ⟨Or.inr, fun h => h.elim (fun hb => hb ▸ ha) id⟩

/-- A part of the walk: it enrols everyone it reaches, and the cursor is left
on the last of them while there is more to walk. -/
theorem Backfilling.of_walk {reached rest : List A} (hwithin : Within owed t)
    (hsub : ∀ a ∈ reached, a ∈ owed) (hroom : owed.length ≤ bound)
    (hmissing : ∀ a ∈ owed, t.slotOf.get a = none → a ∈ reached ++ rest)
    (hsorted : (reached ++ rest).Pairwise (HashLt hash))
    (hcursor : rest ≠ [] → cursor = reached.getLast? ∧ reached ≠ []) :
    Backfilling hash owed (t.joinAll bound reached) cursor := by
  refine ⟨hwithin.joinAll hsub hroom, ?_⟩
  intro a ha hout
  have hnot : ¬ (a ∈ reached ∨ (t.slotOf.get a).isSome) := by
    rw [← isSome_slotOf_joinAll bound, hout]
    simp
  rw [not_or, Option.not_isSome_iff_eq_none] at hnot
  have hrest : a ∈ rest :=
    (List.mem_append.mp (hmissing a ha hnot.2)).resolve_left hnot.1
  obtain ⟨hlast, hne⟩ := hcursor (List.ne_nil_of_mem hrest)
  refine ⟨reached.getLast hne, ?_, ?_⟩
  · rw [hlast, List.getLast?_eq_some_getLast hne]
  · exact (List.pairwise_append.mp hsorted).2.2 _ (List.getLast_mem hne) a hrest

theorem Backfilling.complete (hfill : Backfilling hash owed t none) :
    (t.slotOf.get a).isSome ↔ a ∈ owed := by
  constructor
  · exact hfill.owed_of_enrolled a
  · intro ha
    by_contra hout
    obtain ⟨last, hlast, -⟩ := hfill.ahead a ha (by simpa using hout)
    cases hlast

end Substrate.SlotTable
