import CognoChain.Substrate.StorageMap
import CognoChain.Substrate.Saturating

/-!
# Dense slot tables and cursors over them

Members take the next free slot when they join; a member that leaves is
replaced by the one in the last slot.  A cursor walks the slots in windows of a
fixed budget and starts over at the end.  The slots behind the cursor have been
seen as long as nobody leaves from there.
-/

namespace Substrate

structure SlotTable (A : Type*) [StorageKey A] where
  slotOf : StorageMap A ℕ
  memberAt : StorageMap ℕ A
  count : ℕ

namespace SlotTable

variable {A : Type*} [StorageKey A]

def join (bound : ℕ) (t : SlotTable A) (a : A) : SlotTable A :=
  if t.slotOf.contains a then t
  else ⟨t.slotOf.insert a t.count, t.memberAt.insert t.count a, satAdd bound t.count 1⟩

def fill (t : SlotTable A) (slot last : ℕ) : SlotTable A :=
  if slot < last then
    match t.memberAt.get last with
    | some moved => { t with
        memberAt := t.memberAt.insert slot moved
        slotOf := t.slotOf.insert moved slot }
    | none => { t with memberAt := t.memberAt.remove slot }
  else t

def leave (t : SlotTable A) (a : A) : SlotTable A :=
  match t.slotOf.get a with
  | none => t
  | some slot =>
      let last := t.count - 1
      let filled := { t with slotOf := t.slotOf.remove a }.fill slot last
      { filled with
        memberAt := filled.memberAt.remove last
        count := last }

def window (bound : ℕ) (t : SlotTable A) (cursor budget : ℕ) : List A :=
  if t.count = 0 ∨ budget = 0 then []
  else (List.range (min budget t.count)).filterMap (fun i =>
    let slot := satAdd bound (cursor % t.count) i
    t.memberAt.get (if t.count ≤ slot then slot - t.count else slot))

def nextCursor (bound : ℕ) (t : SlotTable A) (cursor budget : ℕ) : ℕ :=
  if t.count = 0 then 0
  else satAdd bound (cursor % t.count) (min budget t.count) % t.count

/-- How far `slot` lies ahead of `start` on a ring of `size` slots. -/
def lag (size start slot : ℕ) : ℕ :=
  if start ≤ slot then slot - start else size - start + slot

def covers (t : SlotTable A) (slot cursor budget : ℕ) : Bool :=
  if t.count = 0 ∨ budget = 0 ∨ t.count ≤ slot then false
  else decide (lag t.count (cursor % t.count) slot < min budget t.count)

/-! ## Density -/

/-- Members and the slots below the count correspond one to one. -/
structure Dense (t : SlotTable A) : Prop where
  inverse : t.slotOf.Inverse t.memberAt
  bounded : ∀ {a slot}, t.slotOf.get a = some slot → slot < t.count
  filled : ∀ {slot}, slot < t.count → (t.memberAt.get slot).isSome

theorem Dense.empty : Dense (⟨∅, ∅, 0⟩ : SlotTable A) := by
  constructor
  · exact StorageMap.Inverse.empty
  · intro a slot hslot
    simp at hslot
  · intro slot hslot
    cases hslot

namespace Dense

variable {t : SlotTable A} {a b : A} {slot bound : ℕ}

theorem memberAt_eq_none (hdense : t.Dense) (hslot : t.count ≤ slot) :
    t.memberAt.get slot = none := by
  rw [Option.eq_none_iff_forall_ne_some]
  intro a ha
  have hlt := hdense.bounded ((hdense.inverse a slot).mpr ha)
  omega

theorem slotOf_injective (hdense : t.Dense) (ha : t.slotOf.get a = some slot)
    (hb : t.slotOf.get b = some slot) : a = b := by
  have hmember := (hdense.inverse a slot).mp ha
  rw [(hdense.inverse b slot).mp hb] at hmember
  exact (Option.some.inj hmember).symm

theorem join (hdense : t.Dense) (hroom : t.count < bound) (a : A) :
    (t.join bound a).Dense := by
  classical
  unfold SlotTable.join
  split_ifs with hjoined
  · exact hdense
  have hcount : satAdd bound t.count 1 = t.count + 1 := Nat.min_eq_left hroom
  have hnew : t.slotOf.get a = none := by simpa using hjoined
  constructor
  · exact hdense.inverse.insert hnew (hdense.memberAt_eq_none le_rfl)
  · intro b slot hslot
    show slot < satAdd bound t.count 1
    simp only [StorageMap.get_insert] at hslot
    split_ifs at hslot
    · have hsame := Option.some.inj hslot
      omega
    · have hlt := hdense.bounded hslot
      omega
  · intro slot hslot
    have hlt : slot < t.count + 1 := hcount ▸ hslot
    simp only [StorageMap.get_insert]
    split_ifs with hlast
    · rfl
    · exact hdense.filled (by omega)

/-- A leaving member frees the last slot: whoever held it takes the leaving
member's. -/
theorem leave_slotOf [DecidableEq A] (hdense : t.Dense) (ha : t.slotOf.get a = some slot)
    (b : A) : (t.leave a).slotOf.get b =
      if b = a then none
      else if t.slotOf.get b = some (t.count - 1) then some slot
      else t.slotOf.get b := by
  have hbound := hdense.bounded ha
  simp only [SlotTable.leave, ha, fill]
  by_cases hlast : slot < t.count - 1
  · have hfilled : (t.memberAt.get (t.count - 1)).isSome := hdense.filled (by omega)
    obtain ⟨moved, hmoved⟩ := Option.isSome_iff_exists.mp hfilled
    have hslot := (hdense.inverse moved _).mpr hmoved
    have hne : moved ≠ a := by
      rintro rfl
      rw [ha] at hslot
      have := Option.some.inj hslot
      omega
    simp only [hlast, if_true, hmoved, StorageMap.get_insert, StorageMap.get_remove]
    by_cases hb : b = moved
    · simp [hb, hne, hslot]
    · have hother : t.slotOf.get b ≠ some (t.count - 1) :=
        fun hb' => hb (hdense.slotOf_injective hb' hslot)
      simp [hb, hother]
  · have hsame : slot = t.count - 1 := by omega
    simp only [hlast, if_false, StorageMap.get_remove]
    split_ifs with hb hb'
    · rfl
    · rw [hsame, hb']
    · rfl

theorem leave_memberAt (hdense : t.Dense) (ha : t.slotOf.get a = some slot) (i : ℕ) :
    (t.leave a).memberAt.get i =
      if i = t.count - 1 then none
      else if i = slot then t.memberAt.get (t.count - 1)
      else t.memberAt.get i := by
  have hbound := hdense.bounded ha
  simp only [SlotTable.leave, ha, fill]
  by_cases hlast : slot < t.count - 1
  · have hfilled : (t.memberAt.get (t.count - 1)).isSome := hdense.filled (by omega)
    obtain ⟨moved, hmoved⟩ := Option.isSome_iff_exists.mp hfilled
    simp only [hlast, if_true, hmoved, StorageMap.get_insert, StorageMap.get_remove]
  · have hsame : slot = t.count - 1 := by omega
    simp only [hlast, if_false, StorageMap.get_remove]
    split_ifs with hi hi'
    · rfl
    · exact absurd (hi'.trans hsame) hi
    · rfl

theorem leave_count (ha : t.slotOf.get a = some slot) : (t.leave a).count = t.count - 1 := by
  simp only [SlotTable.leave, ha]

theorem leave_of_none (ha : t.slotOf.get a = none) : t.leave a = t := by
  simp only [SlotTable.leave, ha]

theorem leave_inverse (hdense : t.Dense) (ha : t.slotOf.get a = some slot) :
    (t.leave a).slotOf.Inverse (t.leave a).memberAt := by
  classical
  intro b i
  rw [hdense.leave_slotOf ha, hdense.leave_memberAt ha]
  have hunique : ∀ {j}, t.memberAt.get j = some a → j = slot := fun {j} hj =>
    Option.some.inj (((hdense.inverse a j).mpr hj).symm.trans ha)
  by_cases hb : b = a
  · rw [hb, if_pos rfl]
    constructor
    · intro h
      cases h
    · intro h
      split_ifs at h with hlast hslot
      · exact absurd (hslot.trans (hunique h).symm) hlast
      · exact absurd (hunique h) hslot
  rw [if_neg hb]
  by_cases hmoved : t.slotOf.get b = some (t.count - 1)
  · have hne : slot ≠ t.count - 1 := by
      rintro rfl
      exact hb (hdense.slotOf_injective hmoved ha)
    have hmember := (hdense.inverse b _).mp hmoved
    rw [if_pos hmoved]
    constructor
    · intro h
      rw [← Option.some.inj h, if_neg hne, if_pos rfl, hmember]
    · intro h
      split_ifs at h with hlast hslot
      · rw [hslot]
      · have hsame := ((hdense.inverse b i).mpr h).symm.trans hmoved
        exact absurd (Option.some.inj hsame) hlast
  · rw [if_neg hmoved]
    split_ifs with hlast hslot
    · rw [hlast]
      simp [hmoved]
    · rw [hslot]
      refine ⟨fun h => absurd (hdense.slotOf_injective h ha) hb, fun h => ?_⟩
      exact absurd ((hdense.inverse b _).mpr h) hmoved
    · exact hdense.inverse b i

theorem leave (hdense : t.Dense) (a : A) : (t.leave a).Dense := by
  classical
  cases ha : t.slotOf.get a with
  | none => rwa [leave_of_none ha]
  | some slot =>
    have hbound := hdense.bounded ha
    constructor
    · exact hdense.leave_inverse ha
    · intro b i hslot
      rw [hdense.leave_slotOf ha] at hslot
      rw [leave_count ha]
      split_ifs at hslot with hb hmoved
      · have hne : slot ≠ t.count - 1 := by
          rintro rfl
          exact hb (hdense.slotOf_injective hmoved ha)
        have hsame := Option.some.inj hslot
        omega
      · have hlt := hdense.bounded hslot
        have hne : i ≠ t.count - 1 := by
          rintro rfl
          exact hmoved hslot
        omega
    · intro i hi
      rw [leave_count ha] at hi
      rw [hdense.leave_memberAt ha, if_neg (by omega)]
      split_ifs
      · exact hdense.filled (by omega)
      · exact hdense.filled (by omega)

theorem slotOf_of_leave (hdense : t.Dense) (h : (t.leave a).slotOf.get b = some slot) :
    t.slotOf.get a = some slot ∨ t.slotOf.get b = some slot := by
  classical
  cases ha : t.slotOf.get a with
  | none => exact Or.inr (leave_of_none ha ▸ h)
  | some freed =>
    rw [hdense.leave_slotOf ha] at h
    split_ifs at h
    · exact Or.inl h
    · exact Or.inr h

theorem leave_slotOf_eq_none (hdense : t.Dense) :
    (t.leave b).slotOf.get a = none ↔ a = b ∨ t.slotOf.get a = none := by
  classical
  cases hb : t.slotOf.get b with
  | none =>
    rw [leave_of_none hb, iff_or_self]
    rintro rfl
    exact hb
  | some slot =>
    rw [hdense.leave_slotOf hb]
    split_ifs with hsame hlast
    · simp [hsame]
    · simp [hsame, hlast]
    · simp [hsame]

theorem leaveAll_slotOf {members : List A} (hdense : t.Dense)
    (hgone : a ∈ members ∨ t.slotOf.get a = none) :
    (members.foldl SlotTable.leave t).slotOf.get a = none := by
  induction members generalizing t with
  | nil => simpa using hgone
  | cons b members ih =>
    rw [List.mem_cons, or_assoc, or_left_comm] at hgone
    exact ih (hdense.leave b) (hgone.imp_right hdense.leave_slotOf_eq_none.mpr)

end Dense

/-! ## Windows -/

section Window

variable {t : SlotTable A} {a : A} {slot cursor budget bound : ℕ} {size start : ℕ}

theorem lag_of_offset {i : ℕ} (hstart : start < size) (hi : i < size) :
    lag size start (if size ≤ start + i then start + i - size else start + i) = i := by
  unfold lag
  split_ifs <;> omega

theorem offset_of_lag (hstart : start < size) (hslot : slot < size) :
    (if size ≤ start + lag size start slot then start + lag size start slot - size
      else start + lag size start slot) = slot := by
  unfold lag
  split_ifs <;> omega

theorem lag_lt (hstart : start < size) (hslot : slot < size) :
    lag size start slot < size := by
  unfold lag
  split_ifs <;> omega

section

variable (hdense : t.Dense) (hwidth : t.count + budget ≤ bound)
include hdense hwidth

theorem mem_window_iff_offset :
    a ∈ t.window bound cursor budget ↔
      ∃ slot, t.slotOf.get a = some slot ∧ lag t.count (cursor % t.count) slot <
        min budget t.count := by
  rcases Nat.eq_zero_or_pos t.count with hzero | hcount
  · simp [window, hzero]
  have hstart : cursor % t.count < t.count := Nat.mod_lt _ hcount
  have hsum : ∀ {i}, i < min budget t.count →
      satAdd bound (cursor % t.count) i = cursor % t.count + i := fun hi => satAdd_of_le (by omega)
  unfold window
  split_ifs with hempty
  · have hbudget : budget = 0 := by omega
    simp [hbudget]
  rw [List.mem_filterMap]
  constructor
  · rintro ⟨i, hi, hget⟩
    rw [List.mem_range] at hi
    simp only [hsum hi] at hget
    refine ⟨_, (hdense.inverse a _).mpr hget, ?_⟩
    rwa [lag_of_offset hstart (by omega)]
  · rintro ⟨slot, hslot, hreached⟩
    refine ⟨_, List.mem_range.mpr hreached, ?_⟩
    simp only [hsum hreached]
    rw [offset_of_lag hstart (hdense.bounded hslot)]
    exact (hdense.inverse a slot).mp hslot

theorem mem_window_iff_covers :
    a ∈ t.window bound cursor budget ↔
      ∃ slot, t.slotOf.get a = some slot ∧ t.covers slot cursor budget = true := by
  rw [mem_window_iff_offset hdense hwidth]
  apply exists_congr
  intro slot
  rw [and_congr_right_iff]
  intro hslot
  have hlt := hdense.bounded hslot
  unfold covers
  split_ifs with hempty
  · have hbudget : budget = 0 := by omega
    simp [hbudget]
  · simp

theorem window_nodup :
    (t.window bound cursor budget).Nodup := by
  unfold window
  split_ifs with hempty
  · exact List.nodup_nil
  have hstart : cursor % t.count < t.count := Nat.mod_lt _ (by omega)
  rw [List.nodup_iff_pairwise_ne, List.pairwise_filterMap]
  apply List.nodup_range.pairwise_of_forall_ne
  intro i hi j hj hne b hb b' hb' hsame
  rw [List.mem_range] at hi hj
  have hi' : satAdd bound (cursor % t.count) i = cursor % t.count + i := satAdd_of_le (by omega)
  have hj' : satAdd bound (cursor % t.count) j = cursor % t.count + j := satAdd_of_le (by omega)
  simp only [hi', hj'] at hb hb'
  -- one member stands at one place only
  rw [← hsame] at hb'
  have hslot := ((hdense.inverse b _).mpr hb).symm.trans ((hdense.inverse b _).mpr hb')
  have hlag := congrArg (lag t.count (cursor % t.count)) (Option.some.inj hslot)
  rw [lag_of_offset hstart (by omega), lag_of_offset hstart (by omega)] at hlag
  exact hne hlag

end

theorem nextCursor_eq (hcount : 0 < t.count) (hwidth : t.count + budget ≤ bound) :
    t.nextCursor bound cursor budget =
      if t.count ≤ cursor % t.count + min budget t.count then
        cursor % t.count + min budget t.count - t.count
      else cursor % t.count + min budget t.count := by
  have hstart : cursor % t.count < t.count := Nat.mod_lt _ hcount
  rw [nextCursor, if_neg hcount.ne', satAdd_of_le (by omega)]
  split_ifs with hover
  · rw [Nat.mod_eq_sub_mod hover, Nat.mod_eq_of_lt (by omega)]
  · exact Nat.mod_eq_of_lt (by omega)

end Window

/-! ## How long a member waits -/

section Wait

variable {t : SlotTable A} {a : A} {slot cursor budget bound size later : ℕ}

theorem slotOf_join (hslot : t.slotOf.get a = some slot) (b : A) :
    (t.join bound b).slotOf.get a = some slot := by
  unfold join
  split_ifs with hjoined
  · exact hslot
  · have hne : a ≠ b := by
      rintro rfl
      simp [hslot] at hjoined
    simp only [StorageMap.get_insert_of_ne _ _ hne, hslot]

theorem le_lag_of_missed (hdense : t.Dense) (hslot : t.slotOf.get a = some slot)
    (hwidth : t.count + budget ≤ bound) (hsize : t.count ≤ size)
    (hmissed : a ∉ t.window bound cursor budget) :
    budget ≤ lag size (cursor % t.count) slot := by
  have hlt := hdense.bounded hslot
  have hstart : cursor % t.count < t.count := Nat.mod_lt _ (by omega)
  have hfar : ¬ lag t.count (cursor % t.count) slot < min budget t.count := by
    intro hreached
    exact hmissed ((mem_window_iff_offset hdense hwidth).mpr ⟨slot, hslot, hreached⟩)
  unfold lag at hfar ⊢
  split_ifs at hfar ⊢ <;> omega

/-- While nobody leaves, a missed member is a whole budget closer to the next
window, counted on the largest size the ring will have. -/
theorem lag_advance (hdense : t.Dense) (hslot : t.slotOf.get a = some slot)
    (hwidth : t.count + budget ≤ bound) (hgrown : t.count ≤ later) (hsize : later ≤ size)
    (hmissed : a ∉ t.window bound cursor budget) :
    lag size (t.nextCursor bound cursor budget % later) slot + budget ≤
      lag size (cursor % t.count) slot := by
  have hlt := hdense.bounded hslot
  have hstart : cursor % t.count < t.count := Nat.mod_lt _ (by omega)
  have hfar : ¬ lag t.count (cursor % t.count) slot < min budget t.count := by
    intro hreached
    exact hmissed ((mem_window_iff_offset hdense hwidth).mpr ⟨slot, hslot, hreached⟩)
  have hbudget : min budget t.count = budget := by
    have hring := lag_lt hstart hlt
    omega
  have hnext : t.nextCursor bound cursor budget = _ := nextCursor_eq (by omega) hwidth
  rw [hbudget] at hfar hnext
  have hinside : t.nextCursor bound cursor budget < later := by
    rw [hnext]
    split_ifs <;> omega
  rw [Nat.mod_eq_of_lt hinside, hnext]
  unfold lag at hfar ⊢
  split_ifs at hfar ⊢ <;> omega

end Wait

/-! ## Sweeps -/

/-- Everyone behind the cursor has been seen. -/
structure Swept (t : SlotTable A) (cursor : ℕ) (seen : A → Prop) : Prop where
  inside : cursor ≤ t.count
  behind : ∀ {a slot}, t.slotOf.get a = some slot → slot < cursor → seen a

namespace Swept

variable {t : SlotTable A} {a : A} {cursor budget bound : ℕ} {seen seen' : A → Prop}

theorem mono (hswept : t.Swept cursor seen) (hseen : ∀ a, seen a → seen' a) :
    t.Swept cursor seen' :=
  ⟨hswept.inside, fun hslot hlt => hseen _ (hswept.behind hslot hlt)⟩

theorem join (hswept : t.Swept cursor seen) (hroom : t.count < bound) (a : A) :
    (t.join bound a).Swept cursor seen := by
  classical
  have hinside := hswept.inside
  unfold SlotTable.join
  split_ifs
  · exact hswept
  constructor
  · show cursor ≤ satAdd bound t.count 1
    rw [satAdd_succ_of_lt hroom]
    omega
  · intro b slot hslot hlt
    simp only [StorageMap.get_insert] at hslot
    split_ifs at hslot
    · have hsame := Option.some.inj hslot
      omega
    · exact hswept.behind hslot hlt

section

variable (hdense : t.Dense) (hswept : t.Swept cursor seen)
include hdense hswept

/-- A member that leaves ahead of the cursor disturbs nobody behind it. -/
theorem leave (hahead : ∀ slot, t.slotOf.get a = some slot → cursor ≤ slot) :
    (t.leave a).Swept cursor seen := by
  constructor
  · have hinside := hswept.inside
    cases ha : t.slotOf.get a with
    | none => rwa [Dense.leave_of_none ha]
    | some slot =>
      have hbound := hdense.bounded ha
      have hslot := hahead slot ha
      rw [Dense.leave_count ha]
      omega
  · intro b i hi hlt
    rcases hdense.slotOf_of_leave hi with hfreed | hkept
    · exact absurd hlt (Nat.not_lt_of_le (hahead i hfreed))
    · exact hswept.behind hkept hlt

theorem leaveAll {members : List A}
    (hahead : ∀ a ∈ members, ∀ slot, t.slotOf.get a = some slot → cursor ≤ slot) :
    (members.foldl SlotTable.leave t).Dense ∧
      (members.foldl SlotTable.leave t).Swept cursor seen := by
  induction members generalizing t with
  | nil => exact ⟨hdense, hswept⟩
  | cons a members ih =>
    have ha := hahead a List.mem_cons_self
    apply ih (hdense.leave a) (hswept.leave hdense ha)
    intro b hb i hi
    -- whoever moved took a slot ahead of the cursor
    rcases hdense.slotOf_of_leave hi with hfreed | hkept
    · exact ha i hfreed
    · exact hahead b (List.mem_cons_of_mem a hb) i hkept

/-- A window that stays below the end sees the slots up to the next cursor. -/
theorem advance (hwidth : t.count + budget ≤ bound)
    (hnext : cursor < t.nextCursor bound cursor budget) :
    t.Swept (t.nextCursor bound cursor budget)
      (fun a => seen a ∨ a ∈ t.window bound cursor budget) := by
  have hinside := hswept.inside
  have hcount : 0 < t.count := by
    by_contra hzero
    simp [nextCursor, Nat.eq_zero_of_not_pos hzero] at hnext
  have hstart : cursor % t.count < t.count := Nat.mod_lt _ hcount
  rw [nextCursor_eq hcount hwidth] at hnext ⊢
  have hlt : cursor < t.count := by split_ifs at hnext <;> omega
  rw [Nat.mod_eq_of_lt hlt] at hnext ⊢
  -- a wrapped window would not end ahead of the cursor
  have hbelow : ¬ t.count ≤ cursor + min budget t.count := by
    intro hover
    rw [if_pos hover] at hnext
    omega
  rw [if_neg hbelow] at hnext ⊢
  refine ⟨by omega, fun {a slot} ha hslot => ?_⟩
  by_cases hbehind : slot < cursor
  · exact Or.inl (hswept.behind ha hbehind)
  · refine Or.inr ((mem_window_iff_offset hdense hwidth).mpr ⟨slot, ha, ?_⟩)
    rw [Nat.mod_eq_of_lt hlt, lag, if_pos (by omega)]
    omega

/-- A window that ends at or behind the cursor has seen everyone ahead of it,
and starts the next sweep with the slots before its end. -/
theorem wrap (hbudget : 0 < budget) (hwidth : t.count + budget ≤ bound)
    (hnext : t.nextCursor bound cursor budget ≤ cursor) :
    (∀ a slot, t.slotOf.get a = some slot → seen a ∨ a ∈ t.window bound cursor budget) ∧
      t.Swept (t.nextCursor bound cursor budget)
        (fun a => a ∈ t.window bound cursor budget) := by
  have hinside := hswept.inside
  rcases Nat.eq_zero_or_pos t.count with hzero | hcount
  · have hnone : ∀ {a slot}, t.slotOf.get a ≠ some slot := fun {a slot} ha => by
      have hlt := hdense.bounded ha
      omega
    exact ⟨fun a slot ha => absurd ha hnone, by simp [nextCursor, hzero],
      fun ha _ => absurd ha hnone⟩
  have hseen : ∀ {a slot}, t.slotOf.get a = some slot →
      lag t.count (cursor % t.count) slot < min budget t.count →
      a ∈ t.window bound cursor budget :=
    fun ha hlag => (mem_window_iff_offset hdense hwidth).mpr ⟨_, ha, hlag⟩
  rw [nextCursor_eq hcount hwidth] at hnext ⊢
  rcases Nat.lt_or_ge cursor t.count with hlt | hge
  · rw [Nat.mod_eq_of_lt hlt] at hnext hseen ⊢
    have hover : t.count ≤ cursor + min budget t.count := by
      by_contra hbelow
      rw [if_neg hbelow] at hnext
      omega
    rw [if_pos hover]
    refine ⟨fun a slot ha => ?_, ⟨by omega, fun {a slot} ha hslot => hseen ha ?_⟩⟩
    · have hbound := hdense.bounded ha
      by_cases hbehind : slot < cursor
      · exact Or.inl (hswept.behind ha hbehind)
      · refine Or.inr (hseen ha ?_)
        rw [lag, if_pos (by omega)]
        omega
    · unfold lag
      split_ifs <;> omega
  · -- the cursor stands at the end, so the window starts a new sweep
    have hend : cursor % t.count = 0 := by
      rw [show cursor = t.count by omega, Nat.mod_self]
    rw [hend] at hseen ⊢
    refine ⟨fun a slot ha => ?_, ⟨by split_ifs <;> omega, fun {a slot} ha hslot => hseen ha ?_⟩⟩
    · have hbound := hdense.bounded ha
      exact Or.inl (hswept.behind ha (by omega))
    · unfold lag
      split_ifs at hslot ⊢ <;> omega

end

end Swept

end SlotTable

end Substrate
