import CognoChain.Substrate.StorageMap

/-!
# Sorted sets and best-of-a-key maps

A list collected into a sorted set depends on its members only.  A map that
keeps, for each key, the first of the greatest values it was offered is
determined by the values offered for the key, in their order.
-/

namespace Substrate

/-! ## Sorted sets -/

section SortedSet

variable {A α : Type*} [DecidableEq A] [LinearOrder α] {rank : A → α} {l l' : List A} {a : A}

def sortedSet (rank : A → α) (l : List A) : List A :=
  l.dedup.insertionSort (fun a b => rank a ≤ rank b)

@[simp] theorem mem_sortedSet : a ∈ sortedSet rank l ↔ a ∈ l := by
  rw [sortedSet, List.mem_insertionSort, List.mem_dedup]

theorem sortedSet_nodup (rank : A → α) (l : List A) : (sortedSet rank l).Nodup :=
  (List.perm_insertionSort _ _).nodup_iff.mpr l.nodup_dedup

theorem sortedSet_pairwise (rank : A → α) (l : List A) :
    (sortedSet rank l).Pairwise (fun a b => rank a ≤ rank b) := by
  have : Std.Total (fun a b : A => rank a ≤ rank b) := ⟨fun a b => le_total (rank a) (rank b)⟩
  have : IsTrans A (fun a b : A => rank a ≤ rank b) := ⟨fun _ _ _ => le_trans⟩
  exact List.pairwise_insertionSort _ _

theorem eq_sortedSet (hrank : Function.Injective rank)
    (hsorted : l.Pairwise (fun a b => rank a ≤ rank b)) (hnodup : l.Nodup)
    (hmem : ∀ a, a ∈ l ↔ a ∈ l') : l = sortedSet rank l' := by
  have hperm : l.Perm (sortedSet rank l') :=
    (List.perm_ext_iff_of_nodup hnodup (sortedSet_nodup rank l')).mpr
      (fun a => by rw [hmem, mem_sortedSet])
  refine hperm.eq_of_pairwise ?_ hsorted (sortedSet_pairwise rank l')
  intro a b _ _ hab hba
  exact hrank (le_antisymm hab hba)

theorem sortedSet_congr (hrank : Function.Injective rank) (hmem : ∀ a, a ∈ l ↔ a ∈ l') :
    sortedSet rank l = sortedSet rank l' :=
  eq_sortedSet hrank (sortedSet_pairwise rank l) (sortedSet_nodup rank l)
    (fun a => by rw [mem_sortedSet, hmem])

end SortedSet

/-! ## The first of the greatest -/

section FirstGreatest

variable {V α : Type*} [LinearOrder α] {rank : V → α} {l : List V} {v v' : V}

/-- Values before it are smaller, values after it no greater. -/
def FirstGreatest (rank : V → α) (l : List V) (v : V) : Prop :=
  ∃ before after, l = before ++ v :: after ∧ (∀ x ∈ before, rank x < rank v) ∧
    ∀ x ∈ after, rank x ≤ rank v

namespace FirstGreatest

theorem mem (h : FirstGreatest rank l v) : v ∈ l := by
  obtain ⟨before, after, rfl, -, -⟩ := h
  simp

theorem rank_le (h : FirstGreatest rank l v) {x : V} (hx : x ∈ l) : rank x ≤ rank v := by
  obtain ⟨before, after, rfl, hbefore, hafter⟩ := h
  rcases List.mem_append.mp hx with hx | hx
  · exact (hbefore x hx).le
  · rcases List.mem_cons.mp hx with rfl | hx
    · exact le_rfl
    · exact hafter x hx

theorem concat_of_le (h : FirstGreatest rank l v) {x : V} (hx : rank x ≤ rank v) :
    FirstGreatest rank (l ++ [x]) v := by
  obtain ⟨before, after, rfl, hbefore, hafter⟩ := h
  refine ⟨before, after ++ [x], by simp, hbefore, ?_⟩
  intro y hy
  rcases List.mem_append.mp hy with hy | hy
  · exact hafter y hy
  · rwa [List.mem_singleton.mp hy]

theorem concat_of_lt {x : V} (hx : ∀ y ∈ l, rank y < rank x) :
    FirstGreatest rank (l ++ [x]) x :=
  ⟨l, [], rfl, hx, by simp⟩

theorem unique (h : FirstGreatest rank l v) (h' : FirstGreatest rank l v') : v = v' := by
  obtain ⟨before, after, rfl, hbefore, hafter⟩ := h
  obtain ⟨before', after', heq, hbefore', hafter'⟩ := h'
  -- whichever split point comes first, its value lies before the other
  rcases List.append_eq_append_iff.mp heq with ⟨mid, rfl, hmid⟩ | ⟨mid, rfl, hmid⟩
  · cases mid with
    | nil => exact (List.cons.inj hmid).1
    | cons x mid =>
      obtain ⟨rfl, rfl⟩ := List.cons.inj hmid
      have hlt := hbefore' v (by simp)
      have hle := hafter v' (by simp)
      exact absurd hlt (not_lt.mpr hle)
  · cases mid with
    | nil => exact (List.cons.inj hmid).1.symm
    | cons x mid =>
      obtain ⟨rfl, rfl⟩ := List.cons.inj hmid
      have hlt := hbefore v' (by simp)
      have hle := hafter' v (by simp)
      exact absurd hlt (not_lt.mpr hle)

end FirstGreatest

def pick (rank : V → α) (kept : Option V) (v : V) : Option V :=
  if kept.all (fun w => rank w < rank v) then some v else kept

theorem foldl_pick_eq_none_iff : l.foldl (pick rank) none = none ↔ l = [] := by
  induction l using List.reverseRecOn with
  | nil => simp
  | append_singleton l v ih =>
    rw [List.foldl_append, List.foldl_cons, List.foldl_nil, pick]
    split_ifs with hkept
    · simp
    · cases hfold : l.foldl (pick rank) none with
      | none => rw [hfold] at hkept; exact absurd rfl hkept
      | some w => simp

theorem firstGreatest_of_foldl_pick (h : l.foldl (pick rank) none = some v) :
    FirstGreatest rank l v := by
  induction l using List.reverseRecOn generalizing v with
  | nil => cases h
  | append_singleton l x ih =>
    rw [List.foldl_append, List.foldl_cons, List.foldl_nil, pick] at h
    cases hfold : l.foldl (pick rank) none with
    | none =>
      rw [hfold] at h
      obtain rfl := Option.some.inj h
      rw [foldl_pick_eq_none_iff.mp hfold]
      exact .concat_of_lt (by simp)
    | some w =>
      rw [hfold] at h
      have hw := ih hfold
      split_ifs at h with hlt
      · obtain rfl := Option.some.inj h
        rw [Option.all_some, decide_eq_true_eq] at hlt
        exact .concat_of_lt (fun y hy => (hw.rank_le hy).trans_lt hlt)
      · obtain rfl := Option.some.inj h
        rw [Option.all_some, decide_eq_true_eq, not_lt] at hlt
        exact hw.concat_of_le hlt

theorem foldl_pick_eq_some_iff :
    l.foldl (pick rank) none = some v ↔ FirstGreatest rank l v := by
  constructor
  · exact firstGreatest_of_foldl_pick
  · intro hfirst
    cases hfold : l.foldl (pick rank) none with
    | none =>
      rw [foldl_pick_eq_none_iff] at hfold
      subst hfold
      exact absurd hfirst.mem (by simp)
    | some w => rw [(firstGreatest_of_foldl_pick hfold).unique hfirst]

theorem exists_firstGreatest (rank : V → α) {x : V} (hx : x ∈ l) : ∃ v, FirstGreatest rank l v := by
  cases hfold : l.foldl (pick rank) none with
  | none =>
    rw [foldl_pick_eq_none_iff.mp hfold] at hx
    cases hx
  | some v => exact ⟨v, firstGreatest_of_foldl_pick hfold⟩

end FirstGreatest

/-! ## The best of each key -/

namespace StorageMap

variable {K V R α : Type*} [StorageKey K] [LinearOrder α] {rank : V → α}

def keepBest (m : StorageMap K V) (rank : V → α) (k : K) (v : V) : StorageMap K V :=
  if (m.get k).all (fun w => rank w < rank v) then m.insert k v else m

theorem get_keepBest [DecidableEq K] (m : StorageMap K V) (k k' : K) (v : V) :
    (keepBest m rank k v).get k' = if k' = k then pick rank (m.get k') v else m.get k' := by
  unfold keepBest pick
  by_cases hkey : k' = k
  · subst hkey
    rw [if_pos rfl]
    split_ifs
    · exact get_insert_self m k' v
    · rfl
  · rw [if_neg hkey]
    split_ifs
    · exact get_insert_of_ne m v hkey
    · rfl

theorem get_foldl_keepBest [DecidableEq K] (key : R → K) (value : R → V) (rows : List R)
    (m : StorageMap K V) (k : K) :
    (rows.foldl (fun m row => keepBest m rank (key row) (value row)) m).get k =
      ((rows.filter (fun row => decide (key row = k))).map value).foldl (pick rank) (m.get k) := by
  induction rows generalizing m with
  | nil => rfl
  | cons row rows ih =>
    rw [List.foldl_cons, ih, get_keepBest, List.filter_cons]
    by_cases hkey : k = key row
    · simp [hkey]
    · simp [hkey, Ne.symm hkey]

theorem get_foldl_keepBest_gated [DecidableEq K] (key : R → K) (value : R → V) (gate : K → Bool)
    (rows : List R) {k : K} {v : V} :
    (rows.foldl (fun m row => if gate (key row) then keepBest m rank (key row) (value row) else m)
        ∅).get k = some v ↔
      gate k = true ∧
        FirstGreatest rank ((rows.filter (fun row => decide (key row = k))).map value) v := by
  have hfold : rows.foldl (fun m row =>
        if gate (key row) then keepBest m rank (key row) (value row) else m) ∅ =
      (rows.filter (fun row => gate (key row))).foldl
        (fun m row => keepBest m rank (key row) (value row)) ∅ := List.foldl_filter.symm
  rw [hfold, get_foldl_keepBest, get_empty, foldl_pick_eq_some_iff, List.filter_filter]
  cases hgate : gate k with
  | true =>
    have hrows : rows.filter (fun row => decide (key row = k) && gate (key row)) =
        rows.filter (fun row => decide (key row = k)) := by
      apply List.filter_congr
      intro row _
      by_cases hkey : key row = k
      · simp [hkey, hgate]
      · simp [hkey]
    rw [hrows]
    simp
  | false =>
    have hrows : rows.filter (fun row => decide (key row = k) && gate (key row)) = [] := by
      rw [List.filter_eq_nil_iff]
      intro row _
      by_cases hkey : key row = k
      · simp [hkey, hgate]
      · simp [hkey]
    rw [hrows]
    simp only [Bool.false_eq_true, false_and, iff_false]
    intro hfirst
    exact absurd hfirst.mem (by simp)

end StorageMap

end Substrate
