import CognoChain.Substrate.Saturating
import CognoChain.Substrate.StorageMap

/-!
# Audits of counters

An audit goes through the rows of a table and tallies them under keys, then
compares every stored counter with the tally under its key and complains if a
tally is left over.  It passes exactly when each counter agrees with the rows
under its key and every row has a counter.
-/

namespace Substrate

section Checks

variable {ε R : Type*}

def ensure (holds : Bool) (complaint : ε) : Except ε Unit :=
  if holds then .ok () else .error complaint

theorem ensure_eq_ok_iff {holds : Bool} {complaint : ε} :
    ensure holds complaint = .ok () ↔ holds = true := by
  cases holds <;> simp [ensure]

theorem bind_eq_ok_iff {first second : Except ε Unit} :
    (first >>= fun _ => second) = .ok () ↔ first = .ok () ∧ second = .ok () := by
  cases first with
  | error complaint => simp [bind, Except.bind]
  | ok _ => simp [bind, Except.bind]

def checkEach (check : R → Except ε Unit) : List R → Except ε Unit
  | [] => .ok ()
  | row :: rows => do
      check row
      checkEach check rows

theorem checkEach_eq_ok_iff {check : R → Except ε Unit} {rows : List R} :
    checkEach check rows = .ok () ↔ ∀ row ∈ rows, check row = .ok () := by
  induction rows with
  | nil => simp [checkEach]
  | cons row rows ih =>
    rw [checkEach, bind_eq_ok_iff, ih]
    simp

end Checks

section Audit

variable {ε R K T C : Type*} [StorageKey K] [DecidableEq K]

def tallyRows (key : R → K) (bump : T → R → T) (zero : T) (rows : List R) : StorageMap K T :=
  rows.foldl (fun tally row => tally.mutate (key row) zero (fun t => bump t row)) ∅

/-- Compare the counters in turn with the tallies under their keys, taking each
tally away. -/
def checkCounters (compare : C → T → Except ε Unit) (zero : T) (leftover : ε) :
    List (K × C) → StorageMap K T → Except ε Unit
  | [], left => ensure left.entries.isEmpty leftover
  | (k, count) :: counts, left => do
      compare count (left.getD k zero)
      checkCounters compare zero leftover counts (left.remove k)

def audit (key : R → K) (bump : T → R → T) (zero : T) (rows : List R) (counts : StorageMap K C)
    (compare : C → T → Except ε Unit) (leftover : ε) : Except ε Unit :=
  checkCounters compare zero leftover counts.entries (tallyRows key bump zero rows)

variable {key : R → K} {bump : T → R → T} {zero : T} {rows : List R} {counts : StorageMap K C}
  {compare : C → T → Except ε Unit} {leftover : ε}

omit [DecidableEq K] in
theorem tallyRows_concat (rows : List R) (row : R) :
    tallyRows key bump zero (rows ++ [row]) =
      (tallyRows key bump zero rows).mutate (key row) zero (fun t => bump t row) := by
  rw [tallyRows, List.foldl_append]
  rfl

theorem tallyRows_getD (rows : List R) (k : K) :
    (tallyRows key bump zero rows).getD k zero =
      (rows.filter (fun row => key row = k)).foldl bump zero := by
  induction rows using List.reverseRecOn with
  | nil => rfl
  | append_singleton rows row ih =>
    rw [tallyRows_concat, StorageMap.mutate, StorageMap.getD_insert, List.filter_append]
    by_cases hkey : key row = k
    · subst hkey
      rw [if_pos rfl, ih, List.filter_singleton, decide_eq_true rfl, cond_true,
        List.foldl_append]
      rfl
    · rw [if_neg (Ne.symm hkey), ih, List.filter_singleton, decide_eq_false hkey,
        cond_false, List.append_nil]

theorem tallyRows_contains (rows : List R) (k : K) :
    (tallyRows key bump zero rows).contains k = true ↔ ∃ row ∈ rows, key row = k := by
  induction rows using List.reverseRecOn with
  | nil => simp [tallyRows]
  | append_singleton rows row ih =>
    rw [tallyRows_concat, StorageMap.mutate, StorageMap.contains, StorageMap.get_insert]
    by_cases hkey : k = key row
    · simp [hkey]
    · rw [if_neg hkey]
      simp only [List.mem_append, List.mem_singleton, or_and_right, exists_or, exists_eq_left,
        Ne.symm hkey, or_false]
      exact ih

theorem checkCounters_eq_ok_iff {counts : List (K × C)} (hnodup : (counts.map Prod.fst).Nodup)
    {left : StorageMap K T} :
    checkCounters compare zero leftover counts left = .ok () ↔
      (∀ k count, (k, count) ∈ counts → compare count (left.getD k zero) = .ok ()) ∧
        ∀ k, left.contains k = true → k ∈ counts.map Prod.fst := by
  induction counts generalizing left with
  | nil =>
    rw [checkCounters, ensure_eq_ok_iff, List.isEmpty_iff]
    constructor
    · intro hempty
      refine ⟨nofun, fun k hk => ?_⟩
      have hmem : k ∈ left.keys := StorageMap.mem_keys_iff.mpr hk
      rw [StorageMap.keys, hempty] at hmem
      cases hmem
    · rintro ⟨-, hnone⟩
      cases hentries : left.entries with
      | nil => rfl
      | cons entry rest =>
        have hmem : entry.1 ∈ left.keys := by
          rw [StorageMap.keys, hentries]
          exact List.mem_cons_self
        cases hnone entry.1 (StorageMap.mem_keys_iff.mp hmem)
  | cons head counts ih =>
    obtain ⟨k, count⟩ := head
    rw [List.map_cons, List.nodup_cons] at hnodup
    have hrest : ∀ k', k' ∈ counts.map Prod.fst → k' ≠ k :=
      fun k' hmem heq => hnodup.1 (heq ▸ hmem)
    have hkept : ∀ k' count', (k', count') ∈ counts →
        (left.remove k).getD k' zero = left.getD k' zero := by
      intro k' count' hmem
      rw [StorageMap.getD_remove, if_neg (hrest k' (List.mem_map_of_mem hmem))]
    have hcovered : (∀ k', (left.remove k).contains k' = true → k' ∈ counts.map Prod.fst) ↔
        ∀ k', left.contains k' = true → k' ∈ ((k, count) :: counts).map Prod.fst := by
      refine forall_congr' (fun k' => ?_)
      rw [List.map_cons, List.mem_cons, StorageMap.contains, StorageMap.get_remove]
      by_cases hsame : k' = k
      · simp [hsame]
      · rw [if_neg hsame, StorageMap.contains]
        simp [hsame]
    rw [checkCounters, bind_eq_ok_iff, ih hnodup.2, hcovered, ← and_assoc]
    refine and_congr_left (fun _ => ?_)
    constructor
    · rintro ⟨hhead, htail⟩ k' count' hmem
      rcases List.mem_cons.mp hmem with heq | hmem
      · obtain ⟨rfl, rfl⟩ := Prod.mk.inj heq
        exact hhead
      · rw [← hkept k' count' hmem]
        exact htail k' count' hmem
    · intro hall
      refine ⟨hall k count List.mem_cons_self, fun k' count' hmem => ?_⟩
      rw [hkept k' count' hmem]
      exact hall k' count' (List.mem_cons_of_mem _ hmem)

theorem audit_eq_ok_iff :
    audit key bump zero rows counts compare leftover = .ok () ↔
      (∀ k count, counts.get k = some count →
        compare count ((rows.filter (fun row => key row = k)).foldl bump zero) = .ok ()) ∧
      ∀ row ∈ rows, counts.contains (key row) = true := by
  rw [audit, checkCounters_eq_ok_iff counts.keys_nodup]
  refine and_congr ?_ ?_
  · refine forall₂_congr (fun k count => ?_)
    rw [StorageMap.get_eq_some_iff, tallyRows_getD]
  · constructor
    · intro hcovered row hrow
      exact StorageMap.mem_keys_iff.mp
        (hcovered (key row) ((tallyRows_contains rows _).mpr ⟨row, hrow, rfl⟩))
    · intro hcovered k hk
      obtain ⟨row, hrow, rfl⟩ := (tallyRows_contains rows k).mp hk
      exact StorageMap.mem_keys_iff.mpr (hcovered row hrow)

omit [DecidableEq K] in
theorem tallyRows_sum (bound : ℕ) {size : T → ℕ} (hzero : size zero = 0)
    (hbump : ∀ t row, size (bump t row) = satAdd bound (size t) 1) (hroom : rows.length ≤ bound) :
    ((tallyRows key bump zero rows).entries.map (fun entry => size entry.2)).sum =
      rows.length := by
  induction rows using List.reverseRecOn with
  | nil => rfl
  | append_singleton rows row ih =>
    rw [List.length_append, List.length_singleton] at hroom ⊢
    have hrows := ih (by omega)
    rw [tallyRows_concat, StorageMap.mutate]
    generalize tallyRows key bump zero rows = tally at hrows ⊢
    rw [((tally.insert_entries_perm _ _).map _).sum_eq, List.map_cons, List.sum_cons]
    cases hget : tally.get (key row) with
    | none =>
      rw [StorageMap.getD_of_get_none hget, StorageMap.remove_of_get_none hget, hrows, hbump,
        hzero, satAdd]
      omega
    | some t =>
      rw [((StorageMap.entries_perm_of_get hget).map _).sum_eq, List.map_cons,
        List.sum_cons] at hrows
      rw [StorageMap.getD_of_get_some hget, hbump, satAdd]
      dsimp only at hrows
      omega

end Audit

/-! ## Counting rows -/

section Counting

variable {R A B V : Type*} [StorageKey A] [StorageKey B] [DecidableEq A]

omit [DecidableEq A] in
theorem entries_length_insert {m : StorageMap A V} {a : A} (hnew : m.get a = none) (v : V) :
    (m.insert a v).entries.length = m.entries.length + 1 := by
  rw [(m.insert_entries_perm a v).length_eq, List.length_cons,
    StorageMap.remove_of_get_none hnew]

theorem foldl_count (bound : ℕ) (rows : List R) :
    rows.foldl (fun n _ => satAdd bound n 1) 0 = min rows.length bound := by
  induction rows using List.reverseRecOn with
  | nil => simp
  | append_singleton rows row ih =>
    rw [List.foldl_append, ih, List.length_append, List.length_singleton]
    exact satAdd_min_succ bound rows.length

theorem filter_entries_length (m : StorageMap (A × B) V) (a : A) :
    (m.entries.filter (fun row => row.1.1 = a)).length = m.count (fun key _ => key.1 = a) :=
  List.countP_eq_length_filter.symm

theorem count_eq_length {m : StorageMap (A × B) V} {a : A} {l : List B} (hnodup : l.Nodup)
    (hmem : ∀ b, (m.get (a, b)).isSome = true ↔ b ∈ l) :
    m.count (fun key _ => key.1 = a) = l.length := by
  have hkeys : ((m.entries.filter (fun row => row.1.1 = a)).map (fun row => row.1.2)).Perm l := by
    refine (List.perm_ext_iff_of_nodup ?_ hnodup).mpr (fun b => ?_)
    · refine List.Nodup.map_on ?_ (m.entries_nodup.filter _)
      intro row hrow row' hrow' heq
      rw [List.mem_filter, decide_eq_true_eq] at hrow hrow'
      have hkey : row.1 = row'.1 := Prod.ext (hrow.2.trans hrow'.2.symm) heq
      have hget : m.get row.1 = some row.2 := StorageMap.get_eq_some_iff.mpr hrow.1
      have hget' : m.get row'.1 = some row'.2 := StorageMap.get_eq_some_iff.mpr hrow'.1
      rw [hkey, hget'] at hget
      exact Prod.ext hkey (Option.some.inj hget).symm
    · rw [← hmem, List.mem_map]
      constructor
      · rintro ⟨⟨⟨a', b'⟩, v⟩, hrow, rfl⟩
        rw [List.mem_filter, decide_eq_true_eq] at hrow
        obtain ⟨hrow, rfl⟩ := hrow
        rw [StorageMap.get_eq_some_iff.mpr hrow]
        rfl
      · intro hstored
        obtain ⟨v, hv⟩ := Option.isSome_iff_exists.mp hstored
        exact ⟨((a, b), v), List.mem_filter.mpr ⟨StorageMap.get_eq_some_iff.mp hv, by simp⟩, rfl⟩
  rw [← filter_entries_length, ← hkeys.length_eq, List.length_map]

end Counting

end Substrate
