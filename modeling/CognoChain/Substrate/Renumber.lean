import CognoChain.Substrate.AppendLog
import CognoChain.Substrate.Audit
import CognoChain.Substrate.StorageIteration

/-!
# Renumbering rows

Rows under a key are numbered from zero, one list at a time or in one pass over
rows that come grouped by their key.  Either way the numbered rows under a key
are the entries of a list, so a dense index is determined by the lists it holds.
-/

namespace Substrate

open StorageKey

instance {A : Type*} [StorageKey A] : StorageKey (Option A) where
  enc
    | none => 0
    | some a => enc a + 1
  enc_injective := by
    rintro (_ | a) (_ | b) h
    · rfl
    · cases h
    · cases h
    · exact congrArg some (enc_injective (Nat.succ.inj h))

section Dense

variable {β : Type*} {row : ℕ → Option β} {count count' : ℕ} {entries entries' : List β}

theorem Numbers.isSome_iff (hrows : Numbers row count entries) (seq : ℕ) :
    (row seq).isSome = true ↔ seq < count := by
  rw [hrows.row_eq, hrows.count_eq]
  simp

theorem Numbers.of_dense (hdense : ∀ seq, (row seq).isSome = true ↔ seq < count) :
    Numbers row count ((List.range count).filterMap row) := by
  have hbelow : ∀ n ≤ count, ((List.range n).filterMap row).length = n ∧
      ∀ seq < n, ((List.range n).filterMap row)[seq]? = row seq := by
    intro n hn
    induction n with
    | zero => exact ⟨rfl, fun seq hseq => absurd hseq (Nat.not_lt_zero seq)⟩
    | succ n ih =>
      obtain ⟨hlength, hget⟩ := ih (Nat.le_of_lt hn)
      obtain ⟨entry, hentry⟩ := Option.isSome_iff_exists.mp ((hdense n).mpr hn)
      have hlast : (List.range (n + 1)).filterMap row = (List.range n).filterMap row ++ [entry] := by
        rw [List.range_succ, List.filterMap_append]
        simp [hentry]
      refine ⟨by rw [hlast, List.length_append, hlength, List.length_singleton], fun seq hseq => ?_⟩
      rw [hlast]
      rcases Nat.lt_succ_iff_lt_or_eq.mp hseq with hlt | rfl
      · rw [List.getElem?_append_left (hlt.trans_eq hlength.symm), hget seq hlt]
      · rw [List.getElem?_append_right (Nat.le_of_eq hlength), hlength, Nat.sub_self, hentry]
        rfl
  obtain ⟨hlength, hget⟩ := hbelow count (Nat.le_refl count)
  refine ⟨fun seq => ?_, hlength.symm⟩
  rcases Nat.lt_or_ge seq count with hseq | hseq
  · exact (hget seq hseq).symm
  · rw [List.getElem?_eq_none (hlength.trans_le hseq), ← Option.not_isSome_iff_eq_none, hdense]
    exact Nat.not_lt.mpr hseq

theorem Numbers.entries_eq (hrows : Numbers row count entries)
    (hrows' : Numbers row count' entries') : entries = entries' := by
  refine List.ext_getElem? (fun seq => ?_)
  rw [← hrows.row_eq, hrows'.row_eq]

end Dense

section Rows

variable {K V : Type*} [StorageKey K]

/-- The rows under a key in the order of their numbers. -/
def StorageMap.rowsUnder (m : StorageMap (K × ℕ) V) (k : K) : List V :=
  (m.prefixKeys id k).filterMap (fun seq => m.get (k, seq))

variable {m : StorageMap (K × ℕ) V} {k : K} {count : ℕ} {entries : List V}

theorem StorageMap.rowsUnder_eq_nil (hnone : ∀ seq, m.get (k, seq) = none) : m.rowsUnder k = [] := by
  rw [StorageMap.rowsUnder, List.filterMap_eq_nil_iff]
  exact fun seq _ => hnone seq

theorem Numbers.rowsUnder_eq (hrows : Numbers (fun seq => m.get (k, seq)) count entries) :
    m.rowsUnder k = entries := by
  have hascending : (List.range count).Pairwise (HashLt id) :=
    List.pairwise_lt_range.imp Or.inl
  have hkeys : m.prefixKeys id k = List.range count := by
    refine eq_of_hashLt_pairwise (StorageMap.prefixKeys_pairwise id m k) hascending (fun seq => ?_)
    rw [StorageMap.mem_prefixKeys, List.mem_range]
    exact hrows.isSome_iff seq
  rw [StorageMap.rowsUnder, hkeys]
  exact (Numbers.of_dense hrows.isSome_iff).entries_eq hrows

/-- Numbers under a key that are at least as many as the counter says and all below
it are exactly the numbers below it. -/
theorem dense_of_count [DecidableEq K]
    (hcount : count ≤ m.count (fun key _ => key.1 = k))
    (hbelow : ∀ seq, (m.get (k, seq)).isSome = true → seq < count) (seq : ℕ) :
    (m.get (k, seq)).isSome = true ↔ seq < count := by
  have hnodup : (m.prefixKeys id k).Nodup := StorageMap.prefixKeys_nodup id m k
  have hlength : count ≤ (m.prefixKeys id k).length := by
    rw [← count_eq_length hnodup (fun _ => StorageMap.mem_prefixKeys.symm)]
    exact hcount
  have hsubperm : (m.prefixKeys id k).Subperm (List.range count) :=
    hnodup.subperm (fun seq hseq =>
      List.mem_range.mpr (hbelow seq (StorageMap.mem_prefixKeys.mp hseq)))
  have hperm : (m.prefixKeys id k).Perm (List.range count) :=
    hsubperm.perm_of_length_le (List.length_range.trans_le hlength)
  have hstored : (m.get (k, seq)).isSome = true ↔ seq ∈ m.prefixKeys id k :=
    StorageMap.mem_prefixKeys.symm
  rw [hstored, hperm.mem_iff, List.mem_range]

end Rows

/-! ## Rewriting values -/

section Translate

variable {K V W : Type*} [StorageKey K]

def StorageMap.translate (f : V → W) (m : StorageMap K V) : StorageMap K W where
  entries := m.entries.map (fun entry => (entry.1, f entry.2))
  sorted := List.pairwise_map.mpr m.sorted

theorem StorageMap.get_translate (f : V → W) (m : StorageMap K V) (k : K) :
    (m.translate f).get k = (m.get k).map f := by
  rw [StorageMap.get, StorageMap.get, StorageMap.translate, List.find?_map, Option.map_map,
    Option.map_map]
  rfl

end Translate

/-! ## Ordered sets -/

section OrderedSet

variable {α : Type*} [LinearOrder α]

def orderedSet (l : List α) : List α := l.dedup.insertionSort (· ≤ ·)

theorem mem_orderedSet {l : List α} {a : α} : a ∈ orderedSet l ↔ a ∈ l := by
  rw [orderedSet, List.mem_insertionSort, List.mem_dedup]

theorem orderedSet_pairwise (l : List α) : (orderedSet l).Pairwise (· < ·) := by
  have hsorted : (orderedSet l).Pairwise (· ≤ ·) := List.pairwise_insertionSort _ _
  have hnodup : (orderedSet l).Nodup :=
    (List.perm_insertionSort _ _).nodup_iff.mpr l.nodup_dedup
  exact (hsorted.and hnodup).imp (fun h => lt_of_le_of_ne h.1 h.2)

end OrderedSet

/-! ## Numbering one list -/

section Write

variable {K V : Type*} [StorageKey K]

/-- Write the entries of a list under the keys of the numbers from zero on, and
say how many there are. -/
def writeNumbered (bound : ℕ) (key : ℕ → K) (m : StorageMap K V) (list : List V) :
    StorageMap K V × ℕ :=
  list.foldl (fun acc v => (acc.1.insert (key acc.2) v, satAdd bound acc.2 1)) (m, 0)

variable {bound : ℕ} {key : ℕ → K} {m : StorageMap K V} {list : List V}

theorem writeNumbered_concat (bound : ℕ) (key : ℕ → K) (m : StorageMap K V) (list : List V)
    (v : V) :
    writeNumbered bound key m (list ++ [v]) =
      ((writeNumbered bound key m list).1.insert (key (writeNumbered bound key m list).2) v,
        satAdd bound (writeNumbered bound key m list).2 1) := by
  rw [writeNumbered, List.foldl_append]
  rfl

theorem writeNumbered_numbers (hkey : Function.Injective key)
    (hempty : ∀ seq, m.get (key seq) = none) (hroom : list.length ≤ bound) :
    Numbers (fun seq => (writeNumbered bound key m list).1.get (key seq))
      (writeNumbered bound key m list).2 list := by
  induction list using List.reverseRecOn with
  | nil => exact ⟨hempty, rfl⟩
  | append_singleton list v ih =>
    rw [List.length_append, List.length_singleton] at hroom
    have hrows := ih (Nat.le_of_succ_le hroom)
    rw [writeNumbered_concat, satAdd_succ_of_lt (hrows.count_eq.trans_lt hroom)]
    exact hrows.concat v (StorageMap.get_insert_self _ _ _)
      (fun seq hne => StorageMap.get_insert_of_ne _ _ (fun h => hne (hkey h)))

theorem writeNumbered_get_of_ne {k : K} (hk : ∀ seq, k ≠ key seq) :
    (writeNumbered bound key m list).1.get k = m.get k := by
  induction list using List.reverseRecOn with
  | nil => rfl
  | append_singleton list v ih =>
    rw [writeNumbered_concat, StorageMap.get_insert_of_ne _ _ (hk _), ih]

end Write

/-! ## Numbering grouped rows -/

section Renumber

variable {K V : Type*} [StorageKey K] [DecidableEq K]

/-- A pass over rows with their keys: the key of the group it is in, the next
number of that group and the rows written. -/
structure Renumbering (K V : Type*) [StorageKey K] where
  current : Option K := none
  seq : ℕ := 0
  rows : StorageMap (K × ℕ) V

def Renumbering.write (bound : ℕ) (acc : Renumbering K V) (pair : K × V) : Renumbering K V :=
  let seq := if acc.current = some pair.1 then acc.seq else 0
  { current := some pair.1
    seq := satAdd bound seq 1
    rows := acc.rows.insert (pair.1, seq) pair.2 }

def renumber (bound : ℕ) (rows : StorageMap (K × ℕ) V) (pairs : List (K × V)) :
    Renumbering K V :=
  pairs.foldl (Renumbering.write bound) { rows }

def rowsFor (pairs : List (K × V)) (k : K) : List V :=
  (pairs.filter (fun pair => pair.1 = k)).map Prod.snd

variable {bound : ℕ} {pairs : List (K × V)} {k : K}

omit [StorageKey K] in
theorem mem_rowsFor {v : V} : v ∈ rowsFor pairs k ↔ (k, v) ∈ pairs := by
  simp [rowsFor]

omit [StorageKey K] in
theorem rowsFor_concat (pairs : List (K × V)) (pair : K × V) (k : K) :
    rowsFor (pairs ++ [pair]) k = rowsFor pairs k ++ if pair.1 = k then [pair.2] else [] := by
  rw [rowsFor, List.filter_append, List.map_append, List.filter_singleton]
  by_cases hk : pair.1 = k <;> simp [hk, rowsFor]

/-- What a pass over rows in the order of their keys has done. -/
structure Renumbering.Done [LE K] (pairs : List (K × V)) (acc : Renumbering K V) : Prop where
  numbers : ∀ k, Numbers (fun seq => acc.rows.get (k, seq)) (rowsFor pairs k).length
    (rowsFor pairs k)
  seq : ∀ k, acc.current = some k → acc.seq = (rowsFor pairs k).length
  fresh : ∀ k, acc.current ≠ some k → (∀ pair ∈ pairs, pair.1 ≤ k) → rowsFor pairs k = []

theorem Renumbering.Done.write [PartialOrder K] {acc : Renumbering K V}
    (hdone : acc.Done pairs) {pair : K × V} (hlast : ∀ earlier ∈ pairs, earlier.1 ≤ pair.1)
    (hroom : (rowsFor pairs pair.1).length < bound) :
    (acc.write bound pair).Done (pairs ++ [pair]) := by
  have hnext : (if acc.current = some pair.1 then acc.seq else 0) =
      (rowsFor pairs pair.1).length := by
    split
    · next hcurrent => exact hdone.seq _ hcurrent
    · next hcurrent => rw [hdone.fresh _ hcurrent hlast, List.length_nil]
  have hwrite : acc.write bound pair = { current := some pair.1
                                         seq := (rowsFor pairs pair.1).length + 1
                                         rows := acc.rows.insert
                                           (pair.1, (rowsFor pairs pair.1).length) pair.2 } := by
    rw [Renumbering.write, hnext, satAdd_succ_of_lt hroom]
  rw [hwrite]
  refine ⟨fun k => ?_, fun k hk => ?_, fun k hk hle => ?_⟩
  · rw [rowsFor_concat]
    by_cases hkey : pair.1 = k
    · subst hkey
      rw [if_pos rfl, List.length_append, List.length_singleton]
      exact (hdone.numbers pair.1).concat pair.2 (StorageMap.get_insert_self _ _ _)
        (fun seq hne => StorageMap.get_insert_of_ne _ _ (fun h => hne (Prod.mk.inj h).2))
    · rw [if_neg hkey, List.append_nil]
      refine ⟨fun seq => ?_, rfl⟩
      rw [StorageMap.get_insert_of_ne _ _ (fun h => hkey (Prod.mk.inj h).1.symm)]
      exact (hdone.numbers k).row_eq seq
  · rw [rowsFor_concat, if_pos (Option.some.inj hk), ← Option.some.inj hk, List.length_append,
      List.length_singleton]
  · have hne : pair.1 ≠ k := fun heq => hk (congrArg some heq)
    rw [rowsFor_concat, if_neg hne, List.append_nil, List.eq_nil_iff_forall_not_mem]
    intro v hv
    rw [mem_rowsFor] at hv
    exact hne (le_antisymm (hle pair (by simp)) (hlast _ hv))

theorem renumber_done [PartialOrder K] (hsorted : pairs.Pairwise (fun a b => a.1 ≤ b.1))
    (hroom : ∀ k, (rowsFor pairs k).length ≤ bound) :
    (renumber bound ∅ pairs).Done pairs := by
  induction pairs using List.reverseRecOn with
  | nil => exact ⟨fun _ => Numbers.empty, nofun, fun _ _ _ => rfl⟩
  | append_singleton pairs pair ih =>
    obtain ⟨hpairs, -, hlast⟩ := List.pairwise_append.mp hsorted
    have hless : ∀ k, (rowsFor pairs k).length ≤ bound := by
      intro k
      refine Nat.le_trans ?_ (hroom k)
      rw [rowsFor_concat, List.length_append]
      exact Nat.le_add_right _ _
    have hlt : (rowsFor pairs pair.1).length < bound := by
      have hmore := hroom pair.1
      rw [rowsFor_concat, if_pos rfl, List.length_append] at hmore
      exact hmore
    have hstep : renumber bound ∅ (pairs ++ [pair]) =
        (renumber bound ∅ pairs).write bound pair := by
      rw [renumber, List.foldl_append]
      rfl
    rw [hstep]
    exact (ih hpairs hless).write (fun earlier hmem => hlast earlier hmem pair (by simp)) hlt

end Renumber

end Substrate
