import CognoChain.Substrate.Paging
import CognoChain.Substrate.Saturating
import CognoChain.Substrate.StorageMap

/-!
# Numbered rows over an append-only log

Entries of a log are known by their place.  An index numbers the places it is
interested in and keeps a counter of how many it has; what it holds is the list
of those places.
-/

namespace Substrate

variable {α β γ K : Type*} [StorageKey K]

/-- Rows numbered from zero hold the entries of a list, and the counter is its
length. -/
structure Numbers (row : ℕ → Option β) (count : ℕ) (entries : List β) : Prop where
  row_eq : ∀ seq, row seq = entries[seq]?
  count_eq : count = entries.length

section Numbers

variable {row : ℕ → Option β} {count : ℕ} {entries : List β}

theorem Numbers.empty : Numbers (fun _ => none) 0 ([] : List β) := ⟨fun _ => rfl, rfl⟩

theorem Numbers.concat (hrows : Numbers row count entries) (entry : β) {row' : ℕ → Option β}
    (hnew : row' count = some entry) (hold : ∀ seq, seq ≠ count → row' seq = row seq) :
    Numbers row' (count + 1) (entries ++ [entry]) := by
  refine ⟨fun seq => ?_, by rw [hrows.count_eq, List.length_append, List.length_singleton]⟩
  by_cases hseq : seq = count
  · rw [hseq, hnew, hrows.count_eq, List.getElem?_concat_length]
  · rw [hold seq hseq, hrows.row_eq]
    rw [hrows.count_eq] at hseq
    rcases Nat.lt_or_gt_of_ne hseq with hlt | hgt
    · rw [List.getElem?_append_left hlt]
    · rw [List.getElem?_eq_none (Nat.le_of_lt hgt), List.getElem?_eq_none]
      rw [List.length_append, List.length_singleton]
      exact hgt

theorem Numbers.insert {m : StorageMap ℕ β} (hrows : Numbers m.get count entries) (entry : β) :
    Numbers (m.insert count entry).get (count + 1) (entries ++ [entry]) :=
  hrows.concat entry (m.get_insert_self _ _) (fun _ hne => m.get_insert_of_ne _ hne)

theorem Numbers.insert_keyed [DecidableEq K] {m : StorageMap (K × ℕ) β} {counts : StorageMap K ℕ}
    {key : K} (hrows : Numbers (fun seq => m.get (key, seq)) (counts.getD key 0) entries)
    (written : K) (bound : ℕ) (hroom : written = key → entries.length < bound) (entry : β) :
    Numbers (fun seq => (m.insert (written, counts.getD written 0) entry).get (key, seq))
      ((counts.insert written (satAdd bound (counts.getD written 0) 1)).getD key 0)
      (entries ++ if written = key then [entry] else []) := by
  by_cases hkey : written = key
  · subst hkey
    have hcount : satAdd bound (counts.getD written 0) 1 = counts.getD written 0 + 1 := by
      have hlt := hroom rfl
      rw [hrows.count_eq, satAdd]
      omega
    rw [if_pos rfl, StorageMap.getD_insert_self, hcount]
    exact hrows.concat entry (m.get_insert_self _ _)
      (fun _ hne => m.get_insert_of_ne _ (fun h => hne (Prod.mk.inj h).2))
  · rw [if_neg hkey, List.append_nil, StorageMap.getD_insert_of_ne _ _ _ (Ne.symm hkey)]
    refine ⟨fun seq => ?_, hrows.count_eq⟩
    rw [m.get_insert_of_ne _ (fun h => hkey (Prod.mk.inj h).1.symm)]
    exact hrows.row_eq seq

end Numbers

/-! ## The places of a log -/

section Places

variable {p : α → Bool} {log later : List α} {i : ℕ}

theorem findIdxs_concat (p : α → Bool) (log : List α) (a : α) :
    (log ++ [a]).findIdxs p = log.findIdxs p ++ if p a then [log.length] else [] := by
  rw [List.findIdxs_append, List.findIdxs_singleton, Nat.zero_add]

theorem mem_findIdxs : i ∈ log.findIdxs p ↔ log[i]?.any p = true := by
  rw [List.mem_findIdxs_iff_exists_getElem_pos]
  rcases Nat.lt_or_ge i log.length with hi | hi
  · simp [hi]
  · simp [Nat.not_lt.mpr hi]

theorem findIdxs_mono (hextends : log <+: later) : log.findIdxs p <+: later.findIdxs p := by
  obtain ⟨more, rfl⟩ := hextends
  rw [List.findIdxs_append]
  exact List.prefix_append _ _

theorem findIdxs_eq_filter (p : α → Bool) (log : List α) :
    log.findIdxs p = (List.range log.length).filter (fun i => log[i]?.any p) := by
  have hrange : ((List.range log.length).filter (fun i => log[i]?.any p)).Pairwise (· < ·) :=
    List.pairwise_lt_range.filter _
  refine List.pairwise_findIdxs.eq_of_mem_iff hrange (fun i => ?_)
  rw [mem_findIdxs, List.mem_filter, List.mem_range]
  rcases Nat.lt_or_ge i log.length with hi | hi
  · simp [hi]
  · simp [Nat.not_lt.mpr hi]

theorem filterMap_countdown_places (p : α → Bool) (log : List α) :
    (countdown 0 log.length).filterMap (Option.guard (fun i => log[i]?.any p)) =
      (log.findIdxs p).reverse := by
  rw [countdown_zero, List.filterMap_reverse, findIdxs_eq_filter, List.filterMap_eq_filter]

theorem findIdxs_filter (p q : α → Bool) (log : List α) :
    (log.findIdxs p).filter (fun i => log[i]?.any q) = log.findIdxs (fun a => p a && q a) := by
  rw [findIdxs_eq_filter, findIdxs_eq_filter, List.filter_filter]
  refine List.filter_congr (fun i _ => ?_)
  cases log[i]? with
  | none => rfl
  | some a => exact Bool.and_comm _ _

theorem getElem?_of_extends (hextends : log <+: later) (hi : i < log.length) :
    later[i]? = log[i]? := by
  obtain ⟨more, rfl⟩ := hextends
  exact List.getElem?_append_left hi

theorem filterMap_countdown (entries : List β) (f : β → Option γ) :
    (countdown 0 entries.length).filterMap (fun seq => entries[seq]?.bind f) =
      (entries.filterMap f).reverse := by
  have hrange : (List.range entries.length).filterMap (fun seq => entries[seq]?.bind f) =
      entries.filterMap f := by
    induction entries using List.reverseRecOn with
    | nil => rfl
    | append_singleton entries entry ih =>
      have hfront : ∀ seq ∈ List.range entries.length,
          (entries ++ [entry])[seq]?.bind f = entries[seq]?.bind f := by
        intro seq hseq
        rw [List.getElem?_append_left (List.mem_range.mp hseq)]
      rw [List.length_append, List.length_singleton, List.range_succ, List.filterMap_append,
        List.filterMap_congr hfront, ih, List.filterMap_append]
      congr 1
      rw [List.filterMap_cons, List.getElem?_concat_length, Option.bind_some,
        List.filterMap_cons, List.filterMap_nil, List.filterMap_nil]
  rw [countdown_zero, List.filterMap_reverse, hrange]

end Places

end Substrate
