import CognoChain.Substrate.Run
import CognoChain.Substrate.StorageMap

/-!
# Batches

A batch attempts one operation on each of its targets.  When an operation, once
done, can not be done again to the same target and leaves the other targets as
they were, the batch counts its distinct feasible targets; when the operations
commute, their order does not matter.
-/

namespace Substrate

section Batch

variable {σ τ α ε : Type*} {f : σ → α → Except ε σ} {step : σ → α → σ}

theorem attempt_of_error {s : σ} {target : α} {e : ε} (h : f s target = .error e) :
    attempt f s target = s := by
  simp [attempt, h]

theorem applyAll_snd [DecidableEq α] (feasible : σ → α → Bool)
    (herror : ∀ s a e, f s a = .error e → feasible s a = false)
    (hok : ∀ s a s', f s a = .ok s' →
      feasible s a = true ∧ ∀ b, feasible s' b = (feasible s b && decide (b ≠ a)))
    (bound : ℕ) (s : σ) (targets : List α) :
    (applyAll bound f s targets).2 =
      min (targets.toFinset.filter (fun a => feasible s a)).card bound := by
  obtain ⟨each, happly, hdone, hskip⟩ : ∃ each : σ × ℕ → α → σ × ℕ,
      applyAll bound f s targets = targets.foldl each (s, 0) ∧
      (∀ acc a s', f acc.1 a = .ok s' → each acc a = (s', min (acc.2 + 1) bound)) ∧
      ∀ acc a e, f acc.1 a = .error e → each acc a = acc :=
    ⟨_, rfl, fun acc a s' h => by simp only [h], fun acc a e h => by simp only [h]⟩
  suffices hfold : ∀ acc : σ × ℕ, acc.2 ≤ bound → (targets.foldl each acc).2 =
      min (acc.2 + (targets.toFinset.filter (fun a => feasible acc.1 a)).card) bound by
    rw [happly, hfold (s, 0) (Nat.zero_le bound), Nat.zero_add]
  clear happly
  induction targets with
  | nil =>
    intro acc hacc
    simpa using hacc
  | cons target targets ih =>
    intro acc hacc
    rw [List.foldl_cons, List.toFinset_cons, Finset.filter_insert]
    cases hf : f acc.1 target with
    | error e =>
      rw [herror acc.1 target e hf, hskip acc target e hf]
      exact ih acc hacc
    | ok after =>
      obtain ⟨hfeasible, hafter⟩ := hok acc.1 target after hf
      have hrest : (targets.toFinset.filter (fun a => feasible acc.1 a)).erase target =
          targets.toFinset.filter (fun a => feasible after a) := by
        ext a
        rw [Finset.mem_erase, Finset.mem_filter, Finset.mem_filter, hafter a]
        simp only [Bool.and_eq_true, decide_eq_true_eq]
        tauto
      have hcard : (insert target (targets.toFinset.filter (fun a => feasible acc.1 a))).card =
          (targets.toFinset.filter (fun a => feasible after a)).card + 1 := by
        rw [← Finset.insert_erase (Finset.mem_insert_self target _), Finset.erase_insert_eq_erase,
          hrest, Finset.card_insert_of_notMem]
        rw [← hrest]
        exact Finset.notMem_erase target _
      rw [hfeasible, if_pos rfl, hcard, hdone acc target after hf, ih _ (Nat.min_le_right _ _)]
      dsimp only
      omega

theorem run_project {g : τ → α → τ} (project : σ → τ)
    (hstep : ∀ s a, project (step s a) = g (project s) a) (s : σ) (ops : List α) :
    project (run step s ops) = run g (project s) ops := by
  induction ops generalizing s with
  | nil => rfl
  | cons op ops ih => rw [run_cons, ih, hstep, run_cons]

theorem run_perm (hcomm : ∀ s a b, step (step s a) b = step (step s b) a) {ops ops' : List α}
    (hperm : ops.Perm ops') (s : σ) : run step s ops = run step s ops' :=
  hperm.foldl_eq' (fun a _ b _ s => hcomm s a b) s

end Batch

namespace StorageMap

variable {K V : Type*} [StorageKey K]

def removeAll (m : StorageMap K V) (ks : List K) : StorageMap K V := ks.foldl remove m

def insertAll (m : StorageMap K V) (ks : List K) (v : V) : StorageMap K V :=
  ks.foldl (fun m k => m.insert k v) m

theorem removeAll_singleton (m : StorageMap K V) (k : K) : m.removeAll [k] = m.remove k := rfl

theorem removeAll_append (m : StorageMap K V) (ks ks' : List K) :
    m.removeAll (ks ++ ks') = (m.removeAll ks).removeAll ks' :=
  List.foldl_append

variable [DecidableEq K]

theorem contains_remove (m : StorageMap K V) (k k' : K) :
    (m.remove k).contains k' = (m.contains k' && decide (k' ≠ k)) := by
  rw [contains_eq_isSome, get_remove, contains_eq_isSome]
  split_ifs with hk <;> simp [hk]

theorem get_removeAll (m : StorageMap K V) (ks : List K) (k : K) :
    (m.removeAll ks).get k = if k ∈ ks then none else m.get k := by
  induction ks generalizing m with
  | nil => rfl
  | cons first ks ih =>
    have hcons : m.removeAll (first :: ks) = (m.remove first).removeAll ks := rfl
    rw [hcons, ih, get_remove]
    by_cases hfirst : k = first <;> by_cases hrest : k ∈ ks <;> simp [hfirst, hrest]

theorem get_insertAll (m : StorageMap K V) (ks : List K) (v : V) (k : K) :
    (m.insertAll ks v).get k = if k ∈ ks then some v else m.get k := by
  induction ks generalizing m with
  | nil => rfl
  | cons first ks ih =>
    have hcons : m.insertAll (first :: ks) v = (m.insert first v).insertAll ks v := rfl
    rw [hcons, ih, get_insert]
    by_cases hfirst : k = first <;> by_cases hrest : k ∈ ks <;> simp [hfirst, hrest]

theorem removeAll_comm (m : StorageMap K V) (ks ks' : List K) :
    (m.removeAll ks).removeAll ks' = (m.removeAll ks').removeAll ks := by
  apply ext_get
  intro k
  simp only [get_removeAll]
  split_ifs <;> rfl

theorem insertAll_comm (m : StorageMap K V) (ks ks' : List K) (v : V) :
    (m.insertAll ks v).insertAll ks' v = (m.insertAll ks' v).insertAll ks v := by
  apply ext_get
  intro k
  simp only [get_insertAll]
  split_ifs <;> rfl

end StorageMap

end Substrate
