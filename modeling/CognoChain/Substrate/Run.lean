import Mathlib.Logic.Relation
import Mathlib.Tactic

/-!
# Runs of a deterministic machine

A machine is a step function.  A condition may be required of every step of a
run in the state that step starts from; an invariant that such steps keep then
holds wherever the run leads.
-/

namespace Substrate

section Run

variable {σ α : Type*} {step : σ → α → σ} {allowed : σ → α → Prop} {ops : List α} {s : σ} {s' : σ}

def run (step : σ → α → σ) (s : σ) (ops : List α) : σ := ops.foldl step s

@[simp] theorem run_nil (s : σ) : run step s [] = s := rfl

@[simp] theorem run_cons (s : σ) (op : α) (ops : List α) :
    run step s (op :: ops) = run step (step s op) ops := rfl

theorem run_append (s : σ) (ops ops' : List α) :
    run step s (ops ++ ops') = run step (run step s ops) ops' :=
  List.foldl_append

theorem run_concat (s : σ) (ops : List α) (op : α) :
    run step s (ops ++ [op]) = step (run step s ops) op := by
  rw [run_append, run_cons, run_nil]

/-- Every step of the run meets `allowed` in the state it starts from. -/
def Along (step : σ → α → σ) (allowed : σ → α → Prop) : σ → List α → Prop
  | _, [] => True
  | s, op :: ops => allowed s op ∧ Along step allowed (step s op) ops

instance Along.decidable {allowed : σ → α → Prop} [hallowed : ∀ s op, Decidable (allowed s op)] :
    (s : σ) → (ops : List α) → Decidable (Along step allowed s ops)
  | _, [] => isTrue trivial
  | s, op :: ops =>
      @instDecidableAnd _ _ (hallowed s op) (Along.decidable (step s op) ops)

theorem Along.append_iff {ops' : List α} :
    Along step allowed s (ops ++ ops') ↔
      Along step allowed s ops ∧ Along step allowed (run step s ops) ops' := by
  induction ops generalizing s with
  | nil => simp [Along]
  | cons op ops ih =>
    simp only [List.cons_append, Along, run_cons]
    rw [ih, and_assoc]

theorem Along.of_forall {allowed : α → Prop} (h : ∀ op ∈ ops, allowed op) :
    Along step (fun _ op => allowed op) s ops := by
  induction ops generalizing s with
  | nil => trivial
  | cons op ops ih =>
    have hhead : allowed op := h op List.mem_cons_self
    have htail : ∀ op' ∈ ops, allowed op' :=
      fun op' hmem => h op' (List.mem_cons_of_mem op hmem)
    exact ⟨hhead, ih htail⟩

/-- A condition on states is met along a run that never leaves it. -/
theorem Along.of_reached {allowed : σ → Prop}
    (h : ∀ earlier, earlier <+: ops → allowed (run step s earlier)) :
    Along step (fun s _ => allowed s) s ops := by
  induction ops generalizing s with
  | nil => trivial
  | cons op ops ih =>
    refine ⟨h [] List.nil_prefix, ih ?_⟩
    intro earlier hearlier
    exact h (op :: earlier) (List.cons_prefix_cons.mpr ⟨rfl, hearlier⟩)

theorem Along.reached (h : Along step allowed s ops) (before : List α) (op : α)
    (hearlier : before ++ [op] <+: ops) :
    allowed (run step s before) op := by
  obtain ⟨rest, rfl⟩ := hearlier
  exact (Along.append_iff.mp (Along.append_iff.mp h).1).2.1

theorem Along.invariant (inv : σ → Prop) (hallowed : Along step allowed s ops)
    (hstep : ∀ s op, allowed s op → inv s → inv (step s op)) (hinit : inv s) :
    inv (run step s ops) := by
  induction ops generalizing s with
  | nil => exact hinit
  | cons op ops ih =>
    obtain ⟨hop, hrest⟩ := hallowed
    exact ih hrest (hstep s op hop hinit)

theorem run_invariant (inv : σ → Prop) (ops : List α) (hstep : ∀ s op, inv s → inv (step s op))
    (hinit : inv s) :
    inv (run step s ops) := by
  induction ops generalizing s with
  | nil => exact hinit
  | cons op ops ih => exact ih (hstep s op hinit)

theorem foldl_invariant (f : σ → α → σ) (inv : σ → Prop) (hstep : ∀ s op, inv s → inv (f s op))
    (hinit : inv s) :
    inv (ops.foldl f s) :=
  run_invariant inv ops hstep hinit

theorem reach_invariant {R : σ → σ → Prop} (inv : σ → Prop)
    (hstep : ∀ s s', R s s' → inv s → inv s') (hreach : Relation.ReflTransGen R s s')
    (hinit : inv s) : inv s' := by
  induction hreach with
  | refl => exact hinit
  | tail _ hlast ih => exact hstep _ _ hlast ih

theorem foldlM_invariant {step : σ → α → Option σ} (inv : σ → Prop) (ops : List α)
    (hstep : ∀ s op after, step s op = some after → inv s → inv after)
    (hrun : ops.foldlM step s = some s') (hinit : inv s) : inv s' := by
  induction ops generalizing s with
  | nil =>
    rw [← Option.some.inj hrun]
    exact hinit
  | cons op ops ih =>
    rw [List.foldlM_cons] at hrun
    obtain ⟨after, hop, hrest⟩ := Option.bind_eq_some_iff.mp hrun
    exact ih hrest (hstep s op after hop hinit)

end Run

section Batch

variable {σ α ε : Type*} {f : σ → α → Except ε σ} {s : σ} {target : α}

/-- A fallible operation as a step: a failure changes nothing. -/
def attempt (f : σ → α → Except ε σ) (s : σ) (target : α) : σ :=
  match f s target with
  | .ok after => after
  | .error _ => s

theorem attempt_of_ok {after : σ} (h : f s target = .ok after) :
    attempt f s target = after := by
  simp [attempt, h]

theorem attempt_invariant (inv : σ → Prop) (hok : ∀ after, f s target = .ok after → inv after)
    (hinit : inv s) :
    inv (attempt f s target) := by
  unfold attempt
  split
  next after hafter => exact hok after hafter
  next => exact hinit

/-- Attempt an operation on each target in turn.  The second component counts
the targets it succeeded on, up to `bound`. -/
def applyAll (bound : ℕ) (f : σ → α → Except ε σ) (s : σ) (targets : List α) : σ × ℕ :=
  targets.foldl (fun acc target =>
    match f acc.1 target with
    | .ok after => (after, min (acc.2 + 1) bound)
    | .error _ => acc) (s, 0)

theorem applyAll_fst (bound : ℕ) (f : σ → α → Except ε σ) (s : σ) (targets : List α) :
    (applyAll bound f s targets).1 = run (attempt f) s targets := by
  unfold applyAll
  suffices hfold : ∀ acc : σ × ℕ, (targets.foldl (fun acc target =>
      match f acc.1 target with
      | .ok after => (after, min (acc.2 + 1) bound)
      | .error _ => acc) acc).1 = run (attempt f) acc.1 targets from hfold (s, 0)
  induction targets with
  | nil => exact fun acc => rfl
  | cons target targets ih =>
    intro acc
    rw [List.foldl_cons, ih, run_cons]
    congr 1
    unfold attempt
    split <;> rfl

theorem applyAll_invariant {bound : ℕ} (inv : σ → Prop) (targets : List α)
    (hstep : ∀ s target after, f s target = .ok after → inv s → inv after) (hinit : inv s) :
    inv (applyAll bound f s targets).1 := by
  rw [applyAll_fst]
  apply run_invariant inv targets _ hinit
  intro before target hbefore
  exact attempt_invariant inv
    (fun after hafter => hstep before target after hafter hbefore) hbefore

end Batch

section Totals

variable {σ α : Type*} {step : σ → α → σ} {quantity : σ → α → ℕ} {s : σ}

/-- The sum of a quantity over the steps of a run, each taken in the state the
step starts from. -/
def sumAlong (step : σ → α → σ) (quantity : σ → α → ℕ) : σ → List α → ℕ
  | _, [] => 0
  | s, op :: ops => quantity s op + sumAlong step quantity (step s op) ops

theorem sumAlong_append (step : σ → α → σ) (quantity : σ → α → ℕ) (s : σ) (ops ops' : List α) :
    sumAlong step quantity s (ops ++ ops') =
      sumAlong step quantity s ops + sumAlong step quantity (run step s ops) ops' := by
  induction ops generalizing s with
  | nil => exact (Nat.zero_add _).symm
  | cons op ops ih => rw [List.cons_append, sumAlong, sumAlong, ih, run_cons, Nat.add_assoc]

/-- What a run spends is covered by what it earns and the potential it starts from. -/
theorem sumAlong_le_potential {spent earned : σ → α → ℕ} (potential : σ → ℕ)
    (hstep : ∀ s op, spent s op + potential (step s op) ≤ potential s + earned s op) (s : σ)
    (ops : List α) :
    sumAlong step spent s ops + potential (run step s ops) ≤
      potential s + sumAlong step earned s ops := by
  induction ops generalizing s with
  | nil => exact Nat.le_of_eq (Nat.zero_add _)
  | cons op ops ih =>
    have hrest := ih (step s op)
    have hfirst := hstep s op
    rw [sumAlong, sumAlong, run_cons]
    omega

theorem sumAlong_eq_zero (inv : σ → Prop) (ops : List α)
    (hstep : ∀ s op, inv s → quantity s op = 0 ∧ inv (step s op)) (hinit : inv s) :
    sumAlong step quantity s ops = 0 := by
  induction ops generalizing s with
  | nil => rfl
  | cons op ops ih =>
    obtain ⟨hzero, hafter⟩ := hstep s op hinit
    rw [sumAlong, hzero, ih hafter]

theorem sumAlong_le_one (spent : σ → Prop) (ops : List α) (hle : ∀ s op, quantity s op ≤ 1)
    (hspend : ∀ s op, quantity s op ≠ 0 → spent (step s op))
    (hspent : ∀ s op, spent s → quantity s op = 0 ∧ spent (step s op)) :
    sumAlong step quantity s ops ≤ 1 := by
  induction ops generalizing s with
  | nil => exact Nat.zero_le 1
  | cons op ops ih =>
    rw [sumAlong]
    by_cases hcounts : quantity s op = 0
    · rw [hcounts, Nat.zero_add]
      exact ih
    · rw [sumAlong_eq_zero spent ops hspent (hspend s op hcounts)]
      exact hle s op

end Totals

end Substrate
