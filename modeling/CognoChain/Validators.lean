import CognoChain.Model.ValidatorSet

/-!
# What the sessions are handed

The set stays free of duplicates and within its bound whatever happens to it.
A removal by the committee never takes it below the floor.  The drain of
reported validators has no floor: it is the one step after which the set can be
smaller.
-/

namespace CognoChain

open Substrate

namespace ValidatorStore

variable {cfg : ValidatorConfig} {V : Type}

theorem initializeValidators_items {start : ValidatorStore cfg V} {initial : List V}
    (h : ({} : ValidatorStore cfg V).initializeValidators initial = some start) :
    start.validators.items = initial := by
  unfold initializeValidators at h
  split_ifs at h with hempty hfresh
  · rw [← Option.some.inj h, List.isEmpty_iff.mp hempty]
    rfl
  · obtain ⟨bounded, hbounded, rfl⟩ := Option.map_eq_some_iff.mp h
    exact BoundedVec.ofList_eq_some hbounded

@[simp] theorem reportOffence_validators (s : ValidatorStore cfg V) (offenders : List (V × V)) :
    (s.reportOffence offenders).validators = s.validators :=
  foldl_invariant _ (fun after : ValidatorStore cfg V => after.validators = s.validators)
    (fun _ _ hsame => hsame) rfl

variable [DecidableEq V] {after s : ValidatorStore cfg V} {id : V} {origin : CommitteeOrigin}

theorem addValidator_items {gates : SeatGates V} (h : s.addValidator origin gates id = .ok after) :
    id ∉ s.validators.items ∧ after.validators.items = s.validators.items ++ [id] := by
  unfold addValidator doAddValidator at h
  split_ifs at h with _ _ _ hmem
  cases hpush : s.validators.tryPush id with
  | none =>
    rw [hpush] at h
    cases h
  | some validators =>
    rw [hpush] at h
    cases h
    exact ⟨fun hin => hmem (List.contains_iff_mem.mpr hin), BoundedVec.tryPush_eq_some hpush⟩

theorem removeValidator_items (h : s.removeValidator origin id = .ok after) :
    cfg.minAuthorities ≤ s.validators.items.length - 1 ∧
      after.validators = s.validators.retain (· ≠ id) := by
  unfold removeValidator doRemoveValidator at h
  split_ifs at h with _ hfloor
  cases h
  exact ⟨Nat.not_lt.mp hfloor, rfl⟩

theorem removeOfflineValidators_items (s : ValidatorStore cfg V) :
    s.removeOfflineValidators.validators.items =
      s.validators.items.filter (fun v => !s.offlineValidators.items.contains v) := by
  unfold removeOfflineValidators
  split_ifs with hempty
  · rw [List.isEmpty_iff.mp hempty]
    exact (List.filter_eq_self.mpr fun _ _ => rfl).symm
  · rfl

theorem step_nodup (s : ValidatorStore cfg V) (op : ValidatorOp V)
    (hnodup : s.validators.items.Nodup) : (s.step op).validators.items.Nodup := by
  cases op with
  | addValidator origin gates id =>
    rw [step]
    cases hadd : s.addValidator origin gates id with
    | error e => exact hnodup
    | ok after =>
      obtain ⟨hnew, hitems⟩ := addValidator_items hadd
      rw [Except.toOption, Option.getD_some, hitems, ← List.concat_eq_append]
      exact hnodup.concat hnew
  | removeValidator origin id =>
    rw [step]
    cases hremove : s.removeValidator origin id with
    | error e => exact hnodup
    | ok after =>
      rw [Except.toOption, Option.getD_some, (removeValidator_items hremove).2]
      exact hnodup.filter _
  | reportOffence offenders =>
    rw [step, reportOffence_validators]
    exact hnodup
  | newSession =>
    rw [step, newSession, removeOfflineValidators_items]
    exact hnodup.filter _

/-- A rotation keeps the floor when the set it publishes does. -/
def KeepsFloor (s : ValidatorStore cfg V) (op : ValidatorOp V) : Prop :=
  op = .newSession → cfg.minAuthorities ≤ s.removeOfflineValidators.validators.items.length

theorem step_floor (s : ValidatorStore cfg V) (op : ValidatorOp V) (hkeeps : s.KeepsFloor op)
    (hs : s.validators.items.Nodup ∧ cfg.minAuthorities ≤ s.validators.items.length) :
    (s.step op).validators.items.Nodup ∧
      cfg.minAuthorities ≤ (s.step op).validators.items.length := by
  obtain ⟨hnodup, hfloor⟩ := hs
  refine ⟨s.step_nodup op hnodup, ?_⟩
  cases op with
  | addValidator origin gates id =>
    rw [step]
    cases hadd : s.addValidator origin gates id with
    | error e => exact hfloor
    | ok after =>
      rw [Except.toOption, Option.getD_some, (addValidator_items hadd).2, List.length_append]
      exact Nat.le_add_right_of_le hfloor
  | removeValidator origin id =>
    rw [step]
    cases hremove : s.removeValidator origin id with
    | error e => exact hfloor
    | ok after =>
      obtain ⟨htarget, hitems⟩ := removeValidator_items hremove
      rw [Except.toOption, Option.getD_some, hitems]
      exact htarget.trans (BoundedVec.length_le_retain_ne hnodup id)
  | reportOffence offenders =>
    rw [step, reportOffence_validators]
    exact hfloor
  | newSession => exact hkeeps rfl

end ValidatorStore

end CognoChain
