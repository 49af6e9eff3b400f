import CognoChain.Ledger.Soundness
import CognoChain.Ledger.Convergence

/-!
# What the recorded reference says

The observer records a reference on a block that carried its whole change set.
Where weights are enforced the vault axis then holds exactly what the snapshot
asks for.  A frozen block records the reference too and writes nothing, so
there the reference says only what was observed.
-/

namespace CognoChain

open Substrate Config

/-- Vault weights are those of `rows`, and nobody else weighs anything. -/
structure WeightsFollow (s : Runtime) (rows : StorageMap BeaconName (AccountId × ℕ)) :
    Prop where
  backed : ∀ beacon account weight, rows.get beacon = some (account, weight) →
    s.weightOf account = weight
  unbacked : ∀ account, (∀ beacon weight, rows.get beacon ≠ some (account, weight)) →
    s.weightOf account = 0

theorem Axes.VaultSound.weightsFollow {s : Runtime} (hsound : s.axes.VaultSound) :
    WeightsFollow s s.observer.lastObserved where
  backed _ _ _ hrow := hsound.ledger.backed hrow
  unbacked _ hnone := hsound.ledger.unbacked hnone

namespace Runtime

variable {cfg : Config} {s : Runtime} {obs : CardanoObservation}

def recordsReference (cfg : Config) (s : Runtime) (obs : CardanoObservation) : Bool :=
  s.accepts cfg obs.reference && (s.deriveCall cfg obs).pending == 0

theorem recordsReference_iff :
    s.recordsReference cfg obs = true ↔
      s.accepts cfg obs.reference = true ∧ (s.deriveCall cfg obs).pending = 0 := by
  simp [recordsReference]

theorem observeSnapshot_lastReference :
    (s.observeSnapshot cfg obs).observer.lastReference =
      if s.recordsReference cfg obs then some obs.reference
      else s.observer.lastReference := by
  have hreference : (s.deriveCall cfg obs).reference = obs.reference := rfl
  unfold observeSnapshot
  cases haccepts : s.accepts cfg obs.reference with
  | false =>
    rw [observe_rejected haccepts]
    simp [recordsReference, haccepts]
  | true =>
    have hcall : s.accepts cfg (s.deriveCall cfg obs).reference = true := haccepts
    obtain ⟨_, _, _, _, _, hobserver⟩ := observe_observer hcall
    rw [hobserver]
    simp [recordsReference, haccepts, hreference]

theorem vaultDelta_length_le (hpending : (s.deriveCall cfg obs).pending = 0) :
    (s.vaultDelta cfg obs).length ≤ cfg.maxChangesPerBlock := by
  simp only [deriveCall] at hpending
  omega

theorem lastObserved_of_enforcing (hrecords : s.recordsReference cfg obs = true)
    (henforce : s.observer.enforceWeight = true) :
    (s.observeSnapshot cfg obs).observer.lastObserved = s.vaultDesired cfg obs := by
  obtain ⟨haccepts, hpending⟩ := recordsReference_iff.mp hrecords
  have haxes : AppliesAxes cfg s (s.deriveCall cfg obs) (s.observeSnapshot cfg obs) :=
    observe_axes haccepts henforce
  have hleft : (s.observeSnapshot cfg obs).vaultDelta cfg obs = [] := by
    rw [vaultDelta_eq_drop haxes.gate haxes.vault]
    exact List.drop_of_length_le (vaultDelta_length_le hpending)
  have hdesired : (s.observeSnapshot cfg obs).vaultDesired cfg obs = s.vaultDesired cfg obs := by
    simp only [vaultDesired, resolveBeacon_congr haxes.gate]
  rw [← hdesired]
  exact pagedDelta_eq_nil_iff.mp hleft

theorem lastObserved_of_frozen (hfrozen : s.observer.enforceWeight = false) :
    (s.observeSnapshot cfg obs).observer.lastObserved = s.observer.lastObserved :=
  congrArg DeltaLedger.basis (observe_sameAxes (Or.inr hfrozen)).vault

theorem observeSnapshot_vaultSound (hsound : s.axes.VaultSound) :
    (s.observeSnapshot cfg obs).axes.VaultSound := by
  have hmoves : AxesMoves cfg s.axes (s.run cfg [.inherent obs]).axes :=
    run_axes (by simp [Op.derived])
  exact reach_invariant Axes.VaultSound (fun _ _ hmove hinv => hinv.move hmove) hmoves hsound

end Runtime

/-- A block that records its reference leaves the vault basis as the snapshot
asks exactly when weights are enforced or no vault change was due.  Weights
that followed the basis before then follow the snapshot. -/
theorem recordedReference_applied_iff (cfg : Config) (s : Runtime) (obs : CardanoObservation)
    (hrecords : s.recordsReference cfg obs = true) :
    (s.observeSnapshot cfg obs).observer.lastReference = some obs.reference ∧
    ((s.observeSnapshot cfg obs).observer.lastObserved = s.vaultDesired cfg obs ↔
      s.observer.enforceWeight = true ∨ s.vaultDelta cfg obs = []) ∧
    (s.axes.VaultSound →
      (s.observer.enforceWeight = true ∨ s.vaultDelta cfg obs = []) →
      WeightsFollow (s.observeSnapshot cfg obs) (s.vaultDesired cfg obs)) := by
  have happlied : (s.observeSnapshot cfg obs).observer.lastObserved = s.vaultDesired cfg obs ↔
      s.observer.enforceWeight = true ∨ s.vaultDelta cfg obs = [] := by
    cases henforce : s.observer.enforceWeight with
    | true => simp [Runtime.lastObserved_of_enforcing hrecords henforce]
    | false =>
        rw [Runtime.lastObserved_of_frozen henforce, ← pagedDelta_eq_nil_iff]
        simp [Runtime.vaultDelta]
  refine ⟨?_, happlied, ?_⟩
  · rw [Runtime.observeSnapshot_lastReference, if_pos hrecords]
  · intro hsound hdue
    rw [← happlied.mpr hdue]
    exact (Runtime.observeSnapshot_vaultSound hsound).weightsFollow

def oneBound (enforce : Bool) : Runtime :=
  Runtime.genesis.run toy
    [.nextBlock 0,
      .call .none (.gate (.linkIdentitySigned ⟨[1, 5], []⟩)),
      .call .authority (.observer (.setEnforcement enforce))]

def oneVault : CardanoObservation := ⟨⟨10, 0⟩, 0, [(⟨5⟩, 200000000)], [], []⟩

/-- A frozen block records the reference of a lock it has not applied. -/
theorem frozenBlock_recordsReference :
    (oneBound false).observer.lastReference = none ∧
      ((oneBound false).observeSnapshot toy oneVault).observer.lastReference =
        some oneVault.reference ∧
      ((oneBound false).vaultDesired toy oneVault).entries = [(⟨5⟩, ⟨1⟩, 200000000)] ∧
      ((oneBound false).observeSnapshot toy oneVault).observer.lastObserved.entries = [] ∧
      ((oneBound false).observeSnapshot toy oneVault).weightOf ⟨1⟩ = 0 := by
  decide +kernel

theorem recordedReference_applied_iff_oneBound :
    ((oneBound true).observeSnapshot toy oneVault).observer.lastObserved =
        (oneBound true).vaultDesired toy oneVault ∧
      ((oneBound true).observeSnapshot toy oneVault).weightOf ⟨1⟩ = 200000000 := by
  have henforce : (oneBound true).observer.enforceWeight = true := by decide +kernel
  obtain ⟨-, happlied, hweights⟩ :=
    recordedReference_applied_iff toy (oneBound true) oneVault (by decide +kernel)
  have hmoves : AxesMoves toy Runtime.genesis.axes (oneBound true).axes :=
    Runtime.run_axes (by decide)
  have hsound : (oneBound true).axes.VaultSound :=
    reach_invariant Axes.VaultSound (fun _ _ hmove hinv => hinv.move hmove) hmoves
      (.initial rfl rfl rfl)
  refine ⟨happlied.mpr (Or.inl henforce), ?_⟩
  exact (hweights hsound (Or.inl henforce)).backed ⟨5⟩ ⟨1⟩ 200000000 (by decide +kernel)

end CognoChain
