import CognoChain.Ledger.Agreement
import CognoChain.Ledger.Frontier

/-!
# A freeze is a pause

While enforcement is off, blocks still observe Cardano and move the observer's
bookkeeping: the frontier, the backlog, the scan cursor and the stall clock.
They apply nothing and leave every basis, so the difference to a snapshot is
the same after the freeze as before it.  Enforced again, the snapshot moves
every axis as it would have without the frozen blocks, with the window where
the freeze has left it.  The frontier is the exception: a snapshot that has
fallen behind it is declined.
-/

namespace CognoChain

open Substrate CognoChain.Runtime

def Op.observes : Op → Bool
  | .nextBlock _ | .inherent _ => true
  | _ => false

/-- The frozen chain `t` holds what `s` held. -/
structure Paused (s t : Runtime) : Prop where
  axes : SameAxes s t
  capacity : t.capacity = s.capacity
  frozen : t.observer.enforceWeight = false

namespace Runtime

variable {cfg : Config} {s t : Runtime}

def atCursor (s : Runtime) (cursor : ℕ) : Runtime :=
  { s with observer := { s.observer with scanCursor := cursor } }

theorem WritesFrontier.capacity (h : s.WritesFrontier t) : t.capacity = s.capacity := by
  obtain ⟨reference, enforce, pending, appliedAt, stalled, cursor, sweepAt, events, rfl⟩ := h
  rfl

theorem nextBlock_capacity (unixSecs : ℕ) : (s.nextBlock cfg unixSecs).capacity = s.capacity :=
  observerOnInitialize_writes.capacity

theorem observe_frozen {args : ObserveArgs} (hfrozen : s.observer.enforceWeight = false) :
    Paused s (s.observe cfg args) := by
  refine ⟨observe_sameAxes (Or.inr hfrozen), ?_, ?_⟩
  · cases haccepts : s.accepts cfg args.reference with
    | false => rw [observe_rejected haccepts]
    | true =>
      have hwrites := observe_accepted haccepts
      rw [applyChanges_frozen args hfrozen] at hwrites
      exact hwrites.capacity
  · cases haccepts : s.accepts cfg args.reference with
    | false => rw [observe_rejected haccepts, hfrozen]
    | true => rw [observe_enforceWeight haccepts, hfrozen]

end Runtime

namespace Paused

variable {cfg : Config} {s t : Runtime}

theorem step (h : Paused s t) {op : Op} (hop : op.observes = true) :
    Paused s (t.step cfg op) := by
  cases op with
  | nextBlock unixSecs =>
    have hquiet : (Op.nextBlock unixSecs).quiet = true := rfl
    obtain ⟨haxes, henforce, -⟩ := step_quiet cfg t hquiet
    exact ⟨h.axes.trans haxes, (Runtime.nextBlock_capacity unixSecs).trans h.capacity,
      henforce.trans h.frozen⟩
  | inherent obs =>
    have hobserve : Paused t (t.observe cfg (t.deriveCall cfg obs)) :=
      Runtime.observe_frozen h.frozen
    exact ⟨h.axes.trans hobserve.axes, hobserve.capacity.trans h.capacity, hobserve.frozen⟩
  | call | extrinsic => cases hop

theorem run {ops : List Op} (hops : ∀ op ∈ ops, op.observes = true)
    (hfrozen : s.observer.enforceWeight = false) : Paused s (s.run cfg ops) :=
  (Along.of_forall hops).invariant (Paused s) (fun _ _ hop h => h.step hop)
    ⟨⟨rfl, rfl, rfl, rfl, rfl⟩, rfl, hfrozen⟩

end Paused

theorem SameAxes.deriveCall {cfg : Config} {s t : Runtime} (h : SameAxes s t)
    (hcursor : t.observer.scanCursor = s.observer.scanCursor) (obs : CardanoObservation) :
    t.deriveCall cfg obs = s.deriveCall cfg obs :=
  deriveCall_congr (congrArg DeltaLedger.basis h.vault)
    (congrArg DeltaLedger.basis h.stake) (congrArg RoleLedger.basis h.roles) hcursor h.gate
    h.credIndex obs

theorem SameAxes.observe {cfg : Config} {s t : Runtime} (h : SameAxes s t)
    (henforce : s.observer.enforceWeight = true) (henforce' : t.observer.enforceWeight = true)
    {args : ObserveArgs}
    (hverdict : t.accepts cfg args.reference = s.accepts cfg args.reference) :
    SameAxes (s.observe cfg args) (t.observe cfg args) := by
  cases haccepts : s.accepts cfg args.reference with
  | false =>
    rw [haccepts] at hverdict
    rw [Runtime.observe_rejected haccepts, Runtime.observe_rejected hverdict]
    exact h
  | true =>
    rw [haccepts] at hverdict
    have hs := observe_axes haccepts henforce
    have ht := observe_axes hverdict henforce'
    refine ⟨?_, ?_, ?_, ?_, ?_⟩
    · rw [ht.vault, hs.vault, resolveBeacon_congr h.gate, h.vault]
    · rw [ht.stake, hs.stake, resolveStake_congr h.gate, h.stake]
    · rw [ht.roles, hs.roles, h.roles]
    · rw [ht.gate, hs.gate, h.gate]
    · rw [ht.credIndex, hs.credIndex, h.credIndex]

/-- Frozen blocks change no weight, voting power, badge, capacity row or basis.
A snapshot on which the chain gives the same verdict after them as before is
derived to the same call and moves every axis alike, at the cursor the freeze
has left. -/
theorem freeze_is_pause (cfg : Config) (s : Runtime) (hfrozen : s.observer.enforceWeight = false)
    (ops : List Op) (hops : ∀ op ∈ ops, op.observes = true) :
    (SameAxes s (s.run cfg ops) ∧ (s.run cfg ops).capacity = s.capacity) ∧
    ∀ obs : CardanoObservation,
      (s.run cfg ops).accepts cfg obs.reference = s.accepts cfg obs.reference →
      let paused := (s.run cfg ops).setEnforcement true
      let direct := (s.atCursor (s.run cfg ops).observer.scanCursor).setEnforcement true
      paused.deriveCall cfg obs = direct.deriveCall cfg obs ∧
        SameAxes (direct.observeSnapshot cfg obs) (paused.observeSnapshot cfg obs) := by
  have hpaused : Paused s (s.run cfg ops) := .run hops hfrozen
  refine ⟨⟨hpaused.axes, hpaused.capacity⟩, fun obs hverdict => ?_⟩
  dsimp only
  have haxes : SameAxes ((s.atCursor (s.run cfg ops).observer.scanCursor).setEnforcement true)
      ((s.run cfg ops).setEnforcement true) :=
    ⟨hpaused.axes.vault, hpaused.axes.stake, hpaused.axes.roles, hpaused.axes.gate,
      hpaused.axes.credIndex⟩
  have hcall : ((s.run cfg ops).setEnforcement true).deriveCall cfg obs =
      ((s.atCursor (s.run cfg ops).observer.scanCursor).setEnforcement true).deriveCall cfg obs :=
    haxes.deriveCall rfl obs
  refine ⟨hcall, ?_⟩
  rw [observeSnapshot, observeSnapshot, hcall]
  exact haxes.observe rfl rfl hverdict

def emptyBlock (slot : ℕ) : List Op :=
  [.nextBlock 6, .inherent ⟨⟨slot, 0⟩, 0, [], [], []⟩]

def thawed (slot : ℕ) : Runtime :=
  ((oneBound false).run Config.toy (emptyBlock slot)).setEnforcement true

def neverFrozen (slot : ℕ) : Runtime :=
  ((oneBound false).atCursor
    ((oneBound false).run Config.toy (emptyBlock slot)).observer.scanCursor).setEnforcement true

theorem freeze_is_pause_emptyBlock :
    ((thawed 5).observeSnapshot Config.toy oneVault).weightOf ⟨1⟩ = 200000000 := by
  obtain ⟨-, hsame⟩ := (freeze_is_pause Config.toy (oneBound false) (by decide +kernel)
    (emptyBlock 5) (by decide)).2 oneVault (by decide +kernel)
  have hweights : ((thawed 5).observeSnapshot Config.toy oneVault).talkStake.allowedStake =
      ((neverFrozen 5).observeSnapshot Config.toy oneVault).talkStake.allowedStake :=
    congrArg DeltaLedger.amounts hsame.vault
  rw [weightOf, hweights]
  decide +kernel

/-- The frozen block has moved the frontier past the snapshot, which is then
declined. -/
theorem frozenFrontier_declines :
    (oneBound false).observer.enforceWeight = false ∧
      ((thawed 20).observeSnapshot Config.toy oneVault).weightOf ⟨1⟩ = 0 ∧
      ((neverFrozen 20).observeSnapshot Config.toy oneVault).weightOf ⟨1⟩ = 200000000 := by
  decide +kernel

end CognoChain
