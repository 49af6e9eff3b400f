import CognoChain.Model.Gate
import CognoChain.Substrate.DeltaLedger

/-!
# The Cardano observer

Deriving a bounded delta from a full Cardano snapshot, and applying such a
delta.  The derivation compares the snapshot with the rows stored when the
last deltas were applied, one basis map per axis.  The lengths that the
derivation adds and casts are lengths of lists in memory, far below the width
they are counted in.
-/

namespace CognoChain

open Substrate

namespace Runtime

/-! ## Resolvers -/

def resolveBeacon (s : Runtime) (beacon : BeaconName) : Option AccountId :=
  s.gate.accountOf.get beacon

def resolveStake (s : Runtime) (cred : StakeCredential) : Option AccountId :=
  s.gate.accountOfStakeCred.get cred

def resolveRole (s : Runtime) (source : RoleSource) (cred : RoleCredential) :
    Option AccountId :=
  match source with
  | .spoCalidus => s.roles.roleCredIndex.get (.spo, cred)
  | .spoOwner => s.gate.accountOfStakeCred.get cred
  | .dRep => s.roles.roleCredIndex.get (.dRep, cred)
  | .committee => s.roles.roleCredIndex.get (.committee, cred)

/-! ## The scan window -/

def scanWindowAccounts (cfg : Config) (s : Runtime) : List AccountId :=
  s.gate.scanWindow s.observer.scanCursor cfg.maxScanned

/-- The credentials a node asks Cardano about, source by source: owned pools
are found through the stake credential. -/
def scannedCredentials (s : Runtime) (accounts : List AccountId) :
    RoleSource → List RoleCredential
  | .spoCalidus => s.roles.claimedCredentialsOf .spo accounts
  | .spoOwner => s.gate.stakeCredentialsOf accounts
  | .dRep => s.roles.claimedCredentialsOf .dRep accounts
  | .committee => s.roles.claimedCredentialsOf .committee accounts

end Runtime

/-! ## Deriving the delta -/

def roleChangeBefore (a b : RoleChange) : Prop :=
  StorageKey.enc a.who ≤ StorageKey.enc b.who

instance : DecidableRel roleChangeBefore :=
  fun _ _ => inferInstanceAs (Decidable (_ ≤ _))

def flooredWeight (cfg : Config) (lovelace : ℕ) : ℕ :=
  if cfg.minLock ≤ lovelace then lovelace else 0

namespace Runtime

def clearedByAbsence (cfg : Config) (s : Runtime) (who : AccountId) : Bool :=
  s.gate.coverage s.observer.scanCursor cfg.maxScanned who ≠ .deferred

/-- The rows an axis should hold, keyed as the snapshot keys them.  A later
entry for a key replaces an earlier one. -/
def desiredRows {K : Type} [StorageKey K] (resolve : K → Option AccountId)
    (value : ℕ → ℕ) (bound : ℕ) (entries : List (K × ℕ)) :
    StorageMap K (AccountId × ℕ) :=
  entries.foldl (fun desired entry =>
    match resolve entry.1 with
    | none => desired
    | some account =>
        if bound < value entry.2 then desired
        else desired.insert entry.1 (account, value entry.2)) ∅

def vaultDesired (cfg : Config) (s : Runtime) (obs : CardanoObservation) :
    StorageMap BeaconName (AccountId × ℕ) :=
  desiredRows s.resolveBeacon (flooredWeight cfg) cfg.maxStakeWeight obs.entries

def vaultDelta (cfg : Config) (s : Runtime) (obs : CardanoObservation) :
    List VaultChange :=
  pagedDelta (s.vaultDesired cfg obs) s.observer.lastObserved (fun _ => true)

def stakeDesired (cfg : Config) (s : Runtime) (obs : CardanoObservation) :
    StorageMap StakeCredential (AccountId × ℕ) :=
  desiredRows s.resolveStake id cfg.maxVotingPower obs.stakeEntries

def stakeDelta (cfg : Config) (s : Runtime) (obs : CardanoObservation) :
    List StakeChange :=
  pagedDelta (s.stakeDesired cfg obs) s.observer.lastObservedStake (s.clearedByAbsence cfg)

def addRole (set : List RoleTuple) (role : RoleTuple) : List RoleTuple :=
  if set.any (fun r => r.1 = role.1 && r.2.1 = role.2.1) then set else set ++ [role]

def roleDesired (s : Runtime) (obs : CardanoObservation) :
    StorageMap AccountId (List RoleTuple) :=
  obs.roleEntries.foldl (fun desired entry =>
    match s.resolveRole entry.source entry.credential with
    | none => desired
    | some account =>
        desired.mutate account []
          (fun set => addRole set (entry.source.kindIndex, entry.id, entry.weight))) ∅

/-- One pass of the bounding loop of the observer.  Pools wait for the second
pass; the first takes at most the reserved number of other roles. -/
def boundedPass (cfg : Config) (spoPass : Bool) (out : List RoleTuple) :
    List RoleTuple → List RoleTuple
  | [] => out
  | role :: set =>
      if decide (role.1 = 0) ≠ spoPass then boundedPass cfg spoPass out set
      else if !spoPass && nonSpoReserve ≤ out.length then out
      else if out.length < cfg.maxRolesPerAccount then
        boundedPass cfg spoPass (out ++ [role]) set
      else out

def boundedRoles (cfg : Config) (set : List RoleTuple) : List RoleTuple :=
  if set.length ≤ cfg.maxRolesPerAccount then set
  else boundedPass cfg true (boundedPass cfg false [] set) set

def roleDelta (cfg : Config) (s : Runtime) (obs : CardanoObservation) :
    List RoleChange :=
  let desired := s.roleDesired obs
  let basis := s.observer.lastObservedRoles
  let credits := (desired.entries.filter
      (fun row => basis.get row.1 ≠ some (boundedRoles cfg row.2))).map
    (fun row => RoleChange.mk row.1 (some (boundedRoles cfg row.2)))
  let clears := (basis.entries.filter
      (fun row => !desired.contains row.1 && s.clearedByAbsence cfg row.1)).map
    (fun row => RoleChange.mk row.1 none)
  (credits ++ clears).insertionSort roleChangeBefore

def deriveCall (cfg : Config) (s : Runtime) (obs : CardanoObservation) : ObserveArgs :=
  let limit := cfg.maxChangesPerBlock
  let vault := s.vaultDelta cfg obs
  let stake := s.stakeDelta cfg obs
  let roles := s.roleDelta cfg obs
  { reference := obs.reference
    inputsCommitment := obs.inputsCommitment
    changes := vault.take limit
    stakeChanges := stake.take limit
    roleChanges := roles.take limit
    pending := (vault.length - limit) + (stake.length - limit) + (roles.length - limit) }

/-! ## Applying a delta -/

structure AxisCounts where
  credited : ℕ := 0
  cleared : ℕ := 0
  skipped : ℕ := 0
deriving DecidableEq, Repr

namespace AxisCounts

def credit (c : AxisCounts) : AxisCounts :=
  { c with credited := satAdd u32Max c.credited 1 }

def clear (c : AxisCounts) : AxisCounts :=
  { c with cleared := satAdd u32Max c.cleared 1 }

def skip (c : AxisCounts) : AxisCounts :=
  { c with skipped := satAdd u32Max c.skipped 1 }

end AxisCounts

def setVaultBasis (s : Runtime)
    (basis : StorageMap BeaconName (AccountId × ℕ)) : Runtime :=
  { s with observer := { s.observer with lastObserved := basis } }

def setStakeBasis (s : Runtime)
    (basis : StorageMap StakeCredential (AccountId × ℕ)) : Runtime :=
  { s with observer := { s.observer with lastObservedStake := basis } }

def setRoleBasis (s : Runtime)
    (basis : StorageMap AccountId (List RoleTuple)) : Runtime :=
  { s with observer := { s.observer with lastObservedRoles := basis } }

def applyVaultChange (cfg : Config) (enforce : Bool) (acc : Runtime × AxisCounts)
    (change : VaultChange) : Runtime × AxisCounts :=
  let (s, counts) := acc
  match change.2 with
  | some lovelace =>
      match s.resolveBeacon change.1 with
      | none => (s, counts.skip)
      | some account =>
          let weight := flooredWeight cfg lovelace
          if cfg.maxStakeWeight < weight then (s, counts.skip)
          else if enforce then
            let credited := s.applyObservedWeight cfg account weight
            (credited.setVaultBasis
              (credited.observer.lastObserved.insert change.1 (account, weight)),
              counts.credit)
          else (s, counts.credit)
  | none =>
      match s.observer.lastObserved.get change.1 with
      | none => (s, counts.skip)
      | some (account, _) =>
          if enforce then
            let cleared := s.applyObservedWeight cfg account 0
            (cleared.setVaultBasis (cleared.observer.lastObserved.remove change.1),
              counts.clear)
          else (s, counts.clear)

def applyStakeChange (cfg : Config) (enforce : Bool) (acc : Runtime × AxisCounts)
    (change : StakeChange) : Runtime × AxisCounts :=
  let (s, counts) := acc
  match change.2 with
  | some total =>
      match s.resolveStake change.1 with
      | none => (s, counts.skip)
      | some account =>
          if cfg.maxVotingPower < total then (s, counts.skip)
          else if enforce then
            let credited := s.setVotingPower account total
            (credited.setStakeBasis
              (credited.observer.lastObservedStake.insert change.1 (account, total)),
              counts.credit)
          else (s, counts.credit)
  | none =>
      match s.observer.lastObservedStake.get change.1 with
      | none => (s, counts.skip)
      | some (account, _) =>
          if enforce then
            let cleared := s.setVotingPower account 0
            (cleared.setStakeBasis (cleared.observer.lastObservedStake.remove change.1),
              counts.clear)
          else (s, counts.clear)

def applyRoleChange (enforce : Bool) (acc : Runtime × AxisCounts)
    (change : RoleChange) : Runtime × AxisCounts :=
  let (s, counts) := acc
  match change.roles with
  | some (role :: roles) =>
      if enforce then
        let credited := s.setRoles change.who (role :: roles)
        (credited.setRoleBasis
          (credited.observer.lastObservedRoles.insert change.who (role :: roles)),
          counts.credit)
      else (s, counts.credit)
  | _ =>
      if enforce then
        let cleared := s.setRoles change.who []
        (cleared.setRoleBasis (cleared.observer.lastObservedRoles.remove change.who),
          counts.clear)
      else (s, counts.clear)

/-- The freshest slot a reference may carry now, if a bound applies. -/
def maxReferenceForNow (cfg : Config) (s : Runtime) : Option ℕ :=
  if s.unixSecs < cfg.shelleyStartUnix then none
  else
    let cardanoSlot := cfg.shelleyStartSlot + (s.unixSecs - cfg.shelleyStartUnix)
    if u64Max < cardanoSlot then none
    else if cardanoSlot < cfg.stabilitySlots then none
    else if cardanoSlot - cfg.stabilitySlots < cfg.shelleyStartSlot then none
    else some (cardanoSlot - cfg.stabilitySlots)

/-- An observation is applied unless its reference is behind the last fully
applied one or inside the Cardano rollback window. -/
def accepts (cfg : Config) (s : Runtime) (reference : CardanoRef) : Bool :=
  (match s.observer.lastReference with
    | some last => decide (last.slot ≤ reference.slot)
    | none => true) &&
  (match s.maxReferenceForNow cfg with
    | some maxRef => decide (reference.slot ≤ maxRef)
    | none => true)

def settleFrontier (s : Runtime) (reference : CardanoRef) (pending : ℕ) : Runtime :=
  let recorded := { s with observer := { s.observer with pendingChanges := pending } }
  if pending = 0 then
    { recorded with observer := { recorded.observer with lastReference := some reference } }
  else recorded.deposit (.observationBacklogged reference.slot pending)

def advanceScan (cfg : Config) (s : Runtime) (args : ObserveArgs) : Runtime :=
  if args.stakeChanges.length < cfg.maxChangesPerBlock ∧
      args.roleChanges.length < cfg.maxChangesPerBlock then
    let cursor := s.observer.scanCursor
    let next := s.gate.nextScanCursor cursor cfg.maxScanned
    { s with observer := { s.observer with
        scanCursor := next
        lastSweepAt := if next ≤ cursor then s.blockNumber else s.observer.lastSweepAt } }
  else s

def stampApplied (s : Runtime) : Runtime :=
  let resumed :=
    if s.observer.stalled then
      { s with observer := { s.observer with stalled := false } }.deposit
        (.observationResumed (s.blockNumber - s.observer.lastAppliedAt))
    else s
  { resumed with observer := { resumed.observer with lastAppliedAt := s.blockNumber } }

def applyChanges (cfg : Config) (s : Runtime) (args : ObserveArgs) :
    Runtime × AxisCounts × AxisCounts × AxisCounts :=
  let enforce := s.observer.enforceWeight
  let vault := args.changes.foldl (applyVaultChange cfg enforce) (s, {})
  let stake := args.stakeChanges.foldl (applyStakeChange cfg enforce) (vault.1, {})
  let roles := args.roleChanges.foldl (applyRoleChange enforce) (stake.1, {})
  (roles.1, vault.2, stake.2, roles.2)

def observe (cfg : Config) (s : Runtime) (args : ObserveArgs) : Runtime :=
  if s.accepts cfg args.reference then
    let slot := args.reference.slot
    let enforced := s.observer.enforceWeight
    let (applied, vault, stake, roles) := s.applyChanges cfg args
    let settled := (applied.settleFrontier args.reference args.pending).advanceScan cfg args
    settled.stampApplied
      |>.deposit (.observationApplied slot vault.credited vault.cleared vault.skipped enforced)
      |>.deposit (.votingPowerObserved slot stake.credited stake.cleared stake.skipped enforced)
      |>.deposit (.rolesObserved slot roles.credited roles.cleared enforced)
  else s

def setEnforcement (s : Runtime) (enabled : Bool) : Runtime :=
  { s with observer := { s.observer with enforceWeight := enabled } }.deposit
    (.enforcementSet enabled)

/-- The observer's hook at the start of a block: raise the stall alarm once an
observation is overdue. -/
def observerOnInitialize (cfg : Config) (s : Runtime) : Runtime :=
  let last := s.observer.lastAppliedAt
  if last = 0 then
    { s with observer := { s.observer with lastAppliedAt := s.blockNumber } }
  else if s.blockNumber - last ≤ cfg.stallAfter then s
  else if s.observer.stalled then s
  else if s.observer.lastReference = none ∧ s.observer.pendingChanges = 0 then s
  else
    { s with observer := { s.observer with stalled := true } }.deposit
      (.observationStalled last (s.blockNumber - last))

end Runtime

end CognoChain
