import CognoChain.Model.Dispatch

/-!
# The observation inherent

The author of a block builds the observe call from its own Cardano snapshot;
every importer derives the call again from its snapshot and compares.  A block
that enacts a runtime upgrade carries no observation, which the author reads
off a marker and the importer off the version the parent state records.
-/

namespace CognoChain

open Substrate

inductive InherentError
  | cannotVerify
  | mismatch
  | computeDiverged
deriving DecidableEq, Repr

structure RuntimeVersion where
  specName : ℕ
  specVersion : ℕ
deriving DecidableEq, Repr

def RuntimeVersion.wasUpgraded (last current : RuntimeVersion) : Bool :=
  decide (last.specVersion < current.specVersion) || decide (last.specName ≠ current.specName)

/-- What a state records of runtime upgrades, next to the version of the code
that reads it. -/
structure Upgrades where
  version : RuntimeVersion
  lastRuntimeUpgrade : Option RuntimeVersion
  upgradeEnactedAt : Option ℕ
deriving DecidableEq, Repr

def Upgrades.enacting (upgrades : Upgrades) : Bool :=
  match upgrades.lastRuntimeUpgrade with
  | some last => last.wasUpgraded upgrades.version
  | none => true

namespace Runtime

/-- The author's side.  The marker holds the number of the parent of the block
that enacted the upgrade. -/
def createInherent (cfg : Config) (s : Runtime) (upgrades : Upgrades)
    (data : Option CardanoObservation) : Option ObserveArgs :=
  match upgrades.upgradeEnactedAt with
  | some enactedAt =>
      if s.blockNumber ≤ satAdd u32Max enactedAt 1 then none
      else data.map (s.deriveCall cfg)
  | none => data.map (s.deriveCall cfg)

def checkInherent (cfg : Config) (s : Runtime) (upgrades : Upgrades) (call : ObserverCall)
    (data : Option CardanoObservation) : Except InherentError Unit :=
  match call with
  | .setEnforcement _ => .ok ()
  | .observe args =>
      if upgrades.enacting then .error .mismatch
      else
        match data with
        | none => .error .cannotVerify
        | some localObs =>
            let expected := s.deriveCall cfg localObs
            if args.reference = expected.reference ∧ args.changes = expected.changes ∧
                args.stakeChanges = expected.stakeChanges ∧
                args.roleChanges = expected.roleChanges ∧ args.pending = expected.pending then
              .ok ()
            else if args.reference = localObs.reference ∧
                args.inputsCommitment = localObs.inputsCommitment ∧
                args.changes ≠ expected.changes then
              .error .computeDiverged
            else .error .mismatch

end Runtime

end CognoChain
