import CognoChain.Model.Dispatch

/-!
# Admission of unsigned transactions

The binds and the role claim carry their authorisation in a proof and are
submitted unsigned.  Before such a call is gossiped or included, the pallet it
belongs to verifies the proof and repeats the checks of the call on storage.
-/

namespace CognoChain

open Substrate

inductive UnsignedRejection
  | badProof
  | stale
  | custom (code : ℕ)
  | call
deriving DecidableEq, Repr

/-- What a transaction stands for in the pool, so that repeats are dropped. -/
inductive ProvidesTag
  | cognoGateBindIdentity (identity : IdentityHash)
  | cognoGateBindStake (stakeCred : StakeCredential)
  | cardanoRolesClaim (role : RoleKind) (credential : RoleCredential)
deriving DecidableEq, Repr

structure ValidTransaction where
  priority : ℕ
  provides : ProvidesTag
  longevity : ℕ
  propagate : Bool
deriving DecidableEq, Repr

abbrev TransactionValidity := Except UnsignedRejection ValidTransaction

def bindTxPriority : ℕ := 100
def bindTxLongevity : ℕ := 32
def claimTxPriority : ℕ := 100
def claimTxLongevity : ℕ := 32

namespace Runtime

def validateGate (cfg : Config) (s : Runtime) : GateCall → TransactionValidity
  | .linkIdentitySigned proof =>
      match cfg.verifyIdentityProof proof with
      | .error _ => .error .badProof
      | .ok (account, identity) =>
          if s.gate.tombstoned.contains identity || s.gate.accountOf.contains identity ||
              s.gate.pkhOf.contains account then .error .stale
          else .ok ⟨bindTxPriority, .cognoGateBindIdentity identity, bindTxLongevity, true⟩
  | .linkStakeSigned proof =>
      match cfg.verifyStakeProof proof with
      | .error _ => .error .badProof
      | .ok (account, stakeCred, nonce) =>
          if !s.gate.pkhOf.contains account then .error (.custom 1)
          else if s.gate.tombstonedStakeCred.contains stakeCred ||
              s.gate.stakeCredOf.contains account ||
              s.gate.accountOfStakeCred.contains stakeCred ||
              decide (s.gate.spentStakeNonce.get account = some nonce) then .error .stale
          else .ok ⟨bindTxPriority, .cognoGateBindStake stakeCred, bindTxLongevity, true⟩
  | _ => .error .call

def validateRoles (cfg : Config) (s : Runtime) : RolesCall → TransactionValidity
  | .claimRoleSigned proof =>
      match cfg.verifyRoleProof proof with
      | .error _ => .error .badProof
      | .ok (account, role, credential, nonce) =>
          if !s.isAllowed account then .error (.custom 1)
          else if s.roles.tombstonedRoleCred.contains (role, credential) ||
              s.roles.roleClaimOf.contains (account, role) ||
              s.roles.roleCredIndex.contains (role, credential) ||
              decide (s.roles.spentRoleNonce.get (account, role) = some nonce) then
            .error .stale
          else .ok ⟨claimTxPriority, .cardanoRolesClaim role credential, claimTxLongevity, true⟩
  | _ => .error .call

/-- The runtime asks the pallet a call belongs to; the others take no unsigned
transactions. -/
def validateUnsigned (cfg : Config) (s : Runtime) : RuntimeCall → TransactionValidity
  | .gate call => s.validateGate cfg call
  | .roles call => s.validateRoles cfg call
  | _ => .error .call

end Runtime

end CognoChain
