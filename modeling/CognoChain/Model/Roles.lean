import CognoChain.Model.Capacity
import CognoChain.Substrate.Run

/-!
# Role claims and observed badges

The cardano-roles pallet: the 1:1 claim maps with their tombstones, and the
observed badge ledger with the counter that records each change to it.
-/

namespace CognoChain

open Substrate

inductive RolesError
  | proof (e : ProofError)
  | notPaymentBound
  | accountAlreadyClaimedRole
  | roleCredAlreadyClaimed
  | roleCredTombstoned
  | notClaimed
  | roleProofReplayed
deriving DecidableEq, Repr

def maxObservedRolesPerAccount : ℕ := 32

def nonSpoReserve : ℕ := 4

/-- One pass of the bounding loop over the observed roles.  The first pass
takes dRep and committee roles into a reserved prefix, the second takes pools;
both stop at the cap of the stored set. -/
def boundPass (passSpo : Bool) (bounded : List ObservedRole) :
    List RoleTuple → List ObservedRole
  | [] => bounded
  | (kindIx, id, weight) :: roles =>
      let kind : Option RoleKind :=
        match kindIx, passSpo with
        | 0, true => some .spo
        | 1, false => some .dRep
        | 2, false => some .committee
        | _, _ => none
      match kind with
      | none => boundPass passSpo bounded roles
      | some kind =>
          if !passSpo && nonSpoReserve ≤ bounded.length then
            boundPass passSpo bounded roles
          else if bounded.length < maxObservedRolesPerAccount then
            boundPass passSpo (bounded ++ [⟨kind, id, weight⟩]) roles
          else bounded

def boundObservedRoles (roles : List RoleTuple) : List ObservedRole :=
  boundPass true (boundPass false [] roles) roles

def RoleStore.claimedCredentialsOf (r : RoleStore) (role : RoleKind)
    (accounts : List AccountId) : List RoleCredential :=
  StorageMap.sortedSet (accounts.filterMap (fun who => r.roleClaimOf.get (who, role)))

namespace Runtime

def observedRolesOf (s : Runtime) (who : AccountId) : List ObservedRole :=
  s.roles.observedRoles.getD who []

def applyRoles (s : Runtime) (who : AccountId) (roles : List ObservedRole) : Runtime :=
  if roles = s.observedRolesOf who then s
  else
    let store := { s.roles with
      observedRoles :=
        if roles = [] then s.roles.observedRoles.remove who
        else s.roles.observedRoles.insert who roles
      observedRolesSeq := satAdd u64Max s.roles.observedRolesSeq 1 }
    { s with roles := store }.deposit (.rolesUpdated who roles)

def setRoles (s : Runtime) (who : AccountId) (roles : List RoleTuple) : Runtime :=
  s.applyRoles who (boundObservedRoles roles)

def forgetRoleBasis (s : Runtime) (who : AccountId) : Runtime :=
  { s with observer := { s.observer with
      lastObservedRoles := s.observer.lastObservedRoles.remove who } }

def dropObservedBadges (s : Runtime) (who : AccountId) : Runtime :=
  let dropped :=
    if s.roles.observedRoles.contains who then
      { s with roles := { s.roles with
          observedRoles := s.roles.observedRoles.remove who
          observedRolesSeq := satAdd u64Max s.roles.observedRolesSeq 1 }
        }.deposit (.rolesUpdated who [])
    else s
  dropped.forgetRoleBasis who

def takeClaim (s : Runtime) (who : AccountId) (role : RoleKind) : Runtime :=
  match s.roles.roleClaimOf.get (who, role) with
  | none => s
  | some credential =>
      { s with roles := { s.roles with
          roleClaimOf := s.roles.roleClaimOf.remove (who, role)
          roleCredIndex := s.roles.roleCredIndex.remove (role, credential) } }

def purgeAccountRoles (s : Runtime) (who : AccountId) : Runtime :=
  ([.spo, .dRep, .committee].foldl (fun s role => s.takeClaim who role) s)
    |>.dropObservedBadges who

def doClaim (s : Runtime) (account : AccountId) (role : RoleKind)
    (credential : RoleCredential) (nonce : ℕ) : Except RolesError Runtime :=
  if !s.isAllowed account then .error .notPaymentBound
  else if s.roles.tombstonedRoleCred.contains (role, credential) then
    .error .roleCredTombstoned
  else if s.roles.roleClaimOf.contains (account, role) then
    .error .accountAlreadyClaimedRole
  else if s.roles.roleCredIndex.contains (role, credential) then
    .error .roleCredAlreadyClaimed
  else if s.roles.spentRoleNonce.get (account, role) = some nonce then
    .error .roleProofReplayed
  else
    .ok ({ s with roles := { s.roles with
        spentRoleNonce := s.roles.spentRoleNonce.insert (account, role) nonce
        roleClaimOf := s.roles.roleClaimOf.insert (account, role) credential
        roleCredIndex := s.roles.roleCredIndex.insert (role, credential) account }
      }.deposit (.roleClaimed account role credential))

def claimRoleSigned (cfg : Config) (s : Runtime) (proof : CoseProof) :
    Except RolesError Runtime :=
  match cfg.verifyRoleProof proof with
  | .error e => .error (.proof e)
  | .ok (account, role, credential, nonce) =>
      s.doClaim account role credential nonce

def unclaimRole (s : Runtime) (who : AccountId) (role : RoleKind) :
    Except RolesError Runtime :=
  if s.roles.roleClaimOf.contains (who, role) then
    .ok (((s.takeClaim who role).dropObservedBadges who).deposit
      (.roleUnclaimed who role))
  else .error .notClaimed

def tombstoneRoleCred (s : Runtime) (role : RoleKind)
    (credential : RoleCredential) : Runtime :=
  { s with roles := { s.roles with
      tombstonedRoleCred := s.roles.tombstonedRoleCred.insert (role, credential) () } }

def doRevokeRole (s : Runtime) (account : AccountId) (role : RoleKind) :
    Except RolesError Runtime :=
  match s.roles.roleClaimOf.get (account, role) with
  | none => .error .notClaimed
  | some credential =>
      .ok ((((s.takeClaim account role).tombstoneRoleCred role credential)
        |>.dropObservedBadges account).deposit (.roleRevoked account role))

def revokeRoleMany (s : Runtime) (targets : List (AccountId × RoleKind)) : Runtime :=
  let (after, applied) :=
    applyAll u32Max (fun s target => s.doRevokeRole target.1 target.2) s targets
  after.deposit (.rolesRevokedMany applied (targets.length - applied))

end Runtime

end CognoChain
