import CognoChain.Model.Roles

/-!
# The identity gate

Binds of Cardano identities and stake credentials to accounts, their revokes,
and the scan rotation that orders bound accounts for the observer.
-/

namespace CognoChain

open Substrate

inductive GateError
  | accountAlreadyBound
  | pkhAlreadyBound
  | notBound
  | proof (e : ProofError)
  | identityTombstoned
  | notPaymentBound
  | accountAlreadyStakeBound
  | stakeCredAlreadyBound
  | stakeCredTombstoned
  | noStakeBind
  | stakeProofReplayed
deriving DecidableEq, Repr

namespace GateStore

/-! ## Scan rotation -/

def joinRotation (g : GateStore) (account : AccountId) : GateStore :=
  if g.scanSlotOf.contains account then g
  else { g with
    accountAtScanSlot := g.accountAtScanSlot.insert g.scanSlotCount account
    scanSlotOf := g.scanSlotOf.insert account g.scanSlotCount
    scanSlotCount := satAdd u64Max g.scanSlotCount 1 }

def fillSlot (g : GateStore) (slot last : ℕ) : GateStore :=
  if slot < last then
    match g.accountAtScanSlot.get last with
    | some moved => { g with
        accountAtScanSlot := g.accountAtScanSlot.insert slot moved
        scanSlotOf := g.scanSlotOf.insert moved slot }
    | none => { g with accountAtScanSlot := g.accountAtScanSlot.remove slot }
  else g

def leaveRotation (g : GateStore) (account : AccountId) : GateStore :=
  match g.scanSlotOf.get account with
  | none => g
  | some slot =>
      let last := g.scanSlotCount - 1
      let filled := { g with scanSlotOf := g.scanSlotOf.remove account }.fillSlot slot last
      { filled with
        accountAtScanSlot := filled.accountAtScanSlot.remove last
        scanSlotCount := last }

/-- The accounts the credential scan covers: `budget` slots from `cursor` on,
wrapping at the end of the table. -/
def scanWindow (g : GateStore) (cursor budget : ℕ) : List AccountId :=
  if g.scanSlotCount = 0 ∨ budget = 0 then []
  else
    let start := cursor % g.scanSlotCount
    (List.range (min budget g.scanSlotCount)).filterMap (fun i =>
      let slot := satAdd u64Max start i
      g.accountAtScanSlot.get
        (if g.scanSlotCount ≤ slot then slot - g.scanSlotCount else slot))

def slotInWindow (g : GateStore) (slot cursor budget : ℕ) : Bool :=
  if g.scanSlotCount = 0 ∨ budget = 0 ∨ g.scanSlotCount ≤ slot then false
  else
    let start := cursor % g.scanSlotCount
    let distance :=
      if start ≤ slot then slot - start else g.scanSlotCount - start + slot
    distance < min budget g.scanSlotCount

def nextScanCursor (g : GateStore) (cursor budget : ℕ) : ℕ :=
  if g.scanSlotCount = 0 then 0
  else satAdd u64Max (cursor % g.scanSlotCount) (min budget g.scanSlotCount) %
    g.scanSlotCount

def coverage (g : GateStore) (cursor budget : ℕ) (who : AccountId) : ScanCoverage :=
  match g.scanSlotOf.get who with
  | none => .absent
  | some slot => if g.slotInWindow slot cursor budget then .covered else .deferred

def stakeCredentialsOf (g : GateStore) (accounts : List AccountId) : List StakeCredential :=
  StorageMap.sortedSet (accounts.filterMap g.stakeCredOf.get)

end GateStore

namespace Runtime

/-! ## Teardown of observed state -/

def setVotingPower (s : Runtime) (who : AccountId) (weight : ℕ) : Runtime :=
  if s.talkStake.votingPower.getD who 0 = weight then s
  else s.applyVotingPower who weight

def forgetAccount (s : Runtime) (who : AccountId) : Runtime :=
  (s.forgetRoleBasis who).setRoles who []

def forgetStake (s : Runtime) (who : AccountId) (stakeCred : StakeCredential) :
    Runtime :=
  { s with observer := { s.observer with
      lastObservedStake := s.observer.lastObservedStake.remove stakeCred } }
    |>.setVotingPower who 0

/-! ## Binds -/

def doBind (s : Runtime) (account : AccountId) (identity : IdentityHash) :
    Except GateError Runtime :=
  if s.gate.tombstoned.contains identity then .error .identityTombstoned
  else if s.gate.pkhOf.contains account then .error .accountAlreadyBound
  else if s.gate.accountOf.contains identity then .error .pkhAlreadyBound
  else
    let bound := { s.gate with
      pkhOf := s.gate.pkhOf.insert account identity
      accountOf := s.gate.accountOf.insert identity account }
    .ok (({ s with gate := bound.joinRotation account }.onFirstBind account).deposit
      (.identityLinked account identity))

def linkIdentitySigned (cfg : Config) (s : Runtime) (proof : CoseProof) :
    Except GateError Runtime :=
  match cfg.verifyIdentityProof proof with
  | .error e => .error (.proof e)
  | .ok (account, identity) => s.doBind account identity

def doBindStake (s : Runtime) (account : AccountId) (stakeCred : StakeCredential)
    (nonce : ℕ) : Except GateError Runtime :=
  if !s.gate.pkhOf.contains account then .error .notPaymentBound
  else if s.gate.tombstonedStakeCred.contains stakeCred then
    .error .stakeCredTombstoned
  else if s.gate.spentStakeNonce.get account = some nonce then
    .error .stakeProofReplayed
  else if s.gate.stakeCredOf.contains account then .error .accountAlreadyStakeBound
  else if s.gate.accountOfStakeCred.contains stakeCred then
    .error .stakeCredAlreadyBound
  else
    .ok ({ s with gate := { s.gate with
        spentStakeNonce := s.gate.spentStakeNonce.insert account nonce
        stakeCredOf := s.gate.stakeCredOf.insert account stakeCred
        accountOfStakeCred := s.gate.accountOfStakeCred.insert stakeCred account }
      }.deposit (.stakeLinked account stakeCred))

def linkStakeSigned (cfg : Config) (s : Runtime) (proof : CoseProof) :
    Except GateError Runtime :=
  match cfg.verifyStakeProof proof with
  | .error e => .error (.proof e)
  | .ok (account, stakeCred, nonce) => s.doBindStake account stakeCred nonce

/-! ## Revokes -/

def releaseIdentity (s : Runtime) (account : AccountId) (identity : IdentityHash) :
    Runtime :=
  { s with gate := { s.gate with
      pkhOf := s.gate.pkhOf.remove account
      accountOf := s.gate.accountOf.remove identity
      tombstoned := s.gate.tombstoned.insert identity () } }

def releaseStake (s : Runtime) (account : AccountId) (stakeCred : StakeCredential) :
    Runtime :=
  { s with gate := { s.gate with
      stakeCredOf := s.gate.stakeCredOf.remove account
      accountOfStakeCred := s.gate.accountOfStakeCred.remove stakeCred } }

def tombstoneStakeCred (s : Runtime) (stakeCred : StakeCredential) : Runtime :=
  { s with gate := { s.gate with
      tombstonedStakeCred := s.gate.tombstonedStakeCred.insert stakeCred () } }

/-- The stake half of a revoke: a held credential is unbound, tombstoned, and
its observed voting power is torn down. -/
def banStake (s : Runtime) (account : AccountId) : Runtime :=
  match s.gate.stakeCredOf.get account with
  | none => s
  | some stakeCred =>
      ((s.releaseStake account stakeCred).tombstoneStakeCred stakeCred).forgetStake
        account stakeCred

def onRevoke (s : Runtime) (account : AccountId) : Runtime :=
  (s.zeroCapacity account).purgeAccountRoles account

def doRevoke (s : Runtime) (account : AccountId) : Except GateError Runtime :=
  match s.gate.pkhOf.get account with
  | none => .error .notBound
  | some identity =>
      let torn := ((s.releaseIdentity account identity).banStake account).forgetAccount
        account
      .ok (({ torn with gate := torn.gate.leaveRotation account }.onRevoke account).deposit
        (.revoked account identity))

def revokeMany (s : Runtime) (targets : List AccountId) : Runtime :=
  let (after, applied) := applyAll u32Max doRevoke s targets
  after.deposit (.revokedMany applied (targets.length - applied))

def unlinkStake (s : Runtime) (who : AccountId) : Except GateError Runtime :=
  match s.gate.stakeCredOf.get who with
  | none => .error .noStakeBind
  | some stakeCred =>
      .ok (((s.releaseStake who stakeCred).forgetStake who stakeCred).deposit
        (.stakeUnlinked who stakeCred))

end Runtime

end CognoChain
