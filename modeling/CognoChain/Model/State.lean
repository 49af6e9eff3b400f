import CognoChain.Model.Types
import CognoChain.Substrate.StorageIteration

/-!
# Runtime state

The storage of every modelled pallet, the events they deposit, and the
constants the runtime configures them with.  A runtime value is what a block
executes on; calls that fail leave it as it was.
-/

namespace CognoChain

open Substrate

/-! ## Events -/

inductive Event
  | stakeSet (who : AccountId) (weight : ℕ)
  | votingPowerSet (who : AccountId) (weight : ℕ)
  | postCreated (id : ℕ) (author : AccountId)
  | capacityForced (who : AccountId) (capLast : ℕ)
  | voted (id : ℕ) (who : AccountId) (dir : VoteDir)
  | voteCleared (id : ℕ) (who : AccountId)
  | accountVoted (target who : AccountId) (dir : VoteDir)
  | accountVoteCleared (target who : AccountId)
  | followed (follower followee : AccountId)
  | unfollowed (follower followee : AccountId)
  | pollCreated (id : ℕ) (author : AccountId)
  | pollVoted (id : ℕ) (who : AccountId) (option : ℕ)
  | pollClosed (hostId : ℕ)
  | pollTallySmeared (hostId blocks : ℕ)
  | profileSet (who : AccountId)
  | profileCleared (who : AccountId)
  | postPinned (who : AccountId) (id : ℕ)
  | postUnpinned (who : AccountId)
  | identityLinked (who : AccountId) (identity : IdentityHash)
  | revoked (who : AccountId) (identity : IdentityHash)
  | stakeLinked (who : AccountId) (stakeCred : StakeCredential)
  | revokedMany (applied skipped : ℕ)
  | stakeUnlinked (who : AccountId) (stakeCred : StakeCredential)
  | stakeCredTombstonedByAuthority (stakeCred : StakeCredential)
  | roleClaimed (who : AccountId) (role : RoleKind) (credential : RoleCredential)
  | roleUnclaimed (who : AccountId) (role : RoleKind)
  | roleRevoked (who : AccountId) (role : RoleKind)
  | rolesUpdated (who : AccountId) (roles : List ObservedRole)
  | rolesRevokedMany (applied skipped : ℕ)
  | observationApplied (referenceSlot credited cleared skipped : ℕ) (enforced : Bool)
  | votingPowerObserved (referenceSlot credited cleared skipped : ℕ) (enforced : Bool)
  | enforcementSet (enabled : Bool)
  | observationStalled (lastApplied blocks : ℕ)
  | observationResumed (blocks : ℕ)
  | rolesObserved (referenceSlot credited cleared : ℕ) (enforced : Bool)
  | observationBacklogged (referenceSlot pending : ℕ)
deriving DecidableEq, Repr

/-! ## Pallet storage -/

structure TalkStake where
  allowedStake : StorageMap AccountId ℕ := ∅
  votingPower : StorageMap AccountId ℕ := ∅
  votingPowerSeq : ℕ := 0
deriving DecidableEq

/-- Microblog posts and the indexes over them. -/
structure Feed where
  nextPostId : ℕ := 0
  posts : StorageMap ℕ Post := ∅
  byAuthor : StorageMap (AccountId × ℕ) ℕ := ∅
  byAuthorCount : StorageMap AccountId ℕ := ∅
  replyCount : StorageMap ℕ ℕ := ∅
  repliesByParent : StorageMap (ℕ × ℕ) Unit := ∅
  repliesByParentSeq : StorageMap (ℕ × ℕ) ℕ := ∅
  nextTopLevelSeq : ℕ := 0
  topLevelPosts : StorageMap ℕ ℕ := ∅
  topLevelByAuthor : StorageMap (AccountId × ℕ) ℕ := ∅
  topLevelByAuthorCount : StorageMap AccountId ℕ := ∅
deriving DecidableEq

/-- Microblog votes on posts and on accounts, with their tallies. -/
structure Ballots where
  votes : StorageMap (ℕ × AccountId) VoteDir := ∅
  voteTally : StorageMap ℕ VoteCounts := ∅
  votesByAccount : StorageMap (AccountId × ℕ) Unit := ∅
  likesByAccount : StorageMap (AccountId × ℕ) Unit := ∅
  accountVotes : StorageMap (AccountId × AccountId) VoteDir := ∅
  accountVoteTally : StorageMap AccountId VoteCounts := ∅
deriving DecidableEq

structure FollowGraph where
  following : StorageMap (AccountId × AccountId) Unit := ∅
  followers : StorageMap (AccountId × AccountId) Unit := ∅
  followerCount : StorageMap AccountId ℕ := ∅
  followingCount : StorageMap AccountId ℕ := ∅
deriving DecidableEq

/-- Microblog polls: ballots, running counts, frozen results and the state of
a close in flight. -/
structure PollStore where
  polls : StorageMap ℕ Poll := ∅
  pollVotes : StorageMap (ℕ × AccountId) ℕ := ∅
  pollTally : StorageMap (ℕ × ℕ) ℕ := ∅
  pollResults : StorageMap ℕ PollResult := ∅
  pollCloseState : StorageMap ℕ CloseState := ∅
  pollChamberScratch : StorageMap (ℕ × (ℕ × Credential)) ChamberEntry := ∅
deriving DecidableEq

structure ProfileStore where
  profiles : StorageMap AccountId Profile := ∅
  pinnedPost : StorageMap AccountId ℕ := ∅
deriving DecidableEq

/-- Storage of the identity gate: the two 1:1 binds, the tombstones and the
scan rotation. -/
structure GateStore where
  pkhOf : StorageMap AccountId IdentityHash := ∅
  accountOf : StorageMap IdentityHash AccountId := ∅
  tombstoned : StorageMap IdentityHash Unit := ∅
  stakeCredOf : StorageMap AccountId StakeCredential := ∅
  accountOfStakeCred : StorageMap StakeCredential AccountId := ∅
  tombstonedStakeCred : StorageMap StakeCredential Unit := ∅
  spentStakeNonce : StorageMap AccountId ℕ := ∅
  scanSlotCount : ℕ := 0
  accountAtScanSlot : StorageMap ℕ AccountId := ∅
  scanSlotOf : StorageMap AccountId ℕ := ∅
deriving DecidableEq

structure RoleStore where
  roleClaimOf : StorageMap (AccountId × RoleKind) RoleCredential := ∅
  roleCredIndex : StorageMap (RoleKind × RoleCredential) AccountId := ∅
  tombstonedRoleCred : StorageMap (RoleKind × RoleCredential) Unit := ∅
  spentRoleNonce : StorageMap (AccountId × RoleKind) ℕ := ∅
  observedRoles : StorageMap AccountId (List ObservedRole) := ∅
  observedRolesSeq : ℕ := 0
deriving DecidableEq

structure ObserverStore where
  lastReference : Option CardanoRef := none
  lastObserved : StorageMap BeaconName (AccountId × ℕ) := ∅
  enforceWeight : Bool := true
  lastObservedStake : StorageMap StakeCredential (AccountId × ℕ) := ∅
  lastObservedRoles : StorageMap AccountId (List RoleTuple) := ∅
  pendingChanges : ℕ := 0
  lastAppliedAt : ℕ := 0
  stalled : Bool := false
  scanCursor : ℕ := 0
  lastSweepAt : ℕ := 0
deriving DecidableEq

structure Runtime where
  blockNumber : ℕ := 0
  unixSecs : ℕ := 0
  events : List Event := []
  talkStake : TalkStake := {}
  feed : Feed := {}
  ballots : Ballots := {}
  graph : FollowGraph := {}
  polls : PollStore := {}
  capacity : StorageMap AccountId CapacityState := ∅
  profile : ProfileStore := {}
  gate : GateStore := {}
  roles : RoleStore := {}
  observer : ObserverStore := {}
deriving DecidableEq

namespace Runtime

def genesis : Runtime := {}

def deposit (s : Runtime) (event : Event) : Runtime :=
  { s with events := s.events ++ [event] }

end Runtime

/-! ## Runtime constants -/

/-- The pallets' configuration.  The hash decides the order in which maps are
iterated, and the three verifiers turn a self-proof into what it proves; both
are pure functions of their input. -/
structure Config where
  blake2 : ℕ → ℕ
  verifyIdentityProof : CoseProof → Except ProofError (AccountId × IdentityHash)
  verifyStakeProof : CoseProof → Except ProofError (AccountId × StakeCredential × ℕ)
  verifyRoleProof :
    CoseProof → Except ProofError (AccountId × RoleKind × RoleCredential × ℕ)
  -- capacity meter
  capRatio : ℕ
  regenPerBlock : ℕ
  ceiling : ℕ
  baseCost : ℕ
  perByteCost : ℕ
  voteCost : ℕ
  followCost : ℕ
  profileCost : ℕ
  maxCallLen : ℕ
  -- microblog bounds
  maxLength : ℕ
  maxPollOptions : ℕ
  maxPollOptionLen : ℕ
  maxAnchorUrlLen : ℕ
  minPollDuration : ℕ
  maxPollDuration : ℕ
  maxClosePage : ℕ
  maxChamberBadges : ℕ
  -- profile bounds
  maxName : ℕ
  maxBio : ℕ
  maxAvatar : ℕ
  maxBanner : ℕ
  maxLocation : ℕ
  maxWebsite : ℕ
  -- observer bounds
  minLock : ℕ
  maxStakeWeight : ℕ
  maxVotingPower : ℕ
  maxChangesPerBlock : ℕ
  maxRolesPerAccount : ℕ
  maxScanned : ℕ
  shelleyStartUnix : ℕ
  shelleyStartSlot : ℕ
  stabilitySlots : ℕ
  stallAfter : ℕ
  -- governance
  maxBatchTargets : ℕ

/-- The constants the runtime is built with for preprod, six seconds a block. -/
def Config.cogno (blake2 : ℕ → ℕ)
    (verifyIdentityProof : CoseProof → Except ProofError (AccountId × IdentityHash))
    (verifyStakeProof : CoseProof → Except ProofError (AccountId × StakeCredential × ℕ))
    (verifyRoleProof :
      CoseProof → Except ProofError (AccountId × RoleKind × RoleCredential × ℕ)) :
    Config where
  blake2 := blake2
  verifyIdentityProof := verifyIdentityProof
  verifyStakeProof := verifyStakeProof
  verifyRoleProof := verifyRoleProof
  capRatio := 3000
  regenPerBlock := 1
  ceiling := 300000000000000
  baseCost := 3000000000
  perByteCost := 3000000
  voteCost := 1200000000
  followCost := 600000000
  profileCost := 30000000000
  maxCallLen := 8192
  maxLength := 512
  maxPollOptions := 4
  maxPollOptionLen := 80
  maxAnchorUrlLen := 256
  minPollDuration := 100
  maxPollDuration := 1296000
  maxClosePage := 64
  maxChamberBadges := 32
  maxName := 64
  maxBio := 256
  maxAvatar := 128
  maxBanner := 256
  maxLocation := 64
  maxWebsite := 256
  minLock := 100000000
  maxStakeWeight := 45000000000000000
  maxVotingPower := 45000000000000000
  maxChangesPerBlock := 256
  maxRolesPerAccount := 32
  maxScanned := 8192
  shelleyStartUnix := 1655769600
  shelleyStartSlot := 86400
  stabilitySlots := 600
  stallAfter := 50
  maxBatchTargets := 64

/-- The runtime over the identity hash, with verifiers that read what a proof
proves off its bytes.  Concrete runs use it. -/
def Config.toy : Config :=
  Config.cogno id
    (fun proof =>
      match proof.coseSign1 with
      | [account, identity] => .ok (⟨account.toNat⟩, ⟨identity.toNat⟩)
      | _ => .error .proofInvalid)
    (fun proof =>
      match proof.coseSign1 with
      | [account, stakeCred, nonce] => .ok (⟨account.toNat⟩, ⟨stakeCred.toNat⟩, nonce.toNat)
      | _ => .error .proofInvalid)
    (fun proof =>
      match proof.coseSign1 with
      | [account, 0, credential, nonce] =>
          .ok (⟨account.toNat⟩, .spo, ⟨credential.toNat⟩, nonce.toNat)
      | [account, 1, credential, nonce] =>
          .ok (⟨account.toNat⟩, .dRep, ⟨credential.toNat⟩, nonce.toNat)
      | [account, 2, credential, nonce] =>
          .ok (⟨account.toNat⟩, .committee, ⟨credential.toNat⟩, nonce.toNat)
      | _ => .error .proofInvalid)

end CognoChain
