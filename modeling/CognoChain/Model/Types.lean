import CognoChain.Substrate.Bytes
import CognoChain.Substrate.Saturating
import CognoChain.Substrate.StorageMap

/-!
# Data types of the cogno chain

The on-chain types of the pallets, under the names the pallets give them.
Fixed-length byte strings are numbers read big-endian, so the byte order the
runtime sorts by is the order of their encodings.  A stored record with one
field is stored as that field.
-/

namespace CognoChain

open Substrate

structure AccountId where
  raw : ℕ
deriving DecidableEq, Repr

/-- A 32-byte Cardano identity hash; it is also the name of the identity's
vault beacon. -/
structure IdentityHash where
  raw : ℕ
deriving DecidableEq, Repr

/-- A 28-byte credential: a stake credential, a role credential, a pool or dRep
identifier. -/
structure Credential where
  raw : ℕ
deriving DecidableEq, Repr

abbrev BeaconName := IdentityHash
abbrev StakeCredential := Credential
abbrev RoleCredential := Credential

instance : StorageKey AccountId where
  enc := AccountId.raw
  enc_injective := by
    rintro ⟨a⟩ ⟨b⟩ h
    simpa using h

instance : StorageKey IdentityHash where
  enc := IdentityHash.raw
  enc_injective := by
    rintro ⟨a⟩ ⟨b⟩ h
    simpa using h

instance : StorageKey Credential where
  enc := Credential.raw
  enc_injective := by
    rintro ⟨a⟩ ⟨b⟩ h
    simpa using h

abbrev Bytes := List UInt8

/-- A self-proof as submitted: the signature envelope and the key. -/
structure CoseProof where
  coseSign1 : Bytes
  coseKey : Bytes
deriving DecidableEq

inductive ProofError
  | proofInvalid
  | wrongGenesis
deriving DecidableEq, Repr

/-! ## Microblog -/

structure Post where
  author : AccountId
  text : Bytes
  parent : Option ℕ
  atBlock : ℕ
  quote : Option ℕ
deriving DecidableEq

inductive VoteDir
  | up
  | down
deriving DecidableEq, Repr

structure VoteCounts where
  upCount : ℕ
  downCount : ℕ
deriving DecidableEq, Repr

instance : Inhabited VoteCounts := ⟨⟨0, 0⟩⟩

inductive PollKind
  | stake
  | governance
  | spo
  | drep
deriving DecidableEq, Repr

namespace PollKind

def hasSpo : PollKind → Bool
  | governance | spo => true
  | stake | drep => false

def hasDrep : PollKind → Bool
  | governance | drep => true
  | stake | spo => false

def hasChambers (kind : PollKind) : Bool := kind.hasSpo || kind.hasDrep

def index : PollKind → ℕ
  | stake => 0
  | governance => 1
  | spo => 2
  | drep => 3

end PollKind

inductive GovActionType
  | info
  | noConfidence
  | updateCommittee
  | newConstitution
  | hardFork
  | paramChange
  | treasuryWithdrawal
deriving DecidableEq, Repr

def GovActionType.index : GovActionType → ℕ
  | info => 0
  | noConfidence => 1
  | updateCommittee => 2
  | newConstitution => 3
  | hardFork => 4
  | paramChange => 5
  | treasuryWithdrawal => 6

/-- The action a governance poll is about.  The call takes it with the same
fields and an unbounded anchor. -/
structure GovAction where
  actionType : GovActionType
  anchorUrl : Bytes
  anchorHash : Option ℕ
deriving DecidableEq

structure Poll where
  options : List Bytes
  closeAt : Option ℕ
  kind : PollKind
  action : Option GovAction
deriving DecidableEq

structure PollResult where
  optionWeights : List ℕ
  optionCounts : List ℕ
  optionSpoWeights : List ℕ
  optionSpoCounts : List ℕ
  optionDrepWeights : List ℕ
  optionDrepCounts : List ℕ
  closedAt : ℕ
deriving DecidableEq, Repr

structure ChamberEntry where
  option : ℕ
  weight : ℕ
  conflict : Bool
deriving DecidableEq, Repr

structure CloseState where
  draining : Bool
  cursor : Option AccountId
  optionWeights : List ℕ
  spoWeights : List ℕ
  spoCounts : List ℕ
  drepWeights : List ℕ
  drepCounts : List ℕ
  stakeSeq : ℕ
  rolesSeq : ℕ
  smeared : Bool
  startedAt : ℕ
deriving DecidableEq, Repr

structure CapacityState where
  capLast : ℕ
  lastBlock : ℕ
deriving DecidableEq, Repr

/-! ## Roles and observation -/

inductive RoleKind
  | spo
  | dRep
  | committee
deriving DecidableEq, Repr

def RoleKind.index : RoleKind → ℕ
  | spo => 0
  | dRep => 1
  | committee => 2

instance : StorageKey RoleKind where
  enc := RoleKind.index
  enc_injective := by
    intro a b h
    cases a <;> cases b <;> first | rfl | cases h

structure ObservedRole where
  kind : RoleKind
  id : RoleCredential
  weight : ℕ
deriving DecidableEq, Repr

/-- A role as the observer carries it: kind index, display id, weight. -/
abbrev RoleTuple := ℕ × RoleCredential × ℕ

inductive RoleSource
  | spoCalidus
  | spoOwner
  | dRep
  | committee
deriving DecidableEq, Repr

def RoleSource.kindIndex : RoleSource → ℕ
  | spoCalidus | spoOwner => 0
  | dRep => 1
  | committee => 2

structure RoleEntry where
  source : RoleSource
  credential : RoleCredential
  id : RoleCredential
  weight : ℕ
deriving DecidableEq, Repr

structure CardanoRef where
  slot : ℕ
  blockHash : ℕ
deriving DecidableEq, Repr

abbrev VaultChange := BeaconName × Option ℕ
abbrev StakeChange := StakeCredential × Option ℕ

structure RoleChange where
  who : AccountId
  roles : Option (List RoleTuple)
deriving DecidableEq, Repr

/-- The full Cardano snapshot a node supplies as inherent data. -/
structure CardanoObservation where
  reference : CardanoRef
  inputsCommitment : ℕ
  entries : List (BeaconName × ℕ)
  stakeEntries : List (StakeCredential × ℕ)
  roleEntries : List RoleEntry
deriving DecidableEq, Repr

structure ObserveArgs where
  reference : CardanoRef
  inputsCommitment : ℕ
  changes : List VaultChange
  stakeChanges : List StakeChange
  roleChanges : List RoleChange
  pending : ℕ
deriving DecidableEq, Repr

inductive ScanCoverage
  | covered
  | deferred
  | absent
deriving DecidableEq, Repr

structure Profile where
  displayName : Bytes
  bio : Bytes
  avatar : Bytes
  banner : Bytes
  location : Bytes
  website : Bytes
deriving DecidableEq

/-! ## Hashes and signatures -/

def IdentityHash.ofBytes (bytes : Bytes) : IdentityHash := ⟨beVal bytes⟩

def Credential.ofBytes (bytes : Bytes) : Credential := ⟨beVal bytes⟩

/-- The primitives the proofs and registrations are checked with.  The node
verifies strictly, the runtime through its host function; a key that does not
decode verifies nothing. -/
structure Crypto where
  blake2b224 : Bytes → Bytes
  blake2b256 : Bytes → Bytes
  verifyStrict (key message signature : Bytes) : Bool
  ed25519Verify (signature message key : Bytes) : Bool
  blake2b224_length : ∀ bytes, (blake2b224 bytes).length = 28
  blake2b256_length : ∀ bytes, (blake2b256 bytes).length = 32

/-- Primitives to run examples on: a hash keeps the first bytes of its input,
and a signature is good when it begins with the key. -/
def Crypto.toy : Crypto where
  blake2b224 bytes := (bytes ++ List.replicate 28 0).take 28
  blake2b256 bytes := (bytes ++ List.replicate 32 0).take 32
  verifyStrict key _ signature := key.isPrefixOf signature
  ed25519Verify signature _ key := key.isPrefixOf signature
  blake2b224_length bytes := by simp
  blake2b256_length bytes := by simp

end CognoChain
