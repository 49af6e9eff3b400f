import Mathlib.Data.Prod.Lex
import CognoChain.Substrate.Scale
import CognoChain.Substrate.Selection
import CognoChain.Model.Calidus

/-!
# Reduction of the Cardano read

How a node turns the rows it reads from Cardano into the snapshot it supplies.
Texts are their UTF-8 bytes; the lower-casing of a text is a parameter.
-/

namespace CognoChain

open Substrate

/-! ## Vault matches -/

/-- A JSON value.  A number that is not an unsigned 64-bit integer is never
read. -/
inductive Json
  | null
  | bool (value : Bool)
  | uint (value : UInt64)
  | otherNumber
  | str (text : Bytes)
  | arr (items : List Json)
  | obj (fields : List (Bytes × Json))

namespace Json

def get (key : String) : Json → Option Json
  | obj fields => fields.lookup (ascii key)
  | _ => none

def asObject : Json → Option (List (Bytes × Json))
  | obj fields => some fields
  | _ => none

def asUint64 : Json → Option ℕ
  | uint value => some value.toNat
  | _ => none

def asStr : Json → Option Bytes
  | str text => some text
  | _ => none

end Json

def isAsciiDigit (byte : UInt8) : Bool := decide (48 ≤ byte.toNat ∧ byte.toNat ≤ 57)

def parseDigits (bound : ℕ) (text : Bytes) : Option ℕ :=
  let value := text.foldl (fun acc byte => acc * 10 + (byte.toNat - 48)) 0
  if value ≤ bound then some value else none

/-- A JSON number, or a text of digits only, within the range of the type. -/
def asUint (bound : ℕ) (v : Json) : Option ℕ :=
  match v.asUint64 with
  | some n => some n
  | none =>
      match v.asStr with
      | none => none
      | some text =>
          if text.isEmpty || !text.all isAsciiDigit then none else parseDigits bound text

def asU64 : Json → Option ℕ := asUint u64Max

def asU128 : Json → Option ℕ := asUint u128Max

def hexDigit (byte : UInt8) : Option ℕ :=
  let c := byte.toNat
  if 48 ≤ c ∧ c ≤ 57 then some (c - 48)
  else if 97 ≤ c ∧ c ≤ 102 then some (c - 87)
  else if 65 ≤ c ∧ c ≤ 70 then some (c - 55)
  else none

def hexPairs : Bytes → Option Bytes
  | hi :: lo :: rest => do
      let high ← hexDigit hi
      let low ← hexDigit lo
      let bytes ← hexPairs rest
      some (UInt8.ofNat (16 * high + low) :: bytes)
  | _ => some []

def hexBytes (n : ℕ) (text : Bytes) : Option Bytes :=
  let text := if (ascii "0x").isPrefixOf text then text.drop 2 else text
  if text.length ≠ 2 * n then none else hexPairs text

def hex32 (text : Bytes) : Option BeaconName := (hexBytes 32 text).map IdentityHash.ofBytes

def dot : UInt8 := 46

def assetPolicy (key : Bytes) : Bytes := key.takeWhile (fun byte => byte ≠ dot)

def assetName (key : Bytes) : Option Bytes :=
  match key.dropWhile (fun byte => byte ≠ dot) with
  | [] => none
  | _ :: name => some name

/-- The assets of a value under the vault policy: how many there are, and the
beacon the last one of quantity one names. -/
def vaultAssets (toLowercase : Bytes → Bytes) (vh : Bytes) (value : Json) :
    Option BeaconName × ℕ :=
  (((value.get "assets").bind Json.asObject).getD []).foldl (fun seen asset =>
    if toLowercase (assetPolicy asset.1) = vh then
      (if asU64 asset.2 = some 1 then (assetName asset.1).bind hex32 else seen.1,
        (seen.2 + 1) % 2 ^ 32)
    else seen) (none, 0)

def slotNo (m : Json) (field : String) : Option ℕ :=
  ((m.get field).bind (Json.get "slot_no")).bind asU64

def observeMatch (toLowercase : Bytes → Bytes) (vh : Bytes) (referenceSlot : ℕ)
    (largest : StorageMap BeaconName ℕ) (m : Json) : StorageMap BeaconName ℕ :=
  match m.get "value" with
  | none => largest
  | some value =>
      let assets := vaultAssets toLowercase vh value
      if assets.2 ≠ 1 then largest
      else
        match assets.1 with
        | none => largest
        | some beacon =>
            match slotNo m "created_at" with
            | none => largest
            | some created =>
                if referenceSlot < created then largest
                else if (slotNo m "spent_at").any (fun spent => spent ≤ referenceSlot) then largest
                else
                  match (value.get "coins").bind asU128 with
                  | none => largest
                  | some coins =>
                      if coins = 0 then largest
                      else
                        let entry := largest.getD beacon 0
                        largest.insert beacon (if entry < coins then coins else entry)

def observeAsOf (toLowercase : Bytes → Bytes) (ms : List Json) (vaultHash : Bytes)
    (referenceSlot : ℕ) : List (BeaconName × ℕ) :=
  (ms.foldl (observeMatch toLowercase (toLowercase vaultHash) referenceSlot) ∅).entries

structure Candidate where
  beacon : BeaconName
  created : ℕ
  spent : Option ℕ
  coins : ℕ
deriving DecidableEq, Repr

def candidateOf (toLowercase : Bytes → Bytes) (vh : Bytes) (m : Json) : Option Candidate :=
  match m.get "value" with
  | none => none
  | some value =>
      let assets := vaultAssets toLowercase vh value
      if assets.2 ≠ 1 then none
      else
        match assets.1 with
        | none => none
        | some beacon =>
            match slotNo m "created_at" with
            | none => none
            | some created =>
                match (value.get "coins").bind asU128 with
                | none => none
                | some coins => some ⟨beacon, created, slotNo m "spent_at", coins⟩

def Candidate.rank (c : Candidate) : ℕ ×ₗ ℕ ×ₗ ℕ ×ₗ ℕ :=
  toLex (c.beacon.raw, toLex (c.created, toLex ((c.spent.map Nat.succ).getD 0, c.coins)))

def candidateTuples (toLowercase : Bytes → Bytes) (ms : List Json) (vaultHash : Bytes) :
    List Candidate :=
  (ms.filterMap (candidateOf toLowercase (toLowercase vaultHash))).insertionSort
    (fun a b => a.rank ≤ b.rank)

def Candidate.encode (c : Candidate) : Bytes :=
  beBytes 32 c.beacon.raw ++ (leBytes 8 c.created ++
    (Scale.option (leBytes 8) c.spent ++ leBytes 16 c.coins))

/-- The pre-image of the inputs commitment.  Encoding a list longer than the
codec takes panics, here as `none`. -/
def candidateBytes (toLowercase : Bytes → Bytes) (ms : List Json) (vaultHash : Bytes) :
    Option Bytes :=
  Scale.vec Candidate.encode (candidateTuples toLowercase ms vaultHash)

def inputsCommitment (crypto : Crypto) (toLowercase : Bytes → Bytes) (ms : List Json)
    (vaultHash : Bytes) : Option ℕ :=
  (candidateBytes toLowercase ms vaultHash).map (fun bytes => beVal (crypto.blake2b256 bytes))

/-! ## Canonical entries -/

def collectRows (rows : List (Credential × ℕ)) : StorageMap Credential ℕ :=
  rows.foldl (fun map row => map.insert row.1 row.2) ∅

def canonicalStakeEntries (raw : List (StakeCredential × ℕ)) : List (StakeCredential × ℕ) :=
  (collectRows raw).entries

def RoleSource.index : RoleSource → ℕ
  | spoCalidus => 0
  | spoOwner => 1
  | dRep => 2
  | committee => 3

def RoleEntry.rank (entry : RoleEntry) : ℕ ×ₗ ℕ ×ₗ ℕ ×ₗ ℕ :=
  toLex (entry.source.index, toLex (entry.credential.raw, toLex (entry.id.raw, entry.weight)))

def canonicalRoleEntries (raw : List RoleEntry) : List RoleEntry :=
  sortedSet RoleEntry.rank raw

/-! ## Roles -/

open Calidus in
/-- The live pools some registration names together with a claimed key, whether
or not it verifies. -/
def claimedCalidusPools (crypto : Crypto) (registrations : List Bytes)
    (claimedCalidus activePools : List Credential) : List Credential :=
  sortedSet Credential.raw
    ((((registrations.filterMap (fun b => (parseRegistration crypto b).toOption)).filter
        (fun p => decide (p.calidusKeyHash ∈ claimedCalidus))).map CalidusParsed.poolId).filter
      (fun pool => decide (pool ∈ activePools)))

open Calidus in
/-- One registration of the winner loop; only pools of the gate are verified. -/
def calidusWinnerStep (crypto : Crypto) (gate : Credential → Bool)
    (winner : StorageMap Credential CalidusRegistration) (b : Bytes) :
    StorageMap Credential CalidusRegistration :=
  match parseRegistration crypto b with
  | .error _ => winner
  | .ok pre =>
      if gate pre.poolId then
        match verifyRegistration crypto b with
        | .error _ => winner
        | .ok reg => winner.keepBest CalidusRegistration.nonce reg.poolId reg
      else winner

open Calidus in
def calidusEntries (winner : StorageMap Credential CalidusRegistration)
    (claimedCalidus activePools : List Credential) (poolWeight : StorageMap Credential ℕ) :
    List RoleEntry :=
  (winner.entries.filter
      (fun row => decide (row.2.calidusKeyHash ∈ claimedCalidus ∧ row.1 ∈ activePools))).map
    (fun row => ⟨.spoCalidus, row.2.calidusKeyHash, row.1, poolWeight.getD row.1 0⟩)

def ownerEntries (ownerPools : List (Credential × Credential)) (activePools : List Credential)
    (poolWeight : StorageMap Credential ℕ) : List RoleEntry :=
  (ownerPools.filter (fun owner => decide (owner.2 ∈ activePools))).map
    (fun owner => ⟨.spoOwner, owner.1, owner.2, poolWeight.getD owner.2 0⟩)

def drepEntries (liveDreps : List Credential) (drepWeight : StorageMap Credential ℕ) :
    List RoleEntry :=
  liveDreps.map (fun drep => ⟨.dRep, drep, drep, drepWeight.getD drep 0⟩)

/-- The place of a certificate: transaction, then index. -/
abbrev CertOrder := ℕ ×ₗ ℕ

structure CommitteeMember where
  cold : Credential
  isScript : Bool
  expirationEpoch : ℕ
deriving DecidableEq, Repr

def CommitteeMember.inTermAt (member : CommitteeMember) (epoch : ℕ) : Bool :=
  decide (epoch ≤ member.expirationEpoch)

structure CommitteeRegistration where
  cold : Credential
  hot : Credential
  hotIsScript : Bool
  order : CertOrder
deriving DecidableEq

def CommitteeRegistration.rank (reg : CommitteeRegistration) : CertOrder ×ₗ ℕ ×ₗ Bool :=
  toLex (reg.order, toLex (reg.hot.raw, reg.hotIsScript))

structure CommitteeDeregistration where
  cold : Credential
  order : CertOrder
deriving DecidableEq

structure CommitteeRead where
  epoch : ℕ
  members : List CommitteeMember
  registrations : List CommitteeRegistration
  deregistrations : List CommitteeDeregistration
deriving DecidableEq

namespace CommitteeRead

/-- The seats by cold credential; rows of one credential merge to the earlier
expiry. -/
def seat (committee : CommitteeRead) : StorageMap Credential CommitteeMember :=
  committee.members.foldl (fun seat m =>
    match seat.get m.cold with
    | some kept =>
        seat.insert m.cold
          { kept with
            isScript := kept.isScript || m.isScript
            expirationEpoch := min kept.expirationEpoch m.expirationEpoch }
    | none => seat.insert m.cold m) ∅

def newestReg (committee : CommitteeRead) : StorageMap Credential CommitteeRegistration :=
  committee.registrations.foldl (fun newest reg =>
    if committee.seat.contains reg.cold then
      newest.keepBest CommitteeRegistration.rank reg.cold reg
    else newest) ∅

def newestDereg (committee : CommitteeRead) : StorageMap Credential CertOrder :=
  committee.deregistrations.foldl (fun newest dereg =>
    if committee.seat.contains dereg.cold then
      newest.keepBest id dereg.cold dereg.order
    else newest) ∅

def badge (committee : CommitteeRead) (claimedCommittee : List Credential) (cold : Credential)
    (member : CommitteeMember) : Option RoleEntry :=
  if !member.inTermAt committee.epoch then none
  else
    match committee.newestReg.get cold with
    | none => none
    | some reg =>
        if reg.hotIsScript then none
        else if (committee.newestDereg.get cold).any (fun order => reg.order < order) then none
        else if reg.hot ∈ claimedCommittee then some ⟨.committee, reg.hot, reg.hot, 0⟩
        else none

def entries (committee : CommitteeRead) (claimedCommittee : List Credential) : List RoleEntry :=
  committee.seat.entries.filterMap (fun row => committee.badge claimedCommittee row.1 row.2)

end CommitteeRead

structure RoleRead where
  registrations : List Bytes
  activePools : List Credential
  ownerPools : List (Credential × Credential)
  claimedCalidus : List Credential
  liveDreps : List Credential
  poolStake : List (Credential × ℕ)
  drepStake : List (Credential × ℕ)
  committee : CommitteeRead
  claimedCommittee : List Credential

/-- The reduction with the pools whose registrations are verified given. -/
def reduceGated (crypto : Crypto) (gate : Credential → Bool) (read : RoleRead) : List RoleEntry :=
  let poolWeight := collectRows read.poolStake
  let winner := read.registrations.foldl (calidusWinnerStep crypto gate) ∅
  canonicalRoleEntries
    (calidusEntries winner read.claimedCalidus read.activePools poolWeight ++
      ownerEntries read.ownerPools read.activePools poolWeight ++
      drepEntries read.liveDreps (collectRows read.drepStake) ++
      read.committee.entries read.claimedCommittee)

def reduceRoleObservation (crypto : Crypto) (read : RoleRead) : List RoleEntry :=
  reduceGated crypto
    (fun pool => decide (pool ∈
      claimedCalidusPools crypto read.registrations read.claimedCalidus read.activePools)) read

/-! ## The snapshot -/

def buildObservation (crypto : Crypto) (toLowercase : Bytes → Bytes) (reference : CardanoRef)
    (ms : List Json) (vaultHash : Bytes) (stakeEntries : List (StakeCredential × ℕ))
    (roleEntries : List RoleEntry) : Option CardanoObservation :=
  (inputsCommitment crypto toLowercase ms vaultHash).map (fun commitment =>
    { reference := reference
      inputsCommitment := commitment
      entries := observeAsOf toLowercase ms vaultHash reference.slot
      stakeEntries := canonicalStakeEntries stakeEntries
      roleEntries := canonicalRoleEntries roleEntries })

end CognoChain
