import CognoChain.Model.Cip8
import CognoChain.Model.Reduction

/-!
# Locking ADA from the app

What the app makes of the wallet's change address: the owner's key hashes, the
name of the beacon, the datum and the mint redeemer, and the transaction that
locks.  Hex is text, as its ASCII bytes.  The app writes Plutus data by hand.
-/

namespace CognoChain.Client

open Substrate
open Cip8 (NetworkId)

/-! ## Hex -/

def hexDigitText (digit : ℕ) : UInt8 :=
  UInt8.ofNat (if digit < 10 then 48 + digit else 87 + digit)

def bytesToHex (b : Bytes) : Bytes :=
  b.flatMap (fun x => [hexDigitText (x.toNat / 16), hexDigitText (x.toNat % 16)])

/-- Two characters as `parseInt` reads them: the digits before the first
character that is none, and zero where there are none. -/
def parsePair (hi lo : UInt8) : UInt8 :=
  match hexDigit hi, hexDigit lo with
  | some high, some low => UInt8.ofNat (16 * high + low)
  | some high, none => UInt8.ofNat high
  | none, _ => 0

def parsePairs : Bytes → Bytes
  | hi :: lo :: rest => parsePair hi lo :: parsePairs rest
  | _ => []

inductive LockError
  | integrity
  | policyMismatch
  | networkUnresolved (reason : String)
  | wrongNetwork (label : String)
  | undecodable
  | scriptAddress
  | notStaking
  | oddHex
  | bytestringTooLong
  | badPayment
  | badStake
  | belowFloor (minLock : ℕ)
  | beaconMismatch
  | vaultUnknown
  | alreadyLocked
  | emptyWallet
  | noCollateral
deriving DecidableEq

/-- The text of the error; the library's own where the address does not decode. -/
def LockError.message : LockError → String
  | .integrity => "Vault contract check failed. Locking and exiting are disabled."
  | .policyMismatch => "This app and the network disagree about which vault to use, so locking is " ++
      "off. Getting ADA back still works."
  | .networkUnresolved reason => reason
  | .wrongNetwork label =>
      "Wrong network. Switch your wallet to " ++ label ++ ", then reconnect."
  | .undecodable => ""
  | .scriptAddress => "Connect a normal wallet address, not a script address."
  | .notStaking => "This wallet address is not set up for staking. Use your wallet's main " ++
      "receiving address."
  | .oddHex => "odd-length hex"
  | .bytestringTooLong => "bytestring too long for this minimal encoder"
  | .badPayment => "Couldn't read your wallet address. Reconnect and try again."
  | .badStake => "Use a wallet address that has a stake key."
  | .belowFloor minLock =>
      "lock must be at least " ++ toString minLock ++ " lovelace (the min_lock floor)"
  | .beaconMismatch => "Nothing was locked. Reconnect your wallet and try again."
  | .vaultUnknown => "Can't check your vault right now. Try again in a moment."
  | .alreadyLocked => "You already have ADA locked. Get it back first if you want to lock a " ++
      "different amount."
  | .emptyWallet => "Your wallet is empty. Add ADA first."
  | .noCollateral => "Your wallet needs at least 5 ADA held as a collateral input, not mixed with " ++
      "other tokens."

def hexToBytes (hex : Bytes) : Except LockError Bytes :=
  let h := if (ascii "0x").isPrefixOf hex then hex.drop 2 else hex
  if h.length % 2 ≠ 0 then .error .oddHex else .ok (parsePairs h)

/-! ## Plutus data by hand -/

def constr0 (fields : List Bytes) : Bytes := [0xd8, 0x79, 0x9f] ++ fields.flatten ++ [0xff]

def indefList (items : List Bytes) : Bytes := [0x9f] ++ items.flatten ++ [0xff]

def bstr (hex : Bytes) : Except LockError Bytes := do
  let b ← hexToBytes hex
  if b.length < 24 then .ok (UInt8.ofNat (0x40 + b.length) :: b)
  else if b.length < 256 then .ok (0x58 :: UInt8.ofNat b.length :: b)
  else .error .bytestringTooLong

def addressCbor (pkhHex skhHex : Bytes) : Except LockError Bytes := do
  let pkh ← bstr pkhHex
  let skh ← bstr skhHex
  let payment := constr0 [pkh]
  let stake := constr0 [constr0 [constr0 [skh]]]
  .ok (constr0 [payment, stake])

def beaconNameHex (crypto : Crypto) (pkhHex skhHex : Bytes) : Except LockError Bytes := do
  let owner ← addressCbor pkhHex skhHex
  .ok (bytesToHex (crypto.blake2b256 owner))

def vaultDatumCborHex (pkhHex skhHex : Bytes) : Except LockError Bytes := do
  let owner ← addressCbor pkhHex skhHex
  .ok (bytesToHex (constr0 [owner]))

def mintRedeemerCborHex (pkhHex skhHex : Bytes) : Except LockError Bytes := do
  let owner ← addressCbor pkhHex skhHex
  .ok (bytesToHex (indefList [constr0 [owner]]))

/-! ## The owner of the change address -/

inductive CredentialType
  | keyHash
  | scriptHash
deriving DecidableEq

structure CredentialPart where
  type : CredentialType
  hash : Bytes
deriving DecidableEq

structure AddressProps where
  paymentPart : Option CredentialPart
  delegationPart : Option CredentialPart
deriving DecidableEq

def credentialPart (script : Bool) (hash : Bytes) : CredentialPart :=
  ⟨if script then .scriptHash else .keyHash, bytesToHex hash⟩

/-- The parts the address library finds in an address: the low bit of the type
says what the payment hash is of, the next bit what the stake hash is of.  Only
a base address has a delegation part. -/
def getProps (address : Bytes) : Option AddressProps :=
  match address with
  | [] => none
  | header :: body =>
      let kind := header.toNat / 16
      let payment := credentialPart (kind % 2 = 1) (body.take 28)
      if kind < 4 then
        if body.length = 56 then
          some ⟨some payment, some (credentialPart (kind / 2 = 1) (body.drop 28))⟩
        else none
      else if kind < 6 then
        -- a pointer to a stake registration follows the payment part
        if 28 < body.length then some ⟨some payment, none⟩ else none
      else if kind < 8 ∨ kind = 14 ∨ kind = 15 then
        if body.length = 28 then some ⟨some payment, none⟩ else none
      else none

structure OwnerKeys where
  address : Bytes
  paymentKeyHash : Bytes
  stakeKeyHash : Bytes
deriving DecidableEq

abbrev ChainNetwork := Except String NetworkId

def assertWalletNetwork (networkLabel : NetworkId → String) (chain : ChainNetwork)
    (walletNetworkId : ℕ) : Except LockError NetworkId :=
  match chain with
  | .error reason => .error (.networkUnresolved reason)
  | .ok network =>
      if walletNetworkId ≠ network then .error (.wrongNetwork (networkLabel network))
      else .ok network

/-- The hash of the delegation part is taken whatever it is a hash of. -/
def ownerOf (address : Bytes) : Except LockError OwnerKeys :=
  match getProps address with
  | none => .error .undecodable
  | some props =>
      match props.paymentPart with
      | some ⟨.keyHash, paymentKeyHash⟩ =>
          match props.delegationPart with
          | none => .error .notStaking
          | some delegation =>
              if delegation.hash.isEmpty then .error .notStaking
              else .ok ⟨address, paymentKeyHash, delegation.hash⟩
      | _ => .error .scriptAddress

/-! ## The lock -/

structure VaultScript where
  hash : Bytes
  minLock : ℕ
  hash_hex : ∀ c ∈ hash, (hexDigit c).isSome

structure VaultInfo where
  vaultAddress : Bytes
  beacon : Bytes
  unit : Bytes
  owner : OwnerKeys

/-- A script address with a stake key: the hash of the owner's stake is passed
as a key hash. -/
def serializePlutusScript (scriptHash stakeKeyHash : Bytes) (network : NetworkId) :
    Except LockError Bytes := do
  let payment ← hexToBytes scriptHash
  let stake ← hexToBytes stakeKeyHash
  .ok (UInt8.ofNat (0x10 + network) :: (payment ++ stake))

def vaultInfoFor (crypto : Crypto) (script : VaultScript) (owner : OwnerKeys)
    (network : NetworkId) : Except LockError VaultInfo := do
  let vaultAddress ← serializePlutusScript script.hash owner.stakeKeyHash network
  let beacon ← beaconNameHex crypto owner.paymentKeyHash owner.stakeKeyHash
  .ok ⟨vaultAddress, beacon, script.hash ++ beacon, owner⟩

def isKeyHashHex (text : Bytes) : Bool :=
  decide (text.length = 56) && text.all (fun c => (hexDigit c).isSome)

def toLowerCase (text : Bytes) : Bytes :=
  text.map (fun c => if 65 ≤ c ∧ c ≤ 90 then c + 32 else c)

def preflightLock (crypto : Crypto) (minLock : ℕ) (owner : OwnerKeys) (lockLovelace : ℕ)
    (beacon : Bytes) : Except LockError Unit :=
  if !isKeyHashHex owner.paymentKeyHash then .error .badPayment
  else if !isKeyHashHex owner.stakeKeyHash then .error .badStake
  else if lockLovelace < minLock then .error (.belowFloor minLock)
  else do
    let expected ← beaconNameHex crypto owner.paymentKeyHash owner.stakeKeyHash
    if toLowerCase beacon ≠ toLowerCase expected then .error .beaconMismatch else .ok ()

inductive VaultRead
  | locked
  | none
  | unknown
deriving DecidableEq

structure Utxo where
  amount : List (Bytes × ℕ)
deriving DecidableEq

def Utxo.pureAda (u : Utxo) : Bool :=
  match u.amount with
  | [(_, quantity)] => decide (5000000 ≤ quantity)
  | _ => false

def pickCollateral (collateral utxos : List Utxo) : Except LockError Utxo :=
  match collateral.head? <|> utxos.find? Utxo.pureAda with
  | some c => .ok c
  | none => .error .noCollateral

/-- What the app reads before it locks: whether the script's code hashes to its
policy id, the policy the chain credits where that is known, the network of the
chain and of the wallet, the wallet's change address and outputs, and what the
vault address holds. -/
structure Surroundings where
  intact : Bool
  observedPolicyId : Option Bytes
  chain : ChainNetwork
  networkLabel : NetworkId → String
  walletNetworkId : ℕ
  changeAddress : Bytes
  existing : VaultRead
  utxos : List Utxo
  collateral : List Utxo

/-- The transaction that locks: one beacon minted under the policy, and one
output that holds it. -/
structure LockTx where
  policy : Bytes
  beacon : Bytes
  redeemer : Bytes
  vaultAddress : Bytes
  lovelace : ℕ
  unit : Bytes
  datum : Bytes
  collateral : Utxo
  requiredSigner : Bytes
  changeAddress : Bytes
deriving DecidableEq

def assertBlueprintIntegrity (intact : Bool) : Except LockError Unit :=
  if intact then .ok () else .error .integrity

def assertVaultPolicyMatchesChain (observedPolicyId : Option Bytes) (script : VaultScript) :
    Except LockError Unit :=
  match observedPolicyId with
  | none => .ok ()
  | some chainSays =>
      if chainSays = toLowerCase script.hash then .ok () else .error .policyMismatch

/-- A second beacon is not minted, and neither is one on a guess. -/
def assertVaultEmpty : VaultRead → Except LockError Unit
  | .unknown => .error .vaultUnknown
  | .locked => .error .alreadyLocked
  | .none => .ok ()

def assertFunded (utxos : List Utxo) : Except LockError Unit :=
  if utxos.isEmpty then .error .emptyWallet else .ok ()

def lockIntoVault (crypto : Crypto) (script : VaultScript) (around : Surroundings)
    (lockLovelace : ℕ) : Except LockError LockTx := do
  assertBlueprintIntegrity around.intact
  assertVaultPolicyMatchesChain around.observedPolicyId script
  let network ← assertWalletNetwork around.networkLabel around.chain around.walletNetworkId
  let owner ← ownerOf around.changeAddress
  let info ← vaultInfoFor crypto script owner network
  preflightLock crypto script.minLock owner lockLovelace info.beacon
  assertVaultEmpty around.existing
  assertFunded around.utxos
  let collateral ← pickCollateral around.collateral around.utxos
  let datum ← vaultDatumCborHex owner.paymentKeyHash owner.stakeKeyHash
  let redeemer ← mintRedeemerCborHex owner.paymentKeyHash owner.stakeKeyHash
  return {
    policy := script.hash
    beacon := info.beacon
    redeemer := redeemer
    vaultAddress := info.vaultAddress
    lovelace := lockLovelace
    unit := info.unit
    datum := datum
    collateral := collateral
    requiredSigner := owner.paymentKeyHash
    changeAddress := owner.address }

end CognoChain.Client
