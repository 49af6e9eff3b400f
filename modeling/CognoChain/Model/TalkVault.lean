import CognoChain.Model.Types

/-!
# The vault script

The validator on Cardano that parks a user's ADA next to a beacon token.  One
script is both the policy of the beacons and the lock of the vaults: the mint
handler checks every beacon made or burned, the spend handler every vault
spent.  A handler that traps and one that returns false both reject the
transaction, so both are false here.  Plutus data is told apart only by whether
it is a vault datum.
-/

namespace CognoChain.TalkVault

open Substrate

theorem leVal_concat (bytes : Bytes) (b : UInt8) :
    leVal (bytes ++ [b]) = leVal bytes + 256 ^ bytes.length * b.toNat := by
  induction bytes with
  | nil => simp [leVal]
  | cons first bytes ih =>
    rw [List.cons_append, leVal, leVal, ih, List.length_cons, pow_succ]
    ring

instance : StorageKey Bytes where
  -- the closing byte keeps the length
  enc bytes := leVal (bytes ++ [1])
  enc_injective := by
    intro bytes bytes' h
    have hbytes : leVal bytes + 256 ^ bytes.length = leVal bytes' + 256 ^ bytes'.length := by
      simpa [leVal_concat] using h
    have hlt := leVal_lt bytes
    have hlt' := leVal_lt bytes'
    have hlength : bytes.length = bytes'.length := by
      rcases Nat.lt_trichotomy bytes.length bytes'.length with hless | hsame | hmore
      · have hpow : 256 * 256 ^ bytes.length ≤ 256 ^ bytes'.length := by
          rw [← pow_succ']
          exact Nat.pow_le_pow_right (by norm_num) hless
        omega
      · exact hsame
      · have hpow : 256 * 256 ^ bytes'.length ≤ 256 ^ bytes.length := by
          rw [← pow_succ']
          exact Nat.pow_le_pow_right (by norm_num) hmore
        omega
    have hval : leVal bytes = leVal bytes' := by
      rw [hlength] at hbytes
      omega
    rw [← leBytes_leVal bytes, ← leBytes_leVal bytes', hlength, hval]

/-! ## Transactions -/

abbrev PolicyId := Bytes
abbrev AssetName := Bytes

inductive Credential
  | verificationKey (hash : Bytes)
  | script (hash : Bytes)
deriving DecidableEq

inductive Referenced
  | inline (credential : Credential)
  | pointer (slotNumber transactionIndex certificateIndex : ℕ)
deriving DecidableEq

structure Address where
  paymentCredential : Credential
  stakeCredential : Option Referenced
deriving DecidableEq

/-- A dictionary of dictionaries: quantities by policy and asset name. -/
abbrev Value := StorageMap PolicyId (StorageMap AssetName ℤ)

inductive Data
  | vaultDatum (owner : Address)
  | other (raw : Bytes)
deriving DecidableEq

inductive Datum
  | noDatum
  | datumHash (hash : Bytes)
  | inlineDatum (data : Data)
deriving DecidableEq

structure Output where
  address : Address
  value : Value
  datum : Datum
  referenceScript : Option Bytes
deriving DecidableEq

abbrev OutputReference := Bytes × ℕ

structure Input where
  outputReference : OutputReference
  output : Output
deriving DecidableEq

structure Transaction where
  inputs : List Input
  outputs : List Output
  mint : Value
  extraSignatories : List Bytes
deriving DecidableEq

/-! ## Values -/

def adaPolicyId : PolicyId := []

def adaAssetName : AssetName := []

def tokens (value : Value) (policy : PolicyId) : StorageMap AssetName ℤ := value.getD policy ∅

def quantityOf (value : Value) (policy : PolicyId) (name : AssetName) : ℤ :=
  (tokens value policy).getD name 0

def lovelaceOf (value : Value) : ℤ := quantityOf value adaPolicyId adaAssetName

def policies (value : Value) : List PolicyId := value.keys

def withoutLovelace (value : Value) : Value := value.remove adaPolicyId

/-! ## The script -/

inductive MintTypeRedeemer
  | mint (owner : Address)
  | burn (name : AssetName)
deriving DecidableEq

abbrev MintRedeemer := List MintTypeRedeemer

/-- The script applied to its floor.  The name of a beacon is a hash of the
owner's serialised address. -/
structure Script where
  minLock : ℤ
  beaconName : Address → AssetName

def searchForOutputByToken (policy : PolicyId) (name : AssetName) : List Output → Option Output
  | [] => none
  | output :: rest =>
      if quantityOf output.value policy name = 1 then some output
      else searchForOutputByToken policy name rest

namespace Script

/-- What a freshly minted beacon asks of the output that holds it. -/
def mintedInto (script : Script) (owner : Address) (policy : PolicyId) (output : Output) : Bool :=
  match output.address.paymentCredential, output.datum with
  | .script outputHash, .inlineDatum (.vaultDatum datumOwner) =>
      decide (outputHash = policy) &&
        decide (output.address.stakeCredential = owner.stakeCredential) &&
        output.referenceScript.isNone &&
        decide ((policies output.value).length = 2) &&
        decide (script.minLock ≤ lovelaceOf output.value) &&
        decide (datumOwner = owner)
  | _, _ => false

def validMint (script : Script) (mint : Value) (policy : PolicyId) (outputs : List Output)
    (extraSignatories : List Bytes) : MintTypeRedeemer → Bool
  | .mint owner =>
      let tokenName := script.beaconName owner
      match owner.paymentCredential, searchForOutputByToken policy tokenName outputs with
      | .verificationKey ownerVkh, some output =>
          script.mintedInto owner policy output &&
            decide (ownerVkh ∈ extraSignatories) &&
            decide (quantityOf mint policy tokenName = 1)
      | _, _ => false
  | .burn name => decide (quantityOf mint policy name = -1)

def mintValidation (script : Script) (mint : Value) (policy : PolicyId) (outputs : List Output)
    (extraSignatories : List Bytes) : MintRedeemer → Bool
  | [] => true
  | mintType :: rest =>
      script.validMint mint policy outputs extraSignatories mintType &&
        script.mintValidation mint policy outputs extraSignatories rest

def mintLengthAndUniqueness (mint : Value) (redeemer : MintRedeemer) (policy : PolicyId) : Bool :=
  decide ((tokens mint policy).entries.length = redeemer.length) &&
    decide (redeemer.eraseDups = redeemer)

def mint (script : Script) (redeemer : MintRedeemer) (policy : PolicyId) (self : Transaction) :
    Bool :=
  script.mintValidation self.mint policy self.outputs self.extraSignatories redeemer &&
    mintLengthAndUniqueness self.mint redeemer policy

end Script

def findInput (inputs : List Input) (utxo : OutputReference) : Option Input :=
  inputs.find? (fun input => decide (input.outputReference = utxo))

def findScriptOutputs (outputs : List Output) (hash : Bytes) : List Output :=
  outputs.filter (fun output => decide (output.address.paymentCredential = .script hash))

def ownInputCount (inputs : List Input) (hash : Bytes) : ℕ :=
  inputs.countP (fun input => decide (input.output.address.paymentCredential = .script hash))

namespace Script

/-- An exit burns the beacon, a top-up keeps everything and may add ADA. -/
def continuationOk (script : Script) (owner : Address) (thisHash : Bytes) (thisInput : Input)
    (self : Transaction) : Bool :=
  let inValue := thisInput.output.value
  let beacon := script.beaconName owner
  match findScriptOutputs self.outputs thisHash with
  | [] =>
      decide (quantityOf self.mint thisHash beacon = -1) &&
        self.outputs.all (fun output => decide (quantityOf output.value thisHash beacon = 0))
  | [cont] =>
      decide (script.minLock ≤ lovelaceOf cont.value) &&
        decide (lovelaceOf inValue ≤ lovelaceOf cont.value) &&
        decide (quantityOf cont.value thisHash beacon = 1) &&
        decide (withoutLovelace cont.value = withoutLovelace inValue) &&
        decide (cont.address.stakeCredential = owner.stakeCredential) &&
        cont.referenceScript.isNone &&
        decide (cont.datum = thisInput.output.datum)
  | _ => false

/-- A missing datum or one of another type leaves the output to anyone. -/
def spend (script : Script) (maybeDatum : Option Data) (utxo : OutputReference)
    (self : Transaction) : Bool :=
  match maybeDatum with
  | some (.vaultDatum owner) =>
      match findInput self.inputs utxo with
      | none => false
      | some thisInput =>
          match thisInput.output.address.paymentCredential, owner.paymentCredential with
          | .script thisHash, .verificationKey ownerVkh =>
              decide (ownInputCount self.inputs thisHash = 1) &&
                decide (ownerVkh ∈ self.extraSignatories) &&
                script.continuationOk owner thisHash thisInput self
          | _, _ => false
  | _ => true

end Script

end CognoChain.TalkVault
