import CognoChain.Substrate.Cbor
import CognoChain.Model.Types

/-!
# Self-proofs

A wallet signs a payload that names a chain and an account.  The verifiers read
the signed message and the key from raw bytes with a strict CBOR reader, check
the signature over the bytes as they came, tie the key to a Cardano address and
read the payload by its fixed grammar.  An offset into a buffer is modelled by
what is left of it.
-/

namespace CognoChain.Cip8

open Substrate Substrate.Cbor Substrate.Reader

inductive Cip8Error
  | truncated
  | nonCanonical
  | trailingBytes
  | badCose
  | hashedPayload
  | badProtected
  | badKey
  | keyMismatch
  | signatureInvalid
  | badAddress
  | unsupportedAddressType
  | wrongNetwork
  | addressKeyMismatch
  | badPayload
  | badRolePayload
deriving DecidableEq, Repr

instance : ReadError Cip8Error := ⟨.truncated, .nonCanonical⟩

abbrev Read := Reader Cip8Error

abbrev NetworkId := ℕ

/-! ## The signed message -/

structure CoseSign1 where
  protectedRaw : Bytes
  protectedContent : Bytes
  payloadRaw : Bytes
  payloadContent : Bytes
  signature : Bytes
deriving DecidableEq

def parseUnprotected : Read Unit := do
  let n ← mapLen
  if n = 0 then pure ()
  else do
    require (n = 1) .badCose
    let key ← text 16
    require (key = ascii "hashed") .badCose
    let value ← byte
    if value = 0xf4 then pure ()
    else if value = 0xf5 then fail .hashedPayload
    else fail .badCose

def parseCoseSign1 : Read CoseSign1 := do
  let n ← arrayLen
  require (n = 4) .badCose
  let (protectedRaw, protectedContent) ← bytesRaw 256
  parseUnprotected
  let (payloadRaw, payloadContent) ← bytesRaw 256
  let signature ← bytes 64
  require (signature.length = 64) .badCose
  done .trailingBytes
  pure { protectedRaw, protectedContent, payloadRaw, payloadContent, signature }

structure ProtectedFields where
  algSeen : Bool := false
  kid : Option Bytes := none
  address : Option Bytes := none
deriving DecidableEq

def protectedField (fields : ProtectedFields) : Read ProtectedFields := do
  let (kmt, karg) ← head
  if kmt = 0 ∧ karg = 1 then do
    require (fields.algSeen = false) .badProtected
    let (vmt, varg) ← head
    require (vmt = 1 ∧ varg = 7) .badProtected
    pure { fields with algSeen := true }
  else if kmt = 0 ∧ karg = 4 then do
    require (fields.kid = none) .badProtected
    let kid ← bytes 64
    pure { fields with kid := some kid }
  else if kmt = 3 ∧ karg = 7 then do
    let key ← take 7
    require (key = ascii "address") .badProtected
    require (fields.address = none) .badProtected
    let address ← bytes 128
    pure { fields with address := some address }
  else fail .badProtected

def parseProtected : Read (Option Bytes × Bytes) := do
  let n ← mapLen
  let fields ← loop protectedField n {}
  done .trailingBytes
  require (fields.algSeen = true) .badProtected
  let address ← okOr .badProtected fields.address
  pure (fields.kid, address)

structure KeyFields where
  ktyOk : Bool := false
  crvOk : Bool := false
  x : Option Bytes := none
deriving DecidableEq

/-- One field of the key.  Here a label may come again. -/
def coseKeyField (fields : KeyFields) : Read KeyFields := do
  let (kmt, karg) ← head
  if kmt = 0 ∧ karg = 1 then do
    let kty ← uint
    require (kty = 1) .badKey
    pure { fields with ktyOk := true }
  else if kmt = 0 ∧ karg = 3 then do
    let (vmt, varg) ← head
    require (vmt = 1 ∧ varg = 7) .badKey
    pure fields
  else if kmt = 1 ∧ karg = 0 then do
    let crv ← uint
    require (crv = 6) .badKey
    pure { fields with crvOk := true }
  else if kmt = 1 ∧ karg = 1 then do
    let x ← bytes 64
    require (x.length = 32) .badKey
    pure { fields with x := some x }
  else fail .badKey

def parseCoseKey : Read Bytes := do
  let n ← mapLen
  let fields ← loop coseKeyField n {}
  done .trailingBytes
  require (fields.ktyOk = true ∧ fields.crvOk = true) .badKey
  okOr .badKey fields.x

/-- What the signature covers, the two elements spliced in as they came. -/
def sigStructure (protectedRaw payloadRaw : Bytes) : Bytes :=
  [0x84, 0x6a] ++ ascii "Signature1" ++ protectedRaw ++ [0x40] ++ payloadRaw

/-! ## Addresses -/

inductive Stake
  | none
  | keyHash (hash : Bytes)
  | scriptHash (hash : Bytes)
deriving DecidableEq

def slice (s : Bytes) (start stop : ℕ) : Option Bytes :=
  if stop ≤ s.length then some ((s.take stop).drop start) else none

def orBadAddress (part : Option Bytes) : Except Cip8Error Bytes :=
  part.elim (.error .badAddress) .ok

def parseBaseAddress (addr : Bytes) (stakeOf : Bytes → Stake) :
    Except Cip8Error (Bytes × Stake) := do
  let payment ← orBadAddress (slice addr 1 29)
  let stake ← orBadAddress (slice addr 29 57)
  if addr.length ≠ 57 then .error .badAddress else .ok (payment, stakeOf stake)

def parseEnterpriseAddress (addr : Bytes) : Except Cip8Error (Bytes × Stake) := do
  let payment ← orBadAddress (slice addr 1 29)
  if addr.length ≠ 29 then .error .badAddress else .ok (payment, .none)

def parseAddress (addr : Bytes) (expectedNetwork : NetworkId) :
    Except Cip8Error (Bytes × Stake) :=
  match addr with
  | [] => .error .badAddress
  | header :: _ =>
      if header.toNat % 16 ≠ expectedNetwork then .error .wrongNetwork
      else if header.toNat / 16 = 0b0000 then parseBaseAddress addr .keyHash
      else if header.toNat / 16 = 0b0010 then parseBaseAddress addr .scriptHash
      else if header.toNat / 16 = 0b0110 then parseEnterpriseAddress addr
      else .error .unsupportedAddressType

def parseStakeOnly (addr : Bytes) : Except Cip8Error Bytes := do
  let stake ← orBadAddress (slice addr 1 29)
  if addr.length ≠ 29 then .error .badAddress else .ok stake

def parseRewardAddress (addr : Bytes) (expectedNetwork : NetworkId) : Except Cip8Error Bytes :=
  match addr with
  | [] => .error .badAddress
  | header :: _ =>
      if header.toNat % 16 ≠ expectedNetwork then .error .wrongNetwork
      else if header.toNat / 16 = 0b1110 then parseStakeOnly addr
      else .error .unsupportedAddressType

def constrOpen (ix : UInt8) : Bytes := [0xd8, 0x79 + ix, 0x9f]

def close : Bytes := [0xff]

def hash28 (h : Bytes) : Bytes := [0x58, 0x1c] ++ h

def credential (ix : UInt8) (h : Bytes) : Bytes := constrOpen ix ++ hash28 h ++ close

def plutusAddressCbor (paymentVkh : Bytes) (stake : Stake) : Bytes :=
  constrOpen 0 ++ credential 0 paymentVkh ++
    (match stake with
      | .none => constrOpen 1 ++ close
      | .keyHash h => constrOpen 0 ++ constrOpen 0 ++ credential 0 h ++ close ++ close
      | .scriptHash h => constrOpen 0 ++ constrOpen 0 ++ credential 1 h ++ close ++ close) ++
    close

/-! ## The payload -/

def hexDigit (c : UInt8) : Option UInt8 :=
  if 0x30 ≤ c ∧ c ≤ 0x39 then some (c - 0x30)
  else if 0x61 ≤ c ∧ c ≤ 0x66 then some (c - 0x61 + 10)
  else none

/-- One character: the high half waits for the low half. -/
def hexStep (acc : Option UInt8 × Bytes) (c : UInt8) : Option (Option UInt8 × Bytes) :=
  match hexDigit c, acc.1 with
  | none, _ => none
  | some v, none => some (some v, acc.2)
  | some v, some h => some (none, acc.2 ++ [h <<< 4 ||| v])

def takeHex (nbytes : ℕ) : Read Bytes := do
  let chars ← mapErr .badPayload (take (nbytes * 2))
  okOr .badPayload ((chars.foldlM hexStep (none, [])).map Prod.snd)

def expect (lit : Bytes) : Read Unit := do
  let chars ← mapErr .badPayload (take lit.length)
  require (chars = lit) .badPayload

def payloadFields (domain : Bytes) : Read (Bytes × Bytes × Bytes) := do
  expect domain
  let genesis ← takeHex 32
  expect (ascii ";account=")
  let account ← takeHex 32
  expect (ascii ";nonce=")
  let nonce ← takeHex 16
  pure (genesis, account, nonce)

def parsePayload : Read (Bytes × Bytes × Bytes) := do
  let fields ← payloadFields (ascii "cogno-chain/bind/v1;genesis=")
  done .badPayload
  pure fields

inductive RoleClass
  | spo
  | dRep
  | committee
deriving DecidableEq, Repr

def roleToken : RoleClass → Bytes
  | .spo => ascii "spo"
  | .dRep => ascii "drep"
  | .committee => ascii "cc"

structure RolePayload where
  genesis : Bytes
  account : Bytes
  nonce : Bytes
  role : RoleClass
deriving DecidableEq

def roleOfToken (token : Bytes) : Option RoleClass :=
  if token = roleToken .spo then some .spo
  else if token = roleToken .dRep then some .dRep
  else if token = roleToken .committee then some .committee
  else none

/-- Every fault of a role payload is reported as one. -/
def parseRolePayload : Read RolePayload := mapErr .badRolePayload do
  let (genesis, account, nonce) ← payloadFields (ascii "cogno-chain/role/v1;genesis=")
  expect (ascii ";role=")
  let token ← remainder
  let role ← okOr .badRolePayload (roleOfToken token)
  pure { genesis, account, nonce, role }

/-! ## The verifiers -/

structure VerifiedProof where
  identity : Bytes
  account : Bytes
  genesis : Bytes
deriving DecidableEq, Repr

/-- What a checked signature leaves to the rest of a verifier. -/
structure Signed where
  pubkey : Bytes
  address : Bytes
  payload : Bytes
deriving DecidableEq

/-- The part the verifiers share: the key of the signed message is the one key
there is, and it signed the message. -/
def verifySigned (crypto : Crypto) (coseSign1 coseKey : Bytes) : Except Cip8Error Signed := do
  let cose ← parseCoseSign1.parse coseSign1
  let pubkey ← parseCoseKey.parse coseKey
  let (kid, address) ← parseProtected.parse cose.protectedContent
  if kid.any (fun kid => decide (kid ≠ pubkey)) then .error .keyMismatch
  else if crypto.ed25519Verify cose.signature
      (sigStructure cose.protectedRaw cose.payloadRaw) pubkey then
    .ok { pubkey, address, payload := cose.payloadContent }
  else .error .signatureInvalid

def verifyBindProof (crypto : Crypto) (coseSign1 coseKey : Bytes) (expectedNetwork : NetworkId) :
    Except Cip8Error VerifiedProof := do
  let signed ← verifySigned crypto coseSign1 coseKey
  let (paymentVkh, stake) ← parseAddress signed.address expectedNetwork
  if crypto.blake2b224 signed.pubkey ≠ paymentVkh then .error .addressKeyMismatch
  else do
    let identity := crypto.blake2b256 (plutusAddressCbor paymentVkh stake)
    let (genesis, account, _) ← parsePayload.parse signed.payload
    .ok { identity, account, genesis }

structure VerifiedStakeProof where
  stakeCredential : Bytes
  account : Bytes
  genesis : Bytes
  nonce : Bytes
deriving DecidableEq, Repr

def verifyBindProofStake (crypto : Crypto) (coseSign1 coseKey : Bytes)
    (expectedNetwork : NetworkId) : Except Cip8Error VerifiedStakeProof := do
  let signed ← verifySigned crypto coseSign1 coseKey
  let stakeCred ← parseRewardAddress signed.address expectedNetwork
  if crypto.blake2b224 signed.pubkey ≠ stakeCred then .error .addressKeyMismatch
  else do
    let (genesis, account, nonce) ← parsePayload.parse signed.payload
    .ok { stakeCredential := stakeCred, account, genesis, nonce }

structure VerifiedRoleProof where
  role : RoleClass
  credential : Bytes
  account : Bytes
  genesis : Bytes
  nonce : Bytes
deriving DecidableEq, Repr

/-- A bare credential stands for itself; any other address is read as an
owner's. -/
def roleCredential (address : Bytes) (expectedNetwork : NetworkId) : Except Cip8Error Bytes :=
  if address.length = 28 then .ok address
  else do
    let (vkh, _) ← parseAddress address expectedNetwork
    .ok vkh

def verifyBindProofRole (crypto : Crypto) (coseSign1 coseKey : Bytes)
    (expectedNetwork : NetworkId) : Except Cip8Error VerifiedRoleProof := do
  let signed ← verifySigned crypto coseSign1 coseKey
  let paymentVkh ← roleCredential signed.address expectedNetwork
  if crypto.blake2b224 signed.pubkey ≠ paymentVkh then .error .addressKeyMismatch
  else do
    let parsed ← parseRolePayload.parse signed.payload
    .ok
      { role := parsed.role
        credential := paymentVkh
        account := parsed.account
        genesis := parsed.genesis
        nonce := parsed.nonce }

end CognoChain.Cip8
