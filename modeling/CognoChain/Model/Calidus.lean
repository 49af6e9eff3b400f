import CognoChain.Substrate.Cbor
import CognoChain.Model.Types

/-!
# Calidus registrations

A pool declares a Calidus key in a registration that its cold key signs.  The
node reads the registration from the raw metadata bytes: it captures the
payload and the witness array as byte spans, decodes the payload, and looks for
a witness of the pool's own key over the hash of the payload span.
-/

namespace CognoChain.Calidus

open Substrate Substrate.Cbor Substrate.Reader

inductive CalidusError
  | truncated
  | nonCanonical
  | trailingBytes
  | badRegistration
  | badVersion
  | badPayload
  | unsupportedValidationMethod
  | witnessInvalid
deriving DecidableEq, Repr

instance : ReadError CalidusError := ⟨.truncated, .nonCanonical⟩

abbrev Read := Reader CalidusError

structure CalidusRegistration where
  poolId : Credential
  calidusKeyHash : Credential
  nonce : ℕ
deriving DecidableEq, Repr

/-- The identity fields of a registration whose witness is not checked. -/
structure CalidusParsed where
  poolId : Credential
  calidusKeyHash : Credential
  nonce : ℕ
deriving DecidableEq, Repr

structure Payload where
  poolId : Credential
  calidusPubkey : Bytes
  nonce : ℕ
  method : ℕ
deriving DecidableEq

/-- Of a simple value or a float the head is all there is, and any is skipped. -/
def skipItem : Read Unit := Cbor.skipItem shortest (fun _ => true)

def exactBytes (n : ℕ) (error : CalidusError) : Read Bytes := do
  let b ← mapErr error (bytes n)
  require (b.length = n) error
  pure b

/-! ## The registration -/

def labelled : Read Bytes := do
  let n ← mapLen
  require (n = 1) .badRegistration
  let label ← uint
  require (label = 867) .badRegistration
  let (value, _) ← spanned skipItem
  done .badRegistration
  pure value

def stripLabelWrapper (bytes : Bytes) : Bytes :=
  match labelled bytes with
  | .ok (value, _) => value
  | .error _ => bytes

structure RegistrationFields where
  version : Option ℕ := none
  payloadSpan : Option Bytes := none
  witnessSpan : Option Bytes := none
deriving DecidableEq

def registrationField (fields : RegistrationFields) : Read RegistrationFields := do
  let key ← mapErr .badRegistration uint
  if key = 0 then do
    let version ← mapErr .badRegistration uint
    pure { fields with version := some version }
  else if key = 1 then do
    let (span, _) ← spanned skipItem
    pure { fields with payloadSpan := some span }
  else if key = 2 then do
    let (span, _) ← spanned skipItem
    pure { fields with witnessSpan := some span }
  else do
    skipItem
    pure fields

def registrationSpans : Read (Bytes × Bytes) := do
  let n ← mapLen
  let fields ← loop registrationField n {}
  done .trailingBytes
  require (fields.version = some 2) .badVersion
  let payloadBytes ← okOr .badRegistration fields.payloadSpan
  let witnessBytes ← okOr .badRegistration fields.witnessSpan
  pure (payloadBytes, witnessBytes)

/-! ## The payload -/

structure PayloadFields where
  poolId : Option Credential := none
  calidus : Option Bytes := none
  nonce : Option ℕ := none
  method : Option ℕ := none
deriving DecidableEq

def payloadField (fields : PayloadFields) : Read PayloadFields := do
  let key ← mapErr .badPayload uint
  if key = 1 then do
    let n ← mapErr .badPayload arrayLen
    require (n = 2) .badPayload
    let kind ← mapErr .badPayload uint
    require (kind = 1) .badPayload
    let pool ← exactBytes 28 .badPayload
    pure { fields with poolId := some (.ofBytes pool) }
  else if key = 3 then do
    let arr ← mapErr .badPayload arrayLen
    require (arr ≠ 0) .badPayload
    let m ← mapErr .badPayload uint
    loop (fun _ => skipItem) (arr - 1) ()
    require (m = 0 ∨ m = 2) .unsupportedValidationMethod
    pure { fields with method := some m }
  else if key = 4 then do
    let nonce ← mapErr .badPayload uint
    pure { fields with nonce := some nonce }
  else if key = 7 then do
    let calidus ← exactBytes 32 .badPayload
    pure { fields with calidus := some calidus }
  else do
    skipItem
    pure fields

def parsePayload : Read Payload := do
  let n ← mapErr .badPayload mapLen
  let fields ← loop payloadField n {}
  done .badPayload
  let poolId ← okOr .badPayload fields.poolId
  let calidusPubkey ← okOr .badPayload fields.calidus
  let nonce ← okOr .badPayload fields.nonce
  let method ← okOr .badPayload fields.method
  pure { poolId, calidusPubkey, nonce, method }

def parseAll (bytes : Bytes) : Except CalidusError (Payload × Bytes × Bytes) :=
  match registrationSpans (stripLabelWrapper bytes) with
  | .error error => .error error
  | .ok ((payloadBytes, witnessBytes), _) =>
      match parsePayload payloadBytes with
      | .error error => .error error
      | .ok (payload, _) => .ok (payload, payloadBytes, witnessBytes)

/-! ## Witnesses -/

structure WitnessFields where
  pubkey : Option Bytes := none
  sig : Option Bytes := none
deriving DecidableEq

def witnessField (fields : WitnessFields) : Read WitnessFields := do
  let key ← mapErr .badRegistration uint
  if key = 1 then do
    let pubkey ← exactBytes 32 .badRegistration
    pure { fields with pubkey := some pubkey }
  else if key = 2 then do
    let sig ← exactBytes 64 .badRegistration
    pure { fields with sig := some sig }
  else do
    skipItem
    pure fields

def parseWitness : Read (Bytes × Bytes) := do
  let n ← mapErr .badRegistration mapLen
  let fields ← loop witnessField n {}
  let pubkey ← okOr .badRegistration fields.pubkey
  let sig ← okOr .badRegistration fields.sig
  pure (pubkey, sig)

def coseKeyField (pubkey : Option Bytes) : Read (Option Bytes) := do
  let (kmt, karg) ← mapErr .badRegistration head
  if kmt = 1 ∧ karg = 1 then do
    let key ← exactBytes 32 .badRegistration
    pure (some key)
  else if kmt = 0 ∨ kmt = 1 then do
    skipItem
    pure pubkey
  else fail .badRegistration

def parseCoseKeyPubkey : Read Bytes := do
  let n ← mapErr .badRegistration mapLen
  let pubkey ← loop coseKeyField n none
  okOr .badRegistration pubkey

structure CoseSign1 where
  protectedRaw : Bytes
  payloadRaw : Bytes
  payload : Bytes
  sig : Bytes
deriving DecidableEq

def parseCoseSign1 : Read CoseSign1 := do
  let n ← mapErr .badRegistration arrayLen
  require (n = 4) .badRegistration
  let (protectedRaw, _) ← mapErr .badRegistration (bytesRaw 256)
  skipItem
  let (payloadRaw, payload) ← mapErr .badRegistration (bytesRaw 64)
  let sig ← exactBytes 64 .badRegistration
  pure { protectedRaw, payloadRaw, payload, sig }

def coseSigStructure (protectedRaw payloadRaw : Bytes) : Bytes :=
  [0x84, 0x6a] ++ ascii "Signature1" ++ protectedRaw ++ [0x40] ++ payloadRaw

structure CoseFields where
  coldPubkey : Option Bytes := none
  sigStructure : Option Bytes := none
  signature : Option Bytes := none
  payloadMatchesPreimage : Bool := false
deriving DecidableEq

def coseField (preimage : Bytes) (fields : CoseFields) : Read CoseFields := do
  let key ← mapErr .badRegistration uint
  if key = 1 then do
    let pubkey ← parseCoseKeyPubkey
    pure { fields with coldPubkey := some pubkey }
  else if key = 2 then do
    let sign1 ← parseCoseSign1
    pure { fields with
      payloadMatchesPreimage := decide (sign1.payload = preimage)
      sigStructure := some (coseSigStructure sign1.protectedRaw sign1.payloadRaw)
      signature := some sign1.sig }
  else do
    skipItem
    pure fields

section Verification

variable (crypto : Crypto) (poolId : Credential) (preimage : Bytes)

def coldKeySigned (pubkey message sig : Bytes) : Bool :=
  decide (Credential.ofBytes (crypto.blake2b224 pubkey) = poolId) &&
    crypto.verifyStrict pubkey message sig

def ed25519WitnessAuthorizes : Read Bool := do
  let (pubkey, sig) ← parseWitness
  pure (coldKeySigned crypto poolId pubkey preimage sig)

def coseFieldsAuthorize (fields : CoseFields) : Bool :=
  match fields.coldPubkey, fields.sigStructure, fields.signature with
  | some pubkey, some sigStructure, some sig =>
      fields.payloadMatchesPreimage && coldKeySigned crypto poolId pubkey sigStructure sig
  | _, _, _ => false

def coseWitnessAuthorizesOne : Read Bool := do
  let n ← mapErr .badRegistration mapLen
  let fields ← loop (coseField preimage) n {}
  pure (coseFieldsAuthorize crypto poolId fields)

def witnessAuthorizesEd25519 : Read Bool := do
  let count ← mapErr .badRegistration arrayLen
  anyOf (ed25519WitnessAuthorizes crypto poolId preimage) count

def witnessAuthorizesCose : Read Bool := do
  let count ← mapErr .badRegistration arrayLen
  anyOf (coseWitnessAuthorizesOne crypto poolId preimage) count

def witnessAuthorizes (method : ℕ) : Read Bool :=
  if method = 0 then witnessAuthorizesEd25519 crypto poolId preimage
  else if method = 2 then witnessAuthorizesCose crypto poolId preimage
  else fail .unsupportedValidationMethod

end Verification

def parseRegistration (crypto : Crypto) (bytes : Bytes) : Except CalidusError CalidusParsed :=
  match parseAll bytes with
  | .error error => .error error
  | .ok (payload, _, _) =>
      .ok
        { poolId := payload.poolId
          calidusKeyHash := .ofBytes (crypto.blake2b224 payload.calidusPubkey)
          nonce := payload.nonce }

def verifyRegistration (crypto : Crypto) (bytes : Bytes) :
    Except CalidusError CalidusRegistration :=
  match parseAll bytes with
  | .error error => .error error
  | .ok (payload, payloadBytes, witnessBytes) =>
      match witnessAuthorizes crypto payload.poolId (crypto.blake2b256 payloadBytes)
          payload.method witnessBytes with
      | .error error => .error error
      | .ok (false, _) => .error .witnessInvalid
      | .ok (true, _) =>
          .ok
            { poolId := payload.poolId
              calidusKeyHash := .ofBytes (crypto.blake2b224 payload.calidusPubkey)
              nonce := payload.nonce }

end CognoChain.Calidus
