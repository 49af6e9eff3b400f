import CognoChain.Substrate.Metered
import CognoChain.Read.Calidus

/-!
# The work of reading a Calidus registration

The readers of a registration are written out once more over metered readers,
from which the readers of the model come back when the counts are forgotten.
Each pass over the bytes then begins no more heads than the bytes it is given,
and every pass is given the registration or a part of it.  A registration that
stands under its label is read as the bare value is.
-/

namespace CognoChain.Calidus

open Substrate Substrate.Cbor

namespace Counted

open Metered

abbrev Count := Metered CalidusError

def skipItem : Count Unit := Metered.skipItem shortest (fun _ => true)

def exactBytes (n : ℕ) (error : CalidusError) : Count Bytes := do
  let b ← mapErr error (bytes n)
  require (b.length = n) error
  pure b

def labelled : Count Bytes := do
  let n ← mapLen
  require (n = 1) .badRegistration
  let label ← uint
  require (label = 867) .badRegistration
  let (value, _) ← spanned skipItem
  done .badRegistration
  pure value

def registrationField (fields : RegistrationFields) : Count RegistrationFields := do
  let key ← mapErr .badRegistration uint
  if key = 0 then do
    let version ← mapErr .badRegistration uint
    pure { fields with version := some version }
  else if key = 1 then do
    let (span, _) ← spanned skipItem
    pure { fields with payloadSpan := some span }
  else if key = 2 then do
    let (span, _) ← spanned skipItem
    pure { fields with witnessSpan := some span }
  else do
    skipItem
    pure fields

def registrationSpans : Count (Bytes × Bytes) := do
  let n ← mapLen
  let fields ← loop registrationField n {}
  done .trailingBytes
  require (fields.version = some 2) .badVersion
  let payloadBytes ← okOr .badRegistration fields.payloadSpan
  let witnessBytes ← okOr .badRegistration fields.witnessSpan
  pure (payloadBytes, witnessBytes)

def payloadField (fields : PayloadFields) : Count PayloadFields := do
  let key ← mapErr .badPayload uint
  if key = 1 then do
    let n ← mapErr .badPayload arrayLen
    require (n = 2) .badPayload
    let kind ← mapErr .badPayload uint
    require (kind = 1) .badPayload
    let pool ← exactBytes 28 .badPayload
    pure { fields with poolId := some (.ofBytes pool) }
  else if key = 3 then do
    let arr ← mapErr .badPayload arrayLen
    require (arr ≠ 0) .badPayload
    let m ← mapErr .badPayload uint
    loop (fun _ => skipItem) (arr - 1) ()
    require (m = 0 ∨ m = 2) .unsupportedValidationMethod
    pure { fields with method := some m }
  else if key = 4 then do
    let nonce ← mapErr .badPayload uint
    pure { fields with nonce := some nonce }
  else if key = 7 then do
    let calidus ← exactBytes 32 .badPayload
    pure { fields with calidus := some calidus }
  else do
    skipItem
    pure fields

def parsePayload : Count Payload := do
  let n ← mapErr .badPayload mapLen
  let fields ← loop payloadField n {}
  done .badPayload
  let poolId ← okOr .badPayload fields.poolId
  let calidusPubkey ← okOr .badPayload fields.calidus
  let nonce ← okOr .badPayload fields.nonce
  let method ← okOr .badPayload fields.method
  pure { poolId, calidusPubkey, nonce, method }

def witnessField (fields : WitnessFields) : Count WitnessFields := do
  let key ← mapErr .badRegistration uint
  if key = 1 then do
    let pubkey ← exactBytes 32 .badRegistration
    pure { fields with pubkey := some pubkey }
  else if key = 2 then do
    let sig ← exactBytes 64 .badRegistration
    pure { fields with sig := some sig }
  else do
    skipItem
    pure fields

def parseWitness : Count (Bytes × Bytes) := do
  let n ← mapErr .badRegistration mapLen
  let fields ← loop witnessField n {}
  let pubkey ← okOr .badRegistration fields.pubkey
  let sig ← okOr .badRegistration fields.sig
  pure (pubkey, sig)

def coseKeyField (pubkey : Option Bytes) : Count (Option Bytes) := do
  let (kmt, karg) ← mapErr .badRegistration head
  if kmt = 1 ∧ karg = 1 then do
    let key ← exactBytes 32 .badRegistration
    pure (some key)
  else if kmt = 0 ∨ kmt = 1 then do
    skipItem
    pure pubkey
  else fail .badRegistration

def parseCoseKeyPubkey : Count Bytes := do
  let n ← mapErr .badRegistration mapLen
  let pubkey ← loop coseKeyField n none
  okOr .badRegistration pubkey

def parseCoseSign1 : Count CoseSign1 := do
  let n ← mapErr .badRegistration arrayLen
  require (n = 4) .badRegistration
  let (protectedRaw, _) ← mapErr .badRegistration (bytesRaw 256)
  skipItem
  let (payloadRaw, payload) ← mapErr .badRegistration (bytesRaw 64)
  let sig ← exactBytes 64 .badRegistration
  pure { protectedRaw, payloadRaw, payload, sig }

def coseField (preimage : Bytes) (fields : CoseFields) : Count CoseFields := do
  let key ← mapErr .badRegistration uint
  if key = 1 then do
    let pubkey ← parseCoseKeyPubkey
    pure { fields with coldPubkey := some pubkey }
  else if key = 2 then do
    let sign1 ← parseCoseSign1
    pure { fields with
      payloadMatchesPreimage := decide (sign1.payload = preimage)
      sigStructure := some (coseSigStructure sign1.protectedRaw sign1.payloadRaw)
      signature := some sign1.sig }
  else do
    skipItem
    pure fields

section Verification

variable (crypto : Crypto) (poolId : Credential) (preimage : Bytes)

def ed25519WitnessAuthorizes : Count Bool := do
  let (pubkey, sig) ← parseWitness
  pure (coldKeySigned crypto poolId pubkey preimage sig)

def coseWitnessAuthorizesOne : Count Bool := do
  let n ← mapErr .badRegistration mapLen
  let fields ← loop (coseField preimage) n {}
  pure (coseFieldsAuthorize crypto poolId fields)

def witnessAuthorizesEd25519 : Count Bool := do
  let count ← mapErr .badRegistration arrayLen
  anyOf (ed25519WitnessAuthorizes crypto poolId preimage) count

def witnessAuthorizesCose : Count Bool := do
  let count ← mapErr .badRegistration arrayLen
  anyOf (coseWitnessAuthorizesOne crypto poolId preimage) count

def witnessAuthorizes (method : ℕ) : Count Bool :=
  if method = 0 then witnessAuthorizesEd25519 crypto poolId preimage
  else if method = 2 then witnessAuthorizesCose crypto poolId preimage
  else fail .unsupportedValidationMethod

end Verification

/-! ## Forgetting the counts -/

section Erasure

theorem read_uint (error : CalidusError) :
    (mapErr error uint).read = Reader.mapErr error Cbor.uint := read_mapErr (read_typedHead 0)

theorem read_arrayLen (error : CalidusError) :
    (mapErr error arrayLen).read = Reader.mapErr error Cbor.arrayLen :=
  read_mapErr (read_typedHead 4)

theorem read_mapLen (error : CalidusError) :
    (mapErr error mapLen).read = Reader.mapErr error Cbor.mapLen := read_mapErr (read_typedHead 5)

theorem read_bytesRaw (error : CalidusError) (max : ℕ) :
    (mapErr error (bytesRaw max)).read = Reader.mapErr error (Cbor.bytesRaw max) :=
  read_mapErr (read_spanned (read_bytes max))

theorem read_skipItem : skipItem.read = Calidus.skipItem := Metered.read_skipItem _ _

theorem read_exactBytes (n : ℕ) (error : CalidusError) :
    (exactBytes n error).read = Calidus.exactBytes n error :=
  read_bind (read_mapErr (read_bytes n)) fun _ => read_bind rfl fun _ => rfl

theorem read_skipped {α : Type} (a : α) :
    (skipItem >>= fun _ => pure a).read = Calidus.skipItem >>= fun _ => pure a :=
  read_bind read_skipItem fun _ => rfl

theorem read_labelled : labelled.read = Calidus.labelled :=
  read_bind (read_typedHead 5) fun _ => read_bind rfl fun _ => read_bind (read_typedHead 0) fun _ =>
    read_bind rfl fun _ => read_bind (read_spanned read_skipItem) fun _ => read_bind rfl fun _ => rfl

theorem read_registrationField (fields : RegistrationFields) :
    (registrationField fields).read = Calidus.registrationField fields := by
  refine read_bind (read_uint _) fun key => read_ite ?_ (read_ite ?_ (read_ite ?_ ?_))
  · exact read_bind (read_uint _) fun _ => rfl
  · exact read_bind (read_spanned read_skipItem) fun _ => rfl
  · exact read_bind (read_spanned read_skipItem) fun _ => rfl
  · exact read_skipped fields

theorem read_registrationSpans : registrationSpans.read = Calidus.registrationSpans :=
  read_bind (read_typedHead 5) fun n => read_bind (read_loop read_registrationField n {}) fun _ =>
    read_bind rfl fun _ => read_bind rfl fun _ => read_bind rfl fun _ => read_bind rfl fun _ => rfl

theorem read_payloadField (fields : PayloadFields) :
    (payloadField fields).read = Calidus.payloadField fields := by
  refine read_bind (read_uint _) fun key => read_ite ?_ (read_ite ?_ (read_ite ?_ (read_ite ?_ ?_)))
  · exact read_bind (read_arrayLen _) fun _ => read_bind rfl fun _ => read_bind (read_uint _) fun _ =>
      read_bind rfl fun _ => read_bind (read_exactBytes 28 _) fun _ => rfl
  · exact read_bind (read_arrayLen _) fun arr => read_bind rfl fun _ =>
      read_bind (read_uint _) fun _ =>
        read_bind (read_loop (fun _ => read_skipItem) (arr - 1) ()) fun _ =>
          read_bind rfl fun _ => rfl
  · exact read_bind (read_uint _) fun _ => rfl
  · exact read_bind (read_exactBytes 32 _) fun _ => rfl
  · exact read_skipped fields

theorem read_parsePayload : parsePayload.read = Calidus.parsePayload :=
  read_bind (read_mapLen _) fun n => read_bind (read_loop read_payloadField n {}) fun _ =>
    read_bind rfl fun _ => read_bind rfl fun _ => read_bind rfl fun _ => read_bind rfl fun _ =>
      read_bind rfl fun _ => rfl

theorem read_witnessField (fields : WitnessFields) :
    (witnessField fields).read = Calidus.witnessField fields := by
  refine read_bind (read_uint _) fun key => read_ite ?_ (read_ite ?_ ?_)
  · exact read_bind (read_exactBytes 32 _) fun _ => rfl
  · exact read_bind (read_exactBytes 64 _) fun _ => rfl
  · exact read_skipped fields

theorem read_parseWitness : parseWitness.read = Calidus.parseWitness :=
  read_bind (read_mapLen _) fun n => read_bind (read_loop read_witnessField n {}) fun _ =>
    read_bind rfl fun _ => read_bind rfl fun _ => rfl

theorem read_coseKeyField (pubkey : Option Bytes) :
    (coseKeyField pubkey).read = Calidus.coseKeyField pubkey := by
  refine read_bind rfl fun key => read_ite ?_ (read_ite ?_ rfl)
  · exact read_bind (read_exactBytes 32 _) fun _ => rfl
  · exact read_skipped pubkey

theorem read_parseCoseKeyPubkey : parseCoseKeyPubkey.read = Calidus.parseCoseKeyPubkey :=
  read_bind (read_mapLen _) fun n => read_bind (read_loop read_coseKeyField n none) fun _ => rfl

theorem read_parseCoseSign1 : parseCoseSign1.read = Calidus.parseCoseSign1 :=
  read_bind (read_arrayLen _) fun _ => read_bind rfl fun _ => read_bind (read_bytesRaw _ 256) fun _ =>
    read_bind read_skipItem fun _ => read_bind (read_bytesRaw _ 64) fun _ =>
      read_bind (read_exactBytes 64 _) fun _ => rfl

theorem read_coseField (preimage : Bytes) (fields : CoseFields) :
    (coseField preimage fields).read = Calidus.coseField preimage fields := by
  refine read_bind (read_uint _) fun key => read_ite ?_ (read_ite ?_ ?_)
  · exact read_bind read_parseCoseKeyPubkey fun _ => rfl
  · exact read_bind read_parseCoseSign1 fun _ => rfl
  · exact read_skipped fields

variable (crypto : Crypto) (poolId : Credential) (preimage : Bytes)

theorem read_ed25519WitnessAuthorizes :
    (ed25519WitnessAuthorizes crypto poolId preimage).read =
      Calidus.ed25519WitnessAuthorizes crypto poolId preimage :=
  read_bind read_parseWitness fun _ => rfl

theorem read_coseWitnessAuthorizesOne :
    (coseWitnessAuthorizesOne crypto poolId preimage).read =
      Calidus.coseWitnessAuthorizesOne crypto poolId preimage :=
  read_bind (read_mapLen _) fun n => read_bind (read_loop (read_coseField preimage) n {}) fun _ => rfl

theorem read_witnessAuthorizes (method : ℕ) :
    (witnessAuthorizes crypto poolId preimage method).read =
      Calidus.witnessAuthorizes crypto poolId preimage method := by
  refine read_ite ?_ (read_ite ?_ rfl)
  · exact read_bind (read_arrayLen _) fun count =>
      read_anyOf (read_ed25519WitnessAuthorizes crypto poolId preimage) count
  · exact read_bind (read_arrayLen _) fun count =>
      read_anyOf (read_coseWitnessAuthorizesOne crypto poolId preimage) count

end Erasure

/-! ## The passes -/

/-- What a run gives, and the heads each of its passes begins. -/
structure Worked (α : Type) where
  result : Except CalidusError α
  passes : List ℕ

def parseAll (bytes : Bytes) : Worked (Payload × Bytes × Bytes) :=
  let value :=
    match labelled.read bytes with
    | .ok (value, _) => value
    | .error _ => bytes
  let passes := [labelled.heads bytes, registrationSpans.heads value]
  match registrationSpans.read value with
  | .error error => ⟨.error error, passes⟩
  | .ok ((payloadBytes, witnessBytes), _) =>
      let passes := passes ++ [parsePayload.heads payloadBytes]
      match parsePayload.read payloadBytes with
      | .error error => ⟨.error error, passes⟩
      | .ok (payload, _) => ⟨.ok (payload, payloadBytes, witnessBytes), passes⟩

def parseRegistration (crypto : Crypto) (bytes : Bytes) : Worked CalidusParsed :=
  match parseAll bytes with
  | ⟨.error error, passes⟩ => ⟨.error error, passes⟩
  | ⟨.ok (payload, _, _), passes⟩ =>
      ⟨.ok
        { poolId := payload.poolId
          calidusKeyHash := .ofBytes (crypto.blake2b224 payload.calidusPubkey)
          nonce := payload.nonce }, passes⟩

def verifyRegistration (crypto : Crypto) (bytes : Bytes) : Worked CalidusRegistration :=
  match parseAll bytes with
  | ⟨.error error, passes⟩ => ⟨.error error, passes⟩
  | ⟨.ok (payload, payloadBytes, witnessBytes), passes⟩ =>
      let authorizes := witnessAuthorizes crypto payload.poolId (crypto.blake2b256 payloadBytes)
        payload.method
      let passes := passes ++ [authorizes.heads witnessBytes]
      match authorizes.read witnessBytes with
      | .error error => ⟨.error error, passes⟩
      | .ok (false, _) => ⟨.error .witnessInvalid, passes⟩
      | .ok (true, _) =>
          ⟨.ok
            { poolId := payload.poolId
              calidusKeyHash := .ofBytes (crypto.blake2b224 payload.calidusPubkey)
              nonce := payload.nonce }, passes⟩

theorem spans_length_le {value p w rest : Bytes}
    (h : Calidus.registrationSpans value = .ok ((p, w), rest)) :
    p.length ≤ value.length ∧ w.length ≤ value.length := by
  obtain ⟨es, hspells, -, hp, hw⟩ := registrationSpans_sound h
  have hspan : ∀ e ∈ es, (RegistrationEntry.spelling.value e).length ≤ value.length := by
    intro e he
    have hentry := length_le_of_mem RegistrationEntry.spelling.entry he
    rw [hspells.bytes, List.length_append]
    rw [Spelling.entry, List.length_append] at hentry
    omega
  constructor
  · obtain ⟨e, he, hread⟩ := mem_of_lastOf hp
    cases e with
    | payload span => exact (congrArg List.length (Option.some.inj hread)) ▸ hspan _ he
    | _ => cases hread
  · obtain ⟨e, he, hread⟩ := mem_of_lastOf hw
    cases e with
    | witnesses span => exact (congrArg List.length (Option.some.inj hread)) ▸ hspan _ he
    | _ => cases hread

theorem stripLabelWrapper_length_le (bytes : Bytes) :
    (stripLabelWrapper bytes).length ≤ bytes.length := by
  rcases stripLabelWrapper_cases bytes with heq | heq
  · rw [heq]
  · rw [congrArg List.length heq, List.length_append, List.length_append]
    omega

/-- A run that gives what the model does, in passes over at most these bytes. -/
structure Worked.Linear {α : Type} (run : Worked α) (result : Except CalidusError α)
    (count length : ℕ) : Prop where
  result_eq : run.result = result
  count_le : run.passes.length ≤ count
  heads_le : ∀ heads ∈ run.passes, heads ≤ length

theorem labelled_value (bytes : Bytes) :
    (match labelled.read bytes with
      | .ok (value, _) => value
      | .error _ => bytes) = stripLabelWrapper bytes := by
  rw [read_labelled]
  rfl

theorem parseAll_linear (bytes : Bytes) :
    (parseAll bytes).Linear (Calidus.parseAll bytes) 3 bytes.length := by
  have hvalue := stripLabelWrapper_length_le bytes
  have hopened : ∀ heads ∈ [labelled.heads bytes,
      registrationSpans.heads (stripLabelWrapper bytes)], heads ≤ bytes.length := by
    rintro heads (_ | ⟨_, _ | ⟨_, ⟨⟩⟩⟩)
    · exact labelled.heads_le bytes
    · exact (registrationSpans.heads_le _).trans hvalue
  unfold parseAll Calidus.parseAll
  rw [labelled_value, read_registrationSpans, read_parsePayload]
  dsimp only
  cases hspans : Calidus.registrationSpans (stripLabelWrapper bytes) with
  | error error => exact ⟨rfl, by simp, hopened⟩
  | ok result =>
    obtain ⟨⟨payloadBytes, witnessBytes⟩, rest⟩ := result
    have hpayload := (parsePayload.heads_le payloadBytes).trans
      ((spans_length_le hspans).1.trans hvalue)
    have hpasses : ∀ heads ∈ [labelled.heads bytes,
        registrationSpans.heads (stripLabelWrapper bytes)] ++
          [parsePayload.heads payloadBytes], heads ≤ bytes.length := by
      intro heads hheads
      rcases List.mem_append.mp hheads with hheads | hheads
      · exact hopened heads hheads
      · rw [List.mem_singleton.mp hheads]
        exact hpayload
    dsimp only
    cases Calidus.parsePayload payloadBytes with
    | error error => exact ⟨rfl, by simp, hpasses⟩
    | ok result => exact ⟨rfl, by simp, hpasses⟩

theorem parseAll_witness_length {bytes p w : Bytes} {payload : Payload}
    (h : Calidus.parseAll bytes = .ok (payload, p, w)) : w.length ≤ bytes.length := by
  unfold Calidus.parseAll at h
  cases hspans : Calidus.registrationSpans (stripLabelWrapper bytes) with
  | error error => rw [hspans] at h; cases h
  | ok result =>
    obtain ⟨⟨p', w'⟩, rest⟩ := result
    rw [hspans] at h
    dsimp only at h
    split at h
    · cases h
    · obtain ⟨-, -, rfl⟩ : _ ∧ p' = p ∧ w' = w := by simpa using h
      exact (spans_length_le hspans).2.trans (stripLabelWrapper_length_le bytes)

theorem parseRegistration_linear (crypto : Crypto) (bytes : Bytes) :
    (parseRegistration crypto bytes).Linear (Calidus.parseRegistration crypto bytes) 3
      bytes.length := by
  obtain ⟨hresult, hcount, hheads⟩ := parseAll_linear bytes
  unfold parseRegistration Calidus.parseRegistration
  rw [← hresult]
  cases hrun : parseAll bytes with
  | mk result passes =>
    rw [hrun] at hcount hheads
    cases result with
    | error error => exact ⟨rfl, hcount, hheads⟩
    | ok parsed => exact ⟨rfl, hcount, hheads⟩

theorem verifyRegistration_linear (crypto : Crypto) (bytes : Bytes) :
    (verifyRegistration crypto bytes).Linear (Calidus.verifyRegistration crypto bytes) 4
      bytes.length := by
  obtain ⟨hresult, hcount, hheads⟩ := parseAll_linear bytes
  unfold verifyRegistration Calidus.verifyRegistration
  cases hrun : parseAll bytes with
  | mk result passes =>
    rw [hrun] at hresult hcount hheads
    rw [← hresult]
    cases result with
    | error error => exact ⟨rfl, Nat.le_succ_of_le hcount, hheads⟩
    | ok parsed =>
      obtain ⟨payload, payloadBytes, witnessBytes⟩ := parsed
      have hwitness := parseAll_witness_length hresult.symm
      dsimp only
      rw [read_witnessAuthorizes]
      have hpasses : ∀ heads ∈ passes ++ [(witnessAuthorizes crypto payload.poolId
          (crypto.blake2b256 payloadBytes) payload.method).heads witnessBytes],
          heads ≤ bytes.length := by
        intro heads hheads'
        rcases List.mem_append.mp hheads' with hheads' | hheads'
        · exact hheads heads hheads'
        · rw [List.mem_singleton.mp hheads']
          exact ((witnessAuthorizes ..).heads_le witnessBytes).trans hwitness
      have hfour : (passes ++ [(witnessAuthorizes crypto payload.poolId
          (crypto.blake2b256 payloadBytes) payload.method).heads witnessBytes]).length ≤ 4 := by
        rw [List.length_append]
        exact Nat.succ_le_succ hcount
      rcases Calidus.witnessAuthorizes crypto payload.poolId (crypto.blake2b256 payloadBytes)
        payload.method witnessBytes with error | ⟨_ | _, rest⟩
      · exact ⟨rfl, hfour, hpasses⟩
      · exact ⟨rfl, hfour, hpasses⟩
      · exact ⟨rfl, hfour, hpasses⟩

end Counted

/-! ## The label -/

def labelWrapped (v : Bytes) : Bytes := encodeHead 5 1 ++ (encodeHead 0 867 ++ v)

theorem stripLabelWrapper_labelWrapped {v : Bytes} (hv : Skipped v) :
    stripLabelWrapper (labelWrapped v) = v := by
  have hread : labelled (labelWrapped v) = .ok (v, []) := by
    simp only [labelled, Reader.bind_ok, mapLen_ok, uint_ok, Reader.require_ok, Reader.done_ok,
      Reader.pure_ok, Prod.exists]
    exact ⟨1, _, ⟨by norm_num, rfl⟩, (), _, ⟨rfl, rfl⟩, 867, _, ⟨by norm_num, rfl⟩, (), _,
      ⟨rfl, rfl⟩, v, (), [], skipItem_span.mpr ⟨hv, by rw [List.append_nil]⟩, (), [], ⟨rfl, rfl⟩,
      rfl, rfl⟩
  rw [stripLabelWrapper, hread]

theorem stripLabelWrapper_bare {v : Bytes} (hbare : ∀ value, v ≠ labelWrapped value) :
    stripLabelWrapper v = v :=
  (stripLabelWrapper_cases v).resolve_right (hbare _)

theorem parseAll_labelWrapped {v : Bytes} (hv : skipItem v = .ok ((), []))
    (hbare : ∀ value, v ≠ labelWrapped value) : parseAll (labelWrapped v) = parseAll v := by
  obtain ⟨p, hitem, rfl⟩ := skipItem_ok.mp hv
  rw [List.append_nil] at hbare ⊢
  rw [parseAll, parseAll, stripLabelWrapper_labelWrapped hitem, stripLabelWrapper_bare hbare]

/-- The label makes no difference to a bare value, and no count or length in the
bytes makes the readers begin more heads than there are bytes, or go deeper. -/
theorem calidus_label_and_work (crypto : Crypto) :
    (∀ v, skipItem v = .ok ((), []) → (∀ value, v ≠ labelWrapped value) →
      verifyRegistration crypto (labelWrapped v) = verifyRegistration crypto v ∧
        parseRegistration crypto (labelWrapped v) = parseRegistration crypto v) ∧
    ∀ b,
      (Counted.verifyRegistration crypto b).Linear (verifyRegistration crypto b) 4 b.length ∧
        (Counted.parseRegistration crypto b).Linear (parseRegistration crypto b) 3 b.length ∧
        ∀ fuel, b.length ≤ fuel → Cbor.skip shortest (fun _ => true) fuel b = skipItem b := by
  refine ⟨?_, fun b => ⟨Counted.verifyRegistration_linear crypto b,
    Counted.parseRegistration_linear crypto b,
    fun fuel hfuel => Metered.skip_of_length_le shortest _ hfuel⟩⟩
  intro v hv hbare
  have hparse := parseAll_labelWrapped hv hbare
  rw [verifyRegistration, verifyRegistration, parseRegistration, parseRegistration, hparse]
  exact ⟨rfl, rfl⟩

theorem calidus_label_and_work_zeroPool :
    verifyRegistration Crypto.toy (labelWrapped (zeroPoolRegistration [])) =
        .ok ⟨⟨0⟩, .ofBytes (List.replicate 28 1), 5⟩ ∧
      (Counted.verifyRegistration Crypto.toy (zeroPoolRegistration [])).passes.length = 4 := by
  have hbare : ∀ value, zeroPoolRegistration [] ≠ labelWrapped value := by
    intro value heq
    have hfirst : (zeroPoolRegistration []).head? = (encodeHead 5 1).head? := by
      rw [heq]
      rfl
    exact absurd hfirst (by decide +kernel)
  obtain ⟨hlabel, -⟩ := calidus_label_and_work Crypto.toy
  rw [(hlabel (zeroPoolRegistration []) (by decide +kernel) hbare).1]
  exact ⟨by decide +kernel, by decide +kernel⟩

end CognoChain.Calidus
