import CognoChain.Bind.Payment

/-!
# The owner behind an identity

The identity of a payment proof is a hash of the owner's address as Plutus data.
The bytes that are hashed are one item and name one address of a network.  The
vault script hashes what the ledger's own serialiser writes, and that serialiser
spells a constructor without fields with an array of length zero: for an owner
without a stake part the two spellings differ.
-/

namespace CognoChain.Cip8

open Substrate Substrate.Cbor Substrate.Reader

/-! ## One item -/

mutual

def PlutusData.Sized : PlutusData → Prop
  | .constr ix fields => 121 + ix < 2 ^ 64 ∧ SizedFields fields
  | .bytes content => content.length < 2 ^ 64

def PlutusData.SizedFields : List PlutusData → Prop
  | [] => True
  | field :: fields => field.Sized ∧ SizedFields fields

end

mutual

theorem PlutusData.cbor_wellFormed : (data : PlutusData) → data.Sized → WellFormedItem data.cbor
  | .constr ix fields, hsized => by
    obtain ⟨items, hitems, hcbor⟩ := PlutusData.cborFields_wellFormed fields hsized.2
    rw [PlutusData.cbor, hcbor]
    exact .tag (headSpelling_encodeHead (by norm_num) hsized.1) (.stream hitems)
  | .bytes content, hsized =>
    .string (.inl rfl) (headSpelling_encodeHead (by norm_num) hsized)

theorem PlutusData.cborFields_wellFormed : (fields : List PlutusData) →
    PlutusData.SizedFields fields →
    ∃ items : List Bytes, (∀ item ∈ items, WellFormedItem item) ∧
      PlutusData.cborFields fields = items.flatten
  | [], _ => ⟨[], by simp, rfl⟩
  | field :: fields, hsized => by
    obtain ⟨items, hitems, hcbor⟩ := PlutusData.cborFields_wellFormed fields hsized.2
    have hfield := PlutusData.cbor_wellFormed field hsized.1
    refine ⟨field.cbor :: items, ?_, by rw [PlutusData.cborFields, hcbor, List.flatten_cons]⟩
    rintro item (_ | ⟨_, hitem⟩)
    · exact hfield
    · exact hitems item hitem

end

theorem ownerData_sized {payment : Bytes} {stake : Stake} (hpayment : payment.length = 28)
    (hstake : stake.WellSized) : (ownerData payment stake).Sized := by
  cases stake with
  | none =>
    simp [ownerData, keyCredential, Stake.data, PlutusData.Sized, PlutusData.SizedFields,
      hpayment]
  | keyHash h | scriptHash h =>
    have hlength : h.length = 28 := hstake
    simp [ownerData, keyCredential, scriptCredential, Stake.data, PlutusData.Sized,
      PlutusData.SizedFields, hpayment, hlength]

/-! ## One owner -/

def Stake.cbor : Stake → Bytes
  | .none => constrOpen 1 ++ close
  | .keyHash h => constrOpen 0 ++ constrOpen 0 ++ credential 0 h ++ close ++ close
  | .scriptHash h => constrOpen 0 ++ constrOpen 0 ++ credential 1 h ++ close ++ close

theorem plutusAddressCbor_stake (payment : Bytes) (stake : Stake) :
    plutusAddressCbor payment stake =
      (constrOpen 0 ++ constrOpen 0 ++ [0x58, 0x1c]) ++ (payment ++ (close ++ stake.cbor ++ close)) := by
  cases stake <;> simp [plutusAddressCbor, Stake.cbor, credential, hash28]

theorem Stake.cbor_inj {stake stake' : Stake} (h : stake.cbor = stake'.cbor) : stake = stake' := by
  cases stake <;> cases stake' <;>
    simp_all [Stake.cbor, credential, constrOpen, hash28, close]

theorem plutusAddressCbor_inj {payment payment' : Bytes} {stake stake' : Stake}
    (hpayment : payment.length = 28) (hpayment' : payment'.length = 28)
    (h : plutusAddressCbor payment stake = plutusAddressCbor payment' stake') :
    payment = payment' ∧ stake = stake' := by
  rw [plutusAddressCbor_stake, plutusAddressCbor_stake] at h
  -- the payment hash has one length, so the stake parts start at one place
  obtain ⟨hsame, hrest⟩ := List.append_inj (List.append_cancel_left h)
    (hpayment.trans hpayment'.symm)
  exact ⟨hsame, Stake.cbor_inj (List.append_cancel_left (List.append_cancel_right hrest))⟩

/-! ## The ledger's serialiser -/

mutual

/-- Plutus data as the ledger serialises it, for the first seven constructors and
strings of at most 64 bytes: a list is streamed unless it is empty. -/
def PlutusData.serialise : PlutusData → Bytes
  | .constr ix [] => encodeHead 6 (121 + ix) ++ encodeHead 4 0
  | .constr ix (field :: fields) => encodeHead 6 (121 + ix) ++
      ([0x9f] ++ (field.serialise ++ serialiseFields fields) ++ [0xff])
  | .bytes content => encodeString 2 content

def PlutusData.serialiseFields : List PlutusData → Bytes
  | [] => []
  | field :: fields => field.serialise ++ serialiseFields fields

end

theorem serialise_keyCredential (h : Bytes) :
    (keyCredential h).serialise = (keyCredential h).cbor := by
  simp [keyCredential, PlutusData.serialise, PlutusData.serialiseFields, PlutusData.cbor,
    PlutusData.cborFields]

theorem serialise_scriptCredential (h : Bytes) :
    (scriptCredential h).serialise = (scriptCredential h).cbor := by
  simp [scriptCredential, PlutusData.serialise, PlutusData.serialiseFields, PlutusData.cbor,
    PlutusData.cborFields]

theorem Stake.serialise_data (stake : Stake) :
    stake.data.cbor = stake.data.serialise ↔ stake ≠ .none := by
  cases stake with
  | none =>
    have hdiffer : Stake.none.data.cbor ≠ Stake.none.data.serialise := by decide +kernel
    exact iff_of_false hdiffer (by simp)
  | keyHash h | scriptHash h =>
    refine iff_of_true ?_ (by simp)
    simp [Stake.data, PlutusData.serialise, PlutusData.serialiseFields, PlutusData.cbor,
      PlutusData.cborFields, serialise_keyCredential, serialise_scriptCredential]

theorem ownerData_serialise (payment : Bytes) (stake : Stake) :
    (ownerData payment stake).cbor = (ownerData payment stake).serialise ↔ stake ≠ .none := by
  rw [← Stake.serialise_data]
  simp [ownerData, PlutusData.serialise, PlutusData.serialiseFields, PlutusData.cbor,
    PlutusData.cborFields, serialise_keyCredential]

/-! ## The identity -/

/-- Where the hash tells two encodings apart, an identity names one address; what
is hashed is one item, and the ledger's own bytes exactly for an owner with a
stake part. -/
theorem identity_names_owner (crypto : Crypto) :
    (∀ network addr addr' payment payment' stake stake',
      parseAddress addr network = .ok (payment, stake) →
      parseAddress addr' network = .ok (payment', stake') →
      (crypto.blake2b256 (plutusAddressCbor payment stake) =
          crypto.blake2b256 (plutusAddressCbor payment' stake') →
        plutusAddressCbor payment stake = plutusAddressCbor payment' stake') →
      crypto.blake2b256 (plutusAddressCbor payment stake) =
        crypto.blake2b256 (plutusAddressCbor payment' stake') → addr = addr') ∧
    (∀ payment payment' stake stake', payment.length = 28 → payment'.length = 28 →
      plutusAddressCbor payment stake = plutusAddressCbor payment' stake' →
      payment = payment' ∧ stake = stake') ∧
    ∀ payment stake, payment.length = 28 → stake.WellSized →
      WellFormedItem (plutusAddressCbor payment stake) ∧
        (plutusAddressCbor payment stake = (ownerData payment stake).serialise ↔
          stake ≠ .none) := by
  refine ⟨?_, fun payment payment' stake stake' => plutusAddressCbor_inj, ?_⟩
  · intro network addr addr' payment payment' stake stake' hparse hparse' hhash hidentity
    have howner := parseAddress_ok.mp hparse
    have howner' := parseAddress_ok.mp hparse'
    obtain ⟨rfl, rfl⟩ := plutusAddressCbor_inj howner.payment_length howner'.payment_length
      (hhash hidentity)
    rw [howner.bytes, howner'.bytes]
  · intro payment stake hpayment hstake
    rw [plutusAddressCbor_eq hpayment hstake]
    exact ⟨(ownerData payment stake).cbor_wellFormed (ownerData_sized hpayment hstake),
      ownerData_serialise payment stake⟩

def zeroEnterprise : Bytes := 0x60 :: List.replicate 28 0

def zeroBase : Bytes := 0x00 :: List.replicate 56 0

theorem identity_names_owner_zeroBase :
    parseAddress zeroBase 0 = .ok (List.replicate 28 0, .keyHash (List.replicate 28 0)) ∧
      plutusAddressCbor (List.replicate 28 0) (.keyHash (List.replicate 28 0)) =
        (ownerData (List.replicate 28 0) (.keyHash (List.replicate 28 0))).serialise := by
  refine ⟨by decide +kernel, ?_⟩
  have hexact := (identity_names_owner Crypto.toy).2.2 (List.replicate 28 0)
    (.keyHash (List.replicate 28 0)) (by decide) (by simp [Stake.WellSized])
  exact hexact.2.mpr (by simp)

/-- A constructor without fields is closed at once, where the ledger writes an
array of length zero. -/
theorem enterprise_owner_misspelled :
    parseAddress zeroEnterprise 0 = .ok (List.replicate 28 0, .none) ∧
      plutusAddressCbor (List.replicate 28 0) .none ≠
        (ownerData (List.replicate 28 0) .none).serialise := by
  decide +kernel

end CognoChain.Cip8
