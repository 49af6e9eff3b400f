import CognoChain.Bind.Cose

/-!
# Payment proofs

A payment proof is accepted exactly when the message is signed by the one key,
the address of its header is a key-payment address of that key on the network,
and its payload is the bind text.  The identity is the hash of the owner as
Plutus data.
-/

namespace CognoChain.Cip8

open Substrate Substrate.Cbor Substrate.Reader

/-! ## The payload -/

def hexChar (digit : ℕ) : UInt8 := UInt8.ofNat (if digit < 10 then 48 + digit else 87 + digit)

def lowerHex (bytes : Bytes) : Bytes :=
  bytes.flatMap (fun b => [hexChar (b.toNat / 16), hexChar (b.toNat % 16)])

theorem hexDigit_ok {c v : UInt8} : hexDigit c = some v ↔ v.toNat < 16 ∧ c = hexChar v.toNat := by
  constructor
  · intro h
    unfold hexDigit at h
    split_ifs at h with hdecimal hletter
    · have hlow : 48 ≤ c.toNat := UInt8.le_iff_toNat_le.mp hdecimal.1
      have hhigh : c.toNat ≤ 57 := UInt8.le_iff_toNat_le.mp hdecimal.2
      have hv : v.toNat = c.toNat - 48 := by
        rw [← Option.some.inj h, UInt8.toNat_sub_of_le _ _ hdecimal.1]
        rfl
      refine ⟨by omega, UInt8.toNat_inj.mp ?_⟩
      rw [hexChar, if_pos (by omega), UInt8.toNat_ofNat']
      omega
    · have hlow : 97 ≤ c.toNat := UInt8.le_iff_toNat_le.mp hletter.1
      have hhigh : c.toNat ≤ 102 := UInt8.le_iff_toNat_le.mp hletter.2
      have hv : v.toNat = (c.toNat - 97 + 10) % 256 := by
        rw [← Option.some.inj h, UInt8.toNat_add, UInt8.toNat_sub_of_le _ _ hletter.1]
        rfl
      refine ⟨by omega, UInt8.toNat_inj.mp ?_⟩
      rw [hexChar, if_neg (by omega), UInt8.toNat_ofNat']
      omega
  · rintro ⟨hv, rfl⟩
    have hdigits : ∀ digit < 16, hexDigit (hexChar digit) = some (UInt8.ofNat digit) := by decide
    rw [hdigits _ hv, UInt8.ofNat_toNat]

theorem toNat_halves {h v : UInt8} (hh : h.toNat < 16) (hv : v.toNat < 16) :
    (h <<< 4 ||| v).toNat = 16 * h.toNat + v.toNat := by
  have hbytes : ∀ high < 16, ∀ low < 16,
      (UInt8.ofNat high <<< 4 ||| UInt8.ofNat low).toNat = 16 * high + low := by decide
  have hbyte := hbytes _ hh _ hv
  rwa [UInt8.ofNat_toNat, UInt8.ofNat_toNat] at hbyte

theorem hexStep_pair {out : Bytes} {hi lo : UInt8} {acc : Option UInt8 × Bytes} :
    (hexStep (none, out) hi).bind (fun acc => hexStep acc lo) = some acc ↔
      ∃ b : UInt8, hi = hexChar (b.toNat / 16) ∧ lo = hexChar (b.toNat % 16) ∧
        acc = (none, out ++ [b]) := by
  constructor
  · intro h
    obtain ⟨acc', hfirst, hsecond⟩ := Option.bind_eq_some_iff.mp h
    unfold hexStep at hfirst hsecond
    split at hfirst
    · cases hfirst
    · next v hhi _ =>
        rw [← Option.some.inj hfirst] at hsecond
        split at hsecond
        · cases hsecond
        · next hnone => cases hnone
        · next w high hlo hhigh =>
            obtain rfl : v = high := Option.some.inj hhigh
            obtain ⟨hv, rfl⟩ := hexDigit_ok.mp hhi
            obtain ⟨hw, rfl⟩ := hexDigit_ok.mp hlo
            have hbyte := toNat_halves hv hw
            refine ⟨v <<< 4 ||| w, ?_, ?_, (Option.some.inj hsecond).symm⟩
            · rw [hbyte]
              congr 1
              omega
            · rw [hbyte]
              congr 1
              omega
    · next hnone => cases hnone
  · rintro ⟨b, rfl, rfl, rfl⟩
    have hb := b.toNat_lt
    have hhigh : (UInt8.ofNat (b.toNat / 16)).toNat = b.toNat / 16 := by
      rw [UInt8.toNat_ofNat']
      omega
    have hlow : (UInt8.ofNat (b.toNat % 16)).toNat = b.toNat % 16 := by
      rw [UInt8.toNat_ofNat']
      omega
    have hhi : hexDigit (hexChar (b.toNat / 16)) = some (UInt8.ofNat (b.toNat / 16)) :=
      hexDigit_ok.mpr ⟨by omega, by rw [hhigh]⟩
    have hlo : hexDigit (hexChar (b.toNat % 16)) = some (UInt8.ofNat (b.toNat % 16)) :=
      hexDigit_ok.mpr ⟨by omega, by rw [hlow]⟩
    have hbyte : UInt8.ofNat (b.toNat / 16) <<< 4 ||| UInt8.ofNat (b.toNat % 16) = b := by
      apply UInt8.toNat_inj.mp
      rw [toNat_halves (by omega) (by omega), hhigh, hlow]
      omega
    simp [hexStep, hhi, hlo, hbyte]

theorem foldlM_hexStep {n : ℕ} {chars out bytes : Bytes} (hlength : chars.length = n * 2) :
    (chars.foldlM hexStep (none, out)).map Prod.snd = some bytes ↔
      ∃ b, b.length = n ∧ chars = lowerHex b ∧ bytes = out ++ b := by
  induction n generalizing chars out with
  | zero =>
    obtain rfl := List.length_eq_zero_iff.mp (hlength.trans (Nat.zero_mul 2))
    constructor
    · intro h
      exact ⟨[], rfl, rfl, by rw [← Option.some.inj h, List.append_nil]⟩
    · rintro ⟨b, hb, -, rfl⟩
      rw [List.length_eq_zero_iff.mp hb, List.append_nil]
      rfl
  | succ n ih =>
    obtain ⟨hi, lo, chars, rfl⟩ : ∃ hi lo chars', chars = hi :: lo :: chars' := by
      match chars with
      | [] => simp at hlength
      | [_] => simp at hlength; omega
      | hi :: lo :: chars => exact ⟨hi, lo, chars, rfl⟩
    have hrest : chars.length = n * 2 := by
      simp only [List.length_cons] at hlength
      omega
    have hfold : (hi :: lo :: chars).foldlM hexStep (none, out) =
        ((hexStep (none, out) hi).bind (fun acc => hexStep acc lo)).bind
          (fun acc => chars.foldlM hexStep acc) := by
      rw [List.foldlM_cons, Option.bind_assoc]
      rfl
    rw [hfold, Option.map_bind, Option.bind_eq_some_iff]
    constructor
    · rintro ⟨acc, hpair, htail⟩
      obtain ⟨b, rfl, rfl, rfl⟩ := hexStep_pair.mp hpair
      obtain ⟨bs, rfl, rfl, rfl⟩ := (ih hrest).mp htail
      exact ⟨b :: bs, rfl, rfl, by simp⟩
    · rintro ⟨bs, hbs, hchars, rfl⟩
      obtain ⟨b, bs, rfl⟩ := List.exists_cons_of_length_eq_add_one hbs
      obtain ⟨rfl, rfl, rfl⟩ : hi = hexChar (b.toNat / 16) ∧ lo = hexChar (b.toNat % 16) ∧
          chars = lowerHex bs := by
        simpa [lowerHex] using hchars
      exact ⟨_, hexStep_pair.mpr ⟨b, rfl, rfl, rfl⟩,
        (ih hrest).mpr ⟨bs, by simpa using hbs, rfl, by simp⟩⟩

theorem takeHex_ok {n : ℕ} {input rest b : Bytes} :
    takeHex n input = .ok (b, rest) ↔ b.length = n ∧ input = lowerHex b ++ rest := by
  simp only [takeHex, bind_ok, mapErr_ok, take_ok, okOr_ok]
  constructor
  · rintro ⟨chars, _, ⟨hlength, rfl⟩, hfold, rfl⟩
    obtain ⟨_, hb, rfl, rfl⟩ := (foldlM_hexStep hlength).mp hfold
    exact ⟨hb, rfl⟩
  · rintro ⟨hb, rfl⟩
    have hlength : (lowerHex b).length = n * 2 := by simp [lowerHex, hb]
    exact ⟨lowerHex b, rest, ⟨hlength, rfl⟩, (foldlM_hexStep hlength).mpr ⟨b, hb, rfl, rfl⟩, rfl⟩

theorem expect_ok {lit input rest : Bytes} {u : Unit} :
    expect lit input = .ok (u, rest) ↔ input = lit ++ rest := by
  simp only [expect, bind_ok, mapErr_ok, take_ok, require_ok]
  constructor
  · rintro ⟨_, _, ⟨-, rfl⟩, rfl, rfl⟩
    rfl
  · rintro rfl
    exact ⟨lit, rest, ⟨rfl, rfl⟩, rfl, rfl⟩

def bindText (genesis account nonce : Bytes) : Bytes :=
  ascii "cogno-chain/bind/v1;genesis=" ++ (lowerHex genesis ++ (ascii ";account=" ++
    (lowerHex account ++ (ascii ";nonce=" ++ lowerHex nonce))))

theorem parsePayload_ok {m genesis account nonce : Bytes} :
    parsePayload.parse m = .ok (genesis, account, nonce) ↔
      genesis.length = 32 ∧ account.length = 32 ∧ nonce.length = 16 ∧
        m = bindText genesis account nonce := by
  simp only [parse_ok, parsePayload, payloadFields, bind_ok, expect_ok, takeHex_ok, done_ok,
    pure_ok]
  constructor
  · rintro ⟨_, _, _, ⟨_, _, rfl, _, _, ⟨hgenesis, rfl⟩, _, _, rfl, _, _, ⟨haccount, rfl⟩, _, _, rfl,
      _, _, ⟨hnonce, rfl⟩, rfl, rfl⟩, _, _, ⟨rfl, rfl⟩, hfields, rfl⟩
    obtain ⟨rfl, rfl, rfl⟩ := hfields
    exact ⟨hgenesis, haccount, hnonce, by simp [bindText]⟩
  · rintro ⟨hgenesis, haccount, hnonce, rfl⟩
    exact ⟨[], _, [], ⟨(), _, rfl, genesis, _, ⟨hgenesis, rfl⟩, (), _, rfl, account, _,
      ⟨haccount, rfl⟩, (), _, rfl, nonce, [], ⟨hnonce, by simp⟩, rfl, rfl⟩, (), [], ⟨rfl, rfl⟩, rfl,
      rfl⟩

/-! ## The address -/

def Stake.WellSized : Stake → Prop
  | .none => True
  | .keyHash h | .scriptHash h => h.length = 28

def ownerBytes (network : ℕ) (payment : Bytes) : Stake → Bytes
  | .keyHash h => UInt8.ofNat (16 * 0b0000 + network) :: (payment ++ h)
  | .scriptHash h => UInt8.ofNat (16 * 0b0010 + network) :: (payment ++ h)
  | .none => UInt8.ofNat (16 * 0b0110 + network) :: payment

structure IsOwnerAddress (network : ℕ) (addr payment : Bytes) (stake : Stake) : Prop where
  network_lt : network < 16
  payment_length : payment.length = 28
  stake_length : stake.WellSized
  bytes : addr = ownerBytes network payment stake

theorem slice_ok {b p : Bytes} {start stop : ℕ} :
    orBadAddress (slice b start stop) = .ok p ↔
      stop ≤ b.length ∧ p = (b.take stop).drop start := by
  unfold orBadAddress slice
  split_ifs with hstop <;> simp [hstop, eq_comm]

variable {header : UInt8} {payment : Bytes} {stake : Stake} {network : ℕ}

theorem parseBaseAddress_ok {tail : Bytes} {stakeOf : Bytes → Stake} :
    parseBaseAddress (header :: tail) stakeOf = .ok (payment, stake) ↔
      ∃ h, payment.length = 28 ∧ h.length = 28 ∧ tail = payment ++ h ∧ stake = stakeOf h := by
  simp only [parseBaseAddress, except_bind_ok, slice_ok]
  constructor
  · rintro ⟨_, ⟨-, rfl⟩, _, ⟨-, rfl⟩, h⟩
    split_ifs at h with hlength
    have htail : tail.length = 56 := by
      rw [not_not, List.length_cons] at hlength
      omega
    obtain ⟨rfl, rfl⟩ := Prod.mk.inj (Except.ok.inj h)
    exact ⟨tail.drop 28, by simp [htail], by simp [htail],
      by simp, by simp [List.take_of_length_le htail.le]⟩
  · rintro ⟨h, hpayment, hstake, rfl, rfl⟩
    have hlength : (header :: (payment ++ h)).length = 57 := by simp [hpayment, hstake]
    refine ⟨payment, ⟨by omega, ?_⟩, h, ⟨by omega, ?_⟩, if_neg (by simp [hlength])⟩
    · simp [← hpayment]
    · rw [← hlength, List.take_length]
      simp [← hpayment]

theorem parseEnterpriseAddress_ok {tail : Bytes} :
    parseEnterpriseAddress (header :: tail) = .ok (payment, stake) ↔
      payment.length = 28 ∧ tail = payment ∧ stake = .none := by
  simp only [parseEnterpriseAddress, except_bind_ok, slice_ok]
  constructor
  · rintro ⟨_, ⟨-, rfl⟩, h⟩
    split_ifs at h with hlength
    have htail : tail.length = 28 := by
      rw [not_not, List.length_cons] at hlength
      omega
    obtain ⟨rfl, rfl⟩ := Prod.mk.inj (Except.ok.inj h)
    exact ⟨by simp [htail], by simp [← htail], rfl⟩
  · rintro ⟨hpayment, rfl, rfl⟩
    have hlength : (header :: tail).length = 29 := by simp [hpayment]
    exact ⟨tail, ⟨by omega, by simp [← hpayment]⟩, if_neg (by simp [hlength])⟩

theorem header_eq {kind : ℕ} (hnetwork : header.toNat % 16 = network)
    (hkind : header.toNat / 16 = kind) : header = UInt8.ofNat (16 * kind + network) := by
  rw [← hnetwork, ← hkind, Nat.div_add_mod, UInt8.ofNat_toNat]

theorem header_halves {kind : ℕ} (hnetwork : network < 16) (hkind : kind < 16) :
    (UInt8.ofNat (16 * kind + network)).toNat % 16 = network ∧
      (UInt8.ofNat (16 * kind + network)).toNat / 16 = kind := by
  rw [UInt8.toNat_ofNat']
  omega

theorem parseAddress_cons (header : UInt8) (tail : Bytes) (network : ℕ) :
    parseAddress (header :: tail) network =
      if header.toNat % 16 ≠ network then .error .wrongNetwork
      else if header.toNat / 16 = 0b0000 then parseBaseAddress (header :: tail) .keyHash
      else if header.toNat / 16 = 0b0010 then parseBaseAddress (header :: tail) .scriptHash
      else if header.toNat / 16 = 0b0110 then parseEnterpriseAddress (header :: tail)
      else .error .unsupportedAddressType := rfl

theorem parseAddress_ok {addr : Bytes} :
    parseAddress addr network = .ok (payment, stake) ↔
      IsOwnerAddress network addr payment stake := by
  constructor
  · intro h
    cases addr with
    | nil => cases h
    | cons header tail =>
      have hlt : header.toNat % 16 < 16 := Nat.mod_lt _ (by norm_num)
      rw [parseAddress_cons] at h
      split_ifs at h with hnetwork hkey hscript henterprise
      · rw [not_not] at hnetwork
        obtain ⟨hash, hpayment, hhash, rfl, rfl⟩ := parseBaseAddress_ok.mp h
        exact ⟨hnetwork ▸ hlt, hpayment, hhash, by rw [header_eq hnetwork hkey]; rfl⟩
      · rw [not_not] at hnetwork
        obtain ⟨hash, hpayment, hhash, rfl, rfl⟩ := parseBaseAddress_ok.mp h
        exact ⟨hnetwork ▸ hlt, hpayment, hhash, by rw [header_eq hnetwork hscript]; rfl⟩
      · rw [not_not] at hnetwork
        obtain ⟨hpayment, rfl, rfl⟩ := parseEnterpriseAddress_ok.mp h
        exact ⟨hnetwork ▸ hlt, hpayment, trivial, by rw [header_eq hnetwork henterprise]; rfl⟩
  · rintro ⟨hnetwork, hpayment, hstake, rfl⟩
    cases stake with
    | none =>
      obtain ⟨hlow, hhigh⟩ := header_halves hnetwork (show 0b0110 < 16 by norm_num)
      rw [ownerBytes, parseAddress_cons, if_neg (by rw [hlow]; simp), hhigh, if_neg (by norm_num),
        if_neg (by norm_num), if_pos rfl]
      exact parseEnterpriseAddress_ok.mpr ⟨hpayment, rfl, rfl⟩
    | keyHash h =>
      obtain ⟨hlow, hhigh⟩ := header_halves hnetwork (show 0b0000 < 16 by norm_num)
      rw [ownerBytes, parseAddress_cons, if_neg (by rw [hlow]; simp), hhigh, if_pos rfl]
      exact parseBaseAddress_ok.mpr ⟨h, hpayment, hstake, rfl, rfl⟩
    | scriptHash h =>
      obtain ⟨hlow, hhigh⟩ := header_halves hnetwork (show 0b0010 < 16 by norm_num)
      rw [ownerBytes, parseAddress_cons, if_neg (by rw [hlow]; simp), hhigh, if_neg (by norm_num),
        if_pos rfl]
      exact parseBaseAddress_ok.mpr ⟨h, hpayment, hstake, rfl, rfl⟩

/-! ## The owner as Plutus data -/

inductive PlutusData
  | constr (ix : ℕ) (fields : List PlutusData)
  | bytes (content : Bytes)

mutual

/-- A constructor is a tag from 121 on, its fields an array of indefinite length. -/
def PlutusData.cbor : PlutusData → Bytes
  | .constr ix fields => encodeHead 6 (121 + ix) ++ ([0x9f] ++ cborFields fields ++ [0xff])
  | .bytes content => encodeString 2 content

def PlutusData.cborFields : List PlutusData → Bytes
  | [] => []
  | field :: fields => field.cbor ++ cborFields fields

end

def keyCredential (h : Bytes) : PlutusData := .constr 0 [.bytes h]

def scriptCredential (h : Bytes) : PlutusData := .constr 1 [.bytes h]

def Stake.data : Stake → PlutusData
  | .none => .constr 1 []
  | .keyHash h => .constr 0 [.constr 0 [keyCredential h]]
  | .scriptHash h => .constr 0 [.constr 0 [scriptCredential h]]

def ownerData (payment : Bytes) (stake : Stake) : PlutusData :=
  .constr 0 [keyCredential payment, stake.data]

theorem encodeString_hash {h : Bytes} (hlength : h.length = 28) :
    encodeString 2 h = hash28 h := by
  rw [encodeString, hlength, hash28]
  congr 1

theorem plutusAddressCbor_eq {payment : Bytes} {stake : Stake} (hpayment : payment.length = 28)
    (hstake : stake.WellSized) :
    plutusAddressCbor payment stake = (ownerData payment stake).cbor := by
  have htag0 : encodeHead 6 (121 + 0) = [0xd8, 0x79] := by decide
  have htag1 : encodeHead 6 (121 + 1) = [0xd8, 0x7a] := by decide
  cases stake with
  | none =>
    simp [plutusAddressCbor, ownerData, Stake.data, keyCredential, PlutusData.cbor,
      PlutusData.cborFields, htag0, htag1, encodeString_hash hpayment, constrOpen, credential,
      close]
  | keyHash h =>
    simp [plutusAddressCbor, ownerData, Stake.data, keyCredential, PlutusData.cbor,
      PlutusData.cborFields, htag0, encodeString_hash hpayment, encodeString_hash hstake,
      constrOpen, credential, close]
  | scriptHash h =>
    simp [plutusAddressCbor, ownerData, Stake.data, keyCredential, scriptCredential,
      PlutusData.cbor, PlutusData.cborFields, htag0, htag1, encodeString_hash hpayment,
      encodeString_hash hstake, constrOpen, credential, close]

/-! ## The verifier -/

theorem verifySigned_ok {crypto : Crypto} {coseSign1 coseKey : Bytes} {signed : Signed} :
    verifySigned crypto coseSign1 coseKey = .ok signed ↔
      ∃ p s kid, IsCoseSign1 coseSign1 p signed.payload s ∧ IsProtected p kid signed.address ∧
        IsCoseKey coseKey signed.pubkey ∧ (∀ key, kid = some key → key = signed.pubkey) ∧
        crypto.ed25519Verify s
          (sigStructure (encodeString 2 p) (encodeString 2 signed.payload)) signed.pubkey = true := by
  simp only [verifySigned, except_bind_ok, Prod.exists, parseCoseSign1_ok, parseCoseKey_ok,
    parseProtected_ok]
  have hkid : ∀ (kid : Option Bytes) (k : Bytes),
      (kid.any (fun key => decide (key ≠ k)) = true) ↔ ¬∀ key, kid = some key → key = k := by
    intro kid k
    cases kid <;> simp
  constructor
  · rintro ⟨cose, ⟨hsign1, hpraw, hmraw⟩, k, hk, kid, address, hprotected, h⟩
    split_ifs at h with hmismatch hverify
    rw [hkid, not_not] at hmismatch
    rw [← Except.ok.inj h]
    exact ⟨_, _, kid, hsign1, hprotected, hk, hmismatch, by rwa [← hpraw, ← hmraw]⟩
  · rintro ⟨p, s, kid, hsign1, hprotected, hk, hmatch, hverify⟩
    refine ⟨⟨encodeString 2 p, p, encodeString 2 signed.payload, signed.payload, s⟩,
      ⟨hsign1, rfl, rfl⟩, signed.pubkey, hk, kid, signed.address, hprotected, ?_⟩
    rw [if_neg (by rw [hkid, not_not]; exact hmatch), if_pos hverify]

theorem IsCoseKey.length_eq {coseKey k : Bytes} (h : IsCoseKey coseKey k) : k.length = 32 := by
  obtain ⟨es, hspells, -, -, hk⟩ := h
  obtain ⟨e, he, hx⟩ := mem_of_lastOf hk
  have hvalid := hspells.valid e he
  cases e with
  | x key => rwa [← Option.some.inj hx]
  | _ => cases hx

def zeroKeyMessage : Bytes :=
  encodeHead 4 4 ++
    (encodeString 2 (encodeHead 5 2 ++ ProtectedEntry.spelling.entry .alg ++
        ProtectedEntry.spelling.entry (.address (0x60 :: List.replicate 28 0))) ++
      (encodeHead 5 0 ++
        (encodeString 2
            (bindText (List.replicate 32 1) (List.replicate 32 2) (List.replicate 16 3)) ++
          encodeString 2 (List.replicate 64 0))))

def zeroKey : Bytes :=
  encodeHead 5 3 ++ KeyEntry.spelling.entry .kty ++ KeyEntry.spelling.entry .crv ++
    KeyEntry.spelling.entry (.x (List.replicate 32 0))

end CognoChain.Cip8
