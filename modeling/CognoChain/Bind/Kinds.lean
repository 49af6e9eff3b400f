import CognoChain.Bind.Payment

/-!
# The three kinds of proof

Payment, stake and role proofs share the signed message and the key, and differ
in the address they accept and in the text they ask for.  A message fixes the
kind it can be accepted as and everything the verifier reads off it, whatever
key and network it is tried with.  The headers of an accepted message repeat no
label; its key may.
-/

namespace CognoChain.Cip8

open Substrate Substrate.Cbor Substrate.Reader

/-! ## What a message fixes -/

section Message

variable {crypto : Crypto} {coseSign1 coseKey coseKey' : Bytes} {network network' : ℕ}
  {addr cred : Bytes}

theorem verifySigned_message {signed signed' : Signed}
    (h : verifySigned crypto coseSign1 coseKey = .ok signed)
    (h' : verifySigned crypto coseSign1 coseKey' = .ok signed') :
    signed.address = signed'.address ∧ signed.payload = signed'.payload := by
  simp only [verifySigned, except_bind_ok, Prod.exists] at h h'
  obtain ⟨cose, hcose, k, -, kid, address, haddress, h⟩ := h
  obtain ⟨cose', hcose', k', -, kid', address', haddress', h'⟩ := h'
  rw [hcose, Except.ok.injEq] at hcose'
  subst hcose'
  rw [haddress, Except.ok.injEq, Prod.mk.injEq] at haddress'
  split_ifs at h h'
  rw [← Except.ok.inj h, ← Except.ok.inj h']
  exact ⟨haddress'.2, rfl⟩

theorem parseAddress_unique {owner owner' : Bytes × Stake}
    (h : parseAddress addr network = .ok owner) (h' : parseAddress addr network' = .ok owner') :
    owner = owner' := by
  cases addr with
  | nil => cases h
  | cons header tail =>
    have hsame : network = network' := by
      rw [parseAddress_cons] at h h'
      split_ifs at h h' <;> omega
    rw [hsame, h'] at h
    exact (Except.ok.inj h).symm

theorem parseRewardAddress_cons (header : UInt8) (tail : Bytes) (network : ℕ) :
    parseRewardAddress (header :: tail) network =
      if header.toNat % 16 ≠ network then .error .wrongNetwork
      else if header.toNat / 16 = 0b1110 then parseStakeOnly (header :: tail)
      else .error .unsupportedAddressType := rfl

theorem parseRewardAddress_unique {cred' : Bytes} (h : parseRewardAddress addr network = .ok cred)
    (h' : parseRewardAddress addr network' = .ok cred') : cred = cred' := by
  cases addr with
  | nil => cases h
  | cons header tail =>
    have hsame : network = network' := by
      rw [parseRewardAddress_cons] at h h'
      split_ifs at h h'
      omega
    rw [hsame, h'] at h
    exact (Except.ok.inj h).symm

theorem roleCredential_unique {cred' : Bytes} (h : roleCredential addr network = .ok cred)
    (h' : roleCredential addr network' = .ok cred') :
    cred = cred' := by
  unfold roleCredential at h h'
  split_ifs at h h' with hbare
  · rw [← Except.ok.inj h, ← Except.ok.inj h']
  · simp only [except_bind_ok, Prod.exists] at h h'
    obtain ⟨vkh, stake, haddress, h⟩ := h
    obtain ⟨vkh', stake', haddress', h'⟩ := h'
    rw [← Except.ok.inj h, ← Except.ok.inj h']
    exact congrArg Prod.fst (parseAddress_unique haddress haddress')

theorem parseAddress_ne_reward {owner : Bytes × Stake} (h : parseAddress addr network = .ok owner) :
    parseRewardAddress addr network' ≠ .ok cred := by
  intro h'
  cases addr with
  | nil => cases h
  | cons header tail =>
    rw [parseAddress_cons] at h
    rw [parseRewardAddress_cons] at h'
    split_ifs at h h' <;> omega

end Message

/-! ## What the verifiers read -/

section Verifiers

variable {crypto : Crypto} {coseSign1 coseKey : Bytes} {network : ℕ}

theorem verifyBindProof_ok {proof : VerifiedProof}
    (h : verifyBindProof crypto coseSign1 coseKey network = .ok proof) :
    ∃ signed payment stake nonce, verifySigned crypto coseSign1 coseKey = .ok signed ∧
      parseAddress signed.address network = .ok (payment, stake) ∧
      parsePayload.parse signed.payload = .ok (proof.genesis, proof.account, nonce) ∧
      proof.identity = crypto.blake2b256 (plutusAddressCbor payment stake) := by
  simp only [verifyBindProof, except_bind_ok, Prod.exists] at h
  obtain ⟨signed, hsigned, payment, stake, haddress, h⟩ := h
  split_ifs at h
  simp only [except_bind_ok, Prod.exists] at h
  obtain ⟨genesis, account, nonce, hpayload, h⟩ := h
  rw [← Except.ok.inj h]
  exact ⟨signed, payment, stake, nonce, hsigned, haddress, hpayload, rfl⟩

theorem verifyBindProofStake_ok {proof : VerifiedStakeProof}
    (h : verifyBindProofStake crypto coseSign1 coseKey network = .ok proof) :
    ∃ signed, verifySigned crypto coseSign1 coseKey = .ok signed ∧
      parseRewardAddress signed.address network = .ok proof.stakeCredential ∧
      parsePayload.parse signed.payload = .ok (proof.genesis, proof.account, proof.nonce) := by
  simp only [verifyBindProofStake, except_bind_ok] at h
  obtain ⟨signed, hsigned, cred, haddress, h⟩ := h
  split_ifs at h
  simp only [except_bind_ok, Prod.exists] at h
  obtain ⟨genesis, account, nonce, hpayload, h⟩ := h
  rw [← Except.ok.inj h]
  exact ⟨signed, hsigned, haddress, hpayload⟩

theorem verifyBindProofRole_ok {proof : VerifiedRoleProof}
    (h : verifyBindProofRole crypto coseSign1 coseKey network = .ok proof) :
    ∃ signed, verifySigned crypto coseSign1 coseKey = .ok signed ∧
      roleCredential signed.address network = .ok proof.credential ∧
      parseRolePayload.parse signed.payload =
        .ok ⟨proof.genesis, proof.account, proof.nonce, proof.role⟩ := by
  simp only [verifyBindProofRole, except_bind_ok] at h
  obtain ⟨signed, hsigned, cred, haddress, h⟩ := h
  split_ifs at h
  simp only [except_bind_ok] at h
  obtain ⟨parsed, hpayload, h⟩ := h
  rw [← Except.ok.inj h]
  exact ⟨signed, hsigned, haddress, hpayload⟩

theorem payloadFields_domain {domain domain' m rest rest' : Bytes}
    {fields fields' : Bytes × Bytes × Bytes} (hlength : domain.length = domain'.length)
    (h : payloadFields domain m = .ok (fields, rest))
    (h' : payloadFields domain' m = .ok (fields', rest')) : domain = domain' := by
  simp only [payloadFields, bind_ok, expect_ok] at h h'
  obtain ⟨_, mid, hdomain, -⟩ := h
  obtain ⟨_, mid', hdomain', -⟩ := h'
  exact (List.append_inj (hdomain.symm.trans hdomain') hlength).1

theorem parsePayload_ne_role {m : Bytes} {fields : Bytes × Bytes × Bytes} {parsed : RolePayload}
    (h : parsePayload.parse m = .ok fields) : parseRolePayload.parse m ≠ .ok parsed := by
  intro h'
  simp only [parse_ok, parsePayload, parseRolePayload, mapErr_ok, bind_ok, Prod.exists] at h h'
  obtain ⟨_, genesis, account, nonce, rest, hfields, -⟩ := h
  obtain ⟨_, genesis', account', nonce', rest', hfields', -⟩ := h'
  have hlength : (ascii "cogno-chain/bind/v1;genesis=").length =
      (ascii "cogno-chain/role/v1;genesis=").length := by decide
  exact absurd (payloadFields_domain hlength hfields hfields') (by decide)

end Verifiers

/-! ## Separation -/

/-- A message is accepted as one kind of proof at most, and it proves the same
thing under every key and on every network it is accepted with. -/
theorem proofKinds_separated (crypto : Crypto) (coseSign1 coseKey coseKey' : Bytes)
    (network network' : ℕ) :
    (∀ proof proof', verifyBindProof crypto coseSign1 coseKey network = .ok proof →
      verifyBindProofStake crypto coseSign1 coseKey' network' ≠ .ok proof') ∧
    (∀ proof proof', verifyBindProof crypto coseSign1 coseKey network = .ok proof →
      verifyBindProofRole crypto coseSign1 coseKey' network' ≠ .ok proof') ∧
    (∀ proof proof', verifyBindProofStake crypto coseSign1 coseKey network = .ok proof →
      verifyBindProofRole crypto coseSign1 coseKey' network' ≠ .ok proof') ∧
    (∀ proof proof', verifyBindProofRole crypto coseSign1 coseKey network = .ok proof →
      verifyBindProofRole crypto coseSign1 coseKey' network' = .ok proof' → proof = proof') ∧
    (∀ proof proof', verifyBindProof crypto coseSign1 coseKey network = .ok proof →
      verifyBindProof crypto coseSign1 coseKey' network' = .ok proof' → proof = proof') ∧
    (∀ proof proof', verifyBindProofStake crypto coseSign1 coseKey network = .ok proof →
      verifyBindProofStake crypto coseSign1 coseKey' network' = .ok proof' → proof = proof') := by
  refine ⟨?_, ?_, ?_, ?_, ?_, ?_⟩
  · intro proof proof' h h'
    obtain ⟨signed, payment, stake, nonce, hsigned, haddress, -⟩ := verifyBindProof_ok h
    obtain ⟨signed', hsigned', haddress', -⟩ := verifyBindProofStake_ok h'
    rw [(verifySigned_message hsigned hsigned').1] at haddress
    exact parseAddress_ne_reward haddress haddress'
  · intro proof proof' h h'
    obtain ⟨signed, payment, stake, nonce, hsigned, -, hpayload, -⟩ := verifyBindProof_ok h
    obtain ⟨signed', hsigned', -, hpayload'⟩ := verifyBindProofRole_ok h'
    rw [(verifySigned_message hsigned hsigned').2] at hpayload
    exact parsePayload_ne_role hpayload hpayload'
  · intro proof proof' h h'
    obtain ⟨signed, hsigned, -, hpayload⟩ := verifyBindProofStake_ok h
    obtain ⟨signed', hsigned', -, hpayload'⟩ := verifyBindProofRole_ok h'
    rw [(verifySigned_message hsigned hsigned').2] at hpayload
    exact parsePayload_ne_role hpayload hpayload'
  · intro proof proof' h h'
    obtain ⟨signed, hsigned, haddress, hpayload⟩ := verifyBindProofRole_ok h
    obtain ⟨signed', hsigned', haddress', hpayload'⟩ := verifyBindProofRole_ok h'
    obtain ⟨hsame, hsame'⟩ := verifySigned_message hsigned hsigned'
    rw [hsame] at haddress
    rw [hsame', hpayload', Except.ok.injEq, RolePayload.mk.injEq] at hpayload
    obtain ⟨hgenesis, haccount, hnonce, hrole⟩ := hpayload
    have hcred := roleCredential_unique haddress haddress'
    cases proof
    cases proof'
    simp_all
  · intro proof proof' h h'
    obtain ⟨signed, payment, stake, nonce, hsigned, haddress, hpayload, hidentity⟩ :=
      verifyBindProof_ok h
    obtain ⟨signed', payment', stake', nonce', hsigned', haddress', hpayload', hidentity'⟩ :=
      verifyBindProof_ok h'
    obtain ⟨hsame, hsame'⟩ := verifySigned_message hsigned hsigned'
    rw [hsame] at haddress
    obtain ⟨rfl, rfl⟩ := Prod.mk.inj (parseAddress_unique haddress haddress')
    rw [hsame', hpayload', Except.ok.injEq, Prod.mk.injEq, Prod.mk.injEq] at hpayload
    cases proof
    cases proof'
    simp_all
  · intro proof proof' h h'
    obtain ⟨signed, hsigned, haddress, hpayload⟩ := verifyBindProofStake_ok h
    obtain ⟨signed', hsigned', haddress', hpayload'⟩ := verifyBindProofStake_ok h'
    obtain ⟨hsame, hsame'⟩ := verifySigned_message hsigned hsigned'
    rw [hsame] at haddress
    rw [hsame', hpayload', Except.ok.injEq, Prod.mk.injEq, Prod.mk.injEq] at hpayload
    have hcred := parseRewardAddress_unique haddress haddress'
    cases proof
    cases proof'
    simp_all

def zeroKeyClaim : Bytes :=
  encodeHead 4 4 ++
    (encodeString 2 (encodeHead 5 2 ++ ProtectedEntry.spelling.entry .alg ++
        ProtectedEntry.spelling.entry (.address (List.replicate 28 0))) ++
      (encodeHead 5 0 ++
        (encodeString 2
            (ascii "cogno-chain/role/v1;genesis=" ++ lowerHex (List.replicate 32 1) ++
              ascii ";account=" ++ lowerHex (List.replicate 32 2) ++ ascii ";nonce=" ++
              lowerHex (List.replicate 16 3) ++ ascii ";role=drep") ++
          encodeString 2 (List.replicate 64 0))))

theorem proofKinds_separated_zeroKey :
    ∃ proof, verifyBindProofRole Crypto.toy zeroKeyClaim zeroKey 5 = .ok proof ∧
      proof.role = .dRep ∧
      ∀ coseKey network proof',
        verifyBindProofRole Crypto.toy zeroKeyClaim coseKey network = .ok proof' →
        proof = proof' := by
  have haccepted : verifyBindProofRole Crypto.toy zeroKeyClaim zeroKey 5 =
      .ok
        { role := .dRep
          credential := List.replicate 28 0
          account := List.replicate 32 2
          genesis := List.replicate 32 1
          nonce := List.replicate 16 3 } := by decide +kernel
  refine ⟨_, haccepted, rfl, ?_⟩
  intro coseKey network proof' h
  obtain ⟨-, -, -, hrole, -, -⟩ :=
    proofKinds_separated Crypto.toy zeroKeyClaim zeroKey coseKey 5 network
  exact hrole _ _ haccepted h

/-! ## Labels that come twice -/

inductive ProofMap (coseSign1 coseKey : Bytes) (pairs : List (Bytes × Bytes)) : Prop
  | protectedHeader {p u m s : Bytes}
      (hmessage : IsArray coseSign1 [encodeString 2 p, u, encodeString 2 m, encodeString 2 s])
      (hlength : p.length < 2 ^ 64) (hmap : IsMap p pairs)
  | unprotectedHeader {p u m s : Bytes}
      (hmessage : IsArray coseSign1 [encodeString 2 p, u, encodeString 2 m, encodeString 2 s])
      (hmap : IsMap u pairs)
  | coseKey (hmap : IsMap coseKey pairs)

def Accepted (crypto : Crypto) (coseSign1 coseKey : Bytes) (network : ℕ) : Prop :=
  (∃ proof, verifyBindProof crypto coseSign1 coseKey network = .ok proof) ∨
    (∃ proof, verifyBindProofStake crypto coseSign1 coseKey network = .ok proof) ∨
    ∃ proof, verifyBindProofRole crypto coseSign1 coseKey network = .ok proof

theorem Accepted.signed {crypto : Crypto} {coseSign1 coseKey : Bytes} {network : ℕ}
    (h : Accepted crypto coseSign1 coseKey network) :
    ∃ signed, verifySigned crypto coseSign1 coseKey = .ok signed := by
  rcases h with ⟨proof, h⟩ | ⟨proof, h⟩ | ⟨proof, h⟩
  · obtain ⟨signed, payment, stake, nonce, hsigned, -⟩ := verifyBindProof_ok h
    exact ⟨signed, hsigned⟩
  · obtain ⟨signed, hsigned, -⟩ := verifyBindProofStake_ok h
    exact ⟨signed, hsigned⟩
  · obtain ⟨signed, hsigned, -⟩ := verifyBindProofRole_ok h
    exact ⟨signed, hsigned⟩

theorem ProtectedEntry.isItem (e : ProtectedEntry) (hvalid : spelling.valid e) :
    IsItem (spelling.key e) ∧ IsItem (spelling.value e) := by
  cases e with
  | alg =>
    exact ⟨isItem_encodeHead (by norm_num) (by norm_num),
      isItem_encodeHead (by norm_num) (by norm_num)⟩
  | kid key =>
    have hlength : key.length ≤ 64 := hvalid
    exact ⟨isItem_encodeHead (by norm_num) (by norm_num),
      isItem_encodeString (.inl rfl) (by omega)⟩
  | address addr =>
    have hlength : addr.length ≤ 128 := hvalid
    exact ⟨isItem_encodeString (.inr rfl) (by decide),
      isItem_encodeString (.inl rfl) (by omega)⟩

theorem KeyEntry.isItem (e : KeyEntry) (hvalid : spelling.valid e) :
    IsItem (spelling.key e) ∧ IsItem (spelling.value e) := by
  cases e with
  | x key =>
    have hlength : key.length = 32 := hvalid
    exact ⟨isItem_encodeHead (by norm_num) (by norm_num),
      isItem_encodeString (.inl rfl) (by omega)⟩
  | _ =>
    exact ⟨isItem_encodeHead (by norm_num) (by norm_num),
      isItem_encodeHead (by norm_num) (by norm_num)⟩

namespace ProtectedEntry

theorem key_alg (e : ProtectedEntry) : spelling.key e = encodeHead 0 1 ↔ (alg? e).isSome := by
  cases e <;> simp [spelling, alg?] <;> decide

theorem key_kid (e : ProtectedEntry) : spelling.key e = encodeHead 0 4 ↔ (kid? e).isSome := by
  cases e <;> simp [spelling, kid?] <;> decide

theorem key_address (e : ProtectedEntry) :
    spelling.key e = encodeString 3 (ascii "address") ↔ (address? e).isSome := by
  cases e <;> simp [spelling, address?] <;> decide

end ProtectedEntry

theorem IsProtected.nodup {p address : Bytes} {kid : Option Bytes} (h : IsProtected p kid address) :
    ∃ pairs, IsMap p pairs ∧ (pairs.map Prod.fst).Nodup := by
  obtain ⟨es, hspells, halg, haddress, hkid⟩ := h
  have halgs := Spelling.count_key ProtectedEntry.alg? _ ProtectedEntry.key_alg es
  have hkids := Spelling.count_key ProtectedEntry.kid? _ ProtectedEntry.key_kid es
  have haddresses := Spelling.count_key ProtectedEntry.address? _ ProtectedEntry.key_address es
  refine ⟨_, hspells.isMap ProtectedEntry.isItem, ?_⟩
  rw [Spelling.pairs_keys, List.nodup_iff_count_le_one]
  intro key
  by_cases hmem : key ∈ es.map ProtectedEntry.spelling.key
  · obtain ⟨e, -, rfl⟩ := List.mem_map.mp hmem
    cases e with
    | alg => exact (halgs.trans (by simp [halg])).le
    | kid key =>
      refine hkids.trans_le ?_
      cases kid <;> simp [hkid]
    | address addr => exact (haddresses.trans (by simp [haddress])).le
  · rw [List.count_eq_zero_of_not_mem hmem]
    exact Nat.zero_le _

theorem IsUnprotected.nodup {u : Bytes} (h : IsUnprotected u) :
    ∃ pairs, IsMap u pairs ∧ (pairs.map Prod.fst).Nodup := by
  rcases h with rfl | rfl
  · exact ⟨[], ⟨by norm_num, by simp, by simp, by simp⟩, by simp⟩
  · have hkey : IsItem (encodeString 3 (ascii "hashed")) :=
      isItem_encodeString (.inr rfl) (by decide)
    have hfalse : IsItem [0xf4] :=
      .simple (headSpelling_shortest.mpr ⟨by norm_num, by norm_num,
        show [0xf4] = encodeHead 7 20 by decide⟩) rfl
    refine ⟨[(encodeString 3 (ascii "hashed"), [0xf4])],
      ⟨by norm_num, by simpa using hkey, by simpa using hfalse, by simp⟩, by simp⟩

theorem IsCoseSign1.isArray {message p m signature : Bytes} (h : IsCoseSign1 message p m signature) :
    ∃ u, IsUnprotected u ∧
      IsArray message [encodeString 2 p, u, encodeString 2 m, encodeString 2 signature] := by
  obtain ⟨hp, hm, hsignature, u, hu, rfl⟩ := h
  obtain ⟨pairs, hmap, -⟩ := hu.nodup
  refine ⟨u, hu, ⟨by norm_num, ?_, by simp⟩⟩
  intro item hitem
  simp only [List.mem_cons, List.not_mem_nil, or_false] at hitem
  rcases hitem with rfl | rfl | rfl | rfl
  · exact isItem_encodeString (.inl rfl) (by omega)
  · exact hmap.isItem
  · exact isItem_encodeString (.inl rfl) (by omega)
  · exact isItem_encodeString (.inl rfl) (by omega)

/-- Three labels of four that all come, and perhaps the fourth: they are
distinct when there are as many as there are kinds. -/
theorem nodup_iff_of_labels {A : Type} [DecidableEq A] {a b c d : A} (hlabels : [a, b, c, d].Nodup)
    {l : List A} (hsub : ∀ label ∈ l, label ∈ [a, b, c, d]) (ha : a ∈ l) (hb : b ∈ l)
    (hc : c ∈ l) : l.Nodup ↔ l.length = 3 ∨ l.length = 4 ∧ d ∈ l := by
  have hthree : [a, b, c].Nodup := (List.nodup_append.mp (show ([a, b, c] ++ [d]).Nodup from hlabels)).1
  have hcover : [a, b, c] ⊆ l := by simp [ha, hb, hc]
  constructor
  · intro hnodup
    have hle : l.length ≤ 4 := (hnodup.subperm hsub).length_le
    have hge : 3 ≤ l.length := (hthree.subperm hcover).length_le
    by_cases hd : d ∈ l
    · have hfour : 4 ≤ l.length := (hlabels.subperm (by simp [ha, hb, hc, hd])).length_le
      exact .inr ⟨by omega, hd⟩
    · have hsub' : l ⊆ [a, b, c] := by
        intro label hmem
        have hlabel := hsub label hmem
        simp only [List.mem_cons, List.not_mem_nil, or_false] at hlabel ⊢
        rcases hlabel with rfl | rfl | rfl | rfl
        · exact .inl rfl
        · exact .inr (.inl rfl)
        · exact .inr (.inr rfl)
        · exact absurd hmem hd
      have hle' : l.length ≤ 3 := (hnodup.subperm hsub').length_le
      exact .inl (by omega)
  · rintro (hlength | ⟨hlength, hd⟩)
    · exact ((hthree.subperm hcover).perm_of_length_le (by simp [hlength])).nodup_iff.mp hthree
    · exact ((hlabels.subperm (by simp [ha, hb, hc, hd])).perm_of_length_le
        (by simp [hlength])).nodup_iff.mp hlabels

def ktyLabel : Bytes := encodeHead 0 1
def crvLabel : Bytes := encodeHead 1 0
def xLabel : Bytes := encodeHead 1 1
def algLabel : Bytes := encodeHead 0 3

theorem IsCoseKey.nodup_iff {coseKey k : Bytes} (h : IsCoseKey coseKey k)
    {pairs : List (Bytes × Bytes)} (hmap : IsMap coseKey pairs) :
    (ktyLabel ∈ pairs.map Prod.fst ∧ crvLabel ∈ pairs.map Prod.fst ∧
        xLabel ∈ pairs.map Prod.fst) ∧
      ((pairs.map Prod.fst).Nodup ↔
        pairs.length = 3 ∨ pairs.length = 4 ∧ algLabel ∈ pairs.map Prod.fst) := by
  obtain ⟨es, hspells, hkty, hcrv, hk⟩ := h
  obtain ⟨ex, hex, hx⟩ := mem_of_lastOf hk
  obtain rfl := hmap.unique (hspells.isMap KeyEntry.isItem)
  have hlength : (KeyEntry.spelling.pairs es).length = (es.map KeyEntry.spelling.key).length := by
    simp [Spelling.pairs]
  have hktyMem : ktyLabel ∈ es.map KeyEntry.spelling.key := List.mem_map.mpr ⟨_, hkty, rfl⟩
  have hcrvMem : crvLabel ∈ es.map KeyEntry.spelling.key := List.mem_map.mpr ⟨_, hcrv, rfl⟩
  have hxMem : xLabel ∈ es.map KeyEntry.spelling.key := by
    cases ex with
    | x key => exact List.mem_map.mpr ⟨_, hex, rfl⟩
    | _ => cases hx
  have hsub : ∀ label ∈ es.map KeyEntry.spelling.key,
      label ∈ [ktyLabel, crvLabel, xLabel, algLabel] := by
    intro label hlabel
    obtain ⟨e, -, rfl⟩ := List.mem_map.mp hlabel
    cases e <;> simp [KeyEntry.spelling, ktyLabel, crvLabel, xLabel, algLabel]
  rw [Spelling.pairs_keys, hlength]
  exact ⟨⟨hktyMem, hcrvMem, hxMem⟩,
    nodup_iff_of_labels (by decide) hsub hktyMem hcrvMem hxMem⟩

/-- The headers of an accepted message never repeat a label.  The key repeats
none, and has one type, one curve and one public key, exactly when it has three
entries, or four with the algorithm among them. -/
theorem proofMaps_nodup_iff (crypto : Crypto) (coseSign1 coseKey : Bytes) (network : ℕ)
    (haccepted : Accepted crypto coseSign1 coseKey network) :
    ((∀ pairs, ProofMap coseSign1 coseKey pairs → (pairs.map Prod.fst).Nodup) ∧
      ∀ pairs, IsMap coseKey pairs →
        (pairs.map Prod.fst).count ktyLabel = 1 ∧ (pairs.map Prod.fst).count crvLabel = 1 ∧
          (pairs.map Prod.fst).count xLabel = 1) ↔
      ∀ pairs, IsMap coseKey pairs →
        pairs.length = 3 ∨ pairs.length = 4 ∧ algLabel ∈ pairs.map Prod.fst := by
  obtain ⟨signed, hsigned⟩ := haccepted.signed
  obtain ⟨p, s, kid, hsign1, hprotected, hkey, -, -⟩ := verifySigned_ok.mp hsigned
  obtain ⟨u, hu, harray⟩ := hsign1.isArray
  constructor
  · rintro ⟨hnodup, -⟩ pairs hmap
    exact (hkey.nodup_iff hmap).2.mp (hnodup pairs (.coseKey hmap))
  · intro hshort
    have hkeyNodup : ∀ pairs, IsMap coseKey pairs → (pairs.map Prod.fst).Nodup := by
      intro pairs hmap
      exact (hkey.nodup_iff hmap).2.mpr (hshort pairs hmap)
    constructor
    · intro pairs hmap
      cases hmap with
      | @protectedHeader p' u' m' s' hmessage hlength hmap =>
          have hsame := hmessage.unique harray
          simp only [List.cons.injEq, and_true] at hsame
          obtain rfl : p' = p := by
            refine encodeString_inj (by norm_num) hlength ?_ hsame.1
            have := hsign1.protected_length
            omega
          obtain ⟨pairs', hmap', hnodup⟩ := hprotected.nodup
          rwa [hmap.unique hmap']
      | @unprotectedHeader p' u' m' s' hmessage hmap =>
          have hsame := hmessage.unique harray
          simp only [List.cons.injEq, and_true] at hsame
          obtain ⟨pairs', hmap', hnodup⟩ := hu.nodup
          rw [hsame.2.1] at hmap
          rwa [hmap.unique hmap']
      | coseKey hmap => exact hkeyNodup pairs hmap
    · intro pairs hmap
      obtain ⟨hkty, hcrv, hx⟩ := (hkey.nodup_iff hmap).1
      have hnodup := hkeyNodup pairs hmap
      exact ⟨List.count_eq_one_of_mem hnodup hkty, List.count_eq_one_of_mem hnodup hcrv,
        List.count_eq_one_of_mem hnodup hx⟩

def zeroKeyProof : VerifiedProof where
  identity := Crypto.toy.blake2b256 (ownerData (List.replicate 28 0) .none).cbor
  account := List.replicate 32 2
  genesis := List.replicate 32 1

theorem proofMaps_nodup_iff_zeroKey :
    Accepted Crypto.toy zeroKeyMessage zeroKey 0 ∧
      ∀ pairs, ProofMap zeroKeyMessage zeroKey pairs → (pairs.map Prod.fst).Nodup := by
  have haccepted : Accepted Crypto.toy zeroKeyMessage zeroKey 0 :=
    .inl ⟨zeroKeyProof, by decide +kernel⟩
  have hmap : IsMap zeroKey (KeyEntry.spelling.pairs [.kty, .crv, .x (List.replicate 32 0)]) := by
    apply Spelling.Spells.isMap _ KeyEntry.isItem
    refine ⟨by decide, ?_, by decide⟩
    intro e he
    simp only [List.mem_cons, List.not_mem_nil, or_false] at he
    rcases he with rfl | rfl | rfl
    · trivial
    · trivial
    · rfl
  refine ⟨haccepted, ((proofMaps_nodup_iff _ _ _ _ haccepted).mpr ?_).1⟩
  intro pairs hpairs
  rw [hpairs.unique hmap]
  exact .inl rfl

def twiceKey : Bytes :=
  encodeHead 5 4 ++ KeyEntry.spelling.entry .kty ++ KeyEntry.spelling.entry .crv ++
    KeyEntry.spelling.entry (.x (List.replicate 32 1)) ++
    KeyEntry.spelling.entry (.x (List.replicate 32 0))

theorem twiceKey_accepted :
    verifyBindProof Crypto.toy zeroKeyMessage twiceKey 0 = .ok zeroKeyProof ∧
      ∃ pairs, ProofMap zeroKeyMessage twiceKey pairs ∧ ¬ (pairs.map Prod.fst).Nodup ∧
        (pairs.map Prod.fst).count xLabel = 2 := by
  refine ⟨by decide +kernel, KeyEntry.spelling.pairs
    [.kty, .crv, .x (List.replicate 32 1), .x (List.replicate 32 0)], .coseKey ?_, by decide,
    by decide⟩
  apply Spelling.Spells.isMap _ KeyEntry.isItem
  refine ⟨by decide, ?_, by decide⟩
  intro e he
  simp only [List.mem_cons, List.not_mem_nil, or_false] at he
  rcases he with rfl | rfl | rfl | rfl
  · trivial
  · trivial
  · rfl
  · rfl

end CognoChain.Cip8
