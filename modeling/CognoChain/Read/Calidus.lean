import CognoChain.Model.Calidus

/-!
# What a verified Calidus registration is

Every reader of a registration is tied to a spelling of the bytes it accepts:
maps whose entries may come in any order and more than once, of which the last
of a kind counts.  A verified registration is then one map of version 2, whose
payload span names the pool, the nonce and the key, and whose witness array
holds a witness of the pool's own key over the hash of that very span.
-/

namespace CognoChain.Calidus

open Substrate Substrate.Cbor Substrate.Reader

abbrev Skipped : Bytes → Prop := Item shortest (fun _ => true)

variable {input rest p : Bytes}

theorem skipItem_ok {u : Unit} :
    skipItem input = .ok (u, rest) ↔ ∃ p, Skipped p ∧ input = p ++ rest :=
  Cbor.skipItem_ok

theorem skipItem_span {u : Unit} :
    (spanned skipItem) input = .ok ((p, u), rest) ↔ Skipped p ∧ input = p ++ rest :=
  skipItem_spanned

theorem skipped_uint {n : ℕ} (hn : n < 2 ^ 64) : Skipped (encodeHead 0 n) :=
  isItem_encodeHead (by norm_num) hn

theorem skipped_bytes {b : Bytes} (hb : b.length < 2 ^ 64) : Skipped (encodeString 2 b) :=
  isItem_encodeString (.inl rfl) hb

theorem exactBytes_ok {n : ℕ} (hn : n < 2 ^ 64) {error : CalidusError} {b : Bytes} :
    exactBytes n error input = .ok (b, rest) ↔
      b.length = n ∧ input = encodeString 2 b ++ rest := by
  simp only [exactBytes, bind_ok, mapErr_ok, bytes_ok hn, require_ok, pure_ok]
  constructor
  · rintro ⟨_, _, ⟨_, rfl⟩, _, _, ⟨rfl, rfl⟩, rfl, rfl⟩
    exact ⟨rfl, rfl⟩
  · rintro ⟨rfl, rfl⟩
    exact ⟨b, rest, ⟨le_rfl, rfl⟩, (), rest, ⟨rfl, rfl⟩, rfl, rfl⟩

/-! ## The registration map -/

inductive RegistrationEntry
  | version (value : ℕ)
  | payload (span : Bytes)
  | witnesses (span : Bytes)
  | other (key : ℕ) (span : Bytes)

namespace RegistrationEntry

def spelling : Spelling RegistrationEntry where
  key
    | version _ => encodeHead 0 0
    | payload _ => encodeHead 0 1
    | witnesses _ => encodeHead 0 2
    | other key _ => encodeHead 0 key
  value
    | version value => encodeHead 0 value
    | payload span | witnesses span | other _ span => span
  valid
    | version value => value < 2 ^ 64
    | payload span | witnesses span => Skipped span
    | other key span => 2 < key ∧ key < 2 ^ 64 ∧ Skipped span

def version? : RegistrationEntry → Option ℕ
  | version value => some value
  | _ => none

def payload? : RegistrationEntry → Option Bytes
  | payload span => some span
  | _ => none

def witnesses? : RegistrationEntry → Option Bytes
  | witnesses span => some span
  | _ => none

def apply (fields : RegistrationFields) : RegistrationEntry → RegistrationFields
  | version value => { fields with version := some value }
  | payload span => { fields with payloadSpan := some span }
  | witnesses span => { fields with witnessSpan := some span }
  | other _ _ => fields

end RegistrationEntry

theorem registrationField_sound :
    RegistrationEntry.spelling.Reads (fun fields e => some (e.apply fields)) registrationField := by
  intro fields input fields' rest h
  simp only [registrationField, bind_ok, mapErr_ok, uint_ok] at h
  obtain ⟨key, _, ⟨hkey, rfl⟩, h⟩ := h
  split_ifs at h with h0 h1 h2
  · subst h0
    simp only [bind_ok, mapErr_ok, uint_ok, pure_ok] at h
    obtain ⟨version, _, ⟨hversion, rfl⟩, rfl, rfl⟩ := h
    exact ⟨.version version, hversion, rfl, (List.append_assoc ..).symm⟩
  · subst h1
    simp only [bind_ok, Prod.exists, skipItem_span, pure_ok] at h
    obtain ⟨span, _, _, ⟨hspan, rfl⟩, rfl, rfl⟩ := h
    exact ⟨.payload span, hspan, rfl, (List.append_assoc ..).symm⟩
  · subst h2
    simp only [bind_ok, Prod.exists, skipItem_span, pure_ok] at h
    obtain ⟨span, _, _, ⟨hspan, rfl⟩, rfl, rfl⟩ := h
    exact ⟨.witnesses span, hspan, rfl, (List.append_assoc ..).symm⟩
  · simp only [bind_ok, skipItem_ok, pure_ok] at h
    obtain ⟨_, _, ⟨span, hspan, rfl⟩, rfl, rfl⟩ := h
    exact ⟨.other key span, ⟨by omega, hkey, hspan⟩, rfl, (List.append_assoc ..).symm⟩

theorem registrationSpans_sound {bytes w : Bytes} (h : registrationSpans bytes = .ok ((p, w), rest)) :
    ∃ es, RegistrationEntry.spelling.Spells es bytes ∧
      lastOf RegistrationEntry.version? es = some 2 ∧
      lastOf RegistrationEntry.payload? es = some p ∧
      lastOf RegistrationEntry.witnesses? es = some w := by
  simp only [registrationSpans, bind_ok, done_ok, require_ok, okOr_ok, pure_ok,
    Prod.mk.injEq] at h
  obtain ⟨n, _, hlen, fields, _, hloop, _, _, ⟨rfl, rfl⟩, _, _, ⟨hversion, rfl⟩, _, _, ⟨hp, rfl⟩,
    _, _, ⟨hw, rfl⟩, ⟨rfl, rfl⟩, rfl⟩ := h
  obtain ⟨es, span, hspells, rfl, rfl⟩ := Spelling.map_foldl registrationField_sound hlen hloop
  rw [foldl_field RegistrationFields.version RegistrationEntry.version?
    (by intro acc e; cases e <;> rfl)] at hversion
  rw [foldl_field RegistrationFields.payloadSpan RegistrationEntry.payload?
    (by intro acc e; cases e <;> rfl)] at hp
  rw [foldl_field RegistrationFields.witnessSpan RegistrationEntry.witnesses?
    (by intro acc e; cases e <;> rfl)] at hw
  rw [Option.or_none] at hversion hp hw
  exact ⟨es, by rwa [List.append_nil], hversion, hp, hw⟩

theorem stripLabelWrapper_cases (bytes : Bytes) :
    stripLabelWrapper bytes = bytes ∨
      bytes = encodeHead 5 1 ++ (encodeHead 0 867 ++ stripLabelWrapper bytes) := by
  unfold stripLabelWrapper
  cases hread : labelled bytes with
  | error error => exact .inl rfl
  | ok result =>
    obtain ⟨value, rest⟩ := result
    simp only [labelled, bind_ok, mapLen_ok, uint_ok, require_ok, done_ok, pure_ok,
      Prod.exists] at hread
    obtain ⟨_, _, ⟨-, rfl⟩, _, _, ⟨rfl, rfl⟩, _, _, ⟨-, rfl⟩, _, _, ⟨rfl, rfl⟩, span, _, _, hskip,
      _, _, ⟨rfl, rfl⟩, rfl, rfl⟩ := hread
    obtain ⟨-, rfl⟩ := skipItem_span.mp hskip
    exact .inr (by simp)

/-! ## The payload map -/

inductive PayloadEntry
  | scope (pool : Bytes)
  | method (id : ℕ) (extra : List Bytes)
  | nonce (value : ℕ)
  | calidus (pubkey : Bytes)
  | other (key : ℕ) (span : Bytes)

namespace PayloadEntry

def spelling : Spelling PayloadEntry where
  key
    | scope _ => encodeHead 0 1
    | method _ _ => encodeHead 0 3
    | nonce _ => encodeHead 0 4
    | calidus _ => encodeHead 0 7
    | other key _ => encodeHead 0 key
  value
    | scope pool => encodeHead 4 2 ++ (encodeHead 0 1 ++ encodeString 2 pool)
    | method id extra => encodeHead 4 (extra.length + 1) ++ (encodeHead 0 id ++ extra.flatten)
    | nonce value => encodeHead 0 value
    | calidus pubkey => encodeString 2 pubkey
    | other _ span => span
  valid
    | scope pool => pool.length = 28
    | method id extra => (id = 0 ∨ id = 2) ∧ ∀ item ∈ extra, Skipped item
    | nonce value => value < 2 ^ 64
    | calidus pubkey => pubkey.length = 32
    | other key span => (key ≠ 1 ∧ key ≠ 3 ∧ key ≠ 4 ∧ key ≠ 7) ∧ Skipped span

def poolId? : PayloadEntry → Option Credential
  | scope pool => some (.ofBytes pool)
  | _ => none

def method? : PayloadEntry → Option ℕ
  | method id _ => some id
  | _ => none

def nonce? : PayloadEntry → Option ℕ
  | nonce value => some value
  | _ => none

def calidus? : PayloadEntry → Option Bytes
  | calidus pubkey => some pubkey
  | _ => none

def apply (fields : PayloadFields) : PayloadEntry → PayloadFields
  | scope pool => { fields with poolId := some (.ofBytes pool) }
  | method id _ => { fields with method := some id }
  | nonce value => { fields with nonce := some value }
  | calidus pubkey => { fields with calidus := some pubkey }
  | other _ _ => fields

end PayloadEntry

theorem payloadField_sound :
    PayloadEntry.spelling.Reads (fun fields e => some (e.apply fields)) payloadField := by
  intro fields input fields' rest h
  simp only [payloadField, bind_ok, mapErr_ok, uint_ok] at h
  obtain ⟨key, _, ⟨hkey, rfl⟩, h⟩ := h
  split_ifs at h with h1 h3 h4 h7
  · subst h1
    simp only [bind_ok, mapErr_ok, uint_ok, arrayLen_ok, require_ok, pure_ok,
      exactBytes_ok (show 28 < 2 ^ 64 by norm_num)] at h
    obtain ⟨_, _, ⟨-, rfl⟩, _, _, ⟨rfl, rfl⟩, _, _, ⟨-, rfl⟩, _, _, ⟨rfl, rfl⟩, pool, _,
      ⟨hpool, rfl⟩, rfl, rfl⟩ := h
    exact ⟨.scope pool, hpool, rfl, (List.append_assoc ..).symm⟩
  · subst h3
    simp only [bind_ok, mapErr_ok, uint_ok, arrayLen_ok, require_ok, pure_ok] at h
    obtain ⟨arr, _, ⟨-, rfl⟩, _, _, ⟨harr, rfl⟩, id, _, ⟨-, rfl⟩, _, _, hloop, _, _, ⟨hid, rfl⟩,
      rfl, rfl⟩ := h
    obtain ⟨extra, hlength, hextra, -, rfl⟩ := loop_sound (fun item => item) Skipped
      (fun _ _ => some ())
      (fun _ _ _ _ hskip => (skipItem_ok.mp hskip).imp (fun _ hp => ⟨hp.1, rfl, hp.2⟩)) hloop
    obtain rfl : arr = extra.length + 1 := by omega
    exact ⟨.method id extra, ⟨hid, hextra⟩, rfl,
      by simp [Spelling.entry, PayloadEntry.spelling, List.flatMap_id']⟩
  · subst h4
    simp only [bind_ok, mapErr_ok, uint_ok, pure_ok] at h
    obtain ⟨nonce, _, ⟨hnonce, rfl⟩, rfl, rfl⟩ := h
    exact ⟨.nonce nonce, hnonce, rfl, (List.append_assoc ..).symm⟩
  · subst h7
    simp only [bind_ok, pure_ok, exactBytes_ok (show 32 < 2 ^ 64 by norm_num)] at h
    obtain ⟨pubkey, _, ⟨hpubkey, rfl⟩, rfl, rfl⟩ := h
    exact ⟨.calidus pubkey, hpubkey, rfl, (List.append_assoc ..).symm⟩
  · simp only [bind_ok, skipItem_ok, pure_ok] at h
    obtain ⟨_, _, ⟨span, hspan, rfl⟩, rfl, rfl⟩ := h
    exact ⟨.other key span, ⟨⟨h1, h3, h4, h7⟩, hspan⟩, rfl, (List.append_assoc ..).symm⟩

def IsPayload (p : Bytes) (payload : Payload) : Prop :=
  ∃ es, PayloadEntry.spelling.Spells es p ∧
    lastOf PayloadEntry.poolId? es = some payload.poolId ∧
    lastOf PayloadEntry.calidus? es = some payload.calidusPubkey ∧
    lastOf PayloadEntry.nonce? es = some payload.nonce ∧
    lastOf PayloadEntry.method? es = some payload.method

theorem parsePayload_sound {payload : Payload} (h : parsePayload p = .ok (payload, rest)) :
    IsPayload p payload := by
  simp only [parsePayload, bind_ok, mapErr_ok, done_ok, okOr_ok, pure_ok] at h
  obtain ⟨n, _, hlen, fields, _, hloop, _, _, ⟨rfl, rfl⟩, _, _, ⟨hpool, rfl⟩, _, _, ⟨hkey, rfl⟩,
    _, _, ⟨hnonce, rfl⟩, _, _, ⟨hmethod, rfl⟩, rfl, rfl⟩ := h
  obtain ⟨es, span, hspells, rfl, rfl⟩ := Spelling.map_foldl payloadField_sound hlen hloop
  rw [foldl_field PayloadFields.poolId PayloadEntry.poolId?
    (by intro acc e; cases e <;> rfl), Option.or_none] at hpool
  rw [foldl_field PayloadFields.calidus PayloadEntry.calidus?
    (by intro acc e; cases e <;> rfl), Option.or_none] at hkey
  rw [foldl_field PayloadFields.nonce PayloadEntry.nonce?
    (by intro acc e; cases e <;> rfl), Option.or_none] at hnonce
  rw [foldl_field PayloadFields.method PayloadEntry.method?
    (by intro acc e; cases e <;> rfl), Option.or_none] at hmethod
  exact ⟨es, by rwa [List.append_nil], hpool, hkey, hnonce, hmethod⟩

theorem IsPayload.pubkey_length {payload : Payload} (h : IsPayload p payload) :
    payload.calidusPubkey.length = 32 := by
  obtain ⟨es, hspells, -, hkey, -, -⟩ := h
  obtain ⟨e, he, heq⟩ := mem_of_lastOf hkey
  have hvalid := hspells.valid e he
  cases e with
  | calidus pubkey => rwa [← Option.some.inj heq]
  | _ => cases heq

/-! ## Plain witnesses -/

inductive WitnessEntry
  | pubkey (key : Bytes)
  | sig (signature : Bytes)
  | other (key : ℕ) (span : Bytes)

namespace WitnessEntry

def spelling : Spelling WitnessEntry where
  key
    | pubkey _ => encodeHead 0 1
    | sig _ => encodeHead 0 2
    | other key _ => encodeHead 0 key
  value
    | pubkey key => encodeString 2 key
    | sig signature => encodeString 2 signature
    | other _ span => span
  valid
    | pubkey key => key.length = 32
    | sig signature => signature.length = 64
    | other key span => (key ≠ 1 ∧ key ≠ 2 ∧ key < 2 ^ 64) ∧ Skipped span

def pubkey? : WitnessEntry → Option Bytes
  | pubkey key => some key
  | _ => none

def sig? : WitnessEntry → Option Bytes
  | sig signature => some signature
  | _ => none

def apply (fields : WitnessFields) : WitnessEntry → WitnessFields
  | pubkey key => { fields with pubkey := some key }
  | sig signature => { fields with sig := some signature }
  | other _ _ => fields

theorem skipped (e : WitnessEntry) (he : spelling.valid e) :
    Skipped (spelling.key e) ∧ Skipped (spelling.value e) := by
  cases e with
  | pubkey key =>
    exact ⟨skipped_uint (by norm_num), skipped_bytes (by rw [he]; norm_num)⟩
  | sig signature =>
    exact ⟨skipped_uint (by norm_num), skipped_bytes (by rw [he]; norm_num)⟩
  | other key span => exact ⟨skipped_uint he.1.2.2, he.2⟩

end WitnessEntry

theorem witnessField_sound :
    WitnessEntry.spelling.Reads (fun fields e => some (e.apply fields)) witnessField := by
  intro fields input fields' rest h
  simp only [witnessField, bind_ok, mapErr_ok, uint_ok] at h
  obtain ⟨key, _, ⟨hkey, rfl⟩, h⟩ := h
  split_ifs at h with h1 h2
  · subst h1
    simp only [bind_ok, pure_ok, exactBytes_ok (show 32 < 2 ^ 64 by norm_num)] at h
    obtain ⟨pubkey, _, ⟨hpubkey, rfl⟩, rfl, rfl⟩ := h
    exact ⟨.pubkey pubkey, hpubkey, rfl, (List.append_assoc ..).symm⟩
  · subst h2
    simp only [bind_ok, pure_ok, exactBytes_ok (show 64 < 2 ^ 64 by norm_num)] at h
    obtain ⟨sig, _, ⟨hsig, rfl⟩, rfl, rfl⟩ := h
    exact ⟨.sig sig, hsig, rfl, (List.append_assoc ..).symm⟩
  · simp only [bind_ok, skipItem_ok, pure_ok] at h
    obtain ⟨_, _, ⟨span, hspan, rfl⟩, rfl, rfl⟩ := h
    exact ⟨.other key span, ⟨⟨h1, h2, hkey⟩, hspan⟩, rfl, (List.append_assoc ..).symm⟩

def IsWitness (x pubkey sig : Bytes) : Prop :=
  ∃ es, WitnessEntry.spelling.Spells es x ∧ lastOf WitnessEntry.pubkey? es = some pubkey ∧
    lastOf WitnessEntry.sig? es = some sig

theorem parseWitness_sound {pubkey sig : Bytes} (h : parseWitness input = .ok ((pubkey, sig), rest)) :
    ∃ x, Skipped x ∧ IsWitness x pubkey sig ∧ input = x ++ rest := by
  simp only [parseWitness, bind_ok, mapErr_ok, okOr_ok, pure_ok, Prod.mk.injEq] at h
  obtain ⟨n, _, hlen, fields, _, hloop, _, _, ⟨hpubkey, rfl⟩, _, _, ⟨hsig, rfl⟩,
    ⟨rfl, rfl⟩, rfl⟩ := h
  obtain ⟨es, x, hspells, rfl, rfl⟩ := Spelling.map_foldl witnessField_sound hlen hloop
  rw [foldl_field WitnessFields.pubkey WitnessEntry.pubkey?
    (by intro acc e; cases e <;> rfl), Option.or_none] at hpubkey
  rw [foldl_field WitnessFields.sig WitnessEntry.sig?
    (by intro acc e; cases e <;> rfl), Option.or_none] at hsig
  exact ⟨x, hspells.item WitnessEntry.skipped, ⟨es, hspells, hpubkey, hsig⟩, rfl⟩

/-! ## COSE witnesses -/

inductive CoseKeyEntry
  | x (pubkey : Bytes)
  | other (mt arg : ℕ) (span : Bytes)

namespace CoseKeyEntry

def spelling : Spelling CoseKeyEntry where
  key
    | x _ => encodeHead 1 1
    | other mt arg _ => encodeHead mt arg
  value
    | x pubkey => encodeString 2 pubkey
    | other _ _ span => span
  valid
    | x pubkey => pubkey.length = 32
    | other mt arg span => (mt ≤ 1 ∧ arg < 2 ^ 64 ∧ ¬(mt = 1 ∧ arg = 1)) ∧ Skipped span

def x? : CoseKeyEntry → Option Bytes
  | x pubkey => some pubkey
  | _ => none

theorem skipped (e : CoseKeyEntry) (he : spelling.valid e) :
    Skipped (spelling.key e) ∧ Skipped (spelling.value e) := by
  cases e with
  | x pubkey =>
    exact ⟨isItem_encodeHead (by norm_num) (by norm_num),
      skipped_bytes (by rw [he]; norm_num)⟩
  | other mt arg span =>
    exact ⟨isItem_encodeHead he.1.1 he.1.2.1, he.2⟩

end CoseKeyEntry

theorem coseKeyField_sound :
    CoseKeyEntry.spelling.Reads (fun acc e => some (e.x?.or acc)) coseKeyField := by
  intro acc input acc' rest h
  simp only [coseKeyField, bind_ok, mapErr_ok, Prod.exists, head_ok] at h
  obtain ⟨kmt, karg, _, ⟨hkmt, hkarg, rfl⟩, h⟩ := h
  split_ifs at h with hx hint
  · obtain ⟨rfl, rfl⟩ := hx
    simp only [bind_ok, pure_ok, exactBytes_ok (show 32 < 2 ^ 64 by norm_num)] at h
    obtain ⟨pubkey, _, ⟨hpubkey, rfl⟩, rfl, rfl⟩ := h
    exact ⟨.x pubkey, hpubkey, rfl, (List.append_assoc ..).symm⟩
  · simp only [bind_ok, skipItem_ok, pure_ok] at h
    obtain ⟨_, _, ⟨span, hspan, rfl⟩, rfl, rfl⟩ := h
    exact ⟨.other kmt karg span, ⟨⟨by omega, hkarg, hx⟩, hspan⟩, rfl, (List.append_assoc ..).symm⟩
  · exact absurd h (by simp)

def IsCoseKey (span pubkey : Bytes) : Prop :=
  ∃ es, CoseKeyEntry.spelling.Spells es span ∧ lastOf CoseKeyEntry.x? es = some pubkey

theorem IsCoseKey.skipped {span pubkey : Bytes} (h : IsCoseKey span pubkey) : Skipped span := by
  obtain ⟨es, hspells, -⟩ := h
  exact hspells.item CoseKeyEntry.skipped

theorem parseCoseKeyPubkey_sound {pubkey : Bytes}
    (h : parseCoseKeyPubkey input = .ok (pubkey, rest)) :
    ∃ span, IsCoseKey span pubkey ∧ input = span ++ rest := by
  simp only [parseCoseKeyPubkey, bind_ok, mapErr_ok, okOr_ok] at h
  obtain ⟨n, _, hlen, acc, _, hloop, rfl, rfl⟩ := h
  obtain ⟨es, span, hspells, hfold, rfl⟩ := Spelling.map_foldl coseKeyField_sound hlen hloop
  rw [foldl_field (fun acc => acc) CoseKeyEntry.x? (fun _ _ => rfl), Option.or_none] at hfold
  exact ⟨span, ⟨es, hspells, hfold.symm⟩, rfl⟩

structure Sign1 where
  headers : Bytes
  unprotected : Bytes
  payload : Bytes
  sig : Bytes

namespace Sign1

structure Valid (s : Sign1) : Prop where
  headers : s.headers.length ≤ 256
  unprotected : Skipped s.unprotected
  payload : s.payload.length ≤ 64
  sig : s.sig.length = 64

def items (s : Sign1) : List Bytes :=
  [encodeString 2 s.headers, s.unprotected, encodeString 2 s.payload, encodeString 2 s.sig]

def bytes (s : Sign1) : Bytes := encodeHead 4 4 ++ s.items.flatten

def signed (s : Sign1) : Bytes :=
  coseSigStructure (encodeString 2 s.headers) (encodeString 2 s.payload)

theorem Valid.skipped {s : Sign1} (hs : s.Valid) : Skipped s.bytes := by
  have hheaders := hs.headers
  have hpayload := hs.payload
  have hsig := hs.sig
  have hitems : ∀ item ∈ s.items, Skipped item := by
    intro item hitem
    simp only [items, List.mem_cons, List.not_mem_nil, or_false] at hitem
    rcases hitem with rfl | rfl | rfl | rfl
    · exact skipped_bytes (by omega)
    · exact hs.unprotected
    · exact skipped_bytes (by omega)
    · exact skipped_bytes (by omega)
  exact Item.array (headSpelling_shortest.mpr ⟨by norm_num, by simp [items], rfl⟩) hitems

end Sign1

theorem parseCoseSign1_sound {sign1 : CoseSign1} (h : parseCoseSign1 input = .ok (sign1, rest)) :
    ∃ s : Sign1, s.Valid ∧ sign1.payload = s.payload ∧ sign1.sig = s.sig ∧
      coseSigStructure sign1.protectedRaw sign1.payloadRaw = s.signed ∧
      input = s.bytes ++ rest := by
  simp only [parseCoseSign1, bind_ok, mapErr_ok, arrayLen_ok, require_ok, Prod.exists, pure_ok,
    bytesRaw_ok (show 256 < 2 ^ 64 by norm_num), bytesRaw_ok (show 64 < 2 ^ 64 by norm_num),
    exactBytes_ok (show 64 < 2 ^ 64 by norm_num)] at h
  obtain ⟨_, _, ⟨-, rfl⟩, _, _, ⟨rfl, rfl⟩, _, headers, _, ⟨⟨hheaders, rfl⟩, rfl⟩, _, _, hskip, _,
    payload, _, ⟨⟨hpayload, rfl⟩, rfl⟩, sig, _, ⟨hsig, rfl⟩, rfl, rfl⟩ := h
  obtain ⟨unprotected, hunprotected, rfl⟩ := skipItem_ok.mp hskip
  exact ⟨⟨headers, unprotected, payload, sig⟩, ⟨hheaders, hunprotected, hpayload, hsig⟩,
    rfl, rfl, rfl, by simp [Sign1.bytes, Sign1.items]⟩

inductive CoseEntry
  | coseKey (span pubkey : Bytes)
  | sign1 (s : Sign1)
  | other (key : ℕ) (span : Bytes)

namespace CoseEntry

def spelling : Spelling CoseEntry where
  key
    | coseKey _ _ => encodeHead 0 1
    | sign1 _ => encodeHead 0 2
    | other key _ => encodeHead 0 key
  value
    | coseKey span _ => span
    | sign1 s => s.bytes
    | other _ span => span
  valid
    | coseKey span pubkey => IsCoseKey span pubkey
    | sign1 s => s.Valid
    | other key span => (key ≠ 1 ∧ key ≠ 2 ∧ key < 2 ^ 64) ∧ Skipped span

def pubkey? : CoseEntry → Option Bytes
  | coseKey _ pubkey => some pubkey
  | _ => none

def sign1? : CoseEntry → Option Sign1
  | sign1 s => some s
  | _ => none

def apply (preimage : Bytes) (fields : CoseFields) : CoseEntry → CoseFields
  | coseKey _ pubkey => { fields with coldPubkey := some pubkey }
  | sign1 s =>
      { fields with
        payloadMatchesPreimage := decide (s.payload = preimage)
        sigStructure := some s.signed
        signature := some s.sig }
  | other _ _ => fields

theorem skipped (e : CoseEntry) (he : spelling.valid e) :
    Skipped (spelling.key e) ∧ Skipped (spelling.value e) := by
  cases e with
  | coseKey span pubkey => exact ⟨skipped_uint (by norm_num), IsCoseKey.skipped he⟩
  | sign1 s => exact ⟨skipped_uint (by norm_num), Sign1.Valid.skipped he⟩
  | other key span => exact ⟨skipped_uint he.1.2.2, he.2⟩

end CoseEntry

/-- What a signature entry leaves in the fields, all of it from one entry. -/
def CoseFields.signed (fields : CoseFields) : Option (Bytes × Bytes × Bool) :=
  match fields.sigStructure, fields.signature with
  | some sigStructure, some sig => some (sigStructure, sig, fields.payloadMatchesPreimage)
  | _, _ => none

theorem CoseFields.signed_foldl (preimage : Bytes) (es : List CoseEntry) :
    (es.foldl (CoseEntry.apply preimage) {}).signed = (lastOf CoseEntry.sign1? es).map
      (fun s => (s.signed, s.sig, decide (s.payload = preimage))) := by
  rw [foldl_field CoseFields.signed
    (fun e => (CoseEntry.sign1? e).map
      (fun s => (s.signed, s.sig, decide (s.payload = preimage))))
    (by intro acc e; cases e <;> rfl), lastOf_map]
  exact Option.or_none

theorem coseField_sound (preimage : Bytes) :
    CoseEntry.spelling.Reads (fun fields e => some (e.apply preimage fields))
      (coseField preimage) := by
  intro fields input fields' rest h
  simp only [coseField, bind_ok, mapErr_ok, uint_ok] at h
  obtain ⟨key, _, ⟨hkey, rfl⟩, h⟩ := h
  split_ifs at h with h1 h2
  · subst h1
    simp only [bind_ok, pure_ok] at h
    obtain ⟨pubkey, _, hread, rfl, rfl⟩ := h
    obtain ⟨span, hspan, rfl⟩ := parseCoseKeyPubkey_sound hread
    exact ⟨.coseKey span pubkey, hspan, rfl, (List.append_assoc ..).symm⟩
  · subst h2
    simp only [bind_ok, pure_ok] at h
    obtain ⟨sign1, _, hread, rfl, rfl⟩ := h
    obtain ⟨s, hs, hpayload, hsig, hsigned, rfl⟩ := parseCoseSign1_sound hread
    refine ⟨.sign1 s, hs, congrArg some ?_, (List.append_assoc ..).symm⟩
    rw [CoseEntry.apply, hpayload, hsig, hsigned]
  · simp only [bind_ok, skipItem_ok, pure_ok] at h
    obtain ⟨_, _, ⟨span, hspan, rfl⟩, rfl, rfl⟩ := h
    exact ⟨.other key span, ⟨⟨h1, h2, hkey⟩, hspan⟩, rfl, (List.append_assoc ..).symm⟩

/-- A witness map that gives this key and this COSE signature. -/
def IsCoseWitness (x pubkey : Bytes) (s : Sign1) : Prop :=
  ∃ es, CoseEntry.spelling.Spells es x ∧ lastOf CoseEntry.pubkey? es = some pubkey ∧
    lastOf CoseEntry.sign1? es = some s

/-! ## The witness that authorizes -/

section Authorization

variable {crypto : Crypto} {poolId : Credential} {p : Bytes}

/-- A witness of the pool's key over the hash of the payload span, directly or
as the payload of a COSE signature. -/
inductive Authorized (crypto : Crypto) (poolId : Credential) (p : Bytes) : ℕ → Bytes → Prop
  | ed25519 {x pubkey sig : Bytes} (hwitness : IsWitness x pubkey sig)
      (hpool : Credential.ofBytes (crypto.blake2b224 pubkey) = poolId)
      (hsigned : crypto.verifyStrict pubkey (crypto.blake2b256 p) sig = true) :
      Authorized crypto poolId p 0 x
  | cose {x pubkey : Bytes} {s : Sign1} (hwitness : IsCoseWitness x pubkey s)
      (hpool : Credential.ofBytes (crypto.blake2b224 pubkey) = poolId)
      (hpayload : s.payload = crypto.blake2b256 p)
      (hsigned : crypto.verifyStrict pubkey s.signed s.sig = true) :
      Authorized crypto poolId p 2 x

theorem ed25519WitnessAuthorizes_sound (input : Bytes) (found : Bool) (rest : Bytes)
    (h : ed25519WitnessAuthorizes crypto poolId (crypto.blake2b256 p) input = .ok (found, rest)) :
    ∃ x, Skipped x ∧ (found = true → Authorized crypto poolId p 0 x) ∧ input = x ++ rest := by
  simp only [ed25519WitnessAuthorizes, bind_ok, Prod.exists, pure_ok] at h
  obtain ⟨pubkey, sig, _, hread, rfl, rfl⟩ := h
  obtain ⟨x, hx, hwitness, rfl⟩ := parseWitness_sound hread
  refine ⟨x, hx, ?_, rfl⟩
  intro hfound
  simp only [coldKeySigned, Bool.and_eq_true, decide_eq_true_eq] at hfound
  exact .ed25519 hwitness hfound.1 hfound.2

theorem coseWitnessAuthorizesOne_sound (input : Bytes) (found : Bool) (rest : Bytes)
    (h : coseWitnessAuthorizesOne crypto poolId (crypto.blake2b256 p) input = .ok (found, rest)) :
    ∃ x, Skipped x ∧ (found = true → Authorized crypto poolId p 2 x) ∧ input = x ++ rest := by
  simp only [coseWitnessAuthorizesOne, bind_ok, mapErr_ok, pure_ok] at h
  obtain ⟨n, _, hlen, fields, _, hloop, rfl, rfl⟩ := h
  obtain ⟨es, x, hspells, hfold, rfl⟩ := Spelling.map_foldl (coseField_sound _) hlen hloop
  have hpubkey : fields.coldPubkey = lastOf CoseEntry.pubkey? es := by
    rw [hfold, foldl_field CoseFields.coldPubkey CoseEntry.pubkey?
      (by intro acc e; cases e <;> rfl)]
    exact Option.or_none
  have hsigned := CoseFields.signed_foldl (crypto.blake2b256 p) es
  rw [← hfold, CoseFields.signed] at hsigned
  refine ⟨x, hspells.item CoseEntry.skipped, ?_, rfl⟩
  intro hfound
  unfold coseFieldsAuthorize at hfound
  split at hfound
  · rename_i pubkey sigStructure sig hkey hstructure hsig
    simp only [coldKeySigned, Bool.and_eq_true, decide_eq_true_eq] at hfound
    obtain ⟨hmatches, hpool, hverify⟩ := hfound
    rw [hstructure, hsig, hmatches] at hsigned
    obtain ⟨s, hs, heq⟩ := Option.map_eq_some_iff.mp hsigned.symm
    simp only [Prod.mk.injEq, decide_eq_true_eq] at heq
    obtain ⟨rfl, rfl, hpayload⟩ := heq
    exact .cose ⟨es, hspells, hpubkey.symm.trans hkey, hs⟩ hpool hpayload hverify
  · cases hfound

/-- The witnesses the loop has passed and the one it stops at are the first
items of the array. -/
theorem authorized_of_anyOf {test : Read Bool} {method : ℕ} {w : Bytes} (hw : Skipped w)
    (htest : ∀ input found rest, test input = .ok (found, rest) → ∃ x, Skipped x ∧ (found = true → Authorized crypto poolId p method x) ∧ input = x ++ rest)
    (h : (do let count ← mapErr .badRegistration arrayLen; anyOf test count : Read Bool) w = .ok (true, rest)) :
    ∃ xs : List Bytes, w = encodeHead 4 xs.length ++ xs.flatten ∧ (∀ x ∈ xs, Skipped x) ∧
      ∃ x ∈ xs, Authorized crypto poolId p method x := by
  simp only [bind_ok, mapErr_ok, arrayLen_ok] at h
  obtain ⟨count, _, ⟨hcount, rfl⟩, hany⟩ := h
  obtain ⟨xs, rfl, hxs, rfl⟩ := hw.array_inv
    (headSpelling_shortest.mpr ⟨by norm_num, hcount, rfl⟩)
  obtain ⟨ps, x, hlength, hps, hx, hauthorized, hbytes⟩ := anyOf_sound htest hany
  have hall : ∀ q ∈ ps ++ [x], Skipped q := by
    intro q hq
    rcases List.mem_append.mp hq with hq | hq
    · exact hps q hq
    · rwa [List.mem_singleton.mp hq]
  have hprefix : ps ++ [x] <+: xs := by
    apply Item.prefix_of_flatten hall hxs
    · rw [List.length_append, List.length_singleton]
      omega
    · rw [hbytes, List.flatten_append, List.flatten_singleton, List.append_assoc]
  exact ⟨xs, rfl, hxs, x, hprefix.subset (by simp), hauthorized⟩

theorem witnessAuthorizes_sound {method : ℕ} {w : Bytes} (hw : Skipped w)
    (h : witnessAuthorizes crypto poolId (crypto.blake2b256 p) method w = .ok (true, rest)) :
    ∃ xs : List Bytes, w = encodeHead 4 xs.length ++ xs.flatten ∧ (∀ x ∈ xs, Skipped x) ∧
      ∃ x ∈ xs, Authorized crypto poolId p method x := by
  unfold witnessAuthorizes at h
  split_ifs at h with h0 h2
  · subst h0
    exact authorized_of_anyOf hw ed25519WitnessAuthorizes_sound h
  · subst h2
    exact authorized_of_anyOf hw coseWitnessAuthorizesOne_sound h
  · exact absurd h (by simp)

end Authorization

/-! ## A verified registration -/

theorem RegistrationEntry.skipped (e : RegistrationEntry) (he : spelling.valid e) :
    Skipped (spelling.key e) ∧ Skipped (spelling.value e) := by
  cases e with
  | version value => exact ⟨skipped_uint (by norm_num), skipped_uint he⟩
  | payload span => exact ⟨skipped_uint (by norm_num), he⟩
  | witnesses span => exact ⟨skipped_uint (by norm_num), he⟩
  | other key span => exact ⟨skipped_uint he.2.1, he.2.2⟩

/-- What a registration value has to be for a pool, a key hash and a nonce. -/
structure Registers (crypto : Crypto) (value : Bytes) (r : CalidusRegistration) : Prop where
  item : Skipped value
  fields : ∃ es p w, RegistrationEntry.spelling.Spells es value ∧
    lastOf RegistrationEntry.version? es = some 2 ∧
    lastOf RegistrationEntry.payload? es = some p ∧
    lastOf RegistrationEntry.witnesses? es = some w ∧
    ∃ pubkey method, IsPayload p ⟨r.poolId, pubkey, r.nonce, method⟩ ∧ pubkey.length = 32 ∧
      r.calidusKeyHash = .ofBytes (crypto.blake2b224 pubkey) ∧
      ∃ xs : List Bytes, w = encodeHead 4 xs.length ++ xs.flatten ∧ (∀ x ∈ xs, Skipped x) ∧
        ∃ x ∈ xs, Authorized crypto r.poolId p method x

/-- A registration that verifies, or the value under its one label, is a map of
version 2 with nothing after it.  The pool, the nonce and the key come from the
exact span of its payload, and a witness in its witness array is of the pool's
own key over the hash of that span. -/
theorem verifyRegistration_sound (crypto : Crypto) (b : Bytes) (r : CalidusRegistration)
    (h : verifyRegistration crypto b = .ok r) :
    ∃ value, (value = b ∨ b = encodeHead 5 1 ++ (encodeHead 0 867 ++ value)) ∧
      Registers crypto value r := by
  unfold verifyRegistration parseAll at h
  cases hspans : registrationSpans (stripLabelWrapper b) with
  | error error => rw [hspans] at h; cases h
  | ok result =>
      obtain ⟨⟨p, w⟩, rest⟩ := result
      rw [hspans] at h
      dsimp only at h
      cases hpayload : parsePayload p with
      | error error => rw [hpayload] at h; cases h
      | ok result =>
          obtain ⟨payload, rest'⟩ := result
          rw [hpayload] at h
          dsimp only at h
          split at h
          · cases h
          · cases h
          · rename_i hauthorized
            obtain ⟨es, hspells, hversion, hp, hw⟩ := registrationSpans_sound hspans
            have hpayload := parsePayload_sound hpayload
            have hwskipped : Skipped w := by
              obtain ⟨e, he, heq⟩ := mem_of_lastOf hw
              have hvalid := hspells.valid e he
              cases e with
              | witnesses span => rwa [← Option.some.inj heq]
              | _ => cases heq
            rw [← Except.ok.inj h]
            refine ⟨stripLabelWrapper b, stripLabelWrapper_cases b,
              hspells.item RegistrationEntry.skipped, es, p, w, hspells, hversion, hp, hw,
              payload.calidusPubkey, payload.method, hpayload, hpayload.pubkey_length, rfl, ?_⟩
            exact witnessAuthorizes_sound hwskipped hauthorized

/-! ## Skipping is not checking -/

/-- The two-byte simple values that are reserved. -/
def reservedSimple : Bytes → Bool
  | [_, value] => decide (value.toNat < 32)
  | _ => false

/-- A well-formed item of definite length, with heads of any width. -/
abbrev WellFormed : Bytes → Prop := Item (fun _ => 0) (fun h => !reservedSimple h)

def zeroPoolPayload : Bytes :=
  encodeHead 5 4 ++ [PayloadEntry.scope (List.replicate 28 0), .method 0 [], .nonce 5,
    .calidus (List.replicate 32 1)].flatMap PayloadEntry.spelling.entry

def zeroKeyWitness : Bytes :=
  encodeHead 5 2 ++ [WitnessEntry.pubkey (List.replicate 32 0),
    .sig (List.replicate 64 0)].flatMap WitnessEntry.spelling.entry

def zeroPoolEntries (others : List RegistrationEntry) : List RegistrationEntry :=
  [.version 2, .payload zeroPoolPayload, .witnesses (encodeHead 4 1 ++ zeroKeyWitness)] ++ others

def zeroPoolRegistration (others : List RegistrationEntry) : Bytes :=
  encodeHead 5 (zeroPoolEntries others).length ++
    (zeroPoolEntries others).flatMap RegistrationEntry.spelling.entry

theorem verifyRegistration_sound_zeroPool :
    ∃ value, (value = zeroPoolRegistration [] ∨
        zeroPoolRegistration [] = encodeHead 5 1 ++ (encodeHead 0 867 ++ value)) ∧
      Registers Crypto.toy value ⟨⟨0⟩, .ofBytes (List.replicate 28 1), 5⟩ :=
  verifyRegistration_sound Crypto.toy (zeroPoolRegistration []) _ (by decide +kernel)

/-- A registration verifies although a field nobody reads holds a reserved
simple value, so that neither it nor a value inside it is well-formed. -/
theorem reservedSimple_verifies :
    verifyRegistration Crypto.toy (zeroPoolRegistration [.other 3 [0xf8, 0x18]]) =
        .ok ⟨⟨0⟩, .ofBytes (List.replicate 28 1), 5⟩ ∧
      ∀ value, (value = zeroPoolRegistration [.other 3 [0xf8, 0x18]] ∨
          zeroPoolRegistration [.other 3 [0xf8, 0x18]] =
            encodeHead 5 1 ++ (encodeHead 0 867 ++ value)) →
        ¬WellFormed value := by
  refine ⟨by decide +kernel, ?_⟩
  rintro value (rfl | hwrapped) hvalue
  · have hread : (Cbor.skipItem (fun _ => 0) (fun h => !reservedSimple h) : Reader Unit _)
        (zeroPoolRegistration [.other 3 [0xf8, 0x18]]) = .ok ((), []) :=
      Cbor.skipItem_ok.mpr ⟨_, hvalue, by rw [List.append_nil]⟩
    exact absurd hread (by decide +kernel)
  · have hfirst : (zeroPoolRegistration [.other 3 [0xf8, 0x18]]).head? =
        (encodeHead 5 1).head? := by
      rw [hwrapped]
      rfl
    exact absurd hfirst (by decide +kernel)

end CognoChain.Calidus
