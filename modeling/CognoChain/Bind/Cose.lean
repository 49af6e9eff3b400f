import CognoChain.Model.Cip8

/-!
# What a signed message and its key are

Each reader of a self-proof accepts exactly the spellings of a grammar: the
message is an array of four elements, its protected header a map with one entry
of a kind, and the key a map in which the last public key counts.
-/

namespace CognoChain.Cip8

open Substrate Substrate.Cbor Substrate.Reader

/-! ## The message -/

/-- The unprotected header: empty, or saying that the payload is not hashed. -/
def IsUnprotected (u : Bytes) : Prop :=
  u = encodeHead 5 0 ∨ u = encodeHead 5 1 ++ (encodeString 3 (ascii "hashed") ++ [0xf4])

theorem parseUnprotected_ok {input rest : Bytes} {done : Unit} :
    parseUnprotected input = .ok (done, rest) ↔ ∃ u, IsUnprotected u ∧ input = u ++ rest := by
  simp only [parseUnprotected, bind_ok, mapLen_ok]
  constructor
  · rintro ⟨n, _, ⟨-, rfl⟩, h⟩
    split_ifs at h with hempty
    · obtain ⟨-, rfl⟩ := pure_ok.mp h
      exact ⟨_, .inl rfl, by rw [hempty]⟩
    · simp only [bind_ok, require_ok, text_ok (show 16 < 2 ^ 64 by norm_num), byte_ok] at h
      obtain ⟨_, _, ⟨rfl, rfl⟩, _, _, ⟨-, rfl⟩, _, _, ⟨rfl, rfl⟩, value, _, rfl, h⟩ := h
      split_ifs at h with hfalse htrue
      · obtain ⟨-, rfl⟩ := pure_ok.mp h
        subst hfalse
        exact ⟨_, .inr rfl, by simp⟩
      · exact absurd h (by simp)
      · exact absurd h (by simp)
  · rintro ⟨u, rfl | rfl, rfl⟩
    · exact ⟨0, rest, ⟨by norm_num, rfl⟩, by simp⟩
    · refine ⟨1, _, ⟨by norm_num, by rw [List.append_assoc]⟩, ?_⟩
      rw [if_neg (by norm_num)]
      simp only [bind_ok, require_ok, text_ok (show 16 < 2 ^ 64 by norm_num), byte_ok]
      exact ⟨(), _, ⟨trivial, rfl⟩, ascii "hashed", 0xf4 :: rest, ⟨by decide, by simp⟩, (), _,
        ⟨rfl, rfl⟩, 0xf4, rest, rfl, by simp⟩

structure IsCoseSign1 (message p m signature : Bytes) : Prop where
  protected_length : p.length ≤ 256
  payload_length : m.length ≤ 256
  signature_length : signature.length = 64
  bytes : ∃ u, IsUnprotected u ∧
    message = encodeHead 4 4 ++ (encodeString 2 p ++ (u ++ (encodeString 2 m ++
      encodeString 2 signature)))

theorem parseCoseSign1_ok {message : Bytes} {cose : CoseSign1} :
    parseCoseSign1.parse message = .ok cose ↔
      IsCoseSign1 message cose.protectedContent cose.payloadContent cose.signature ∧
        cose.protectedRaw = encodeString 2 cose.protectedContent ∧
        cose.payloadRaw = encodeString 2 cose.payloadContent := by
  have hshort : 256 < 2 ^ 64 := by norm_num
  simp only [parse_ok, parseCoseSign1, bind_ok, arrayLen_ok, require_ok, Prod.exists,
    bytesRaw_ok hshort, bytes_ok (show 64 < 2 ^ 64 by norm_num), parseUnprotected_ok, done_ok,
    pure_ok]
  constructor
  · rintro ⟨_, _, _, ⟨-, rfl⟩, _, _, ⟨rfl, rfl⟩, _, p, _, ⟨⟨hp, rfl⟩, rfl⟩, _, _, ⟨u, hu, rfl⟩, _, m,
      _, ⟨⟨hm, rfl⟩, rfl⟩, signature, _, ⟨-, rfl⟩, _, _, ⟨hsignature, rfl⟩, _, _, ⟨rfl, rfl⟩, rfl,
      rfl⟩
    exact ⟨⟨hp, hm, hsignature, u, hu, by simp⟩, rfl, rfl⟩
  · rintro ⟨⟨hp, hm, hsignature, u, hu, rfl⟩, hpraw, hmraw⟩
    refine ⟨[], 4, _, ⟨by norm_num, rfl⟩, (), _, ⟨rfl, rfl⟩, _, _, _, ⟨⟨hp, rfl⟩, rfl⟩, (), _,
      ⟨u, hu, rfl⟩, _, _, _, ⟨⟨hm, rfl⟩, rfl⟩, cose.signature, [], ⟨hsignature.le, by simp⟩, (), _,
      ⟨hsignature, rfl⟩, (), [], ⟨rfl, rfl⟩, ?_, rfl⟩
    rw [← hpraw, ← hmraw]

/-! ## The protected header -/

inductive ProtectedEntry
  | alg
  | kid (key : Bytes)
  | address (addr : Bytes)

namespace ProtectedEntry

def spelling : Spelling ProtectedEntry where
  key
    | alg => encodeHead 0 1
    | kid _ => encodeHead 0 4
    | address _ => encodeString 3 (ascii "address")
  value
    | alg => encodeHead 1 7
    | kid key => encodeString 2 key
    | address addr => encodeString 2 addr
  valid
    | alg => True
    | kid key => key.length ≤ 64
    | address addr => addr.length ≤ 128

def alg? : ProtectedEntry → Option Unit
  | alg => some ()
  | _ => none

def kid? : ProtectedEntry → Option Bytes
  | kid key => some key
  | _ => none

def address? : ProtectedEntry → Option Bytes
  | address addr => some addr
  | _ => none

def apply (fields : ProtectedFields) : ProtectedEntry → Option ProtectedFields
  | alg => if fields.algSeen = false then some { fields with algSeen := true } else none
  | kid key => if fields.kid = none then some { fields with kid := some key } else none
  | address addr =>
      if fields.address = none then some { fields with address := some addr } else none

end ProtectedEntry

theorem protectedField_ok (fields : ProtectedFields) (input : Bytes) (fields' : ProtectedFields)
    (rest : Bytes) :
    protectedField fields input = .ok (fields', rest) ↔
      ∃ e, ProtectedEntry.spelling.valid e ∧ ProtectedEntry.apply fields e = some fields' ∧
        input = ProtectedEntry.spelling.entry e ++ rest := by
  have hkid : 64 < 2 ^ 64 := by norm_num
  have haddress : 128 < 2 ^ 64 := by norm_num
  simp only [protectedField, bind_ok, Prod.exists, head_ok]
  constructor
  · rintro ⟨kmt, karg, _, ⟨-, -, rfl⟩, h⟩
    split_ifs at h with h01 h04 h37
    · obtain ⟨rfl, rfl⟩ := h01
      simp only [bind_ok, Prod.exists, require_ok, head_ok, pure_ok] at h
      obtain ⟨_, _, ⟨hfresh, rfl⟩, _, _, _, ⟨-, -, rfl⟩, _, _, ⟨⟨rfl, rfl⟩, rfl⟩, rfl, rfl⟩ := h
      exact ⟨.alg, trivial, if_pos hfresh, by simp [Spelling.entry, ProtectedEntry.spelling]⟩
    · obtain ⟨rfl, rfl⟩ := h04
      simp only [bind_ok, require_ok, bytes_ok hkid, pure_ok] at h
      obtain ⟨_, _, ⟨hfresh, rfl⟩, key, _, ⟨hkey, rfl⟩, rfl, rfl⟩ := h
      exact ⟨.kid key, hkey, if_pos hfresh, by simp [Spelling.entry, ProtectedEntry.spelling]⟩
    · obtain ⟨rfl, rfl⟩ := h37
      simp only [bind_ok, require_ok, take_ok, bytes_ok haddress, pure_ok] at h
      obtain ⟨_, _, ⟨-, rfl⟩, _, _, ⟨rfl, rfl⟩, _, _, ⟨hfresh, rfl⟩, addr, _, ⟨haddr, rfl⟩, rfl,
        rfl⟩ := h
      exact ⟨.address addr, haddr, if_pos hfresh,
        by simp [Spelling.entry, ProtectedEntry.spelling, encodeString, ascii]⟩
    · exact absurd h (by simp)
  · rintro ⟨e, hvalid, happly, rfl⟩
    cases e with
    | alg =>
      obtain ⟨hfresh, happly⟩ := Option.ite_none_right_eq_some.mp happly
      refine ⟨0, 1, _, ⟨by norm_num, by norm_num, List.append_assoc ..⟩, ?_⟩
      rw [if_pos ⟨rfl, rfl⟩]
      simp only [bind_ok, Prod.exists, require_ok, head_ok, pure_ok]
      exact ⟨(), _, ⟨hfresh, rfl⟩, 1, 7, rest, ⟨by norm_num, by norm_num, rfl⟩, (), rest,
        ⟨⟨rfl, rfl⟩, rfl⟩, Option.some.inj happly, rfl⟩
    | kid key =>
      obtain ⟨hfresh, happly⟩ := Option.ite_none_right_eq_some.mp happly
      refine ⟨0, 4, _, ⟨by norm_num, by norm_num, List.append_assoc ..⟩, ?_⟩
      rw [if_neg (by norm_num), if_pos ⟨rfl, rfl⟩]
      simp only [bind_ok, require_ok, bytes_ok hkid, pure_ok]
      exact ⟨(), _, ⟨hfresh, rfl⟩, key, rest, ⟨hvalid, rfl⟩, Option.some.inj happly, rfl⟩
    | address addr =>
      obtain ⟨hfresh, happly⟩ := Option.ite_none_right_eq_some.mp happly
      refine ⟨3, 7, ascii "address" ++ (encodeString 2 addr ++ rest), ⟨by norm_num, by norm_num,
        by simp [Spelling.entry, ProtectedEntry.spelling, encodeString, ascii]⟩, ?_⟩
      rw [if_neg (by norm_num), if_neg (by norm_num), if_pos ⟨rfl, rfl⟩]
      simp only [bind_ok, require_ok, take_ok, bytes_ok haddress, pure_ok]
      exact ⟨ascii "address", _, ⟨by decide, rfl⟩, (), _, ⟨rfl, rfl⟩, (), _, ⟨hfresh, rfl⟩, addr,
        rest, ⟨hvalid, rfl⟩, Option.some.inj happly, rfl⟩

/-- One algorithm, one address, at most one key id and nothing else. -/
def IsProtected (p : Bytes) (kid : Option Bytes) (address : Bytes) : Prop :=
  ∃ es, ProtectedEntry.spelling.Spells es p ∧
    es.filterMap ProtectedEntry.alg? = [()] ∧
    es.filterMap ProtectedEntry.address? = [address] ∧
    es.filterMap ProtectedEntry.kid? = kid.toList

def ProtectedFields.algs (fields : ProtectedFields) : List Unit :=
  if fields.algSeen then [()] else []

theorem ProtectedEntry.foldlM_apply {es : List ProtectedEntry} {fields fields' : ProtectedFields} :
    es.foldlM apply fields = some fields' ↔
      fields.algs ++ es.filterMap alg? = fields'.algs ∧
        fields.address.toList ++ es.filterMap address? = fields'.address.toList ∧
        fields.kid.toList ++ es.filterMap kid? = fields'.kid.toList := by
  induction es generalizing fields with
  | nil =>
    obtain ⟨seen, kid, address⟩ := fields
    obtain ⟨seen', kid', address'⟩ := fields'
    have hslot : ∀ slot slot' : Option Bytes, slot.toList = slot'.toList ↔ slot = slot' := by
      intro slot slot'
      cases slot <;> cases slot' <;> simp
    cases seen <;> cases seen' <;> simp [ProtectedFields.algs, hslot, and_comm]
  | cons e es ih =>
    rw [List.foldlM_cons]
    cases e with
    | alg =>
      cases hseen : fields.algSeen with
      | false => simp [apply, hseen, ih, ProtectedFields.algs, List.filterMap_cons, alg?, kid?, address?]
      | true =>
        cases hseen' : fields'.algSeen <;>
          simp [apply, hseen, hseen', ProtectedFields.algs, List.filterMap_cons, alg?]
    | kid key =>
      cases hkid : fields.kid with
      | none => simp [apply, hkid, ih, ProtectedFields.algs, List.filterMap_cons, alg?, kid?, address?]
      | some first =>
        cases fields'.kid <;> simp [apply, hkid, List.filterMap_cons, kid?]
    | address addr =>
      cases haddr : fields.address with
      | none => simp [apply, haddr, ih, ProtectedFields.algs, List.filterMap_cons, alg?, kid?, address?]
      | some first =>
        cases fields'.address <;> simp [apply, haddr, List.filterMap_cons, address?]

theorem parseProtected_ok {p : Bytes} {kid : Option Bytes} {address : Bytes} :
    parseProtected.parse p = .ok (kid, address) ↔ IsProtected p kid address := by
  simp only [parse_ok, parseProtected, bind_ok, done_ok, require_ok, okOr_ok, pure_ok,
    Prod.mk.injEq]
  constructor
  · rintro ⟨_, n, _, hlen, fields, _, hloop, _, _, ⟨rfl, rfl⟩, _, _, ⟨hseen, rfl⟩, _, _,
      ⟨haddress, rfl⟩, ⟨rfl, rfl⟩, rfl⟩
    obtain ⟨es, span, hspells, hfold, rfl⟩ := Spelling.map_sound
      (fun fields input fields' rest => (protectedField_ok fields input fields' rest).mp) hlen hloop
    obtain ⟨halg, haddr, hkid⟩ := ProtectedEntry.foldlM_apply.mp hfold
    refine ⟨es, by rwa [List.append_nil], ?_, ?_, by simpa using hkid⟩
    · simpa [ProtectedFields.algs, hseen] using halg
    · simpa [haddress] using haddr
  · rintro ⟨es, hspells, halg, haddr, hkid⟩
    have hfold : es.foldlM ProtectedEntry.apply {} = some ⟨true, kid, some address⟩ :=
      ProtectedEntry.foldlM_apply.mpr ⟨halg, haddr, hkid⟩
    obtain ⟨hlen, hloop⟩ := Spelling.map_complete
      (fun fields fields' rest e hvalid happly =>
        (protectedField_ok fields _ fields' rest).mpr ⟨e, hvalid, happly, rfl⟩) hspells hfold
    rw [List.append_nil] at hlen
    exact ⟨[], _, _, hlen, _, _, hloop, (), [], ⟨rfl, rfl⟩, (), [], ⟨rfl, rfl⟩, address, [],
      ⟨rfl, rfl⟩, ⟨rfl, rfl⟩, rfl⟩

/-! ## The key -/

inductive KeyEntry
  | kty
  | alg
  | crv
  | x (key : Bytes)

namespace KeyEntry

def spelling : Spelling KeyEntry where
  key
    | kty => encodeHead 0 1
    | alg => encodeHead 0 3
    | crv => encodeHead 1 0
    | x _ => encodeHead 1 1
  value
    | kty => encodeHead 0 1
    | alg => encodeHead 1 7
    | crv => encodeHead 0 6
    | x key => encodeString 2 key
  valid
    | x key => key.length = 32
    | _ => True

def x? : KeyEntry → Option Bytes
  | x key => some key
  | _ => none

def apply (fields : KeyFields) : KeyEntry → KeyFields
  | kty => { fields with ktyOk := true }
  | alg => fields
  | crv => { fields with crvOk := true }
  | x key => { fields with x := some key }

end KeyEntry

theorem coseKeyField_ok (fields : KeyFields) (input : Bytes) (fields' : KeyFields)
    (rest : Bytes) :
    coseKeyField fields input = .ok (fields', rest) ↔
      ∃ e, KeyEntry.spelling.valid e ∧ some (KeyEntry.apply fields e) = some fields' ∧
        input = KeyEntry.spelling.entry e ++ rest := by
  have hx : 64 < 2 ^ 64 := by norm_num
  simp only [coseKeyField, bind_ok, Prod.exists, head_ok, Option.some.injEq]
  constructor
  · rintro ⟨kmt, karg, _, ⟨-, -, rfl⟩, h⟩
    split_ifs at h with h01 h03 h10 h11
    · obtain ⟨rfl, rfl⟩ := h01
      simp only [bind_ok, require_ok, uint_ok, pure_ok] at h
      obtain ⟨_, _, ⟨-, rfl⟩, _, _, ⟨rfl, rfl⟩, rfl, rfl⟩ := h
      exact ⟨.kty, trivial, rfl, by simp [Spelling.entry, KeyEntry.spelling]⟩
    · obtain ⟨rfl, rfl⟩ := h03
      simp only [bind_ok, Prod.exists, require_ok, head_ok, pure_ok] at h
      obtain ⟨_, _, _, ⟨-, -, rfl⟩, _, _, ⟨⟨rfl, rfl⟩, rfl⟩, rfl, rfl⟩ := h
      exact ⟨.alg, trivial, rfl, by simp [Spelling.entry, KeyEntry.spelling]⟩
    · obtain ⟨rfl, rfl⟩ := h10
      simp only [bind_ok, require_ok, uint_ok, pure_ok] at h
      obtain ⟨_, _, ⟨-, rfl⟩, _, _, ⟨rfl, rfl⟩, rfl, rfl⟩ := h
      exact ⟨.crv, trivial, rfl, by simp [Spelling.entry, KeyEntry.spelling]⟩
    · obtain ⟨rfl, rfl⟩ := h11
      simp only [bind_ok, require_ok, bytes_ok hx, pure_ok] at h
      obtain ⟨key, _, ⟨-, rfl⟩, _, _, ⟨hkey, rfl⟩, rfl, rfl⟩ := h
      exact ⟨.x key, hkey, rfl, by simp [Spelling.entry, KeyEntry.spelling]⟩
    · exact absurd h (by simp)
  · rintro ⟨e, hvalid, rfl, rfl⟩
    cases e with
    | kty =>
      refine ⟨0, 1, _, ⟨by norm_num, by norm_num, List.append_assoc ..⟩, ?_⟩
      rw [if_pos ⟨rfl, rfl⟩]
      simp only [bind_ok, require_ok, uint_ok, pure_ok]
      exact ⟨1, rest, ⟨by norm_num, rfl⟩, (), rest, ⟨rfl, rfl⟩, rfl, rfl⟩
    | alg =>
      refine ⟨0, 3, _, ⟨by norm_num, by norm_num, List.append_assoc ..⟩, ?_⟩
      rw [if_neg (by norm_num), if_pos ⟨rfl, rfl⟩]
      simp only [bind_ok, Prod.exists, require_ok, head_ok, pure_ok]
      exact ⟨1, 7, rest, ⟨by norm_num, by norm_num, rfl⟩, (), rest, ⟨⟨rfl, rfl⟩, rfl⟩, rfl, rfl⟩
    | crv =>
      refine ⟨1, 0, _, ⟨by norm_num, by norm_num, List.append_assoc ..⟩, ?_⟩
      rw [if_neg (by norm_num), if_neg (by norm_num), if_pos ⟨rfl, rfl⟩]
      simp only [bind_ok, require_ok, uint_ok, pure_ok]
      exact ⟨6, rest, ⟨by norm_num, rfl⟩, (), rest, ⟨rfl, rfl⟩, rfl, rfl⟩
    | x key =>
      have hlength : key.length = 32 := hvalid
      refine ⟨1, 1, _, ⟨by norm_num, by norm_num, List.append_assoc ..⟩, ?_⟩
      rw [if_neg (by norm_num), if_neg (by norm_num), if_neg (by norm_num), if_pos ⟨rfl, rfl⟩]
      simp only [bind_ok, require_ok, bytes_ok hx, pure_ok]
      exact ⟨key, rest, ⟨by omega, rfl⟩, (), rest, ⟨hlength, rfl⟩, rfl, rfl⟩

/-- A key of the right type and curve whose public key is `k`.  A label may
come again, and the last public key counts. -/
def IsCoseKey (coseKey k : Bytes) : Prop :=
  ∃ es, KeyEntry.spelling.Spells es coseKey ∧ .kty ∈ es ∧ .crv ∈ es ∧
    lastOf KeyEntry.x? es = some k

theorem KeyEntry.foldl_ktyOk (es : List KeyEntry) (fields : KeyFields) :
    (es.foldl apply fields).ktyOk = true ↔ fields.ktyOk = true ∨ .kty ∈ es := by
  induction es generalizing fields with
  | nil => simp
  | cons e es ih =>
    rw [List.foldl_cons, ih]
    cases e <;> simp [apply]

theorem KeyEntry.foldl_crvOk (es : List KeyEntry) (fields : KeyFields) :
    (es.foldl apply fields).crvOk = true ↔ fields.crvOk = true ∨ .crv ∈ es := by
  induction es generalizing fields with
  | nil => simp
  | cons e es ih =>
    rw [List.foldl_cons, ih]
    cases e <;> simp [apply]

theorem KeyEntry.foldl_x (es : List KeyEntry) : (es.foldl apply {}).x = lastOf x? es := by
  rw [foldl_field KeyFields.x x? (by intro acc e; cases e <;> rfl), Option.or_none]

theorem parseCoseKey_ok {coseKey k : Bytes} :
    parseCoseKey.parse coseKey = .ok k ↔ IsCoseKey coseKey k := by
  simp only [parse_ok, parseCoseKey, bind_ok, done_ok, require_ok, okOr_ok]
  constructor
  · rintro ⟨_, n, _, hlen, fields, _, hloop, _, _, ⟨rfl, rfl⟩, _, _, ⟨⟨hkty, hcrv⟩, rfl⟩, hx, rfl⟩
    obtain ⟨es, span, hspells, hfold, rfl⟩ := Spelling.map_sound
      (fun fields input fields' rest => (coseKeyField_ok fields input fields' rest).mp) hlen hloop
    rw [foldlM_some, Option.some.injEq] at hfold
    subst hfold
    rw [KeyEntry.foldl_ktyOk] at hkty
    rw [KeyEntry.foldl_crvOk] at hcrv
    rw [KeyEntry.foldl_x] at hx
    exact ⟨es, by rwa [List.append_nil], by simpa using hkty, by simpa using hcrv, hx⟩
  · rintro ⟨es, hspells, hkty, hcrv, hx⟩
    obtain ⟨hlen, hloop⟩ := Spelling.map_complete
      (fun fields fields' rest e hvalid happly =>
        (coseKeyField_ok fields _ fields' rest).mpr ⟨e, hvalid, happly, rfl⟩) hspells
      (foldlM_some KeyEntry.apply es {})
    rw [List.append_nil] at hlen
    exact ⟨[], _, _, hlen, _, _, hloop, (), [], ⟨rfl, rfl⟩, (), [],
      ⟨⟨(KeyEntry.foldl_ktyOk es {}).mpr (.inr hkty), (KeyEntry.foldl_crvOk es {}).mpr (.inr hcrv)⟩,
        rfl⟩, (KeyEntry.foldl_x es).trans hx, rfl⟩

end CognoChain.Cip8
