import CognoChain.Model.Lock
import CognoChain.Bind.Kinds
import CognoChain.Bind.Owner
import CognoChain.Read.Vault
import CognoChain.Ledger.Frontier

/-!
# What a lock credits

The app and the chain both write the owner of a wallet as Plutus data, and both
hash it: the app names the beacon by the hash, the chain binds the account to
it.  The app writes every stake credential as a key, so the two agree for an
address whose stake part is a key hash, and the observer then credits the lock
to the bound account.  For a script stake part the beacon names an identity
nobody is bound to.
-/

namespace CognoChain.Client

open Substrate Substrate.Reader Substrate.Cbor Cip8 StorageMap

/-! ## Hex -/

theorem hexDigit_hexDigitText {digit : ℕ} (hdigit : digit < 16) :
    CognoChain.hexDigit (hexDigitText digit) = some digit := by
  revert digit
  decide

theorem bytesToHex_cons (x : UInt8) (b : Bytes) :
    bytesToHex (x :: b) =
      hexDigitText (x.toNat / 16) :: hexDigitText (x.toNat % 16) :: bytesToHex b := rfl

theorem bytesToHex_length (b : Bytes) : (bytesToHex b).length = 2 * b.length := by
  induction b with
  | nil => rfl
  | cons x b ih =>
    rw [bytesToHex_cons, List.length_cons, List.length_cons, List.length_cons, ih]
    omega

theorem high_lt (x : UInt8) : x.toNat / 16 < 16 := by
  have := x.toNat_lt
  omega

theorem low_lt (x : UInt8) : x.toNat % 16 < 16 := Nat.mod_lt _ (by norm_num)

theorem ofNat_halves (x : UInt8) : UInt8.ofNat (16 * (x.toNat / 16) + x.toNat % 16) = x := by
  rw [Nat.div_add_mod, UInt8.ofNat_toNat]

theorem parsePairs_bytesToHex (b : Bytes) : parsePairs (bytesToHex b) = b := by
  induction b with
  | nil => rfl
  | cons x b ih =>
    rw [bytesToHex_cons, parsePairs, ih, parsePair, hexDigit_hexDigitText (high_lt x),
      hexDigit_hexDigitText (low_lt x)]
    simp only [ofNat_halves]

theorem hexPairs_bytesToHex (b : Bytes) : hexPairs (bytesToHex b) = some b := by
  induction b with
  | nil => rfl
  | cons x b ih =>
    rw [bytesToHex_cons, hexPairs, hexDigit_hexDigitText (high_lt x),
      hexDigit_hexDigitText (low_lt x), ih]
    exact congrArg (fun byte => some (byte :: b)) (ofNat_halves x)

theorem bytesToHex_unmarked (b : Bytes) : (ascii "0x").isPrefixOf (bytesToHex b) = false := by
  cases b with
  | nil => rfl
  | cons x b =>
    have hdigits : ∀ digit < 16, hexDigitText digit ≠ 120 := by decide
    have hmark : ascii "0x" = [48, 120] := by decide
    have hlow : (120 == hexDigitText (x.toNat % 16)) = false := by
      simpa [beq_eq_false_iff_ne] using (hdigits _ (low_lt x)).symm
    simp [bytesToHex_cons, hmark, List.isPrefixOf, hlow]

theorem hexToBytes_bytesToHex (b : Bytes) : hexToBytes (bytesToHex b) = .ok b := by
  have heven : (bytesToHex b).length % 2 = 0 := by
    rw [bytesToHex_length]
    omega
  simp [hexToBytes, bytesToHex_unmarked, heven, parsePairs_bytesToHex]

theorem hex32_bytesToHex {b : Bytes} (hlength : b.length = 32) :
    hex32 (bytesToHex b) = some (IdentityHash.ofBytes b) := by
  have hwidth : (bytesToHex b).length = 2 * 32 := by rw [bytesToHex_length, hlength]
  simp [hex32, hexBytes, bytesToHex_unmarked, hwidth, hexPairs_bytesToHex]

/-! ## The owner the app writes -/

theorem bstr_bytesToHex {h : Bytes} (hlength : h.length = 28) :
    bstr (bytesToHex h) = .ok (hash28 h) := by
  rw [bstr, hexToBytes_bytesToHex]
  simp [bind, Except.bind, hlength, hash28]

variable {payment : Bytes} {network : ℕ} {address identity : Bytes} {stake : Stake} {tx : LockTx}
  {account : AccountId}

/-- Whatever the stake hash is of, the app writes it as a key. -/
theorem addressCbor_eq {stake : Bytes} (hpayment : payment.length = 28) (hstake : stake.length = 28) :
    addressCbor (bytesToHex payment) (bytesToHex stake) =
      .ok (plutusAddressCbor payment (.keyHash stake)) := by
  rw [addressCbor, bstr_bytesToHex hpayment, bstr_bytesToHex hstake]
  simp [bind, Except.bind, constr0, plutusAddressCbor, credential, constrOpen, close]

def stakeHash : Stake → Option Bytes
  | .none => none
  | .keyHash h | .scriptHash h => some h

def delegationOf : Stake → Option CredentialPart
  | .none => none
  | .keyHash h => some (credentialPart false h)
  | .scriptHash h => some (credentialPart true h)

theorem header_kind {kind : ℕ} (hkind : kind < 16) (hnetwork : network < 16) :
    (UInt8.ofNat (16 * kind + network)).toNat / 16 = kind := by
  rw [UInt8.toNat_ofNat']
  omega

theorem getProps_owner (howner : IsOwnerAddress network address payment stake) :
    getProps address = some ⟨some (credentialPart false payment), delegationOf stake⟩ := by
  obtain ⟨hnetwork, hpayment, hstake, rfl⟩ := howner
  cases stake with
  | none =>
    simp only [ownerBytes, getProps, header_kind (show 0b0110 < 16 by norm_num) hnetwork,
      List.take_of_length_le hpayment.le]
    simp [hpayment, delegationOf]
  | keyHash h =>
    have hlength : h.length = 28 := hstake
    simp only [ownerBytes, getProps, header_kind (show 0b0000 < 16 by norm_num) hnetwork,
      List.take_left' hpayment, List.drop_left' hpayment]
    simp [hpayment, hlength, delegationOf]
  | scriptHash h =>
    have hlength : h.length = 28 := hstake
    simp only [ownerBytes, getProps, header_kind (show 0b0010 < 16 by norm_num) hnetwork,
      List.take_left' hpayment, List.drop_left' hpayment]
    simp [hpayment, hlength, delegationOf]

theorem ownerOf_ok {owner : OwnerKeys} (hparse : IsOwnerAddress network address payment stake)
    (h : ownerOf address = .ok owner) :
    ∃ hash, stakeHash stake = some hash ∧ hash.length = 28 ∧
      owner = ⟨address, bytesToHex payment, bytesToHex hash⟩ := by
  rw [ownerOf, getProps_owner hparse] at h
  have hsized := hparse.stake_length
  cases stake with
  | none => cases h
  | keyHash hash | scriptHash hash =>
    refine ⟨hash, rfl, hsized, ?_⟩
    simp only [credentialPart, delegationOf, Bool.false_eq_true, if_false] at h
    split_ifs at h
    exact (Except.ok.inj h).symm

/-! ## The transaction -/

structure BuiltFrom (crypto : Crypto) (script : VaultScript) (around : Surroundings)
    (lockLovelace : ℕ) (tx : LockTx) (keys : OwnerKeys) : Prop where
  owner : ownerOf around.changeAddress = .ok keys
  beacon : beaconNameHex crypto keys.paymentKeyHash keys.stakeKeyHash = .ok tx.beacon
  datum : vaultDatumCborHex keys.paymentKeyHash keys.stakeKeyHash = .ok tx.datum
  redeemer : mintRedeemerCborHex keys.paymentKeyHash keys.stakeKeyHash = .ok tx.redeemer
  policy : tx.policy = script.hash
  lovelace : tx.lovelace = lockLovelace
  floor : script.minLock ≤ lockLovelace

theorem preflightLock_floor {crypto : Crypto} {minLock lockLovelace : ℕ} {keys : OwnerKeys}
    {beacon : Bytes} {done : Unit}
    (h : preflightLock crypto minLock keys lockLovelace beacon = .ok done) :
    minLock ≤ lockLovelace := by
  unfold preflightLock at h
  split_ifs at h with _ _ hfloor
  exact Nat.le_of_not_lt hfloor

section Flow

variable {crypto : Crypto} {script : VaultScript} {around : Surroundings} {lockLovelace : ℕ}
  {tx : LockTx}

theorem lockIntoVault_ok (h : lockIntoVault crypto script around lockLovelace = .ok tx) :
    ∃ keys, BuiltFrom crypto script around lockLovelace tx keys := by
  simp only [lockIntoVault, except_bind_ok] at h
  obtain ⟨-, -, -, -, network, -, keys, hkeys, info, hinfo, done, hpreflight, -, -, -, -, collateral,
    -, datum, hdatum, redeemer, hredeemer, htx⟩ := h
  have hfloor := preflightLock_floor hpreflight
  simp only [vaultInfoFor, except_bind_ok] at hinfo
  obtain ⟨vaultAddress, -, beacon, hbeacon, hinfo⟩ := hinfo
  obtain rfl := Except.ok.inj hinfo
  obtain rfl := Except.ok.inj htx
  exact ⟨keys, hkeys, hbeacon, hdatum, hredeemer, rfl, rfl, hfloor⟩

theorem lock_texts (howner : IsOwnerAddress network around.changeAddress payment stake)
    (h : lockIntoVault crypto script around lockLovelace = .ok tx) :
    ∃ hash, stakeHash stake = some hash ∧
      tx.beacon = bytesToHex (crypto.blake2b256 (plutusAddressCbor payment (.keyHash hash))) ∧
      tx.datum = bytesToHex (constr0 [plutusAddressCbor payment (.keyHash hash)]) ∧
      tx.redeemer =
        bytesToHex (indefList [constr0 [plutusAddressCbor payment (.keyHash hash)]]) := by
  obtain ⟨keys, hbuilt⟩ := lockIntoVault_ok h
  obtain ⟨hash, hhash, hlength, rfl⟩ := ownerOf_ok howner hbuilt.owner
  have hcbor := addressCbor_eq howner.payment_length hlength
  have hbeacon := hbuilt.beacon
  have hdatum := hbuilt.datum
  have hredeemer := hbuilt.redeemer
  simp only [beaconNameHex, hcbor] at hbeacon
  simp only [vaultDatumCborHex, hcbor] at hdatum
  simp only [mintRedeemerCborHex, hcbor] at hredeemer
  exact ⟨hash, hhash, (Except.ok.inj hbeacon).symm, (Except.ok.inj hdatum).symm,
    (Except.ok.inj hredeemer).symm⟩

end Flow

/-! ## Plutus data -/

def vaultDatumOf (owner : PlutusData) : PlutusData := .constr 0 [owner]

def mintOf (owner : PlutusData) : PlutusData := .constr 0 [owner]

def serialiseList : List PlutusData → Bytes
  | [] => encodeHead 4 0
  | item :: items => [0x9f] ++ (item.serialise ++ PlutusData.serialiseFields items) ++ [0xff]

theorem serialise_constr0 (owner : PlutusData) :
    (PlutusData.constr 0 [owner]).serialise = constr0 [owner.serialise] := by
  have htag : encodeHead 6 (121 + 0) = [0xd8, 0x79] := by decide
  simp [PlutusData.serialise, PlutusData.serialiseFields, constr0, htag]

theorem serialise_mint (owner : PlutusData) :
    serialiseList [mintOf owner] = indefList [constr0 [owner.serialise]] := by
  simp [serialiseList, mintOf, serialise_constr0, PlutusData.serialiseFields, indefList]

theorem plutusAddressCbor_serialise {hash : Bytes} (hpayment : payment.length = 28)
    (hhash : hash.length = 28) :
    plutusAddressCbor payment (.keyHash hash) = (ownerData payment (.keyHash hash)).serialise := by
  have hsized : (Stake.keyHash hash).WellSized := hhash
  rw [plutusAddressCbor_eq hpayment hsized]
  exact (ownerData_serialise payment (.keyHash hash)).mpr (by simp)

/-! ## The observer -/

/-- A match the node read is the output of the lock: the beacon is the one asset
under the policy, next to the locked amount. -/
structure LockTx.SeenAs (tx : LockTx) (m : Json) (created : ℕ) : Prop where
  value : ∃ value quantity, m.get "value" = some value ∧
    value.get "assets" = some (.obj [(tx.policy ++ dot :: tx.beacon, quantity)]) ∧
    asU64 quantity = some 1 ∧ (value.get "coins").bind asU128 = some tx.lovelace
  created : slotNo m "created_at" = some created

/-- At a slot the lock is on the chain and not spent, and no other vault of its
beacon holds more. -/
structure LockTx.StandsAt (tx : LockTx) (toLowercase : Bytes → Bytes) (ms : List Json)
    (slot : ℕ) : Prop where
  seen : ∃ m ∈ ms, ∃ created, tx.SeenAs m created ∧ created ≤ slot ∧
    (slotNo m "spent_at").all (fun spent => slot < spent)
  largest : ∀ c ∈ candidateTuples toLowercase ms tx.policy, c.lockedAt slot →
    hex32 tx.beacon = some c.beacon → c.coins ≤ tx.lovelace

theorem asset_key_split {policy : Bytes} (name : Bytes) (hpolicy : dot ∉ policy) :
    assetPolicy (policy ++ dot :: name) = policy ∧
      assetName (policy ++ dot :: name) = some name := by
  have hall : ∀ byte ∈ policy, decide (byte ≠ dot) = true := by
    intro byte hbyte
    exact decide_eq_true (fun heq => hpolicy (heq ▸ hbyte))
  constructor
  · rw [assetPolicy, List.takeWhile_append_of_pos hall]
    simp
  · rw [assetName, List.dropWhile_append_of_pos hall]
    simp

theorem VaultScript.dot_notMem (script : VaultScript) : dot ∉ script.hash := by
  intro hdot
  have hdigit := script.hash_hex dot hdot
  revert hdigit
  decide

theorem candidateOf_seen {m : Json} {created : ℕ} (toLowercase : Bytes → Bytes)
    (hseen : tx.SeenAs m created) (hpolicy : dot ∉ tx.policy)
    (hbeacon : tx.beacon = bytesToHex identity) (hlength : identity.length = 32) :
    candidateOf toLowercase (toLowercase tx.policy) m =
      some ⟨IdentityHash.ofBytes identity, created, slotNo m "spent_at", tx.lovelace⟩ := by
  obtain ⟨⟨value, quantity, hvalue, hassets, hone, hcoins⟩, hcreated⟩ := hseen
  obtain ⟨hkey, hname⟩ := asset_key_split tx.beacon hpolicy
  have hfound : vaultAssets toLowercase (toLowercase tx.policy) value =
      (some (IdentityHash.ofBytes identity), 1) := by
    have hhex : hex32 tx.beacon = some (IdentityHash.ofBytes identity) := by
      rw [hbeacon, hex32_bytesToHex hlength]
    simp [vaultAssets, hassets, Json.asObject, hkey, hname, hone, hhex]
  simp [candidateOf, hvalue, hfound, hcreated, hcoins]

/-! The largest vault of a beacon. -/

section Largest

variable {largest : StorageMap BeaconName ℕ} {beacon : BeaconName} {most : ℕ} {cs : List Candidate}
  {c : Candidate}

theorem keepLargest_getD_le (hle : largest.getD beacon 0 ≤ most)
    (hc : beacon = c.beacon → c.coins ≤ most) :
    (keepLargest largest c).getD beacon 0 ≤ most := by
  rw [keepLargest, getD_insert]
  split_ifs with hbeacon
  · rw [← hbeacon]
    exact max_le hle (hc hbeacon)
  · exact hle

theorem foldl_keepLargest_getD_le (hle : largest.getD beacon 0 ≤ most)
    (hcs : ∀ c ∈ cs, beacon = c.beacon → c.coins ≤ most) :
    (cs.foldl keepLargest largest).getD beacon 0 ≤ most := by
  induction cs generalizing largest with
  | nil => exact hle
  | cons c cs ih =>
    exact ih (keepLargest_getD_le hle (hcs c (by simp)))
      (fun d hd => hcs d (List.mem_cons_of_mem _ hd))

theorem foldl_keepLargest_get (hget : largest.get beacon = some most)
    (hcs : ∀ c ∈ cs, beacon = c.beacon → c.coins ≤ most) :
    (cs.foldl keepLargest largest).get beacon = some most := by
  induction cs generalizing largest with
  | nil => exact hget
  | cons c cs ih =>
    have hhead := hcs c (by simp)
    apply ih _ (fun d hd => hcs d (List.mem_cons_of_mem _ hd))
    rw [keepLargest, get_insert]
    split_ifs with hbeacon
    · rw [← hbeacon, getD, hget, Option.getD_some, max_eq_left (hhead hbeacon)]
    · exact hget

theorem largestWins_of_most (hmem : c ∈ cs)
    (hmost : ∀ d ∈ cs, c.beacon = d.beacon → d.coins ≤ c.coins) :
    (c.beacon, c.coins) ∈ largestWins cs := by
  obtain ⟨before, after, rfl⟩ := List.append_of_mem hmem
  rw [largestWins, ← get_eq_some_iff, List.foldl_append, List.foldl_cons]
  apply foldl_keepLargest_get
  · have hle : (before.foldl keepLargest ∅).getD c.beacon 0 ≤ c.coins :=
      foldl_keepLargest_getD_le (by simp) (fun d hd => hmost d (by simp [hd]))
    rw [keepLargest, get_insert_self, max_eq_right hle]
  · intro d hd
    exact hmost d (by simp [hd])

end Largest

theorem desiredRows_of_mem {K : Type} [StorageKey K] {resolve : K → Option AccountId}
    {value : ℕ → ℕ} {bound : ℕ} {entries : List (K × ℕ)} {k : K} {raw : ℕ}
    (hkeys : (entries.map Prod.fst).Nodup) (hmem : (k, raw) ∈ entries)
    (hresolve : resolve k = some account) (hbound : value raw ≤ bound) :
    (Runtime.desiredRows resolve value bound entries).get k = some (account, value raw) := by
  obtain ⟨before, after, rfl⟩ := List.append_of_mem hmem
  have hafter : ∀ entry ∈ after, k ≠ entry.1 := by
    intro entry hentry heq
    rw [List.map_append, List.map_cons, List.nodup_append, List.nodup_cons] at hkeys
    exact hkeys.2.1.1 (List.mem_map.mpr ⟨entry, hentry, heq.symm⟩)
  rw [Runtime.desiredRows, List.foldl_append, List.foldl_cons]
  refine List.foldlRecOn (motive := fun rows : StorageMap K (AccountId × ℕ) =>
    rows.get k = some (account, value raw)) after _ ?_ ?_
  · simp only [hresolve, Nat.not_lt.mpr hbound, if_false, get_insert_self]
  · -- the entries after it are of other keys
    intro rows hrows entry hentry
    split
    · exact hrows
    · split_ifs
      · exact hrows
      · rw [get_insert_of_ne _ _ (hafter entry hentry)]
        exact hrows

theorem LockTx.StandsAt.observed {toLowercase : Bytes → Bytes} {ms : List Json} {slot : ℕ}
    (hstands : tx.StandsAt toLowercase ms slot) (hpolicy : dot ∉ tx.policy)
    (hbeacon : tx.beacon = bytesToHex identity) (hlength : identity.length = 32)
    (hlovelace : 0 < tx.lovelace) :
    (IdentityHash.ofBytes identity, tx.lovelace) ∈ observeAsOf toLowercase ms tx.policy slot := by
  obtain ⟨m, hm, created, hseen, hcreated, hspent⟩ := hstands.seen
  have hcandidate := candidateOf_seen toLowercase hseen hpolicy hbeacon hlength
  have hhex : hex32 tx.beacon = some (IdentityHash.ofBytes identity) := by
    rw [hbeacon, hex32_bytesToHex hlength]
  have hlisted := List.mem_filterMap.mpr ⟨m, hm, hcandidate⟩
  rw [← List.mem_insertionSort (fun a b : Candidate => a.rank ≤ b.rank)] at hlisted
  rw [observeAsOf_eq]
  apply largestWins_of_most (List.mem_filter.mpr ⟨hlisted, ?_⟩)
  · intro c hc hsame
    obtain ⟨hmem, hlocked⟩ := List.mem_filter.mp hc
    exact hstands.largest c hmem hlocked (hhex.trans (congrArg some hsame))
  · simp [Candidate.lockedAt, hcreated, hspent, hlovelace]

theorem observed_credited {cfg : Config} {s : Runtime} {obs : CardanoObservation}
    {beacon : BeaconName} {lovelace : ℕ} (hsound : s.axes.VaultSound)
    (henforce : s.observer.enforceWeight = true) (hrecords : s.recordsReference cfg obs = true)
    (haccount : s.resolveBeacon beacon = some account) (hkeys : (obs.entries.map Prod.fst).Nodup)
    (hentry : (beacon, lovelace) ∈ obs.entries) (hfloor : cfg.minLock ≤ lovelace)
    (hceiling : lovelace ≤ cfg.maxStakeWeight) :
    (s.observeSnapshot cfg obs).weightOf account = lovelace := by
  have hweight : flooredWeight cfg lovelace = lovelace := if_pos hfloor
  have hrow : (s.vaultDesired cfg obs).get beacon = some (account, lovelace) := by
    have hdesired : (s.vaultDesired cfg obs).get beacon =
        some (account, flooredWeight cfg lovelace) :=
      desiredRows_of_mem hkeys hentry haccount (by rwa [hweight])
    rwa [hweight] at hdesired
  have hfollow : WeightsFollow (s.observeSnapshot cfg obs)
      (s.observeSnapshot cfg obs).observer.lastObserved :=
    (Runtime.observeSnapshot_vaultSound hsound).weightsFollow
  rw [Runtime.lastObserved_of_enforcing hrecords henforce] at hfollow
  exact hfollow.backed beacon account lovelace hrow

/-! ## The account of the wallet -/

/-- A reachable chain has the lock in its read and applies it: the account is
bound to the identity, weights are enforced, and the block carries the whole
difference of a snapshot in which the lock stands. -/
structure Observes (cfg : Config) (ops : List Op) (obs : CardanoObservation)
    (account : AccountId) (identity : Bytes) (tx : LockTx) : Prop where
  derived : ∀ op ∈ ops, op.derived
  bound : (Runtime.genesis.run cfg ops).resolveBeacon (IdentityHash.ofBytes identity) = some account
  enforced : (Runtime.genesis.run cfg ops).observer.enforceWeight = true
  whole : (Runtime.genesis.run cfg ops).recordsReference cfg obs = true
  stands : ∃ toLowercase ms, tx.StandsAt toLowercase ms obs.reference.slot ∧
    obs.entries = observeAsOf toLowercase ms tx.policy obs.reference.slot
  ceiling : tx.lovelace ≤ cfg.maxStakeWeight

def checksum : Crypto :=
  { Crypto.toy with
    blake2b256 := fun bytes => UInt8.ofNat (bytes.map UInt8.toNat).sum :: List.replicate 31 0
    blake2b256_length := fun _ => rfl }

def messageOver (address : Bytes) : Bytes :=
  encodeHead 4 4 ++
    (encodeString 2 (encodeHead 5 2 ++ ProtectedEntry.spelling.entry .alg ++
        ProtectedEntry.spelling.entry (.address address)) ++
      (encodeHead 5 0 ++
        (encodeString 2
            (bindText (List.replicate 32 1) (List.replicate 32 2) (List.replicate 16 3)) ++
          encodeString 2 (List.replicate 64 0))))

def abVault : VaultScript where
  hash := ascii "ab"
  minLock := 100000000
  hash_hex := List.all_eq_true.mp (by decide)

def fundedWallet (changeAddress : Bytes) : Surroundings where
  intact := true
  observedPolicyId := none
  chain := .ok 0
  networkLabel _ := "testnet"
  walletNetworkId := 0
  changeAddress := changeAddress
  existing := .none
  utxos := [⟨[(ascii "lovelace", 500000000)]⟩]
  collateral := []

def keyStakeAddress : Bytes := 0x00 :: (List.replicate 28 0 ++ List.replicate 28 1)

def scriptStakeAddress : Bytes := 0x20 :: (List.replicate 28 0 ++ List.replicate 28 1)

def leastLock (changeAddress : Bytes) : LockTx :=
  let owner := plutusAddressCbor (List.replicate 28 0) (.keyHash (List.replicate 28 1))
  let beacon := bytesToHex (checksum.blake2b256 owner)
  { policy := ascii "ab"
    beacon := beacon
    redeemer := bytesToHex (indefList [constr0 [owner]])
    vaultAddress := 0x10 :: 0xab :: List.replicate 28 1
    lovelace := 100000000
    unit := ascii "ab" ++ beacon
    datum := bytesToHex (constr0 [owner])
    collateral := ⟨[(ascii "lovelace", 500000000)]⟩
    requiredSigner := bytesToHex (List.replicate 28 0)
    changeAddress := changeAddress }

def boundBy (stake : Stake) : VerifiedProof where
  identity := checksum.blake2b256 (plutusAddressCbor (List.replicate 28 0) stake)
  account := List.replicate 32 2
  genesis := List.replicate 32 1

def seenLock : Json :=
  .obj [(ascii "value", .obj [(ascii "coins", .uint 100000000),
      (ascii "assets", .obj [((leastLock keyStakeAddress).policy ++
        dot :: (leastLock keyStakeAddress).beacon, .uint 1)])]),
    (ascii "created_at", .obj [(ascii "slot_no", .uint 3)]), (ascii "spent_at", .null)]

def walletChain : Config :=
  { Config.toy with
    verifyIdentityProof := fun _ =>
      .ok (⟨1⟩, IdentityHash.ofBytes (boundBy (.keyHash (List.replicate 28 1))).identity) }

def bindWallet : List Op :=
  [.nextBlock 0, .call .none (.gate (.linkIdentitySigned ⟨[], []⟩)),
    .call .authority (.observer (.setEnforcement true))]

def lockSnapshot : CardanoObservation :=
  ⟨⟨10, 0⟩, 0, observeAsOf id [seenLock] (ascii "ab") 10, [], []⟩

end CognoChain.Client
