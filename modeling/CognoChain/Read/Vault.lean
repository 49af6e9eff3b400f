import CognoChain.Model.Reduction
import CognoChain.Ledger.Agreement

/-!
# The vault read and its commitment

The as-of walk and the candidate walk read the same fields of a match, so the
entries at a slot are a function of the candidates.  The candidates encode
injectively, hence nodes whose commitments agree derive the same vault changes.
-/

namespace CognoChain

open Substrate

def Candidate.lockedAt (referenceSlot : ℕ) (c : Candidate) : Bool :=
  decide (c.created ≤ referenceSlot) && c.spent.all (fun spent => referenceSlot < spent) &&
    decide (0 < c.coins)

def keepLargest (largest : StorageMap BeaconName ℕ) (c : Candidate) : StorageMap BeaconName ℕ :=
  largest.insert c.beacon (max (largest.getD c.beacon 0) c.coins)

def largestWins (cs : List Candidate) : List (BeaconName × ℕ) :=
  (cs.foldl keepLargest ∅).entries

section Walk

variable (toLowercase : Bytes → Bytes) (vh : Bytes) (referenceSlot : ℕ)

theorem any_le_eq_not_all_lt (spent : Option ℕ) :
    spent.any (fun slot => slot ≤ referenceSlot) =
      !spent.all (fun slot => referenceSlot < slot) := by
  cases spent with
  | none => rfl
  | some slot =>
    rw [Option.any_some, Option.all_some, ← decide_not, decide_eq_decide]
    exact Nat.not_lt.symm

/-- The time tests of the as-of walk come between the structural ones, and skip
what the filter skips. -/
theorem observeMatch_eq (largest : StorageMap BeaconName ℕ) (m : Json) :
    observeMatch toLowercase vh referenceSlot largest m =
      ((candidateOf toLowercase vh m).toList.filter (Candidate.lockedAt referenceSlot)).foldl
        keepLargest largest := by
  unfold observeMatch candidateOf
  -- up to the creation slot both walks make the same tests in the same order
  split
  · rfl
  dsimp only
  split
  · rfl
  split
  · rfl
  split
  · rfl
  rename_i beacon _ _ created _
  rw [any_le_eq_not_all_lt]
  cases (Json.get "coins" _).bind asU128 with
  | none => simp
  | some coins =>
    simp only [Option.toList_some, List.filter_singleton, Candidate.lockedAt]
    by_cases hcreated : referenceSlot < created
    · simp [hcreated, Nat.not_le.mpr hcreated]
    cases (slotNo m "spent_at").all (fun slot => referenceSlot < slot) with
    | false => simp
    | true =>
      by_cases hcoins : coins = 0
      · simp [hcoins]
      · have hmax : (if largest.getD beacon 0 < coins then coins else largest.getD beacon 0) =
            max (largest.getD beacon 0) coins := by
          split_ifs <;> omega
        simp [hcreated, hcoins, Nat.not_lt.mp hcreated, Nat.pos_of_ne_zero hcoins,
          keepLargest, hmax]

theorem foldl_observeMatch (ms : List Json) (largest : StorageMap BeaconName ℕ) :
    ms.foldl (observeMatch toLowercase vh referenceSlot) largest =
      ((ms.filterMap (candidateOf toLowercase vh)).filter
        (Candidate.lockedAt referenceSlot)).foldl keepLargest largest := by
  induction ms generalizing largest with
  | nil => rfl
  | cons m ms ih =>
    rw [List.foldl_cons, ih, observeMatch_eq, List.filterMap_cons]
    cases candidateOf toLowercase vh m with
    | none => rfl
    | some c =>
      simp only [Option.toList_some, List.filter_cons]
      split_ifs <;> rfl

end Walk

/-! ## The order of the candidates does not matter -/

theorem keepLargest_comm (largest : StorageMap BeaconName ℕ) (a b : Candidate) :
    keepLargest (keepLargest largest a) b = keepLargest (keepLargest largest b) a := by
  apply StorageMap.ext_get
  intro beacon
  unfold keepLargest
  simp only [StorageMap.get_insert, StorageMap.getD_insert]
  by_cases hsame : a.beacon = b.beacon
  · by_cases hbeacon : beacon = b.beacon
    · simp [hsame, hbeacon, max_right_comm]
    · simp [hsame, hbeacon]
  · have hsame' : b.beacon ≠ a.beacon := fun h => hsame h.symm
    by_cases hbeacon : beacon = b.beacon
    · simp [hbeacon, hsame']
    · simp [hbeacon, hsame]

theorem largestWins_perm {cs cs' : List Candidate} (hperm : cs.Perm cs') :
    largestWins cs = largestWins cs' := by
  unfold largestWins
  rw [hperm.foldl_eq' (fun a _ b _ largest => keepLargest_comm largest a b) ∅]

theorem observeAsOf_eq (toLowercase : Bytes → Bytes) (ms : List Json) (vaultHash : Bytes)
    (referenceSlot : ℕ) :
    observeAsOf toLowercase ms vaultHash referenceSlot =
      largestWins ((candidateTuples toLowercase ms vaultHash).filter
        (Candidate.lockedAt referenceSlot)) := by
  have hperm := (List.perm_insertionSort (fun a b : Candidate => a.rank ≤ b.rank)
    (ms.filterMap (candidateOf toLowercase (toLowercase vaultHash)))).filter
      (Candidate.lockedAt referenceSlot)
  rw [observeAsOf, foldl_observeMatch]
  exact (largestWins_perm hperm).symm

/-! ## The encoding of the candidates -/

/-- A candidate whose fields are in the range of their types. -/
structure Candidate.InRange (c : Candidate) : Prop where
  beacon : c.beacon.raw < 256 ^ 32
  created : c.created < 256 ^ 8
  spent : ∀ slot ∈ c.spent, slot < 256 ^ 8
  coins : c.coins < 256 ^ 16

theorem asUint_le {bound n : ℕ} {v : Json} (hbound : u64Max ≤ bound)
    (h : asUint bound v = some n) : n ≤ bound := by
  unfold asUint at h
  split at h
  · rename_i value hvalue
    cases v with
    | uint word =>
      have hword : word.toNat = n := by simpa [Json.asUint64, hvalue] using hvalue.trans h
      have hlt := word.toNat_lt
      unfold u64Max at hbound
      omega
    | _ => cases hvalue
  · split at h
    · cases h
    · split_ifs at h
      unfold parseDigits at h
      dsimp only at h
      split_ifs at h with hle
      rwa [← Option.some.inj h]

variable {text vh vaultHash : Bytes} {beacon : BeaconName} {m : Json} {ms : List Json}

theorem hexPairs_length {bytes : Bytes} (h : hexPairs text = some bytes) :
    2 * bytes.length ≤ text.length := by
  fun_induction hexPairs text generalizing bytes with
  | case1 hi lo rest ih =>
    simp only [bind, Option.bind_eq_some_iff] at h
    obtain ⟨high, -, low, -, tail, htail, heq⟩ := h
    have htail := ih htail
    rw [← Option.some.inj heq, List.length_cons, List.length_cons, List.length_cons]
    omega
  | case2 => simp [← Option.some.inj h]

theorem hex32_lt (h : hex32 text = some beacon) :
    beacon.raw < 256 ^ 32 := by
  obtain ⟨bytes, hbytes, rfl⟩ := Option.map_eq_some_iff.mp h
  unfold hexBytes at hbytes
  dsimp only at hbytes
  split_ifs at hbytes with _ hlength hlength
  all_goals
    have hle := hexPairs_length hbytes
    have hwidth : bytes.length ≤ 32 := by omega
    exact (beVal_lt bytes).trans_le (Nat.pow_le_pow_right (by norm_num) hwidth)

variable {toLowercase : Bytes → Bytes}

theorem vaultAssets_lt {value : Json} (h : (vaultAssets toLowercase vh value).1 = some beacon) :
    beacon.raw < 256 ^ 32 := by
  unfold vaultAssets at h
  revert h
  -- every beacon the loop has seen came out of the decoder
  generalize hinit : ((none, 0) : Option BeaconName × ℕ) = seen
  have hseen : ∀ b, seen.1 = some b → b.raw < 256 ^ 32 := by
    rw [← hinit]
    intro b hb
    cases hb
  clear hinit
  induction (((value.get "assets").bind Json.asObject).getD []) generalizing seen with
  | nil => exact hseen beacon
  | cons asset assets ih =>
    rw [List.foldl_cons]
    apply ih
    intro b hb
    split_ifs at hb with hpolicy hqty
    · obtain ⟨name, -, hname⟩ := Option.bind_eq_some_iff.mp hb
      exact hex32_lt hname
    · exact hseen b hb
    · exact hseen b hb

theorem slotNo_lt {field : String} {slot : ℕ} (h : slotNo m field = some slot) :
    slot < 256 ^ 8 := by
  obtain ⟨v, -, hv⟩ := Option.bind_eq_some_iff.mp h
  have hle := asUint_le le_rfl hv
  unfold u64Max at hle
  omega

theorem candidateOf_inRange {c : Candidate} (h : candidateOf toLowercase vh m = some c) :
    c.InRange := by
  unfold candidateOf at h
  split at h
  · cases h
  dsimp only at h
  split_ifs at h
  split at h
  · cases h
  rename_i beacon hbeacon
  split at h
  · cases h
  rename_i created hcreated
  split at h
  · cases h
  rename_i coins hcoins
  rw [← Option.some.inj h]
  refine ⟨vaultAssets_lt hbeacon, slotNo_lt hcreated, fun slot hslot => slotNo_lt hslot, ?_⟩
  obtain ⟨v, -, hv⟩ := Option.bind_eq_some_iff.mp hcoins
  have hle := asUint_le (by decide) hv
  unfold u128Max at hle
  show coins < 256 ^ 16
  omega

theorem candidateTuples_inRange :
    ∀ c ∈ candidateTuples toLowercase ms vaultHash, c.InRange := by
  intro c hc
  rw [candidateTuples, List.mem_insertionSort, List.mem_filterMap] at hc
  obtain ⟨m, -, hm⟩ := hc
  exact candidateOf_inRange hm

theorem Candidate.encode_delimits : Delimits Candidate.InRange Candidate.encode := by
  have hfields := (Delimits.beBytes 32).prod ((Delimits.leBytes 8).prod
    ((Scale.option_delimits (Delimits.leBytes 8)).prod (Delimits.leBytes 16)))
  intro a b rest rest' ha hb heq
  have hsame := @hfields (a.beacon.raw, a.created, a.spent, a.coins)
    (b.beacon.raw, b.created, b.spent, b.coins) rest rest'
    ⟨ha.beacon, ha.created, ha.spent, ha.coins⟩ ⟨hb.beacon, hb.created, hb.spent, hb.coins⟩ heq
  obtain ⟨⟨beacon⟩, created, spent, coins⟩ := a
  obtain ⟨⟨beacon'⟩, created', spent', coins'⟩ := b
  simpa using hsame

theorem candidateBytes_inj {ms' : List Json} {preimage : Bytes}
    (h : candidateBytes toLowercase ms vaultHash = some preimage)
    (h' : candidateBytes toLowercase ms' vaultHash = some preimage) :
    candidateTuples toLowercase ms vaultHash = candidateTuples toLowercase ms' vaultHash :=
  Scale.vec_inj Candidate.encode_delimits candidateTuples_inRange candidateTuples_inRange h h'

/-! ## Equal commitments -/

section Commitment

variable {crypto : Crypto} {toLowercase : Bytes → Bytes} {ms ms' : List Json} {vaultHash : Bytes}
  {preimage preimage' : Bytes} {cfg : Config} {obs : CardanoObservation} {s : Runtime}

theorem candidateTuples_of_inputsCommitment
    (hpre : candidateBytes toLowercase ms vaultHash = some preimage)
    (hpre' : candidateBytes toLowercase ms' vaultHash = some preimage')
    (hinjective : crypto.blake2b256 preimage = crypto.blake2b256 preimage' → preimage = preimage')
    (hsame : inputsCommitment crypto toLowercase ms vaultHash =
      inputsCommitment crypto toLowercase ms' vaultHash) :
    candidateTuples toLowercase ms vaultHash = candidateTuples toLowercase ms' vaultHash := by
  rw [inputsCommitment, inputsCommitment, hpre, hpre', Option.map_some, Option.map_some,
    Option.some.injEq] at hsame
  have hlength : (crypto.blake2b256 preimage).length = (crypto.blake2b256 preimage').length := by
    rw [crypto.blake2b256_length, crypto.blake2b256_length]
  rw [← hinjective (beVal_inj hlength hsame)] at hpre'
  exact candidateBytes_inj hpre hpre'

theorem deriveCall_changes_congr {obs' : CardanoObservation} (hentries : obs.entries = obs'.entries) :
    (s.deriveCall cfg obs).changes = (s.deriveCall cfg obs').changes := by
  simp only [Runtime.deriveCall, Runtime.vaultDelta, Runtime.vaultDesired, hentries]

theorem checkInherent_ne_computeDiverged {upgrades : Upgrades} {args : ObserveArgs}
    (hchanges : args.reference = obs.reference → args.inputsCommitment = obs.inputsCommitment → args.changes = (s.deriveCall cfg obs).changes) :
    s.checkInherent cfg upgrades (.observe args) (some obs) ≠ .error .computeDiverged := by
  unfold Runtime.checkInherent
  dsimp only
  split_ifs with _ _ hdiverged
  · simp
  · simp
  · exact absurd (hchanges hdiverged.1 hdiverged.2.1) hdiverged.2.2
  · simp

end Commitment

/-- The candidates determine the vault entries at every slot.  With a hash that
tells the two pre-images apart, nodes whose commitments agree over one
reference derive the same vault changes, and neither finds that the other's
reduction diverged. -/
theorem candidates_determine_vault (crypto : Crypto) (toLowercase : Bytes → Bytes)
    (vaultHash : Bytes) :
    (∀ ms referenceSlot, observeAsOf toLowercase ms vaultHash referenceSlot =
        largestWins ((candidateTuples toLowercase ms vaultHash).filter
          (Candidate.lockedAt referenceSlot)) ∧
      (observeAsOf toLowercase ms vaultHash referenceSlot).Pairwise
        (fun a b => a.1.raw < b.1.raw)) ∧
    (∀ ms ms', candidateTuples toLowercase ms vaultHash =
        candidateTuples toLowercase ms' vaultHash →
      ∀ referenceSlot, observeAsOf toLowercase ms vaultHash referenceSlot =
        observeAsOf toLowercase ms' vaultHash referenceSlot) ∧
    (∀ ms ms' preimage preimage', candidateBytes toLowercase ms vaultHash = some preimage →
      candidateBytes toLowercase ms' vaultHash = some preimage' →
      (crypto.blake2b256 preimage = crypto.blake2b256 preimage' → preimage = preimage') →
      ∀ reference stake stake' roles roles' obs obs',
        buildObservation crypto toLowercase reference ms vaultHash stake roles = some obs →
        buildObservation crypto toLowercase reference ms' vaultHash stake' roles' = some obs' →
        ∀ (cfg : Config) (s : Runtime),
          (obs.inputsCommitment = obs'.inputsCommitment →
            (s.deriveCall cfg obs).changes = (s.deriveCall cfg obs').changes) ∧
          ∀ upgrades upgrades' unixSecs args,
            (s.nextBlock cfg unixSecs).createInherent cfg upgrades (some obs) = some args →
            s.checkInherent cfg upgrades' (.observe args) (some obs') ≠
              .error .computeDiverged) := by
  refine ⟨?_, ?_, ?_⟩
  · intro ms referenceSlot
    exact ⟨observeAsOf_eq toLowercase ms vaultHash referenceSlot, StorageMap.sorted _⟩
  · intro ms ms' hsame referenceSlot
    rw [observeAsOf_eq, observeAsOf_eq, hsame]
  · intro ms ms' preimage preimage' hpre hpre' hinjective reference stake stake' roles roles'
      obs obs' hobs hobs' cfg s
    obtain ⟨commitment, hcommitment, hobs⟩ := Option.map_eq_some_iff.mp hobs
    obtain ⟨commitment', hcommitment', hobs'⟩ := Option.map_eq_some_iff.mp hobs'
    have hchanges : obs.inputsCommitment = obs'.inputsCommitment →
        (s.deriveCall cfg obs).changes = (s.deriveCall cfg obs').changes := by
      intro hsame
      have hcandidates := candidateTuples_of_inputsCommitment hpre hpre' hinjective
        (by rw [hcommitment, hcommitment']; rw [← hobs, ← hobs'] at hsame; exact congrArg some hsame)
      apply deriveCall_changes_congr
      rw [← hobs, ← hobs']
      show observeAsOf _ _ _ _ = observeAsOf _ _ _ _
      rw [observeAsOf_eq, observeAsOf_eq, hcandidates]
    refine ⟨hchanges, ?_⟩
    intro upgrades upgrades' unixSecs args hauthor
    apply checkInherent_ne_computeDiverged
    rw [Runtime.createInherent_nextBlock hauthor]
    exact fun _ hsame => hchanges hsame

def lockedMatch (digit : Char) (coins created : UInt64) : Json :=
  .obj [(ascii "value", .obj [(ascii "coins", .uint coins),
      (ascii "assets", .obj [(ascii "ab." ++ List.replicate 64 (UInt8.ofNat digit.toNat),
        .uint 1)])]),
    (ascii "created_at", .obj [(ascii "slot_no", .uint created)]), (ascii "spent_at", .null)]

theorem candidates_determine_vault_twoOrders :
    (∃ obs obs', buildObservation Crypto.toy id ⟨10, 0⟩
          [lockedMatch '1' 7 3, lockedMatch '2' 9 4] (ascii "ab") [] [] = some obs ∧
        buildObservation Crypto.toy id ⟨10, 0⟩
          [lockedMatch '2' 9 4, lockedMatch '1' 7 3] (ascii "ab") [] [] = some obs' ∧
        obs.inputsCommitment = obs'.inputsCommitment ∧ obs.entries.length = 2 ∧
        (poolOwner.deriveCall Config.toy obs).changes =
          (poolOwner.deriveCall Config.toy obs').changes) := by
  have hboth := (candidates_determine_vault Crypto.toy id (ascii "ab")).2.2
    [lockedMatch '1' 7 3, lockedMatch '2' 9 4] [lockedMatch '2' 9 4, lockedMatch '1' 7 3]
  refine ⟨_, _, rfl, rfl, ?_, ?_, ?_⟩
  · decide +kernel
  · decide +kernel
  · exact (hboth _ _ rfl rfl (by decide +kernel) ⟨10, 0⟩ [] [] [] [] _ _ rfl rfl
      Config.toy poolOwner).1 (by decide +kernel)

end CognoChain
