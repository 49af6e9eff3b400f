import CognoChain.Model.Inherent
import CognoChain.Ledger.Convergence

/-!
# Agreement of author and importer

An observation passes the importer's check exactly when both sides derive the
same call, the inputs commitment apart.  The author derives on the state its
own block start has left and the importer on the parent state, which read the
same.  Vault and stake entries may come in any order as long as their keys are
distinct; role entries are taken first come first served, so their order is
part of what has to agree.
-/

namespace CognoChain

open Substrate

namespace Runtime

variable {cfg : Config} {s t : Runtime} {upgrades : Upgrades}

structure CallsAgree (args expected : ObserveArgs) : Prop where
  reference : args.reference = expected.reference
  changes : args.changes = expected.changes
  stakeChanges : args.stakeChanges = expected.stakeChanges
  roleChanges : args.roleChanges = expected.roleChanges
  pending : args.pending = expected.pending

theorem checkInherent_ok_iff (hordinary : upgrades.enacting = false) (args : ObserveArgs)
    (obs : CardanoObservation) :
    s.checkInherent cfg upgrades (.observe args) (some obs) = .ok () ↔
      CallsAgree args (s.deriveCall cfg obs) := by
  simp only [checkInherent, hordinary, Bool.false_eq_true, if_false]
  constructor
  · intro hok
    split_ifs at hok with hagree
    obtain ⟨href, hchanges, hstake, hroles, hpending⟩ := hagree
    exact ⟨href, hchanges, hstake, hroles, hpending⟩
  · intro hagree
    rw [if_pos ⟨hagree.reference, hagree.changes, hagree.stakeChanges, hagree.roleChanges,
      hagree.pending⟩]

/-! ## The state the call is derived on -/

theorem deriveCall_congr (hobserver : t.observer.lastObserved = s.observer.lastObserved)
    (hstake : t.observer.lastObservedStake = s.observer.lastObservedStake)
    (hroles : t.observer.lastObservedRoles = s.observer.lastObservedRoles)
    (hcursor : t.observer.scanCursor = s.observer.scanCursor) (hgate : t.gate = s.gate)
    (hcredIndex : t.roles.roleCredIndex = s.roles.roleCredIndex) (obs : CardanoObservation) :
    t.deriveCall cfg obs = s.deriveCall cfg obs := by
  have hclears : t.clearedByAbsence cfg = s.clearedByAbsence cfg := by
    funext who
    simp only [clearedByAbsence, hgate, hcursor]
  simp only [deriveCall, vaultDelta, stakeDelta, roleDelta, vaultDesired, stakeDesired,
    resolveBeacon_congr hgate, resolveStake_congr hgate, roleDesired_congr hgate hcredIndex,
    hobserver, hstake, hroles, hclears]

theorem observerOnInitialize_deriveCall (obs : CardanoObservation) :
    (s.observerOnInitialize cfg).deriveCall cfg obs = s.deriveCall cfg obs := by
  unfold observerOnInitialize
  dsimp only
  split_ifs
  all_goals exact deriveCall_congr rfl rfl rfl rfl rfl rfl obs

theorem nextBlock_deriveCall (unixSecs : ℕ) (obs : CardanoObservation) :
    (s.nextBlock cfg unixSecs).deriveCall cfg obs = s.deriveCall cfg obs := by
  unfold nextBlock
  rw [observerOnInitialize_deriveCall]
  exact deriveCall_congr rfl rfl rfl rfl rfl rfl obs

theorem createInherent_nextBlock {unixSecs : ℕ} {obs : CardanoObservation} {args : ObserveArgs}
    (hauthor : (s.nextBlock cfg unixSecs).createInherent cfg upgrades (some obs) = some args) :
    args = s.deriveCall cfg obs := by
  rw [← nextBlock_deriveCall unixSecs obs]
  unfold createInherent at hauthor
  split at hauthor
  · split_ifs at hauthor
    exact (Option.some.inj hauthor).symm
  · exact (Option.some.inj hauthor).symm

/-! ## The order of the entries -/

theorem desiredRows_perm {K : Type} [StorageKey K] (resolve : K → Option AccountId)
    (value : ℕ → ℕ) (bound : ℕ) {entries entries' : List (K × ℕ)}
    (hperm : entries.Perm entries') (hkeys : (entries.map Prod.fst).Nodup) :
    desiredRows resolve value bound entries = desiredRows resolve value bound entries' := by
  unfold desiredRows
  apply hperm.foldl_eq'
  intro first hfirst second hsecond rows
  by_cases hsame : first = second
  · rw [hsame]
  have hne : first.1 ≠ second.1 :=
    fun heq => hsame (List.inj_on_of_nodup_map hkeys hfirst hsecond heq)
  cases resolve first.1 with
  | none => rfl
  | some account =>
    cases resolve second.1 with
    | none => rfl
    | some account' =>
      dsimp only
      split_ifs
      · rfl
      · rfl
      · rfl
      · exact StorageMap.insert_comm _ _ hne

end Runtime

/-- Two snapshots of one reference with the same entries: vault and stake
entries as sets with distinct keys, role entries in the same order. -/
structure SameEntries (obs obs' : CardanoObservation) : Prop where
  reference : obs.reference = obs'.reference
  vault : ∀ entry, entry ∈ obs.entries ↔ entry ∈ obs'.entries
  vaultKeys : (obs.entries.map Prod.fst).Nodup ∧ (obs'.entries.map Prod.fst).Nodup
  stake : ∀ entry, entry ∈ obs.stakeEntries ↔ entry ∈ obs'.stakeEntries
  stakeKeys : (obs.stakeEntries.map Prod.fst).Nodup ∧ (obs'.stakeEntries.map Prod.fst).Nodup
  roles : obs.roleEntries = obs'.roleEntries

namespace SameEntries

variable {cfg : Config} {s : Runtime} {obs obs' : CardanoObservation}

theorem entries_perm {K : Type} {entries entries' : List (K × ℕ)}
    (hmem : ∀ entry, entry ∈ entries ↔ entry ∈ entries')
    (hkeys : (entries.map Prod.fst).Nodup ∧ (entries'.map Prod.fst).Nodup) :
    entries.Perm entries' :=
  (List.perm_ext_iff_of_nodup hkeys.1.of_map hkeys.2.of_map).mpr hmem

theorem deriveCall (hsame : SameEntries obs obs') :
    s.deriveCall cfg obs' =
      { s.deriveCall cfg obs with inputsCommitment := obs'.inputsCommitment } := by
  have hvault : s.vaultDesired cfg obs' = s.vaultDesired cfg obs :=
    (Runtime.desiredRows_perm _ _ _ (entries_perm hsame.vault hsame.vaultKeys)
      hsame.vaultKeys.1).symm
  have hstake : s.stakeDesired cfg obs' = s.stakeDesired cfg obs :=
    (Runtime.desiredRows_perm _ _ _ (entries_perm hsame.stake hsame.stakeKeys)
      hsame.stakeKeys.1).symm
  have hroles : s.roleDesired obs' = s.roleDesired obs := by
    simp only [Runtime.roleDesired, hsame.roles]
  simp only [Runtime.deriveCall, Runtime.vaultDelta, Runtime.stakeDelta, Runtime.roleDelta,
    hvault, hstake, hroles, hsame.reference]

theorem callsAgree (hsame : SameEntries obs obs') :
    Runtime.CallsAgree (s.deriveCall cfg obs) (s.deriveCall cfg obs') := by
  rw [hsame.deriveCall]
  exact ⟨rfl, rfl, rfl, rfl, rfl⟩

end SameEntries

/-- On a block that enacts no upgrade the importer accepts exactly the calls it
would derive itself, whatever the two commitments say; author and importer
derive on states that read the same; and snapshots with the same entries
accept each other's blocks. -/
theorem author_importer_agree (cfg : Config) (s : Runtime) (upgrades : Upgrades)
    (hordinary : upgrades.enacting = false) :
    (∀ o₁ o₂, s.checkInherent cfg upgrades (.observe (s.deriveCall cfg o₁)) (some o₂) = .ok () ↔
      Runtime.CallsAgree (s.deriveCall cfg o₁) (s.deriveCall cfg o₂)) ∧
    (∀ o₁ o₂ c₁ c₂, s.checkInherent cfg upgrades
        (.observe (s.deriveCall cfg { o₁ with inputsCommitment := c₁ }))
        (some { o₂ with inputsCommitment := c₂ }) = .ok () ↔
      s.checkInherent cfg upgrades (.observe (s.deriveCall cfg o₁)) (some o₂) = .ok ()) ∧
    (∀ obs unixSecs,
      (s.observerOnInitialize cfg).deriveCall cfg obs = s.deriveCall cfg obs ∧
        (s.nextBlock cfg unixSecs).deriveCall cfg obs = s.deriveCall cfg obs) ∧
    (∀ obs entries stakeEntries, obs.entries.Perm entries →
      (obs.entries.map Prod.fst).Nodup → obs.stakeEntries.Perm stakeEntries →
      (obs.stakeEntries.map Prod.fst).Nodup →
      s.deriveCall cfg { obs with entries := entries, stakeEntries := stakeEntries } =
        s.deriveCall cfg obs) ∧
    (∀ o₁ o₂ unixSecs args, SameEntries o₁ o₂ →
      (s.nextBlock cfg unixSecs).createInherent cfg upgrades (some o₁) = some args →
      s.checkInherent cfg upgrades (.observe args) (some o₂) = .ok ()) := by
  refine ⟨?_, ?_, ?_, ?_, ?_⟩
  · intro o₁ o₂
    exact Runtime.checkInherent_ok_iff hordinary _ o₂
  · intro o₁ o₂ c₁ c₂
    rw [Runtime.checkInherent_ok_iff hordinary, Runtime.checkInherent_ok_iff hordinary]
    constructor
    · intro hagree
      exact ⟨hagree.reference, hagree.changes, hagree.stakeChanges, hagree.roleChanges,
        hagree.pending⟩
    · intro hagree
      exact ⟨hagree.reference, hagree.changes, hagree.stakeChanges, hagree.roleChanges,
        hagree.pending⟩
  · intro obs unixSecs
    exact ⟨Runtime.observerOnInitialize_deriveCall obs,
      Runtime.nextBlock_deriveCall unixSecs obs⟩
  · intro obs entries stakeEntries hentries hkeys hstake hstakeKeys
    have hsame : SameEntries obs
        { obs with entries := entries, stakeEntries := stakeEntries } :=
      ⟨rfl, fun _ => hentries.mem_iff, ⟨hkeys, (hentries.map _).nodup_iff.mp hkeys⟩,
        fun _ => hstake.mem_iff, ⟨hstakeKeys, (hstake.map _).nodup_iff.mp hstakeKeys⟩, rfl⟩
    exact hsame.deriveCall
  · intro o₁ o₂ unixSecs args hsame hauthor
    rw [Runtime.createInherent_nextBlock hauthor, Runtime.checkInherent_ok_iff hordinary]
    exact hsame.callsAgree

def poolOwner : Runtime :=
  Runtime.genesis.run Config.toy
    [.nextBlock 0,
      .call .none (.gate (.linkIdentitySigned ⟨[1, 5], []⟩)),
      .call .none (.gate (.linkStakeSigned ⟨[1, 7, 0], []⟩))]

def settledVersion : Upgrades := ⟨⟨0, 221⟩, some ⟨0, 221⟩, none⟩

def twoPools (roles : List RoleEntry) : CardanoObservation := ⟨⟨10, 0⟩, 0, [], [], roles⟩

/-- Equal sets of role entries in different orders are not accepted. -/
theorem roleOrder_mismatch :
    (∀ entry, entry ∈ (twoPools [⟨.spoOwner, ⟨7⟩, ⟨3⟩, 50⟩, ⟨.spoOwner, ⟨7⟩, ⟨4⟩, 60⟩]).roleEntries ↔
      entry ∈ (twoPools [⟨.spoOwner, ⟨7⟩, ⟨4⟩, 60⟩, ⟨.spoOwner, ⟨7⟩, ⟨3⟩, 50⟩]).roleEntries) ∧
    settledVersion.enacting = false ∧
    poolOwner.checkInherent Config.toy settledVersion
      (.observe (poolOwner.deriveCall Config.toy
        (twoPools [⟨.spoOwner, ⟨7⟩, ⟨3⟩, 50⟩, ⟨.spoOwner, ⟨7⟩, ⟨4⟩, 60⟩])))
      (some (twoPools [⟨.spoOwner, ⟨7⟩, ⟨4⟩, 60⟩, ⟨.spoOwner, ⟨7⟩, ⟨3⟩, 50⟩])) =
        .error .mismatch := by
  refine ⟨fun entry => ?_, by decide, by decide +kernel⟩
  simp only [twoPools, List.mem_cons, List.not_mem_nil, or_false]
  exact or_comm

theorem author_importer_agree_swappedVaults :
    poolOwner.checkInherent Config.toy settledVersion
      (.observe (poolOwner.deriveCall Config.toy
        ⟨⟨10, 0⟩, 1, [(⟨5⟩, 200000000), (⟨6⟩, 7)], [], []⟩))
      (some ⟨⟨10, 0⟩, 2, [(⟨6⟩, 7), (⟨5⟩, 200000000)], [], []⟩) = .ok () := by
  have hagree := author_importer_agree Config.toy poolOwner settledVersion (by decide)
  have hcommitment := (hagree.2.1 ⟨⟨10, 0⟩, 2, [(⟨5⟩, 200000000), (⟨6⟩, 7)], [], []⟩
    ⟨⟨10, 0⟩, 2, [(⟨6⟩, 7), (⟨5⟩, 200000000)], [], []⟩ 1 2).mpr
  apply hcommitment
  rw [hagree.1, ← hagree.2.2.2.1 ⟨⟨10, 0⟩, 2, [(⟨5⟩, 200000000), (⟨6⟩, 7)], [], []⟩
    [(⟨6⟩, 7), (⟨5⟩, 200000000)] [] (List.Perm.swap _ _ _) (by decide) .nil (by decide)]
  exact ⟨rfl, rfl, rfl, rfl, rfl⟩

end CognoChain
