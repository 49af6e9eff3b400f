import CognoChain.Ledger.Moves

/-!
# Draining a backlog

A snapshot whose changes do not fit in one page is applied over several
blocks, each of which derives its page afresh.  Against a fixed snapshot and
scan window the derived difference only ever loses the changes that were
carried, so the blocks together apply what one unbounded page would.
-/

namespace CognoChain

open Substrate CognoChain.Runtime StorageMap DeltaLedger

/-! ## The role difference -/

namespace RoleLedger

variable {l : RoleLedger} {who : AccountId} {changes : List RoleChange} {change : RoleChange}

theorem foldl_applyChange_get_of_notMem (hnotMem : who ∉ changes.map RoleChange.who) :
    (changes.foldl applyChange l).basis.get who = l.basis.get who :=
  foldl_get_of_notMem (fun l : RoleLedger => l.basis.get) (fun _ _ _ => applyChange_get_of_ne)
    hnotMem

theorem applyChange_get_self (hroles : change.roles ≠ some []) :
    (l.applyChange change).basis.get change.who = change.roles := by
  obtain ⟨account, roles⟩ := change
  match roles with
  | none => exact get_remove_self _ _
  | some [] => exact absurd rfl hroles
  | some (role :: roles) => exact get_insert_self _ _ _

end RoleLedger

namespace Runtime

variable {cfg : Config} {s t : Runtime} {obs : CardanoObservation} {n : ℕ} {args : ObserveArgs}

theorem addRole_ne_nil (set : List RoleTuple) (role : RoleTuple) : addRole set role ≠ [] := by
  unfold addRole
  split_ifs with hany
  · rintro rfl
    simp at hany
  · simp

theorem roleDesired_ne_nil {who : AccountId} {set : List RoleTuple}
    (hget : (s.roleDesired obs).get who = some set) : set ≠ [] := by
  have hrows : ∀ set, (s.roleDesired obs).get who = some set → set ≠ [] := by
    rw [roleDesired_get]
    apply foldl_invariant desiredRow (fun row => ∀ set, row = some set → set ≠ [])
    · intro row entry _ set hset
      rw [← Option.some.inj hset]
      exact addRole_ne_nil _ _
    · exact fun _ hnone => nomatch hnone
  exact hrows set hget

theorem roleDelta_ne_empty (hroom : 0 < cfg.maxRolesPerAccount) {change : RoleChange}
    (hmem : change ∈ s.roleDelta cfg obs) : change.roles ≠ some [] := by
  rcases mem_roleDelta.mp hmem with ⟨set, hget, hroles, -⟩ | ⟨hnone, -⟩
  · rw [hroles]
    simpa using boundedRoles_ne_nil hroom (roleDesired_ne_nil hget)
  · simp [hnone]

instance : Std.Total roleChangeBefore where
  total _ _ := Nat.le_total _ _

instance : IsTrans RoleChange roleChangeBefore where
  trans _ _ _ hab hbc := Nat.le_trans hab hbc

theorem roleDelta_sorted : (s.roleDelta cfg obs).Pairwise roleChangeBefore :=
  List.pairwise_insertionSort _ _

theorem roleDelta_keys_nodup : ((s.roleDelta cfg obs).map RoleChange.who).Nodup := by
  simp only [roleDelta]
  rw [((List.perm_insertionSort _ _).map _).nodup_iff, List.map_append, List.map_map,
    List.map_map]
  refine filter_keys_append_nodup (fun row hclears => ?_)
  rw [Bool.and_eq_true, Bool.not_eq_true', contains_eq_false_iff] at hclears
  exact hclears.1

theorem roles_of_mem_roleDelta {change : RoleChange} (hmem : change ∈ s.roleDelta cfg obs) :
    change.roles = ((s.roleDesired obs).get change.who).map (boundedRoles cfg) := by
  rcases mem_roleDelta.mp hmem with ⟨set, hget, hroles, -⟩ | ⟨hnone, habsent, -⟩
  · rw [hroles, hget, Option.map_some]
  · rw [hnone, habsent, Option.map_none]

theorem foldl_roleDelta_get (hroom : 0 < cfg.maxRolesPerAccount) {page : List RoleChange}
    (hpage : page ⊆ s.roleDelta cfg obs) {who : AccountId} (hmem : who ∈ page.map RoleChange.who) :
    (page.foldl RoleLedger.applyChange s.roleLedger).basis.get who =
      ((s.roleDesired obs).get who).map (boundedRoles cfg) :=
  foldl_get_of_mem (fun l : RoleLedger => l.basis.get)
    (fun _ _ _ => RoleLedger.applyChange_get_of_ne)
    (fun who => ((s.roleDesired obs).get who).map (boundedRoles cfg)) (fun _ _ hchange =>
      (RoleLedger.applyChange_get_self (roleDelta_ne_empty hroom (hpage hchange))).trans
        (roles_of_mem_roleDelta (hpage hchange))) hmem

theorem roleDelta_eq_drop (hroom : 0 < cfg.maxRolesPerAccount)
    (hdesired : t.roleDesired obs = s.roleDesired obs)
    (hclears : t.clearedByAbsence cfg = s.clearedByAbsence cfg)
    (hledger : t.roleLedger = ((s.roleDelta cfg obs).take n).foldl RoleLedger.applyChange s.roleLedger) :
    t.roleDelta cfg obs = (s.roleDelta cfg obs).drop n := by
  set page := (s.roleDelta cfg obs).take n with hpage
  have hbasis : t.observer.lastObservedRoles =
      (page.foldl RoleLedger.applyChange s.roleLedger).basis :=
    congrArg RoleLedger.basis hledger
  have hantisymm : ∀ a b : RoleChange, roleChangeBefore a b → roleChangeBefore b a →
      a.who = b.who :=
    fun a b hab hba => StorageKey.enc_injective (Nat.le_antisymm hab hba)
  apply eq_drop_of_pairwise hantisymm roleDelta_sorted roleDelta_sorted roleDelta_keys_nodup
    roleDelta_keys_nodup
  intro change
  rw [← hpage]
  by_cases hmem : change.who ∈ page.map RoleChange.who
  · -- the row of a carried account is the desired one
    have hrow := foldl_roleDelta_get hroom (List.take_subset n _) hmem
    rw [← hbasis] at hrow
    simp only [hmem, not_true_eq_false, and_false, iff_false, mem_roleDelta, hdesired, hrow]
    cases (s.roleDesired obs).get change.who <;> simp
  · have hkept : t.observer.lastObservedRoles.get change.who =
        s.observer.lastObservedRoles.get change.who := by
      rw [hbasis]
      exact RoleLedger.foldl_applyChange_get_of_notMem hmem
    simp only [mem_roleDelta, hdesired, hkept, hclears, hmem, not_false_eq_true, and_true]

/-! ## No change is skipped -/

section Skipped

variable {K : Type} [StorageKey K] {axis : Axis K} {ledger : Runtime → DeltaLedger K AccountId}
  (haxis : axis.Writes ledger) {acc : Runtime × AxisCounts}
include haxis

theorem Axis.Writes.applyChange_skipped {change : K × Option ℕ}
    (heffective : (ledger acc.1).Effective (axis.resolve acc.1) axis.accept change) :
    (axis.applyChange true acc change).2.skipped = acc.2.skipped := by
  obtain ⟨s, counts⟩ := acc
  obtain ⟨k, observed⟩ := change
  cases observed with
  | some raw =>
    obtain ⟨hresolve, haccept⟩ := heffective
    obtain ⟨account, hresolve⟩ := Option.isSome_iff_exists.mp hresolve
    obtain ⟨amount, haccept⟩ := Option.isSome_iff_exists.mp haccept
    simp only at hresolve haccept
    simp [Axis.applyChange, hresolve, haccept, AxisCounts.credit]
  | none =>
    obtain ⟨row, hrow⟩ := Option.isSome_iff_exists.mp heffective
    rw [haxis.basis] at hrow
    simp only at hrow
    simp [Axis.applyChange, hrow, AxisCounts.clear]

theorem Axis.Writes.foldl_skipped {changes : List (K × Option ℕ)}
    (hkeys : (changes.map Prod.fst).Nodup)
    (heffective : ∀ change ∈ changes,
      (ledger acc.1).Effective (axis.resolve acc.1) axis.accept change) :
    (changes.foldl (axis.applyChange true) acc).2.skipped = acc.2.skipped := by
  induction changes generalizing acc with
  | nil => rfl
  | cons change changes ih =>
    rw [List.map_cons, List.nodup_cons] at hkeys
    rw [List.foldl_cons, ih hkeys.2,
      haxis.applyChange_skipped (heffective change List.mem_cons_self)]
    -- the remaining changes have other keys
    intro later hlater
    have hne : later.1 ≠ change.1 :=
      fun heq => hkeys.1 (heq ▸ List.mem_map_of_mem hlater)
    rw [haxis.applyChange, haxis.resolve_applyChange]
    exact (heffective later (List.mem_cons_of_mem _ hlater)).applyChange_of_ne hne

end Skipped

/-! ## One block -/

theorem observe_pendingChanges (haccepts : s.accepts cfg args.reference) :
    (s.observe cfg args).observer.pendingChanges = args.pending := by
  obtain ⟨_, _, _, _, _, hobserver⟩ := observe_observer haccepts
  rw [hobserver]

theorem observe_enforceWeight (haccepts : s.accepts cfg args.reference) :
    (s.observe cfg args).observer.enforceWeight = s.observer.enforceWeight := by
  obtain ⟨_, _, _, _, _, hobserver⟩ := observe_observer haccepts
  rw [hobserver]

theorem vaultDelta_eq_drop (hgate : t.gate = s.gate)
    (hledger : t.vaultLedger = ((s.vaultDelta cfg obs).take n).foldl (DeltaLedger.applyChange s.resolveBeacon (vaultAccept cfg)) s.vaultLedger) :
    t.vaultDelta cfg obs = (s.vaultDelta cfg obs).drop n := by
  have hbasis : t.observer.lastObserved = _ := congrArg DeltaLedger.basis hledger
  have hdesired : t.vaultDesired cfg obs = s.vaultDesired cfg obs := by
    simp only [vaultDesired, resolveBeacon_congr hgate]
  unfold vaultDelta
  rw [hdesired, hbasis]
  exact pagedDelta_applyPage (vaultDesired_admissible obs) n

theorem stakeDelta_eq_drop (hgate : t.gate = s.gate)
    (hcursor : t.observer.scanCursor = s.observer.scanCursor)
    (hledger : t.stakeLedger = ((s.stakeDelta cfg obs).take n).foldl (DeltaLedger.applyChange s.resolveStake (stakeAccept cfg)) s.stakeLedger) :
    t.stakeDelta cfg obs = (s.stakeDelta cfg obs).drop n := by
  have hbasis : t.observer.lastObservedStake = _ := congrArg DeltaLedger.basis hledger
  have hdesired : t.stakeDesired cfg obs = s.stakeDesired cfg obs := by
    simp only [stakeDesired, resolveStake_congr hgate]
  have hclears : t.clearedByAbsence cfg = s.clearedByAbsence cfg := by
    funext who
    simp only [clearedByAbsence, hgate, hcursor]
  unfold stakeDelta
  rw [hdesired, hclears, hbasis]
  exact pagedDelta_applyPage (stakeDesired_admissible obs) n

def deriveWhole (cfg : Config) (s : Runtime) (obs : CardanoObservation) : ObserveArgs where
  reference := obs.reference
  inputsCommitment := obs.inputsCommitment
  changes := s.vaultDelta cfg obs
  stakeChanges := s.stakeDelta cfg obs
  roleChanges := s.roleDelta cfg obs
  pending := 0

end Runtime

/-- What one block does with the page it carries: no change is skipped, every
carried key has its new row, the vault difference loses the page and nothing
else, and what is not carried is reported. -/
structure CarriesPage (cfg : Config) (s : Runtime) (obs : CardanoObservation) : Prop where
  vaultSkipped : (s.applyChanges cfg (s.deriveCall cfg obs)).2.1.skipped = 0
  stakeSkipped : (s.applyChanges cfg (s.deriveCall cfg obs)).2.2.1.skipped = 0
  vaultApplied : ∀ change ∈ (s.deriveCall cfg obs).changes,
    ((s.observeSnapshot cfg obs).observer.lastObserved.get change.1).map Prod.snd = change.2
  stakeApplied : ∀ change ∈ (s.deriveCall cfg obs).stakeChanges,
    ((s.observeSnapshot cfg obs).observer.lastObservedStake.get change.1).map Prod.snd =
      change.2
  rolesApplied : ∀ change ∈ (s.deriveCall cfg obs).roleChanges,
    (s.observeSnapshot cfg obs).observer.lastObservedRoles.get change.who = change.roles
  vaultLeft : (s.observeSnapshot cfg obs).vaultDelta cfg obs =
    (s.vaultDelta cfg obs).drop cfg.maxChangesPerBlock
  pending : (s.observeSnapshot cfg obs).observer.pendingChanges =
    ((s.vaultDelta cfg obs).drop cfg.maxChangesPerBlock).length +
      ((s.stakeDelta cfg obs).drop cfg.maxChangesPerBlock).length +
      ((s.roleDelta cfg obs).drop cfg.maxChangesPerBlock).length

variable {obs : CardanoObservation} {s t : Runtime} {cfg : Config} {op : Op}

theorem Runtime.carriesPage (hroom : 0 < cfg.maxRolesPerAccount)
    (henforce : s.observer.enforceWeight = true) (haccepts : s.accepts cfg obs.reference) :
    CarriesPage cfg s obs := by
  have haxes : AppliesAxes cfg s (s.deriveCall cfg obs) (s.observeSnapshot cfg obs) :=
    observe_axes haccepts henforce
  have hvault : (s.observeSnapshot cfg obs).observer.lastObserved = _ :=
    congrArg DeltaLedger.basis haxes.vault
  have hstake : (s.observeSnapshot cfg obs).observer.lastObservedStake = _ :=
    congrArg DeltaLedger.basis haxes.stake
  have hroles : (s.observeSnapshot cfg obs).observer.lastObservedRoles = _ :=
    congrArg RoleLedger.basis haxes.roles
  constructor
  · simp only [applyChanges, henforce, applyVaultChange_eq]
    apply (vaultAxis_writes cfg).foldl_skipped (take_pagedDelta_keys_nodup _)
    intro change hchange
    exact effective_of_mem_pagedDelta (vaultDesired_admissible obs)
      (List.mem_of_mem_take hchange)
  · obtain ⟨weights, capacity, basis, events, hwrites⟩ :=
      foldl_applyVaultChange_writes cfg (s.deriveCall cfg obs).changes (s, {})
    simp only [applyChanges, henforce, applyStakeChange_eq]
    apply (stakeAxis_writes cfg).foldl_skipped (take_pagedDelta_keys_nodup _)
    intro change hchange
    rw [hwrites]
    exact effective_of_mem_pagedDelta (l := s.stakeLedger)
      (stakeDesired_admissible obs) (List.mem_of_mem_take hchange)
  · intro change hchange
    rw [hvault]
    exact applyPage_get (l := s.vaultLedger) (vaultDesired_admissible obs) hchange
  · intro change hchange
    rw [hstake]
    exact applyPage_get (l := s.stakeLedger) (stakeDesired_admissible obs) hchange
  · intro change hchange
    rw [hroles, roles_of_mem_roleDelta (List.mem_of_mem_take hchange)]
    exact foldl_roleDelta_get hroom (List.take_subset _ _) (List.mem_map_of_mem hchange)
  · exact vaultDelta_eq_drop haxes.gate haxes.vault
  · rw [List.length_drop, List.length_drop, List.length_drop]
    exact observe_pendingChanges haccepts

/-! ## A run of blocks -/

/-- A new block or a social call: nothing that binds, claims or observes. -/
def Op.quiet : Op → Bool
  | .nextBlock _ => true
  | .call _ runtimeCall => runtimeCall.social
  | .extrinsic _ runtimeCall _ => runtimeCall.social
  | .inherent _ => false

def Op.isInherent : Op → Bool
  | .inherent _ => true
  | _ => false

theorem countP_isInherent_cons_of_quiet (hquiet : op.quiet = true) (ops : List Op) :
    (op :: ops).countP Op.isInherent = ops.countP Op.isInherent := by
  refine List.countP_cons_of_neg ?_
  cases op with
  | inherent obs => cases hquiet
  | _ => exact Bool.false_ne_true

/-- The run observes one snapshot, accepted at each block, through one scan
window. -/
def Drains (cfg : Config) (obs : CardanoObservation) (cursor : ℕ) (s : Runtime) (op : Op) :
    Prop :=
  op.quiet ∨
    (op = .inherent obs ∧ s.accepts cfg obs.reference ∧ s.observer.scanCursor = cursor)

/-- `t` is `s` after `blocks` pages of the changes derived in `s`. -/
structure Drained (cfg : Config) (obs : CardanoObservation) (s t : Runtime) (blocks : ℕ) :
    Prop where
  vault : t.vaultLedger = ((s.vaultDelta cfg obs).take (blocks * cfg.maxChangesPerBlock)).foldl
    (DeltaLedger.applyChange s.resolveBeacon (vaultAccept cfg)) s.vaultLedger
  stake : t.stakeLedger = ((s.stakeDelta cfg obs).take (blocks * cfg.maxChangesPerBlock)).foldl
    (DeltaLedger.applyChange s.resolveStake (stakeAccept cfg)) s.stakeLedger
  roles : t.roleLedger = ((s.roleDelta cfg obs).take (blocks * cfg.maxChangesPerBlock)).foldl
    RoleLedger.applyChange s.roleLedger
  gate : t.gate = s.gate
  credIndex : t.roles.roleCredIndex = s.roles.roleCredIndex
  enforce : t.observer.enforceWeight = true
  pending : 0 < blocks → t.observer.pendingChanges =
    ((s.vaultDelta cfg obs).length - blocks * cfg.maxChangesPerBlock) +
      ((s.stakeDelta cfg obs).length - blocks * cfg.maxChangesPerBlock) +
      ((s.roleDelta cfg obs).length - blocks * cfg.maxChangesPerBlock)

theorem roleDesired_congr (hgate : t.gate = s.gate)
    (hcredIndex : t.roles.roleCredIndex = s.roles.roleCredIndex) :
    t.roleDesired obs = s.roleDesired obs := by
  have hresolve : t.resolveRole = s.resolveRole := by
    funext source cred
    cases source <;> simp only [resolveRole, hgate, hcredIndex]
  simp only [roleDesired, hresolve]

theorem SameLedger.sameAxes (h : SameLedger s t) : SameAxes s t := by
  have haxes := Runtime.SameLedger.axes h
  exact ⟨congrArg Axes.vault haxes, congrArg Axes.stake haxes, congrArg Axes.roles haxes,
    h.gate, congrArg RoleStore.roleCredIndex h.roles⟩

theorem Runtime.step_quiet (cfg : Config) (s : Runtime) (hquiet : op.quiet) :
    SameAxes s (s.step cfg op) ∧
      (s.step cfg op).observer.enforceWeight = s.observer.enforceWeight ∧
      (s.step cfg op).observer.pendingChanges = s.observer.pendingChanges := by
  have hcall : ∀ t, SameLedger s t → SameAxes s t ∧
      t.observer.enforceWeight = s.observer.enforceWeight ∧
      t.observer.pendingChanges = s.observer.pendingChanges :=
    fun t h => ⟨h.sameAxes, congrArg ObserverStore.enforceWeight h.observer,
      congrArg ObserverStore.pendingChanges h.observer⟩
  cases op with
  | nextBlock unixSecs =>
    refine ⟨?_, ?_, ?_⟩
    · let opened : Runtime :=
        { s with blockNumber := s.blockNumber + 1, unixSecs := unixSecs, events := [] }
      have hsame : SameAxes opened (opened.observerOnInitialize cfg) :=
        observerOnInitialize_writes.sameAxes
      exact ⟨hsame.vault, hsame.stake, hsame.roles, hsame.gate, hsame.credIndex⟩
    · simp only [step, nextBlock, observerOnInitialize]
      split_ifs <;> rfl
    · simp only [step, nextBlock, observerOnInitialize]
      split_ifs <;> rfl
  | call origin call => exact hcall _ (execute_sameLedger hquiet)
  | extrinsic who call len => exact hcall _ (applyExtrinsic_sameLedger hquiet)
  | inherent obs => cases hquiet

namespace Drained

variable {cfg : Config} {obs : CardanoObservation} {s t : Runtime} {blocks : ℕ}

theorem start (henforce : s.observer.enforceWeight = true) : Drained cfg obs s s 0 := by
  constructor
  · simp
  · simp
  · simp
  · rfl
  · rfl
  · exact henforce
  · intro h
    cases h

section

variable (hdrained : Drained cfg obs s t blocks)
include hdrained

theorem quiet (hquiet : op.quiet) :
    Drained cfg obs s (t.step cfg op) blocks := by
  obtain ⟨hsame, henforce, hpending⟩ := step_quiet cfg t hquiet
  constructor
  · exact hsame.vault.trans hdrained.vault
  · exact hsame.stake.trans hdrained.stake
  · exact hsame.roles.trans hdrained.roles
  · exact hsame.gate.trans hdrained.gate
  · exact hsame.credIndex.trans hdrained.credIndex
  · exact henforce.trans hdrained.enforce
  · intro hblocks
    exact hpending.trans (hdrained.pending hblocks)

theorem vaultDelta :
    t.vaultDelta cfg obs = (s.vaultDelta cfg obs).drop (blocks * cfg.maxChangesPerBlock) :=
  Runtime.vaultDelta_eq_drop hdrained.gate hdrained.vault

theorem stakeDelta (hcursor : t.observer.scanCursor = s.observer.scanCursor) :
    t.stakeDelta cfg obs = (s.stakeDelta cfg obs).drop (blocks * cfg.maxChangesPerBlock) :=
  Runtime.stakeDelta_eq_drop hdrained.gate hcursor hdrained.stake

theorem roleDelta (hroom : 0 < cfg.maxRolesPerAccount)
    (hcursor : t.observer.scanCursor = s.observer.scanCursor) :
    t.roleDelta cfg obs = (s.roleDelta cfg obs).drop (blocks * cfg.maxChangesPerBlock) := by
  have hclears : t.clearedByAbsence cfg = s.clearedByAbsence cfg := by
    funext who
    simp only [Runtime.clearedByAbsence, hdrained.gate, hcursor]
  exact Runtime.roleDelta_eq_drop hroom (roleDesired_congr hdrained.gate hdrained.credIndex)
    hclears hdrained.roles

theorem block (hroom : 0 < cfg.maxRolesPerAccount) (haccepts : t.accepts cfg obs.reference)
    (hcursor : t.observer.scanCursor = s.observer.scanCursor) :
    Drained cfg obs s (t.observeSnapshot cfg obs) (blocks + 1) := by
  have haxes : AppliesAxes cfg t (t.deriveCall cfg obs) (t.observeSnapshot cfg obs) :=
    Runtime.observe_axes haccepts hdrained.enforce
  have hnext : (blocks + 1) * cfg.maxChangesPerBlock =
      blocks * cfg.maxChangesPerBlock + cfg.maxChangesPerBlock := by ring
  constructor
  · rw [haxes.vault, Runtime.resolveBeacon_congr hdrained.gate, hdrained.vault, hnext,
      List.take_add, List.foldl_append, ← hdrained.vaultDelta]
    rfl
  · rw [haxes.stake, Runtime.resolveStake_congr hdrained.gate, hdrained.stake, hnext,
      List.take_add, List.foldl_append, ← hdrained.stakeDelta hcursor]
    rfl
  · rw [haxes.roles, hdrained.roles, hnext, List.take_add, List.foldl_append,
      ← hdrained.roleDelta hroom hcursor]
    rfl
  · exact haxes.gate.trans hdrained.gate
  · exact haxes.credIndex.trans hdrained.credIndex
  · exact (Runtime.observe_enforceWeight haccepts).trans hdrained.enforce
  · intro _
    have hpending : (t.observeSnapshot cfg obs).observer.pendingChanges =
        (t.deriveCall cfg obs).pending :=
      Runtime.observe_pendingChanges haccepts
    rw [hpending]
    simp only [deriveCall, hdrained.vaultDelta, hdrained.stakeDelta hcursor,
      hdrained.roleDelta hroom hcursor, List.length_drop, hnext, Nat.sub_sub]

end

theorem run (hroom : 0 < cfg.maxRolesPerAccount) {ops : List Op}
    (hdrained : Drained cfg obs s t blocks)
    (halong : Along (Runtime.step cfg) (Drains cfg obs s.observer.scanCursor) t ops) :
    Drained cfg obs s (t.run cfg ops) (blocks + ops.countP Op.isInherent) := by
  induction ops generalizing t blocks with
  | nil => exact hdrained
  | cons op ops ih =>
    obtain ⟨hop, hrest⟩ := halong
    rcases hop with hquiet | ⟨rfl, haccepts, hcursor⟩
    · rw [countP_isInherent_cons_of_quiet hquiet]
      exact ih (hdrained.quiet hquiet) hrest
    · have hcount : (Op.inherent obs :: ops).countP Op.isInherent =
          ops.countP Op.isInherent + 1 :=
        List.countP_cons_of_pos rfl
      rw [hcount, Nat.add_comm _ 1, ← Nat.add_assoc]
      exact ih (hdrained.block hroom haccepts hcursor) hrest

end Drained

def Runtime.pagesNeeded (cfg : Config) (s : Runtime) (obs : CardanoObservation) : ℕ :=
  (max (max (s.vaultDelta cfg obs).length (s.stakeDelta cfg obs).length)
      (s.roleDelta cfg obs).length + cfg.maxChangesPerBlock - 1) / cfg.maxChangesPerBlock

/-- The axes are as one unbounded page leaves them, nothing is pending, and
the snapshot derives nothing more through the window it was read through. -/
structure Converged (cfg : Config) (s : Runtime) (obs : CardanoObservation) (t : Runtime)
    (blocks : ℕ) : Prop where
  vault : t.vaultLedger = (s.observe cfg (s.deriveWhole cfg obs)).vaultLedger
  stake : t.stakeLedger = (s.observe cfg (s.deriveWhole cfg obs)).stakeLedger
  roles : t.roleLedger = (s.observe cfg (s.deriveWhole cfg obs)).roleLedger
  pending : 0 < blocks → t.observer.pendingChanges = 0
  settled : deriveCall cfg
      { t with observer := { t.observer with scanCursor := s.observer.scanCursor } } obs =
    ⟨obs.reference, obs.inputsCommitment, [], [], [], 0⟩

theorem Drained.converged {blocks : ℕ} (hdrained : Drained cfg obs s t blocks)
    (hroom : 0 < cfg.maxRolesPerAccount) (henforce : s.observer.enforceWeight = true)
    (haccepts : s.accepts cfg obs.reference)
    (hvault : (s.vaultDelta cfg obs).length ≤ blocks * cfg.maxChangesPerBlock)
    (hstake : (s.stakeDelta cfg obs).length ≤ blocks * cfg.maxChangesPerBlock)
    (hroles : (s.roleDelta cfg obs).length ≤ blocks * cfg.maxChangesPerBlock) :
    Converged cfg s obs t blocks := by
  have hwhole : AppliesAxes cfg s (s.deriveWhole cfg obs)
      (s.observe cfg (s.deriveWhole cfg obs)) :=
    Runtime.observe_axes haccepts henforce
  -- the window is moved back to where the snapshot was read
  let back : Runtime :=
    { t with observer := { t.observer with scanCursor := s.observer.scanCursor } }
  have hback : Drained cfg obs s back blocks :=
    ⟨hdrained.vault, hdrained.stake, hdrained.roles, hdrained.gate, hdrained.credIndex,
      hdrained.enforce, hdrained.pending⟩
  constructor
  · rw [hwhole.vault, hdrained.vault, List.take_of_length_le hvault]
    rfl
  · rw [hwhole.stake, hdrained.stake, List.take_of_length_le hstake]
    rfl
  · rw [hwhole.roles, hdrained.roles, List.take_of_length_le hroles]
    rfl
  · intro hblocks
    rw [hdrained.pending hblocks]
    omega
  · have hvaultLeft : back.vaultDelta cfg obs = [] := by
      rw [hback.vaultDelta, List.drop_of_length_le hvault]
    have hstakeLeft : back.stakeDelta cfg obs = [] := by
      rw [hback.stakeDelta rfl, List.drop_of_length_le hstake]
    have hrolesLeft : back.roleDelta cfg obs = [] := by
      rw [hback.roleDelta hroom rfl, List.drop_of_length_le hroles]
    show back.deriveCall cfg obs = _
    simp [deriveCall, hvaultLeft, hstakeLeft, hrolesLeft]

/-- Every block applies the page it carries, and once enough blocks have
passed the paged blocks have done what one unbounded page would.  The bound on
the role sets is the one the runtime asserts when it is compiled. -/
theorem pagedDelta_converges (cfg : Config) (s : Runtime) (obs : CardanoObservation)
    (hpage : 0 < cfg.maxChangesPerBlock)
    (hroom : maxObservedRolesPerAccount ≤ cfg.maxRolesPerAccount)
    (henforce : s.observer.enforceWeight = true) (haccepts : s.accepts cfg obs.reference) :
    CarriesPage cfg s obs ∧
      ∀ ops, Along (Runtime.step cfg) (Drains cfg obs s.observer.scanCursor) s ops →
        s.pagesNeeded cfg obs ≤ ops.countP Op.isInherent →
        Converged cfg s obs (s.run cfg ops) (ops.countP Op.isInherent) := by
  have hroles : 0 < cfg.maxRolesPerAccount := Nat.lt_of_lt_of_le (by decide) hroom
  refine ⟨carriesPage hroles henforce haccepts, ?_⟩
  intro ops halong hblocks
  have hdrained := (Drained.start henforce).run hroles halong
  rw [Nat.zero_add] at hdrained
  -- enough blocks carry the longest list
  have hcovers : ∀ n, n ≤ max (max (s.vaultDelta cfg obs).length
      (s.stakeDelta cfg obs).length) (s.roleDelta cfg obs).length →
      n ≤ ops.countP Op.isInherent * cfg.maxChangesPerBlock := by
    intro n hn
    have hceil := Nat.lt_mul_div_succ (max (max (s.vaultDelta cfg obs).length
      (s.stakeDelta cfg obs).length) (s.roleDelta cfg obs).length +
      cfg.maxChangesPerBlock - 1) hpage
    have hmul : s.pagesNeeded cfg obs * cfg.maxChangesPerBlock ≤
        ops.countP Op.isInherent * cfg.maxChangesPerBlock :=
      Nat.mul_le_mul_right _ hblocks
    unfold pagesNeeded at hmul
    rw [Nat.mul_add, Nat.mul_comm, Nat.mul_one] at hceil
    omega
  exact hdrained.converged hroles henforce haccepts (hcovers _ (by simp)) (hcovers _ (by simp))
    (hcovers _ (by simp))

def narrowPage : Config := { Config.toy with maxChangesPerBlock := 1 }

def twoVaults : CardanoObservation :=
  ⟨⟨10, 0⟩, 0, [(⟨5⟩, 200000000), (⟨6⟩, 300000000)], [], []⟩

def twoBound : Runtime :=
  genesis.run narrowPage
    [.nextBlock 0,
      .call .none (.gate (.linkIdentitySigned ⟨[1, 5], []⟩)),
      .call .none (.gate (.linkIdentitySigned ⟨[2, 6], []⟩))]

theorem pagedDelta_converges_twoVaults :
    CarriesPage narrowPage twoBound twoVaults ∧
      Converged narrowPage twoBound twoVaults
        (twoBound.run narrowPage [.inherent twoVaults, .nextBlock 6, .inherent twoVaults]) 2 := by
  obtain ⟨hcarries, hconverges⟩ := pagedDelta_converges narrowPage twoBound twoVaults
    (by decide) (by decide) (by decide +kernel) (by decide +kernel)
  refine ⟨hcarries, hconverges _ ⟨?_, ?_, ?_, trivial⟩ (by decide +kernel)⟩
  · exact Or.inr ⟨rfl, by decide +kernel, by decide +kernel⟩
  · exact Or.inl rfl
  · exact Or.inr ⟨rfl, by decide +kernel, by decide +kernel⟩

end CognoChain
