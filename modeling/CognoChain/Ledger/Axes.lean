import CognoChain.Ledger.Step

/-!
# The three axes of an observation

The vault weights and the voting power are delta ledgers over beacons and over
stake credentials.  The badges are keyed by the account itself.  Applying a
call moves each axis by the changes the call lists for it, and nothing moves
while enforcement is off.
-/

namespace CognoChain

open Substrate StorageMap

/-! ## Two delta ledgers -/

theorem flooredWeight_idem (cfg : Config) (lovelace : ℕ) :
    flooredWeight cfg (flooredWeight cfg lovelace) = flooredWeight cfg lovelace := by
  unfold flooredWeight
  split_ifs <;> rfl

namespace Runtime

variable {cfg : Config} {s s' : Runtime}

def vaultLedger (s : Runtime) : DeltaLedger BeaconName AccountId :=
  ⟨s.observer.lastObserved, s.talkStake.allowedStake⟩

def stakeLedger (s : Runtime) : DeltaLedger StakeCredential AccountId :=
  ⟨s.observer.lastObservedStake, s.talkStake.votingPower⟩

theorem resolveBeacon_congr (hgate : s'.gate = s.gate) :
    s'.resolveBeacon = s.resolveBeacon := by
  funext beacon
  simp only [resolveBeacon, hgate]

theorem resolveStake_congr (hgate : s'.gate = s.gate) : s'.resolveStake = s.resolveStake := by
  funext stakeCred
  simp only [resolveStake, hgate]

/-! What is desired is in the terms in which it is applied. -/

theorem desiredRows_get {K : Type} [StorageKey K] {resolve : K → Option AccountId}
    {value : ℕ → ℕ} {bound : ℕ} {entries : List (K × ℕ)} {k : K} {account : AccountId}
    {amount : ℕ}
    (hget : (desiredRows resolve value bound entries).get k = some (account, amount)) :
    resolve k = some account ∧ ∃ raw, amount = value raw ∧ value raw ≤ bound := by
  let inv : StorageMap K (AccountId × ℕ) → Prop := fun rows =>
    ∀ k account amount, rows.get k = some (account, amount) →
      resolve k = some account ∧ ∃ raw, amount = value raw ∧ value raw ≤ bound
  suffices hinv : inv (desiredRows resolve value bound entries) from hinv k account amount hget
  apply foldl_invariant _ inv
  · intro rows entry hrows
    split
    · exact hrows
    next who hresolve =>
      split_ifs with hbound
      · exact hrows
      · intro k account amount hget
        by_cases hk : k = entry.1
        · rw [hk, get_insert_self] at hget
          obtain ⟨rfl, rfl⟩ := Prod.mk.inj (Option.some.inj hget)
          rw [hk]
          exact ⟨hresolve, entry.2, rfl, Nat.le_of_not_lt hbound⟩
        · rw [get_insert_of_ne _ _ hk] at hget
          exact hrows k account amount hget
  · intro k account amount hget
    simp at hget

theorem vaultDesired_admissible (obs : CardanoObservation) :
    DeltaLedger.Admissible s.resolveBeacon (vaultAccept cfg) (s.vaultDesired cfg obs) := by
  intro k account amount hget
  obtain ⟨hresolve, raw, rfl, hbound⟩ := desiredRows_get hget
  refine ⟨hresolve, ?_⟩
  simp [vaultAccept, flooredWeight_idem, Nat.not_lt.mpr hbound]

theorem stakeDesired_admissible (obs : CardanoObservation) :
    DeltaLedger.Admissible s.resolveStake (stakeAccept cfg) (s.stakeDesired cfg obs) := by
  intro k account amount hget
  obtain ⟨hresolve, raw, rfl, hbound⟩ := desiredRows_get hget
  refine ⟨hresolve, ?_⟩
  simpa [stakeAccept] using hbound

/-! ## Applying one change -/

theorem WritesCapacity.vaultLedger (h : s.WritesCapacity s') :
    s'.vaultLedger = s.vaultLedger := by
  obtain ⟨capacity, events, rfl⟩ := h
  rfl

theorem applyObservedWeight_vaultLedger (account : AccountId) (weight : ℕ) :
    (s.applyObservedWeight cfg account weight).vaultLedger =
      s.vaultLedger.assign account weight := by
  unfold applyObservedWeight
  rw [(onFirstBind_writes account).vaultLedger]
  unfold DeltaLedger.assign
  by_cases hsame : s.weightOf account = weight
  · have hamount : s.vaultLedger.amountOf account = weight := hsame
    simp [hsame, hamount]
  · have hamount : s.vaultLedger.amountOf account ≠ weight := hsame
    obtain ⟨capacity, events, hsettled⟩ :
        s.WritesCapacity (s.settleCapacityAt cfg account (s.weightOf account)) :=
      settleCapacityAt_writes account _
    simp only [hsame, hamount, if_false, hsettled]
    rfl

theorem setVotingPower_stakeLedger (account : AccountId) (total : ℕ) :
    (s.setVotingPower account total).stakeLedger = s.stakeLedger.assign account total := by
  unfold setVotingPower DeltaLedger.assign DeltaLedger.amountOf
  split_ifs with hsame hamount hamount
  · rfl
  · exact absurd hsame hamount
  · exact absurd hamount hsame
  · rfl

/-- The axis writes the amounts and the basis of a delta ledger, and nothing its
resolver reads. -/
structure Axis.Writes {K : Type} [StorageKey K] (axis : Axis K)
    (ledger : Runtime → DeltaLedger K AccountId) : Prop where
  basis : ∀ s, (ledger s).basis = axis.basis s
  assign : ∀ s who amount, ledger (axis.assign s who amount) = (ledger s).assign who amount
  setBasis : ∀ s rows, ledger (axis.setBasis s rows) = { ledger s with basis := rows }
  resolve : ∀ s who amount rows,
    axis.resolve (axis.setBasis (axis.assign s who amount) rows) = axis.resolve s

namespace Axis.Writes

variable {K : Type} [StorageKey K] {axis : Axis K} {ledger : Runtime → DeltaLedger K AccountId}
  (haxis : axis.Writes ledger)
include haxis

theorem basis_assign (s : Runtime) (who : AccountId) (amount : ℕ) :
    axis.basis (axis.assign s who amount) = axis.basis s := by
  rw [← haxis.basis, haxis.assign, ← haxis.basis]
  unfold DeltaLedger.assign
  split_ifs <;> rfl

theorem resolve_applyChange (enforce : Bool) (acc : Runtime × AxisCounts)
    (change : K × Option ℕ) :
    axis.resolve (axis.applyChange enforce acc change).1 = axis.resolve acc.1 := by
  rcases axis.applyChange_cases enforce acc change with hsame | ⟨-, who, amount, rows, hafter⟩
  · rw [hsame]
  · rw [hafter, haxis.resolve]

theorem applyChange (acc : Runtime × AxisCounts) (change : K × Option ℕ) :
    ledger (axis.applyChange true acc change).1 =
      (ledger acc.1).applyChange (axis.resolve acc.1) axis.accept change := by
  obtain ⟨s, counts⟩ := acc
  obtain ⟨k, observed⟩ := change
  cases observed with
  | some raw =>
    simp only [Axis.applyChange, DeltaLedger.applyChange, if_true]
    cases axis.resolve s k with
    | none => rfl
    | some account =>
      cases axis.accept raw with
      | none => rfl
      | some amount =>
        simp only [haxis.setBasis, haxis.assign, haxis.basis_assign, DeltaLedger.credit,
          haxis.basis]
  | none =>
    simp only [Axis.applyChange, DeltaLedger.applyChange, haxis.basis, if_true]
    cases (axis.basis s).get k with
    | none => rfl
    | some row =>
      simp only [haxis.setBasis, haxis.assign, haxis.basis_assign, DeltaLedger.clear,
        haxis.basis]

theorem foldl_applyChange (changes : List (K × Option ℕ)) (acc : Runtime × AxisCounts) :
    ledger (changes.foldl (axis.applyChange true) acc).1 =
      changes.foldl (DeltaLedger.applyChange (axis.resolve acc.1) axis.accept) (ledger acc.1) := by
  induction changes generalizing acc with
  | nil => rfl
  | cons change changes ih =>
    rw [List.foldl_cons, List.foldl_cons, ih, haxis.resolve_applyChange, haxis.applyChange]

end Axis.Writes

theorem vaultAxis_writes (cfg : Config) : (vaultAxis cfg).Writes vaultLedger where
  basis _ := rfl
  assign _ who weight := applyObservedWeight_vaultLedger who weight
  setBasis _ _ := rfl
  resolve _ who weight _ := resolveBeacon_congr (applyObservedWeight_writes who weight).gate

theorem stakeAxis_writes (cfg : Config) : (stakeAxis cfg).Writes stakeLedger where
  basis _ := rfl
  assign _ who total := setVotingPower_stakeLedger who total
  setBasis _ _ := rfl
  resolve _ who total _ := resolveStake_congr (setVotingPower_writes who total).gate

end Runtime

/-! ## The badges -/

structure RoleLedger where
  basis : StorageMap AccountId (List RoleTuple)
  badges : StorageMap AccountId (List ObservedRole)

namespace RoleLedger

variable {l : RoleLedger} {who other : AccountId}

def badgesOf (l : RoleLedger) (who : AccountId) : List ObservedRole := l.badges.getD who []

def assign (l : RoleLedger) (who : AccountId) (roles : List ObservedRole) : RoleLedger :=
  if roles = l.badgesOf who then l
  else { l with
    badges := if roles = [] then l.badges.remove who else l.badges.insert who roles }

def applyChange (l : RoleLedger) (change : RoleChange) : RoleLedger :=
  match change.roles with
  | some (role :: roles) =>
      { l.assign change.who (boundObservedRoles (role :: roles)) with
        basis := l.basis.insert change.who (role :: roles) }
  | _ => { l.assign change.who [] with basis := l.basis.remove change.who }

theorem assign_badgesOf_self (roles : List ObservedRole) :
    (l.assign who roles).badgesOf who = roles := by
  unfold assign
  split_ifs with hsame hempty
  · exact hsame.symm
  · simp [badgesOf, hempty, getD]
  · simp [badgesOf]

theorem assign_badgesOf_of_ne (roles : List ObservedRole) (hne : other ≠ who) :
    (l.assign who roles).badgesOf other = l.badgesOf other := by
  unfold assign
  split_ifs
  · rfl
  · simp [badgesOf, getD, get_remove_of_ne _ hne]
  · simp [badgesOf, getD_insert_of_ne _ _ _ hne]

theorem assign_setBasis (basis : StorageMap AccountId (List RoleTuple))
    (roles : List ObservedRole) :
    RoleLedger.assign { l with basis := basis } who roles =
      { l.assign who roles with basis := basis } := by
  unfold assign badgesOf
  split_ifs <;> rfl

theorem applyChange_get_of_ne {change : RoleChange} (hne : who ≠ change.who) :
    (l.applyChange change).basis.get who = l.basis.get who := by
  unfold applyChange
  split
  · exact get_insert_of_ne _ _ hne
  · exact get_remove_of_ne _ hne

theorem applyChange_badgesOf_of_ne {change : RoleChange} (hne : who ≠ change.who) :
    (l.applyChange change).badgesOf who = l.badgesOf who := by
  unfold applyChange
  split
  · exact assign_badgesOf_of_ne _ hne
  · exact assign_badgesOf_of_ne _ hne

end RoleLedger

namespace Runtime

variable {cfg : Config} {s s' : Runtime}

def roleLedger (s : Runtime) : RoleLedger :=
  ⟨s.observer.lastObservedRoles, s.roles.observedRoles⟩

theorem setRoles_roleLedger (who : AccountId) (roles : List RoleTuple) :
    (s.setRoles who roles).roleLedger =
      s.roleLedger.assign who (boundObservedRoles roles) := by
  unfold setRoles applyRoles RoleLedger.assign
  have hbadges : s.roleLedger.badgesOf who = s.observedRolesOf who := rfl
  rw [hbadges]
  split_ifs <;> rfl

theorem setRoles_observer (who : AccountId) (roles : List RoleTuple) :
    (s.setRoles who roles).observer = s.observer := by
  unfold setRoles applyRoles
  split_ifs <;> rfl

theorem setRoleBasis_roleLedger (basis : StorageMap AccountId (List RoleTuple)) :
    (s.setRoleBasis basis).roleLedger = { s.roleLedger with basis := basis } := rfl

theorem applyRoleChange_roleLedger (acc : Runtime × AxisCounts) (change : RoleChange) :
    (applyRoleChange true acc change).1.roleLedger = acc.1.roleLedger.applyChange change := by
  have hbasis : acc.1.roleLedger.basis = acc.1.observer.lastObservedRoles := rfl
  have hcleared : ∀ who, ((acc.1.setRoles who []).setRoleBasis
      ((acc.1.setRoles who []).observer.lastObservedRoles.remove who)).roleLedger =
        { acc.1.roleLedger.assign who [] with basis := acc.1.roleLedger.basis.remove who } := by
    intro who
    rw [setRoleBasis_roleLedger, setRoles_roleLedger, setRoles_observer, hbasis]
    rfl
  obtain ⟨who, roles⟩ := change
  match roles with
  | none => exact hcleared who
  | some [] => exact hcleared who
  | some (role :: roles) =>
    simp only [applyRoleChange, RoleLedger.applyChange, if_true, setRoleBasis_roleLedger,
      setRoles_roleLedger, setRoles_observer, hbasis]

/-! ## Applying a call -/

theorem applyChanges_frozen (args : ObserveArgs) (hfrozen : s.observer.enforceWeight = false) :
    (s.applyChanges cfg args).1 = s := by
  apply applyChanges_invariant (fun after => after = s) args
  · intro acc change hacc
    rw [hfrozen, applyVaultChange_eq,
      ((vaultAxis cfg).applyChange_cases false acc change).resolve_right (by simp), hacc]
  · intro acc change hacc
    rw [hfrozen, applyStakeChange_eq,
      ((stakeAxis cfg).applyChange_cases false acc change).resolve_right (by simp), hacc]
  · intro acc change hacc
    rw [hfrozen, (applyRoleChange_cases false acc change).resolve_right (by simp), hacc]
  · rfl

theorem foldl_applyVaultChange_writes (cfg : Config) (changes : List VaultChange)
    (acc : Runtime × AxisCounts) :
    acc.1.WritesVault (changes.foldl (applyVaultChange cfg true) acc).1 := by
  apply foldl_invariant _ (fun after : Runtime × AxisCounts => acc.1.WritesVault after.1)
  · intro before change hbefore
    exact hbefore.trans (applyVaultChange_writes true before change)
  · exact .refl _

theorem foldl_applyStakeChange_writes (cfg : Config) (changes : List StakeChange)
    (acc : Runtime × AxisCounts) :
    acc.1.WritesPower (changes.foldl (applyStakeChange cfg true) acc).1 := by
  apply foldl_invariant _ (fun after : Runtime × AxisCounts => acc.1.WritesPower after.1)
  · intro before change hbefore
    exact hbefore.trans (applyStakeChange_writes true before change)
  · exact .refl _

theorem foldl_applyRoleChange (changes : List RoleChange) (acc : Runtime × AxisCounts) :
    acc.1.WritesBadges (changes.foldl (applyRoleChange true) acc).1 ∧
      (changes.foldl (applyRoleChange true) acc).1.roleLedger =
        changes.foldl RoleLedger.applyChange acc.1.roleLedger := by
  induction changes generalizing acc with
  | nil => exact ⟨.refl _, rfl⟩
  | cons change changes ih =>
    obtain ⟨hwrites, hledger⟩ := ih (applyRoleChange true acc change)
    refine ⟨(applyRoleChange_writes true acc change).trans hwrites, ?_⟩
    rw [List.foldl_cons, List.foldl_cons, hledger, applyRoleChange_roleLedger]

end Runtime

/-- What `after` differs in from `s` is neither on an axis nor read by a
resolver. -/
structure SameAxes (s after : Runtime) : Prop where
  vault : after.vaultLedger = s.vaultLedger
  stake : after.stakeLedger = s.stakeLedger
  roles : after.roleLedger = s.roleLedger
  gate : after.gate = s.gate
  credIndex : after.roles.roleCredIndex = s.roles.roleCredIndex

theorem SameAxes.trans {s t u : Runtime} (h : SameAxes s t) (h' : SameAxes t u) : SameAxes s u :=
  ⟨h'.vault.trans h.vault, h'.stake.trans h.stake, h'.roles.trans h.roles, h'.gate.trans h.gate,
    h'.credIndex.trans h.credIndex⟩

/-- Each axis has moved by the changes a call lists for it. -/
structure AppliesAxes (cfg : Config) (s : Runtime) (args : ObserveArgs) (after : Runtime) :
    Prop where
  vault : after.vaultLedger = args.changes.foldl
    (DeltaLedger.applyChange s.resolveBeacon (vaultAccept cfg)) s.vaultLedger
  stake : after.stakeLedger = args.stakeChanges.foldl
    (DeltaLedger.applyChange s.resolveStake (stakeAccept cfg)) s.stakeLedger
  roles : after.roleLedger = args.roleChanges.foldl RoleLedger.applyChange s.roleLedger
  gate : after.gate = s.gate
  credIndex : after.roles.roleCredIndex = s.roles.roleCredIndex

namespace Runtime

variable {cfg : Config} {s s' : Runtime} {args : ObserveArgs}

theorem WritesFrontier.sameAxes (h : s.WritesFrontier s') : SameAxes s s' := by
  obtain ⟨reference, enforce, pending, appliedAt, stalled, cursor, sweepAt, events, rfl⟩ := h
  exact ⟨rfl, rfl, rfl, rfl, rfl⟩

theorem applyChanges_axes (cfg : Config) (args : ObserveArgs)
    (henforce : s.observer.enforceWeight = true) :
    AppliesAxes cfg s args (s.applyChanges cfg args).1 := by
  simp only [applyChanges, henforce]
  have hvault := foldl_applyVaultChange_writes cfg args.changes (s, {})
  have hvaultLedger := (vaultAxis_writes cfg).foldl_applyChange args.changes (s, {})
  rw [← applyVaultChange_eq] at hvaultLedger
  set vault := (args.changes.foldl (applyVaultChange cfg true) (s, {})).1
  have hstake := foldl_applyStakeChange_writes cfg args.stakeChanges (vault, {})
  have hstakeLedger := (stakeAxis_writes cfg).foldl_applyChange args.stakeChanges (vault, {})
  rw [← applyStakeChange_eq] at hstakeLedger
  set stake := (args.stakeChanges.foldl (applyStakeChange cfg true) (vault, {})).1
  obtain ⟨hroles, hroleLedger⟩ := foldl_applyRoleChange args.roleChanges (stake, {})
  set roles := (args.roleChanges.foldl (applyRoleChange true) (stake, {})).1
  obtain ⟨weights, capacity, basis, events, hvault⟩ := hvault
  obtain ⟨power, powerSeq, powerBasis, powerEvents, hstake⟩ := hstake
  obtain ⟨badges, badgeSeq, badgeBasis, badgeEvents, hroles⟩ := hroles
  -- the later axes do not touch what an earlier one wrote, nor its resolver
  constructor
  · refine Eq.trans ?_ hvaultLedger
    rw [hroles]
    simp only [hstake]
    rfl
  · have hresolve : vault.resolveStake = s.resolveStake := by rw [hvault]; rfl
    have hledger : vault.stakeLedger = s.stakeLedger := by rw [hvault]; rfl
    rw [← hresolve, ← hledger]
    refine Eq.trans ?_ hstakeLedger
    rw [hroles]
    rfl
  · have hledger : stake.roleLedger = s.roleLedger := by
      simp only [hstake, hvault]
      rfl
    rw [← hledger, ← hroleLedger]
  · simp only [hroles, hstake, hvault]
  · simp only [hroles, hstake, hvault]

theorem observe_axes (haccepts : s.accepts cfg args.reference)
    (henforce : s.observer.enforceWeight = true) :
    AppliesAxes cfg s args (s.observe cfg args) := by
  have hchanges := applyChanges_axes cfg args henforce
  have hsame := (observe_accepted haccepts).sameAxes
  exact ⟨hsame.vault.trans hchanges.vault, hsame.stake.trans hchanges.stake,
    hsame.roles.trans hchanges.roles, hsame.gate.trans hchanges.gate,
    hsame.credIndex.trans hchanges.credIndex⟩

theorem observe_sameAxes
    (hidle : s.accepts cfg args.reference = false ∨ s.observer.enforceWeight = false) :
    SameAxes s (s.observe cfg args) := by
  cases haccepts : s.accepts cfg args.reference with
  | false =>
    rw [observe_rejected haccepts]
    exact ⟨rfl, rfl, rfl, rfl, rfl⟩
  | true =>
    have hfrozen : s.observer.enforceWeight = false := by simpa [haccepts] using hidle
    have hsame := (observe_accepted haccepts).sameAxes
    rwa [applyChanges_frozen args hfrozen] at hsame

theorem observe_axes_cases (args : ObserveArgs) :
    SameAxes s (s.observe cfg args) ∨ AppliesAxes cfg s args (s.observe cfg args) := by
  cases haccepts : s.accepts cfg args.reference with
  | false => exact Or.inl (observe_sameAxes (Or.inl haccepts))
  | true =>
    cases henforce : s.observer.enforceWeight with
    | false => exact Or.inl (observe_sameAxes (Or.inr henforce))
    | true => exact Or.inr (observe_axes haccepts henforce)

/-! ## The frontier -/

theorem settleFrontier_observer (reference : CardanoRef) (pending : ℕ) :
    (s.settleFrontier reference pending).observer = { s.observer with
      pendingChanges := pending
      lastReference := if pending = 0 then some reference else s.observer.lastReference } := by
  unfold settleFrontier
  split_ifs <;> rfl

def scopedAxesDrained (cfg : Config) (args : ObserveArgs) : Prop :=
  args.stakeChanges.length < cfg.maxChangesPerBlock ∧
    args.roleChanges.length < cfg.maxChangesPerBlock

instance (args : ObserveArgs) : Decidable (scopedAxesDrained cfg args) :=
  inferInstanceAs (Decidable (_ ∧ _))

theorem advanceScan_observer (args : ObserveArgs) :
    (s.advanceScan cfg args).observer = { s.observer with
      scanCursor :=
        if scopedAxesDrained cfg args then
          s.gate.nextScanCursor s.observer.scanCursor cfg.maxScanned
        else s.observer.scanCursor
      lastSweepAt :=
        if scopedAxesDrained cfg args ∧
            s.gate.nextScanCursor s.observer.scanCursor cfg.maxScanned ≤
              s.observer.scanCursor then
          s.blockNumber
        else s.observer.lastSweepAt } := by
  by_cases hdrained : scopedAxesDrained cfg args
  · simp only [hdrained, if_true, true_and]
    unfold scopedAxesDrained at hdrained
    rw [advanceScan, if_pos hdrained]
  · simp only [hdrained, if_false, false_and]
    unfold scopedAxesDrained at hdrained
    rw [advanceScan, if_neg hdrained]

theorem stampApplied_observer :
    ∃ stalled, s.stampApplied.observer = { s.observer with
      stalled := stalled
      lastAppliedAt := s.blockNumber } := by
  unfold stampApplied
  dsimp only
  split_ifs
  · exact ⟨_, rfl⟩
  · exact ⟨_, rfl⟩

theorem applyChanges_gate (args : ObserveArgs) : (s.applyChanges cfg args).1.gate = s.gate := by
  cases henforce : s.observer.enforceWeight with
  | true => exact (applyChanges_axes cfg args henforce).gate
  | false => rw [applyChanges_frozen args henforce]

/-- An accepted call records what is left of its observation, moves the
frontier only when nothing is, and moves the scan window only when both
windowed axes leave room in their page. -/
theorem observe_observer (haccepts : s.accepts cfg args.reference) :
    ∃ vaultRows stakeRows roleRows appliedAt stalled,
      (s.observe cfg args).observer = { s.observer with
        lastReference :=
          if args.pending = 0 then some args.reference else s.observer.lastReference
        lastObserved := vaultRows
        lastObservedStake := stakeRows
        lastObservedRoles := roleRows
        pendingChanges := args.pending
        lastAppliedAt := appliedAt
        stalled := stalled
        scanCursor :=
          if scopedAxesDrained cfg args then
            s.gate.nextScanCursor s.observer.scanCursor cfg.maxScanned
          else s.observer.scanCursor
        lastSweepAt :=
          if scopedAxesDrained cfg args ∧
              s.gate.nextScanCursor s.observer.scanCursor cfg.maxScanned ≤
                s.observer.scanCursor then
            s.blockNumber
          else s.observer.lastSweepAt } := by
  simp only [observe, haccepts, if_true, deposit]
  set applied := (s.applyChanges cfg args).1 with happlied
  have hgate : applied.gate = s.gate := applyChanges_gate args
  have hblock : applied.blockNumber = s.blockNumber :=
    blockNumber_of_social (applyChanges_social args)
  set settled := applied.settleFrontier args.reference args.pending with hsettled
  have hsettles : applied.WritesFrontier settled := settleFrontier_writes _ _
  set scanned := settled.advanceScan cfg args with hscanned
  have hwrites : s.LedgerWrites (s.applyChanges cfg args).1 := .applyChanges args
  obtain ⟨vaultRows, stakeRows, roleRows, hrows⟩ := hwrites.observer
  rw [← happlied] at hrows
  obtain ⟨stalled, hstamped⟩ := stampApplied_observer (s := scanned)
  refine ⟨vaultRows, stakeRows, roleRows, scanned.blockNumber, stalled, ?_⟩
  rw [hstamped, hscanned, advanceScan_observer, hsettles.sameAxes.gate,
    blockNumber_of_social hsettles.social, hgate, hblock, hsettled, settleFrontier_observer,
    hrows]

end Runtime

end CognoChain
