import CognoChain.Ledger.Axes
import CognoChain.Ledger.Bounding
import Mathlib.Logic.Relation

/-!
# Moves of the axes

The three axes together with the binds they are resolved through.  Whatever a
step of the chain does to them is a sequence of a few moves, each of which
changes one bind, tears one row down or applies a page of a derived delta.
-/

namespace CognoChain

open Substrate StorageMap DeltaLedger

structure Axes where
  vault : DeltaLedger BeaconName AccountId
  stake : DeltaLedger StakeCredential AccountId
  roles : RoleLedger
  binds : Binds

def RoleChange.Known (change : RoleChange) : Prop :=
  ∀ roles, change.roles = some roles → ∀ role ∈ roles, role.1 < 3

inductive AxesMove (cfg : Config) (a : Axes) : Axes → Prop
  | bind (account : AccountId) (identity : IdentityHash)
      (htombstoned : a.binds.tombstoned.get identity = none)
      (haccount : a.binds.pkhOf.get account = none)
      (hidentity : a.binds.accountOf.get identity = none) :
      AxesMove cfg a { a with binds := { a.binds with
        pkhOf := a.binds.pkhOf.insert account identity
        accountOf := a.binds.accountOf.insert identity account } }
  | release (account : AccountId) (identity : IdentityHash)
      (hbound : a.binds.pkhOf.get account = some identity) :
      AxesMove cfg a { a with binds := { a.binds with
        pkhOf := a.binds.pkhOf.remove account
        accountOf := a.binds.accountOf.remove identity
        tombstoned := a.binds.tombstoned.insert identity () } }
  | bindStake (account : AccountId) (stakeCred : StakeCredential)
      (haccount : a.binds.stakeCredOf.get account = none)
      (hstakeCred : a.binds.accountOfStakeCred.get stakeCred = none) :
      AxesMove cfg a { a with binds := { a.binds with
        stakeCredOf := a.binds.stakeCredOf.insert account stakeCred
        accountOfStakeCred := a.binds.accountOfStakeCred.insert stakeCred account } }
  | unlinkStake (account : AccountId) (stakeCred : StakeCredential)
      (hbound : a.binds.stakeCredOf.get account = some stakeCred) :
      AxesMove cfg a { a with
        stake := a.stake.clear stakeCred account
        binds := { a.binds with
          stakeCredOf := a.binds.stakeCredOf.remove account
          accountOfStakeCred := a.binds.accountOfStakeCred.remove stakeCred } }
  | tombstoneStake (stakeCred : StakeCredential) :
      AxesMove cfg a { a with binds := { a.binds with
        tombstonedStakeCred := a.binds.tombstonedStakeCred.insert stakeCred () } }
  | dropBadges (account : AccountId) (roles : RoleLedger)
      (hbasis : roles.basis = a.roles.basis.remove account)
      (hself : roles.badgesOf account = [])
      (hother : ∀ other, other ≠ account → roles.badgesOf other = a.roles.badgesOf other) :
      AxesMove cfg a { a with roles := roles }
  | observe (vaultRows : StorageMap BeaconName (AccountId × ℕ))
      (stakeRows : StorageMap StakeCredential (AccountId × ℕ)) (clears : AccountId → Bool)
      (roleChanges : List RoleChange) (page : ℕ)
      (hvault : Admissible a.binds.accountOf.get (vaultAccept cfg) vaultRows)
      (hstake : Admissible a.binds.accountOfStakeCred.get (stakeAccept cfg)
        stakeRows)
      (hroles : ∀ change ∈ roleChanges, change.Known) :
      AxesMove cfg a { a with
        vault := ((pagedDelta vaultRows a.vault.basis (fun _ => true)).take page).foldl
          (applyChange a.binds.accountOf.get (vaultAccept cfg)) a.vault
        stake := ((pagedDelta stakeRows a.stake.basis clears).take page).foldl
          (applyChange a.binds.accountOfStakeCred.get (stakeAccept cfg)) a.stake
        roles := roleChanges.foldl RoleLedger.applyChange a.roles }

abbrev AxesMoves (cfg : Config) : Axes → Axes → Prop := Relation.ReflTransGen (AxesMove cfg)

namespace Runtime

variable {cfg : Config} {s s' : Runtime} {account : AccountId} {role : RoleKind}
  {change : RoleChange} {obs : CardanoObservation} {nonce : ℕ} {who : AccountId}

def axes (s : Runtime) : Axes := ⟨s.vaultLedger, s.stakeLedger, s.roleLedger, s.gate.binds⟩

/-! ## Roles the derivation carries -/

theorem mem_addRole {set : List RoleTuple} {role other : RoleTuple}
    (hmem : other ∈ addRole set role) : other ∈ set ∨ other = role := by
  unfold addRole at hmem
  split_ifs at hmem
  · exact Or.inl hmem
  · simpa using hmem

def desiredRow (row : Option (List RoleTuple)) (entry : RoleEntry) : Option (List RoleTuple) :=
  some (addRole (row.getD []) (entry.source.kindIndex, entry.id, entry.weight))

theorem roleDesired_get (s : Runtime) (obs : CardanoObservation) (who : AccountId) :
    (s.roleDesired obs).get who =
      (obs.roleEntries.filter
        (fun entry => decide (s.resolveRole entry.source entry.credential = some who))).foldl
          desiredRow none := by
  unfold roleDesired
  rw [← get_empty (V := List RoleTuple) who]
  generalize (∅ : StorageMap AccountId (List RoleTuple)) = desired
  induction obs.roleEntries generalizing desired with
  | nil => rfl
  | cons entry entries ih =>
    rw [List.foldl_cons, ih, List.filter_cons]
    cases hresolve : s.resolveRole entry.source entry.credential with
    | none => simp
    | some account =>
      by_cases hwho : account = who
      · subst hwho
        simp [desiredRow, mutate, getD]
      · simp [hwho, mutate, get_insert_of_ne _ _ (Ne.symm hwho)]

section Desired

variable {obs : CardanoObservation} {who : AccountId} {set : List RoleTuple}

/-- The entries that resolve to an account add their roles to its set one by
one. -/
theorem roleDesired_induction (P : List RoleTuple → Prop) (hnil : P [])
    (hadd : ∀ entry ∈ obs.roleEntries, s.resolveRole entry.source entry.credential = some who →
      ∀ set, P set → P (addRole set (entry.source.kindIndex, entry.id, entry.weight)))
    (hget : (s.roleDesired obs).get who = some set) : P set := by
  have hfold : P (((s.roleDesired obs).get who).getD []) := by
    rw [roleDesired_get]
    refine List.foldlRecOn (motive := fun row => P (Option.getD row [])) _ _ hnil ?_
    intro row hrow entry hentry
    obtain ⟨hmem, hresolve⟩ := List.mem_filter.mp hentry
    exact hadd entry hmem (of_decide_eq_true hresolve) _ hrow
  rwa [hget] at hfold

theorem mem_roleDesired {role : RoleTuple} (hget : (s.roleDesired obs).get who = some set)
    (hrole : role ∈ set) :
    ∃ entry ∈ obs.roleEntries, role = (entry.source.kindIndex, entry.id, entry.weight) := by
  revert role
  apply roleDesired_induction _ _ _ hget
  · simp
  · intro entry hentry _ set hset role hrole
    rcases mem_addRole hrole with hold | rfl
    · exact hset hold
    · exact ⟨entry, hentry, rfl⟩

end Desired

theorem mem_roleDelta :
    change ∈ s.roleDelta cfg obs ↔
      (∃ set, (s.roleDesired obs).get change.who = some set ∧
        change.roles = some (boundedRoles cfg set) ∧
        s.observer.lastObservedRoles.get change.who ≠ some (boundedRoles cfg set)) ∨
      (change.roles = none ∧ (s.roleDesired obs).get change.who = none ∧
        (s.observer.lastObservedRoles.get change.who).isSome ∧
        s.clearedByAbsence cfg change.who = true) := by
  obtain ⟨who, roles⟩ := change
  simp only [roleDelta]
  rw [(List.perm_insertionSort _ _).mem_iff, List.mem_append]
  apply or_congr
  · simp only [List.mem_map, List.mem_filter, RoleChange.mk.injEq, Prod.exists,
      ← get_eq_some_iff, decide_eq_true_eq]
    constructor
    · rintro ⟨_, set, ⟨hget, hdiffers⟩, rfl, rfl⟩
      exact ⟨set, hget, rfl, hdiffers⟩
    · rintro ⟨set, hget, hroles, hdiffers⟩
      exact ⟨who, set, ⟨hget, hdiffers⟩, rfl, hroles.symm⟩
  · simp only [List.mem_map, List.mem_filter, RoleChange.mk.injEq, Prod.exists,
      ← get_eq_some_iff, contains_eq_isSome, Bool.and_eq_true,
      Bool.not_eq_true', Option.isSome_eq_false_iff, Option.isNone_iff_eq_none,
      Option.isSome_iff_exists]
    constructor
    · rintro ⟨_, row, ⟨hrow, habsent, hclears⟩, rfl, rfl⟩
      exact ⟨rfl, habsent, ⟨row, hrow⟩, hclears⟩
    · rintro ⟨rfl, habsent, ⟨row, hrow⟩, hclears⟩
      exact ⟨who, row, ⟨hrow, habsent, hclears⟩, rfl, rfl⟩

theorem roleDelta_known (hmem : change ∈ s.roleDelta cfg obs) : change.Known := by
  intro roles hroles role hrole
  rcases mem_roleDelta.mp hmem with ⟨set, hget, hset, -⟩ | ⟨hnone, -⟩
  · rw [hset] at hroles
    rw [← Option.some.inj hroles] at hrole
    obtain ⟨entry, -, rfl⟩ := mem_roleDesired hget (mem_boundedRoles hrole)
    cases entry.source <;> simp [RoleSource.kindIndex]
  · rw [hnone] at hroles
    cases hroles

/-! ## The moves of each call -/

theorem deposit_axes (event : Event) : (s.deposit event).axes = s.axes := rfl

theorem SameLedger.axes (h : SameLedger s s') : s'.axes = s.axes := by
  unfold Runtime.axes vaultLedger stakeLedger roleLedger
  rw [h.talkStake, h.gate, h.roles, h.observer]

theorem WritesCapacity.axes (h : s.WritesCapacity s') : s'.axes = s.axes := by
  obtain ⟨capacity, events, rfl⟩ := h
  rfl

theorem WritesFrontier.axes (h : s.WritesFrontier s') : s'.axes = s.axes := by
  obtain ⟨reference, enforce, pending, appliedAt, stalled, cursor, sweepAt, events, rfl⟩ := h
  rfl

theorem WritesPower.axes (h : s.WritesPower s') :
    s'.axes = { s.axes with stake := s'.stakeLedger } := by
  obtain ⟨power, seq, basis, events, rfl⟩ := h
  rfl

theorem WritesRoles.axes (h : s.WritesRoles s') :
    s'.axes = { s.axes with roles := s'.roleLedger } := by
  obtain ⟨roles, basis, events, rfl⟩ := h
  rfl

theorem doBind_axes {identity : IdentityHash} (h : s.doBind account identity = .ok s') :
    AxesMove cfg s.axes s'.axes := by
  obtain ⟨htombstoned, haccount, hidentity, rfl⟩ := doBind_ok h
  have htombstoned : s.gate.tombstoned.get identity = none := by simpa using htombstoned
  have haccount : s.gate.pkhOf.get account = none := by simpa using haccount
  have hidentity : s.gate.accountOf.get identity = none := by simpa using hidentity
  have hjoined : ∀ g : GateStore,
      axes { s with gate := g.joinRotation account } = { s.axes with binds := g.binds } :=
    fun g => congrArg (Axes.mk s.vaultLedger s.stakeLedger s.roleLedger)
      (joinRotation_binds g account)
  rw [deposit_axes, (onFirstBind_writes account).axes, hjoined]
  exact .bind account identity htombstoned haccount hidentity

theorem doBindStake_axes {stakeCred : StakeCredential}
    (h : s.doBindStake account stakeCred nonce = .ok s') : AxesMove cfg s.axes s'.axes := by
  obtain ⟨-, haccount, hstakeCred, rfl⟩ := doBindStake_ok h
  have haccount : s.gate.stakeCredOf.get account = none := by simpa using haccount
  have hstakeCred : s.gate.accountOfStakeCred.get stakeCred = none := by
    simpa using hstakeCred
  exact .bindStake account stakeCred haccount hstakeCred

theorem forgetStake_axes (who : AccountId) (stakeCred : StakeCredential) :
    (s.forgetStake who stakeCred).axes =
      { s.axes with stake := s.stakeLedger.clear stakeCred who } := by
  have hledger : (s.forgetStake who stakeCred).stakeLedger =
      assign { s.stakeLedger with basis := s.stakeLedger.basis.remove stakeCred }
        who 0 :=
    setVotingPower_stakeLedger who 0
  rw [(forgetStake_writes who stakeCred).axes, hledger, assign_setBasis]
  rfl

theorem unlinkStake_axes (h : s.unlinkStake who = .ok s') :
    AxesMove cfg s.axes s'.axes := by
  obtain ⟨stakeCred, hbound, rfl⟩ := unlinkStake_ok h
  rw [deposit_axes, forgetStake_axes]
  exact .unlinkStake who stakeCred hbound

theorem banStake_axes (account : AccountId) :
    AxesMoves cfg s.axes (s.banStake account).axes := by
  unfold banStake
  split
  · exact .refl
  next stakeCred hbound =>
    rw [forgetStake_axes]
    exact .tail (.single (.unlinkStake account stakeCred hbound)) (.tombstoneStake stakeCred)

theorem forgetAccount_axes (account : AccountId) :
    AxesMove cfg s.axes (s.forgetAccount account).axes := by
  have hledger : (s.forgetAccount account).roleLedger =
      RoleLedger.assign { s.roleLedger with basis := s.roleLedger.basis.remove account }
        account [] :=
    setRoles_roleLedger account []
  rw [(forgetAccount_writes account).writesRoles.axes, hledger, RoleLedger.assign_setBasis]
  refine .dropBadges account _ rfl ?_ ?_
  · exact RoleLedger.assign_badgesOf_self []
  · exact fun other hne => RoleLedger.assign_badgesOf_of_ne [] hne

theorem dropObservedBadges_axes (account : AccountId) :
    AxesMove cfg s.axes (s.dropObservedBadges account).axes := by
  rw [(dropObservedBadges_writes account).writesRoles.axes]
  unfold dropObservedBadges
  split
  · refine .dropBadges account _ rfl ?_ ?_
    · exact getD_of_get_none (get_remove_self _ _)
    · intro other hne
      have hget := get_remove_of_ne s.roles.observedRoles hne
      exact congrArg (·.getD []) hget
  next habsent =>
    have hnone : s.roles.observedRoles.get account = none := by simpa using habsent
    exact .dropBadges account _ rfl (getD_of_get_none hnone) (fun _ _ => rfl)

theorem takeClaim_axes (who : AccountId) (role : RoleKind) :
    (s.takeClaim who role).axes = s.axes := by
  unfold takeClaim
  split <;> rfl

theorem purgeAccountRoles_axes (account : AccountId) :
    AxesMove cfg s.axes (s.purgeAccountRoles account).axes := by
  set released := ((s.takeClaim account .spo).takeClaim account .dRep).takeClaim account
    .committee with hreleased
  have hsame : released.axes = s.axes := by
    rw [hreleased, takeClaim_axes, takeClaim_axes, takeClaim_axes]
  have hdrop : AxesMove cfg released.axes (released.dropObservedBadges account).axes :=
    dropObservedBadges_axes account
  rw [hsame] at hdrop
  exact hdrop

theorem doRevoke_axes (h : s.doRevoke account = .ok s') :
    AxesMoves cfg s.axes s'.axes := by
  obtain ⟨identity, torn, hbound, htorn, rfl⟩ := doRevoke_ok h
  set released := s.releaseIdentity account identity
  set left := ({ torn with gate := torn.gate.leaveRotation account } : Runtime).zeroCapacity
    account with hleft
  have hrelease : AxesMove cfg s.axes released.axes := .release account identity hbound
  have hban : AxesMoves cfg released.axes (released.banStake account).axes :=
    banStake_axes account
  have hforget : AxesMove cfg (released.banStake account).axes torn.axes := by
    rw [htorn]
    exact forgetAccount_axes account
  have hsame : left.axes = torn.axes := by
    rw [hleft, (zeroCapacity_writes account).axes]
    exact congrArg (Axes.mk torn.vaultLedger torn.stakeLedger torn.roleLedger)
      (leaveRotation_binds torn.gate account)
  have hpurge : AxesMove cfg left.axes (left.purgeAccountRoles account).axes :=
    purgeAccountRoles_axes account
  rw [hsame] at hpurge
  rw [deposit_axes, onRevoke]
  exact .tail (.tail (.trans (.single hrelease) hban) hforget) hpurge

theorem revokeMany_axes (targets : List AccountId) :
    AxesMoves cfg s.axes (s.revokeMany targets).axes := by
  apply revokeMany_invariant (fun after => AxesMoves cfg s.axes after.axes)
  · exact fun _ _ h => h
  · exact fun _ _ _ hok h => h.trans (doRevoke_axes hok)
  · exact .refl

theorem doRevokeRole_axes (h : s.doRevokeRole account role = .ok s') :
    AxesMove cfg s.axes s'.axes := by
  obtain ⟨credential, -, rfl⟩ := doRevokeRole_ok h
  set banned := (s.takeClaim account role).tombstoneRoleCred role credential
  have hsame : banned.axes = s.axes := takeClaim_axes account role
  rw [deposit_axes, ← hsame]
  exact dropObservedBadges_axes account

theorem unclaimRole_axes (h : s.unclaimRole who role = .ok s') :
    AxesMove cfg s.axes s'.axes := by
  rw [unclaimRole_ok h, deposit_axes, ← takeClaim_axes who role]
  exact dropObservedBadges_axes who

theorem doClaim_axes {credential : RoleCredential}
    (h : s.doClaim account role credential nonce = .ok s') :
    s'.axes = s.axes := by
  rw [doClaim_ok h]
  rfl

theorem revokeRoleMany_axes (targets : List (AccountId × RoleKind)) :
    AxesMoves cfg s.axes (s.revokeRoleMany targets).axes := by
  apply revokeRoleMany_invariant (fun after => AxesMoves cfg s.axes after.axes)
  · exact fun _ _ h => h
  · exact fun _ _ _ _ hok h => h.tail (doRevokeRole_axes hok)
  · exact .refl

theorem observeSnapshot_axes (obs : CardanoObservation) :
    AxesMoves cfg s.axes (s.observeSnapshot cfg obs).axes := by
  rcases observe_axes_cases (s.deriveCall cfg obs) with hsame | happlies
  · have haxes : (s.observeSnapshot cfg obs).axes = s.axes := by
      unfold observeSnapshot axes
      rw [hsame.vault, hsame.stake, hsame.roles, hsame.gate]
    rw [haxes]
  · have haxes : AxesMove cfg s.axes (s.observe cfg (s.deriveCall cfg obs)).axes := by
      unfold axes
      rw [happlies.vault, happlies.stake, happlies.roles, happlies.gate]
      refine .observe (s.vaultDesired cfg obs) (s.stakeDesired cfg obs)
        (s.clearedByAbsence cfg) ((s.roleDelta cfg obs).take cfg.maxChangesPerBlock)
        cfg.maxChangesPerBlock (vaultDesired_admissible obs) (stakeDesired_admissible obs) ?_
      intro change hchange
      exact roleDelta_known (List.mem_of_mem_take hchange)
    exact .single haxes

end Runtime

def Op.derived : Op → Bool
  | .call _ (.observer (.observe _)) => false
  | _ => true

variable {cfg : Config} {s : Runtime}

open CognoChain.Runtime in
theorem LedgerStep.axes {after : Runtime} {op : Op} (hstep : LedgerStep cfg s op after)
    (hderived : op.derived) :
    AxesMoves cfg s.axes after.axes := by
  cases hstep with
  | keeps hsame => rw [SameLedger.axes hsame]
  | tick unixSecs =>
    have hsame : (s.nextBlock cfg unixSecs).axes = s.axes :=
      observerOnInitialize_writes.axes
    rw [hsame]
  | bind hbind => exact .single (doBind_axes hbind)
  | bindStake hbind => exact .single (doBindStake_axes hbind)
  | revoke hrevoke => exact doRevoke_axes hrevoke
  | revokeMany targets => exact revokeMany_axes targets
  | unlinkStake hunlink => exact .single (unlinkStake_axes hunlink)
  | tombstoneStakeCred stakeCred => exact .single (.tombstoneStake stakeCred)
  | claim hclaim => rw [doClaim_axes hclaim]
  | unclaim hunclaim => exact .single (unclaimRole_axes hunclaim)
  | revokeRole hrevoke => exact .single (doRevokeRole_axes hrevoke)
  | revokeRoleMany targets => exact revokeRoleMany_axes targets
  | observe args hop =>
    rw [hop] at hderived
    cases hderived
  | inherent obs hop => exact observeSnapshot_axes obs
  | setEnforcement enabled =>
    rw [(setEnforcement_writes enabled).axes]

theorem Runtime.run_axes {ops : List Op} (hderived : ∀ op ∈ ops, op.derived) :
    AxesMoves cfg s.axes (s.run cfg ops).axes := by
  have halong : Along (Runtime.step cfg) (fun _ op => op.derived) s ops :=
    Along.of_forall hderived
  apply halong.invariant (fun after : Runtime => AxesMoves cfg s.axes after.axes)
  · intro before op hop hbefore
    exact hbefore.trans ((before.step_ledgerStep op).axes hop)
  · exact .refl

end CognoChain
