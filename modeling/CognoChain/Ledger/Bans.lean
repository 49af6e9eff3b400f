import CognoChain.Model.Frames
import CognoChain.Substrate.Batch

/-!
# Bans

What the committee's bans leave behind: the binds and claims that are gone, the
tombstones, the badges and the voting power.  A ban reads and removes only what
its target holds, so bans of different targets do not get in each other's way,
and a batch of them comes to the same whatever its order.
-/

namespace CognoChain

open Substrate StorageMap

/-- The stores a ban writes, without the scan rotation, the change counters and
the banked capacity. -/
structure Bans where
  binds : Binds
  roleClaimOf : StorageMap (AccountId × RoleKind) RoleCredential
  roleCredIndex : StorageMap (RoleKind × RoleCredential) AccountId
  tombstonedRoleCred : StorageMap (RoleKind × RoleCredential) Unit
  observedRoles : StorageMap AccountId (List ObservedRole)
  votingPower : StorageMap AccountId ℕ

def Runtime.bans (s : Runtime) : Bans where
  binds := s.gate.binds
  roleClaimOf := s.roles.roleClaimOf
  roleCredIndex := s.roles.roleCredIndex
  tombstonedRoleCred := s.roles.tombstonedRoleCred
  observedRoles := s.roles.observedRoles
  votingPower := s.talkStake.votingPower

def roleKinds : List RoleKind := [.spo, .dRep, .committee]

structure Holdings where
  identities : List IdentityHash
  stakeCreds : List StakeCredential
  claims : List (RoleKind × RoleCredential)
  powered : List AccountId

namespace Bans

def claim (b : Bans) (account : AccountId) (role : RoleKind) : List (RoleKind × RoleCredential) :=
  ((b.roleClaimOf.get (account, role)).map (Prod.mk role)).toList

def holdings (b : Bans) (account : AccountId) : Holdings where
  identities := (b.binds.pkhOf.get account).toList
  stakeCreds := (b.binds.stakeCredOf.get account).toList
  claims := roleKinds.flatMap (b.claim account)
  powered :=
    bif b.binds.stakeCredOf.contains account && b.votingPower.getD account 0 != 0 then [account]
    else []

def drop (b : Bans) (account : AccountId) (held : Holdings) : Bans where
  binds :=
    { pkhOf := b.binds.pkhOf.removeAll [account]
      accountOf := b.binds.accountOf.removeAll held.identities
      tombstoned := b.binds.tombstoned.insertAll held.identities ()
      stakeCredOf := b.binds.stakeCredOf.removeAll [account]
      accountOfStakeCred := b.binds.accountOfStakeCred.removeAll held.stakeCreds
      tombstonedStakeCred := b.binds.tombstonedStakeCred.insertAll held.stakeCreds () }
  roleClaimOf := b.roleClaimOf.removeAll (roleKinds.map (Prod.mk account))
  roleCredIndex := b.roleCredIndex.removeAll held.claims
  tombstonedRoleCred := b.tombstonedRoleCred
  observedRoles := b.observedRoles.removeAll [account]
  votingPower := b.votingPower.insertAll held.powered 0

def purge (b : Bans) (account : AccountId) : Bans :=
  { b with
    roleClaimOf := b.roleClaimOf.removeAll (roleKinds.map (Prod.mk account))
    roleCredIndex := b.roleCredIndex.removeAll (roleKinds.flatMap (b.claim account))
    observedRoles := b.observedRoles.removeAll [account] }

def revoke (b : Bans) (account : AccountId) : Bans :=
  if b.binds.pkhOf.contains account then b.drop account (b.holdings account) else b

def dropClaim (b : Bans) (target : AccountId × RoleKind) (claims : List (RoleKind × RoleCredential)) :
    Bans :=
  { b with
    roleClaimOf := b.roleClaimOf.removeAll [target]
    roleCredIndex := b.roleCredIndex.removeAll claims
    tombstonedRoleCred := b.tombstonedRoleCred.insertAll claims ()
    observedRoles := b.observedRoles.removeAll [target.1] }

def revokeRole (b : Bans) (target : AccountId × RoleKind) : Bans :=
  if b.roleClaimOf.contains target then b.dropClaim target (b.claim target.1 target.2) else b

variable {b : Bans}

theorem drop_comm (account account' : AccountId) (held held' : Holdings) :
    (b.drop account held).drop account' held' = (b.drop account' held').drop account held := by
  unfold drop
  simp only [removeAll_comm _ _ _, insertAll_comm _ _ _ _]

theorem get_drop_pkhOf {account other : AccountId} (hne : other ≠ account) (held : Holdings) :
    (b.drop account held).binds.pkhOf.get other = b.binds.pkhOf.get other := by
  simp [drop, get_removeAll, hne]

theorem holdings_powered_subset (account : AccountId) : (b.holdings account).powered ⊆ [account] := by
  unfold holdings
  cases b.binds.stakeCredOf.contains account && b.votingPower.getD account 0 != 0 <;> simp

theorem holdings_drop {account other : AccountId} (hne : other ≠ account) :
    (b.drop account (b.holdings account)).holdings other = b.holdings other := by
  have hstake : (b.drop account (b.holdings account)).binds.stakeCredOf.get other =
      b.binds.stakeCredOf.get other := by
    simp [drop, get_removeAll, hne]
  have hpower : (b.drop account (b.holdings account)).votingPower.getD other 0 =
      b.votingPower.getD other 0 := by
    have hother : other ∉ (b.holdings account).powered :=
      fun hmem => hne (List.mem_singleton.mp (b.holdings_powered_subset account hmem))
    rw [getD, drop, get_insertAll, if_neg hother]
    rfl
  have hclaim : ∀ role, (b.drop account (b.holdings account)).claim other role =
      b.claim other role := by
    intro role
    have hkept : (b.drop account (b.holdings account)).roleClaimOf.get (other, role) =
        b.roleClaimOf.get (other, role) := by
      simp [drop, get_removeAll, hne.symm]
    rw [claim, hkept, claim]
  have hidentity : (b.drop account (b.holdings account)).binds.pkhOf.get other =
      b.binds.pkhOf.get other := get_drop_pkhOf hne _
  generalize b.drop account (b.holdings account) = after at *
  have hclaims : after.claim other = b.claim other := funext hclaim
  simp only [holdings, contains_eq_isSome, hidentity, hstake, hpower, hclaims]

theorem revoke_comm (account account' : AccountId) :
    (b.revoke account).revoke account' = (b.revoke account').revoke account := by
  by_cases hne : account' = account
  · rw [hne]
  have hcontains : ∀ {first second : AccountId}, second ≠ first →
      (b.drop first (b.holdings first)).binds.pkhOf.contains second =
        b.binds.pkhOf.contains second := by
    intro first second hsecond
    rw [contains_eq_isSome, get_drop_pkhOf hsecond, contains_eq_isSome]
  have hne' : account ≠ account' := Ne.symm hne
  cases hfirst : b.binds.pkhOf.contains account <;>
    cases hsecond : b.binds.pkhOf.contains account' <;>
    simp only [revoke, hfirst, hsecond, Bool.false_eq_true, if_false, if_true, hcontains hne,
      hcontains hne', holdings_drop hne, holdings_drop hne']
  exact drop_comm account account' _ _

theorem dropClaim_comm (target target' : AccountId × RoleKind)
    (claims claims' : List (RoleKind × RoleCredential)) :
    (b.dropClaim target claims).dropClaim target' claims' =
      (b.dropClaim target' claims').dropClaim target claims := by
  unfold dropClaim
  simp only [removeAll_comm _ _ _, insertAll_comm _ _ _ _]

theorem get_dropClaim {target other : AccountId × RoleKind} (hne : other ≠ target)
    (claims : List (RoleKind × RoleCredential)) :
    (b.dropClaim target claims).roleClaimOf.get other = b.roleClaimOf.get other := by
  simp [dropClaim, get_removeAll, hne]

theorem revokeRole_comm (target target' : AccountId × RoleKind) :
    (b.revokeRole target).revokeRole target' = (b.revokeRole target').revokeRole target := by
  by_cases hne : target' = target
  · rw [hne]
  have hcontains : ∀ {first second : AccountId × RoleKind} claims, second ≠ first →
      (b.dropClaim first claims).roleClaimOf.contains second = b.roleClaimOf.contains second := by
    intro first second claims hsecond
    rw [contains_eq_isSome, get_dropClaim hsecond, contains_eq_isSome]
  have hclaim : ∀ {first second : AccountId × RoleKind} claims, second ≠ first →
      (b.dropClaim first claims).claim second.1 second.2 = b.claim second.1 second.2 := by
    intro first second claims hsecond
    rw [claim, get_dropClaim hsecond, claim]
  have hne' : target ≠ target' := Ne.symm hne
  cases hfirst : b.roleClaimOf.contains target <;>
    cases hsecond : b.roleClaimOf.contains target' <;>
    simp only [revokeRole, hfirst, hsecond, Bool.false_eq_true, if_false, if_true,
      hcontains _ hne, hcontains _ hne', hclaim _ hne, hclaim _ hne']
  exact dropClaim_comm target target' _ _

end Bans

/-! ## The runtime's bans -/

namespace Runtime

variable {s : Runtime}

section

variable (account : AccountId)

theorem takeClaim_bans (role : RoleKind) :
    (s.takeClaim account role).bans =
      { s.bans with
        roleClaimOf := s.roles.roleClaimOf.removeAll [(account, role)]
        roleCredIndex := s.roles.roleCredIndex.removeAll (s.bans.claim account role) } := by
  unfold takeClaim Bans.claim
  cases hclaim : s.roles.roleClaimOf.get (account, role) with
  | none =>
    have hget : s.bans.roleClaimOf.get (account, role) = none := hclaim
    rw [hget, removeAll_singleton, remove_of_get_none hclaim]
    rfl
  | some credential =>
    have hget : s.bans.roleClaimOf.get (account, role) = some credential := hclaim
    rw [hget]
    rfl

theorem foldl_takeClaim_bans {kinds : List RoleKind} (hkinds : kinds.Nodup) :
    (kinds.foldl (fun s role => s.takeClaim account role) s).bans =
      { s.bans with
        roleClaimOf := s.roles.roleClaimOf.removeAll (kinds.map (Prod.mk account))
        roleCredIndex := s.roles.roleCredIndex.removeAll
          (kinds.flatMap (s.bans.claim account)) } := by
  induction kinds generalizing s with
  | nil => rfl
  | cons role kinds ih =>
    obtain ⟨hrole, hrest⟩ := List.nodup_cons.mp hkinds
    have htaken := takeClaim_bans (s := s) account role
    have hkept : ∀ other ∈ kinds, (s.takeClaim account role).bans.claim account other =
        s.bans.claim account other := by
      intro other hother
      have hne : other ≠ role := fun heq => hrole (heq ▸ hother)
      rw [htaken]
      simp [Bans.claim, get_removeAll, hne]
      rfl
    have hclaims : (s.takeClaim account role).roles.roleClaimOf =
        s.roles.roleClaimOf.removeAll [(account, role)] := congrArg Bans.roleClaimOf htaken
    have hindex : (s.takeClaim account role).roles.roleCredIndex =
        s.roles.roleCredIndex.removeAll (s.bans.claim account role) :=
      congrArg Bans.roleCredIndex htaken
    rw [List.foldl_cons, ih hrest, List.flatMap_congr hkept, hclaims, hindex, htaken,
      List.flatMap_cons, removeAll_append]
    rfl

theorem dropObservedBadges_bans :
    (s.dropObservedBadges account).bans =
      { s.bans with observedRoles := s.roles.observedRoles.removeAll [account] } := by
  unfold dropObservedBadges
  split_ifs with hbadges
  · rfl
  · have hnone : s.roles.observedRoles.get account = none := by
      simpa using hbadges
    rw [removeAll_singleton, remove_of_get_none hnone]
    rfl

theorem purgeAccountRoles_bans :
    (s.purgeAccountRoles account).bans = s.bans.purge account := by
  have hkinds : roleKinds.Nodup := by decide
  have htaken := foldl_takeClaim_bans (s := s) account hkinds
  have hbadges := congrArg Bans.observedRoles htaken
  rw [purgeAccountRoles, dropObservedBadges_bans]
  exact congrArg₂ (fun bans badges => Bans.mk bans.binds bans.roleClaimOf bans.roleCredIndex
    bans.tombstonedRoleCred (removeAll badges [account]) bans.votingPower) htaken hbadges

theorem forgetAccount_bans :
    ∃ badges, (s.forgetAccount account).bans = { s.bans with observedRoles := badges } ∧
      badges.removeAll [account] = s.roles.observedRoles.removeAll [account] := by
  unfold forgetAccount setRoles applyRoles
  split
  · exact ⟨s.roles.observedRoles, rfl, rfl⟩
  · refine ⟨s.roles.observedRoles.removeAll [account], rfl, ?_⟩
    apply ext_get
    intro who
    simp only [get_removeAll]
    split_ifs <;> rfl

theorem clearVotingPower_bans :
    (s.setVotingPower account 0).bans =
      { s.bans with
        votingPower := s.bans.votingPower.insertAll
          (bif s.bans.votingPower.getD account 0 != 0 then [account] else []) 0 } := by
  unfold setVotingPower
  split_ifs with hzero
  · have hnone : s.bans.votingPower.getD account 0 = 0 := hzero
    rw [hnone]
    rfl
  · have hsome : (s.bans.votingPower.getD account 0 != 0) = true := bne_iff_ne.mpr hzero
    rw [hsome]
    rfl

theorem banStake_bans :
    (s.banStake account).bans =
      { s.bans with
        binds := { s.bans.binds with
          stakeCredOf := s.bans.binds.stakeCredOf.removeAll [account]
          accountOfStakeCred :=
            s.bans.binds.accountOfStakeCred.removeAll (s.bans.holdings account).stakeCreds
          tombstonedStakeCred :=
            s.bans.binds.tombstonedStakeCred.insertAll (s.bans.holdings account).stakeCreds () }
        votingPower :=
          s.bans.votingPower.insertAll (s.bans.holdings account).powered 0 } := by
  unfold banStake
  cases hstake : s.gate.stakeCredOf.get account with
  | none =>
    have hget : s.bans.binds.stakeCredOf.get account = none := hstake
    simp only [Bans.holdings, contains_eq_isSome, hget]
    rw [removeAll_singleton, remove_of_get_none hget]
    rfl
  | some stakeCred =>
    have hget : s.bans.binds.stakeCredOf.get account = some stakeCred := hstake
    simp only [Bans.holdings, contains_eq_isSome, hget, Option.isSome_some,
      Bool.true_and]
    exact clearVotingPower_bans account

end

theorem deposit_bans (s : Runtime) (event : Event) : (s.deposit event).bans = s.bans := rfl

theorem attempt_doRevoke_bans (s : Runtime) (account : AccountId) :
    (attempt doRevoke s account).bans = s.bans.revoke account := by
  unfold Bans.revoke
  cases hidentity : s.gate.pkhOf.get account with
  | none =>
    have hunbound : s.bans.binds.pkhOf.contains account = false := by
      rw [contains_eq_isSome]
      exact congrArg Option.isSome hidentity
    have hfails : s.doRevoke account = .error .notBound := by simp [doRevoke, hidentity]
    rw [attempt_of_error hfails, hunbound]
    rfl
  | some identity =>
    have hbound : s.bans.binds.pkhOf.contains account = true := by
      rw [contains_eq_isSome]
      exact congrArg Option.isSome hidentity
    obtain ⟨torn, htorn⟩ : ∃ torn, torn =
        ((s.releaseIdentity account identity).banStake account).forgetAccount account := ⟨_, rfl⟩
    have hdone : s.doRevoke account =
        .ok (({ torn with gate := torn.gate.leaveRotation account }.onRevoke account).deposit
          (.revoked account identity)) := by
      rw [htorn]
      simp [doRevoke, hidentity]
    obtain ⟨badges, hforgot, hsame⟩ := forgetAccount_bans
      (s := (s.releaseIdentity account identity).banStake account) account
    have hleft : ({ torn with gate := torn.gate.leaveRotation account }.zeroCapacity account).bans =
        torn.bans := by
      have hbinds := congrArg (fun binds => { torn.bans with binds := binds })
        (leaveRotation_binds torn.gate account)
      unfold zeroCapacity
      split_ifs <;> exact hbinds
    rw [attempt_of_ok hdone, hbound, if_pos rfl]
    have hpurged : ({ torn with gate := torn.gate.leaveRotation account }.onRevoke account).bans =
        torn.bans.purge account := by
      rw [onRevoke, purgeAccountRoles_bans, hleft]
    have hheld : (s.bans.holdings account).identities = [identity] :=
      congrArg Option.toList hidentity
    have hbadges : badges.removeAll [account] = s.bans.observedRoles.removeAll [account] :=
      hsame.trans (congrArg (fun bans : Bans => bans.observedRoles.removeAll [account])
        (banStake_bans account))
    rw [deposit_bans, hpurged, htorn, hforgot, banStake_bans, Bans.purge, Bans.drop, hheld, hbadges]
    rfl

theorem attempt_doRevokeRole_bans (s : Runtime) (target : AccountId × RoleKind) :
    (attempt (fun s target => doRevokeRole s target.1 target.2) s target).bans =
      s.bans.revokeRole target := by
  obtain ⟨account, role⟩ := target
  unfold Bans.revokeRole
  cases hclaim : s.roles.roleClaimOf.get (account, role) with
  | none =>
    have hfree : s.bans.roleClaimOf.contains (account, role) = false := by
      rw [contains_eq_isSome]
      exact congrArg Option.isSome hclaim
    have hfails : s.doRevokeRole account role = .error .notClaimed := by
      simp [doRevokeRole, hclaim]
    rw [attempt_of_error hfails, hfree]
    rfl
  | some credential =>
    have hheld : s.bans.roleClaimOf.contains (account, role) = true := by
      rw [contains_eq_isSome]
      exact congrArg Option.isSome hclaim
    have hdone : s.doRevokeRole account role = .ok ((((s.takeClaim account role).tombstoneRoleCred
        role credential).dropObservedBadges account).deposit (.roleRevoked account role)) := by
      simp [doRevokeRole, hclaim]
    have hcredential : s.bans.claim account role = [(role, credential)] := by
      rw [Bans.claim]
      exact congrArg (fun held => (Option.map (Prod.mk role) held).toList) hclaim
    rw [attempt_of_ok hdone, hheld, if_pos rfl, hcredential]
    have htaken : s.takeClaim account role = { s with roles := { s.roles with
        roleClaimOf := s.roles.roleClaimOf.remove (account, role)
        roleCredIndex := s.roles.roleCredIndex.remove (role, credential) } } := by
      simp [takeClaim, hclaim]
    refine (dropObservedBadges_bans account).trans ?_
    rw [htaken]
    rfl

theorem step_revoke (cfg : Config) (s : Runtime) (account : AccountId) :
    s.step cfg (.call .authority (.gate (.revoke account))) = attempt doRevoke s account := by
  unfold attempt
  cases hrevoke : s.doRevoke account <;>
    simp [step, execute, dispatch, dispatchGate, hrevoke, Except.mapError]

theorem step_revokeRole (cfg : Config) (s : Runtime) (target : AccountId × RoleKind) :
    s.step cfg (.call .authority (.roles (.revokeRole target.1 target.2))) =
      attempt (fun s target => doRevokeRole s target.1 target.2) s target := by
  unfold attempt
  cases hrevoke : s.doRevokeRole target.1 target.2 <;>
    simp [step, execute, dispatch, dispatchRoles, hrevoke, Except.mapError]

theorem run_map_op {α : Type} (cfg : Config) (op : α → Op) {single : Runtime → α → Runtime}
    (hop : ∀ s target, s.step cfg (op target) = single s target) (s : Runtime) (targets : List α) :
    s.run cfg (targets.map op) = Substrate.run single s targets := by
  rw [Runtime.run, Substrate.run, List.foldl_map, Substrate.run]
  exact congrArg (fun f => List.foldl f s targets) (funext fun s => funext (hop s))

theorem revokeMany_applied (s : Runtime) (targets : List AccountId) :
    (applyAll u32Max doRevoke s targets).2 =
      min (targets.toFinset.filter (fun account => s.gate.pkhOf.contains account)).card u32Max := by
  apply applyAll_snd (fun (s : Runtime) account => s.gate.pkhOf.contains account)
  · intro s account e hfails
    unfold doRevoke at hfails
    split at hfails
    next hidentity => rw [contains_eq_isSome, hidentity]; rfl
    next => cases hfails
  · intro s account after hdone
    obtain ⟨identity, -, hidentity, -, -⟩ := doRevoke_ok hdone
    refine ⟨by rw [contains_eq_isSome, hidentity]; rfl, fun other => ?_⟩
    rw [doRevoke_pkhOf hdone, contains_remove]

theorem revokeRoleMany_applied (s : Runtime) (targets : List (AccountId × RoleKind)) :
    (applyAll u32Max (fun s target => doRevokeRole s target.1 target.2) s targets).2 =
      min (targets.toFinset.filter (fun target => s.roles.roleClaimOf.contains target)).card
        u32Max := by
  apply applyAll_snd (fun (s : Runtime) target => s.roles.roleClaimOf.contains target)
  · intro s target e hfails
    unfold doRevokeRole at hfails
    split at hfails
    next hclaim => rw [contains_eq_isSome, hclaim]; rfl
    next => cases hfails
  · intro s target after hdone
    have hbans := attempt_doRevokeRole_bans s target
    rw [attempt_of_ok hdone] at hbans
    have hheld : s.roles.roleClaimOf.contains target = true := by
      unfold doRevokeRole at hdone
      split at hdone
      next => cases hdone
      next credential hclaim => rw [contains_eq_isSome, hclaim]; rfl
    have hclaims : after.roles.roleClaimOf = s.roles.roleClaimOf.remove target := by
      have hclaimed : s.bans.roleClaimOf.contains target = true := hheld
      rw [Bans.revokeRole, if_pos hclaimed] at hbans
      exact congrArg Bans.roleClaimOf hbans
    refine ⟨hheld, fun other => ?_⟩
    rw [hclaims, contains_remove]

theorem revokeMany_bans (s : Runtime) (targets : List AccountId) :
    (s.revokeMany targets).bans = Substrate.run Bans.revoke s.bans targets := by
  have hfst := congrArg bans (applyAll_fst u32Max doRevoke s targets)
  exact hfst.trans (run_project bans attempt_doRevoke_bans s targets)

theorem revokeRoleMany_bans (s : Runtime) (targets : List (AccountId × RoleKind)) :
    (s.revokeRoleMany targets).bans = Substrate.run Bans.revokeRole s.bans targets := by
  have hfst := congrArg bans
    (applyAll_fst u32Max (fun s target => doRevokeRole s target.1 target.2) s targets)
  exact hfst.trans (run_project bans attempt_doRevokeRole_bans s targets)

end Runtime

theorem card_filter_toFinset_le {α : Type*} [DecidableEq α] (p : α → Bool) (l : List α) :
    (l.toFinset.filter (fun a => p a)).card ≤ l.length :=
  (Finset.card_filter_le _ _).trans l.toFinset_card_le

/-- A batch of bans is its bans one after the other, reported with the number
of distinct targets it applied to; what it leaves does not depend on the order
of its targets. -/
theorem batch_bans_sequential (cfg : Config) (s : Runtime) :
    (∀ targets : List AccountId, targets.length ≤ u32Max →
      let applied := (targets.toFinset.filter (fun who => s.gate.pkhOf.contains who)).card
      s.dispatch cfg .authority (.gate (.revokeMany targets)) =
          .ok ((s.run cfg (targets.map fun who => .call .authority (.gate (.revoke who)))).deposit
            (.revokedMany applied (targets.length - applied))) ∧
        ∀ targets', targets.Perm targets' →
          (s.revokeMany targets').bans = (s.revokeMany targets).bans) ∧
    (∀ targets : List (AccountId × RoleKind), targets.length ≤ u32Max →
      let applied :=
        (targets.toFinset.filter (fun target => s.roles.roleClaimOf.contains target)).card
      s.dispatch cfg .authority (.roles (.revokeRoleMany targets)) =
          .ok ((s.run cfg (targets.map fun target =>
            .call .authority (.roles (.revokeRole target.1 target.2)))).deposit
            (.rolesRevokedMany applied (targets.length - applied))) ∧
        ∀ targets', targets.Perm targets' →
          (s.revokeRoleMany targets').bans = (s.revokeRoleMany targets).bans) := by
  constructor
  · intro targets hlength applied
    have happlied : (applyAll u32Max Runtime.doRevoke s targets).2 = applied :=
      (Runtime.revokeMany_applied s targets).trans
        (Nat.min_eq_left ((card_filter_toFinset_le _ targets).trans hlength))
    refine ⟨congrArg Except.ok ?_, fun targets' hperm => ?_⟩
    · rw [Runtime.run_map_op cfg _ (Runtime.step_revoke cfg), ← applyAll_fst u32Max, ← happlied]
      rfl
    · rw [Runtime.revokeMany_bans, Runtime.revokeMany_bans]
      exact (run_perm (fun _ => Bans.revoke_comm) hperm s.bans).symm
  · intro targets hlength applied
    have happlied : (applyAll u32Max (fun s target => Runtime.doRevokeRole s target.1 target.2) s
        targets).2 = applied :=
      (Runtime.revokeRoleMany_applied s targets).trans
        (Nat.min_eq_left ((card_filter_toFinset_le _ targets).trans hlength))
    refine ⟨congrArg Except.ok ?_, fun targets' hperm => ?_⟩
    · rw [Runtime.run_map_op cfg _ (Runtime.step_revokeRole cfg), ← applyAll_fst u32Max,
        ← happlied]
      rfl
    · rw [Runtime.revokeRoleMany_bans, Runtime.revokeRoleMany_bans]
      exact (run_perm (fun _ => Bans.revokeRole_comm) hperm s.bans).symm

def boundPair : Runtime :=
  Runtime.genesis.run Config.toy
    [.call .none (.gate (.linkIdentitySigned ⟨[1, 5], []⟩)),
      .call .none (.gate (.linkIdentitySigned ⟨[2, 6], []⟩))]

theorem batch_bans_sequential_boundPair :
    boundPair.dispatch Config.toy .authority (.gate (.revokeMany [⟨1⟩, ⟨3⟩, ⟨1⟩, ⟨2⟩])) =
        .ok ((boundPair.run Config.toy ([⟨1⟩, ⟨3⟩, ⟨1⟩, ⟨2⟩].map fun who =>
          .call .authority (.gate (.revoke who)))).deposit (.revokedMany 2 2)) ∧
      (boundPair.revokeMany [⟨2⟩, ⟨1⟩, ⟨1⟩, ⟨3⟩]).bans =
        (boundPair.revokeMany [⟨1⟩, ⟨3⟩, ⟨1⟩, ⟨2⟩]).bans := by
  obtain ⟨hbatch, -⟩ := batch_bans_sequential Config.toy boundPair
  obtain ⟨hdispatch, horder⟩ := hbatch [⟨1⟩, ⟨3⟩, ⟨1⟩, ⟨2⟩] (by decide)
  have hcount : (([⟨1⟩, ⟨3⟩, ⟨1⟩, ⟨2⟩] : List AccountId).toFinset.filter
      (fun who => boundPair.gate.pkhOf.contains who)).card = 2 := by decide +kernel
  rw [hcount] at hdispatch
  exact ⟨hdispatch, horder _ (by decide)⟩

end CognoChain
