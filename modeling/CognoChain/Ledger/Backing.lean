import CognoChain.Ledger.Convergence
import CognoChain.Ledger.Registers
import CognoChain.Ledger.Soundness

/-!
# What badges rest on

The observer badges an account through the credentials it holds, and most
verbs that release a credential drop the badges with it.  Releasing a stake
bind does not: the badges stand until an observation covers the account.
-/

namespace CognoChain

open Substrate CognoChain.Runtime StorageMap

theorem RoleLedger.foldl_badgesOf_of_clears {l : RoleLedger} {changes : List RoleChange}
    {account : AccountId}
    (hclears : ∀ change ∈ changes, change.who = account → change.roles = none) :
    (changes.foldl applyChange l).badgesOf account = [] ∨
      (changes.foldl applyChange l).badgesOf account = l.badgesOf account := by
  induction changes generalizing l with
  | nil => exact Or.inr rfl
  | cons change changes ih =>
    rw [List.foldl_cons]
    rcases ih (fun later hlater => hclears later (List.mem_cons_of_mem _ hlater))
      with hempty | hsame
    · exact Or.inl hempty
    · rw [hsame]
      by_cases hwho : account = change.who
      · have hroles : change.roles = none := hclears change List.mem_cons_self hwho.symm
        left
        simp only [applyChange, hroles, hwho]
        exact assign_badgesOf_self []
      · exact Or.inr (applyChange_badgesOf_of_ne hwho)

namespace Runtime

variable {cfg : Config} {s s' t : Runtime} {account : AccountId} {who : AccountId} {role : RoleKind}
  {op : Op}

def Credentialed (s : Runtime) (account : AccountId) : Prop :=
  s.gate.stakeCredOf.contains account ∨ ∃ role, s.roles.roleClaimOf.contains (account, role)

def Unlinks (cfg : Config) (s : Runtime) (op : Op) (account : AccountId) : Prop :=
  s.unlinkStake account = .ok (s.step cfg op)

/-- Badges that stand in `t` without a credential stood in `s` likewise. -/
def BadgesStand (s t : Runtime) (account : AccountId) : Prop :=
  t.observedRolesOf account ≠ [] → ¬ t.Credentialed account →
    ¬ s.Credentialed account ∧ t.observedRolesOf account = s.observedRolesOf account

theorem BadgesStand.trans (h : BadgesStand s t account) (h' : BadgesStand t s' account) :
    BadgesStand s s' account := by
  intro hbadges hfree
  obtain ⟨hfreeMid, hsame⟩ := h' hbadges hfree
  obtain ⟨hfreeStart, hstart⟩ := h (hsame ▸ hbadges) hfreeMid
  exact ⟨hfreeStart, hsame.trans hstart⟩

theorem BadgesStand.of_mono (hcredentials : s.Credentialed account → t.Credentialed account)
    (hbadges : t.observedRolesOf account = s.observedRolesOf account) :
    BadgesStand s t account :=
  fun _ hfree => ⟨fun hheld => hfree (hcredentials hheld), hbadges⟩

theorem BadgesStand.of_dropped (hbadges : t.observedRolesOf account = []) :
    BadgesStand s t account :=
  fun hsome => absurd hbadges hsome

theorem credentialed_of_register (hregister : t.register = s.register) :
    t.Credentialed account ↔ s.Credentialed account := by
  have hstakes : t.gate.stakeCredOf = s.gate.stakeCredOf :=
    congrArg (fun r => r.binds.stakeCredOf) hregister
  have hclaims : t.roles.roleClaimOf = s.roles.roleClaimOf :=
    congrArg Register.roleClaimOf hregister
  simp only [Credentialed, hstakes, hclaims]

/-! ## Releases -/

theorem observedRolesOf_deposit (event : Event) (other : AccountId) :
    (s.deposit event).observedRolesOf other = s.observedRolesOf other := rfl

theorem observedRolesOf_dropObservedBadges (who other : AccountId) :
    (s.dropObservedBadges who).observedRolesOf other =
      if other = who then [] else s.observedRolesOf other := by
  have hbasis : ∀ t : Runtime, (t.forgetRoleBasis who).observedRolesOf other =
      t.observedRolesOf other := fun _ => rfl
  simp only [dropObservedBadges, hbasis]
  split_ifs with hrow hsame hsame
  · rw [hsame]
    exact getD_of_get_none (get_remove_self _ _)
  · exact congrArg (·.getD []) (get_remove_of_ne s.roles.observedRoles hsame)
  · rw [hsame]
    exact getD_of_get_none (by simpa using hrow)
  · rfl

theorem observedRolesOf_forgetAccount_of_ne {other : AccountId} (hne : other ≠ who) :
    (s.forgetAccount who).observedRolesOf other = s.observedRolesOf other := by
  have hledger : (s.forgetAccount who).roleLedger =
      (s.forgetRoleBasis who).roleLedger.assign who [] := setRoles_roleLedger who []
  have hbadges : ((s.forgetRoleBasis who).roleLedger.assign who []).badgesOf other =
      s.observedRolesOf other := RoleLedger.assign_badgesOf_of_ne [] hne
  rw [← hledger] at hbadges
  exact hbadges

theorem observedRolesOf_takeClaim (who : AccountId) (role : RoleKind) (other : AccountId) :
    (s.takeClaim who role).observedRolesOf other = s.observedRolesOf other :=
  congrArg (fun a => RoleLedger.badgesOf (Axes.roles a) other) (takeClaim_axes who role)

theorem WritesPower.observedRolesOf (h : s.WritesPower s') (other : AccountId) :
    s'.observedRolesOf other = s.observedRolesOf other := by
  obtain ⟨power, seq, basis, events, rfl⟩ := h
  rfl

theorem WritesCapacity.observedRolesOf (h : s.WritesCapacity s') (other : AccountId) :
    s'.observedRolesOf other = s.observedRolesOf other := by
  obtain ⟨capacity, events, rfl⟩ := h
  rfl

theorem observedRolesOf_banStake (who other : AccountId) :
    (s.banStake who).observedRolesOf other = s.observedRolesOf other := by
  unfold banStake
  split
  · rfl
  · exact (forgetStake_writes _ _).observedRolesOf other

theorem credentialed_of_get
    (hstake : t.register.binds.stakeCredOf.get account = s.register.binds.stakeCredOf.get account)
    (hclaims : ∀ role, t.register.roleClaimOf.get (account, role) =
      s.register.roleClaimOf.get (account, role)) :
    s.Credentialed account → t.Credentialed account := by
  rintro (hheld | ⟨role, hheld⟩)
  · left
    have hsome : (t.register.binds.stakeCredOf.get account).isSome := by
      rw [hstake]
      exact hheld
    exact hsome
  · right
    have hsome : (t.register.roleClaimOf.get (account, role)).isSome := by
      rw [hclaims]
      exact hheld
    exact ⟨role, hsome⟩

theorem unlinkStake_badges (h : s.unlinkStake who = .ok t) (other : AccountId) :
    t.observedRolesOf other = s.observedRolesOf other := by
  obtain ⟨stakeCred, -, rfl⟩ := unlinkStake_ok h
  exact (forgetStake_writes (s := s.releaseStake who stakeCred) who stakeCred).observedRolesOf
    other

/-- A call that drops the badges of the one account whose credentials it may
take. -/
structure TearsDown (s t : Runtime) (who : AccountId) : Prop where
  badges : ∀ other, t.observedRolesOf other = if other = who then [] else s.observedRolesOf other
  stakes : ∀ other, other ≠ who → t.gate.stakeCredOf.get other = s.gate.stakeCredOf.get other
  claims : ∀ other, other ≠ who → ∀ role,
    t.roles.roleClaimOf.get (other, role) = s.roles.roleClaimOf.get (other, role)

theorem TearsDown.of_releaseClaim (hbinds : t.register.binds = s.register.binds)
    (hclaims : t.register.roleClaimOf = s.register.roleClaimOf.remove (who, role))
    (hbadges : ∀ other, t.observedRolesOf other = if other = who then [] else s.observedRolesOf other) :
    TearsDown s t who := by
  refine ⟨hbadges, ?_, ?_⟩
  · exact fun other _ => congrArg (fun binds => binds.stakeCredOf.get other) hbinds
  · intro other hne kind
    refine (congrArg (·.get (other, kind)) hclaims).trans ?_
    exact get_remove_of_ne _ (by simp [hne])

theorem unclaimRole_tearsDown (h : s.unclaimRole who role = .ok t) : TearsDown s t who := by
  obtain ⟨credential, -, hregister⟩ := unclaimRole_register h
  refine .of_releaseClaim (by rw [hregister]; rfl) (by rw [hregister]; rfl) (fun other => ?_)
  rw [unclaimRole_ok h, observedRolesOf_deposit, observedRolesOf_dropObservedBadges,
    observedRolesOf_takeClaim]

theorem doRevokeRole_tearsDown (h : s.doRevokeRole who role = .ok t) : TearsDown s t who := by
  obtain ⟨credential, -, hregister⟩ := doRevokeRole_register h
  refine .of_releaseClaim (by rw [hregister]; rfl) (by rw [hregister]; rfl) (fun other => ?_)
  obtain ⟨claimed, -, rfl⟩ := doRevokeRole_ok h
  have hkept : ((s.takeClaim who role).tombstoneRoleCred role claimed).observedRolesOf
      other = s.observedRolesOf other := observedRolesOf_takeClaim who role other
  rw [observedRolesOf_deposit, observedRolesOf_dropObservedBadges, hkept]

theorem observedRolesOf_purgeAccountRoles (who : AccountId) :
    (s.purgeAccountRoles who).observedRolesOf account =
      if account = who then [] else s.observedRolesOf account := by
  unfold purgeAccountRoles
  rw [observedRolesOf_dropObservedBadges]
  simp only [List.foldl_cons, List.foldl_nil, observedRolesOf_takeClaim]

theorem doRevoke_tearsDown (h : s.doRevoke who = .ok t) :
    TearsDown s t who := by
  obtain ⟨released, -, hregister⟩ := doRevoke_register h
  refine ⟨?_, ?_, ?_⟩
  · intro other
    obtain ⟨identity, torn, -, htorn, rfl⟩ := doRevoke_ok h
    have hleft : observedRolesOf { torn with gate := torn.gate.leaveRotation who } other =
        torn.observedRolesOf other := rfl
    rw [observedRolesOf_deposit, onRevoke, observedRolesOf_purgeAccountRoles,
      (zeroCapacity_writes who).observedRolesOf, hleft, htorn]
    split_ifs with hsame
    · rfl
    · rw [observedRolesOf_forgetAccount_of_ne hsame, observedRolesOf_banStake]
      rfl
  · intro other hne
    refine (congrArg (fun r => r.binds.stakeCredOf.get other) hregister).trans ?_
    rw [Register.takeClaims_binds, Register.get_banStake, if_neg hne]
    rfl
  · intro other hne kind
    refine (congrArg (fun r => r.roleClaimOf.get (other, kind)) hregister).trans ?_
    rw [Register.get_takeClaims, if_neg hne, Register.banStake_roleClaimOf]
    rfl

/-! ## Observations -/

section

variable (hstakes : s.register.stakes.Sound) (hclaims : ∀ role, (s.register.claims role).Sound)
include hstakes hclaims

theorem resolveRole_credentialed {source : RoleSource} {cred : RoleCredential}
    (hresolve : s.resolveRole source cred = some account) : s.Credentialed account := by
  have hclaimed : ∀ role, s.roles.roleCredIndex.get (role, cred) = some account →
      s.Credentialed account := by
    intro role hindex
    have hheld : s.roles.roleClaimOf.get (account, role) = some cred :=
      (hclaims role account cred).mpr hindex
    exact Or.inr ⟨role, by simp [hheld]⟩
  cases source with
  | spoCalidus => exact hclaimed .spo hresolve
  | dRep => exact hclaimed .dRep hresolve
  | committee => exact hclaimed .committee hresolve
  | spoOwner =>
    have hheld : s.gate.stakeCredOf.get account = some cred :=
      (hstakes account cred).mpr hresolve
    exact Or.inl (by simp [hheld])

theorem roleDesired_credentialed (obs : CardanoObservation) (hfree : ¬ s.Credentialed account) :
    (s.roleDesired obs).get account = none := by
  rw [roleDesired_get, List.filter_eq_nil_iff.mpr, List.foldl_nil]
  intro entry _ hresolve
  exact hfree (resolveRole_credentialed hstakes hclaims (of_decide_eq_true hresolve))

theorem observeSnapshot_badgesStand (obs : CardanoObservation) :
    BadgesStand s (s.observeSnapshot cfg obs) account := by
  intro hbadges hfree
  have hregister : (s.observeSnapshot cfg obs).register = s.register :=
    observe_register _
  have hfree : ¬ s.Credentialed account := by
    rwa [credentialed_of_register hregister] at hfree
  refine ⟨hfree, ?_⟩
  have hmoved : SameAxes s (s.observeSnapshot cfg obs) ∨
      AppliesAxes cfg s (s.deriveCall cfg obs) (s.observeSnapshot cfg obs) :=
    observe_axes_cases _
  rcases hmoved with hsame | happlies
  · exact congrArg (fun l => RoleLedger.badgesOf l account) hsame.roles
  · have hnone := roleDesired_credentialed hstakes hclaims obs hfree
    have hclears : ∀ change ∈ (s.deriveCall cfg obs).roleChanges, change.who = account →
        change.roles = none := by
      rintro change hmem rfl
      rcases mem_roleDelta.mp (List.mem_of_mem_take hmem) with ⟨set, hget, -⟩ | ⟨hroles, -⟩
      · rw [hnone] at hget
        cases hget
      · exact hroles
    have hkept := RoleLedger.foldl_badgesOf_of_clears (l := s.roleLedger) hclears
    rw [← happlies.roles] at hkept
    exact hkept.resolve_left hbadges

end

/-! ## Runs -/

theorem doBind_badges {identity : IdentityHash} (h : s.doBind who identity = .ok t)
    (other : AccountId) :
    t.observedRolesOf other = s.observedRolesOf other := by
  obtain ⟨-, -, -, rfl⟩ := doBind_ok h
  rw [observedRolesOf_deposit, (onFirstBind_writes who).observedRolesOf]
  rfl

/-- What a call that neither observes nor unlinks does to the badges. -/
inductive BadgeMove (s t : Runtime) : Prop
  | keeps (hbadges : ∀ other, t.observedRolesOf other = s.observedRolesOf other)
      (hstakes : ∀ other, s.gate.stakeCredOf.contains other → t.gate.stakeCredOf.contains other)
      (hclaims : ∀ {key credential}, s.roles.roleClaimOf.get key = some credential →
        t.roles.roleClaimOf.get key = some credential)
  | tearsDown {who : AccountId} (htorn : TearsDown s t who)

abbrev BadgeMoves : Runtime → Runtime → Prop := Relation.ReflTransGen BadgeMove

theorem BadgeMove.of_same (hstakes : t.gate.stakeCredOf = s.gate.stakeCredOf)
    (hclaims : t.roles.roleClaimOf = s.roles.roleClaimOf)
    (hbadges : ∀ other, t.observedRolesOf other = s.observedRolesOf other) : BadgeMove s t :=
  .keeps hbadges (fun _ hheld => by rwa [hstakes]) (fun hheld => by rwa [hclaims])

theorem doClaim_badgeMove {credential : RoleCredential} {nonce : ℕ}
    (h : s.doClaim who role credential nonce = .ok t) : BadgeMove s t := by
  obtain ⟨-, -, hfree, -, -⟩ := doClaim_register h
  rw [doClaim_ok h]
  refine .keeps (fun _ => rfl) (fun _ hheld => hheld) (fun {key other} hheld => ?_)
  have hne : key ≠ (who, role) := by
    rintro rfl
    rw [hfree] at hheld
    cases hheld
  exact (get_insert_of_ne _ _ hne).trans hheld

theorem step_badgeMoves (hderived : op.derived) :
    (∃ obs, op = .inherent obs) ∨ (∃ who, s.unlinkStake who = .ok (s.step cfg op)) ∨
      BadgeMoves s (s.step cfg op) := by
  have hstep : LedgerStep cfg s op (s.step cfg op) := s.step_ledgerStep op
  generalize s.step cfg op = after at hstep ⊢
  have hone : BadgeMove s after → (∃ obs, op = .inherent obs) ∨
      (∃ who, s.unlinkStake who = .ok after) ∨ BadgeMoves s after :=
    fun hmove => Or.inr (Or.inr (.single hmove))
  cases hstep with
  | inherent obs hop => exact Or.inl ⟨obs, hop⟩
  | observe args hop =>
    rw [hop] at hderived
    cases hderived
  | unlinkStake hunlink => exact Or.inr (Or.inl ⟨_, hunlink⟩)
  | keeps hsame =>
    exact hone (.of_same (by rw [hsame.gate]) (by rw [hsame.roles])
      (fun _ => by simp only [observedRolesOf, hsame.roles]))
  | tick unixSecs =>
    have hregister : (s.nextBlock cfg unixSecs).register = s.register :=
      observerOnInitialize_writes.register
    exact hone (.of_same (congrArg (fun r => r.binds.stakeCredOf) hregister)
      (congrArg Register.roleClaimOf hregister) (fun other => congrArg
        (fun a => RoleLedger.badgesOf (Axes.roles a) other) observerOnInitialize_writes.axes))
  | bind hbind =>
    obtain ⟨-, -, -, hregister⟩ := doBind_register hbind
    exact hone (.of_same (congrArg (fun r => r.binds.stakeCredOf) hregister)
      (congrArg Register.roleClaimOf hregister) (doBind_badges hbind))
  | bindStake hbind =>
    obtain ⟨-, -, -, rfl⟩ := doBindStake_ok hbind
    exact hone (.keeps (fun _ => rfl) (fun _ hheld => contains_insert _ _ hheld) id)
  | revoke hrevoke => exact hone (.tearsDown (doRevoke_tearsDown hrevoke))
  | revokeMany targets =>
    refine Or.inr (Or.inr (revokeMany_invariant (BadgeMoves s) ?_ ?_ targets .refl))
    · exact fun t _ h => h.tail (.of_same rfl rfl (fun _ => rfl))
    · exact fun _ _ _ hok h => h.tail (.tearsDown (doRevoke_tearsDown hok))
  | claim hclaim => exact hone (doClaim_badgeMove hclaim)
  | unclaim hunclaim => exact hone (.tearsDown (unclaimRole_tearsDown hunclaim))
  | revokeRole hrevoke => exact hone (.tearsDown (doRevokeRole_tearsDown hrevoke))
  | revokeRoleMany targets =>
    refine Or.inr (Or.inr (revokeRoleMany_invariant (BadgeMoves s) ?_ ?_ targets .refl))
    · exact fun t _ h => h.tail (.of_same rfl rfl (fun _ => rfl))
    · exact fun _ _ _ _ hok h => h.tail (.tearsDown (doRevokeRole_tearsDown hok))
  | tombstoneStakeCred | setEnforcement => exact hone (.of_same rfl rfl (fun _ => rfl))

theorem BadgeMove.badgesStand (hmove : BadgeMove s t) : BadgesStand s t account := by
  cases hmove with
  | keeps hbadges hstakes hclaims =>
    refine .of_mono ?_ (hbadges account)
    rintro (hheld | ⟨role, hheld⟩)
    · exact Or.inl (hstakes account hheld)
    · obtain ⟨credential, hget⟩ := Option.isSome_iff_exists.mp hheld
      exact Or.inr ⟨role, by simp [hclaims hget]⟩
  | @tearsDown who htorn =>
    have hbadges := htorn.badges account
    by_cases hsame : account = who
    · rw [if_pos hsame] at hbadges
      exact .of_dropped hbadges
    · rw [if_neg hsame] at hbadges
      exact .of_mono (credentialed_of_get (htorn.stakes account hsame)
        (htorn.claims account hsame)) hbadges

theorem step_badgesStand (hstakes : s.register.stakes.Sound)
    (hclaims : ∀ role, (s.register.claims role).Sound) (hderived : op.derived) :
    BadgesStand s (s.step cfg op) account ∨
      (s.Unlinks cfg op account ∧
        (s.step cfg op).observedRolesOf account = s.observedRolesOf account) := by
  rcases step_badgeMoves hderived with ⟨obs, rfl⟩ | ⟨who, hunlink⟩ | hmoves
  · exact Or.inl (observeSnapshot_badgesStand hstakes hclaims obs)
  · have hkept := unlinkStake_badges hunlink account
    by_cases hsame : account = who
    · subst hsame
      exact Or.inr ⟨hunlink, hkept⟩
    · obtain ⟨stakeCred, -, hregister⟩ := unlinkStake_register hunlink
      refine Or.inl (.of_mono (credentialed_of_get ?_ ?_) hkept)
      · rw [hregister]
        exact get_remove_of_ne _ hsame
      · rw [hregister]
        exact fun _ => rfl
  · left
    exact reach_invariant (fun after => BadgesStand s after account)
      (fun _ _ hmove hbefore => hbefore.trans hmove.badgesStand) hmoves (.of_mono id rfl)

/-- An observation that covers an account clears the badges it has no
credential for. -/
theorem observeSnapshot_clears (hstakes : s.register.stakes.Sound)
    (hclaims : ∀ role, (s.register.claims role).Sound) (hsound : s.roleLedger.Sound)
    {obs : CardanoObservation} (hroom : 0 < cfg.maxRolesPerAccount)
    (henforce : s.observer.enforceWeight = true) (haccepts : s.accepts cfg obs.reference)
    (hpage : (s.roleDelta cfg obs).length ≤ cfg.maxChangesPerBlock)
    (hcovered : s.gate.coverage s.observer.scanCursor cfg.maxScanned account ≠ .deferred)
    (hfree : ¬ s.Credentialed account) :
    (s.observeSnapshot cfg obs).observedRolesOf account = [] := by
  have hsoundAfter : (s.observeSnapshot cfg obs).roleLedger.Sound := by
    have hmoves : AxesMoves cfg s.axes (s.observeSnapshot cfg obs).axes :=
      observeSnapshot_axes obs
    exact reach_invariant (fun a : Axes => a.roles.Sound)
      (fun _ _ hmove hinv => hinv.move hmove) hmoves hsound
  have hnone := roleDesired_credentialed hstakes hclaims obs hfree
  apply hsoundAfter.unbacked
  cases hrow : s.observer.lastObservedRoles.get account with
  | some row =>
    -- the row is in the delta as a clear, and the page carries it
    have hdue : RoleChange.mk account none ∈ (s.deriveCall cfg obs).roleChanges := by
      have hmem : RoleChange.mk account none ∈ s.roleDelta cfg obs := by
        apply mem_roleDelta.mpr
        exact Or.inr ⟨rfl, hnone, by simp [hrow], by simpa [clearedByAbsence] using hcovered⟩
      rwa [← List.take_of_length_le hpage] at hmem
    exact (carriesPage hroom henforce haccepts).rolesApplied _ hdue
  | none =>
    have happlies : AppliesAxes cfg s (s.deriveCall cfg obs) (s.observeSnapshot cfg obs) :=
      observe_axes haccepts henforce
    rw [happlies.roles, RoleLedger.foldl_applyChange_get_of_notMem]
    · exact hrow
    · intro hmem
      obtain ⟨change, hchange, hwho⟩ := List.mem_map.mp hmem
      rcases mem_roleDelta.mp (List.mem_of_mem_take hchange) with ⟨set, hget, -⟩ |
        ⟨-, -, hsome, -⟩
      · rw [hwho, hnone] at hget
        cases hget
      · rw [hwho, hrow] at hsome
        cases hsome

/-- The history of badges that stand without a credential: they are those the
account held when it unlinked its stake. -/
def UnlinkedWith (cfg : Config) (start : Runtime) (ops : List Op) (account : AccountId) : Prop :=
  ∃ before op after, ops = before ++ op :: after ∧
    (start.run cfg before).Unlinks cfg op account ∧
    ∀ later, later <+: after →
      ¬ (start.run cfg (before ++ op :: later)).Credentialed account ∧
      (start.run cfg (before ++ op :: later)).observedRolesOf account =
        (start.run cfg before).observedRolesOf account

theorem UnlinkedWith.extend {start : Runtime} {ops : List Op}
    (hunlinked : UnlinkedWith cfg start ops account)
    (hfree : ¬ (start.run cfg (ops ++ [op])).Credentialed account)
    (hbadges : (start.run cfg (ops ++ [op])).observedRolesOf account = (start.run cfg ops).observedRolesOf account) :
    UnlinkedWith cfg start (ops ++ [op]) account := by
  obtain ⟨before, unlink, after, rfl, hunlinks, hlater⟩ := hunlinked
  refine ⟨before, unlink, after ++ [op], by simp, hunlinks, ?_⟩
  intro later hprefix
  rcases List.prefix_concat_iff.mp hprefix with rfl | hprefix
  · have hsplit : before ++ unlink :: (after ++ [op]) = before ++ unlink :: after ++ [op] := by
      simp
    rw [hsplit]
    exact ⟨hfree, hbadges.trans (hlater after (List.prefix_refl after)).2⟩
  · exact hlater later hprefix

theorem run_badges (ops : List Op) (hderived : ∀ op ∈ ops, op.derived)
    (hbadges : (genesis.run cfg ops).observedRolesOf account ≠ []) :
    (genesis.run cfg ops).Credentialed account ∨ UnlinkedWith cfg genesis ops account := by
  induction ops using List.reverseRecOn with
  | nil => exact absurd rfl hbadges
  | append_singleton ops op ih =>
    have hops : ∀ earlier ∈ ops, earlier.derived :=
      fun earlier hmem => hderived earlier (List.mem_append_left _ hmem)
    have hop : op.derived := hderived op (by simp)
    have hrun : genesis.run cfg (ops ++ [op]) = (genesis.run cfg ops).step cfg op :=
      run_concat _ _ _
    by_cases hheld : (genesis.run cfg (ops ++ [op])).Credentialed account
    · exact Or.inl hheld
    · right
      have hstep : BadgesStand (genesis.run cfg ops) ((genesis.run cfg ops).step cfg op)
            account ∨ (genesis.run cfg ops).Unlinks cfg op account ∧
          ((genesis.run cfg ops).step cfg op).observedRolesOf account =
            (genesis.run cfg ops).observedRolesOf account :=
        step_badgesStand (run_stakes_sound ops) (run_claims_sound ops) hop
      rw [← hrun] at hstep
      rcases hstep with hstand | ⟨hunlinks, hkept⟩
      · obtain ⟨hfree, hkept⟩ := hstand hbadges hheld
        have hunlinked := (ih hops (hkept ▸ hbadges)).resolve_left hfree
        exact hunlinked.extend hheld hkept
      · refine ⟨ops, op, [], rfl, hunlinks, ?_⟩
        intro later hprefix
        rw [List.prefix_nil.mp hprefix]
        exact ⟨hheld, hkept⟩

end Runtime

/-- Badges rest on a stake bind or a role claim, except those an account held
when it unlinked its stake: they stand as they are until it holds a credential
again.  Any other release of the last credential drops them, the first
observation that covers the account in one page clears them, and an account
without badges adds nothing to a chamber. -/
theorem badges_backed_or_unlinked (cfg : Config) (ops : List Op) (account : AccountId)
    (hderived : ∀ op ∈ ops, op.derived) :
    ((genesis.run cfg ops).observedRolesOf account ≠ [] →
      (genesis.run cfg ops).Credentialed account ∨
        UnlinkedWith cfg .genesis ops account) ∧
    (∀ op, op.derived → (genesis.run cfg ops).Credentialed account →
      ¬ ((genesis.run cfg ops).step cfg op).Credentialed account →
      ¬ (genesis.run cfg ops).Unlinks cfg op account →
      ((genesis.run cfg ops).step cfg op).observedRolesOf account = []) ∧
    (∀ obs, 0 < cfg.maxRolesPerAccount →
      (genesis.run cfg ops).observer.enforceWeight = true →
      (genesis.run cfg ops).accepts cfg obs.reference →
      ((genesis.run cfg ops).roleDelta cfg obs).length ≤ cfg.maxChangesPerBlock →
      (genesis.run cfg ops).gate.coverage
        (genesis.run cfg ops).observer.scanCursor cfg.maxScanned account ≠ .deferred →
      ¬ (genesis.run cfg ops).Credentialed account →
      ((genesis.run cfg ops).observeSnapshot cfg obs).observedRolesOf account = []) ∧
    ((genesis.run cfg ops).observedRolesOf account = [] → ∀ host poll totals,
      ((genesis.run cfg ops).walkVoter host poll totals account).scratch =
        totals.scratch) := by
  have hstakes : (genesis.run cfg ops).register.stakes.Sound :=
    run_stakes_sound ops
  have hclaims : ∀ role, ((genesis.run cfg ops).register.claims role).Sound :=
    run_claims_sound ops
  refine ⟨run_badges ops hderived, ?_, ?_, ?_⟩
  · intro op hop hheld hreleased hother
    rcases step_badgesStand hstakes hclaims hop with hstand | ⟨hunlinks, -⟩
    · by_contra hbadges
      exact (hstand hbadges hreleased).1 hheld
    · exact absurd hunlinks hother
  · intro obs hroom henforce haccepts hpage hcovered hfree
    have hsound : (genesis.run cfg ops).roleLedger.Sound := by
      apply reach_invariant (fun a : Axes => a.roles.Sound)
        (fun _ _ hmove hinv => hinv.move hmove) (run_axes hderived)
      exact ⟨nofun, fun _ => rfl⟩
    exact observeSnapshot_clears hstakes hclaims hsound hroom henforce haccepts hpage
      hcovered hfree
  · intro hnone host poll totals
    have hroles : (genesis.run cfg ops).rolesOf account = [] := by
      rw [rolesOf, hnone, List.map_nil]
    unfold walkVoter
    split
    · rfl
    · split_ifs
      · rfl
      · rw [hroles, List.foldl_nil]
      · rfl

def unlinkOps : List Op := relinkOps.take 5

theorem badges_backed_or_unlinked_owner :
    UnlinkedWith Config.toy .genesis unlinkOps ⟨1⟩ ∧
      ((genesis.run Config.toy unlinkOps).observeSnapshot Config.toy
        ⟨⟨20, 0⟩, 0, [], [], []⟩).observedRolesOf ⟨1⟩ = [] := by
  obtain ⟨hbacked, -, hclears, -⟩ :=
    badges_backed_or_unlinked Config.toy unlinkOps ⟨1⟩ (by decide)
  have hfree : ¬ (genesis.run Config.toy unlinkOps).Credentialed ⟨1⟩ := by
    rintro (hheld | ⟨role, hheld⟩)
    · revert hheld
      decide +kernel
    · revert hheld
      cases role <;> decide +kernel
  refine ⟨(hbacked (by decide +kernel)).resolve_left hfree, ?_⟩
  exact hclears _ (by decide) (by decide +kernel) (by decide +kernel) (by decide +kernel)
    (by decide +kernel) hfree

/-- The owner's badge and the pool's weight outlive the stake bind they came
from. -/
theorem badge_outlives_unlink :
    (∀ op ∈ unlinkOps, op.derived) ∧
      (genesis.run Config.toy unlinkOps).observer.enforceWeight = true ∧
      (genesis.run Config.toy unlinkOps).observedRolesOf ⟨1⟩ = [⟨.spo, ⟨3⟩, 50⟩] ∧
      (genesis.run Config.toy unlinkOps).gate.stakeCredOf.contains ⟨1⟩ = false ∧
      ∀ role, (genesis.run Config.toy unlinkOps).roles.roleClaimOf.contains
        (⟨1⟩, role) = false := by
  refine ⟨by decide, by decide +kernel, by decide +kernel, by decide +kernel, ?_⟩
  intro role
  cases role <;> decide +kernel

end CognoChain
