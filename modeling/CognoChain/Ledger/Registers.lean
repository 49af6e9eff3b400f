import CognoChain.Ledger.Step

/-!
# Who holds which credential

The gate and the roles pallet keep five 1:1 registers: identities, stake
credentials, and one of role credentials per role.  Each transaction is a
short sequence of register moves, and the teardown of an identity takes the
other four registers with it.
-/

namespace CognoChain

open Substrate StorageMap Registry

structure Register where
  binds : Binds
  roleClaimOf : StorageMap (AccountId × RoleKind) RoleCredential
  roleCredIndex : StorageMap (RoleKind × RoleCredential) AccountId
  tombstonedRoleCred : StorageMap (RoleKind × RoleCredential) Unit

namespace Register

def releaseIdentity (r : Register) (account : AccountId) (identity : IdentityHash) : Register :=
  { r with binds := { r.binds with
      pkhOf := r.binds.pkhOf.remove account
      accountOf := r.binds.accountOf.remove identity
      tombstoned := r.binds.tombstoned.insert identity () } }

def releaseStake (r : Register) (account : AccountId) (stakeCred : StakeCredential) : Register :=
  { r with binds := { r.binds with
      stakeCredOf := r.binds.stakeCredOf.remove account
      accountOfStakeCred := r.binds.accountOfStakeCred.remove stakeCred } }

def tombstoneStakeCred (r : Register) (stakeCred : StakeCredential) : Register :=
  { r with binds := { r.binds with
      tombstonedStakeCred := r.binds.tombstonedStakeCred.insert stakeCred () } }

def banStake (r : Register) (account : AccountId) : Register :=
  match r.binds.stakeCredOf.get account with
  | none => r
  | some stakeCred => (r.releaseStake account stakeCred).tombstoneStakeCred stakeCred

def releaseClaim (r : Register) (account : AccountId) (role : RoleKind)
    (credential : RoleCredential) : Register :=
  { r with
    roleClaimOf := r.roleClaimOf.remove (account, role)
    roleCredIndex := r.roleCredIndex.remove (role, credential) }

def tombstoneRoleCred (r : Register) (role : RoleKind) (credential : RoleCredential) :
    Register :=
  { r with tombstonedRoleCred := r.tombstonedRoleCred.insert (role, credential) () }

def takeClaim (r : Register) (account : AccountId) (role : RoleKind) : Register :=
  match r.roleClaimOf.get (account, role) with
  | none => r
  | some credential => r.releaseClaim account role credential

def takeClaims (r : Register) (account : AccountId) : Register :=
  ((r.takeClaim account .spo).takeClaim account .dRep).takeClaim account .committee

/-! ## The five registers -/

def identities (r : Register) : Registry AccountId IdentityHash where
  held := r.binds.pkhOf.get
  holder := r.binds.accountOf.get
  banned identity := (r.binds.tombstoned.get identity).isSome

def stakes (r : Register) : Registry AccountId StakeCredential where
  held := r.binds.stakeCredOf.get
  holder := r.binds.accountOfStakeCred.get
  banned stakeCred := (r.binds.tombstonedStakeCred.get stakeCred).isSome

def claims (r : Register) (role : RoleKind) : Registry AccountId RoleCredential where
  held account := r.roleClaimOf.get (account, role)
  holder credential := r.roleCredIndex.get (role, credential)
  banned credential := (r.tombstonedRoleCred.get (role, credential)).isSome

/-- Only a bound account holds a stake credential or a role. -/
def Backed (r : Register) : Prop :=
  ∀ account, r.binds.pkhOf.get account = none →
    r.binds.stakeCredOf.get account = none ∧ ∀ role, r.roleClaimOf.get (account, role) = none

end Register

/-- An identity is only given up for good. -/
def identityVerbs : Verbs := ⟨False, False⟩

/-- A stake credential can be released, and banned whoever holds it. -/
def stakeVerbs : Verbs := ⟨True, True⟩

/-- A role credential can be released, and is banned only with its claim. -/
def claimVerbs : Verbs := ⟨True, False⟩

inductive RegisterMove (r : Register) : Register → Prop
  | bind (account : AccountId) (identity : IdentityHash)
      (htombstoned : r.binds.tombstoned.get identity = none)
      (haccount : r.binds.pkhOf.get account = none)
      (hidentity : r.binds.accountOf.get identity = none) :
      RegisterMove r { r with binds := { r.binds with
        pkhOf := r.binds.pkhOf.insert account identity
        accountOf := r.binds.accountOf.insert identity account } }
  | bindStake (account : AccountId) (stakeCred : StakeCredential)
      (hbound : r.binds.pkhOf.get account ≠ none)
      (htombstoned : r.binds.tombstonedStakeCred.get stakeCred = none)
      (haccount : r.binds.stakeCredOf.get account = none)
      (hstakeCred : r.binds.accountOfStakeCred.get stakeCred = none) :
      RegisterMove r { r with binds := { r.binds with
        stakeCredOf := r.binds.stakeCredOf.insert account stakeCred
        accountOfStakeCred := r.binds.accountOfStakeCred.insert stakeCred account } }
  | claim (account : AccountId) (role : RoleKind) (credential : RoleCredential)
      (hbound : r.binds.pkhOf.get account ≠ none)
      (htombstoned : r.tombstonedRoleCred.get (role, credential) = none)
      (haccount : r.roleClaimOf.get (account, role) = none)
      (hcredential : r.roleCredIndex.get (role, credential) = none) :
      RegisterMove r { r with
        roleClaimOf := r.roleClaimOf.insert (account, role) credential
        roleCredIndex := r.roleCredIndex.insert (role, credential) account }
  | unlinkStake (account : AccountId) (stakeCred : StakeCredential)
      (hheld : r.binds.stakeCredOf.get account = some stakeCred) :
      RegisterMove r (r.releaseStake account stakeCred)
  | tombstoneStake (stakeCred : StakeCredential) :
      RegisterMove r (r.tombstoneStakeCred stakeCred)
  | unclaim (account : AccountId) (role : RoleKind) (credential : RoleCredential)
      (hheld : r.roleClaimOf.get (account, role) = some credential) :
      RegisterMove r (r.releaseClaim account role credential)
  | revokeRole (account : AccountId) (role : RoleKind) (credential : RoleCredential)
      (hheld : r.roleClaimOf.get (account, role) = some credential) :
      RegisterMove r ((r.releaseClaim account role credential).tombstoneRoleCred role credential)
  | revoke (account : AccountId) (identity : IdentityHash)
      (hheld : r.binds.pkhOf.get account = some identity) :
      RegisterMove r (((r.releaseIdentity account identity).banStake account).takeClaims account)

abbrev RegisterMoves : Register → Register → Prop := Relation.ReflTransGen RegisterMove

/-! ## What a teardown leaves alone -/

namespace Register

variable {r : Register} {account : AccountId} {role : RoleKind} {credential : RoleCredential}
  {r' : Register}

@[simp] theorem takeClaim_binds : (r.takeClaim account role).binds = r.binds := by
  unfold takeClaim
  split <;> rfl

@[simp] theorem takeClaims_binds : (r.takeClaims account).binds = r.binds := by
  simp [takeClaims]

theorem identities_of_binds (h : r'.binds = r.binds) :
    r'.identities = r.identities := by
  simp only [identities, h]

theorem stakes_of_binds (h : r'.binds = r.binds) : r'.stakes = r.stakes := by
  simp only [stakes, h]

theorem banStake_identities : (r.banStake account).identities = r.identities := by
  unfold banStake
  split <;> rfl

theorem banStake_pkhOf : (r.banStake account).binds.pkhOf = r.binds.pkhOf := by
  unfold banStake
  split <;> rfl

theorem banStake_roleClaimOf : (r.banStake account).roleClaimOf = r.roleClaimOf := by
  unfold banStake
  split <;> rfl

theorem banStake_claims : (r.banStake account).claims role = r.claims role := by
  unfold banStake
  split <;> rfl

theorem get_banStake (other : AccountId) :
    (r.banStake account).binds.stakeCredOf.get other =
      if other = account then none else r.binds.stakeCredOf.get other := by
  unfold banStake
  split
  next hnone =>
    split_ifs with hsame
    · rw [hsame, hnone]
    · rfl
  next => exact get_remove _ _ _

theorem get_takeClaim (other : AccountId) (kind : RoleKind) :
    (r.takeClaim account role).roleClaimOf.get (other, kind) =
      if (other, kind) = (account, role) then none else r.roleClaimOf.get (other, kind) := by
  unfold takeClaim
  split
  next hnone =>
    split_ifs with hsame
    · rw [hsame, hnone]
    · rfl
  next => exact get_remove _ _ _

theorem get_takeClaims (other : AccountId) (kind : RoleKind) :
    (r.takeClaims account).roleClaimOf.get (other, kind) =
      if other = account then none else r.roleClaimOf.get (other, kind) := by
  simp only [takeClaims, get_takeClaim, Prod.mk.injEq]
  by_cases hsame : other = account
  · cases kind <;> simp [hsame]
  · simp [hsame]

/-! ## The moves of each register -/

theorem banned_insert {K : Type} [StorageKey K] [DecidableEq K] (tombstones : StorageMap K Unit)
    (k : K) : (fun other => (((tombstones.insert k ()).get other).isSome : Prop)) =
      fun other => other = k ∨ ((tombstones.get other).isSome : Prop) := by
  funext other
  by_cases hsame : other = k <;> simp [get_insert, hsame]

theorem releaseIdentity_steps {identity : IdentityHash}
    (hheld : r.binds.pkhOf.get account = some identity) :
    Step identityVerbs r.identities (r.releaseIdentity account identity).identities := by
  refine .revoke account identity hheld ?_
  simp only [identities, releaseIdentity, get_remove_eq_update]
  rw [banned_insert]

theorem releaseStake_steps {stakeCred : StakeCredential}
    (hheld : r.binds.stakeCredOf.get account = some stakeCred) :
    Step stakeVerbs r.stakes (r.releaseStake account stakeCred).stakes := by
  refine .release trivial account stakeCred hheld ?_
  simp only [stakes, releaseStake, get_remove_eq_update]

theorem tombstoneStakeCred_steps (stakeCred : StakeCredential) :
    Step stakeVerbs r.stakes (r.tombstoneStakeCred stakeCred).stakes := by
  refine .ban trivial stakeCred ?_
  simp only [stakes, tombstoneStakeCred]
  rw [banned_insert]

theorem banStake_steps :
    Steps stakeVerbs r.stakes (r.banStake account).stakes := by
  unfold banStake
  split
  · exact .refl
  next stakeCred hheld =>
    exact .tail (.single (releaseStake_steps hheld)) (tombstoneStakeCred_steps stakeCred)

theorem releaseClaim_claims_of_ne (r : Register) (account : AccountId)
    (credential : RoleCredential) {kind : RoleKind} (hne : kind ≠ role) :
    (r.releaseClaim account role credential).claims kind = r.claims kind := by
  simp [claims, releaseClaim, get_remove, hne]

theorem releaseClaim_claims (r : Register) (account : AccountId) (role : RoleKind)
    (credential : RoleCredential) :
    (r.releaseClaim account role credential).claims role =
      ⟨Function.update (r.claims role).held account none,
        Function.update (r.claims role).holder credential none, (r.claims role).banned⟩ := by
  simp only [claims, releaseClaim, get_remove, Prod.mk.injEq, and_true, true_and,
    Registry.mk.injEq]
  constructor
  · funext other
    simp only [Function.update_apply]
  · funext other
    simp only [Function.update_apply]

theorem releaseClaim_steps (hheld : r.roleClaimOf.get (account, role) = some credential)
    (kind : RoleKind) :
    Steps claimVerbs (r.claims kind)
      ((r.releaseClaim account role credential).claims kind) := by
  by_cases hsame : kind = role
  · subst hsame
    exact .single (.release trivial account credential hheld
      (releaseClaim_claims r account kind credential))
  · rw [releaseClaim_claims_of_ne r account credential hsame]

theorem revokeRole_steps (hheld : r.roleClaimOf.get (account, role) = some credential)
    (kind : RoleKind) :
    Steps claimVerbs (r.claims kind)
      (((r.releaseClaim account role credential).tombstoneRoleCred role credential).claims
        kind) := by
  by_cases hsame : kind = role
  · subst hsame
    refine .single (.revoke account credential hheld ?_)
    have hbanned : (fun other => (((r.tombstonedRoleCred.insert (kind, credential) ()).get
        (kind, other)).isSome : Prop)) =
          fun other => other = credential ∨ (r.claims kind).banned other := by
      funext other
      by_cases hother : other = credential <;> simp [claims, get_insert, hother]
    have hreleased := releaseClaim_claims r account kind credential
    simp only [claims, Registry.mk.injEq] at hreleased
    simp only [claims, tombstoneRoleCred, Registry.mk.injEq]
    exact ⟨hreleased.1, hreleased.2.1, hbanned⟩
  · have hother : ((r.releaseClaim account role credential).tombstoneRoleCred role
        credential).claims kind = (r.releaseClaim account role credential).claims kind := by
      simp [claims, tombstoneRoleCred, get_insert, hsame]
    rw [hother, releaseClaim_claims_of_ne r account credential hsame]

theorem takeClaim_steps (kind : RoleKind) :
    Steps claimVerbs (r.claims kind) ((r.takeClaim account role).claims kind) := by
  unfold takeClaim
  split
  · exact .refl
  next credential hheld => exact releaseClaim_steps hheld kind

end Register

namespace RegisterMove

variable {r r' : Register}

theorem identities (hmove : RegisterMove r r') :
    Steps identityVerbs r.identities r'.identities := by
  cases hmove with
  | bind account identity htombstoned haccount hidentity =>
    refine .single (.bind account identity haccount hidentity ?_ ?_)
    · simp [Register.identities, htombstoned]
    · simp only [Register.identities, get_insert_eq_update]
  | revoke account identity hheld =>
    rw [Register.identities_of_binds Register.takeClaims_binds, Register.banStake_identities]
    exact .single (Register.releaseIdentity_steps hheld)
  | _ => exact .refl

theorem stakes (hmove : RegisterMove r r') : Steps stakeVerbs r.stakes r'.stakes := by
  cases hmove with
  | bindStake account stakeCred hbound htombstoned haccount hstakeCred =>
    refine .single (.bind account stakeCred haccount hstakeCred ?_ ?_)
    · simp [Register.stakes, htombstoned]
    · simp only [Register.stakes, get_insert_eq_update]
  | unlinkStake account stakeCred hheld => exact .single (Register.releaseStake_steps hheld)
  | tombstoneStake stakeCred => exact .single (Register.tombstoneStakeCred_steps stakeCred)
  | revoke account identity hheld =>
    have hkept : (r.releaseIdentity account identity).stakes = r.stakes := rfl
    rw [Register.stakes_of_binds Register.takeClaims_binds, ← hkept]
    exact Register.banStake_steps
  | _ => exact .refl

theorem claims (hmove : RegisterMove r r') (role : RoleKind) :
    Steps claimVerbs (r.claims role) (r'.claims role) := by
  cases hmove with
  | claim account kind credential hbound htombstoned haccount hcredential =>
    by_cases hsame : role = kind
    · subst hsame
      refine .single (.bind account credential haccount hcredential ?_ ?_)
      · simp [Register.claims, htombstoned]
      · simp only [Register.claims, get_insert, Prod.mk.injEq, and_true, true_and,
          Registry.mk.injEq]
        constructor
        · funext other
          simp only [Function.update_apply]
        · funext other
          simp only [Function.update_apply]
    · have hother : Register.claims { r with
          roleClaimOf := r.roleClaimOf.insert (account, kind) credential
          roleCredIndex := r.roleCredIndex.insert (kind, credential) account } role =
            r.claims role := by
        simp [Register.claims, get_insert, hsame]
      rw [hother]
  | unclaim account kind credential hheld => exact Register.releaseClaim_steps hheld role
  | revokeRole account kind credential hheld => exact Register.revokeRole_steps hheld role
  | revoke account identity hheld =>
    have hkept : (((r.releaseIdentity account identity).banStake account).claims role) =
        r.claims role := Register.banStake_claims
    rw [← hkept]
    exact ((Register.takeClaim_steps role).trans (Register.takeClaim_steps role)).trans
      (Register.takeClaim_steps role)
  | _ => exact .refl

theorem backed (hmove : RegisterMove r r') (hbacked : r.Backed) : r'.Backed := by
  cases hmove with
  | bind account identity htombstoned haccount hidentity =>
    intro other hother
    apply hbacked other
    simp only [get_insert] at hother
    split_ifs at hother
    exact hother
  | bindStake account stakeCred hbound htombstoned haccount hstakeCred =>
    intro other hother
    have hne : other ≠ account := fun hsame => hbound (hsame ▸ hother)
    simp only [get_insert_of_ne _ _ hne]
    exact hbacked other hother
  | claim account role credential hbound htombstoned haccount hcredential =>
    intro other hother
    have hne : other ≠ account := fun hsame => hbound (hsame ▸ hother)
    refine ⟨(hbacked other hother).1, fun kind => ?_⟩
    simp only [get_insert, Prod.mk.injEq, hne, false_and, if_false]
    exact (hbacked other hother).2 kind
  | unlinkStake account stakeCred hheld =>
    intro other hother
    refine ⟨?_, (hbacked other hother).2⟩
    simp only [Register.releaseStake, get_remove, (hbacked other hother).1, ite_self]
  | tombstoneStake stakeCred => exact hbacked
  | unclaim account role credential hheld =>
    intro other hother
    refine ⟨(hbacked other hother).1, fun kind => ?_⟩
    simp only [Register.releaseClaim, get_remove, (hbacked other hother).2, ite_self]
  | revokeRole account role credential hheld =>
    intro other hother
    refine ⟨(hbacked other hother).1, fun kind => ?_⟩
    simp only [Register.tombstoneRoleCred, Register.releaseClaim, get_remove,
      (hbacked other hother).2, ite_self]
  | revoke account identity hheld =>
    intro other hother
    rw [Register.takeClaims_binds, Register.banStake_pkhOf] at hother
    rw [Register.takeClaims_binds, Register.get_banStake]
    by_cases hsame : other = account
    · simp [hsame, Register.get_takeClaims]
    · simp only [Register.releaseIdentity, get_remove_of_ne _ hsame] at hother
      simp only [hsame, if_false, Register.get_takeClaims, Register.banStake_roleClaimOf]
      exact hbacked other hother

end RegisterMove

/-! ## The moves of each transaction -/

namespace Runtime

variable {cfg : Config} {s s' : Runtime} {account who : AccountId} {role : RoleKind} {nonce : ℕ}
  {credential : RoleCredential}

def register (s : Runtime) : Register :=
  ⟨s.gate.binds, s.roles.roleClaimOf, s.roles.roleCredIndex, s.roles.tombstonedRoleCred⟩

theorem SameLedger.register (h : SameLedger s s') : s'.register = s.register := by
  simp only [Runtime.register, h.gate, h.roles]

theorem WritesCapacity.register (h : s.WritesCapacity s') : s'.register = s.register := by
  obtain ⟨capacity, events, rfl⟩ := h
  rfl

theorem WritesVault.register (h : s.WritesVault s') : s'.register = s.register := by
  obtain ⟨weights, capacity, basis, events, rfl⟩ := h
  rfl

theorem WritesPower.register (h : s.WritesPower s') : s'.register = s.register := by
  obtain ⟨power, seq, basis, events, rfl⟩ := h
  rfl

theorem WritesBadges.register (h : s.WritesBadges s') : s'.register = s.register := by
  obtain ⟨badges, seq, basis, events, rfl⟩ := h
  rfl

theorem WritesFrontier.register (h : s.WritesFrontier s') : s'.register = s.register := by
  obtain ⟨reference, enforce, pending, appliedAt, stalled, cursor, sweepAt, events, rfl⟩ := h
  rfl

theorem observe_register (args : ObserveArgs) : (s.observe cfg args).register = s.register := by
  apply observe_invariant (fun after => after.register = s.register) args
  · apply applyChanges_invariant (fun after => after.register = s.register) args
    · intro acc change hacc
      exact (applyVaultChange_writes _ acc change).register.trans hacc
    · intro acc change hacc
      exact (applyStakeChange_writes _ acc change).register.trans hacc
    · intro acc change hacc
      exact (applyRoleChange_writes _ acc change).register.trans hacc
    · rfl
  · intro before after hwrites hbefore
    exact hwrites.register.trans hbefore
  · rfl

theorem takeClaim_register (who : AccountId) (role : RoleKind) :
    (s.takeClaim who role).register = s.register.takeClaim who role := by
  have hclaims : s.register.roleClaimOf = s.roles.roleClaimOf := rfl
  unfold takeClaim Register.takeClaim
  rw [hclaims]
  cases s.roles.roleClaimOf.get (who, role) with
  | none => rfl
  | some credential => rfl

theorem purgeAccountRoles_register (who : AccountId) :
    (s.purgeAccountRoles who).register = s.register.takeClaims who := by
  unfold purgeAccountRoles Register.takeClaims
  rw [(dropObservedBadges_writes who).register]
  simp only [List.foldl_cons, List.foldl_nil, takeClaim_register]

theorem banStake_register (account : AccountId) :
    (s.banStake account).register = s.register.banStake account := by
  have hbinds : s.register.binds.stakeCredOf = s.gate.stakeCredOf := rfl
  unfold banStake Register.banStake
  rw [hbinds]
  cases s.gate.stakeCredOf.get account with
  | none => rfl
  | some stakeCred =>
    dsimp only
    rw [(forgetStake_writes account stakeCred).register]
    rfl

theorem doBind_register {identity : IdentityHash} (h : s.doBind account identity = .ok s') :
    s.gate.tombstoned.get identity = none ∧ s.gate.pkhOf.get account = none ∧
      s.gate.accountOf.get identity = none ∧
      s'.register = { s.register with binds := { s.register.binds with
        pkhOf := s.gate.pkhOf.insert account identity
        accountOf := s.gate.accountOf.insert identity account } } := by
  obtain ⟨htombstoned, haccount, hidentity, rfl⟩ := doBind_ok h
  have hjoined : ∀ g : GateStore,
      register { s with gate := g.joinRotation account } = { s.register with binds := g.binds } :=
    fun g => congrArg (fun binds => { s.register with binds := binds })
      (joinRotation_binds g account)
  have hevent : ∀ (t : Runtime) (event : Event), (t.deposit event).register = t.register :=
    fun _ _ => rfl
  refine ⟨contains_eq_false_iff.mp htombstoned,
    contains_eq_false_iff.mp haccount,
    contains_eq_false_iff.mp hidentity, ?_⟩
  rw [hevent, (onFirstBind_writes account).register, hjoined]
  rfl

theorem doBindStake_register {stakeCred : StakeCredential}
    (h : s.doBindStake account stakeCred nonce = .ok s') :
    s.gate.pkhOf.get account ≠ none ∧ s.gate.tombstonedStakeCred.get stakeCred = none ∧
      s.gate.stakeCredOf.get account = none ∧
      s.gate.accountOfStakeCred.get stakeCred = none ∧
      s'.register = { s.register with binds := { s.register.binds with
        stakeCredOf := s.gate.stakeCredOf.insert account stakeCred
        accountOfStakeCred := s.gate.accountOfStakeCred.insert stakeCred account } } := by
  have hbound : s.gate.pkhOf.get account ≠ none := by
    unfold doBindStake at h
    split_ifs at h with hunbound
    simpa [Option.isSome_iff_ne_none] using hunbound
  obtain ⟨htombstoned, haccount, hstakeCred, rfl⟩ := doBindStake_ok h
  exact ⟨hbound, contains_eq_false_iff.mp htombstoned,
    contains_eq_false_iff.mp haccount,
    contains_eq_false_iff.mp hstakeCred, rfl⟩

theorem doClaim_register (h : s.doClaim account role credential nonce = .ok s') :
    s.gate.pkhOf.get account ≠ none ∧
      s.roles.tombstonedRoleCred.get (role, credential) = none ∧
      s.roles.roleClaimOf.get (account, role) = none ∧
      s.roles.roleCredIndex.get (role, credential) = none ∧
      s'.register = { s.register with
        roleClaimOf := s.roles.roleClaimOf.insert (account, role) credential
        roleCredIndex := s.roles.roleCredIndex.insert (role, credential) account } := by
  unfold doClaim at h
  split_ifs at h with hunbound htombstoned haccount hcredential
  rw [Bool.not_eq_true] at htombstoned haccount hcredential
  have hbound : s.gate.pkhOf.get account ≠ none := by
    simpa [isAllowed, Option.isSome_iff_ne_none] using hunbound
  rw [← Except.ok.inj h]
  exact ⟨hbound, contains_eq_false_iff.mp htombstoned,
    contains_eq_false_iff.mp haccount,
    contains_eq_false_iff.mp hcredential, rfl⟩

theorem unlinkStake_register (h : s.unlinkStake who = .ok s') :
    ∃ stakeCred, s.gate.stakeCredOf.get who = some stakeCred ∧
      s'.register = s.register.releaseStake who stakeCred := by
  obtain ⟨stakeCred, hheld, rfl⟩ := unlinkStake_ok h
  exact ⟨stakeCred, hheld, (forgetStake_writes who stakeCred).register⟩

theorem takeClaim_register_of_held (hheld : s.roles.roleClaimOf.get (who, role) = some credential) :
    (s.takeClaim who role).register = s.register.releaseClaim who role credential := by
  unfold takeClaim
  rw [hheld]
  rfl

theorem unclaimRole_register (h : s.unclaimRole who role = .ok s') :
    ∃ credential, s.roles.roleClaimOf.get (who, role) = some credential ∧
      s'.register = s.register.releaseClaim who role credential := by
  unfold unclaimRole at h
  split_ifs at h with hclaimed
  obtain ⟨credential, hheld⟩ : ∃ credential,
      s.roles.roleClaimOf.get (who, role) = some credential := by
    simpa [Option.isSome_iff_exists] using hclaimed
  refine ⟨credential, hheld, ?_⟩
  rw [← Except.ok.inj h, ← takeClaim_register_of_held hheld]
  exact (dropObservedBadges_writes who).register

theorem doRevokeRole_register (h : s.doRevokeRole account role = .ok s') :
    ∃ credential, s.roles.roleClaimOf.get (account, role) = some credential ∧
      s'.register = (s.register.releaseClaim account role credential).tombstoneRoleCred role
        credential := by
  obtain ⟨credential, hheld, rfl⟩ := doRevokeRole_ok h
  set banned := (s.takeClaim account role).tombstoneRoleCred role credential
  have hbanned : banned.register =
      (s.takeClaim account role).register.tombstoneRoleCred role credential := rfl
  rw [takeClaim_register_of_held hheld] at hbanned
  exact ⟨credential, hheld, (dropObservedBadges_writes account).register.trans hbanned⟩

theorem doRevoke_register (h : s.doRevoke account = .ok s') :
    ∃ identity, s.gate.pkhOf.get account = some identity ∧
      s'.register =
        ((s.register.releaseIdentity account identity).banStake account).takeClaims account := by
  obtain ⟨identity, torn, hbound, htorn, rfl⟩ := doRevoke_ok h
  have hteardown : torn.register =
      (s.register.releaseIdentity account identity).banStake account := by
    rw [htorn, (forgetAccount_writes account).register, banStake_register]
    rfl
  have hleft : register { torn with gate := torn.gate.leaveRotation account } =
      torn.register :=
    congrArg (fun binds => { torn.register with binds := binds })
      (leaveRotation_binds torn.gate account)
  have hevent : ∀ (t : Runtime) (event : Event), (t.deposit event).register = t.register :=
    fun _ _ => rfl
  refine ⟨identity, hbound, ?_⟩
  rw [hevent, onRevoke, purgeAccountRoles_register, (zeroCapacity_writes account).register,
    hleft, hteardown]

theorem doRevoke_registerMove (h : s.doRevoke account = .ok s') :
    RegisterMove s.register s'.register := by
  obtain ⟨identity, hbound, hregister⟩ := doRevoke_register h
  rw [hregister]
  exact .revoke account identity hbound

theorem doRevokeRole_registerMove (h : s.doRevokeRole account role = .ok s') :
    RegisterMove s.register s'.register := by
  obtain ⟨credential, hheld, hregister⟩ := doRevokeRole_register h
  rw [hregister]
  exact .revokeRole account role credential hheld

theorem revokeMany_register (targets : List AccountId) :
    RegisterMoves s.register (s.revokeMany targets).register := by
  apply revokeMany_invariant (fun after => RegisterMoves s.register after.register)
  · exact fun _ _ h => h
  · exact fun _ _ _ hok h => h.tail (doRevoke_registerMove hok)
  · exact .refl

theorem revokeRoleMany_register (targets : List (AccountId × RoleKind)) :
    RegisterMoves s.register (s.revokeRoleMany targets).register := by
  apply revokeRoleMany_invariant (fun after => RegisterMoves s.register after.register)
  · exact fun _ _ h => h
  · exact fun _ _ _ _ hok h => h.tail (doRevokeRole_registerMove hok)
  · exact .refl

end Runtime

open CognoChain.Runtime in
theorem LedgerStep.register {cfg : Config} {s after : Runtime} {op : Op}
    (hstep : LedgerStep cfg s op after) : RegisterMoves s.register after.register := by
  cases hstep with
  | keeps hsame => rw [SameLedger.register hsame]
  | tick unixSecs =>
    have hsame : (s.nextBlock cfg unixSecs).register = s.register :=
      observerOnInitialize_writes.register
    rw [hsame]
  | bind hbind =>
    obtain ⟨htombstoned, haccount, hidentity, hregister⟩ := doBind_register hbind
    rw [hregister]
    exact .single (.bind _ _ htombstoned haccount hidentity)
  | bindStake hbind =>
    obtain ⟨hbound, htombstoned, haccount, hstakeCred, hregister⟩ :=
      doBindStake_register hbind
    rw [hregister]
    exact .single (.bindStake _ _ hbound htombstoned haccount hstakeCred)
  | revoke hrevoke => exact .single (doRevoke_registerMove hrevoke)
  | revokeMany targets => exact revokeMany_register targets
  | unlinkStake hunlink =>
    obtain ⟨stakeCred, hheld, hregister⟩ := unlinkStake_register hunlink
    rw [hregister]
    exact .single (.unlinkStake _ stakeCred hheld)
  | tombstoneStakeCred stakeCred => exact .single (.tombstoneStake stakeCred)
  | claim hclaim =>
    obtain ⟨hbound, htombstoned, haccount, hcredential, hregister⟩ :=
      doClaim_register hclaim
    rw [hregister]
    exact .single (.claim _ _ _ hbound htombstoned haccount hcredential)
  | unclaim hunclaim =>
    obtain ⟨credential, hheld, hregister⟩ := unclaimRole_register hunclaim
    rw [hregister]
    exact .single (.unclaim _ _ credential hheld)
  | revokeRole hrevoke => exact .single (doRevokeRole_registerMove hrevoke)
  | revokeRoleMany targets => exact revokeRoleMany_register targets
  | observe args hop => rw [observe_register args]
  | inherent obs hop => rw [observeSnapshot, observe_register]
  | setEnforcement enabled => rw [(setEnforcement_writes enabled).register]

namespace Runtime

variable {cfg : Config} {s : Runtime}

theorem run_register (ops : List Op) : RegisterMoves s.register (s.run cfg ops).register := by
  apply run_invariant (fun after : Runtime => RegisterMoves s.register after.register)
  · intro before op hbefore
    exact hbefore.trans (before.step_ledgerStep op).register
  · exact .refl

theorem run_stakes (ops : List Op) :
    Steps stakeVerbs s.register.stakes (s.run cfg ops).register.stakes :=
  Relation.ReflTransGen.lift' Register.stakes (fun _ _ hmove => RegisterMove.stakes hmove) _ _
    (run_register ops)

theorem run_claims (ops : List Op) (role : RoleKind) :
    Steps claimVerbs (s.register.claims role)
      ((s.run cfg ops).register.claims role) :=
  Relation.ReflTransGen.lift' (Register.claims · role) (fun _ _ hmove => RegisterMove.claims hmove role) _ _
    (run_register ops)

theorem run_identities (ops : List Op) :
    Steps identityVerbs s.register.identities (s.run cfg ops).register.identities :=
  Relation.ReflTransGen.lift' Register.identities (fun _ _ hmove => RegisterMove.identities hmove)
    _ _ (run_register ops)

theorem run_stakes_sound (ops : List Op) : (genesis.run cfg ops).register.stakes.Sound :=
  (run_stakes ops).sound (fun _ _ => ⟨nofun, nofun⟩)

theorem run_claims_sound (ops : List Op) (role : RoleKind) :
    ((genesis.run cfg ops).register.claims role).Sound :=
  (run_claims ops role).sound (fun _ _ => ⟨nofun, nofun⟩)

def bindsIdentity (cfg : Config) (identity : IdentityHash) (s : Runtime) (op : Op) : ℕ :=
  if ((s.step cfg op).gate.accountOf.get identity).isSome ∧
      (s.step cfg op).gate.accountOf.get identity ≠ s.gate.accountOf.get identity then 1
  else 0

/-- Once an identity was bound it stays where it is or is banned, so no step
binds it anew. -/
theorem sum_bindsIdentity_le_one (identity : IdentityHash) (ops : List Op) :
    sumAlong (step cfg) (bindsIdentity cfg identity) s ops ≤ 1 := by
  have hone : ∀ (s : Runtime) (op : Op),
      Steps identityVerbs s.register.identities (s.step cfg op).register.identities :=
    fun s op => run_identities [op]
  apply sumAlong_le_one (fun now => (∃ account, now.register.identities.holder identity =
    some account) ∨ now.register.identities.Retired identity)
  · intro s op
    unfold bindsIdentity
    split_ifs <;> simp
  · intro s op hcounts
    have hbinds : ((s.step cfg op).gate.accountOf.get identity).isSome := by
      unfold bindsIdentity at hcounts
      split_ifs at hcounts with hbinds
      · exact hbinds.1
      · exact absurd rfl hcounts
    exact Or.inl (Option.isSome_iff_exists.mp hbinds)
  · rintro s op (⟨account, hheld⟩ | hretired)
    · have hnow : s.gate.accountOf.get identity = some account := hheld
      rcases (hone s op).kept_or_retired id hheld with hkept | hretired
      · have hafter : (s.step cfg op).gate.accountOf.get identity = some account := hkept
        exact ⟨by simp [bindsIdentity, hnow, hafter], Or.inl ⟨account, hkept⟩⟩
      · have hafter : (s.step cfg op).gate.accountOf.get identity = none := hretired.2
        exact ⟨by simp [bindsIdentity, hafter], Or.inr hretired⟩
    · have hafter := (hone s op).retired hretired
      have hnone : (s.step cfg op).gate.accountOf.get identity = none := hafter.2
      exact ⟨by simp [bindsIdentity, hnone], Or.inr hafter⟩

end Runtime

/-- In every state reached from an empty chain the three pairs of claim maps
are inverse, only bound accounts hold anything, and neither a bound identity
nor a claimed role credential is banned.  An identity is bound once at most,
and a stake or role credential that is banned and free stays free. -/
theorem registers_one_to_one (cfg : Config) (ops : List Op) :
    (∀ account identity,
      (Runtime.genesis.run cfg ops).gate.pkhOf.get account = some identity ↔
        (Runtime.genesis.run cfg ops).gate.accountOf.get identity = some account) ∧
    (∀ account stakeCred,
      (Runtime.genesis.run cfg ops).gate.stakeCredOf.get account = some stakeCred ↔
        (Runtime.genesis.run cfg ops).gate.accountOfStakeCred.get stakeCred = some account) ∧
    (∀ role account credential,
      (Runtime.genesis.run cfg ops).roles.roleClaimOf.get (account, role) = some credential ↔
        (Runtime.genesis.run cfg ops).roles.roleCredIndex.get (role, credential) =
          some account) ∧
    (∀ account,
      ((Runtime.genesis.run cfg ops).gate.stakeCredOf.contains account ∨
        ∃ role, (Runtime.genesis.run cfg ops).roles.roleClaimOf.contains (account, role)) →
      (Runtime.genesis.run cfg ops).gate.pkhOf.contains account) ∧
    (∀ identity, (Runtime.genesis.run cfg ops).gate.accountOf.contains identity →
      (Runtime.genesis.run cfg ops).gate.tombstoned.contains identity = false) ∧
    (∀ role credential,
      (Runtime.genesis.run cfg ops).roles.roleCredIndex.contains (role, credential) →
      (Runtime.genesis.run cfg ops).roles.tombstonedRoleCred.contains (role, credential) =
        false) ∧
    (∀ identity,
      sumAlong (Runtime.step cfg) (Runtime.bindsIdentity cfg identity) .genesis ops ≤ 1) ∧
    (∀ stakeCred later,
      (Runtime.genesis.run cfg ops).gate.tombstonedStakeCred.contains stakeCred →
      (Runtime.genesis.run cfg ops).gate.accountOfStakeCred.get stakeCred = none →
      ((Runtime.genesis.run cfg ops).run cfg later).gate.accountOfStakeCred.get stakeCred =
        none) ∧
    (∀ role credential later,
      (Runtime.genesis.run cfg ops).roles.tombstonedRoleCred.contains (role, credential) →
      (Runtime.genesis.run cfg ops).roles.roleCredIndex.get (role, credential) = none →
      ((Runtime.genesis.run cfg ops).run cfg later).roles.roleCredIndex.get
        (role, credential) = none) := by
  set s := Runtime.genesis.run cfg ops with hs
  have hidentities : Steps identityVerbs Runtime.genesis.register.identities
      s.register.identities := Runtime.run_identities ops
  have hclaims : ∀ role, Steps claimVerbs (Runtime.genesis.register.claims role)
      (s.register.claims role) := Runtime.run_claims ops
  have hbacked : s.register.Backed := by
    apply reach_invariant Register.Backed (fun _ _ hmove hinv => hmove.backed hinv)
      (Runtime.run_register ops)
    exact fun _ _ => ⟨rfl, fun _ => rfl⟩
  refine ⟨?_, ?_, ?_, ?_, ?_, ?_, ?_, ?_, ?_⟩
  · exact hidentities.sound (fun _ _ => ⟨nofun, nofun⟩)
  · exact Runtime.run_stakes_sound ops
  · exact Runtime.run_claims_sound ops
  · intro account hholds
    by_contra hunbound
    have hnone : s.gate.pkhOf.get account = none := by simpa using hunbound
    obtain ⟨hstake, hroles⟩ := hbacked account hnone
    have hstake : s.gate.stakeCredOf.get account = none := hstake
    have hroles : ∀ role, s.roles.roleClaimOf.get (account, role) = none := hroles
    simp [hstake, hroles] at hholds
  · intro identity hbound
    by_contra hbanned
    rw [Bool.not_eq_false] at hbanned
    have hfree : s.gate.accountOf.get identity = none :=
      hidentities.separated id (fun _ _ => rfl) identity hbanned
    simp [hfree] at hbound
  · intro role credential hclaimed
    by_contra hbanned
    rw [Bool.not_eq_false] at hbanned
    have hfree : s.roles.roleCredIndex.get (role, credential) = none :=
      (hclaims role).separated id (fun _ _ => rfl) credential hbanned
    simp [hfree] at hclaimed
  · exact fun identity => Runtime.sum_bindsIdentity_le_one identity ops
  · intro stakeCred later hbanned hfree
    have hretired : s.register.stakes.Retired stakeCred :=
      ⟨hbanned, hfree⟩
    exact ((Runtime.run_stakes later).retired hretired).2
  · intro role credential later hbanned hfree
    have hretired : (s.register.claims role).Retired credential :=
      ⟨hbanned, hfree⟩
    exact ((Runtime.run_claims later role).retired hretired).2

end CognoChain
