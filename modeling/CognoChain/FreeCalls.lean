import CognoChain.Ledger.Registers
import CognoChain.Meter

/-!
# Calls that cost nothing

A signed call of the microblog or profile pallet either pays for itself, whether
or not it succeeds, or costs nothing and succeeds.  The calls that cost nothing
give a row back: a profile, a pin, a stake bind or a role claim.  Each such row
was made by a call that was paid for or carried a proof, so the rows an account
holds are the potential that its free calls draw on.
-/

namespace CognoChain

open Substrate StorageMap CognoChain.Runtime

/-! ## Rows an account holds -/

inductive Holding
  | profile
  | pin
  | stake
  | role (kind : RoleKind)
deriving DecidableEq

def Holding.all : List Holding :=
  [.profile, .pin, .stake, .role .spo, .role .dRep, .role .committee]

def Runtime.holds (s : Runtime) (who : AccountId) : Holding → Bool
  | .profile => s.profile.profiles.contains who
  | .pin => s.profile.pinnedPost.contains who
  | .stake => s.gate.stakeCredOf.contains who
  | .role kind => s.roles.roleClaimOf.contains (who, kind)

/-- The row a call makes if it succeeds, and whose it is.  The account of a bind or
a claim is the one in its proof. -/
def RuntimeCall.makes (cfg : Config) : Origin → RuntimeCall → Option (AccountId × Holding)
  | .signed who, .profile (.setProfile _) => some (who, .profile)
  | .signed who, .profile (.pinPost _) => some (who, .pin)
  | .none, .gate (.linkStakeSigned proof) =>
      (cfg.verifyStakeProof proof).toOption.map (fun bind => (bind.1, .stake))
  | .none, .roles (.claimRoleSigned proof) =>
      (cfg.verifyRoleProof proof).toOption.map (fun claim => (claim.1, .role claim.2.1))
  | _, _ => none

def RuntimeCall.tidies : RuntimeCall → Option Holding
  | .profile .clearProfile => some .profile
  | .profile .unpinPost => some .pin
  | .gate .unlinkStake => some .stake
  | .roles (.unclaimRole kind) => some (.role kind)
  | _ => none

def RuntimeCall.metered : RuntimeCall → Bool
  | .microblog (.forceSetCapacity _ _) => false
  | .microblog _ => true
  | .profile _ => true
  | _ => false

section Calls

variable {cfg : Config} {s s' : Runtime} {who : AccountId} {x : Holding} {account : AccountId}
  {role : RoleKind} {origin : Origin} {call : RuntimeCall} {proof : CoseProof} {len need : ℕ}
  {pre : Pre}

/-! ## What a call does to the rows -/

/-- No stake bind and no role claim is new. -/
structure Dwindles (s s' : Runtime) : Prop where
  stakes : ∀ who, s'.gate.stakeCredOf.contains who = true → s.gate.stakeCredOf.contains who = true
  claims : ∀ key, s'.roles.roleClaimOf.contains key = true → s.roles.roleClaimOf.contains key = true

theorem Dwindles.refl (s : Runtime) : Dwindles s s := ⟨fun _ h => h, fun _ h => h⟩

theorem Dwindles.trans {t : Runtime} (h : Dwindles s t) (h' : Dwindles t s') : Dwindles s s' :=
  ⟨fun who hheld => h.stakes who (h'.stakes who hheld),
    fun key hheld => h.claims key (h'.claims key hheld)⟩

theorem Dwindles.of_eq (hstakes : s'.gate.stakeCredOf = s.gate.stakeCredOf)
    (hclaims : s'.roles.roleClaimOf = s.roles.roleClaimOf) : Dwindles s s' :=
  ⟨fun _ hheld => hstakes ▸ hheld, fun _ hheld => hclaims ▸ hheld⟩

theorem Dwindles.of_register (hregister : s'.register = s.register) : Dwindles s s' :=
  .of_eq (congrArg (fun r => r.binds.stakeCredOf) hregister)
    (congrArg (fun r => r.roleClaimOf) hregister)

theorem contains_of_contains_remove {K V : Type*} [StorageKey K] [DecidableEq K]
    {m : StorageMap K V} {k k' : K} (h : (m.remove k).contains k' = true) :
    m.contains k' = true := by
  rw [contains, get_remove] at h
  split_ifs at h
  · cases h
  · exact h

theorem contains_of_get_ite {K V : Type*} [StorageKey K] {m m' : StorageMap K V} {k : K}
    {gone : Prop} [Decidable gone] (hget : m'.get k = if gone then none else m.get k)
    (h : m'.contains k = true) : m.contains k = true := by
  rw [contains, hget] at h
  split_ifs at h
  · cases h
  · exact h

theorem Dwindles.doRevoke (h : s.doRevoke account = .ok s') :
    Dwindles s s' := by
  obtain ⟨identity, -, hregister⟩ := doRevoke_register h
  refine ⟨fun who hheld => ?_, fun key hheld => ?_⟩
  · have hget : s'.gate.stakeCredOf.get who =
        if who = account then none else s.gate.stakeCredOf.get who := by
      refine (congrArg (fun r => r.binds.stakeCredOf.get who) hregister).trans ?_
      rw [Register.takeClaims_binds, Register.get_banStake]
      rfl
    exact contains_of_get_ite hget hheld
  · obtain ⟨who, kind⟩ := key
    have hget : s'.roles.roleClaimOf.get (who, kind) =
        if who = account then none else s.roles.roleClaimOf.get (who, kind) := by
      refine (congrArg (fun r => r.roleClaimOf.get (who, kind)) hregister).trans ?_
      rw [Register.get_takeClaims, Register.banStake_roleClaimOf]
      rfl
    exact contains_of_get_ite hget hheld

theorem Dwindles.of_releaseClaim (hstakes : s'.gate.stakeCredOf = s.gate.stakeCredOf)
    (hclaims : s'.roles.roleClaimOf = s.roles.roleClaimOf.remove (account, role)) :
    Dwindles s s' := by
  refine ⟨fun who hheld => hstakes ▸ hheld, fun key hheld => ?_⟩
  rw [hclaims] at hheld
  exact contains_of_contains_remove hheld

theorem Dwindles.doRevokeRole (h : s.doRevokeRole account role = .ok s') : Dwindles s s' := by
  obtain ⟨credential, -, hregister⟩ := doRevokeRole_register h
  exact .of_releaseClaim (congrArg (fun r => r.binds.stakeCredOf) hregister)
    (congrArg (fun r => r.roleClaimOf) hregister)

theorem Dwindles.unclaimRole (h : s.unclaimRole who role = .ok s') :
    Dwindles s s' := by
  obtain ⟨credential, -, hregister⟩ := unclaimRole_register h
  exact .of_releaseClaim (congrArg (fun r => r.binds.stakeCredOf) hregister)
    (congrArg (fun r => r.roleClaimOf) hregister)

theorem Dwindles.revokeMany (targets : List AccountId) : Dwindles s (s.revokeMany targets) := by
  apply revokeMany_invariant (fun after => Dwindles s after)
  · exact fun _ _ h => ⟨h.1, h.2⟩
  · exact fun _ _ _ hok h => h.trans (.doRevoke hok)
  · exact .refl s

theorem Dwindles.revokeRoleMany (targets : List (AccountId × RoleKind)) :
    Dwindles s (s.revokeRoleMany targets) := by
  apply revokeRoleMany_invariant (fun after => Dwindles s after)
  · exact fun _ _ h => ⟨h.1, h.2⟩
  · exact fun _ _ _ _ hok h => h.trans (.doRevokeRole hok)
  · exact .refl s

theorem Dwindles.unlinkStake (h : s.unlinkStake who = .ok s') : Dwindles s s' := by
  obtain ⟨stakeCred, -, hregister⟩ := unlinkStake_register h
  have hstakes : s'.gate.stakeCredOf = s.gate.stakeCredOf.remove who :=
    congrArg (fun r => r.binds.stakeCredOf) hregister
  have hclaims : s'.roles.roleClaimOf = s.roles.roleClaimOf :=
    congrArg (fun r => r.roleClaimOf) hregister
  refine ⟨fun other hheld => ?_, fun key hheld => hclaims ▸ hheld⟩
  rw [hstakes] at hheld
  exact contains_of_contains_remove hheld

theorem Dwindles.holds (h : Dwindles s s') (hprofile : s'.profile = s.profile)
    (hheld : s'.holds who x = true) : s.holds who x = true := by
  cases x with
  | profile | pin => rwa [Runtime.holds, hprofile] at hheld
  | stake => exact h.stakes who hheld
  | role kind => exact h.claims (who, kind) hheld

theorem profile_of_social (h : s'.social = s.social) : s'.profile = s.profile :=
  congrArg Social.profile h

theorem holds_of_linkStakeSigned (h : s.linkStakeSigned cfg proof = .ok s')
    (hheld : s'.holds who x = true) :
    s.holds who x = true ∨
      (RuntimeCall.gate (.linkStakeSigned proof)).makes cfg .none = some (who, x) := by
  unfold linkStakeSigned at h
  split at h
  · cases h
  next account stakeCred nonce hverify =>
    obtain ⟨-, -, -, rfl⟩ := doBindStake_ok h
    cases x with
    | stake =>
      by_cases hwho : who = account
      · refine Or.inr ?_
        simp only [RuntimeCall.makes, hverify, Except.toOption, Option.map_some, hwho]
      · refine Or.inl ?_
        have hkept := get_insert_of_ne s.gate.stakeCredOf stakeCred hwho
        rw [Runtime.holds, contains, ← hkept]
        exact hheld
    | _ => exact Or.inl hheld

theorem holds_of_claimRoleSigned (h : s.claimRoleSigned cfg proof = .ok s')
    (hheld : s'.holds who x = true) :
    s.holds who x = true ∨
      (RuntimeCall.roles (.claimRoleSigned proof)).makes cfg .none = some (who, x) := by
  unfold claimRoleSigned at h
  split at h
  · cases h
  next account role credential nonce hverify =>
    have hsocial := (doClaim_writes h).social
    obtain ⟨-, -, -, -, hregister⟩ := doClaim_register h
    cases x with
    | role kind =>
      by_cases hkey : (who, kind) = (account, role)
      · obtain ⟨rfl, rfl⟩ := Prod.mk.inj hkey
        refine Or.inr ?_
        simp only [RuntimeCall.makes, hverify, Except.toOption, Option.map_some]
      · refine Or.inl ?_
        have hclaims : s'.roles.roleClaimOf = s.roles.roleClaimOf.insert (account, role) credential :=
          congrArg (fun r => r.roleClaimOf) hregister
        have hkept := get_insert_of_ne s.roles.roleClaimOf credential hkey
        rw [Runtime.holds, hclaims, contains, hkept] at hheld
        exact hheld
    | profile | pin => exact Or.inl (by rwa [Runtime.holds, profile_of_social hsocial] at hheld)
    | stake =>
      have hstakes : s'.gate.stakeCredOf = s.gate.stakeCredOf :=
        congrArg (fun r => r.binds.stakeCredOf) hregister
      exact Or.inl (by rwa [Runtime.holds, hstakes] at hheld)

theorem holds_of_gate {call : GateCall} (h : s.dispatchGate cfg origin call = .ok s')
    (hheld : s'.holds who x = true) :
    s.holds who x = true ∨ (RuntimeCall.gate call).makes cfg origin = some (who, x) := by
  have hprofile := profile_of_social (dispatchGate_social h)
  unfold dispatchGate at h
  split at h
  next proof =>
    rw [mapError_eq_ok_iff, linkIdentitySigned] at h
    split at h
    · cases h
    · obtain ⟨-, -, -, hregister⟩ := doBind_register h
      have hdwindles : Dwindles s s' := .of_eq
        (congrArg (fun r => r.binds.stakeCredOf) hregister)
        (congrArg (fun r => r.roleClaimOf) hregister)
      exact Or.inl (hdwindles.holds hprofile hheld)
  next proof => exact holds_of_linkStakeSigned (mapError_eq_ok_iff.mp h) hheld
  next account =>
    exact Or.inl ((Dwindles.doRevoke (mapError_eq_ok_iff.mp h)).holds hprofile hheld)
  next targets =>
    rw [← Except.ok.inj h] at hheld hprofile
    exact Or.inl ((Dwindles.revokeMany targets).holds hprofile hheld)
  next signer =>
    exact Or.inl ((Dwindles.unlinkStake (mapError_eq_ok_iff.mp h)).holds hprofile hheld)
  next stakeCred =>
    rw [← Except.ok.inj h] at hheld
    cases x <;> exact Or.inl hheld
  · cases h

theorem holds_of_roles {call : RolesCall} (h : s.dispatchRoles cfg origin call = .ok s')
    (hheld : s'.holds who x = true) :
    s.holds who x = true ∨ (RuntimeCall.roles call).makes cfg origin = some (who, x) := by
  have hprofile := profile_of_social (dispatchRoles_writes h).social
  unfold dispatchRoles at h
  split at h
  next proof => exact holds_of_claimRoleSigned (mapError_eq_ok_iff.mp h) hheld
  next signer role =>
    exact Or.inl ((Dwindles.unclaimRole (mapError_eq_ok_iff.mp h)).holds hprofile hheld)
  next account role =>
    exact Or.inl ((Dwindles.doRevokeRole (mapError_eq_ok_iff.mp h)).holds hprofile hheld)
  next targets =>
    rw [← Except.ok.inj h] at hheld hprofile
    exact Or.inl ((Dwindles.revokeRoleMany targets).holds hprofile hheld)
  · cases h

theorem contains_insert_of_ne {K V : Type*} [StorageKey K] {m : StorageMap K V} {k k' : K} {v : V}
    (hne : k' ≠ k) (h : (m.insert k v).contains k' = true) : m.contains k' = true := by
  rwa [contains, get_insert_of_ne _ _ hne] at h

theorem holds_of_profile {call : ProfileCall} (h : s.dispatchProfile cfg origin call = .ok s')
    (hheld : s'.holds who x = true) :
    s.holds who x = true ∨ (RuntimeCall.profile call).makes cfg origin = some (who, x) := by
  obtain ⟨signer, store, event, rfl, hcall, -, rfl⟩ := dispatchProfile_ok h
  cases x with
  | stake | role => exact Or.inl hheld
  | profile =>
    cases hcall with
    | set profile =>
      by_cases hwho : who = signer
      · exact Or.inr (by rw [hwho]; rfl)
      · exact Or.inl (contains_insert_of_ne hwho hheld)
    | clear => exact Or.inl (contains_of_contains_remove hheld)
    | _ => exact Or.inl hheld
  | pin =>
    cases hcall with
    | pin id =>
      by_cases hwho : who = signer
      · exact Or.inr (by rw [hwho]; rfl)
      · exact Or.inl (contains_insert_of_ne hwho hheld)
    | unpin => exact Or.inl (contains_of_contains_remove hheld)
    | _ => exact Or.inl hheld

theorem holds_of_dispatch (h : s.dispatch cfg origin call = .ok s') (hheld : s'.holds who x = true) :
    s.holds who x = true ∨ call.makes cfg origin = some (who, x) := by
  cases call with
  | profile call => exact holds_of_profile h hheld
  | gate call => exact holds_of_gate h hheld
  | roles call => exact holds_of_roles h hheld
  | microblog call =>
    have hkept : SameLedger s s' ∧ s'.profile = s.profile := by
      have hsame : SameLedger s (s.execute cfg origin (.microblog call)) :=
        execute_sameLedger rfl
      rw [execute, h] at hsame
      refine ⟨hsame, ?_⟩
      cases origin with
      | signed signer => exact (dispatchSignedMicroblog_writes h).profile
      | none => cases call <;> cases h
      | authority =>
        cases call with
        | forceSetCapacity account capLast =>
          rw [← Except.ok.inj h]
          exact profile_of_social (forceSetCapacity_writes account capLast).writesMeter.social
        | _ => cases h
    have hdwindles : Dwindles s s' := .of_eq (by rw [hkept.1.gate]) (by rw [hkept.1.roles])
    exact Or.inl (hdwindles.holds hkept.2 hheld)
  | observer call =>
    have hprofile := profile_of_social (dispatchObserver_social h)
    have hregister : s'.register = s.register := by
      rcases dispatchObserver_ok h with ⟨args, -, rfl⟩ | ⟨enabled, -, rfl⟩
      · exact observe_register args
      · exact (setEnforcement_writes enabled).register
    exact Or.inl ((Dwindles.of_register hregister).holds hprofile hheld)

theorem tidies_eq_some (h : call.tidies = some x) :
    (call = .profile .clearProfile ∧ x = .profile) ∨ (call = .profile .unpinPost ∧ x = .pin) ∨
      (call = .gate .unlinkStake ∧ x = .stake) ∨
      ∃ kind, call = .roles (.unclaimRole kind) ∧ x = .role kind := by
  unfold RuntimeCall.tidies at h
  split at h
  · exact Or.inl ⟨rfl, (Option.some.inj h).symm⟩
  · exact Or.inr (Or.inl ⟨rfl, (Option.some.inj h).symm⟩)
  · exact Or.inr (Or.inr (Or.inl ⟨rfl, (Option.some.inj h).symm⟩))
  next kind => exact Or.inr (Or.inr (Or.inr ⟨kind, rfl, (Option.some.inj h).symm⟩))
  · cases h

theorem contains_remove_self {K V : Type*} [StorageKey K] (m : StorageMap K V) (k : K) :
    (m.remove k).contains k = false := by
  rw [contains, get_remove_self]
  rfl

theorem tidied_of_dispatch (htidies : call.tidies = some x)
    (h : s.dispatch cfg (.signed who) call = .ok s') :
    s.holds who x = true ∧ s'.holds who x = false := by
  rcases tidies_eq_some htidies with ⟨rfl, rfl⟩ | ⟨rfl, rfl⟩ | ⟨rfl, rfl⟩ | ⟨kind, rfl, rfl⟩
  · have hprofile : s.dispatchProfile cfg (.signed who) .clearProfile = .ok s' := h
    obtain ⟨_, _, _, hsigner, hcall, -, rfl⟩ := dispatchProfile_ok hprofile
    rw [← Origin.signed.inj hsigner] at hcall
    cases hcall with
    | clear hheld => exact ⟨hheld, contains_remove_self _ _⟩
  · have hprofile : s.dispatchProfile cfg (.signed who) .unpinPost = .ok s' := h
    obtain ⟨_, _, _, hsigner, hcall, -, rfl⟩ := dispatchProfile_ok hprofile
    rw [← Origin.signed.inj hsigner] at hcall
    cases hcall with
    | unpin hheld => exact ⟨hheld, contains_remove_self _ _⟩
  · obtain ⟨stakeCred, hheld, hregister⟩ :=
      unlinkStake_register (mapError_eq_ok_iff.mp h)
    have hstakes : s'.gate.stakeCredOf = s.gate.stakeCredOf.remove who :=
      congrArg (fun r => r.binds.stakeCredOf) hregister
    exact ⟨by rw [Runtime.holds, contains, hheld]; rfl,
      by rw [Runtime.holds, hstakes, contains_remove_self]⟩
  · obtain ⟨credential, hheld, hregister⟩ :=
      unclaimRole_register (mapError_eq_ok_iff.mp h)
    have hclaims : s'.roles.roleClaimOf = s.roles.roleClaimOf.remove (who, kind) :=
      congrArg (fun r => r.roleClaimOf) hregister
    exact ⟨by rw [Runtime.holds, contains, hheld]; rfl,
      by rw [Runtime.holds, hclaims, contains_remove_self]⟩

theorem dispatch_of_holds (cfg : Config) (htidies : call.tidies = some x)
    (hheld : s.holds who x = true) : ∃ after, s.dispatch cfg (.signed who) call = .ok after := by
  rcases tidies_eq_some htidies with ⟨rfl, rfl⟩ | ⟨rfl, rfl⟩ | ⟨rfl, rfl⟩ | ⟨kind, rfl, rfl⟩
  · have hrow : s.profile.profiles.contains who = true := hheld
    exact ⟨_, mapError_eq_ok_iff.mpr (if_pos hrow)⟩
  · have hrow : s.profile.pinnedPost.contains who = true := hheld
    exact ⟨_, mapError_eq_ok_iff.mpr (if_pos hrow)⟩
  · obtain ⟨stakeCred, hstake⟩ := Option.isSome_iff_exists.mp hheld
    have hunlink : s.unlinkStake who = .ok (((s.releaseStake who stakeCred).forgetStake who
        stakeCred).deposit (.stakeUnlinked who stakeCred)) := by
      rw [Runtime.unlinkStake, hstake]
    exact ⟨_, mapError_eq_ok_iff.mpr hunlink⟩
  · have hrow : s.roles.roleClaimOf.contains (who, kind) = true := hheld
    exact ⟨_, mapError_eq_ok_iff.mpr (if_pos hrow)⟩

/-! ## What a call costs -/

theorem need_ne_unpayable (hcheck : s.checkCapacity cfg (.signed who) call len = .ok pre)
    (hneed : meteredNeed cfg s who call = some need) : need ≠ unpayable := by
  rintro rfl
  unfold checkCapacity at hcheck
  simp only [hneed] at hcheck
  split_ifs at hcheck

theorem holds_of_admitted (htidies : call.tidies = some x) (hfeeless : call.feelessIf s who = true)
    (hcheck : s.checkCapacity cfg (.signed who) call len = .ok pre) :
    s.holds who x = true := by
  rcases tidies_eq_some htidies with ⟨rfl, rfl⟩ | ⟨rfl, rfl⟩ | ⟨rfl, rfl⟩ | ⟨kind, rfl, rfl⟩
  · by_contra hnone
    exact need_ne_unpayable hcheck rfl (if_neg hnone)
  · by_contra hnone
    exact need_ne_unpayable hcheck rfl (if_neg hnone)
  all_goals exact hfeeless

/-- The costs that have to be positive for nothing to be free that can fail. -/
structure Config.Priced (cfg : Config) : Prop where
  base : 0 < cfg.baseCost
  vote : 0 < cfg.voteCost
  follow : 0 < cfg.followCost
  profile : 0 < cfg.profileCost

theorem Config.Priced.postCost_pos (hpriced : cfg.Priced) (len : ℕ) : 0 < postCost cfg len := by
  have hbase := hpriced.base
  have hmax : 0 < u128Max := by decide
  unfold postCost satAdd
  omega

theorem Config.Priced.meteredCost_pos (hpriced : cfg.Priced) {call : MicroblogCall}
    (hneed : call.meteredCost cfg = some need) : 0 < need := by
  cases call with
  | forceSetCapacity account capLast => cases hneed
  | postMessage | quotePost | createPoll => exact Option.some.inj hneed ▸ hpriced.postCost_pos _
  | follow | unfollow => exact Option.some.inj hneed ▸ hpriced.follow
  | _ => exact Option.some.inj hneed ▸ hpriced.vote

theorem tidies_of_cost_zero (hpriced : cfg.Priced) (hneed : meteredNeed cfg s who call = some 0) :
    ∃ x, call.tidies = some x := by
  cases call with
  | microblog call => exact absurd (hpriced.meteredCost_pos hneed) (Nat.lt_irrefl 0)
  | profile call =>
    cases call with
    | clearProfile | unpinPost => exact ⟨_, rfl⟩
    | setProfile | pinPost =>
      exact absurd (Option.some.inj hneed ▸ hpriced.profile) (Nat.lt_irrefl 0)
  | _ => cases hneed

theorem meteredNeed_isSome (cfg : Config) (s : Runtime) (who : AccountId)
    (hmetered : call.metered = true) :
    ∃ need, meteredNeed cfg s who call = some need := by
  cases call with
  | microblog call =>
    cases call with
    | forceSetCapacity account capLast => cases hmetered
    | _ => exact ⟨_, rfl⟩
  | profile call => cases call <;> exact ⟨_, rfl⟩
  | _ => cases hmetered

theorem feelessIf_of_metered (hmetered : call.metered = true) :
    call.feelessIf s who = true := by
  cases call with
  | microblog call =>
    cases call with
    | forceSetCapacity account capLast => cases hmetered
    | _ => rfl
  | profile call => rfl
  | _ => cases hmetered

/-! ## Free calls and the rows they draw on -/

/-- A free call of an account: a tidy-up call that the check admits without a
charge and whose fee is waived, or one that is executed without a check. -/
def spends (cfg : Config) (who : AccountId) (s : Runtime) : Op → Option Holding
  | .extrinsic signer call len =>
      if signer = who ∧ call.feelessIf s who = true ∧
          (s.checkCapacity cfg (.signed who) call len).toOption.any (fun pre => pre.cost = 0) then
        call.tidies
      else none
  | .call (.signed signer) call =>
      if signer = who ∧ (s.dispatch cfg (.signed who) call).isOk = true then call.tidies else none
  | _ => none

def earns (cfg : Config) (who : AccountId) (s : Runtime) : Op → Option Holding
  | .extrinsic signer call len =>
      if (s.checkCapacity cfg (.signed signer) call len).isOk = true ∧
          (s.dispatch cfg (.signed signer) call).isOk = true then
        made who (call.makes cfg (.signed signer))
      else none
  | .call origin call =>
      if (s.dispatch cfg origin call).isOk = true then made who (call.makes cfg origin) else none
  | _ => none
where
  made (who : AccountId) (row : Option (AccountId × Holding)) : Option Holding :=
    row.bind (fun row => if row.1 = who then some row.2 else none)

theorem isOk_eq_true_iff {ε α : Type} {result : Except ε α} :
    result.isOk = true ↔ ∃ value, result = .ok value := by
  cases result <;> simp [Except.isOk, Except.toBool]

theorem holds_of_writesCapacity (h : s.WritesCapacity s') : s'.holds who x = s.holds who x := by
  obtain ⟨capacity, events, rfl⟩ := h
  cases x <;> rfl

theorem holds_of_writesFrontier (h : s.WritesFrontier s') : s'.holds who x = s.holds who x := by
  obtain ⟨reference, enforce, pending, appliedAt, stalled, cursor, sweepAt, events, rfl⟩ := h
  cases x <;> rfl

theorem holds_of_step (op : Op) (hheld : (s.step cfg op).holds who x = true) :
    s.holds who x = true ∨ earns cfg who s op = some x := by
  have hexecuted : ∀ origin call, (s.execute cfg origin call).holds who x = true →
      s.holds who x = true ∨
        ((s.dispatch cfg origin call).isOk = true ∧ call.makes cfg origin = some (who, x)) := by
    intro origin call hafter
    unfold execute at hafter
    split at hafter
    next after hok =>
      refine (holds_of_dispatch hok hafter).imp_right (fun hmakes => ⟨?_, hmakes⟩)
      rw [hok]
      rfl
    next => exact Or.inl hafter
  cases op with
  | nextBlock unixSecs =>
    have hsame : (s.nextBlock cfg unixSecs).holds who x = s.holds who x := by
      rw [Runtime.nextBlock, holds_of_writesFrontier observerOnInitialize_writes]
      cases x <;> rfl
    exact Or.inl (hsame ▸ hheld)
  | call origin call =>
    refine (hexecuted origin call hheld).imp_right (fun hmade => ?_)
    simp [earns, earns.made, hmade.1, hmade.2]
  | inherent obs =>
    have hdwindles : Dwindles s (s.observeSnapshot cfg obs) :=
      .of_register (observe_register _)
    exact Or.inl (hdwindles.holds (profile_of_social (observe_social _)) hheld)
  | extrinsic signer call len =>
    cases hcheck : s.checkCapacity cfg (.signed signer) call len with
    | error e =>
      simp only [step, applyExtrinsic, hcheck] at hheld
      exact Or.inl hheld
    | ok pre =>
      simp only [step, applyExtrinsic, hcheck] at hheld
      rw [holds_of_writesCapacity (postDispatch_writes pre)] at hheld
      refine (hexecuted _ call hheld).imp_right (fun hmade => ?_)
      have hadmitted : (s.checkCapacity cfg (.signed signer) call len).isOk = true := by
        rw [hcheck]
        rfl
      simp [earns, earns.made, hadmitted, hmade.1, hmade.2]

theorem spends_held {op : Op} (hspends : spends cfg who s op = some x) :
    s.holds who x = true ∧ (s.step cfg op).holds who x = false := by
  cases op with
  | nextBlock | inherent => cases hspends
  | call origin call =>
    cases origin with
    | authority | none => cases hspends
    | signed signer =>
      simp only [spends] at hspends
      split_ifs at hspends with hfree
      obtain ⟨rfl, hok⟩ := hfree
      obtain ⟨after, hafter⟩ := isOk_eq_true_iff.mp hok
      have hstep : s.step cfg (.call (.signed signer) call) = after := by
        rw [step, execute, hafter]
      rw [hstep]
      exact tidied_of_dispatch hspends hafter
  | extrinsic signer call len =>
    simp only [spends] at hspends
    split_ifs at hspends with hfree
    obtain ⟨rfl, hfeeless, hcost⟩ := hfree
    cases hcheck : s.checkCapacity cfg (.signed signer) call len with
    | error e =>
      rw [hcheck] at hcost
      cases hcost
    | ok pre =>
      have hheld := holds_of_admitted hspends hfeeless hcheck
      obtain ⟨after, hafter⟩ := dispatch_of_holds cfg hspends hheld
      have hstep : s.step cfg (.extrinsic signer call len) = after.postDispatch cfg pre := by
        simp only [step, applyExtrinsic, hcheck, execute, hafter]
      rw [hstep, holds_of_writesCapacity (postDispatch_writes pre)]
      exact tidied_of_dispatch hspends hafter

def Runtime.holdings (s : Runtime) (who : AccountId) : ℕ :=
  (Holding.all.map (fun x => (s.holds who x).toNat)).sum

theorem sum_holding (row : Option Holding) :
    (Holding.all.map (fun x => (decide (row = some x)).toNat)).sum = row.isSome.toNat := by
  cases row with
  | none => rfl
  | some x =>
    cases x with
    | role kind => cases kind <;> rfl
    | _ => rfl

theorem holdings_step (cfg : Config) (who : AccountId) (s : Runtime) (op : Op) :
    (spends cfg who s op).isSome.toNat + (s.step cfg op).holdings who ≤
      s.holdings who + (earns cfg who s op).isSome.toNat := by
  rw [← sum_holding, ← sum_holding, Runtime.holdings, Runtime.holdings, ← List.sum_map_add,
    ← List.sum_map_add]
  refine List.sum_le_sum (fun x _ => ?_)
  by_cases hspends : spends cfg who s op = some x
  · obtain ⟨hheld, hgone⟩ := spends_held hspends
    rw [hheld, hgone, decide_eq_true hspends]
    exact Nat.le_add_right _ _
  · rw [decide_eq_false hspends]
    cases hafter : (s.step cfg op).holds who x with
    | false => exact Nat.zero_le _
    | true =>
      rcases holds_of_step op hafter with hheld | hearns
      · rw [hheld]
        exact Nat.le_add_right _ _
      · rw [decide_eq_true hearns]
        exact Nat.le_add_left _ _

end Calls

/-- Nothing that can fail is free, and what is free is earned.  The bound holds for
every run and an operation that spends a row earns none, so the rows that free
calls take were made earlier. -/
theorem no_free_doomed_call (cfg : Config) (hpriced : cfg.Priced) :
    (∀ (s : Runtime) (who : AccountId) (call : RuntimeCall) (len : ℕ) (pre : Pre),
      call.metered = true → s.checkCapacity cfg (.signed who) call len = .ok pre →
        (0 < pre.cost ∧
          currentCapacity cfg ((s.execute cfg (.signed who) call).postDispatch cfg pre) who
              s.blockNumber + pre.cost = currentCapacity cfg s who s.blockNumber) ∨
        (pre.cost = 0 ∧ ∃ after, s.dispatch cfg (.signed who) call = .ok after)) ∧
    (∀ (s : Runtime) (who : AccountId) (call : RuntimeCall) (len : ℕ),
      (call = .gate .unlinkStake ∨ ∃ role, call = .roles (.unclaimRole role)) →
      call.feelessIf s who = true →
        s.checkCapacity cfg (.signed who) call len = .ok ⟨none, 0⟩ ∧
          ∃ after, s.dispatch cfg (.signed who) call = .ok after) ∧
    (∀ (s : Runtime) (who : AccountId) (ops : List Op), s.profile.profiles = ∅ →
      s.profile.pinnedPost = ∅ → s.gate.stakeCredOf = ∅ → s.roles.roleClaimOf = ∅ →
        sumAlong (step cfg) (fun s op => (spends cfg who s op).isSome.toNat) s ops ≤
          sumAlong (step cfg) (fun s op => (earns cfg who s op).isSome.toNat) s ops) := by
  refine ⟨fun s who call len pre hmetered hcheck => ?_, fun s who call len hcall hfeeless => ?_,
    fun s who ops hprofiles hpins hstakes hclaims => ?_⟩
  · obtain ⟨need, hneed⟩ := meteredNeed_isSome cfg s who hmetered
    rcases checkCapacity_ok hcheck with ⟨-, hnone⟩ | ⟨hwho, hcost, -⟩
    · rw [hneed] at hnone
      cases hnone
    rcases Nat.eq_zero_or_pos pre.cost with hzero | hpos
    · refine Or.inr ⟨hzero, ?_⟩
      rw [hzero] at hcost
      obtain ⟨x, htidies⟩ := tidies_of_cost_zero hpriced hcost
      exact dispatch_of_holds cfg htidies
        (holds_of_admitted htidies (feelessIf_of_metered hmetered) hcheck)
    · exact Or.inl ⟨hpos, charged_exactly hcheck hwho⟩
  · rcases hcall with rfl | ⟨role, rfl⟩
    · exact ⟨rfl, dispatch_of_holds cfg rfl hfeeless⟩
    · exact ⟨rfl, dispatch_of_holds cfg rfl hfeeless⟩
  · have hrows : s.holdings who = 0 := by
      simp [Runtime.holdings, Holding.all, Runtime.holds, hprofiles, hpins, hstakes, hclaims]
    have hrun := sumAlong_le_potential (fun s : Runtime => s.holdings who) (holdings_step cfg who)
      s ops
    omega

def tidyOps : List Op :=
  [.nextBlock 0,
    .call .none (.gate (.linkIdentitySigned ⟨[1, 5], []⟩)),
    .call (.signed ⟨1⟩) (.profile (.setProfile ⟨[65], [], [], [], [], []⟩)),
    .call .none (.gate (.linkStakeSigned ⟨[1, 9, 0], []⟩)),
    .extrinsic ⟨1⟩ (.profile .clearProfile) 0,
    .extrinsic ⟨1⟩ (.gate .unlinkStake) 0]

theorem no_free_doomed_call_tidyOps :
    sumAlong (step Config.toy) (fun s op => (spends Config.toy ⟨1⟩ s op).isSome.toNat)
        genesis tidyOps = 2 ∧
      2 ≤ sumAlong (step Config.toy)
        (fun s op => (earns Config.toy ⟨1⟩ s op).isSome.toNat) genesis tidyOps := by
  have hpriced : Config.toy.Priced := ⟨by decide, by decide, by decide, by decide⟩
  have hspent : sumAlong (step Config.toy)
      (fun s op => (spends Config.toy ⟨1⟩ s op).isSome.toNat) genesis tidyOps = 2 := by
    decide +kernel
  obtain ⟨-, -, hearned⟩ := no_free_doomed_call Config.toy hpriced
  exact ⟨hspent, hspent ▸ hearned genesis ⟨1⟩ tidyOps rfl rfl rfl rfl⟩

end CognoChain
