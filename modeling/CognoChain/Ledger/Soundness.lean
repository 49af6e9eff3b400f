import CognoChain.Ledger.Moves

/-!
# Soundness of the observed ledgers

Every stored weight is backed by the basis row that will take it back.  The
vault axis keeps rows of revoked identities until they are cleared, so its
invariant lets a row name an identity that is tombstoned; the stake axis tears
a row down with its bind, so each of its rows is bound.  An account's badges
are what its basis row last wrote.
-/

namespace CognoChain

open Substrate CognoChain.Runtime StorageMap DeltaLedger

/-! ## Vault weights -/

structure Axes.VaultSound (a : Axes) : Prop where
  ledger : a.vault.Sound
  inverse : a.binds.pkhOf.Inverse a.binds.accountOf
  banned : ∀ {identity}, (a.binds.tombstoned.get identity).isSome →
    a.binds.accountOf.get identity = none
  rows : ∀ {identity account weight}, a.vault.basis.get identity = some (account, weight) →
    a.binds.accountOf.get identity = some account ∨
      (a.binds.tombstoned.get identity).isSome

namespace Axes.VaultSound

variable {cfg : Config} {a : Axes} {account : AccountId} {identity : IdentityHash}

theorem afterBind (hsound : a.VaultSound)
    (htombstoned : a.binds.tombstoned.get identity = none)
    (haccount : a.binds.pkhOf.get account = none)
    (hidentity : a.binds.accountOf.get identity = none) :
    VaultSound { a with binds := { a.binds with
      pkhOf := a.binds.pkhOf.insert account identity
      accountOf := a.binds.accountOf.insert identity account } } := by
  constructor
  · exact hsound.ledger
  · exact hsound.inverse.insert haccount hidentity
  · intro other hother
    have hne : other ≠ identity := by
      rintro rfl
      simp [htombstoned] at hother
    simp only [get_insert_of_ne _ _ hne]
    exact hsound.banned hother
  · intro other who weight hrow
    rcases hsound.rows hrow with hbound | hbanned
    · have hne : other ≠ identity := by
        rintro rfl
        rw [hidentity] at hbound
        cases hbound
      simp only [get_insert_of_ne _ _ hne]
      exact Or.inl hbound
    · exact Or.inr hbanned

/-- A revoke keeps the row of the identity it bans: the weight stands until
the observer takes it back. -/
theorem afterRelease (hsound : a.VaultSound)
    (hbound : a.binds.pkhOf.get account = some identity) :
    VaultSound { a with binds := { a.binds with
      pkhOf := a.binds.pkhOf.remove account
      accountOf := a.binds.accountOf.remove identity
      tombstoned := a.binds.tombstoned.insert identity () } } := by
  constructor
  · exact hsound.ledger
  · exact hsound.inverse.remove hbound
  · intro other hother
    by_cases hsame : other = identity
    · rw [hsame]
      exact get_remove_self _ _
    · simp only [get_insert_of_ne _ _ hsame] at hother
      simp only [get_remove_of_ne _ hsame]
      exact hsound.banned hother
  · intro other who weight hrow
    by_cases hsame : other = identity
    · right
      simp [hsame]
    · simp only [get_remove_of_ne _ hsame, get_insert_of_ne _ _ hsame]
      exact hsound.rows hrow

theorem afterObserve (hsound : a.VaultSound)
    {desired : StorageMap BeaconName (AccountId × ℕ)}
    (hadmissible : Admissible a.binds.accountOf.get (vaultAccept cfg) desired)
    (stake : DeltaLedger StakeCredential AccountId) (roles : RoleLedger) (page : ℕ) :
    VaultSound { a with
      vault := ((pagedDelta desired a.vault.basis (fun _ => true)).take page).foldl
        (applyChange a.binds.accountOf.get (vaultAccept cfg)) a.vault
      stake := stake
      roles := roles } := by
  obtain ⟨hledger, hrows⟩ := hsound.ledger.applyPage (fun _ => true) hadmissible
    (fun hk hk' => hsound.inverse.injective hk hk')
    (by
      -- a banned identity resolves to nobody
      intro k who weight other hrow hresolve
      rcases hsound.rows hrow with hbound | hbanned
      · exact Option.some.inj (hresolve.symm.trans hbound)
      · rw [hsound.banned hbanned] at hresolve
        cases hresolve)
    (fun _ _ => rfl) page
  constructor
  · exact hledger
  · exact hsound.inverse
  · exact hsound.banned
  · intro k who weight hrow
    rcases hrows k who weight hrow with hresolve | hold
    · exact Or.inl hresolve
    · exact hsound.rows hold

theorem move {b : Axes} (hmove : AxesMove cfg a b) (hsound : a.VaultSound) :
    b.VaultSound := by
  cases hmove with
  | bind account identity htombstoned haccount hidentity =>
    exact hsound.afterBind htombstoned haccount hidentity
  | release account identity hbound => exact hsound.afterRelease hbound
  | bindStake account stakeCred haccount hstakeCred =>
    exact ⟨hsound.ledger, hsound.inverse, hsound.banned, hsound.rows⟩
  | unlinkStake account stakeCred hbound =>
    exact ⟨hsound.ledger, hsound.inverse, hsound.banned, hsound.rows⟩
  | tombstoneStake stakeCred =>
    exact ⟨hsound.ledger, hsound.inverse, hsound.banned, hsound.rows⟩
  | dropBadges account roles hbasis hself hother =>
    exact ⟨hsound.ledger, hsound.inverse, hsound.banned, hsound.rows⟩
  | observe vaultRows stakeRows clears roleChanges page hvault hstake hroles =>
    exact hsound.afterObserve hvault _ _ page

theorem initial {s : Runtime} (hweights : s.talkStake.allowedStake = ∅)
    (hbasis : s.observer.lastObserved = ∅) (hgate : s.gate = {}) : s.axes.VaultSound := by
  have hledger : s.axes.vault = ⟨∅, ∅⟩ := by
    simp only [axes, vaultLedger, hweights, hbasis]
  have hbinds : s.axes.binds = ⟨∅, ∅, ∅, ∅, ∅, ∅⟩ := by
    simp only [axes, hgate]
    rfl
  constructor
  · rw [hledger]
    exact Sound.empty
  · rw [hbinds]
    exact Inverse.empty
  · intro identity hbanned
    simp [hbinds] at hbanned
  · intro identity account weight hrow
    simp [hledger] at hrow

end Axes.VaultSound

/-- In every reachable state at most one basis row names an account, and the
account's weight is the weight of that row, or zero when there is none. -/
theorem vaultWeight_backed (cfg : Config) (start : Runtime) (ops : List Op)
    (hweights : start.talkStake.allowedStake = ∅)
    (hbasis : start.observer.lastObserved = ∅) (hgate : start.gate = {})
    (hderived : ∀ op ∈ ops, op.derived) :
    (∀ beacon beacon' account weight weight',
      (start.run cfg ops).observer.lastObserved.get beacon = some (account, weight) →
      (start.run cfg ops).observer.lastObserved.get beacon' = some (account, weight') →
      beacon = beacon') ∧
    (∀ beacon account weight,
      (start.run cfg ops).observer.lastObserved.get beacon = some (account, weight) →
      (start.run cfg ops).weightOf account = weight) ∧
    (∀ account,
      (∀ beacon weight,
        (start.run cfg ops).observer.lastObserved.get beacon ≠ some (account, weight)) →
      (start.run cfg ops).weightOf account = 0) := by
  have hmoves : AxesMoves cfg start.axes (start.run cfg ops).axes := run_axes hderived
  have hsound : (start.run cfg ops).axes.VaultSound :=
    reach_invariant Axes.VaultSound (fun _ _ hmove hinv => hinv.move hmove) hmoves
      (.initial hweights hbasis hgate)
  refine ⟨?_, ?_, ?_⟩
  · intro beacon beacon' account weight weight' hrow hrow'
    exact hsound.ledger.unique hrow hrow'
  · intro beacon account weight hrow
    exact hsound.ledger.backed hrow
  · intro account hnone
    exact hsound.ledger.unbacked hnone

def rebindOps : List Op :=
  [.nextBlock 0,
    .call .none (.gate (.linkIdentitySigned ⟨[1, 5], []⟩)),
    .inherent ⟨⟨10, 0⟩, 0, [(⟨5⟩, 200000000)], [], []⟩,
    .call .authority (.gate (.revoke ⟨1⟩)),
    .call .none (.gate (.linkIdentitySigned ⟨[1, 6], []⟩)),
    .inherent ⟨⟨20, 0⟩, 0, [(⟨5⟩, 200000000), (⟨6⟩, 300000000)], [], []⟩]

theorem vaultWeight_backed_rebind :
    (genesis.run Config.toy rebindOps).observer.lastObserved.entries =
        [(⟨6⟩, ⟨1⟩, 300000000)] ∧
      (genesis.run Config.toy rebindOps).weightOf ⟨1⟩ = 300000000 := by
  have hbacked := vaultWeight_backed Config.toy .genesis rebindOps rfl rfl rfl (by decide)
  exact ⟨by decide +kernel, hbacked.2.1 ⟨6⟩ ⟨1⟩ 300000000 (by decide +kernel)⟩

/-! ## Voting power -/

structure Axes.StakeSound (a : Axes) : Prop where
  ledger : a.stake.Sound
  inverse : a.binds.stakeCredOf.Inverse a.binds.accountOfStakeCred
  rows : ∀ {stakeCred account total}, a.stake.basis.get stakeCred = some (account, total) →
    a.binds.accountOfStakeCred.get stakeCred = some account

namespace Axes.StakeSound

variable {cfg : Config} {a : Axes} {account : AccountId} {stakeCred : StakeCredential}

theorem afterBindStake (hsound : a.StakeSound)
    (haccount : a.binds.stakeCredOf.get account = none)
    (hstakeCred : a.binds.accountOfStakeCred.get stakeCred = none) :
    StakeSound { a with binds := { a.binds with
      stakeCredOf := a.binds.stakeCredOf.insert account stakeCred
      accountOfStakeCred := a.binds.accountOfStakeCred.insert stakeCred account } } := by
  constructor
  · exact hsound.ledger
  · exact hsound.inverse.insert haccount hstakeCred
  · intro other who total hrow
    have hbound := hsound.rows hrow
    have hne : other ≠ stakeCred := by
      rintro rfl
      rw [hstakeCred] at hbound
      cases hbound
    simp only [get_insert_of_ne _ _ hne]
    exact hbound

/-- The row of a released credential goes with its bind. -/
theorem afterUnlinkStake (hsound : a.StakeSound)
    (hbound : a.binds.stakeCredOf.get account = some stakeCred) :
    StakeSound { a with
      stake := a.stake.clear stakeCred account
      binds := { a.binds with
        stakeCredOf := a.binds.stakeCredOf.remove account
        accountOfStakeCred := a.binds.accountOfStakeCred.remove stakeCred } } := by
  have hresolve : a.binds.accountOfStakeCred.get stakeCred = some account :=
    (hsound.inverse account stakeCred).mp hbound
  constructor
  · show (a.stake.clear stakeCred account).Sound
    cases hrow : a.stake.basis.get stakeCred with
    | none =>
      have hunnamed : ∀ other total, a.stake.basis.get other ≠ some (account, total) := by
        intro other total hother
        have hsame := hsound.inverse.injective (hsound.rows hother) hresolve
        rw [hsame, hrow] at hother
        cases hother
      rw [hsound.ledger.clear_eq_self hrow hunnamed]
      exact hsound.ledger
    | some row =>
      obtain ⟨owner, total⟩ := row
      have howner : owner = account :=
        Option.some.inj ((hsound.rows hrow).symm.trans hresolve)
      rw [howner] at hrow
      exact hsound.ledger.clear hrow
  · exact hsound.inverse.remove hbound
  · intro other who total hrow
    have hne : other ≠ stakeCred := by
      rintro rfl
      simp at hrow
    simp only [clear_basis, get_remove_of_ne _ hne] at hrow
    simp only [get_remove_of_ne _ hne]
    exact hsound.rows hrow

theorem afterObserve (hsound : a.StakeSound)
    {desired : StorageMap StakeCredential (AccountId × ℕ)} (clears : AccountId → Bool)
    (hadmissible :
      Admissible a.binds.accountOfStakeCred.get (stakeAccept cfg) desired)
    (vault : DeltaLedger BeaconName AccountId) (roles : RoleLedger) (page : ℕ) :
    StakeSound { a with
      vault := vault
      stake := ((pagedDelta desired a.stake.basis clears).take page).foldl
        (applyChange a.binds.accountOfStakeCred.get (stakeAccept cfg)) a.stake
      roles := roles } := by
  obtain ⟨hledger, hrows⟩ := hsound.ledger.applyPage clears hadmissible
    (fun hk hk' => hsound.inverse.injective hk hk')
    (fun hrow hresolve => Option.some.inj (hresolve.symm.trans (hsound.rows hrow)))
    (by
      intro k who total hrow hresolve
      rw [hsound.rows hrow] at hresolve
      cases hresolve)
    page
  constructor
  · exact hledger
  · exact hsound.inverse
  · intro k who total hrow
    rcases hrows k who total hrow with hresolve | hold
    · exact hresolve
    · exact hsound.rows hold

theorem move {b : Axes} (hmove : AxesMove cfg a b) (hsound : a.StakeSound) :
    b.StakeSound := by
  cases hmove with
  | bind account identity htombstoned haccount hidentity =>
    exact ⟨hsound.ledger, hsound.inverse, hsound.rows⟩
  | release account identity hbound => exact ⟨hsound.ledger, hsound.inverse, hsound.rows⟩
  | bindStake account stakeCred haccount hstakeCred =>
    exact hsound.afterBindStake haccount hstakeCred
  | unlinkStake account stakeCred hbound => exact hsound.afterUnlinkStake hbound
  | tombstoneStake stakeCred => exact ⟨hsound.ledger, hsound.inverse, hsound.rows⟩
  | dropBadges account roles hbasis hself hother =>
    exact ⟨hsound.ledger, hsound.inverse, hsound.rows⟩
  | observe vaultRows stakeRows clears roleChanges page hvault hstake hroles =>
    exact hsound.afterObserve clears hstake _ _ page

theorem initial {s : Runtime} (hpower : s.talkStake.votingPower = ∅)
    (hbasis : s.observer.lastObservedStake = ∅) (hgate : s.gate = {}) :
    s.axes.StakeSound := by
  have hledger : s.axes.stake = ⟨∅, ∅⟩ := by
    simp only [axes, stakeLedger, hpower, hbasis]
  have hbinds : s.axes.binds = ⟨∅, ∅, ∅, ∅, ∅, ∅⟩ := by
    simp only [axes, hgate]
    rfl
  constructor
  · rw [hledger]
    exact Sound.empty
  · rw [hbinds]
    exact Inverse.empty
  · intro stakeCred account total hrow
    simp [hledger] at hrow

end Axes.StakeSound

/-! ## Badges -/

/-- Badges are the bounded form of the basis row, and there are none without a
row. -/
structure RoleLedger.Sound (l : RoleLedger) : Prop where
  backed : ∀ {who roles}, l.basis.get who = some roles →
    l.badgesOf who = boundObservedRoles roles ∧ boundObservedRoles roles ≠ []
  unbacked : ∀ {who}, l.basis.get who = none → l.badgesOf who = []

theorem RoleLedger.Sound.dropBadges {l after : RoleLedger} {account : AccountId}
    (hsound : l.Sound) (hbasis : after.basis = l.basis.remove account)
    (hself : after.badgesOf account = [])
    (hother : ∀ other, other ≠ account → after.badgesOf other = l.badgesOf other) :
    after.Sound := by
  constructor
  · intro who roles hrow
    have hne : who ≠ account := by
      rintro rfl
      simp [hbasis] at hrow
    rw [hbasis, get_remove_of_ne _ hne] at hrow
    rw [hother who hne]
    exact hsound.backed hrow
  · intro who hrow
    by_cases hsame : who = account
    · rw [hsame, hself]
    · rw [hbasis, get_remove_of_ne _ hsame] at hrow
      rw [hother who hsame]
      exact hsound.unbacked hrow

theorem RoleLedger.Sound.applyChange {l : RoleLedger} {change : RoleChange}
    (hsound : l.Sound) (hknown : change.Known) : (l.applyChange change).Sound := by
  have hclear : RoleLedger.Sound { l.assign change.who [] with
      basis := l.basis.remove change.who } :=
    hsound.dropBadges rfl (RoleLedger.assign_badgesOf_self [])
      (fun other hne => RoleLedger.assign_badgesOf_of_ne [] hne)
  obtain ⟨account, roles⟩ := change
  match roles with
  | none => exact hclear
  | some [] => exact hclear
  | some (role :: roles) =>
    have hkind : role.1 < 3 := hknown _ rfl role List.mem_cons_self
    constructor
    · intro who row hrow
      by_cases hsame : who = account
      · subst hsame
        simp only [RoleLedger.applyChange, get_insert_self] at hrow
        rw [← Option.some.inj hrow]
        exact ⟨RoleLedger.assign_badgesOf_self _,
          boundObservedRoles_ne_nil List.mem_cons_self hkind⟩
      · rw [RoleLedger.applyChange_get_of_ne hsame] at hrow
        rw [RoleLedger.applyChange_badgesOf_of_ne hsame]
        exact hsound.backed hrow
    · intro who hrow
      by_cases hsame : who = account
      · subst hsame
        simp [RoleLedger.applyChange] at hrow
      · rw [RoleLedger.applyChange_get_of_ne hsame] at hrow
        rw [RoleLedger.applyChange_badgesOf_of_ne hsame]
        exact hsound.unbacked hrow

theorem RoleLedger.Sound.foldl_applyChange {l : RoleLedger} {changes : List RoleChange}
    (hsound : l.Sound) (hknown : ∀ change ∈ changes, change.Known) :
    (changes.foldl RoleLedger.applyChange l).Sound := by
  induction changes generalizing l with
  | nil => exact hsound
  | cons change changes ih =>
    exact ih (hsound.applyChange (hknown change List.mem_cons_self))
      (fun later hlater => hknown later (List.mem_cons_of_mem _ hlater))

theorem RoleLedger.Sound.move {cfg : Config} {a b : Axes} (hmove : AxesMove cfg a b)
    (hsound : a.roles.Sound) : b.roles.Sound := by
  cases hmove with
  | dropBadges account roles hbasis hself hother => exact hsound.dropBadges hbasis hself hother
  | observe vaultRows stakeRows clears roleChanges page hvault hstake hroles =>
    exact hsound.foldl_applyChange hroles
  | _ => exact hsound

/-- In every reachable state the voting power of an account is that of the one
stake row naming it, whose credential is bound to it, and its badges are the
bounded form of its role row. -/
theorem votingPower_and_badges_backed (cfg : Config) (start : Runtime) (ops : List Op)
    (hpower : start.talkStake.votingPower = ∅)
    (hstake : start.observer.lastObservedStake = ∅)
    (hbadges : start.roles.observedRoles = ∅)
    (hroles : start.observer.lastObservedRoles = ∅) (hgate : start.gate = {})
    (hderived : ∀ op ∈ ops, op.derived) :
    ((∀ stakeCred account total,
        (start.run cfg ops).observer.lastObservedStake.get stakeCred = some (account, total) →
        (start.run cfg ops).gate.accountOfStakeCred.get stakeCred = some account ∧
          (start.run cfg ops).talkStake.votingPower.getD account 0 = total) ∧
      (∀ stakeCred stakeCred' account total total',
        (start.run cfg ops).observer.lastObservedStake.get stakeCred = some (account, total) →
        (start.run cfg ops).observer.lastObservedStake.get stakeCred' = some (account, total') →
        stakeCred = stakeCred') ∧
      (∀ account,
        (∀ stakeCred total, (start.run cfg ops).observer.lastObservedStake.get stakeCred ≠
          some (account, total)) →
        (start.run cfg ops).talkStake.votingPower.getD account 0 = 0)) ∧
    (∀ account,
      (start.run cfg ops).observedRolesOf account =
          boundObservedRoles ((start.run cfg ops).observer.lastObservedRoles.getD account []) ∧
        ((start.run cfg ops).observedRolesOf account = [] ↔
          (start.run cfg ops).observer.lastObservedRoles.get account = none)) := by
  have hmoves : AxesMoves cfg start.axes (start.run cfg ops).axes := run_axes hderived
  have hpowers : (start.run cfg ops).axes.StakeSound :=
    reach_invariant Axes.StakeSound (fun _ _ hmove hinv => hinv.move hmove) hmoves
      (.initial hpower hstake hgate)
  have hsets : (start.run cfg ops).roleLedger.Sound := by
    apply reach_invariant (fun a : Axes => a.roles.Sound)
      (fun _ _ hmove hinv => hinv.move hmove) hmoves
    have hempty : start.axes.roles = ⟨∅, ∅⟩ := by
      simp only [axes, roleLedger, hbadges, hroles]
    rw [hempty]
    exact ⟨fun hrow => by simp at hrow, fun _ => rfl⟩
  refine ⟨⟨?_, ?_, ?_⟩, ?_⟩
  · intro stakeCred account total hrow
    exact ⟨hpowers.rows hrow, hpowers.ledger.backed hrow⟩
  · intro stakeCred stakeCred' account total total' hrow hrow'
    exact hpowers.ledger.unique hrow hrow'
  · intro account hnone
    exact hpowers.ledger.unbacked hnone
  · intro account
    cases hrow : (start.run cfg ops).observer.lastObservedRoles.get account with
    | none =>
        have hnone : (start.run cfg ops).observedRolesOf account = [] := hsets.unbacked hrow
        rw [hnone, getD_of_get_none hrow]
        exact ⟨rfl, by simp⟩
    | some roles =>
        obtain ⟨hsame, hsome⟩ := hsets.backed hrow
        have hset : (start.run cfg ops).observedRolesOf account = boundObservedRoles roles :=
          hsame
        rw [hset, getD_of_get_some hrow]
        exact ⟨rfl, by simp [hsome]⟩

def relinkOps : List Op :=
  [.nextBlock 0,
    .call .none (.gate (.linkIdentitySigned ⟨[1, 5], []⟩)),
    .call .none (.gate (.linkStakeSigned ⟨[1, 7, 0], []⟩)),
    .inherent ⟨⟨10, 0⟩, 0, [], [(⟨7⟩, 800)], [⟨.spoOwner, ⟨7⟩, ⟨3⟩, 50⟩]⟩,
    .call (.signed ⟨1⟩) (.gate .unlinkStake),
    .call .none (.gate (.linkStakeSigned ⟨[1, 7, 1], []⟩)),
    .inherent ⟨⟨20, 0⟩, 0, [], [(⟨7⟩, 900)], [⟨.spoOwner, ⟨7⟩, ⟨3⟩, 60⟩]⟩]

theorem votingPower_and_badges_backed_relink :
    (genesis.run Config.toy relinkOps).talkStake.votingPower.getD ⟨1⟩ 0 = 900 ∧
      (genesis.run Config.toy relinkOps).observedRolesOf ⟨1⟩ =
        boundObservedRoles [(0, ⟨3⟩, 60)] := by
  have hbacked := votingPower_and_badges_backed Config.toy .genesis relinkOps
    rfl rfl rfl rfl rfl (by decide)
  have hrow : (genesis.run Config.toy relinkOps).observer.lastObservedRoles.getD ⟨1⟩ [] =
      [(0, ⟨3⟩, 60)] := by decide +kernel
  refine ⟨(hbacked.1.1 ⟨7⟩ ⟨1⟩ 900 (by decide +kernel)).2, ?_⟩
  rw [(hbacked.2 ⟨1⟩).1, hrow]

end CognoChain
