import CognoChain.Ledger.Convergence
import CognoChain.Ledger.Coverage
import CognoChain.Ledger.Registers
import CognoChain.Ledger.Soundness

/-!
# A sweep of windows and a scan of everyone

Each block looks at the accounts of one window only.  An account is in a window
with all its credentials or with none, so a block settles the accounts of its
window, clears those no window reaches, and leaves the others alone.  Once the
cursor has gone around, the ledgers are those of one scan of all credentials.
-/

namespace CognoChain

open Substrate CognoChain.Runtime StorageMap SlotTable DeltaLedger

/-! ## What a snapshot shows of an account -/

def CardanoObservation.stakeTotal (obs : CardanoObservation) (cred : StakeCredential) :
    Option ℕ :=
  (obs.stakeEntries.filter (fun entry => entry.1 = cred)).getLast?.map Prod.snd

namespace Runtime

def heldFor (s : Runtime) (account : AccountId) : RoleSource → Option RoleCredential
  | .spoCalidus => s.roles.roleClaimOf.get (account, .spo)
  | .spoOwner => s.gate.stakeCredOf.get account
  | .dRep => s.roles.roleClaimOf.get (account, .dRep)
  | .committee => s.roles.roleClaimOf.get (account, .committee)

def shownPower (s : Runtime) (obs : CardanoObservation) (account : AccountId) : ℕ :=
  ((s.gate.stakeCredOf.get account).bind obs.stakeTotal).getD 0

/-- The roles of the entries for credentials the account holds, one for each
kind and id. -/
def shownRoles (s : Runtime) (obs : CardanoObservation) (account : AccountId) :
    List RoleTuple :=
  (obs.roleEntries.filter
    (fun entry => s.heldFor account entry.source = some entry.credential)).foldl
    (fun set entry => addRole set (entry.source.kindIndex, entry.id, entry.weight)) []

def shownRow (cfg : Config) (s : Runtime) (obs : CardanoObservation) (account : AccountId) :
    Option (List RoleTuple) :=
  if s.shownRoles obs account = [] then none
  else some (boundedRoles cfg (s.shownRoles obs account))

end Runtime

/-- What of a snapshot of everything a node reads when it asks for the
credentials of some accounts. -/
structure ScopedTo (s : Runtime) (accounts : List AccountId) (cardano obs : CardanoObservation) :
    Prop where
  stake : obs.stakeEntries = cardano.stakeEntries.filter
    (fun entry => entry.1 ∈ s.gate.stakeCredentialsOf accounts)
  roles : obs.roleEntries = cardano.roleEntries.filter
    (fun entry => entry.credential ∈ s.scannedCredentials accounts entry.source)

/-- Binds and claims are one to one, and the observed ledgers are backed. -/
structure Observable (s : Runtime) : Prop where
  stake : s.axes.StakeSound
  roles : s.roleLedger.Sound
  claims : ∀ role, (s.register.claims role).Sound

section Scope

variable {s : Runtime} {accounts : List AccountId} {cardano obs : CardanoObservation}
  {account : AccountId} {cred : Credential} {source : RoleSource}

theorem Observable.resolveStake_iff (hobs : Observable s) :
    s.resolveStake cred = some account ↔ s.gate.stakeCredOf.get account = some cred :=
  (hobs.stake.inverse account cred).symm

theorem Observable.resolveRole_iff (hobs : Observable s) :
    s.resolveRole source cred = some account ↔ s.heldFor account source = some cred := by
  cases source with
  | spoCalidus => exact (hobs.claims .spo account cred).symm
  | spoOwner => exact hobs.resolveStake_iff
  | dRep => exact (hobs.claims .dRep account cred).symm
  | committee => exact (hobs.claims .committee account cred).symm

theorem mem_stakeCredentialsOf {g : GateStore} :
    cred ∈ g.stakeCredentialsOf accounts ↔
      ∃ account ∈ accounts, g.stakeCredOf.get account = some cred := by
  rw [GateStore.stakeCredentialsOf, StorageMap.mem_sortedSet, List.mem_filterMap]

theorem mem_scannedCredentials :
    cred ∈ s.scannedCredentials accounts source ↔
      ∃ account ∈ accounts, s.heldFor account source = some cred := by
  cases source with
  | spoOwner => exact mem_stakeCredentialsOf
  | _ =>
    simp only [scannedCredentials, RoleStore.claimedCredentialsOf,
      StorageMap.mem_sortedSet, List.mem_filterMap]
    rfl

theorem Observable.mem_scannedCredentials_iff (hobs : Observable s)
    (hheld : s.heldFor account source = some cred) :
    cred ∈ s.scannedCredentials accounts source ↔ account ∈ accounts := by
  rw [mem_scannedCredentials]
  constructor
  · rintro ⟨other, hother, hcred⟩
    have hsame := (hobs.resolveRole_iff.mpr hcred).symm.trans (hobs.resolveRole_iff.mpr hheld)
    rwa [← Option.some.inj hsame]
  · exact fun hmem => ⟨account, hmem, hheld⟩

theorem filter_filter_of_iff {α : Type} {p q : α → Bool} {c : Prop} [Decidable c]
    (hiff : ∀ x, p x = true → (q x = true ↔ c)) (xs : List α) :
    (xs.filter q).filter p = if c then xs.filter p else [] := by
  rw [List.filter_filter]
  split_ifs with hc
  · apply List.filter_congr
    intro x _
    cases hp : p x with
    | true => rw [(hiff x hp).mpr hc, Bool.and_true]
    | false => rfl
  · rw [List.filter_eq_nil_iff]
    intro x _ hboth
    rw [Bool.and_eq_true] at hboth
    exact hc ((hiff x hboth.1).mp hboth.2)

theorem ScopedTo.stakeTotal (hscoped : ScopedTo s accounts cardano obs) (hobs : Observable s)
    (hheld : s.gate.stakeCredOf.get account = some cred) :
    obs.stakeTotal cred = if account ∈ accounts then cardano.stakeTotal cred else none := by
  have hasked : cred ∈ s.scannedCredentials accounts .spoOwner ↔ account ∈ accounts :=
    hobs.mem_scannedCredentials_iff hheld
  unfold CardanoObservation.stakeTotal
  rw [hscoped.stake, filter_filter_of_iff (c := account ∈ accounts)]
  · split_ifs <;> rfl
  · intro entry hentry
    rw [decide_eq_true_iff] at hentry ⊢
    rwa [hentry]

theorem ScopedTo.shownRoles (hscoped : ScopedTo s accounts cardano obs) (hobs : Observable s) :
    s.shownRoles obs account = if account ∈ accounts then s.shownRoles cardano account else [] := by
  unfold Runtime.shownRoles
  rw [hscoped.roles, filter_filter_of_iff (c := account ∈ accounts)]
  · split_ifs <;> rfl
  · intro entry hentry
    rw [decide_eq_true_iff] at hentry ⊢
    exact hobs.mem_scannedCredentials_iff hentry

end Scope

/-! ## What is desired -/

section Desired

variable {cfg : Config} {s : Runtime} {obs : CardanoObservation}

theorem desiredRows_get_eq {resolve : StakeCredential → Option AccountId} {bound : ℕ}
    {entries : List (StakeCredential × ℕ)} (hcap : ∀ entry ∈ entries, entry.2 ≤ bound)
    (cred : StakeCredential) :
    (desiredRows resolve id bound entries).get cred =
      (resolve cred).bind (fun account =>
        (entries.filter (fun entry => entry.1 = cred)).getLast?.map
          (fun entry => (account, entry.2))) := by
  induction entries using List.reverseRecOn with
  | nil =>
    cases resolve cred <;> rfl
  | append_singleton entries entry ih =>
    have hcapped := ih (fun other hother => hcap other (List.mem_append_left _ hother))
    have hle : ¬ bound < entry.2 :=
      Nat.not_lt.mpr (hcap entry (List.mem_append_right _ (List.mem_singleton_self _)))
    have hstep : desiredRows resolve id bound (entries ++ [entry]) =
        (resolve entry.1).elim (desiredRows resolve id bound entries) (fun account =>
          (desiredRows resolve id bound entries).insert entry.1
            (account, entry.2)) := by
      unfold desiredRows
      rw [List.foldl_append]
      cases hresolve : resolve entry.1 with
      | none => simp [hresolve]
      | some account => simp [hresolve, hle]
    rw [hstep, List.filter_append]
    by_cases hcred : entry.1 = cred
    · rw [hcred]
      cases hresolve : resolve cred with
      | none =>
        rw [hresolve] at hcapped
        simpa using hcapped
      | some account => simp [hcred]
    · have hother : List.filter (fun entry => decide (entry.1 = cred)) [entry] = [] := by
        simp [hcred]
      rw [hother, List.append_nil, ← hcapped]
      cases resolve entry.1 with
      | none => rfl
      | some account => exact get_insert_of_ne _ _ (Ne.symm hcred)

theorem stakeDesired_get (hcap : ∀ entry ∈ obs.stakeEntries, entry.2 ≤ cfg.maxVotingPower)
    (cred : StakeCredential) :
    (s.stakeDesired cfg obs).get cred = (s.resolveStake cred).bind (fun account =>
      (obs.stakeTotal cred).map (fun total => (account, total))) := by
  unfold stakeDesired CardanoObservation.stakeTotal
  rw [desiredRows_get_eq hcap]
  simp only [Option.map_map]
  rfl

theorem Observable.roleDesired_get (hobs : Observable s) (obs : CardanoObservation)
    (account : AccountId) :
    (s.roleDesired obs).get account =
      if s.shownRoles obs account = [] then none else some (s.shownRoles obs account) := by
  have hheld : obs.roleEntries.filter (fun entry =>
      decide (s.resolveRole entry.source entry.credential = some account)) =
        obs.roleEntries.filter (fun entry =>
          decide (s.heldFor account entry.source = some entry.credential)) :=
    List.filter_congr (fun entry _ => decide_eq_decide.mpr hobs.resolveRole_iff)
  rw [Runtime.roleDesired_get, hheld, Runtime.shownRoles]
  generalize obs.roleEntries.filter _ = entries
  induction entries using List.reverseRecOn with
  | nil => rfl
  | append_singleton entries entry ih =>
    simp only [List.foldl_append, List.foldl_cons, List.foldl_nil, ih, desiredRow]
    rw [if_neg (addRole_ne_nil _ _)]
    split_ifs with hempty
    · rw [hempty]
      rfl
    · rfl

end Desired

/-! ## What a whole delta leaves -/

/-- Both windowed axes have moved by everything a snapshot changes. -/
structure AppliesWhole (cfg : Config) (s : Runtime) (obs : CardanoObservation)
    (after : Runtime) : Prop where
  stake : after.stakeLedger = (s.stakeDelta cfg obs).foldl
    (applyChange s.resolveStake (stakeAccept cfg)) s.stakeLedger
  roles : after.roleLedger = (s.roleDelta cfg obs).foldl RoleLedger.applyChange s.roleLedger
  gate : after.gate = s.gate
  register : after.register = s.register

section Applied

variable {cfg : Config} {s after : Runtime} {obs : CardanoObservation} {account : AccountId}
  {cred : StakeCredential}

theorem Runtime.observeSnapshot_appliesWhole (haccepts : s.accepts cfg obs.reference)
    (henforce : s.observer.enforceWeight = true)
    (hstake : (s.stakeDelta cfg obs).length ≤ cfg.maxChangesPerBlock)
    (hroles : (s.roleDelta cfg obs).length ≤ cfg.maxChangesPerBlock) :
    AppliesWhole cfg s obs (s.observeSnapshot cfg obs) := by
  have haxes : AppliesAxes cfg s (s.deriveCall cfg obs) (s.observeSnapshot cfg obs) :=
    observe_axes haccepts henforce
  constructor
  · rw [haxes.stake, deriveCall, List.take_of_length_le hstake]
  · rw [haxes.roles, deriveCall, List.take_of_length_le hroles]
  · exact haxes.gate
  · exact observe_register _

theorem Runtime.observeWhole_appliesWhole (haccepts : s.accepts cfg obs.reference)
    (henforce : s.observer.enforceWeight = true) :
    AppliesWhole cfg s obs (s.observe cfg (s.deriveWhole cfg obs)) := by
  have haxes : AppliesAxes cfg s (s.deriveWhole cfg obs)
      (s.observe cfg (s.deriveWhole cfg obs)) := observe_axes haccepts henforce
  exact ⟨haxes.stake, haxes.roles, haxes.gate, observe_register _⟩

section

variable (happlied : AppliesWhole cfg s obs after) (hobs : Observable s)
include happlied hobs

theorem AppliesWhole.observable : Observable after := by
  have hadmissible : Admissible s.axes.binds.accountOfStakeCred.get
      (stakeAccept cfg) (s.stakeDesired cfg obs) := stakeDesired_admissible obs
  have hsound := hobs.stake.afterObserve (s.clearedByAbsence cfg) hadmissible after.vaultLedger
    after.roleLedger (s.stakeDelta cfg obs).length
  have hwhole : (pagedDelta (s.stakeDesired cfg obs) s.axes.stake.basis
      (s.clearedByAbsence cfg)).take (s.stakeDelta cfg obs).length = s.stakeDelta cfg obs :=
    List.take_of_length_le le_rfl
  rw [hwhole] at hsound
  have haxes : after.axes = { s.axes with
      vault := after.vaultLedger
      stake := (s.stakeDelta cfg obs).foldl
        (applyChange s.resolveStake (stakeAccept cfg)) s.stakeLedger
      roles := after.roleLedger } := by
    simp only [axes, happlied.stake, happlied.gate]
  constructor
  · rw [haxes]
    exact hsound
  · rw [happlied.roles]
    exact hobs.roles.foldl_applyChange (fun change hchange => roleDelta_known hchange)
  · rw [happlied.register]
    exact hobs.claims

theorem AppliesWhole.stakeRow (hcap : ∀ entry ∈ obs.stakeEntries, entry.2 ≤ cfg.maxVotingPower)
    (hheld : s.gate.stakeCredOf.get account = some cred) :
    after.observer.lastObservedStake.get cred =
      match obs.stakeTotal cred with
      | some total => some (account, total)
      | none =>
        if s.clearedByAbsence cfg account then none
        else s.observer.lastObservedStake.get cred := by
  have hresolve : s.resolveStake cred = some account := hobs.resolveStake_iff.mpr hheld
  have hbasis : after.observer.lastObservedStake = _ := congrArg basis happlied.stake
  have hadmissible : Admissible s.resolveStake (stakeAccept cfg)
      (s.stakeDesired cfg obs) := stakeDesired_admissible obs
  rw [hbasis]
  refine (applyDelta_get hadmissible cred).trans ?_
  rw [stakeDesired_get hcap, hresolve]
  cases obs.stakeTotal cred with
  | some total => rfl
  | none =>
    show (s.observer.lastObservedStake.get cred).filter _ = _
    cases hbefore : s.observer.lastObservedStake.get cred with
    | none =>
      split_ifs <;> rfl
    | some row =>
      obtain ⟨owner, total⟩ := row
      have howner : owner = account :=
        Option.some.inj ((hobs.stake.rows hbefore).symm.trans hresolve)
      rw [howner]
      cases hcleared : s.clearedByAbsence cfg account <;> simp [Option.filter, hcleared]

theorem AppliesWhole.roleRow (hroom : 0 < cfg.maxRolesPerAccount) :
    after.observer.lastObservedRoles.get account =
      match s.shownRow cfg obs account with
      | some row => some row
      | none =>
        if s.clearedByAbsence cfg account then none
        else s.observer.lastObservedRoles.get account := by
  have hbasis : after.observer.lastObservedRoles = _ := congrArg RoleLedger.basis happlied.roles
  have hdesired := hobs.roleDesired_get obs account
  rw [hbasis, Runtime.shownRow]
  by_cases hmem : account ∈ (s.roleDelta cfg obs).map RoleChange.who
  · rw [foldl_roleDelta_get hroom (List.Subset.refl _) hmem, hdesired]
    by_cases hempty : s.shownRoles obs account = []
    · rw [if_pos hempty, if_pos hempty]
      obtain ⟨change, hchange, rfl⟩ := List.mem_map.mp hmem
      rcases mem_roleDelta.mp hchange with ⟨set, hset, -⟩ | ⟨-, -, -, hclears⟩
      · rw [hdesired, if_pos hempty] at hset
        cases hset
      · simp [hclears]
    · rw [if_neg hempty, if_neg hempty]
      rfl
  · rw [RoleLedger.foldl_applyChange_get_of_notMem hmem]
    show s.observer.lastObservedRoles.get account = _
    have hkept : ∀ roles, ⟨account, roles⟩ ∉ s.roleDelta cfg obs :=
      fun roles hchange => hmem (List.mem_map_of_mem hchange)
    by_cases hempty : s.shownRoles obs account = []
    · rw [if_pos hempty] at hdesired ⊢
      have hheld := mem_roleDelta.not.mp (hkept none)
      simp only [hdesired, true_and, not_or, not_and, Bool.not_eq_true] at hheld
      cases hbefore : s.observer.lastObservedRoles.get account with
      | none => simp
      | some row => rw [hheld.2 (by simp [hbefore])]; rfl
    · rw [if_neg hempty] at hdesired ⊢
      have hsame := mem_roleDelta.not.mp
        (hkept (some (Runtime.boundedRoles cfg (s.shownRoles obs account))))
      simp only [hdesired, not_or, not_exists, not_and, not_not] at hsame
      exact hsame.1 _ rfl rfl

end

theorem Observable.votingPower (hobs : Observable s) (account : AccountId) :
    s.talkStake.votingPower.getD account 0 =
      (((s.gate.stakeCredOf.get account).bind s.observer.lastObservedStake.get).map
        Prod.snd).getD 0 := by
  have hnamed : ∀ {cred total}, s.observer.lastObservedStake.get cred = some (account, total) →
      s.gate.stakeCredOf.get account = some cred :=
    fun hrow => hobs.resolveStake_iff.mp (hobs.stake.rows hrow)
  have hunnamed : (s.gate.stakeCredOf.get account).bind s.observer.lastObservedStake.get = none →
      s.talkStake.votingPower.getD account 0 = 0 := by
    intro hnone
    apply hobs.stake.ledger.unbacked
    intro cred total hrow
    have hrow' : s.observer.lastObservedStake.get cred = some (account, total) := hrow
    rw [hnamed hrow', Option.bind_some, hrow'] at hnone
    cases hnone
  cases hrow : (s.gate.stakeCredOf.get account).bind s.observer.lastObservedStake.get with
  | none => exact hunnamed hrow
  | some row =>
    obtain ⟨cred, hheld, hget⟩ := Option.bind_eq_some_iff.mp hrow
    have howner : row.1 = account := by
      have hresolve : s.resolveStake cred = some row.1 := hobs.stake.rows hget
      exact Option.some.inj (hresolve.symm.trans (hobs.resolveStake_iff.mpr hheld))
    have hbacked : s.observer.lastObservedStake.get cred = some (account, row.2) := by
      rw [hget, ← howner]
    exact hobs.stake.ledger.backed hbacked

theorem Observable.badges (hobs : Observable s) (account : AccountId) :
    s.observedRolesOf account =
      boundObservedRoles ((s.observer.lastObservedRoles.get account).getD []) := by
  cases hrow : s.observer.lastObservedRoles.get account with
  | none => exact hobs.roles.unbacked hrow
  | some roles => exact (hobs.roles.backed hrow).1

end Applied

/-! ## Accounts a block settles and accounts it leaves alone -/

structure Unmoved (s after : Runtime) (account : AccountId) : Prop where
  votingPower : after.talkStake.votingPower.getD account 0 =
    s.talkStake.votingPower.getD account 0
  badges : after.observedRolesOf account = s.observedRolesOf account
  stakeRow : ∀ cred, s.gate.stakeCredOf.get account = some cred →
    after.observer.lastObservedStake.get cred = s.observer.lastObservedStake.get cred
  roleRow : after.observer.lastObservedRoles.get account =
    s.observer.lastObservedRoles.get account

structure Shows (cfg : Config) (s : Runtime) (obs : CardanoObservation) (after : Runtime)
    (account : AccountId) : Prop where
  votingPower : after.talkStake.votingPower.getD account 0 = s.shownPower obs account
  badges : after.observedRolesOf account =
    boundObservedRoles ((s.shownRow cfg obs account).getD [])
  stakeRow : ∀ cred, s.gate.stakeCredOf.get account = some cred →
    after.observer.lastObservedStake.get cred =
      (obs.stakeTotal cred).map (fun total => (account, total))
  roleRow : after.observer.lastObservedRoles.get account = s.shownRow cfg obs account

/-- The basis rows of an account are those of a scan of everyone: what Cardano
shows of an enrolled account, and none for the others. -/
structure Settled (cfg : Config) (cardano : CardanoObservation) (s after : Runtime)
    (account : AccountId) : Prop where
  stakeRow : ∀ cred, s.gate.stakeCredOf.get account = some cred →
    after.observer.lastObservedStake.get cred =
      if s.Enrolled account then (cardano.stakeTotal cred).map (fun total => (account, total))
      else none
  roleRow : after.observer.lastObservedRoles.get account =
    if s.Enrolled account then s.shownRow cfg cardano account else none

section Blocks

variable {cfg : Config} {s after : Runtime} {cardano obs : CardanoObservation}
  {accounts : List AccountId} {account : AccountId}

theorem coverage_of_enrolled (cfg : Config) (henrolled : s.Enrolled account) :
    s.gate.coverage s.observer.scanCursor cfg.maxScanned account = .covered ∨
      s.gate.coverage s.observer.scanCursor cfg.maxScanned account = .deferred := by
  obtain ⟨slot, hslot⟩ := Option.isSome_iff_exists.mp henrolled
  unfold GateStore.coverage
  rw [hslot]
  exact ite_eq_or_eq _ _ _

theorem coverage_of_not_enrolled (cfg : Config) (hout : ¬ s.Enrolled account) :
    s.gate.coverage s.observer.scanCursor cfg.maxScanned account = .absent := by
  have hnone : s.gate.scanSlotOf.get account = none := Option.not_isSome_iff_eq_none.mp hout
  simp [GateStore.coverage, hnone]

theorem mem_scanWindowAccounts_iff (account : AccountId) (hdense : s.gate.rotation.Dense)
    (hwidth : s.gate.scanSlotCount + cfg.maxScanned ≤ u64Max) :
    account ∈ s.scanWindowAccounts cfg ↔
      s.gate.coverage s.observer.scanCursor cfg.maxScanned account = .covered := by
  have hcovers : account ∈ s.scanWindowAccounts cfg ↔
      ∃ slot, s.gate.scanSlotOf.get account = some slot ∧
        s.gate.slotInWindow slot s.observer.scanCursor cfg.maxScanned = true :=
    mem_window_iff_covers hdense hwidth
  rw [hcovers]
  unfold GateStore.coverage
  cases s.gate.scanSlotOf.get account with
  | none => simp
  | some slot => simp

theorem AppliesWhole.shows (happlied : AppliesWhole cfg s obs after) (hobs : Observable s)
    (hroom : 0 < cfg.maxRolesPerAccount)
    (hcap : ∀ entry ∈ obs.stakeEntries, entry.2 ≤ cfg.maxVotingPower)
    (hcleared : s.clearedByAbsence cfg account = true) : Shows cfg s obs after account := by
  have hafter := happlied.observable hobs
  have hstake : ∀ cred, s.gate.stakeCredOf.get account = some cred →
      after.observer.lastObservedStake.get cred =
        (obs.stakeTotal cred).map (fun total => (account, total)) := by
    intro cred hheld
    rw [happlied.stakeRow hobs hcap hheld, hcleared]
    cases obs.stakeTotal cred <;> rfl
  have hroles : after.observer.lastObservedRoles.get account = s.shownRow cfg obs account := by
    rw [happlied.roleRow hobs hroom, hcleared]
    cases s.shownRow cfg obs account <;> rfl
  refine ⟨?_, ?_, hstake, hroles⟩
  · rw [hafter.votingPower, happlied.gate, Runtime.shownPower]
    cases hheld : s.gate.stakeCredOf.get account with
    | none => rfl
    | some cred =>
      rw [Option.bind_some, Option.bind_some, hstake cred hheld]
      cases obs.stakeTotal cred <;> rfl
  · rw [hafter.badges, hroles]

theorem ScopedTo.shownRow (hscoped : ScopedTo s accounts cardano obs) (hobs : Observable s) :
    s.shownRow cfg obs account =
      if account ∈ accounts then s.shownRow cfg cardano account else none := by
  unfold Runtime.shownRow
  rw [hscoped.shownRoles hobs]
  split_ifs <;> first | rfl | contradiction

theorem ScopedTo.capped (hscoped : ScopedTo s accounts cardano obs)
    (hcap : ∀ entry ∈ cardano.stakeEntries, entry.2 ≤ cfg.maxVotingPower) :
    ∀ entry ∈ obs.stakeEntries, entry.2 ≤ cfg.maxVotingPower := by
  intro entry hentry
  rw [hscoped.stake] at hentry
  exact hcap entry (List.mem_of_mem_filter hentry)

variable (hroom : 0 < cfg.maxRolesPerAccount)
  (hcap : ∀ entry ∈ cardano.stakeEntries, entry.2 ≤ cfg.maxVotingPower)

include hroom hcap

theorem AppliesWhole.settled (happlied : AppliesWhole cfg s obs after) (hobs : Observable s)
    (hscoped : ScopedTo s accounts cardano obs)
    (haccounts : account ∈ accounts ↔
      s.gate.coverage s.observer.scanCursor cfg.maxScanned account = .covered)
    (hcleared : s.clearedByAbsence cfg account = true) :
    Settled cfg cardano s after account := by
  have hshows := happlied.shows hobs hroom (hscoped.capped hcap) hcleared
  -- judged by absence, an account is in the window exactly when it is enrolled
  have hmem : account ∈ accounts ↔ s.Enrolled account := by
    rw [haccounts]
    constructor
    · intro hcovered
      by_contra hout
      rw [coverage_of_not_enrolled cfg hout] at hcovered
      cases hcovered
    · intro henrolled
      apply (coverage_of_enrolled cfg henrolled).resolve_right
      simpa [clearedByAbsence] using hcleared
  constructor
  · intro cred hheld
    rw [hshows.stakeRow cred hheld, hscoped.stakeTotal hobs hheld]
    simp only [hmem]
    split_ifs <;> rfl
  · rw [hshows.roleRow, hscoped.shownRow hobs]
    simp only [hmem]

theorem AppliesWhole.unmoved (happlied : AppliesWhole cfg s obs after) (hobs : Observable s)
    (hscoped : ScopedTo s accounts cardano obs) (hout : account ∉ accounts)
    (hdeferred : s.clearedByAbsence cfg account = false) : Unmoved s after account := by
  have hafter := happlied.observable hobs
  have hstake : ∀ cred, s.gate.stakeCredOf.get account = some cred →
      after.observer.lastObservedStake.get cred = s.observer.lastObservedStake.get cred := by
    intro cred hheld
    rw [happlied.stakeRow hobs (hscoped.capped hcap) hheld, hscoped.stakeTotal hobs hheld,
      if_neg hout, hdeferred]
    rfl
  have hroles : after.observer.lastObservedRoles.get account =
      s.observer.lastObservedRoles.get account := by
    rw [happlied.roleRow hobs hroom, hscoped.shownRow hobs, if_neg hout, hdeferred]
    rfl
  refine ⟨?_, ?_, hstake, hroles⟩
  · rw [hafter.votingPower, hobs.votingPower, happlied.gate]
    cases hheld : s.gate.stakeCredOf.get account with
    | none => rfl
    | some cred => rw [Option.bind_some, Option.bind_some, hstake cred hheld]
  · rw [hafter.badges, hobs.badges, hroles]

end Blocks

/-! ## Sweeps -/

/-- The snapshot read through the current window, in a block that applies all
it changes on the windowed axes. -/
structure ScansWindow (cfg : Config) (cardano : CardanoObservation) (s : Runtime)
    (obs : CardanoObservation) : Prop where
  accepted : s.accepts cfg obs.reference
  window : ScopedTo s (s.scanWindowAccounts cfg) cardano obs
  stakePage : (s.stakeDelta cfg obs).length ≤ cfg.maxChangesPerBlock
  rolePage : (s.roleDelta cfg obs).length ≤ cfg.maxChangesPerBlock

def Sweeps (cfg : Config) (cardano : CardanoObservation) (s : Runtime) (op : Op) : Prop :=
  op.quiet ∨ ∃ obs, op = .inherent obs ∧ ScansWindow cfg cardano s obs

def Op.advances (cfg : Config) (s : Runtime) : Op → ℕ
  | .inherent obs =>
      if s.accepts cfg obs.reference ∧
          scopedAxesDrained cfg (s.deriveCall cfg obs) then 1
      else 0
  | _ => 0

/-- How far an account that no window has reached yet lies ahead of the
cursor. -/
def WaitsAhead (cfg : Config) (s t : Runtime) (account : AccountId) (advances : ℕ) : Prop :=
  match s.gate.scanSlotOf.get account with
  | none => advances = 0
  | some slot => advances * cfg.maxScanned +
      lag s.gate.scanSlotCount (t.observer.scanCursor % s.gate.scanSlotCount) slot ≤
    lag s.gate.scanSlotCount (s.observer.scanCursor % s.gate.scanSlotCount) slot

structure Sweeping (cfg : Config) (cardano : CardanoObservation) (s t : Runtime)
    (account : AccountId) (advances : ℕ) : Prop where
  observable : Observable t
  gate : t.gate = s.gate
  register : t.register = s.register
  enforce : t.observer.enforceWeight = true
  account : Settled cfg cardano s t account ∨ WaitsAhead cfg s t account advances

section Sweep

variable {cfg : Config} {s t after : Runtime} {cardano obs : CardanoObservation}
  {account : AccountId} {advances : ℕ} {op : Op}

theorem shownRow_congr (hregister : t.register = s.register) :
    t.shownRow cfg cardano account = s.shownRow cfg cardano account := by
  have hclaims : t.roles.roleClaimOf = s.roles.roleClaimOf :=
    congrArg Register.roleClaimOf hregister
  have hstakes : t.gate.stakeCredOf = s.gate.stakeCredOf :=
    congrArg (fun r => r.binds.stakeCredOf) hregister
  have hheld : t.heldFor account = s.heldFor account := by
    funext source
    cases source <;> simp only [Runtime.heldFor, hclaims, hstakes]
  have hroles : t.shownRoles cardano account = s.shownRoles cardano account := by
    simp only [Runtime.shownRoles, hheld]
  rw [Runtime.shownRow, Runtime.shownRow, hroles]

theorem Settled.congr (hsettled : Settled cfg cardano t after account) (hgate : t.gate = s.gate)
    (hregister : t.register = s.register) : Settled cfg cardano s after account := by
  have henrolled : t.Enrolled account ↔ s.Enrolled account := by
    unfold Enrolled
    rw [hgate]
  constructor
  · intro cred hheld
    rw [hsettled.stakeRow cred (by rwa [hgate])]
    simp only [henrolled]
  · rw [hsettled.roleRow, shownRow_congr hregister]
    simp only [henrolled]

theorem Settled.of_unmoved (hsettled : Settled cfg cardano s t account)
    (hgate : t.gate = s.gate)
    (hstake : ∀ cred, t.gate.stakeCredOf.get account = some cred →
      after.observer.lastObservedStake.get cred = t.observer.lastObservedStake.get cred)
    (hroles : after.observer.lastObservedRoles.get account =
      t.observer.lastObservedRoles.get account) :
    Settled cfg cardano s after account := by
  constructor
  · intro cred hheld
    rw [hstake cred (by rwa [hgate])]
    exact hsettled.stakeRow cred hheld
  · rw [hroles]
    exact hsettled.roleRow

theorem Runtime.step_quiet_register (cfg : Config) (t : Runtime) (hquiet : op.quiet) :
    (t.step cfg op).register = t.register := by
  cases op with
  | nextBlock unixSecs => exact observerOnInitialize_writes.register
  | call origin call => exact SameLedger.register (execute_sameLedger hquiet)
  | extrinsic who call len => exact SameLedger.register (applyExtrinsic_sameLedger hquiet)
  | inherent obs => cases hquiet

theorem Observable.congr (hobs : Observable t) (hsame : SameAxes t after)
    (hregister : after.register = t.register) : Observable after := by
  have haxes : after.axes = t.axes := by
    simp only [axes, hsame.vault, hsame.stake, hsame.roles, hsame.gate]
  constructor
  · rw [haxes]
    exact hobs.stake
  · rw [hsame.roles]
    exact hobs.roles
  · rw [hregister]
    exact hobs.claims

theorem Sweeping.quiet (hsweeping : Sweeping cfg cardano s t account advances)
    (hquiet : op.quiet) : Sweeping cfg cardano s (t.step cfg op) account advances := by
  obtain ⟨hsame, henforce, -⟩ := step_quiet cfg t hquiet
  have hregister := step_quiet_register cfg t hquiet
  have hcursor := (op.quiet_frontier cfg t hquiet).scanCursor
  refine ⟨hsweeping.observable.congr hsame hregister, hsame.gate.trans hsweeping.gate,
    hregister.trans hsweeping.register, henforce.trans hsweeping.enforce, ?_⟩
  have hstake : (t.step cfg op).observer.lastObservedStake = t.observer.lastObservedStake :=
    congrArg basis hsame.stake
  have hroles : (t.step cfg op).observer.lastObservedRoles = t.observer.lastObservedRoles :=
    congrArg RoleLedger.basis hsame.roles
  rcases hsweeping.account with hsettled | hwaits
  · left
    exact hsettled.of_unmoved hsweeping.gate (fun cred _ => by rw [hstake]) (by rw [hroles])
  · right
    unfold WaitsAhead
    rw [hcursor]
    exact hwaits

/-- A block settles the accounts it judges; one it misses comes a whole budget
closer when the cursor moves. -/
theorem Sweeping.block (hsweeping : Sweeping cfg cardano s t account advances)
    (hroom : 0 < cfg.maxRolesPerAccount)
    (hcap : ∀ entry ∈ cardano.stakeEntries, entry.2 ≤ cfg.maxVotingPower)
    (hdense : s.gate.rotation.Dense)
    (hwidth : s.gate.scanSlotCount + cfg.maxScanned ≤ u64Max)
    (hscans : ScansWindow cfg cardano t obs) :
    Sweeping cfg cardano s (t.observeSnapshot cfg obs) account
      (advances + (Op.inherent obs).advances cfg t) := by
  have happlied : AppliesWhole cfg t obs (t.observeSnapshot cfg obs) :=
    observeSnapshot_appliesWhole hscans.accepted hsweeping.enforce hscans.stakePage
      hscans.rolePage
  have hdense' : t.gate.rotation.Dense := by rwa [hsweeping.gate]
  have hwidth' : t.gate.scanSlotCount + cfg.maxScanned ≤ u64Max := by rwa [hsweeping.gate]
  have hwindow := mem_scanWindowAccounts_iff account hdense' hwidth'
  refine ⟨happlied.observable hsweeping.observable, happlied.gate.trans hsweeping.gate,
    happlied.register.trans hsweeping.register,
    (observe_enforceWeight hscans.accepted).trans hsweeping.enforce, ?_⟩
  cases hcleared : t.clearedByAbsence cfg account with
  | true =>
    left
    have hsettled := happlied.settled hroom hcap hsweeping.observable hscans.window hwindow
      hcleared
    exact hsettled.congr hsweeping.gate hsweeping.register
  | false =>
    have hdeferred : t.gate.coverage t.observer.scanCursor cfg.maxScanned account =
        .deferred := by simpa [clearedByAbsence] using hcleared
    have hmissed : account ∉ t.scanWindowAccounts cfg := by
      rw [hwindow, hdeferred]
      decide
    have hunmoved := happlied.unmoved hroom hcap hsweeping.observable hscans.window hmissed
      hcleared
    rcases hsweeping.account with hsettled | hwaits
    · left
      exact hsettled.of_unmoved hsweeping.gate hunmoved.stakeRow hunmoved.roleRow
    · right
      unfold WaitsAhead at hwaits ⊢
      cases hslot : s.gate.scanSlotOf.get account with
      | none =>
        have habsent : t.gate.coverage t.observer.scanCursor cfg.maxScanned account =
            .absent := by
          simp [GateStore.coverage, hsweeping.gate, hslot]
        rw [habsent] at hdeferred
        cases hdeferred
      | some slot =>
        rw [hslot] at hwaits
        dsimp only at hwaits ⊢
        have hcursor : (t.observeSnapshot cfg obs).observer.scanCursor = _ :=
          observe_scanCursor hscans.accepted
        rw [hcursor]
        by_cases hdrained : scopedAxesDrained cfg (t.deriveCall cfg obs)
        · have hcounts : (Op.inherent obs).advances cfg t = 1 :=
            if_pos ⟨hscans.accepted, hdrained⟩
          have hcloser : lag t.gate.scanSlotCount
              (t.gate.nextScanCursor t.observer.scanCursor cfg.maxScanned %
                t.gate.scanSlotCount) slot + cfg.maxScanned ≤
              lag t.gate.scanSlotCount
                (t.observer.scanCursor % t.gate.scanSlotCount) slot := by
            apply lag_advance hdense' _ hwidth' le_rfl le_rfl hmissed
            show t.gate.scanSlotOf.get account = some slot
            rwa [hsweeping.gate]
          rw [if_pos hdrained, hcounts, Nat.add_mul, Nat.one_mul]
          rw [hsweeping.gate] at hcloser ⊢
          omega
        · have hcounts : (Op.inherent obs).advances cfg t = 0 :=
            if_neg (fun h => hdrained h.2)
          rw [if_neg hdrained, hcounts, Nat.add_zero]
          exact hwaits

theorem Sweeping.start (hobs : Observable s) (henforce : s.observer.enforceWeight = true)
    (cfg : Config) (cardano : CardanoObservation) (account : AccountId) :
    Sweeping cfg cardano s s account 0 := by
  refine ⟨hobs, rfl, rfl, henforce, Or.inr ?_⟩
  unfold WaitsAhead
  split
  · rfl
  · rw [Nat.zero_mul, Nat.zero_add]

theorem Sweeping.run {ops : List Op} (hsweeping : Sweeping cfg cardano s t account advances)
    (hroom : 0 < cfg.maxRolesPerAccount)
    (hcap : ∀ entry ∈ cardano.stakeEntries, entry.2 ≤ cfg.maxVotingPower)
    (hdense : s.gate.rotation.Dense)
    (hwidth : s.gate.scanSlotCount + cfg.maxScanned ≤ u64Max)
    (halong : Along (step cfg) (Sweeps cfg cardano) t ops) :
    Sweeping cfg cardano s (t.run cfg ops) account
      (advances + sumAlong (step cfg) (fun now op => op.advances cfg now) t ops) := by
  induction ops generalizing t advances with
  | nil => exact hsweeping
  | cons op ops ih =>
    obtain ⟨hop, hrest⟩ := halong
    rw [sumAlong, ← Nat.add_assoc]
    rcases hop with hquiet | ⟨obs, rfl, hscans⟩
    · have hcounts : op.advances cfg t = 0 := by
        cases op with
        | inherent obs => cases hquiet
        | _ => rfl
      rw [hcounts, Nat.add_zero]
      exact ih (hsweeping.quiet hquiet) hrest
    · exact ih (hsweeping.block hroom hcap hdense hwidth hscans) hrest

theorem Sweeping.settled (hsweeping : Sweeping cfg cardano s t account advances)
    (hdense : s.gate.rotation.Dense) (hmoved : 0 < advances)
    (hpassed : s.gate.scanSlotCount ≤ advances * cfg.maxScanned) :
    Settled cfg cardano s t account := by
  rcases hsweeping.account with hsettled | hwaits
  · exact hsettled
  exfalso
  unfold WaitsAhead at hwaits
  cases hslot : s.gate.scanSlotOf.get account with
  | none =>
    rw [hslot] at hwaits
    exact absurd hwaits hmoved.ne'
  | some slot =>
    rw [hslot] at hwaits
    have hlt : slot < s.gate.scanSlotCount := hdense.bounded hslot
    have hring := lag_lt (Nat.mod_lt s.observer.scanCursor (Nat.zero_lt_of_lt hlt)) hlt
    dsimp only at hwaits
    omega

end Sweep

/-! ## One scan of everyone -/

def Config.scanningAll (cfg : Config) (s : Runtime) : Config :=
  { cfg with maxScanned := s.gate.scanSlotCount }

def Runtime.fullScan (cfg : Config) (s : Runtime) (obs : CardanoObservation) : Runtime :=
  s.observe (cfg.scanningAll s) (s.deriveWhole (cfg.scanningAll s) obs)

structure SameObserved (t t' : Runtime) : Prop where
  stakeRows : t.observer.lastObservedStake = t'.observer.lastObservedStake
  roleRows : t.observer.lastObservedRoles = t'.observer.lastObservedRoles
  votingPower : ∀ account, t.talkStake.votingPower.getD account 0 =
    t'.talkStake.votingPower.getD account 0
  badges : ∀ account, t.observedRolesOf account = t'.observedRolesOf account

section FullScan

variable {cfg : Config} {s t t' : Runtime} {cardano obs : CardanoObservation}
  {account : AccountId}

theorem boundedRoles_scanningAll (set : List RoleTuple) :
    Runtime.boundedRoles (cfg.scanningAll s) set = Runtime.boundedRoles cfg set := by
  simp only [Runtime.boundedRoles, boundedPass_eq]
  rfl

theorem coverage_scanningAll (cfg : Config) (hdense : s.gate.rotation.Dense)
    (account : AccountId) :
    s.gate.coverage s.observer.scanCursor (cfg.scanningAll s).maxScanned account =
      if s.Enrolled account then .covered else .absent := by
  by_cases henrolled : s.Enrolled account
  · obtain ⟨slot, hslot⟩ := Option.isSome_iff_exists.mp henrolled
    have hlt : slot < s.gate.scanSlotCount := hdense.bounded hslot
    have hring : lag s.gate.scanSlotCount
        (s.observer.scanCursor % s.gate.scanSlotCount) slot < s.gate.scanSlotCount :=
      lag_lt (Nat.mod_lt _ (Nat.zero_lt_of_lt hlt)) hlt
    have hinside : s.gate.slotInWindow slot s.observer.scanCursor s.gate.scanSlotCount = true := by
      unfold GateStore.slotInWindow
      rw [if_neg (by omega), min_self]
      exact decide_eq_true hring
    rw [if_pos henrolled, GateStore.coverage, hslot]
    exact if_pos hinside
  · rw [if_neg henrolled]
    exact coverage_of_not_enrolled _ henrolled

theorem fullScan_appliesWhole (haccepts : s.accepts cfg obs.reference)
    (henforce : s.observer.enforceWeight = true) :
    AppliesWhole (cfg.scanningAll s) s obs (s.fullScan cfg obs) :=
  observeWhole_appliesWhole haccepts henforce

theorem fullScan_settled (hobs : Observable s) (hroom : 0 < cfg.maxRolesPerAccount)
    (hcap : ∀ entry ∈ cardano.stakeEntries, entry.2 ≤ cfg.maxVotingPower)
    (hdense : s.gate.rotation.Dense) (haccepts : s.accepts cfg obs.reference)
    (henforce : s.observer.enforceWeight = true)
    (hscoped : ScopedTo s s.gate.scanSlotOf.keys cardano obs) :
    Settled cfg cardano s (s.fullScan cfg obs) account := by
  have happlied := fullScan_appliesWhole haccepts henforce
  have hcoverage := coverage_scanningAll cfg hdense account
  have hwindow : account ∈ s.gate.scanSlotOf.keys ↔
      s.gate.coverage s.observer.scanCursor (cfg.scanningAll s).maxScanned account =
        .covered := by
    rw [mem_keys_iff, hcoverage]
    by_cases henrolled : s.Enrolled account
    · rw [if_pos henrolled]
      exact iff_of_true henrolled rfl
    · rw [if_neg henrolled]
      exact iff_of_false henrolled (by decide)
  have hcleared : s.clearedByAbsence (cfg.scanningAll s) account = true := by
    unfold clearedByAbsence
    rw [hcoverage]
    split_ifs <;> decide
  have hroom' : 0 < (cfg.scanningAll s).maxRolesPerAccount := hroom
  have hsettled := happlied.settled hroom' hcap hobs hscoped hwindow hcleared
  refine ⟨hsettled.stakeRow, ?_⟩
  rw [hsettled.roleRow]
  simp only [Runtime.shownRow, boundedRoles_scanningAll]

theorem sameObserved_of_settled (hobs : Observable t) (hobs' : Observable t')
    (hgate : t.gate = s.gate) (hgate' : t'.gate = s.gate) (hstart : Observable s)
    (hsettled : ∀ account, Settled cfg cardano s t account)
    (hsettled' : ∀ account, Settled cfg cardano s t' account) : SameObserved t t' := by
  have hunbound : ∀ {now : Runtime} {cred : StakeCredential}, Observable now →
      now.gate = s.gate → s.resolveStake cred = none →
      now.observer.lastObservedStake.get cred = none := by
    intro now cred hnow hsame hfree
    rw [Option.eq_none_iff_forall_ne_some]
    rintro ⟨owner, total⟩ hrow
    have hresolve : now.resolveStake cred = some owner := hnow.stake.rows hrow
    rw [resolveStake_congr hsame, hfree] at hresolve
    cases hresolve
  have hstake : t.observer.lastObservedStake = t'.observer.lastObservedStake := by
    apply ext_get
    intro cred
    cases hresolve : s.resolveStake cred with
    | none => rw [hunbound hobs hgate hresolve, hunbound hobs' hgate' hresolve]
    | some account =>
      have hheld := hstart.resolveStake_iff.mp hresolve
      rw [(hsettled account).stakeRow cred hheld, (hsettled' account).stakeRow cred hheld]
  have hroles : t.observer.lastObservedRoles = t'.observer.lastObservedRoles := by
    apply ext_get
    intro account
    rw [(hsettled account).roleRow, (hsettled' account).roleRow]
  refine ⟨hstake, hroles, ?_, ?_⟩
  · intro account
    rw [hobs.votingPower, hobs'.votingPower, hstake, hgate, hgate']
  · intro account
    rw [hobs.badges, hobs'.badges, hroles]

end FullScan

/-! ## Reachable states -/

theorem Runtime.run_rotation_dense {cfg : Config} {start : Runtime} {ops : List Op}
    (hdense : start.gate.rotation.Dense)
    (hroom : Along (step cfg) (fun now _ => now.gate.scanSlotCount < u64Max) start ops) :
    (start.run cfg ops).gate.rotation.Dense := by
  apply Along.invariant (fun now : Runtime => now.gate.rotation.Dense) hroom _ hdense
  intro now op hlt hnow
  rcases (now.step_ledgerStep op).rotation with hkeep | ⟨account, hjoin⟩ | ⟨accounts, hleave⟩
  · rwa [hkeep]
  · rw [hjoin]
    exact hnow.join hlt account
  · rw [hleave]
    exact foldl_invariant leave SlotTable.Dense (fun table account h => h.leave account)
      hnow

theorem observable_of_reached (cfg : Config) {ops : List Op} (hderived : ∀ op ∈ ops, op.derived) :
    Observable (genesis.run cfg ops) := by
  have hmoves : AxesMoves cfg genesis.axes (genesis.run cfg ops).axes :=
    run_axes hderived
  constructor
  · exact reach_invariant Axes.StakeSound (fun _ _ hmove hinv => hinv.move hmove) hmoves
      (.initial rfl rfl rfl)
  · apply reach_invariant (fun a : Axes => a.roles.Sound)
      (fun _ _ hmove hinv => hinv.move hmove) hmoves
    have hempty : genesis.axes.roles = ⟨∅, ∅⟩ := rfl
    rw [hempty]
    exact ⟨fun hrow => by simp at hrow, fun _ => rfl⟩
  · exact run_claims_sound ops

/-- In every state reached without the count of the rotation coming near the
end of its range, with totals within the cap: an accepted block leaves the
enrolled accounts outside its window as they were and gives those inside what
its snapshot shows, and blocks whose windows have passed over the whole
rotation leave the ledgers of one scan of everyone. -/
theorem windowedSweep_eq_fullScan (cfg : Config) (before : List Op) (s : Runtime)
    (hs : s = genesis.run cfg before) (hderived : ∀ op ∈ before, op.derived)
    (hbudget : 0 < cfg.maxScanned) (hroom : 0 < cfg.maxRolesPerAccount)
    (hwidth : ∀ earlier, earlier <+: before →
      (genesis.run cfg earlier).gate.scanSlotCount + cfg.maxScanned < 2 ^ 64)
    (henforce : s.observer.enforceWeight = true) (cardano : CardanoObservation)
    (hcap : ∀ entry ∈ cardano.stakeEntries, entry.2 ≤ cfg.maxVotingPower) :
    (∀ obs, ScansWindow cfg cardano s obs → ∀ account, s.Enrolled account →
      (account ∉ s.scanWindowAccounts cfg →
        Unmoved s (s.observeSnapshot cfg obs) account) ∧
      (account ∈ s.scanWindowAccounts cfg →
        Shows cfg s obs (s.observeSnapshot cfg obs) account)) ∧
    (∀ ops, Along (step cfg) (Sweeps cfg cardano) s ops →
      0 < sumAlong (step cfg) (fun now op => op.advances cfg now) s ops →
      s.gate.scanSlotCount ≤
        sumAlong (step cfg) (fun now op => op.advances cfg now) s ops * cfg.maxScanned →
      ∀ full, ScopedTo s s.gate.scanSlotOf.keys cardano full → s.accepts cfg full.reference →
        SameObserved (s.run cfg ops) (s.fullScan cfg full)) := by
  have hobs : Observable s := hs ▸ observable_of_reached cfg hderived
  have hwidth' : s.gate.scanSlotCount + cfg.maxScanned ≤ u64Max := by
    have hlast := hwidth before List.prefix_rfl
    rw [← hs] at hlast
    exact Nat.le_sub_one_of_lt hlast
  have hdense : s.gate.rotation.Dense := by
    rw [hs]
    apply run_rotation_dense SlotTable.Dense.empty
    apply Along.of_reached
    intro earlier hearlier
    have hnow := hwidth earlier hearlier
    show (genesis.run cfg earlier).gate.scanSlotCount < u64Max
    unfold u64Max
    omega
  constructor
  · intro obs hscans account henrolled
    have happlied : AppliesWhole cfg s obs (s.observeSnapshot cfg obs) :=
      observeSnapshot_appliesWhole hscans.accepted henforce hscans.stakePage
        hscans.rolePage
    have hwindow := mem_scanWindowAccounts_iff account hdense hwidth'
    constructor
    · intro hout
      apply happlied.unmoved hroom hcap hobs hscans.window hout
      have hdeferred := (coverage_of_enrolled cfg henrolled).resolve_left (mt hwindow.mpr hout)
      simp [clearedByAbsence, hdeferred]
    · intro hin
      apply happlied.shows hobs hroom (hscans.window.capped hcap)
      simp [clearedByAbsence, hwindow.mp hin]
  · intro ops halong hmoved hpassed full hscoped haccepts
    have hswept : ∀ account, Sweeping cfg cardano s (s.run cfg ops) account
        (sumAlong (step cfg) (fun now op => op.advances cfg now) s ops) := by
      intro account
      have hrun := (Sweeping.start hobs henforce cfg cardano account).run hroom hcap hdense hwidth'
        halong
      rwa [Nat.zero_add] at hrun
    have happlied := fullScan_appliesWhole haccepts henforce
    have hlast := hswept ⟨0⟩
    apply sameObserved_of_settled hlast.observable (happlied.observable hobs) hlast.gate
      happlied.gate hobs
    · exact fun account => (hswept account).settled hdense hmoved hpassed
    · exact fun account =>
        fullScan_settled hobs hroom hcap hdense haccepts henforce hscoped

def twoStaked : List Op :=
  [.nextBlock 0,
    .call .none (.gate (.linkIdentitySigned ⟨[1, 5], []⟩)),
    .call .none (.gate (.linkIdentitySigned ⟨[2, 6], []⟩)),
    .call .none (.gate (.linkStakeSigned ⟨[1, 7, 0], []⟩)),
    .call .none (.gate (.linkStakeSigned ⟨[2, 8, 0], []⟩))]

def onCardano : CardanoObservation :=
  ⟨⟨10, 0⟩, 0, [], [(⟨7⟩, 800), (⟨8⟩, 900)], [⟨.spoOwner, ⟨7⟩, ⟨3⟩, 50⟩]⟩

def firstWindow : CardanoObservation :=
  ⟨⟨10, 0⟩, 0, [], [(⟨7⟩, 800)], [⟨.spoOwner, ⟨7⟩, ⟨3⟩, 50⟩]⟩

def secondWindow : CardanoObservation := ⟨⟨10, 0⟩, 0, [], [(⟨8⟩, 900)], []⟩

theorem windowedSweep_eq_fullScan_twoStaked :
    Unmoved (genesis.run oneScanned twoStaked)
        ((genesis.run oneScanned twoStaked).observeSnapshot oneScanned firstWindow) ⟨2⟩ ∧
      Shows oneScanned (genesis.run oneScanned twoStaked) firstWindow
        ((genesis.run oneScanned twoStaked).observeSnapshot oneScanned firstWindow) ⟨1⟩ ∧
      SameObserved ((genesis.run oneScanned twoStaked).run oneScanned
          [.inherent firstWindow, .nextBlock 6, .inherent secondWindow])
        ((genesis.run oneScanned twoStaked).fullScan oneScanned onCardano) := by
  have hwidth : ∀ earlier ∈ twoStaked.inits,
      (genesis.run oneScanned earlier).gate.scanSlotCount + oneScanned.maxScanned <
        2 ^ 64 := by decide +kernel
  have hfirst : ScansWindow oneScanned onCardano (genesis.run oneScanned twoStaked)
      firstWindow :=
    ⟨by decide +kernel, ⟨by decide +kernel, by decide +kernel⟩, by decide +kernel,
      by decide +kernel⟩
  have hsecond : ScansWindow oneScanned onCardano
      ((genesis.run oneScanned twoStaked).run oneScanned
        [.inherent firstWindow, .nextBlock 6]) secondWindow :=
    ⟨by decide +kernel, ⟨by decide +kernel, by decide +kernel⟩, by decide +kernel,
      by decide +kernel⟩
  obtain ⟨hblock, hsweep⟩ := windowedSweep_eq_fullScan oneScanned twoStaked _ rfl (by decide)
    (by decide) (by decide)
    (fun earlier hearlier => hwidth earlier ((List.mem_inits _ _).mpr hearlier))
    (by decide +kernel) onCardano (by decide)
  refine ⟨?_, ?_, ?_⟩
  · exact (hblock firstWindow hfirst ⟨2⟩ (by decide +kernel)).1 (by decide +kernel)
  · exact (hblock firstWindow hfirst ⟨1⟩ (by decide +kernel)).2 (by decide +kernel)
  · apply hsweep
    · exact ⟨Or.inr ⟨_, rfl, hfirst⟩, Or.inl rfl, Or.inr ⟨_, rfl, hsecond⟩, trivial⟩
    · decide +kernel
    · decide +kernel
    · exact ⟨by decide +kernel, by decide +kernel⟩
    · decide +kernel

def aboveCap : CardanoObservation := ⟨⟨10, 0⟩, 0, [], [(⟨7⟩, 45000000000000001)], []⟩

theorem aboveCap_not_shown :
    ScansWindow oneScanned aboveCap (genesis.run oneScanned twoStaked) aboveCap ∧
      (genesis.run oneScanned twoStaked).observer.enforceWeight = true ∧
      ⟨1⟩ ∈ (genesis.run oneScanned twoStaked).scanWindowAccounts oneScanned ∧
      ¬ Shows oneScanned (genesis.run oneScanned twoStaked) aboveCap
        ((genesis.run oneScanned twoStaked).observeSnapshot oneScanned aboveCap) ⟨1⟩ := by
  refine ⟨?_, by decide +kernel, by decide +kernel, ?_⟩
  · exact ⟨by decide +kernel, ⟨by decide +kernel, by decide +kernel⟩, by decide +kernel,
      by decide +kernel⟩
  · intro hshows
    exact absurd hshows.votingPower (by decide +kernel)

end CognoChain
