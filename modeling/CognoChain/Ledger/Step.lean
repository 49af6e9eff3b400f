import CognoChain.Model.Frames

/-!
# The ledger half as a transition system

The gate, the roles, the observer and the talk-stake ledger are written by a
short list of transactions.  Every operation of a run is one of them as far as
these stores are concerned; the capacity rows and the social half are left
out.
-/

namespace CognoChain

open Substrate

/-- The clock and the stores of the ledger agree, capacity rows apart. -/
structure SameLedger (s s' : Runtime) : Prop where
  blockNumber : s'.blockNumber = s.blockNumber
  unixSecs : s'.unixSecs = s.unixSecs
  talkStake : s'.talkStake = s.talkStake
  gate : s'.gate = s.gate
  roles : s'.roles = s.roles
  observer : s'.observer = s.observer

theorem SameLedger.refl (s : Runtime) : SameLedger s s := ⟨rfl, rfl, rfl, rfl, rfl, rfl⟩

variable {s s' : Runtime}

theorem SameLedger.trans {t : Runtime} (h : SameLedger s t) (h' : SameLedger t s') :
    SameLedger s s' :=
  ⟨h'.blockNumber.trans h.blockNumber, h'.unixSecs.trans h.unixSecs,
    h'.talkStake.trans h.talkStake, h'.gate.trans h.gate, h'.roles.trans h.roles,
    h'.observer.trans h.observer⟩

theorem SameLedger.of_ledger (h : s'.ledger = s.ledger) : SameLedger s s' :=
  ⟨congrArg Ledger.blockNumber h, congrArg Ledger.unixSecs h, congrArg Ledger.talkStake h,
    congrArg Ledger.gate h, congrArg Ledger.roles h, congrArg Ledger.observer h⟩

theorem SameLedger.of_writesCapacity (h : s.WritesCapacity s') :
    SameLedger s s' := by
  obtain ⟨capacity, events, rfl⟩ := h
  exact ⟨rfl, rfl, rfl, rfl, rfl, rfl⟩

def RuntimeCall.social : RuntimeCall → Bool
  | .microblog _ => true
  | .profile _ => true
  | _ => false

inductive LedgerStep (cfg : Config) (s : Runtime) (op : Op) : Runtime → Prop
  | keeps {after : Runtime} (hsame : SameLedger s after) : LedgerStep cfg s op after
  | tick (unixSecs : ℕ) : LedgerStep cfg s op (s.nextBlock cfg unixSecs)
  | bind {account : AccountId} {identity : IdentityHash} {after : Runtime}
      (hbind : s.doBind account identity = .ok after) : LedgerStep cfg s op after
  | bindStake {account : AccountId} {stakeCred : StakeCredential} {nonce : ℕ}
      {after : Runtime} (hbind : s.doBindStake account stakeCred nonce = .ok after) :
      LedgerStep cfg s op after
  | revoke {account : AccountId} {after : Runtime} (hrevoke : s.doRevoke account = .ok after) :
      LedgerStep cfg s op after
  | revokeMany (targets : List AccountId) : LedgerStep cfg s op (s.revokeMany targets)
  | unlinkStake {who : AccountId} {after : Runtime} (hunlink : s.unlinkStake who = .ok after) :
      LedgerStep cfg s op after
  | tombstoneStakeCred (stakeCred : StakeCredential) :
      LedgerStep cfg s op ((s.tombstoneStakeCred stakeCred).deposit
        (.stakeCredTombstonedByAuthority stakeCred))
  | claim {account : AccountId} {role : RoleKind} {credential : RoleCredential} {nonce : ℕ}
      {after : Runtime} (hclaim : s.doClaim account role credential nonce = .ok after) :
      LedgerStep cfg s op after
  | unclaim {who : AccountId} {role : RoleKind} {after : Runtime}
      (hunclaim : s.unclaimRole who role = .ok after) : LedgerStep cfg s op after
  | revokeRole {account : AccountId} {role : RoleKind} {after : Runtime}
      (hrevoke : s.doRevokeRole account role = .ok after) : LedgerStep cfg s op after
  | revokeRoleMany (targets : List (AccountId × RoleKind)) :
      LedgerStep cfg s op (s.revokeRoleMany targets)
  | observe (args : ObserveArgs)
      (hop : op = .call .none (.observer (.observe args))) :
      LedgerStep cfg s op (s.observe cfg args)
  | inherent (obs : CardanoObservation) (hop : op = .inherent obs) :
      LedgerStep cfg s op (s.observeSnapshot cfg obs)
  | setEnforcement (enabled : Bool) : LedgerStep cfg s op (s.setEnforcement enabled)

def Op.observation (cfg : Config) (s : Runtime) : Op → Option ObserveArgs
  | .call .none (.observer (.observe args)) => some args
  | .inherent obs => some (s.deriveCall cfg obs)
  | _ => none

theorem Op.step_observation {cfg : Config} (op : Op) {args : ObserveArgs}
    (hargs : op.observation cfg s = some args) : s.step cfg op = s.observe cfg args := by
  unfold Op.observation at hargs
  split at hargs
  · rw [← Option.some.inj hargs]
    rfl
  · rw [← Option.some.inj hargs]
    rfl
  · cases hargs

/-- A step that is neither a block, an observation nor the enforcement switch is
a sequence of ledger writes, as far as the ledger is concerned. -/
theorem LedgerStep.writes {cfg : Config} {after : Runtime} {op : Op}
    (hstep : LedgerStep cfg s op after) :
    SameLedger s after ∨ s.LedgerWrites after ∨ (∃ unixSecs, after = s.nextBlock cfg unixSecs) ∨
      (∃ enabled, after = s.setEnforcement enabled) ∨
      ∃ args, op.observation cfg s = some args ∧ after = s.observe cfg args := by
  cases hstep with
  | keeps hsame => exact Or.inl hsame
  | tick unixSecs => exact Or.inr (Or.inr (Or.inl ⟨unixSecs, rfl⟩))
  | bind hbind => exact Or.inr (Or.inl (.doBind hbind))
  | bindStake hbind => exact Or.inr (Or.inl (.doBindStake hbind))
  | revoke hrevoke => exact Or.inr (Or.inl (.doRevoke hrevoke))
  | revokeMany targets => exact Or.inr (Or.inl (.revokeMany targets))
  | unlinkStake hunlink => exact Or.inr (Or.inl (.unlinkStake hunlink))
  | tombstoneStakeCred stakeCred => exact Or.inr (Or.inl (.tombstoneStakeCred stakeCred))
  | claim hclaim => exact Or.inr (Or.inl (.doClaim hclaim))
  | unclaim hunclaim => exact Or.inr (Or.inl (.unclaimRole hunclaim))
  | revokeRole hrevoke => exact Or.inr (Or.inl (.doRevokeRole hrevoke))
  | revokeRoleMany targets => exact Or.inr (Or.inl (.revokeRoleMany targets))
  | setEnforcement enabled => exact Or.inr (Or.inr (Or.inr (Or.inl ⟨enabled, rfl⟩)))
  | observe args hop =>
    exact Or.inr (Or.inr (Or.inr (Or.inr ⟨args, by rw [hop]; rfl, rfl⟩)))
  | inherent obs hop =>
    exact Or.inr (Or.inr (Or.inr (Or.inr ⟨s.deriveCall cfg obs, by rw [hop]; rfl, rfl⟩)))

namespace Runtime

variable {cfg : Config} {s s' : Runtime} {op : Op} {origin : Origin} {call : RuntimeCall}

theorem dispatchRoles_ledgerStep {call : RolesCall} (h : s.dispatchRoles cfg origin call = .ok s') :
    LedgerStep cfg s op s' := by
  rcases dispatchRoles_ok h with ⟨_, _, _, _, hclaim⟩ | ⟨_, _, hunclaim⟩ | ⟨_, _, hrevoke⟩ |
    ⟨targets, rfl⟩
  · exact .claim hclaim
  · exact .unclaim hunclaim
  · exact .revokeRole hrevoke
  · exact .revokeRoleMany targets

theorem dispatchGate_ledgerStep {call : GateCall} (h : s.dispatchGate cfg origin call = .ok s') :
    LedgerStep cfg s op s' := by
  rcases dispatchGate_ok h with ⟨_, account, identity, -, hbind⟩ |
    ⟨_, account, stakeCred, nonce, -, hbind⟩ | ⟨account, -, -, hrevoke⟩ |
    ⟨targets, -, -, rfl⟩ | ⟨who, -, hunlink⟩ | ⟨stakeCred, -, rfl⟩
  · exact .bind hbind
  · exact .bindStake hbind
  · exact .revoke hrevoke
  · exact .revokeMany targets
  · exact .unlinkStake hunlink
  · exact .tombstoneStakeCred stakeCred

theorem execute_sameLedger (hsocial : call.social) :
    SameLedger s (s.execute cfg origin call) := by
  unfold execute
  split
  next after hok =>
    cases call with
    | microblog call =>
      cases origin with
      | signed who => exact .of_ledger (dispatchSignedMicroblog_writes hok).social.ledger
      | none => cases call <;> cases hok
      | authority =>
        cases call with
        | forceSetCapacity who capLast =>
          rw [← Except.ok.inj hok]
          exact .of_writesCapacity (forceSetCapacity_writes who capLast)
        | _ => cases hok
    | profile call =>
      have hprofile : s.dispatchProfile cfg origin call = .ok after := hok
      exact .of_ledger (dispatchProfile_writes hprofile).ledger
    | gate call => cases hsocial
    | roles call => cases hsocial
    | observer call => cases hsocial
  next => exact .refl s

theorem social_of_metered {who : AccountId} {need : ℕ}
    (hneed : meteredNeed cfg s who call = some need) : call.social := by
  cases call with
  | microblog call => rfl
  | profile call => rfl
  | gate call => cases hneed
  | roles call => cases hneed
  | observer call => cases hneed

theorem execute_ledgerStep
    (hobserve : ∀ args, origin = .none → call = .observer (.observe args) → op = .call .none (.observer (.observe args))) :
    LedgerStep cfg s op (s.execute cfg origin call) := by
  by_cases hsocial : call.social = true
  · exact .keeps (execute_sameLedger hsocial)
  · unfold execute
    split
    next after hok =>
      cases call with
      | microblog call => exact absurd rfl hsocial
      | profile call => exact absurd rfl hsocial
      | gate call => exact dispatchGate_ledgerStep hok
      | roles call => exact dispatchRoles_ledgerStep hok
      | observer call =>
        cases call with
        | observe args =>
          cases origin with
          | none =>
            rw [← Except.ok.inj hok]
            exact .observe args (hobserve args rfl rfl)
          | signed who => cases hok
          | authority => cases hok
        | setEnforcement enabled =>
          cases origin with
          | authority =>
            rw [← Except.ok.inj hok]
            exact .setEnforcement enabled
          | signed who => cases hok
          | none => cases hok
    next => exact .keeps (.refl s)

theorem applyExtrinsic_sameLedger {who : AccountId} {len : ℕ} (hsocial : call.social) :
    SameLedger s (s.step cfg (.extrinsic who call len)) := by
  cases hcheck : s.checkCapacity cfg (.signed who) call len with
  | error e =>
    simp only [step, applyExtrinsic, hcheck]
    exact .refl s
  | ok pre =>
    simp only [step, applyExtrinsic, hcheck]
    exact (execute_sameLedger hsocial).trans (.of_writesCapacity (postDispatch_writes pre))

theorem step_ledgerStep (op : Op) : LedgerStep cfg s op (s.step cfg op) := by
  cases op with
  | nextBlock unixSecs => exact .tick unixSecs
  | call origin call =>
    apply execute_ledgerStep
    intro args horigin hcall
    rw [horigin, hcall]
  | inherent obs => exact .inherent obs rfl
  | extrinsic who call len =>
    cases hcheck : s.checkCapacity cfg (.signed who) call len with
    | error e =>
      simp only [step, applyExtrinsic, hcheck]
      exact .keeps (.refl s)
    | ok pre =>
      simp only [step, applyExtrinsic, hcheck]
      cases hneed : meteredNeed cfg s who call with
      | some need =>
        exact .keeps ((execute_sameLedger (social_of_metered hneed)).trans
          (.of_writesCapacity (postDispatch_writes pre)))
      | none =>
        have hfree : pre = ⟨none, 0⟩ := by
          simp only [checkCapacity, hneed] at hcheck
          split_ifs at hcheck
          exact (Except.ok.inj hcheck).symm
        rw [hfree]
        apply execute_ledgerStep
        intro args horigin
        cases horigin

end Runtime

end CognoChain
