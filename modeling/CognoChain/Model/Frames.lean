import CognoChain.Model.Dispatch

/-!
# What each call leaves alone

The runtime state splits into a social half, written by the microblog and
profile calls, and a ledger half, written by the gate, the roles pallet, the
observer and the capacity meter.  Every call stays inside one half, up to the
event log.
-/

namespace CognoChain

open Substrate

/-- The half of the state that ledger operations do not touch. -/
structure Social where
  blockNumber : ℕ
  unixSecs : ℕ
  feed : Feed
  ballots : Ballots
  graph : FollowGraph
  polls : PollStore
  profile : ProfileStore

/-- The half of the state that social calls do not touch. -/
structure Ledger where
  blockNumber : ℕ
  unixSecs : ℕ
  talkStake : TalkStake
  capacity : StorageMap AccountId CapacityState
  gate : GateStore
  roles : RoleStore
  observer : ObserverStore

/-- The binds and tombstones of the gate, without its scan rotation. -/
structure Binds where
  pkhOf : StorageMap AccountId IdentityHash
  accountOf : StorageMap IdentityHash AccountId
  tombstoned : StorageMap IdentityHash Unit
  stakeCredOf : StorageMap AccountId StakeCredential
  accountOfStakeCred : StorageMap StakeCredential AccountId
  tombstonedStakeCred : StorageMap StakeCredential Unit

def GateStore.binds (g : GateStore) : Binds :=
  ⟨g.pkhOf, g.accountOf, g.tombstoned, g.stakeCredOf, g.accountOfStakeCred,
    g.tombstonedStakeCred⟩

def Event.social : Event → Bool
  | .postCreated _ _ | .voted _ _ _ | .voteCleared _ _ | .accountVoted _ _ _
  | .accountVoteCleared _ _ | .followed _ _ | .unfollowed _ _ | .pollCreated _ _
  | .pollVoted _ _ _ | .pollClosed _ | .pollTallySmeared _ _ | .profileSet _
  | .profileCleared _ | .postPinned _ _ | .postUnpinned _ => true
  | _ => false

inductive Alarm
  | stalled (lastApplied blocks : ℕ)
  | resumed (blocks : ℕ)
deriving DecidableEq

def Event.alarm : Event → Option Alarm
  | .observationStalled lastApplied blocks => some (.stalled lastApplied blocks)
  | .observationResumed blocks => some (.resumed blocks)
  | _ => none

def vaultAccept (cfg : Config) (lovelace : ℕ) : Option ℕ :=
  if cfg.maxStakeWeight < flooredWeight cfg lovelace then none
  else some (flooredWeight cfg lovelace)

def stakeAccept (cfg : Config) (total : ℕ) : Option ℕ :=
  if cfg.maxVotingPower < total then none else some total

theorem mapError_eq_ok_iff {ε ε' α : Type} {f : ε → ε'} {result : Except ε α} {value : α} :
    result.mapError f = .ok value ↔ result = .ok value := by
  cases result <;> simp [Except.mapError]

namespace Runtime

variable {cfg : Config} {s s' : Runtime} {t : Runtime} {account who : AccountId} {nonce : ℕ}
  {role : RoleKind} {origin : Origin} {credential : RoleCredential} {call : RolesCall}
  {args : ObserveArgs} {host : ℕ}

def social (s : Runtime) : Social :=
  ⟨s.blockNumber, s.unixSecs, s.feed, s.ballots, s.graph, s.polls, s.profile⟩

def ledger (s : Runtime) : Ledger :=
  ⟨s.blockNumber, s.unixSecs, s.talkStake, s.capacity, s.gate, s.roles, s.observer⟩

theorem blockNumber_of_social (h : s'.social = s.social) :
    s'.blockNumber = s.blockNumber :=
  congrArg Social.blockNumber h

/-! ## What a ledger operation writes

Each relation names the storage an operation may write besides the event log.
-/

def WritesMeter (s s' : Runtime) : Prop :=
  ∃ weights capacity events,
    s' = { s with
      events := events
      talkStake := { s.talkStake with allowedStake := weights }
      capacity := capacity }

def WritesVault (s s' : Runtime) : Prop :=
  ∃ weights capacity basis events,
    s' = { s with
      events := events
      talkStake := { s.talkStake with allowedStake := weights }
      capacity := capacity
      observer := { s.observer with lastObserved := basis } }

def WritesCapacity (s s' : Runtime) : Prop :=
  ∃ capacity events, s' = { s with events := events, capacity := capacity }

def WritesPower (s s' : Runtime) : Prop :=
  ∃ power seq basis events,
    s' = { s with
      events := events
      talkStake := { s.talkStake with votingPower := power, votingPowerSeq := seq }
      observer := { s.observer with lastObservedStake := basis } }

def WritesBadges (s s' : Runtime) : Prop :=
  ∃ badges seq basis events,
    s' = { s with
      events := events
      roles := { s.roles with observedRoles := badges, observedRolesSeq := seq }
      observer := { s.observer with lastObservedRoles := basis } }

def WritesRoles (s s' : Runtime) : Prop :=
  ∃ roles basis events,
    s' = { s with
      events := events
      roles := roles
      observer := { s.observer with lastObservedRoles := basis } }

/-- The posts, votes, follows, polls and profiles are written, and events of
their pallets deposited. -/
def WritesSocial (s s' : Runtime) : Prop :=
  ∃ feed ballots graph polls profile new,
    s' = { s with
      feed := feed, ballots := ballots, graph := graph, polls := polls, profile := profile,
      events := s.events ++ new } ∧
    ∀ event ∈ new, event.social = true

structure WritesMicroblog (s s' : Runtime) : Prop where
  social : s.WritesSocial s'
  profile : s'.profile = s.profile

def WritesFrontier (s s' : Runtime) : Prop :=
  ∃ reference enforce pending appliedAt stalled cursor sweepAt events,
    s' = { s with
      events := events
      observer := { s.observer with
        lastReference := reference
        enforceWeight := enforce
        pendingChanges := pending
        lastAppliedAt := appliedAt
        stalled := stalled
        scanCursor := cursor
        lastSweepAt := sweepAt } }

theorem WritesMeter.refl (s : Runtime) : s.WritesMeter s := ⟨_, _, _, rfl⟩

theorem WritesVault.refl (s : Runtime) : s.WritesVault s := ⟨_, _, _, _, rfl⟩

theorem WritesCapacity.refl (s : Runtime) : s.WritesCapacity s := ⟨_, _, rfl⟩

theorem WritesPower.refl (s : Runtime) : s.WritesPower s := ⟨_, _, _, _, rfl⟩

theorem WritesBadges.refl (s : Runtime) : s.WritesBadges s := ⟨_, _, _, _, rfl⟩

theorem WritesRoles.refl (s : Runtime) : s.WritesRoles s := ⟨_, _, _, rfl⟩

theorem WritesFrontier.refl (s : Runtime) : s.WritesFrontier s :=
  ⟨_, _, _, _, _, _, _, _, rfl⟩

theorem WritesMeter.trans (h : s.WritesMeter t) (h' : t.WritesMeter s') :
    s.WritesMeter s' := by
  obtain ⟨_, _, _, rfl⟩ := h
  obtain ⟨_, _, _, rfl⟩ := h'
  exact ⟨_, _, _, rfl⟩

theorem WritesVault.trans (h : s.WritesVault t) (h' : t.WritesVault s') :
    s.WritesVault s' := by
  obtain ⟨_, _, _, _, rfl⟩ := h
  obtain ⟨_, _, _, _, rfl⟩ := h'
  exact ⟨_, _, _, _, rfl⟩

theorem WritesPower.trans (h : s.WritesPower t) (h' : t.WritesPower s') :
    s.WritesPower s' := by
  obtain ⟨_, _, _, _, rfl⟩ := h
  obtain ⟨_, _, _, _, rfl⟩ := h'
  exact ⟨_, _, _, _, rfl⟩

theorem WritesBadges.trans (h : s.WritesBadges t) (h' : t.WritesBadges s') :
    s.WritesBadges s' := by
  obtain ⟨_, _, _, _, rfl⟩ := h
  obtain ⟨_, _, _, _, rfl⟩ := h'
  exact ⟨_, _, _, _, rfl⟩

theorem WritesRoles.trans (h : s.WritesRoles t) (h' : t.WritesRoles s') :
    s.WritesRoles s' := by
  obtain ⟨_, _, _, rfl⟩ := h
  obtain ⟨_, _, _, rfl⟩ := h'
  exact ⟨_, _, _, rfl⟩

theorem WritesFrontier.trans (h : s.WritesFrontier t) (h' : t.WritesFrontier s') :
    s.WritesFrontier s' := by
  obtain ⟨_, _, _, _, _, _, _, _, rfl⟩ := h
  obtain ⟨_, _, _, _, _, _, _, _, rfl⟩ := h'
  exact ⟨_, _, _, _, _, _, _, _, rfl⟩

theorem WritesCapacity.writesMeter (h : s.WritesCapacity s') : s.WritesMeter s' := by
  obtain ⟨_, _, rfl⟩ := h
  exact ⟨_, _, _, rfl⟩

theorem WritesBadges.writesRoles (h : s.WritesBadges s') : s.WritesRoles s' := by
  obtain ⟨_, _, _, _, rfl⟩ := h
  exact ⟨_, _, _, rfl⟩

theorem WritesMeter.writesVault (h : s.WritesMeter s') : s.WritesVault s' := by
  obtain ⟨_, _, _, rfl⟩ := h
  exact ⟨_, _, _, _, rfl⟩

theorem WritesMeter.social (h : s.WritesMeter s') : s'.social = s.social := by
  obtain ⟨_, _, _, rfl⟩ := h
  rfl

theorem WritesPower.social (h : s.WritesPower s') : s'.social = s.social := by
  obtain ⟨_, _, _, _, rfl⟩ := h
  rfl

theorem WritesRoles.social (h : s.WritesRoles s') : s'.social = s.social := by
  obtain ⟨_, _, _, rfl⟩ := h
  rfl

theorem WritesFrontier.social (h : s.WritesFrontier s') : s'.social = s.social := by
  obtain ⟨_, _, _, _, _, _, _, _, rfl⟩ := h
  rfl

/-! ## The meter -/

theorem setCapacity_writes (who : AccountId) (capLast : ℕ) :
    s.WritesCapacity (s.setCapacity who capLast) :=
  ⟨_, _, rfl⟩

theorem onFirstBind_writes (who : AccountId) : s.WritesCapacity (s.onFirstBind who) := by
  unfold onFirstBind
  split
  · exact .refl s
  · exact setCapacity_writes who 0

theorem settleCapacityAt_writes (who : AccountId) (oldWeight : ℕ) :
    s.WritesCapacity (s.settleCapacityAt cfg who oldWeight) := by
  unfold settleCapacityAt
  split
  · exact .refl s
  next row hrow =>
    split
    · exact .refl s
    · exact setCapacity_writes who _

theorem applyWeight_writes (who : AccountId) (weight : ℕ) :
    s.WritesMeter (s.applyWeight who weight) :=
  ⟨_, _, _, rfl⟩

theorem applyObservedWeight_writes (who : AccountId) (weight : ℕ) :
    s.WritesMeter (s.applyObservedWeight cfg who weight) := by
  unfold applyObservedWeight
  refine WritesMeter.trans ?_ (onFirstBind_writes who).writesMeter
  split
  · exact .refl s
  · exact (settleCapacityAt_writes who _).writesMeter.trans (applyWeight_writes who weight)

theorem consume_writes (who : AccountId) (cost : ℕ) :
    s.WritesCapacity (s.consume cfg who cost) :=
  setCapacity_writes who _

theorem postDispatch_writes (pre : Pre) : s.WritesCapacity (s.postDispatch cfg pre) := by
  unfold postDispatch
  split
  next who hwho => exact consume_writes who _
  next => exact .refl s

theorem zeroCapacity_writes (who : AccountId) : s.WritesCapacity (s.zeroCapacity who) := by
  unfold zeroCapacity
  split
  · exact setCapacity_writes who 0
  · exact .refl s

theorem forceSetCapacity_writes (who : AccountId) (capLast : ℕ) :
    s.WritesCapacity (s.forceSetCapacity cfg who capLast) := by
  obtain ⟨capacity, events, hprimed⟩ := s.onFirstBind_writes who
  simp only [forceSetCapacity, hprimed]
  exact ⟨_, _, rfl⟩

/-! ## Voting power -/

theorem applyVotingPower_writes (who : AccountId) (weight : ℕ) :
    s.WritesPower (s.applyVotingPower who weight) :=
  ⟨_, _, _, _, rfl⟩

theorem setVotingPower_writes (who : AccountId) (weight : ℕ) :
    s.WritesPower (s.setVotingPower who weight) := by
  unfold setVotingPower
  split
  · exact .refl s
  · exact applyVotingPower_writes who weight

theorem setStakeBasis_writes (basis : StorageMap StakeCredential (AccountId × ℕ)) :
    s.WritesPower (s.setStakeBasis basis) :=
  ⟨_, _, _, _, rfl⟩

theorem forgetStake_writes (who : AccountId) (stakeCred : StakeCredential) :
    s.WritesPower (s.forgetStake who stakeCred) :=
  (setStakeBasis_writes _).trans (setVotingPower_writes who 0)

/-! ## Roles -/

theorem applyRoles_writes (who : AccountId) (roles : List ObservedRole) :
    s.WritesBadges (s.applyRoles who roles) := by
  unfold applyRoles
  split
  · exact .refl s
  · exact ⟨_, _, _, _, rfl⟩

theorem setRoles_writes (who : AccountId) (roles : List RoleTuple) :
    s.WritesBadges (s.setRoles who roles) :=
  applyRoles_writes who _

theorem setRoleBasis_writes (basis : StorageMap AccountId (List RoleTuple)) :
    s.WritesBadges (s.setRoleBasis basis) :=
  ⟨_, _, _, _, rfl⟩

theorem forgetAccount_writes (who : AccountId) : s.WritesBadges (s.forgetAccount who) :=
  (setRoleBasis_writes _).trans (setRoles_writes who [])

theorem dropObservedBadges_writes (who : AccountId) :
    s.WritesBadges (s.dropObservedBadges who) := by
  unfold dropObservedBadges
  split <;> exact ⟨_, _, _, _, rfl⟩

theorem takeClaim_writes (who : AccountId) (role : RoleKind) :
    s.WritesRoles (s.takeClaim who role) := by
  unfold takeClaim
  split
  · exact .refl s
  · exact ⟨_, _, _, rfl⟩

theorem purgeAccountRoles_writes (who : AccountId) :
    s.WritesRoles (s.purgeAccountRoles who) :=
  (takeClaim_writes who .spo).trans <| (takeClaim_writes who .dRep).trans <|
    (takeClaim_writes who .committee).trans (dropObservedBadges_writes who).writesRoles

theorem doClaim_ok (h : s.doClaim account role credential nonce = .ok s') :
    s' = { s with roles := { s.roles with
        spentRoleNonce := s.roles.spentRoleNonce.insert (account, role) nonce
        roleClaimOf := s.roles.roleClaimOf.insert (account, role) credential
        roleCredIndex := s.roles.roleCredIndex.insert (role, credential) account }
      }.deposit (.roleClaimed account role credential) := by
  unfold doClaim at h
  split_ifs at h
  exact (Except.ok.inj h).symm

theorem unclaimRole_ok (h : s.unclaimRole who role = .ok s') :
    s' = ((s.takeClaim who role).dropObservedBadges who).deposit (.roleUnclaimed who role) := by
  unfold unclaimRole at h
  split_ifs at h
  exact (Except.ok.inj h).symm

theorem doRevokeRole_ok (h : s.doRevokeRole account role = .ok s') :
    ∃ credential, s.roles.roleClaimOf.get (account, role) = some credential ∧
      s' = (((s.takeClaim account role).tombstoneRoleCred role credential).dropObservedBadges
        account).deposit (.roleRevoked account role) := by
  unfold doRevokeRole at h
  split at h
  · cases h
  next credential hclaim => exact ⟨credential, hclaim, (Except.ok.inj h).symm⟩

theorem doClaim_writes (h : s.doClaim account role credential nonce = .ok s') :
    s.WritesRoles s' := by
  rw [doClaim_ok h]
  exact ⟨_, _, _, rfl⟩

theorem unclaimRole_writes (h : s.unclaimRole who role = .ok s') : s.WritesRoles s' := by
  rw [unclaimRole_ok h]
  exact ((takeClaim_writes who role).trans (dropObservedBadges_writes who).writesRoles).trans
    ⟨_, _, _, rfl⟩

theorem doRevokeRole_writes (h : s.doRevokeRole account role = .ok s') : s.WritesRoles s' := by
  obtain ⟨credential, -, rfl⟩ := doRevokeRole_ok h
  have htomb : (s.takeClaim account role).WritesRoles
      ((s.takeClaim account role).tombstoneRoleCred role credential) := ⟨_, _, _, rfl⟩
  exact (((takeClaim_writes account role).trans htomb).trans
    (dropObservedBadges_writes account).writesRoles).trans ⟨_, _, _, rfl⟩

section Batches

variable (inv : Runtime → Prop) (hevent : ∀ t event, inv t → inv (t.deposit event))

include hevent

theorem revokeMany_invariant
    (hstep : ∀ t account t', t.doRevoke account = .ok t' → inv t → inv t')
    (targets : List AccountId) (hs : inv s) : inv (s.revokeMany targets) :=
  hevent _ _ (applyAll_invariant inv targets hstep hs)

theorem revokeRoleMany_invariant
    (hstep : ∀ t account role t', t.doRevokeRole account role = .ok t' → inv t → inv t')
    (targets : List (AccountId × RoleKind)) (hs : inv s) : inv (s.revokeRoleMany targets) :=
  hevent _ _ (applyAll_invariant inv targets (fun t target => hstep t target.1 target.2) hs)

end Batches

theorem revokeRoleMany_writes (targets : List (AccountId × RoleKind)) :
    s.WritesRoles (s.revokeRoleMany targets) := by
  apply revokeRoleMany_invariant (fun after => s.WritesRoles after)
  · exact fun _ _ h => h.trans ⟨_, _, _, rfl⟩
  · exact fun _ _ _ _ hok h => h.trans (doRevokeRole_writes hok)
  · exact .refl s

theorem dispatchRoles_ok (h : s.dispatchRoles cfg origin call = .ok s') :
    (∃ account role credential nonce, s.doClaim account role credential nonce = .ok s') ∨
      (∃ who role, s.unclaimRole who role = .ok s') ∨
      (∃ account role, s.doRevokeRole account role = .ok s') ∨
      ∃ targets, s' = s.revokeRoleMany targets := by
  unfold dispatchRoles at h
  split at h
  · rw [mapError_eq_ok_iff, claimRoleSigned] at h
    split at h
    · cases h
    · exact Or.inl ⟨_, _, _, _, h⟩
  · exact Or.inr (Or.inl ⟨_, _, mapError_eq_ok_iff.mp h⟩)
  · exact Or.inr (Or.inr (Or.inl ⟨_, _, mapError_eq_ok_iff.mp h⟩))
  · exact Or.inr (Or.inr (Or.inr ⟨_, (Except.ok.inj h).symm⟩))
  · cases h

theorem dispatchRoles_writes (h : s.dispatchRoles cfg origin call = .ok s') :
    s.WritesRoles s' := by
  rcases dispatchRoles_ok h with ⟨_, _, _, _, hclaim⟩ | ⟨_, _, hunclaim⟩ | ⟨_, _, hrevoke⟩ |
    ⟨targets, rfl⟩
  · exact doClaim_writes hclaim
  · exact unclaimRole_writes hunclaim
  · exact doRevokeRole_writes hrevoke
  · exact revokeRoleMany_writes targets

/-! ## The gate -/

theorem doBind_ok {identity : IdentityHash} (h : s.doBind account identity = .ok s') :
    s.gate.tombstoned.contains identity = false ∧
      s.gate.pkhOf.contains account = false ∧
      s.gate.accountOf.contains identity = false ∧
      s' = ({ s with gate := { s.gate with
          pkhOf := s.gate.pkhOf.insert account identity
          accountOf := s.gate.accountOf.insert identity account }.joinRotation account
        }.onFirstBind account).deposit (.identityLinked account identity) := by
  unfold doBind at h
  split_ifs at h with htomb hbound hused
  exact ⟨by simpa using htomb, by simpa using hbound, by simpa using hused,
    (Except.ok.inj h).symm⟩

theorem doBindStake_ok {stakeCred : StakeCredential}
    (h : s.doBindStake account stakeCred nonce = .ok s') :
    s.gate.tombstonedStakeCred.contains stakeCred = false ∧
      s.gate.stakeCredOf.contains account = false ∧
      s.gate.accountOfStakeCred.contains stakeCred = false ∧
      s' = { s with gate := { s.gate with
          spentStakeNonce := s.gate.spentStakeNonce.insert account nonce
          stakeCredOf := s.gate.stakeCredOf.insert account stakeCred
          accountOfStakeCred := s.gate.accountOfStakeCred.insert stakeCred account }
        }.deposit (.stakeLinked account stakeCred) := by
  unfold doBindStake at h
  split_ifs at h with hunbound htomb hreplayed hbound hused
  exact ⟨by simpa using htomb, by simpa using hbound, by simpa using hused,
    (Except.ok.inj h).symm⟩

/-- A revoke drops the identity bind, tears down the stake bind and the badges,
leaves the rotation, and then notifies the other pallets. -/
theorem doRevoke_ok (h : s.doRevoke account = .ok s') :
    ∃ identity torn, s.gate.pkhOf.get account = some identity ∧
      torn = ((s.releaseIdentity account identity).banStake account).forgetAccount account ∧
      s' = ({ torn with gate := torn.gate.leaveRotation account }.onRevoke account).deposit
        (.revoked account identity) := by
  unfold doRevoke at h
  split at h
  · cases h
  next identity hidentity =>
    exact ⟨identity, _, hidentity, rfl, (Except.ok.inj h).symm⟩

theorem unlinkStake_ok (h : s.unlinkStake who = .ok s') :
    ∃ stakeCred, s.gate.stakeCredOf.get who = some stakeCred ∧
      s' = ((s.releaseStake who stakeCred).forgetStake who stakeCred).deposit
        (.stakeUnlinked who stakeCred) := by
  unfold unlinkStake at h
  split at h
  · cases h
  next stakeCred hstake =>
    exact ⟨stakeCred, hstake, (Except.ok.inj h).symm⟩

theorem joinRotation_binds (g : GateStore) (account : AccountId) :
    (g.joinRotation account).binds = g.binds := by
  unfold GateStore.joinRotation
  split_ifs <;> rfl

theorem leaveRotation_binds (g : GateStore) (account : AccountId) :
    (g.leaveRotation account).binds = g.binds := by
  unfold GateStore.leaveRotation GateStore.fillSlot
  split
  · rfl
  · dsimp only
    split_ifs
    · split <;> rfl
    · rfl

theorem leaveRotation_pkhOf (g : GateStore) (account : AccountId) :
    (g.leaveRotation account).pkhOf = g.pkhOf :=
  congrArg Binds.pkhOf (leaveRotation_binds g account)

theorem WritesRoles.gate (h : s.WritesRoles s') : s'.gate = s.gate := by
  obtain ⟨_, _, _, rfl⟩ := h
  rfl

theorem WritesPower.gate (h : s.WritesPower s') : s'.gate = s.gate := by
  obtain ⟨_, _, _, _, rfl⟩ := h
  rfl

theorem WritesMeter.gate (h : s.WritesMeter s') : s'.gate = s.gate := by
  obtain ⟨_, _, _, rfl⟩ := h
  rfl

theorem banStake_pkhOf (account : AccountId) :
    (s.banStake account).gate.pkhOf = s.gate.pkhOf := by
  unfold banStake
  split
  · rfl
  next stakeCred hstake =>
    rw [(forgetStake_writes account stakeCred).gate]
    rfl

theorem onRevoke_gate (account : AccountId) : (s.onRevoke account).gate = s.gate :=
  (purgeAccountRoles_writes account).gate.trans
    (zeroCapacity_writes account).writesMeter.gate

theorem doRevoke_pkhOf (h : s.doRevoke account = .ok s') :
    s'.gate.pkhOf = s.gate.pkhOf.remove account := by
  obtain ⟨identity, torn, -, htorn, rfl⟩ := doRevoke_ok h
  have hgate : torn.gate.pkhOf = s.gate.pkhOf.remove account := by
    rw [htorn, (forgetAccount_writes account).writesRoles.gate, banStake_pkhOf]
    rfl
  have hafter := onRevoke_gate (s := { torn with gate := torn.gate.leaveRotation account })
    account
  simp only [deposit, hafter, leaveRotation_pkhOf, hgate]

theorem dispatchGate_ok {call : GateCall} (h : s.dispatchGate cfg origin call = .ok s') :
    (∃ proof account identity, call = .linkIdentitySigned proof ∧
        s.doBind account identity = .ok s') ∨
      (∃ proof account stakeCred nonce, call = .linkStakeSigned proof ∧
        s.doBindStake account stakeCred nonce = .ok s') ∨
      (∃ account, origin = .authority ∧ call = .revoke account ∧
        s.doRevoke account = .ok s') ∨
      (∃ targets, origin = .authority ∧ call = .revokeMany targets ∧
        s' = s.revokeMany targets) ∨
      (∃ who, call = .unlinkStake ∧ s.unlinkStake who = .ok s') ∨
      (∃ stakeCred, call = .tombstoneStakeCred stakeCred ∧
        s' = (s.tombstoneStakeCred stakeCred).deposit
          (.stakeCredTombstonedByAuthority stakeCred)) := by
  unfold dispatchGate at h
  split at h
  next proof =>
    rw [mapError_eq_ok_iff, linkIdentitySigned] at h
    split at h
    · cases h
    · exact Or.inl ⟨proof, _, _, rfl, h⟩
  next proof =>
    rw [mapError_eq_ok_iff, linkStakeSigned] at h
    split at h
    · cases h
    · exact Or.inr (Or.inl ⟨proof, _, _, _, rfl, h⟩)
  next account =>
    exact Or.inr (Or.inr (Or.inl ⟨account, rfl, rfl, mapError_eq_ok_iff.mp h⟩))
  next targets =>
    exact Or.inr (Or.inr (Or.inr (Or.inl ⟨targets, rfl, rfl, (Except.ok.inj h).symm⟩)))
  next who =>
    exact Or.inr (Or.inr (Or.inr (Or.inr (Or.inl ⟨who, rfl, mapError_eq_ok_iff.mp h⟩))))
  next stakeCred =>
    exact Or.inr (Or.inr (Or.inr (Or.inr (Or.inr ⟨stakeCred, rfl,
      (Except.ok.inj h).symm⟩))))
  · cases h

/-! ## The observer -/

theorem setVaultBasis_writes (basis : StorageMap BeaconName (AccountId × ℕ)) :
    s.WritesVault (s.setVaultBasis basis) :=
  ⟨_, _, _, _, rfl⟩

/-- An axis keyed by credentials: how a key resolves, what an observed amount
counts for, and how an amount and its basis row are written. -/
structure Axis (K : Type) [StorageKey K] where
  resolve : Runtime → K → Option AccountId
  accept : ℕ → Option ℕ
  assign : Runtime → AccountId → ℕ → Runtime
  basis : Runtime → StorageMap K (AccountId × ℕ)
  setBasis : Runtime → StorageMap K (AccountId × ℕ) → Runtime

def Axis.applyChange {K : Type} [StorageKey K] (axis : Axis K) (enforce : Bool)
    (acc : Runtime × AxisCounts) (change : K × Option ℕ) : Runtime × AxisCounts :=
  let (s, counts) := acc
  match change.2 with
  | some raw =>
      match axis.resolve s change.1, axis.accept raw with
      | some account, some amount =>
          if enforce then
            let credited := axis.assign s account amount
            (axis.setBasis credited ((axis.basis credited).insert change.1 (account, amount)),
              counts.credit)
          else (s, counts.credit)
      | _, _ => (s, counts.skip)
  | none =>
      match (axis.basis s).get change.1 with
      | none => (s, counts.skip)
      | some (account, _) =>
          if enforce then
            let cleared := axis.assign s account 0
            (axis.setBasis cleared ((axis.basis cleared).remove change.1), counts.clear)
          else (s, counts.clear)

def vaultAxis (cfg : Config) : Axis BeaconName where
  resolve := resolveBeacon
  accept := vaultAccept cfg
  assign := applyObservedWeight cfg
  basis s := s.observer.lastObserved
  setBasis := setVaultBasis

def stakeAxis (cfg : Config) : Axis StakeCredential where
  resolve := resolveStake
  accept := stakeAccept cfg
  assign := setVotingPower
  basis s := s.observer.lastObservedStake
  setBasis := setStakeBasis

theorem applyVaultChange_eq (cfg : Config) : applyVaultChange cfg = (vaultAxis cfg).applyChange := by
  funext enforce ⟨s, counts⟩ ⟨beacon, observed⟩
  cases observed with
  | none => rfl
  | some lovelace =>
    simp only [applyVaultChange, Axis.applyChange, vaultAxis, vaultAccept]
    cases s.resolveBeacon beacon <;> split_ifs <;> rfl

theorem applyStakeChange_eq (cfg : Config) : applyStakeChange cfg = (stakeAxis cfg).applyChange := by
  funext enforce ⟨s, counts⟩ ⟨stakeCred, observed⟩
  cases observed with
  | none => rfl
  | some total =>
    simp only [applyStakeChange, Axis.applyChange, stakeAxis, stakeAccept]
    cases s.resolveStake stakeCred <;> split_ifs <;> rfl

theorem Axis.applyChange_cases {K : Type} [StorageKey K] (axis : Axis K) (enforce : Bool)
    (acc : Runtime × AxisCounts) (change : K × Option ℕ) :
    (axis.applyChange enforce acc change).1 = acc.1 ∨
      enforce = true ∧ ∃ who amount basis, (axis.applyChange enforce acc change).1 =
        axis.setBasis (axis.assign acc.1 who amount) basis := by
  cases enforce with
  | true =>
    unfold Axis.applyChange
    dsimp only
    split <;> split
    · exact Or.inr ⟨rfl, _, _, _, rfl⟩
    · exact Or.inl rfl
    · exact Or.inl rfl
    · exact Or.inr ⟨rfl, _, _, _, rfl⟩
  | false =>
    left
    unfold Axis.applyChange
    dsimp only
    split <;> split <;> rfl

section

variable (enforce : Bool) (acc : Runtime × AxisCounts)

theorem applyRoleChange_cases (change : RoleChange) :
    (applyRoleChange enforce acc change).1 = acc.1 ∨
      enforce = true ∧ ∃ who roles basis, (applyRoleChange enforce acc change).1 =
        (acc.1.setRoles who roles).setRoleBasis basis := by
  cases enforce with
  | true =>
    unfold applyRoleChange
    dsimp only
    split <;> exact Or.inr ⟨rfl, _, _, _, rfl⟩
  | false =>
    left
    unfold applyRoleChange
    dsimp only
    split <;> rfl

theorem applyVaultChange_writes (change : VaultChange) :
    acc.1.WritesVault (applyVaultChange cfg enforce acc change).1 := by
  rw [applyVaultChange_eq]
  rcases (vaultAxis cfg).applyChange_cases enforce acc change with
    hsame | ⟨-, who, weight, basis, hafter⟩
  · rw [hsame]
    exact .refl _
  · rw [hafter]
    exact (applyObservedWeight_writes who weight).writesVault.trans (setVaultBasis_writes basis)

theorem applyStakeChange_writes (change : StakeChange) :
    acc.1.WritesPower (applyStakeChange cfg enforce acc change).1 := by
  rw [applyStakeChange_eq]
  rcases (stakeAxis cfg).applyChange_cases enforce acc change with
    hsame | ⟨-, who, total, basis, hafter⟩
  · rw [hsame]
    exact .refl _
  · rw [hafter]
    exact (setVotingPower_writes who total).trans (setStakeBasis_writes basis)

theorem applyRoleChange_writes (change : RoleChange) :
    acc.1.WritesBadges (applyRoleChange enforce acc change).1 := by
  rcases applyRoleChange_cases enforce acc change with hsame | ⟨-, who, roles, basis, hafter⟩
  · rw [hsame]
    exact .refl _
  · rw [hafter]
    exact (setRoles_writes who roles).trans (setRoleBasis_writes basis)

end

theorem applyChanges_invariant (inv : Runtime → Prop) (args : ObserveArgs)
    (hvault : ∀ acc change, inv acc.1 →
      inv (applyVaultChange cfg s.observer.enforceWeight acc change).1)
    (hstake : ∀ acc change, inv acc.1 →
      inv (applyStakeChange cfg s.observer.enforceWeight acc change).1)
    (hroles : ∀ acc change, inv acc.1 →
      inv (applyRoleChange s.observer.enforceWeight acc change).1)
    (hinit : inv s) : inv (s.applyChanges cfg args).1 := by
  let held : Runtime × AxisCounts → Prop := fun acc => inv acc.1
  unfold applyChanges
  apply foldl_invariant (applyRoleChange s.observer.enforceWeight) held hroles
  apply foldl_invariant (applyStakeChange cfg s.observer.enforceWeight) held hstake
  apply foldl_invariant (applyVaultChange cfg s.observer.enforceWeight) held hvault
  exact hinit

/-! ## Transactions as writes -/

/-- One write of a ledger transaction.  The events of the stall alarm are not
among those deposited. -/
inductive LedgerWrite (s : Runtime) : Runtime → Prop
  | deposit {event : Event} (hquiet : event.alarm = none) : LedgerWrite s (s.deposit event)
  | meter (weights : StorageMap AccountId ℕ) (capacity : StorageMap AccountId CapacityState) :
      LedgerWrite s { s with
        talkStake := { s.talkStake with allowedStake := weights }, capacity := capacity }
  | gate (gate : GateStore) : LedgerWrite s { s with gate := gate }
  | claims (roles : RoleStore) (hbadges : roles.observedRoles = s.roles.observedRoles)
      (hseq : roles.observedRolesSeq = s.roles.observedRolesSeq) :
      LedgerWrite s { s with roles := roles }
  | bases (vault : StorageMap BeaconName (AccountId × ℕ))
      (stake : StorageMap StakeCredential (AccountId × ℕ))
      (roles : StorageMap AccountId (List RoleTuple)) :
      LedgerWrite s { s with observer := { s.observer with
        lastObserved := vault, lastObservedStake := stake, lastObservedRoles := roles } }
  | power (who : AccountId) (weight : ℕ) : LedgerWrite s (s.setVotingPower who weight)
  | badges (who : AccountId) (roles : List ObservedRole) : LedgerWrite s (s.applyRoles who roles)
  | drop (who : AccountId) : LedgerWrite s (s.dropObservedBadges who)

abbrev LedgerWrites : Runtime → Runtime → Prop := Relation.ReflTransGen LedgerWrite

namespace LedgerWrites

theorem onFirstBind (who : AccountId) : LedgerWrites s (s.onFirstBind who) := by
  unfold Runtime.onFirstBind
  split
  · exact .refl
  · exact .single (.meter _ _)

theorem applyObservedWeight (who : AccountId) (weight : ℕ) :
    LedgerWrites s (s.applyObservedWeight cfg who weight) := by
  have hsettled : LedgerWrites s (s.settleCapacityAt cfg who (s.weightOf who)) := by
    unfold settleCapacityAt
    split
    · exact .refl
    · split
      · exact .refl
      · exact .single (.meter _ _)
  refine .trans ?_ (onFirstBind who)
  split
  · exact .refl
  · refine .tail ?_ (.deposit rfl)
    exact hsettled.tail (.meter _ _)

theorem zeroCapacity (who : AccountId) : LedgerWrites s (s.zeroCapacity who) := by
  unfold Runtime.zeroCapacity
  split
  · exact .single (.meter _ _)
  · exact .refl

theorem forgetStake (who : AccountId) (stakeCred : StakeCredential) :
    LedgerWrites s (s.forgetStake who stakeCred) := by
  refine .tail ?_ (.power who 0)
  exact .single (.bases _ _ _)

theorem banStake (account : AccountId) : LedgerWrites s (s.banStake account) := by
  unfold Runtime.banStake
  split
  · exact .refl
  · refine .trans ?_ (forgetStake account _)
    exact .single (.gate _)

theorem takeClaim (who : AccountId) (role : RoleKind) :
    LedgerWrites s (s.takeClaim who role) := by
  unfold Runtime.takeClaim
  split
  · exact .refl
  · exact .single (.claims _ rfl rfl)

theorem purgeAccountRoles (who : AccountId) : LedgerWrites s (s.purgeAccountRoles who) := by
  refine .tail ?_ (.drop who)
  exact ((takeClaim who .spo).trans (takeClaim who .dRep)).trans (takeClaim who .committee)

variable {account : AccountId} {role : RoleKind}

theorem doBind {identity : IdentityHash} (h : s.doBind account identity = .ok s') :
    LedgerWrites s s' := by
  obtain ⟨-, -, -, rfl⟩ := doBind_ok h
  refine .tail ?_ (.deposit rfl)
  refine .trans ?_ (onFirstBind account)
  exact .single (.gate _)

theorem doBindStake {stakeCred : StakeCredential}
    (h : s.doBindStake account stakeCred nonce = .ok s') : LedgerWrites s s' := by
  obtain ⟨-, -, -, rfl⟩ := doBindStake_ok h
  refine .tail ?_ (.deposit rfl)
  exact .single (.gate _)

theorem unlinkStake (h : s.unlinkStake who = .ok s') : LedgerWrites s s' := by
  obtain ⟨stakeCred, -, rfl⟩ := unlinkStake_ok h
  refine .tail ?_ (.deposit rfl)
  refine .trans ?_ (forgetStake who stakeCred)
  exact .single (.gate _)

theorem tombstoneStakeCred (stakeCred : StakeCredential) :
    LedgerWrites s ((s.tombstoneStakeCred stakeCred).deposit
      (.stakeCredTombstonedByAuthority stakeCred)) := by
  refine .tail ?_ (.deposit rfl)
  exact .single (.gate _)

theorem doRevoke (h : s.doRevoke account = .ok s') : LedgerWrites s s' := by
  obtain ⟨identity, torn, -, htorn, rfl⟩ := doRevoke_ok h
  refine .tail ?_ (.deposit rfl)
  refine .trans (.trans (.tail ?_ (.gate _)) (zeroCapacity account)) (purgeAccountRoles account)
  rw [htorn]
  refine .tail (.tail ?_ (.bases _ _ _)) (.badges account _)
  refine .trans ?_ (banStake account)
  exact .single (.gate _)

theorem doRevokeRole (h : s.doRevokeRole account role = .ok s') : LedgerWrites s s' := by
  obtain ⟨credential, -, rfl⟩ := doRevokeRole_ok h
  refine .tail ?_ (.deposit rfl)
  refine .tail ?_ (.drop account)
  exact (takeClaim account role).tail (.claims _ rfl rfl)

theorem revokeMany (targets : List AccountId) : LedgerWrites s (s.revokeMany targets) := by
  refine .tail ?_ (.deposit rfl)
  apply applyAll_invariant (LedgerWrites s) targets _ .refl
  exact fun _ _ _ hok h => h.trans (doRevoke hok)

theorem dispatchGate {call : GateCall} (h : s.dispatchGate cfg origin call = .ok s') :
    LedgerWrites s s' := by
  rcases dispatchGate_ok h with ⟨_, account, identity, -, hbind⟩ |
    ⟨_, account, stakeCred, nonce, -, hbind⟩ | ⟨account, -, -, hrevoke⟩ |
    ⟨targets, -, -, rfl⟩ | ⟨who, -, hunlink⟩ | ⟨stakeCred, -, rfl⟩
  · exact doBind hbind
  · exact doBindStake hbind
  · exact doRevoke hrevoke
  · exact revokeMany targets
  · exact unlinkStake hunlink
  · exact tombstoneStakeCred stakeCred

theorem doClaim (h : s.doClaim account role credential nonce = .ok s') : LedgerWrites s s' := by
  rw [doClaim_ok h]
  refine .tail ?_ (.deposit rfl)
  exact .single (.claims _ rfl rfl)

theorem unclaimRole (h : s.unclaimRole who role = .ok s') :
    LedgerWrites s s' := by
  rw [unclaimRole_ok h]
  refine .tail ?_ (.deposit rfl)
  exact (takeClaim who role).tail (.drop who)

theorem revokeRoleMany (targets : List (AccountId × RoleKind)) :
    LedgerWrites s (s.revokeRoleMany targets) := by
  refine .tail ?_ (.deposit rfl)
  apply applyAll_invariant (f := fun s target => s.doRevokeRole target.1 target.2) (LedgerWrites s)
    targets _ .refl
  exact fun _ _ _ hok h => h.trans (doRevokeRole hok)

theorem dispatchRoles (h : s.dispatchRoles cfg origin call = .ok s') : LedgerWrites s s' := by
  rcases dispatchRoles_ok h with ⟨_, _, _, _, hclaim⟩ | ⟨_, _, hunclaim⟩ | ⟨_, _, hrevoke⟩ |
    ⟨targets, rfl⟩
  · exact doClaim hclaim
  · exact unclaimRole hunclaim
  · exact doRevokeRole hrevoke
  · exact revokeRoleMany targets

theorem applyChanges (args : ObserveArgs) : LedgerWrites s (s.applyChanges cfg args).1 := by
  apply applyChanges_invariant (fun after => LedgerWrites s after) args
  · intro acc change hacc
    rw [applyVaultChange_eq]
    rcases (vaultAxis cfg).applyChange_cases s.observer.enforceWeight acc change with
      hsame | ⟨-, who, weight, basis, hafter⟩
    · rwa [hsame]
    · rw [hafter]
      exact (hacc.trans (applyObservedWeight who weight)).tail (.bases _ _ _)
  · intro acc change hacc
    rw [applyStakeChange_eq]
    rcases (stakeAxis cfg).applyChange_cases s.observer.enforceWeight acc change with
      hsame | ⟨-, who, total, basis, hafter⟩
    · rwa [hsame]
    · rw [hafter]
      exact (hacc.tail (.power who total)).tail (.bases _ _ _)
  · intro acc change hacc
    rcases applyRoleChange_cases s.observer.enforceWeight acc change with
      hsame | ⟨-, who, roles, basis, hafter⟩
    · rwa [hsame]
    · rw [hafter]
      exact (hacc.tail (.badges who _)).tail (.bases _ _ _)
  · exact .refl

end LedgerWrites

theorem LedgerWrite.social (h : LedgerWrite s s') : s'.social = s.social := by
  cases h with
  | power who weight => exact (setVotingPower_writes who weight).social
  | badges who roles => exact (applyRoles_writes who roles).writesRoles.social
  | drop who => exact (dropObservedBadges_writes who).writesRoles.social
  | _ => rfl

theorem LedgerWrites.social (h : LedgerWrites s s') : s'.social = s.social :=
  reach_invariant (fun after : Runtime => after.social = s.social)
    (fun _ _ hwrite hbefore => hwrite.social.trans hbefore) h rfl

theorem LedgerWrite.observer (h : LedgerWrite s s') :
    ∃ vault stake roles, s'.observer = { s.observer with
      lastObserved := vault, lastObservedStake := stake, lastObservedRoles := roles } := by
  cases h with
  | power who weight =>
    unfold setVotingPower
    split <;> exact ⟨_, _, _, rfl⟩
  | badges who roles =>
    unfold applyRoles
    split <;> exact ⟨_, _, _, rfl⟩
  | drop who =>
    unfold dropObservedBadges
    split <;> exact ⟨_, _, _, rfl⟩
  | _ => exact ⟨_, _, _, rfl⟩

/-- Of the observer's store a transaction writes the bases only. -/
theorem LedgerWrites.observer (h : LedgerWrites s s') :
    ∃ vault stake roles, s'.observer = { s.observer with
      lastObserved := vault, lastObservedStake := stake, lastObservedRoles := roles } := by
  induction h with
  | refl => exact ⟨_, _, _, rfl⟩
  | tail _ hwrite ih =>
    obtain ⟨_, _, _, hbefore⟩ := ih
    obtain ⟨vault, stake, roles, hafter⟩ := hwrite.observer
    exact ⟨vault, stake, roles, by rw [hafter, hbefore]⟩

theorem dispatchGate_social {call : GateCall} (h : s.dispatchGate cfg origin call = .ok s') :
    s'.social = s.social :=
  (LedgerWrites.dispatchGate h).social

theorem applyChanges_social (args : ObserveArgs) :
    (s.applyChanges cfg args).1.social = s.social :=
  (LedgerWrites.applyChanges args).social

/-! ## The observer's bookkeeping -/

theorem settleFrontier_writes (reference : CardanoRef) (pending : ℕ) :
    s.WritesFrontier (s.settleFrontier reference pending) := by
  unfold settleFrontier
  dsimp only
  split_ifs <;> exact ⟨_, _, _, _, _, _, _, _, rfl⟩

theorem advanceScan_writes (args : ObserveArgs) :
    s.WritesFrontier (s.advanceScan cfg args) := by
  unfold advanceScan
  split_ifs
  · exact ⟨_, _, _, _, _, _, _, _, rfl⟩
  · exact .refl s

theorem stampApplied_writes : s.WritesFrontier s.stampApplied := by
  unfold stampApplied
  dsimp only
  split_ifs <;> exact ⟨_, _, _, _, _, _, _, _, rfl⟩

/-- An accepted observation applies its changes and then only moves the
observer's bookkeeping. -/
theorem observe_accepted (haccepts : s.accepts cfg args.reference) :
    (s.applyChanges cfg args).1.WritesFrontier (s.observe cfg args) := by
  simp only [observe, haccepts, if_true]
  exact (((settleFrontier_writes _ _).trans (advanceScan_writes _)).trans
    stampApplied_writes).trans ⟨_, _, _, _, _, _, _, _, rfl⟩

theorem observe_rejected (hrejects : s.accepts cfg args.reference = false) :
    s.observe cfg args = s := by
  simp [observe, hrejects]

theorem observe_invariant (inv : Runtime → Prop) (args : ObserveArgs)
    (hchanges : inv (s.applyChanges cfg args).1)
    (hfrontier : ∀ before after, before.WritesFrontier after → inv before → inv after)
    (hinit : inv s) : inv (s.observe cfg args) := by
  cases haccepts : s.accepts cfg args.reference with
  | true => exact hfrontier _ _ (observe_accepted haccepts) hchanges
  | false =>
    rw [observe_rejected haccepts]
    exact hinit

theorem observe_social (args : ObserveArgs) : (s.observe cfg args).social = s.social := by
  apply observe_invariant (fun after => after.social = s.social) args
    (applyChanges_social args)
  · intro before after hwrites hbefore
    exact hwrites.social.trans hbefore
  · rfl

theorem setEnforcement_writes (enabled : Bool) :
    s.WritesFrontier (s.setEnforcement enabled) :=
  ⟨_, _, _, _, _, _, _, _, rfl⟩

theorem observerOnInitialize_writes : s.WritesFrontier (s.observerOnInitialize cfg) := by
  unfold observerOnInitialize
  dsimp only
  split_ifs
  · exact ⟨_, _, _, _, _, _, _, _, rfl⟩
  · exact .refl s
  · exact .refl s
  · exact .refl s
  · exact ⟨_, _, _, _, _, _, _, _, rfl⟩

theorem dispatchObserver_ok {call : ObserverCall} (h : s.dispatchObserver cfg origin call = .ok s') :
    (∃ args, call = .observe args ∧ s' = s.observe cfg args) ∨
      (∃ enabled, call = .setEnforcement enabled ∧ s' = s.setEnforcement enabled) := by
  unfold dispatchObserver at h
  split at h
  next args => exact Or.inl ⟨args, rfl, (Except.ok.inj h).symm⟩
  next enabled => exact Or.inr ⟨enabled, rfl, (Except.ok.inj h).symm⟩
  · cases h

theorem dispatchObserver_social {call : ObserverCall}
    (h : s.dispatchObserver cfg origin call = .ok s') : s'.social = s.social := by
  rcases dispatchObserver_ok h with ⟨args, -, rfl⟩ | ⟨enabled, -, rfl⟩
  · exact observe_social args
  · rfl

/-! ## Social calls -/

theorem createPoll_ok {question : Bytes} {options : List Bytes} {closeAt : Option ℕ}
    {kind : PollKind} {action : Option GovAction}
    (h : s.createPoll cfg who question options closeAt kind action = .ok s') :
    s.isAllowed who ∧ ∃ deadline bounded action',
      closeAt = some deadline ∧
      satAdd u32Max s.blockNumber cfg.minPollDuration ≤ deadline ∧
      2 ≤ options.length ∧
      boundOptions cfg [] options = .ok bounded ∧
      s' = s.insertPoll who question ⟨bounded, closeAt, kind, action'⟩ := by
  unfold createPoll at h
  split at h
  · cases h
  next hallowed =>
    split at h
    · cases h
    next deadline =>
      split at h
      · cases h
      next hshort =>
        split at h
        · cases h
        · split at h
          · cases h
          next hoptions =>
            split at h
            · cases h
            · split at h
              · cases h
              next bounded hbounded =>
                split at h
                · cases h
                next action' haction =>
                  rw [Except.ok.injEq] at h
                  exact ⟨by simpa using hallowed, deadline, bounded, action', rfl,
                    Nat.le_of_not_lt hshort, Nat.le_of_not_lt hoptions, hbounded, h.symm⟩

theorem closePoll_ok (h : s.closePoll cfg who host = .ok s') :
    s.isAllowed who ∧ ∃ poll, s.polls.polls.get host = some poll ∧
      ((s.polls.pollResults.contains host ∧ s' = s) ∨
        (s.polls.pollResults.contains host = false ∧
          ∃ deadline, poll.closeAt = some deadline ∧ deadline ≤ s.blockNumber ∧
            s' = s.closePage cfg host poll)) := by
  unfold closePoll at h
  split at h
  · cases h
  next hallowed =>
    refine ⟨by simpa using hallowed, ?_⟩
    split at h
    · cases h
    next poll hpoll =>
      refine ⟨poll, hpoll, ?_⟩
      split at h
      next hdone =>
        exact Or.inl ⟨hdone, (Except.ok.inj h).symm⟩
      next hopen =>
        split at h
        · cases h
        next deadline hdeadline =>
          split at h
          · cases h
          next hpast =>
            exact Or.inr ⟨by simpa using hopen, deadline, hdeadline,
              Nat.le_of_not_lt hpast, (Except.ok.inj h).symm⟩

theorem castPollVote_ok {option : ℕ} (h : s.castPollVote who host option = .ok s') :
    s.isAllowed who ∧ ∃ poll, s.polls.polls.get host = some poll ∧
      option < poll.options.length ∧
      (∀ deadline, poll.closeAt = some deadline → s.blockNumber < deadline) ∧
      s' = { s with polls := s.polls.recordVote host who option }.deposit
        (.pollVoted host who option) := by
  unfold castPollVote at h
  split at h
  · cases h
  next hallowed =>
    refine ⟨by simpa using hallowed, ?_⟩
    split at h
    · cases h
    next poll hpoll =>
      split at h
      · cases h
      next hoption =>
        split at h
        · cases h
        next hopen =>
          refine ⟨poll, hpoll, Nat.lt_of_not_le hoption, ?_, (Except.ok.inj h).symm⟩
          intro deadline hdeadline
          simpa [hdeadline] using hopen

theorem writesSocial (s : Runtime) (feed : Feed) (ballots : Ballots) (graph : FollowGraph)
    (polls : PollStore) (profile : ProfileStore) :
    s.WritesSocial { s with
      feed := feed, ballots := ballots, graph := graph, polls := polls, profile := profile } :=
  ⟨feed, ballots, graph, polls, profile, [], by rw [List.append_nil], nofun⟩

theorem WritesSocial.deposit {event : Event} (h : s.WritesSocial s')
    (hevent : event.social = true) : s.WritesSocial (s'.deposit event) := by
  obtain ⟨feed, ballots, graph, polls, profile, new, rfl, hnew⟩ := h
  refine ⟨feed, ballots, graph, polls, profile, new ++ [event], ?_, ?_⟩
  · rw [← List.append_assoc]
    rfl
  · intro event' hmem
    rcases List.mem_append.mp hmem with hold | hlast
    · exact hnew event' hold
    · rw [List.mem_singleton.mp hlast]
      exact hevent

theorem WritesSocial.ledger (h : s.WritesSocial s') : s'.ledger = s.ledger := by
  obtain ⟨feed, ballots, graph, polls, profile, new, rfl, -⟩ := h
  rfl

theorem closePage_writes (host : ℕ) (poll : Poll) :
    s.WritesMicroblog (s.closePage cfg host poll) := by
  unfold closePage
  dsimp only
  split_ifs
  · unfold finalizeClose
    dsimp only
    split_ifs
    · exact ⟨((s.writesSocial _ _ _ _ _).deposit rfl).deposit rfl, rfl⟩
    · exact ⟨(s.writesSocial _ _ _ _ _).deposit rfl, rfl⟩
  · exact ⟨s.writesSocial _ _ _ _ _, rfl⟩

theorem dispatchSignedMicroblog_writes {call : MicroblogCall}
    (h : s.dispatchSignedMicroblog cfg who call = .ok s') : s.WritesMicroblog s' := by
  cases call with
  | forceSetCapacity account capLast => cases h
  | clearVote _ | clearAccountVote _ =>
    simp only [dispatchSignedMicroblog, mapError_eq_ok_iff, clearVote, clearAccountVote] at h
    split_ifs at h
    split at h
    · cases h
    · rw [← Except.ok.inj h]
      exact ⟨(s.writesSocial _ _ _ _ _).deposit rfl, rfl⟩
  | createPoll question options closeAt kind action =>
    obtain ⟨-, deadline, bounded, action', -, -, -, -, rfl⟩ :=
      createPoll_ok (mapError_eq_ok_iff.mp h)
    exact ⟨((s.writesSocial _ _ _ _ _).deposit rfl).deposit rfl, rfl⟩
  | castPollVote postId option =>
    obtain ⟨-, poll, -, -, -, rfl⟩ := castPollVote_ok (mapError_eq_ok_iff.mp h)
    exact ⟨(s.writesSocial _ _ _ _ _).deposit rfl, rfl⟩
  | closePoll hostId =>
    obtain ⟨-, poll, -, hcases⟩ := closePoll_ok (mapError_eq_ok_iff.mp h)
    rcases hcases with ⟨-, rfl⟩ | ⟨-, deadline, -, -, rfl⟩
    · exact ⟨s'.writesSocial _ _ _ _ _, rfl⟩
    · exact closePage_writes hostId poll
  | _ =>
    simp only [dispatchSignedMicroblog, mapError_eq_ok_iff, postMessage, quotePost, vote,
      voteAccount, follow, unfollow] at h
    split_ifs at h
    rw [← Except.ok.inj h]
    exact ⟨(s.writesSocial _ _ _ _ _).deposit rfl, rfl⟩

inductive ProfileStep (s : Runtime) (who : AccountId) : ProfileCall → ProfileStore → Prop
  | set (profile : Profile) :
      ProfileStep s who (.setProfile profile)
        { s.profile with profiles := s.profile.profiles.insert who profile }
  | clear (hheld : s.profile.profiles.contains who = true) :
      ProfileStep s who .clearProfile
        { s.profile with profiles := s.profile.profiles.remove who }
  | pin (id : ℕ) :
      ProfileStep s who (.pinPost id)
        { s.profile with pinnedPost := s.profile.pinnedPost.insert who id }
  | unpin (hheld : s.profile.pinnedPost.contains who = true) :
      ProfileStep s who .unpinPost
        { s.profile with pinnedPost := s.profile.pinnedPost.remove who }

theorem dispatchProfile_ok {call : ProfileCall} (h : s.dispatchProfile cfg origin call = .ok s') :
    ∃ who store event, origin = .signed who ∧ ProfileStep s who call store ∧
      event.social = true ∧ s' = { s with profile := store }.deposit event := by
  cases origin with
  | authority => cases h
  | none => cases h
  | signed who =>
    unfold dispatchProfile at h
    rw [mapError_eq_ok_iff] at h
    cases call with
    | setProfile profile =>
      simp only [setProfile] at h
      split_ifs at h
      exact ⟨who, _, _, rfl, .set profile, rfl, (Except.ok.inj h).symm⟩
    | clearProfile =>
      simp only [clearProfile] at h
      split_ifs at h with hheld
      exact ⟨who, _, _, rfl, .clear hheld, rfl, (Except.ok.inj h).symm⟩
    | pinPost id =>
      simp only [pinPost] at h
      split_ifs at h
      exact ⟨who, _, _, rfl, .pin id, rfl, (Except.ok.inj h).symm⟩
    | unpinPost =>
      simp only [unpinPost] at h
      split_ifs at h with hheld
      exact ⟨who, _, _, rfl, .unpin hheld, rfl, (Except.ok.inj h).symm⟩

theorem dispatchProfile_writes {call : ProfileCall} (h : s.dispatchProfile cfg origin call = .ok s') :
    s.WritesSocial s' := by
  obtain ⟨who, store, event, -, -, hevent, rfl⟩ := dispatchProfile_ok h
  exact (s.writesSocial _ _ _ _ _).deposit hevent

end Runtime

end CognoChain
