import CognoChain.Close.Chambers
import CognoChain.Ledger.Backing

/-!
# One account per dRep

A dRep badge comes from a claim of that dRep, and a claim is held by one
account at a time.  A badge may outlive the observation that wrote it, but not
the claim: every verb that releases a claim drops the holder's badges, so by
the time another account can be credited no trace of the first is left.
-/

namespace CognoChain

open Substrate CognoChain.Runtime StorageMap

/-! ## The dReps among the roles of an account -/

def drepIds (badges : List ObservedRole) : List RoleCredential :=
  (badges.filter (fun role => role.kind = .dRep)).map ObservedRole.id

def drepTupleIds (roles : List RoleTuple) : List RoleCredential :=
  (roles.filter (fun role => role.1 = 1)).map (fun role => role.2.1)

section Cuts

variable {cfg : Config} {roles : List RoleTuple}

theorem drepTupleIds_append (roles roles' : List RoleTuple) :
    drepTupleIds (roles ++ roles') = drepTupleIds roles ++ drepTupleIds roles' := by
  simp [drepTupleIds]

theorem drepTupleIds_sublist {roles' : List RoleTuple} (h : roles.Sublist roles') :
    (drepTupleIds roles).Sublist (drepTupleIds roles') :=
  (h.filter _).map _

theorem drepTupleIds_ofPass_true (roles : List RoleTuple) :
    drepTupleIds (ofPass true roles) = [] := by
  have hnone : (ofPass true roles).filter (fun role => role.1 = 1) = [] := by
    refine List.filter_eq_nil_iff.mpr (fun role hrole => ?_)
    have hspo : role.1 = 0 := by simpa [isSpo] using (mem_ofPass.mp hrole).2
    simp [hspo]
  rw [drepTupleIds, hnone, List.map_nil]

theorem drepTupleIds_boundedRoles :
    (drepTupleIds (boundedRoles cfg roles)).Sublist (drepTupleIds roles) := by
  unfold boundedRoles
  split_ifs
  · exact List.Sublist.refl _
  · have hspo : ∀ n, drepTupleIds ((ofPass true roles).take n) = [] := by
      intro n
      have hsub := drepTupleIds_sublist (List.take_sublist n (ofPass true roles))
      rw [drepTupleIds_ofPass_true] at hsub
      exact List.sublist_nil.mp hsub
    rw [boundedPass_eq, boundedPass_eq, List.nil_append, drepTupleIds_append, hspo,
      List.append_nil]
    exact drepTupleIds_sublist ((List.take_sublist _ _).trans List.filter_sublist)

theorem drepIds_filterMap (roles : List RoleTuple) :
    drepIds (roles.filterMap observedRole) = drepTupleIds roles := by
  induction roles with
  | nil => rfl
  | cons role roles ih =>
    obtain ⟨kindIx, id, weight⟩ := role
    unfold drepIds drepTupleIds at *
    match kindIx with
    | 0 => simpa [observedRole] using ih
    | 1 => simpa [observedRole] using ih
    | 2 => simpa [observedRole] using ih
    | _ + 3 => simpa [observedRole] using ih

theorem drepIds_boundObservedRoles :
    (drepIds (boundObservedRoles roles)).Sublist (drepTupleIds roles) := by
  have hsub : ∀ {badges badges' : List ObservedRole}, badges.Sublist badges' →
      (drepIds badges).Sublist (drepIds badges') := fun h => (h.filter _).map _
  have hspo : ∀ n, drepIds (((ofPass true roles).filterMap observedRole).take n) = [] := by
    intro n
    have hfront := hsub (List.take_sublist n ((ofPass true roles).filterMap observedRole))
    rw [drepIds_filterMap, drepTupleIds_ofPass_true] at hfront
    exact List.sublist_nil.mp hfront
  have happend : ∀ badges badges' : List ObservedRole,
      drepIds (badges ++ badges') = drepIds badges ++ drepIds badges' := by
    simp [drepIds]
  rw [boundObservedRoles_eq, happend, hspo, List.append_nil]
  refine (hsub (List.take_sublist _ _)).trans ?_
  rw [drepIds_filterMap]
  exact drepTupleIds_sublist List.filter_sublist

end Cuts

/-! ## What a snapshot can badge -/

def CardanoObservation.DrepIdsNative (obs : CardanoObservation) : Prop :=
  ∀ entry ∈ obs.roleEntries, entry.source = .dRep → entry.id = entry.credential

instance (obs : CardanoObservation) : Decidable obs.DrepIdsNative :=
  inferInstanceAs (Decidable (∀ entry ∈ obs.roleEntries, _))

def Op.drepIdsNative : Op → Prop
  | .inherent obs => obs.DrepIdsNative
  | _ => True

instance (op : Op) : Decidable op.drepIdsNative :=
  match op with
  | .inherent obs => inferInstanceAs (Decidable obs.DrepIdsNative)
  | .nextBlock _ | .call _ _ | .extrinsic _ _ _ => .isTrue trivial

namespace Runtime

variable {cfg : Config} {s t : Runtime} {who : AccountId}

/-- A badge list whose dReps are distinct and all claimed by the account. -/
structure DrepsClaimed (s : Runtime) (who : AccountId) (ids : List RoleCredential) : Prop where
  nodup : ids.Nodup
  claimed : ∀ id ∈ ids, s.roles.roleClaimOf.get (who, .dRep) = some id

theorem DrepsClaimed.nil : DrepsClaimed s who [] :=
  ⟨List.nodup_nil, fun _ h => absurd h List.not_mem_nil⟩

theorem DrepsClaimed.sublist {ids ids' : List RoleCredential} (h : DrepsClaimed s who ids)
    (hsub : ids'.Sublist ids) : DrepsClaimed s who ids' :=
  ⟨h.nodup.sublist hsub, fun id hid => h.claimed id (hsub.subset hid)⟩

theorem drepTupleIds_addRole (set : List RoleTuple) (role : RoleTuple) :
    drepTupleIds (addRole set role) = drepTupleIds set ∨
      (role.1 = 1 ∧ role.2.1 ∉ drepTupleIds set ∧
        drepTupleIds (addRole set role) = drepTupleIds set ++ [role.2.1]) := by
  unfold addRole
  split_ifs with hany
  · exact Or.inl rfl
  · rw [drepTupleIds_append]
    by_cases hkind : role.1 = 1
    · refine Or.inr ⟨hkind, ?_, by simp [drepTupleIds, hkind]⟩
      intro hmem
      obtain ⟨other, hother, hid⟩ := List.mem_map.mp hmem
      obtain ⟨hset, hone⟩ := List.mem_filter.mp hother
      apply hany
      rw [List.any_eq_true]
      refine ⟨other, hset, ?_⟩
      simpa [hkind, hid] using hone
    · exact Or.inl (by simp [drepTupleIds, hkind])

theorem DrepsClaimed.addRole {set : List RoleTuple} {role : RoleTuple}
    (h : DrepsClaimed s who (drepTupleIds set))
    (hrole : role.1 = 1 → s.roles.roleClaimOf.get (who, .dRep) = some role.2.1) :
    DrepsClaimed s who (drepTupleIds (Runtime.addRole set role)) := by
  rcases drepTupleIds_addRole set role with hsame | ⟨hkind, hfresh, hadded⟩
  · rwa [hsame]
  · rw [hadded]
    refine ⟨?_, ?_⟩
    · rw [← List.concat_eq_append]
      exact h.nodup.concat hfresh
    · intro id hid
      rcases List.mem_append.mp hid with hold | hnew
      · exact h.claimed id hold
      · rw [List.mem_singleton.mp hnew]
        exact hrole hkind

theorem roleDesired_drepsClaimed (hclaims : (s.register.claims .dRep).Sound)
    {obs : CardanoObservation} (hnative : obs.DrepIdsNative) {set : List RoleTuple}
    (hget : (s.roleDesired obs).get who = some set) :
    DrepsClaimed s who (drepTupleIds set) := by
  apply roleDesired_induction (fun set => DrepsClaimed s who (drepTupleIds set)) .nil _ hget
  intro entry hentry hresolve set hset
  refine hset.addRole (fun hkind => ?_)
  have hsource : entry.source = .dRep := by
    revert hkind
    cases entry.source <;> simp [RoleSource.kindIndex]
  rw [hsource] at hresolve
  rw [hnative entry hentry hsource]
  exact (hclaims who entry.credential).mpr hresolve

end Runtime

namespace RoleLedger

variable {l : RoleLedger} {changes : List RoleChange} {who : AccountId}

theorem applyChange_badgesOf_self (change : RoleChange) :
    (l.applyChange change).badgesOf change.who = boundObservedRoles (change.roles.getD []) := by
  obtain ⟨account, roles⟩ := change
  match roles with
  | none => exact assign_badgesOf_self []
  | some [] => exact assign_badgesOf_self []
  | some (role :: roles) => exact assign_badgesOf_self _

theorem foldl_badgesOf_of_not_listed (hlisted : who ∉ changes.map RoleChange.who) :
    (changes.foldl applyChange l).badgesOf who = l.badgesOf who := by
  refine List.foldlRecOn (motive := fun after : RoleLedger =>
    after.badgesOf who = l.badgesOf who) changes _ rfl (fun after hafter change hchange => ?_)
  have hne : who ≠ change.who := by
    rintro rfl
    exact hlisted (List.mem_map_of_mem hchange)
  rw [applyChange_badgesOf_of_ne hne, hafter]

theorem foldl_badgesOf_of_listed (hlisted : who ∈ changes.map RoleChange.who) :
    ∃ change ∈ changes, change.who = who ∧
      (changes.foldl applyChange l).badgesOf who =
        boundObservedRoles (change.roles.getD []) := by
  induction changes using List.reverseRecOn with
  | nil => cases hlisted
  | append_singleton changes change ih =>
    rw [List.foldl_append, List.foldl_cons, List.foldl_nil]
    by_cases hwho : who = change.who
    · subst hwho
      exact ⟨change, by simp, rfl, applyChange_badgesOf_self change⟩
    · obtain ⟨earlier, hearlier, hsame, hbadges⟩ := ih (by simpa [hwho] using hlisted)
      refine ⟨earlier, List.mem_append_left _ hearlier, hsame, ?_⟩
      rw [applyChange_badgesOf_of_ne hwho, hbadges]

/-- What a list of changes leaves an account with: its badges, nothing, or the
bounded form of a set listed for it. -/
theorem foldl_badgesOf_induction (P : List ObservedRole → Prop) (hnil : P [])
    (hinit : P (l.badgesOf who))
    (hset : ∀ change ∈ changes, change.who = who → ∀ roles, change.roles = some roles →
      P (boundObservedRoles roles)) :
    P ((changes.foldl applyChange l).badgesOf who) := by
  by_cases hlisted : who ∈ changes.map RoleChange.who
  · obtain ⟨change, hchange, hwho, hbadges⟩ := foldl_badgesOf_of_listed (l := l) hlisted
    rw [hbadges]
    cases hroles : change.roles with
    | none => exact hnil
    | some roles => exact hset change hchange hwho roles hroles
  · rwa [foldl_badgesOf_of_not_listed hlisted]

end RoleLedger

namespace Runtime

variable {cfg : Config} {s t : Runtime} {who : AccountId}

/-! ## Every step -/

def DrepBacked (s : Runtime) (who : AccountId) : Prop :=
  DrepsClaimed s who (drepIds (s.observedRolesOf who))

theorem DrepBacked.of_dropped (h : t.observedRolesOf who = []) : DrepBacked t who := by
  rw [DrepBacked, h]
  exact .nil

theorem DrepBacked.of_kept (hbacked : DrepBacked s who)
    (hbadges : t.observedRolesOf who = s.observedRolesOf who)
    (hclaims : ∀ id, s.roles.roleClaimOf.get (who, .dRep) = some id →
      t.roles.roleClaimOf.get (who, .dRep) = some id) : DrepBacked t who := by
  rw [DrepBacked, hbadges]
  exact ⟨hbacked.nodup, fun id hid => hclaims id (hbacked.claimed id hid)⟩

theorem BadgeMove.drepBacked (hmove : BadgeMove s t) (hbacked : DrepBacked s who) :
    DrepBacked t who := by
  cases hmove with
  | keeps hbadges _ hclaims => exact hbacked.of_kept (hbadges who) (fun _ => hclaims)
  | @tearsDown torn htorn =>
    have hbadges := htorn.badges who
    by_cases hwho : who = torn
    · rw [if_pos hwho] at hbadges
      exact .of_dropped hbadges
    · rw [if_neg hwho] at hbadges
      refine hbacked.of_kept hbadges (fun id hid => ?_)
      rwa [htorn.claims who hwho]

theorem observeSnapshot_drepBacked (hclaims : (s.register.claims .dRep).Sound)
    {obs : CardanoObservation} (hnative : obs.DrepIdsNative) (hbacked : DrepBacked s who) :
    DrepBacked (s.observeSnapshot cfg obs) who := by
  have hregister : (s.observeSnapshot cfg obs).register = s.register := observe_register _
  have hmoved : SameAxes s (s.observeSnapshot cfg obs) ∨
      AppliesAxes cfg s (s.deriveCall cfg obs) (s.observeSnapshot cfg obs) :=
    observe_axes_cases _
  have hkept : ∀ ids, DrepsClaimed s who ids → DrepsClaimed (s.observeSnapshot cfg obs) who ids := by
    intro ids hids
    refine ⟨hids.nodup, fun id hid => ?_⟩
    exact (congrArg (fun r => r.roleClaimOf.get (who, .dRep)) hregister).trans
      (hids.claimed id hid)
  apply hkept
  rcases hmoved with hsame | happlies
  · have hbadges : (s.observeSnapshot cfg obs).observedRolesOf who = s.observedRolesOf who :=
      congrArg (fun l => RoleLedger.badgesOf l who) hsame.roles
    rw [hbadges]
    exact hbacked
  · have hbadges : (s.observeSnapshot cfg obs).observedRolesOf who =
        ((s.deriveCall cfg obs).roleChanges.foldl RoleLedger.applyChange
          s.roleLedger).badgesOf who :=
      congrArg (fun l => RoleLedger.badgesOf l who) happlies.roles
    rw [hbadges]
    refine RoleLedger.foldl_badgesOf_induction
      (fun badges => DrepsClaimed s who (drepIds badges)) .nil hbacked ?_
    rintro change hchange rfl roles hroles
    rcases mem_roleDelta.mp (List.mem_of_mem_take hchange) with ⟨set, hget, hset, -⟩ | ⟨hnone, -⟩
    · rw [hset] at hroles
      rw [← Option.some.inj hroles]
      exact (roleDesired_drepsClaimed hclaims hnative hget).sublist
        (drepIds_boundObservedRoles.trans drepTupleIds_boundedRoles)
    · rw [hnone] at hroles
      cases hroles

theorem step_drepBacked (hclaims : (s.register.claims .dRep).Sound) {op : Op}
    (hderived : op.derived) (hnative : op.drepIdsNative) (hbacked : DrepBacked s who) :
    DrepBacked (s.step cfg op) who := by
  rcases step_badgeMoves hderived with ⟨obs, rfl⟩ | ⟨account, hunlink⟩ | hmoves
  · exact observeSnapshot_drepBacked hclaims hnative hbacked
  · obtain ⟨_, -, hregister⟩ := unlinkStake_register hunlink
    refine hbacked.of_kept (unlinkStake_badges hunlink who) (fun id hid => ?_)
    exact (congrArg (fun r => r.roleClaimOf.get (who, .dRep)) hregister).trans hid
  · exact reach_invariant (fun after => DrepBacked after who)
      (fun _ _ hmove hbefore => hmove.drepBacked hbefore) hmoves hbacked

theorem run_drepBacked (hclaims : (s.register.claims .dRep).Sound)
    (hbacked : ∀ who, DrepBacked s who) (ops : List Op) (hderived : ∀ op ∈ ops, op.derived)
    (hnative : ∀ op ∈ ops, op.drepIdsNative) (who : AccountId) :
    DrepBacked (s.run cfg ops) who := by
  induction ops using List.reverseRecOn with
  | nil => exact hbacked who
  | append_singleton ops op ih =>
    have hrun : s.run cfg (ops ++ [op]) = (s.run cfg ops).step cfg op := run_concat _ _ _
    rw [hrun]
    apply step_drepBacked ((run_claims ops .dRep).sound hclaims) (hderived op (by simp))
      (hnative op (by simp))
    exact ih (fun earlier hmem => hderived earlier (List.mem_append_left _ hmem))
      (fun earlier hmem => hnative earlier (List.mem_append_left _ hmem))

/-! ## What the chambers count -/

def drepParts (s : Runtime) (host numOptions : ℕ) (who : AccountId) : List (ℕ × ℕ) :=
  match s.ballotOf host who with
  | none => []
  | some option =>
      if numOptions ≤ option then []
      else ((s.observedRolesOf who).filter (fun role => role.kind = .dRep)).map
        (fun role => (option, role.weight))

section Chambers

variable {wants : ℕ → Bool} {host numOptions : ℕ} {accounts : List AccountId}

theorem badgeSightings_dreps (hwants : wants 1 = true) (option : ℕ) :
    (badgeSightings wants option (s.rolesOf who)).filter (fun x => x.key.1 = 1) =
      ((s.observedRolesOf who).filter (fun role => role.kind = .dRep)).map
        (fun role => ⟨(1, role.id), option, role.weight⟩) := by
  unfold badgeSightings rolesOf
  generalize s.observedRolesOf who = badges
  induction badges with
  | nil => rfl
  | cons badge badges ih =>
    obtain ⟨kind, id, weight⟩ := badge
    cases kind with
    | spo => cases hspo : wants 0 <;> simpa [RoleKind.index, hspo] using ih
    | dRep => simpa [RoleKind.index, hwants] using ih
    | committee => cases hcommittee : wants 2 <;> simpa [RoleKind.index, hcommittee] using ih

theorem voterSightings_drepParts (hwants : wants 1 = true) :
    ((voterSightings wants numOptions (s.ballotOf host) s.rolesOf who).filter
        (fun x => x.key.1 = 1)).map (fun x => (x.option, x.weight)) =
      s.drepParts host numOptions who := by
  unfold voterSightings drepParts
  cases s.ballotOf host who with
  | none => rfl
  | some option =>
    dsimp only
    split_ifs
    · rfl
    · rw [badgeSightings_dreps hwants, List.map_map]
      rfl

theorem voterSightings_drepKeys (hwants : wants 1 = true) :
    (((voterSightings wants numOptions (s.ballotOf host) s.rolesOf who).filter
        (fun x => x.key.1 = 1)).map Sighting.key).Sublist
      ((drepIds (s.observedRolesOf who)).map (fun id => (1, id))) := by
  unfold voterSightings
  split
  · exact List.nil_sublist _
  · split_ifs
    · exact List.nil_sublist _
    · rw [badgeSightings_dreps hwants, drepIds, List.map_map, List.map_map]
      exact List.Sublist.refl _

theorem DrepBacked.unique (hclaims : (s.register.claims .dRep).Sound)
    (hbacked : ∀ who, DrepBacked s who) {other : AccountId} {id : RoleCredential}
    (hwho : id ∈ drepIds (s.observedRolesOf who))
    (hother : id ∈ drepIds (s.observedRolesOf other)) : who = other := by
  have hfirst : s.roles.roleCredIndex.get (.dRep, id) = some who :=
    (hclaims who id).mp ((hbacked who).claimed id hwho)
  have hsecond : s.roles.roleCredIndex.get (.dRep, id) = some other :=
    (hclaims other id).mp ((hbacked other).claimed id hother)
  exact Option.some.inj (hfirst.symm.trans hsecond)

theorem drepIds_nodup (hclaims : (s.register.claims .dRep).Sound)
    (hbacked : ∀ who, DrepBacked s who) (haccounts : accounts.Nodup) :
    (accounts.flatMap (fun who => drepIds (s.observedRolesOf who))).Nodup := by
  refine List.nodup_flatMap.mpr ⟨fun who _ => (hbacked who).nodup, ?_⟩
  refine haccounts.imp (fun {who other} hne id hwho hother => hne ?_)
  exact DrepBacked.unique hclaims hbacked hwho hother

theorem drepWeights_eq (hwants : wants 1 = true)
    (hnodup : (accounts.flatMap (fun who => drepIds (s.observedRolesOf who))).Nodup) :
    (chamberTotals numOptions
        (sightings wants numOptions (s.ballotOf host) s.rolesOf accounts)).drepWeights =
      slotSums u128Max numOptions (accounts.flatMap (s.drepParts host numOptions)) := by
  have hparts : ((sightings wants numOptions (s.ballotOf host) s.rolesOf accounts).filter
        (fun x => x.key.1 = 1)).map (fun x => (x.option, x.weight)) =
      accounts.flatMap (s.drepParts host numOptions) := by
    rw [sightings, List.filter_flatMap, List.map_flatMap]
    exact List.flatMap_congr (fun who _ => voterSightings_drepParts hwants)
  have hkeys : (((sightings wants numOptions (s.ballotOf host) s.rolesOf accounts).filter
        (fun x => x.key.1 = 1)).map Sighting.key).Nodup := by
    have hids : ((accounts.flatMap (fun who => drepIds (s.observedRolesOf who))).map
        (fun id => ((1 : ℕ), id))).Nodup := hnodup.map (fun _ _ h => (Prod.mk.inj h).2)
    rw [List.map_flatMap] at hids
    rw [sightings, List.filter_flatMap, List.map_flatMap]
    exact hids.sublist (.flatMap_right _ (fun who _ => voterSightings_drepKeys hwants))
  rw [chamberTotals_drepWeights (fun x hx => sightings_option_lt hx) hkeys, hparts]

theorem resultAt_drepWeights {poll : Poll} (hkind : poll.kind.hasDrep = true)
    (hnodup : ((s.polls.pollVotes.prefixKeys cfg.blake2 host).flatMap
      (fun who => drepIds (s.observedRolesOf who))).Nodup) (counts : List ℕ) (closedAt : ℕ) :
    ((s.closePlan cfg host poll).resultAt counts closedAt).optionDrepWeights =
      if 0 < counts.foldl (satAdd u32Max) 0 then
        slotSums u128Max poll.options.length
          ((s.polls.pollVotes.prefixKeys cfg.blake2 host).flatMap
            (s.drepParts host poll.options.length))
      else [] := by
  have hwants : poll.kind.wants 1 = true := hkind
  have hchambers : poll.kind.hasChambers = true := by
    simp [PollKind.hasChambers, hkind]
  have hdrained := (s.closePlan cfg host poll).drained_keys
  rw [← drepWeights_eq hwants hnodup, ClosePlan.resultAt, hdrained, resultOf]
  simp only [hkind, hchambers, Bool.and_true, decide_eq_true_eq]
  rfl

end Chambers

end Runtime

/-- While every snapshot names dReps by their credential, no dRep is badged to
two accounts or twice to one, so adding up dRep weight account by account, as
the live view and a close do, counts each dRep once. -/
theorem dreps_counted_once (cfg : Config) (earlier ops : List Op)
    (hearlier : ∀ op ∈ earlier, op.derived)
    (hbases : (genesis.run cfg earlier).observer.lastObservedRoles = ∅)
    (hderived : ∀ op ∈ ops, op.derived) (hnative : ∀ op ∈ ops, op.drepIdsNative) :
    let s := (genesis.run cfg earlier).run cfg ops
    (∀ who other id, id ∈ drepIds (s.observedRolesOf who) →
      id ∈ drepIds (s.observedRolesOf other) → who = other) ∧
    (∀ who, (drepIds (s.observedRolesOf who)).Nodup) ∧
    (∀ host numOptions wantSpo, ∀ holders : List AccountId, holders.Nodup →
      (s.pollChamberWeights host numOptions holders wantSpo true).drepWeights =
        slotSums u128Max numOptions (holders.flatMap (s.drepParts host numOptions))) ∧
    (∀ host deadline poll, PollIdle host deadline poll s → poll.kind.hasDrep = true →
      1 ≤ cfg.maxClosePage →
      ∃ calls, ∀ later, Along (step cfg) (KeepsCensus cfg) s later →
        calls ≤ closeCalls cfg host s later →
        ∃ result, (s.run cfg later).polls.pollResults.get host = some result ∧
          result.optionDrepWeights =
            if 0 < (s.optionCounts host poll).foldl (satAdd u32Max) 0 then
              slotSums u128Max poll.options.length
                ((s.polls.pollVotes.prefixKeys cfg.blake2 host).flatMap
                  (s.drepParts host poll.options.length))
            else []) := by
  intro s
  have hstart : ∀ role, ((genesis.run cfg earlier).register.claims role).Sound :=
    run_claims_sound earlier
  have hclaims : (s.register.claims .dRep).Sound :=
    (Runtime.run_claims ops .dRep).sound (hstart .dRep)
  have hempty : ∀ who, (genesis.run cfg earlier).observedRolesOf who = [] := by
    have hsound : (genesis.run cfg earlier).roleLedger.Sound := by
      apply reach_invariant (fun a : Axes => a.roles.Sound)
        (fun _ _ hmove hinv => hinv.move hmove) (run_axes hearlier)
      exact ⟨nofun, fun _ => rfl⟩
    intro who
    have hrow : (genesis.run cfg earlier).roleLedger.basis.get who = none := by
      change (genesis.run cfg earlier).observer.lastObservedRoles.get who = none
      rw [hbases]
      rfl
    exact hsound.unbacked hrow
  have hbacked : ∀ who, s.DrepBacked who :=
    Runtime.run_drepBacked (hstart .dRep) (fun who => .of_dropped (hempty who)) ops hderived
      hnative
  refine ⟨fun who other id => Runtime.DrepBacked.unique hclaims hbacked, fun who => (hbacked who).nodup, ?_, ?_⟩
  · intro host numOptions wantSpo holders hholders
    rw [pollChamberWeights_eq]
    exact Runtime.drepWeights_eq rfl (Runtime.drepIds_nodup hclaims hbacked hholders)
  · intro host deadline poll hidle hkind hpage
    refine ⟨(s.closePlan cfg host poll).voters.length + (s.closePlan cfg host poll).keys.length +
      1 + 1, fun later hkeeps hcalls => ?_⟩
    obtain ⟨closedAt, hclosed⟩ := hidle.closes hpage hkeeps hcalls
    refine ⟨_, hclosed.result, ?_⟩
    exact Runtime.resultAt_drepWeights hkind
      (Runtime.drepIds_nodup hclaims hbacked (prefixKeys_nodup _ _ _)) _ _

def handedDrepOps : List Op :=
  [.nextBlock 0,
    .call .none (.gate (.linkIdentitySigned ⟨[1, 5], []⟩)),
    .call .none (.gate (.linkIdentitySigned ⟨[2, 6], []⟩)),
    .call .none (.roles (.claimRoleSigned ⟨[1, 1, 9, 0], []⟩)),
    .inherent ⟨⟨10, 0⟩, 0, [], [], [⟨.dRep, ⟨9⟩, ⟨9⟩, 50⟩]⟩,
    .call (.signed ⟨1⟩) (.microblog (.createPoll [] [[0], [1]] (some 20000) .drep none)),
    .call (.signed ⟨1⟩) (.microblog (.castPollVote 0 0)),
    .call (.signed ⟨2⟩) (.microblog (.castPollVote 0 1)),
    .call (.signed ⟨1⟩) (.roles (.unclaimRole .dRep)),
    .call .none (.roles (.claimRoleSigned ⟨[2, 1, 9, 0], []⟩)),
    .inherent ⟨⟨20, 0⟩, 0, [], [], [⟨.dRep, ⟨9⟩, ⟨9⟩, 60⟩]⟩]

theorem dreps_counted_once_handed :
    drepIds ((genesis.run Config.toy handedDrepOps).observedRolesOf ⟨2⟩) = [⟨9⟩] ∧
      ((genesis.run Config.toy handedDrepOps).pollChamberWeights 0 2 [⟨1⟩, ⟨2⟩] false
        true).drepWeights = [0, 60] := by
  obtain ⟨-, -, hlive, -⟩ := dreps_counted_once Config.toy [] handedDrepOps (by simp) rfl
    (by decide) (by decide)
  refine ⟨by decide +kernel, (hlive 0 2 false [⟨1⟩, ⟨2⟩] (by decide)).trans ?_⟩
  decide +kernel

end CognoChain
