import CognoChain.Ledger.Convergence
import CognoChain.Ledger.Dreps

/-!
# Co-owners of a pool

The pool chamber counts a pool once, at the weight of the first badge it meets,
so its totals depend on the order of the holders as soon as two badges of one
pool carry different weights.  A snapshot prices every pool once, but a page or
a scan window may refresh one owner and leave another at an older weight.
-/

namespace CognoChain

open Substrate CognoChain.Runtime StorageMap RoleLedger

def CardanoObservation.PoolsPriced (obs : CardanoObservation) : Prop :=
  ∀ entry ∈ obs.roleEntries, ∀ entry' ∈ obs.roleEntries, entry.source.kindIndex = 0 →
    entry'.source.kindIndex = 0 → entry.id = entry'.id → entry.weight = entry'.weight

instance (obs : CardanoObservation) : Decidable obs.PoolsPriced :=
  inferInstanceAs (Decidable (∀ entry ∈ obs.roleEntries, _))

def Op.poolsPriced : Op → Prop
  | .inherent obs => obs.PoolsPriced
  | _ => True

instance (op : Op) : Decidable op.poolsPriced :=
  match op with
  | .inherent obs => inferInstanceAs (Decidable obs.PoolsPriced)
  | .nextBlock _ | .call _ _ | .extrinsic _ _ _ => .isTrue trivial

namespace Runtime

variable {cfg : Config} {s t : Runtime} {op : Op} {who : AccountId}

/-- A block that writes a pool badge leaves no badge of the pool at another
weight. -/
def RefreshesTogether (cfg : Config) (s : Runtime) (obs : CardanoObservation) : Prop :=
  s.accepts cfg obs.reference = true → s.observer.enforceWeight = true →
    ∀ change ∈ (s.deriveCall cfg obs).roleChanges,
      ∀ fresh ∈ boundObservedRoles (change.roles.getD []), fresh.kind = .spo →
        ∀ other, other ∉ (s.deriveCall cfg obs).roleChanges.map RoleChange.who →
          ∀ stale ∈ s.observedRolesOf other, stale.kind = .spo → stale.id = fresh.id →
            stale.weight = fresh.weight

def refreshesTogether (cfg : Config) (s : Runtime) : Op → Prop
  | .inherent obs => s.RefreshesTogether cfg obs
  | _ => True

/-! ## What a snapshot writes -/

theorem tuple_of_observedRole {role : RoleTuple} {badge : ObservedRole}
    (h : observedRole role = some badge) : badge.tuple = role := by
  obtain ⟨kindIx, id, weight⟩ := role
  match kindIx with
  | 0 | 1 | 2 =>
    rw [← Option.some.inj h]
    rfl
  | _ + 3 => cases h

theorem mem_boundObservedRoles {roles : List RoleTuple} {badge : ObservedRole}
    (hbadge : badge ∈ boundObservedRoles roles) : badge.tuple ∈ roles := by
  have hpass : ∀ spoPass, badge ∈ (ofPass spoPass roles).filterMap observedRole →
      badge.tuple ∈ roles := by
    intro spoPass hmem
    obtain ⟨role, hrole, hstored⟩ := List.mem_filterMap.mp hmem
    rw [tuple_of_observedRole hstored]
    exact (mem_ofPass.mp hrole).1
  rw [boundObservedRoles_eq] at hbadge
  rcases List.mem_append.mp hbadge with hmem | hmem
  · exact hpass _ (List.mem_of_mem_take hmem)
  · exact hpass _ (List.mem_of_mem_take hmem)

theorem mem_roleChanges {obs : CardanoObservation} {change : RoleChange} {fresh : ObservedRole}
    (hchange : change ∈ (s.deriveCall cfg obs).roleChanges)
    (hfresh : fresh ∈ boundObservedRoles (change.roles.getD [])) :
    ∃ entry ∈ obs.roleEntries, fresh.tuple = (entry.source.kindIndex, entry.id, entry.weight) := by
  have hrole := mem_boundObservedRoles hfresh
  rcases mem_roleDelta.mp (List.mem_of_mem_take hchange) with ⟨set, hget, hset, -⟩ | ⟨hnone, -⟩
  · rw [hset] at hrole
    exact mem_roleDesired hget (mem_boundedRoles hrole)
  · rw [hnone] at hrole
    cases hrole

/-! ## Steps -/

theorem PoolsAgree.of_kept_or_dropped (hagree : s.PoolsAgree)
    (hbadges : ∀ who, t.observedRolesOf who = s.observedRolesOf who ∨
      t.observedRolesOf who = []) : t.PoolsAgree := by
  have hkept : ∀ who role, role ∈ t.observedRolesOf who → role ∈ s.observedRolesOf who := by
    intro who role hrole
    rcases hbadges who with hsame | hnone
    · rwa [hsame] at hrole
    · rw [hnone] at hrole
      cases hrole
  intro who who' role role' hrole hrole'
  exact hagree who who' role role' (hkept who role hrole) (hkept who' role' hrole')

section Snapshot

variable {obs : CardanoObservation}

theorem observeSnapshot_badges (haccepts : s.accepts cfg obs.reference = true)
    (henforce : s.observer.enforceWeight = true) (who : AccountId) :
    (s.observeSnapshot cfg obs).observedRolesOf who =
      ((s.deriveCall cfg obs).roleChanges.foldl applyChange s.roleLedger).badgesOf
        who := by
  have happlies : AppliesAxes cfg s (s.deriveCall cfg obs) (s.observeSnapshot cfg obs) :=
    observe_axes haccepts henforce
  exact congrArg (fun l => badgesOf l who) happlies.roles

theorem mem_observeSnapshot (haccepts : s.accepts cfg obs.reference = true)
    (henforce : s.observer.enforceWeight = true) {badge : ObservedRole}
    (hbadge : badge ∈ (s.observeSnapshot cfg obs).observedRolesOf who) :
    (∃ change ∈ (s.deriveCall cfg obs).roleChanges,
        badge ∈ boundObservedRoles (change.roles.getD [])) ∨
      (who ∉ (s.deriveCall cfg obs).roleChanges.map RoleChange.who ∧
        badge ∈ s.observedRolesOf who) := by
  rw [observeSnapshot_badges haccepts henforce] at hbadge
  by_cases hlisted : who ∈ (s.deriveCall cfg obs).roleChanges.map RoleChange.who
  · obtain ⟨change, hchange, -, hwritten⟩ :=
      foldl_badgesOf_of_listed (l := s.roleLedger) hlisted
    rw [hwritten] at hbadge
    exact Or.inl ⟨change, hchange, hbadge⟩
  · rw [foldl_badgesOf_of_not_listed hlisted] at hbadge
    exact Or.inr ⟨hlisted, hbadge⟩

theorem fresh_weight_eq (hpriced : obs.PoolsPriced) {change change' : RoleChange}
    {fresh fresh' : ObservedRole} (hchange : change ∈ (s.deriveCall cfg obs).roleChanges)
    (hchange' : change' ∈ (s.deriveCall cfg obs).roleChanges)
    (hfresh : fresh ∈ boundObservedRoles (change.roles.getD []))
    (hfresh' : fresh' ∈ boundObservedRoles (change'.roles.getD []))
    (hkind : fresh.kind = .spo) (hkind' : fresh'.kind = .spo) (hid : fresh.id = fresh'.id) :
    fresh.weight = fresh'.weight := by
  have hfields : ∀ {badge : ObservedRole} {entry : RoleEntry}, badge.kind = .spo →
      badge.tuple = (entry.source.kindIndex, entry.id, entry.weight) →
        entry.source.kindIndex = 0 ∧ badge.id = entry.id ∧ badge.weight = entry.weight := by
    intro badge entry hspo htuple
    obtain ⟨hindex, hrest⟩ := Prod.mk.inj htuple
    rw [hspo] at hindex
    exact ⟨hindex.symm, Prod.mk.inj hrest⟩
  obtain ⟨entry, hentry, htuple⟩ := mem_roleChanges hchange hfresh
  obtain ⟨entry', hentry', htuple'⟩ := mem_roleChanges hchange' hfresh'
  obtain ⟨hzero, hentryId, hweight⟩ := hfields hkind htuple
  obtain ⟨hzero', hentryId', hweight'⟩ := hfields hkind' htuple'
  rw [hweight, hweight']
  exact hpriced entry hentry entry' hentry' hzero hzero'
    (hentryId.symm.trans (hid.trans hentryId'))

theorem observeSnapshot_poolsAgree (hpriced : obs.PoolsPriced)
    (htogether : s.RefreshesTogether cfg obs) (hagree : s.PoolsAgree) :
    (s.observeSnapshot cfg obs).PoolsAgree := by
  by_cases hidle : s.accepts cfg obs.reference = false ∨ s.observer.enforceWeight = false
  · have hsame : SameAxes s (s.observeSnapshot cfg obs) := observe_sameAxes hidle
    exact hagree.of_kept_or_dropped (fun who =>
      Or.inl (congrArg (fun l => badgesOf l who) hsame.roles))
  rw [not_or, Bool.not_eq_false, Bool.not_eq_false] at hidle
  obtain ⟨haccepts, henforce⟩ := hidle
  intro who who' badge badge' hbadge hbadge' hkind hkind' hid
  rcases mem_observeSnapshot haccepts henforce hbadge with
    ⟨change, hchange, hfresh⟩ | ⟨hleft, hold⟩
  · rcases mem_observeSnapshot haccepts henforce hbadge' with
      ⟨change', hchange', hfresh'⟩ | ⟨hleft', hold'⟩
    · exact fresh_weight_eq hpriced hchange hchange' hfresh hfresh' hkind hkind' hid
    · exact (htogether haccepts henforce change hchange badge hfresh hkind who' hleft' badge'
        hold' hkind' hid.symm).symm
  · rcases mem_observeSnapshot haccepts henforce hbadge' with
      ⟨change', hchange', hfresh'⟩ | ⟨-, hold'⟩
    · exact htogether haccepts henforce change' hchange' badge' hfresh' hkind' who hleft badge
        hold hkind hid
    · exact hagree who who' badge badge' hold hold' hkind hkind' hid

theorem refreshesTogether_of_agree (hafter : (s.observeSnapshot cfg obs).PoolsAgree) :
    s.RefreshesTogether cfg obs := by
  intro haccepts henforce change hchange fresh hfresh hkind other hother stale hstale hkind' hid
  have hkeys : ((s.deriveCall cfg obs).roleChanges.map RoleChange.who).Nodup :=
    roleDelta_keys_nodup.sublist ((List.take_sublist _ _).map _)
  have hwritten : fresh ∈ (s.observeSnapshot cfg obs).observedRolesOf change.who := by
    obtain ⟨listed, hlisted, hwho, hbadges⟩ := foldl_badgesOf_of_listed
      (l := s.roleLedger) (List.mem_map_of_mem (f := RoleChange.who) hchange)
    have hsame : listed = change := List.inj_on_of_nodup_map hkeys hlisted hchange hwho
    rw [observeSnapshot_badges haccepts henforce, hbadges, hsame]
    exact hfresh
  have hkept : stale ∈ (s.observeSnapshot cfg obs).observedRolesOf other := by
    rw [observeSnapshot_badges haccepts henforce,
      foldl_badgesOf_of_not_listed hother]
    exact hstale
  exact hafter other change.who stale fresh hkept hwritten hkind' hkind hid

end Snapshot

theorem step_badges (hderived : op.derived) (hother : ∀ obs, op ≠ .inherent obs)
    (who : AccountId) :
    (s.step cfg op).observedRolesOf who = s.observedRolesOf who ∨
      (s.step cfg op).observedRolesOf who = [] := by
  rcases step_badgeMoves hderived with ⟨obs, hop⟩ | ⟨account, hunlink⟩ | hmoves
  · exact absurd hop (hother obs)
  · exact Or.inl (unlinkStake_badges hunlink who)
  · refine reach_invariant (fun after : Runtime => after.observedRolesOf who =
      s.observedRolesOf who ∨ after.observedRolesOf who = []) ?_ hmoves (Or.inl rfl)
    rintro before after (⟨hkept, -, -⟩ | htorn) hbefore
    · rwa [hkept]
    · have hbadges := htorn.badges who
      split_ifs at hbadges
      · exact Or.inr hbadges
      · rwa [hbadges]

theorem step_poolsAgree (hderived : op.derived) (hpriced : op.poolsPriced)
    (htogether : s.refreshesTogether cfg op) (hagree : s.PoolsAgree) :
    (s.step cfg op).PoolsAgree := by
  cases op with
  | inherent obs => exact observeSnapshot_poolsAgree hpriced htogether hagree
  | _ => exact hagree.of_kept_or_dropped (step_badges hderived nofun)

/-! ## Chambers -/

/-- Where the holders of a pool agree on its weight and each dRep badge rests on
its claim, no two sightings contradict each other. -/
theorem sightings_unambiguous (hagree : s.PoolsAgree)
    (hclaims : (s.register.claims .dRep).Sound) (hbacked : ∀ who, DrepBacked s who)
    (wantSpo wantDrep : Bool) (host numOptions : ℕ) (holders : List AccountId) :
    Unambiguous (sightings (wantsOf wantSpo wantDrep) numOptions (s.ballotOf host) s.rolesOf
      holders) := by
  have hseen : ∀ x ∈ sightings (wantsOf wantSpo wantDrep) numOptions (s.ballotOf host) s.rolesOf
      holders, ∃ who badge, badge ∈ s.observedRolesOf who ∧ s.ballotOf host who = some x.option ∧
        wantsOf wantSpo wantDrep badge.kind.index = true ∧
        x.key = (badge.kind.index, badge.id) ∧ x.weight = badge.weight := by
    intro x hx
    obtain ⟨who, -, hx⟩ := List.mem_flatMap.mp hx
    unfold voterSightings at hx
    split at hx
    · cases hx
    next option hvote =>
      split_ifs at hx
      · cases hx
      · obtain ⟨role, hrole, rfl⟩ := List.mem_map.mp hx
        obtain ⟨hmem, hwants⟩ := List.mem_filter.mp hrole
        obtain ⟨badge, hbadge, rfl⟩ := List.mem_map.mp hmem
        exact ⟨who, badge, hbadge, hvote, hwants, rfl, rfl⟩
  intro x hx y hy hkey
  obtain ⟨who, badge, hbadge, hvote, hwants, hxkey, hxweight⟩ := hseen x hx
  obtain ⟨who', badge', hbadge', hvote', -, hykey, hyweight⟩ := hseen y hy
  have hsame : badge.kind.index = badge'.kind.index ∧ badge.id = badge'.id :=
    Prod.mk.inj (hxkey.symm.trans (hkey.trans hykey))
  have hkind : badge.kind = badge'.kind := StorageKey.enc_injective hsame.1
  rw [hxweight, hyweight]
  cases hbadgeKind : badge.kind with
  | spo =>
    refine ⟨hagree who who' badge badge' hbadge hbadge' hbadgeKind
      (hkind.symm.trans hbadgeKind) hsame.2, fun hpool => absurd ?_ hpool⟩
    rw [hxkey, hbadgeKind]
    rfl
  | dRep =>
    have hdrep : ∀ {who : AccountId} {badge : ObservedRole}, badge ∈ s.observedRolesOf who →
        badge.kind = .dRep →
          badge ∈ (s.observedRolesOf who).filter (fun role => role.kind = .dRep) :=
      fun hmem hkind => List.mem_filter.mpr ⟨hmem, by simpa using hkind⟩
    have hmem := hdrep hbadge hbadgeKind
    have hmem' := hdrep hbadge' (hkind.symm.trans hbadgeKind)
    have hid : badge.id ∈ drepIds (s.observedRolesOf who) := List.mem_map_of_mem hmem
    have hid' : badge.id ∈ drepIds (s.observedRolesOf who') :=
      hsame.2 ▸ List.mem_map_of_mem hmem'
    have hwho : who = who' := DrepBacked.unique hclaims hbacked hid hid'
    subst hwho
    have hequal : badge = badge' :=
      List.inj_on_of_nodup_map (hbacked who).nodup hmem hmem' hsame.2
    refine ⟨by rw [hequal], fun _ => Option.some.inj (hvote.symm.trans hvote')⟩
  | committee =>
    rw [hbadgeKind] at hwants
    cases hwants

theorem run_poolsAgree (ops : List Op) (hderived : ∀ op ∈ ops, op.derived)
    (hpriced : ∀ op ∈ ops, op.poolsPriced)
    (htogether : Along (step cfg) (refreshesTogether cfg) genesis ops) :
    (genesis.run cfg ops).PoolsAgree := by
  induction ops using List.reverseRecOn with
  | nil =>
    intro who who' role role' hrole
    cases hrole
  | append_singleton ops op ih =>
    obtain ⟨hbefore, hstep, -⟩ := Along.append_iff.mp htogether
    have hrun : genesis.run cfg (ops ++ [op]) = (genesis.run cfg ops).step cfg op :=
      run_concat _ _ _
    rw [hrun]
    refine step_poolsAgree (hderived op (by simp)) (hpriced op (by simp)) hstep (ih ?_ ?_ hbefore)
    · exact fun earlier hearlier => hderived earlier (List.mem_append_left _ hearlier)
    · exact fun earlier hearlier => hpriced earlier (List.mem_append_left _ hearlier)

theorem run_refreshesTogether (ops : List Op)
    (hagree : ∀ earlier, earlier <+: ops → (genesis.run cfg earlier).PoolsAgree) :
    Along (step cfg) (refreshesTogether cfg) genesis ops := by
  induction ops using List.reverseRecOn with
  | nil => trivial
  | append_singleton ops op ih =>
    refine Along.append_iff.mpr ⟨ih (fun earlier hearlier =>
      hagree earlier (hearlier.trans (List.prefix_append _ _))), ?_, trivial⟩
    have hafter := hagree (ops ++ [op]) List.prefix_rfl
    have hrun : genesis.run cfg (ops ++ [op]) = (genesis.run cfg ops).step cfg op :=
      run_concat _ _ _
    rw [hrun] at hafter
    cases op with
    | inherent obs => exact refreshesTogether_of_agree hafter
    | _ => trivial

end Runtime

/-- In every run whose snapshots price each pool once and name dReps by their
credential, the holders of each pool agree on its weight throughout exactly if
every block refreshes them together, and while it does the chambers add up to
the same in every order of the holders. -/
theorem chambers_order_free (cfg : Config) (ops : List Op) (hderived : ∀ op ∈ ops, op.derived)
    (hpriced : ∀ op ∈ ops, op.poolsPriced) (hnative : ∀ op ∈ ops, op.drepIdsNative) :
    (Along (step cfg) (Runtime.refreshesTogether cfg) Runtime.genesis ops ↔
      ∀ earlier, earlier <+: ops → (Runtime.genesis.run cfg earlier).PoolsAgree) ∧
    (Along (step cfg) (Runtime.refreshesTogether cfg) Runtime.genesis ops →
      ∀ earlier, earlier <+: ops → ∀ (host numOptions : ℕ) (wantSpo wantDrep : Bool)
        (holders holders' : List AccountId), holders.Perm holders' →
          (Runtime.genesis.run cfg earlier).pollChamberWeights host numOptions holders wantSpo
              wantDrep =
            (Runtime.genesis.run cfg earlier).pollChamberWeights host numOptions holders' wantSpo
              wantDrep) := by
  have hfront : ∀ earlier, earlier <+: ops → ∀ op ∈ earlier, op ∈ ops :=
    fun earlier hearlier op hop => hearlier.subset hop
  have hagree : Along (step cfg) (Runtime.refreshesTogether cfg) Runtime.genesis ops →
      ∀ earlier, earlier <+: ops → (Runtime.genesis.run cfg earlier).PoolsAgree := by
    intro htogether earlier hearlier
    obtain ⟨later, rfl⟩ := hearlier
    refine Runtime.run_poolsAgree earlier ?_ ?_ (Along.append_iff.mp htogether).1
    · exact fun op hop => hderived op (List.mem_append_left _ hop)
    · exact fun op hop => hpriced op (List.mem_append_left _ hop)
  refine ⟨⟨hagree, Runtime.run_refreshesTogether ops⟩, ?_⟩
  intro htogether earlier hearlier host numOptions wantSpo wantDrep holders holders' hperm
  have hclaims : ((Runtime.genesis.run cfg earlier).register.claims .dRep).Sound :=
    run_claims_sound earlier .dRep
  have hstart : ((Runtime.genesis.run cfg []).register.claims .dRep).Sound :=
    run_claims_sound [] .dRep
  have hbacked : ∀ who, Runtime.DrepBacked (Runtime.genesis.run cfg earlier) who :=
    run_drepBacked (s := Runtime.genesis) hstart (fun who => .of_dropped rfl) earlier
      (fun op hop => hderived op (hfront earlier hearlier op hop))
      (fun op hop => hnative op (hfront earlier hearlier op hop))
  exact pollChamberWeights_perm hperm (Runtime.sightings_unambiguous
    (hagree htogether earlier hearlier) hclaims hbacked wantSpo wantDrep host numOptions holders)

theorem Runtime.RefreshesTogether.of_keys {cfg : Config} {s : Runtime} {obs : CardanoObservation}
    (h : ∀ change ∈ (s.deriveCall cfg obs).roleChanges,
      ∀ fresh ∈ boundObservedRoles (change.roles.getD []), fresh.kind = .spo →
        ∀ other ∈ s.roles.observedRoles.keys,
          other ∉ (s.deriveCall cfg obs).roleChanges.map RoleChange.who →
            ∀ stale ∈ s.observedRolesOf other, stale.kind = .spo → stale.id = fresh.id →
              stale.weight = fresh.weight) :
    s.RefreshesTogether cfg obs := by
  intro _ _ change hchange fresh hfresh hkind other hother stale hstale
  exact h change hchange fresh hfresh hkind other
    (mem_keys_of_getD_ne (List.ne_nil_of_mem hstale)) hother stale hstale

def coOwned (slot weight : ℕ) : CardanoObservation :=
  ⟨⟨slot, 0⟩, 0, [], [],
    [⟨.spoOwner, ⟨1⟩, ⟨7⟩, weight⟩, ⟨.spoOwner, ⟨2⟩, ⟨7⟩, weight⟩]⟩

def coOwnedOps : List Op :=
  [.call .none (.gate (.linkIdentitySigned ⟨[1, 1], []⟩)),
    .call .none (.gate (.linkIdentitySigned ⟨[2, 2], []⟩)),
    .call .none (.gate (.linkStakeSigned ⟨[1, 1, 0], []⟩)),
    .call .none (.gate (.linkStakeSigned ⟨[2, 2, 0], []⟩)),
    .call (.signed ⟨1⟩) (.microblog (.createPoll [] [[0], [1]] (some 20000) .spo none)),
    .call (.signed ⟨1⟩) (.microblog (.castPollVote 0 0)),
    .call (.signed ⟨2⟩) (.microblog (.castPollVote 0 0)),
    .inherent (coOwned 10 100),
    .nextBlock 0,
    .inherent (coOwned 10 100),
    .nextBlock 0,
    .inherent (coOwned 20 200)]

theorem chambers_order_free_coOwned :
    ((Runtime.genesis.run Config.toy coOwnedOps).pollChamberWeights 0 2 [⟨1⟩, ⟨2⟩] true
        false).spoWeights = [200, 0] ∧
      (Runtime.genesis.run Config.toy coOwnedOps).pollChamberWeights 0 2 [⟨1⟩, ⟨2⟩] true false =
        (Runtime.genesis.run Config.toy coOwnedOps).pollChamberWeights 0 2 [⟨2⟩, ⟨1⟩] true
          false := by
  obtain ⟨-, hfree⟩ := chambers_order_free Config.toy coOwnedOps (by decide) (by decide)
    (by decide)
  have htogether : Along (step Config.toy) (Runtime.refreshesTogether Config.toy)
      Runtime.genesis coOwnedOps :=
    ⟨trivial, trivial, trivial, trivial, trivial, trivial, trivial,
      .of_keys (by decide +kernel), trivial, .of_keys (by decide +kernel), trivial,
      .of_keys (by decide +kernel), trivial⟩
  exact ⟨by decide +kernel, hfree htogether coOwnedOps List.prefix_rfl 0 2 true false _ _
    (List.Perm.swap _ _ _)⟩

def oneChangeConfig : Config := { Config.toy with maxChangesPerBlock := 1 }

/-- With one change a block the owners are refreshed in different blocks, and
between them the weight of their pool depends on who is met first. -/
theorem staggered_owners_order :
    (∀ op ∈ coOwnedOps, op.derived = true ∧ op.poolsPriced ∧ op.drepIdsNative) ∧
      (Runtime.genesis.run oneChangeConfig coOwnedOps).roleHolders oneChangeConfig =
        [⟨1⟩, ⟨2⟩] ∧
      (((Runtime.genesis.run oneChangeConfig coOwnedOps).observedRolesOf ⟨1⟩).map
          ObservedRole.weight = [200] ∧
        ((Runtime.genesis.run oneChangeConfig coOwnedOps).observedRolesOf ⟨2⟩).map
          ObservedRole.weight = [100]) ∧
      ((Runtime.genesis.run oneChangeConfig coOwnedOps).pollChamberWeights 0 2 [⟨1⟩, ⟨2⟩] true
          false).spoWeights = [200, 0] ∧
      ((Runtime.genesis.run oneChangeConfig coOwnedOps).pollChamberWeights 0 2 [⟨2⟩, ⟨1⟩] true
          false).spoWeights = [100, 0] := by
  refine ⟨by decide, ?_⟩
  decide +kernel

end CognoChain
