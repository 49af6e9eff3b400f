import CognoChain.Model.Reduction
import CognoChain.Read.Calidus
import CognoChain.Ledger.Agreement

/-!
# The role read

What the reduction of the role material emits, source by source, as a rule
about the material: the pools whose first highest verified registration names a
claimed key, the owners and the representatives as they are listed, and the
committee members whose newest registration stands.  The emitted list depends
on which entries there are and not on how the loops met them.
-/

namespace CognoChain

open Substrate Calidus

theorem RoleEntry.rank_injective : Function.Injective RoleEntry.rank := by
  rintro ⟨source, ⟨credential⟩, ⟨id⟩, weight⟩ ⟨source', ⟨credential'⟩, ⟨id'⟩, weight'⟩ h
  simp only [rank, toLex_inj, Prod.mk.injEq] at h
  obtain ⟨hsource, rfl, rfl, rfl⟩ := h
  cases source <;> cases source' <;> first | rfl | cases hsource

section Sources

variable {crypto : Crypto} {gate : Credential → Bool} {read : RoleRead} {entry : RoleEntry}
  {read' : RoleRead} {reg : CalidusRegistration} {pool : Credential} {registrations : List Bytes}
  {activePools claimedCalidus : List Credential} {poolWeight : StorageMap Credential ℕ}

def calidusWinners (crypto : Crypto) (gate : Credential → Bool) (registrations : List Bytes) :
    StorageMap Credential CalidusRegistration :=
  registrations.foldl (calidusWinnerStep crypto gate) ∅

theorem mem_reduceGated : entry ∈ reduceGated crypto gate read ↔
    entry ∈ calidusEntries (calidusWinners crypto gate read.registrations) read.claimedCalidus
        read.activePools (collectRows read.poolStake) ∨
      entry ∈ ownerEntries read.ownerPools read.activePools (collectRows read.poolStake) ∨
      entry ∈ drepEntries read.liveDreps (collectRows read.drepStake) ∨
      entry ∈ read.committee.entries read.claimedCommittee := by
  simp only [reduceGated, canonicalRoleEntries, mem_sortedSet, List.mem_append, calidusWinners,
    or_assoc]

theorem reduceGated_ext {gate' : Credential → Bool}
    (h : ∀ entry, entry ∈ reduceGated crypto gate read ↔ entry ∈ reduceGated crypto gate' read') :
    reduceGated crypto gate read = reduceGated crypto gate' read' := by
  apply sortedSet_congr RoleEntry.rank_injective
  intro entry
  have hentry := h entry
  simp only [reduceGated, canonicalRoleEntries, mem_sortedSet] at hentry
  exact hentry

/-! ## Calidus -/

theorem parseRegistration_of_verify {b : Bytes} (h : verifyRegistration crypto b = .ok reg) :
    parseRegistration crypto b = .ok ⟨reg.poolId, reg.calidusKeyHash, reg.nonce⟩ := by
  unfold verifyRegistration at h
  unfold parseRegistration
  cases hparse : parseAll b with
  | error error => rw [hparse] at h; cases h
  | ok result =>
    obtain ⟨payload, payloadBytes, witnessBytes⟩ := result
    rw [hparse] at h
    dsimp only at h ⊢
    split at h
    · cases h
    · cases h
    · rw [← Except.ok.inj h]

def verified (crypto : Crypto) (registrations : List Bytes) : List CalidusRegistration :=
  registrations.filterMap (fun b => (verifyRegistration crypto b).toOption)

def verifiedFor (crypto : Crypto) (registrations : List Bytes) (pool : Credential) :
    List CalidusRegistration :=
  (verified crypto registrations).filter (fun reg => decide (reg.poolId = pool))

theorem calidusWinnerStep_eq (winner : StorageMap Credential CalidusRegistration) (b : Bytes) :
    calidusWinnerStep crypto gate winner b =
      match (verifyRegistration crypto b).toOption with
      | some reg =>
        if gate reg.poolId then winner.keepBest CalidusRegistration.nonce reg.poolId reg
        else winner
      | none => winner := by
  unfold calidusWinnerStep
  cases hverify : verifyRegistration crypto b with
  | error error =>
    split
    · rfl
    · split_ifs <;> rfl
  | ok reg =>
    rw [parseRegistration_of_verify hverify]
    rfl

theorem calidusWinners_eq (registrations : List Bytes) :
    calidusWinners crypto gate registrations =
      (verified crypto registrations).foldl (fun winner reg =>
        if gate reg.poolId then winner.keepBest CalidusRegistration.nonce reg.poolId reg
        else winner) ∅ := by
  unfold calidusWinners verified
  rw [List.foldl_filterMap]
  congr 1
  funext winner b
  rw [calidusWinnerStep_eq]
  cases (verifyRegistration crypto b).toOption <;> rfl

theorem calidusWinners_get :
    (calidusWinners crypto gate registrations).get pool = some reg ↔
      gate pool = true ∧
        FirstGreatest CalidusRegistration.nonce (verifiedFor crypto registrations pool) reg := by
  rw [calidusWinners_eq, StorageMap.get_foldl_keepBest_gated CalidusRegistration.poolId
    (fun reg => reg), List.map_id']
  rfl

theorem mem_calidusEntries :
    entry ∈ calidusEntries (calidusWinners crypto gate registrations) claimedCalidus activePools
        poolWeight ↔
      ∃ pool ∈ activePools, ∃ reg, gate pool = true ∧
        FirstGreatest CalidusRegistration.nonce (verifiedFor crypto registrations pool) reg ∧
        reg.calidusKeyHash ∈ claimedCalidus ∧
        entry = ⟨.spoCalidus, reg.calidusKeyHash, pool, poolWeight.getD pool 0⟩ := by
  simp only [calidusEntries, List.mem_map, List.mem_filter, Prod.exists, decide_eq_true_eq,
    ← StorageMap.get_eq_some_iff, calidusWinners_get]
  constructor
  · rintro ⟨pool, reg, ⟨⟨hgate, hfirst⟩, hclaimed, hactive⟩, rfl⟩
    exact ⟨pool, hactive, reg, hgate, hfirst, hclaimed, rfl⟩
  · rintro ⟨pool, hactive, reg, hgate, hfirst, hclaimed, rfl⟩
    exact ⟨pool, reg, ⟨⟨hgate, hfirst⟩, hclaimed, hactive⟩, rfl⟩

theorem mem_claimedCalidusPools :
    pool ∈ claimedCalidusPools crypto registrations claimedCalidus activePools ↔
      pool ∈ activePools ∧ ∃ b ∈ registrations, ∃ parsed, parseRegistration crypto b = .ok parsed ∧
        parsed.poolId = pool ∧ parsed.calidusKeyHash ∈ claimedCalidus := by
  have hok : ∀ b parsed, (parseRegistration crypto b).toOption = some parsed ↔
      parseRegistration crypto b = .ok parsed := by
    intro b parsed
    cases parseRegistration crypto b <;> simp [Except.toOption]
  simp only [claimedCalidusPools, mem_sortedSet, List.mem_filter, List.mem_map, List.mem_filterMap,
    decide_eq_true_eq, hok]
  constructor
  · rintro ⟨⟨parsed, ⟨⟨b, hb, hparse⟩, hclaimed⟩, rfl⟩, hactive⟩
    exact ⟨hactive, b, hb, parsed, hparse, rfl, hclaimed⟩
  · rintro ⟨hactive, b, hb, parsed, hparse, rfl, hclaimed⟩
    exact ⟨⟨parsed, ⟨⟨b, hb, hparse⟩, hclaimed⟩, rfl⟩, hactive⟩

/-- A winner that names a claimed key puts its pool in the gate by itself. -/
theorem claimedCalidusPools_of_winner
    (hwinner : FirstGreatest CalidusRegistration.nonce (verifiedFor crypto registrations pool) reg)
    (hclaimed : reg.calidusKeyHash ∈ claimedCalidus) (hactive : pool ∈ activePools) :
    pool ∈ claimedCalidusPools crypto registrations claimedCalidus activePools := by
  have hmem := hwinner.mem
  rw [verifiedFor, List.mem_filter, decide_eq_true_eq, verified, List.mem_filterMap] at hmem
  obtain ⟨⟨b, hb, hverify⟩, rfl⟩ := hmem
  have hverify : verifyRegistration crypto b = .ok reg := by
    cases hresult : verifyRegistration crypto b with
    | error error => rw [hresult] at hverify; cases hverify
    | ok value => rw [hresult] at hverify; rw [Option.some.inj hverify]
  exact mem_claimedCalidusPools.mpr
    ⟨hactive, b, hb, _, parseRegistration_of_verify hverify, rfl, hclaimed⟩

def CalidusRule (crypto : Crypto) (read : RoleRead) (entry : RoleEntry) : Prop :=
  ∃ pool ∈ read.activePools, ∃ reg,
    FirstGreatest CalidusRegistration.nonce (verifiedFor crypto read.registrations pool) reg ∧
    reg.calidusKeyHash ∈ read.claimedCalidus ∧
    entry = ⟨.spoCalidus, reg.calidusKeyHash, pool, (collectRows read.poolStake).getD pool 0⟩

/-- A gate that lets every claimed pool through decides nothing. -/
theorem mem_calidusEntries_iff_rule
    (hgate : ∀ pool ∈ claimedCalidusPools crypto read.registrations read.claimedCalidus
      read.activePools, gate pool = true) :
    entry ∈ calidusEntries (calidusWinners crypto gate read.registrations) read.claimedCalidus
        read.activePools (collectRows read.poolStake) ↔ CalidusRule crypto read entry := by
  rw [mem_calidusEntries]
  constructor
  · rintro ⟨pool, hactive, reg, -, hfirst, hclaimed, hentry⟩
    exact ⟨pool, hactive, reg, hfirst, hclaimed, hentry⟩
  · rintro ⟨pool, hactive, reg, hfirst, hclaimed, hentry⟩
    exact ⟨pool, hactive, reg, hgate pool (claimedCalidusPools_of_winner hfirst hclaimed hactive),
      hfirst, hclaimed, hentry⟩

theorem ownerEntries_source {ownerPools : List (Credential × Credential)}
    (h : entry ∈ ownerEntries ownerPools activePools poolWeight) : entry.source = .spoOwner := by
  obtain ⟨owner, -, rfl⟩ := List.mem_map.mp h
  rfl

theorem drepEntries_source {liveDreps : List Credential} {drepWeight : StorageMap Credential ℕ}
    (h : entry ∈ drepEntries liveDreps drepWeight) : entry.source = .dRep := by
  obtain ⟨drep, -, rfl⟩ := List.mem_map.mp h
  rfl

theorem CommitteeRead.entries_source {committee : CommitteeRead}
    {claimedCommittee : List Credential} (h : entry ∈ committee.entries claimedCommittee) :
    entry.source = .committee := by
  obtain ⟨row, -, hbadge⟩ := List.mem_filterMap.mp h
  unfold CommitteeRead.badge at hbadge
  split at hbadge
  · cases hbadge
  · split at hbadge
    · cases hbadge
    · split_ifs at hbadge
      rw [← Option.some.inj hbadge]

theorem mem_reduceRoleObservation : entry ∈ reduceRoleObservation crypto read ↔
    CalidusRule crypto read entry ∨
      entry ∈ ownerEntries read.ownerPools read.activePools (collectRows read.poolStake) ∨
      entry ∈ drepEntries read.liveDreps (collectRows read.drepStake) ∨
      entry ∈ read.committee.entries read.claimedCommittee := by
  rw [reduceRoleObservation, mem_reduceGated,
    mem_calidusEntries_iff_rule (fun pool hpool => decide_eq_true hpool)]

theorem reduceRoleObservation_ext
    (h : ∀ entry, entry ∈ reduceRoleObservation crypto read ↔ entry ∈ reduceRoleObservation crypto read') :
    reduceRoleObservation crypto read = reduceRoleObservation crypto read' :=
  reduceGated_ext h

theorem reduceRoleObservation_nodup (crypto : Crypto) (read : RoleRead) :
    (reduceRoleObservation crypto read).Nodup :=
  sortedSet_nodup _ _

theorem eq_filter_reduceRoleObservation {p : RoleEntry → Bool}
    (h : ∀ entry, entry ∈ reduceRoleObservation crypto read' ↔ entry ∈ reduceRoleObservation crypto read ∧ p entry = true) :
    reduceRoleObservation crypto read' = (reduceRoleObservation crypto read).filter p := by
  symm
  apply eq_sortedSet RoleEntry.rank_injective ((sortedSet_pairwise _ _).filter p)
    ((reduceRoleObservation_nodup crypto read).filter p)
  intro entry
  rw [List.mem_filter]
  exact (h entry).symm.trans mem_sortedSet

end Sources

theorem length_le_one_of_eq {A : Type} {l : List A} (hnodup : l.Nodup)
    (h : ∀ a ∈ l, ∀ b ∈ l, a = b) : l.length ≤ 1 := by
  match l, hnodup with
  | [], _ => simp
  | [_], _ => simp
  | a :: b :: l, hnodup =>
    have hsame : a = b := h a (by simp) b (by simp)
    simp [hsame] at hnodup

def verifies (crypto : Crypto) (b : Bytes) : Bool := (verifyRegistration crypto b).toOption.isSome

theorem verified_of_filter {crypto : Crypto} {registrations registrations' : List Bytes}
    (h : registrations.filter (verifies crypto) = registrations'.filter (verifies crypto)) :
    verified crypto registrations = verified crypto registrations' := by
  have hfilter : ∀ bs, verified crypto bs = verified crypto (bs.filter (verifies crypto)) := by
    intro bs
    unfold verified
    rw [List.filterMap_filter]
    apply List.filterMap_congr
    intro b _
    unfold verifies
    cases (verifyRegistration crypto b).toOption <;> rfl
  rw [hfilter registrations, hfilter registrations', h]

/-- The Calidus entries are one for each active pool whose first highest verified
registration names a claimed key.  The gate in front of the verification,
registrations that do not verify and pools outside the claimed ones have no
part in them. -/
theorem calidus_entries_exact (crypto : Crypto) (read : RoleRead) :
    (∀ entry, entry ∈ reduceRoleObservation crypto read ∧ entry.source = .spoCalidus ↔
      ∃ pool ∈ read.activePools, ∃ reg,
        FirstGreatest CalidusRegistration.nonce
          (verifiedFor crypto read.registrations pool) reg ∧
        reg.calidusKeyHash ∈ read.claimedCalidus ∧
        entry = ⟨.spoCalidus, reg.calidusKeyHash, pool,
          (collectRows read.poolStake).getD pool 0⟩) ∧
    (∀ pool, ((reduceRoleObservation crypto read).filter
      (fun entry => decide (entry.source = .spoCalidus ∧ entry.id = pool))).length ≤ 1) ∧
    reduceGated crypto (fun _ => true) read = reduceRoleObservation crypto read ∧
    (∀ registrations, registrations.filter (verifies crypto) =
        read.registrations.filter (verifies crypto) →
      reduceRoleObservation crypto { read with registrations := registrations } =
        reduceRoleObservation crypto read) ∧
    (∀ entry ∈ reduceRoleObservation crypto read, entry.source = .spoCalidus →
      entry.id ∈ claimedCalidusPools crypto read.registrations read.claimedCalidus
        read.activePools) := by
  have hrule : ∀ entry, entry ∈ reduceRoleObservation crypto read ∧ entry.source = .spoCalidus ↔
      CalidusRule crypto read entry := by
    intro entry
    rw [mem_reduceRoleObservation]
    constructor
    · rintro ⟨hcalidus | howner | hdrep | hcommittee, hsource⟩
      · exact hcalidus
      · rw [ownerEntries_source howner] at hsource
        cases hsource
      · rw [drepEntries_source hdrep] at hsource
        cases hsource
      · rw [CommitteeRead.entries_source hcommittee] at hsource
        cases hsource
    · intro hcalidus
      refine ⟨.inl hcalidus, ?_⟩
      obtain ⟨pool, -, reg, -, -, rfl⟩ := hcalidus
      rfl
  refine ⟨hrule, ?_, ?_, ?_, ?_⟩
  · intro pool
    apply length_le_one_of_eq ((reduceRoleObservation_nodup crypto read).filter _)
    intro a ha b hb
    rw [List.mem_filter, decide_eq_true_eq] at ha hb
    obtain ⟨pool₁, -, reg₁, hfirst₁, -, heq₁⟩ := (hrule a).mp ⟨ha.1, ha.2.1⟩
    obtain ⟨pool₂, -, reg₂, hfirst₂, -, heq₂⟩ := (hrule b).mp ⟨hb.1, hb.2.1⟩
    have hpool₁ : pool₁ = pool := by rw [← ha.2.2, heq₁]
    have hpool₂ : pool₂ = pool := by rw [← hb.2.2, heq₂]
    subst hpool₁ hpool₂
    rw [heq₁, heq₂, hfirst₁.unique hfirst₂]
  · apply reduceGated_ext
    intro entry
    rw [mem_reduceGated, mem_calidusEntries_iff_rule (fun _ _ => rfl), mem_reduceGated,
      mem_calidusEntries_iff_rule (fun pool hpool => decide_eq_true hpool)]
  · intro registrations hsame
    apply reduceRoleObservation_ext
    intro entry
    have hverified : ∀ pool, verifiedFor crypto registrations pool =
        verifiedFor crypto read.registrations pool := by
      intro pool
      rw [verifiedFor, verifiedFor, verified_of_filter hsame]
    have hsameRule : CalidusRule crypto { read with registrations := registrations } entry ↔
        CalidusRule crypto read entry := by
      simp only [CalidusRule, hverified]
    rw [mem_reduceRoleObservation, mem_reduceRoleObservation, hsameRule]
  · intro entry hentry hsource
    obtain ⟨pool, hactive, reg, hfirst, hclaimed, rfl⟩ := (hrule entry).mp ⟨hentry, hsource⟩
    exact claimedCalidusPools_of_winner hfirst hclaimed hactive

def zeroPoolRead (registrations : List Bytes) : RoleRead where
  registrations := registrations
  activePools := [⟨0⟩]
  ownerPools := []
  claimedCalidus := [.ofBytes (List.replicate 28 1)]
  liveDreps := []
  poolStake := [(⟨0⟩, 7)]
  drepStake := []
  committee := ⟨0, [], [], []⟩
  claimedCommittee := []

theorem calidus_entries_exact_zeroPool :
    reduceRoleObservation Crypto.toy
        (zeroPoolRead [[0xa0], zeroPoolRegistration [], [0xff]]) =
      reduceRoleObservation Crypto.toy (zeroPoolRead [zeroPoolRegistration []]) ∧
    reduceRoleObservation Crypto.toy (zeroPoolRead [zeroPoolRegistration []]) =
      [⟨.spoCalidus, .ofBytes (List.replicate 28 1), ⟨0⟩, 7⟩] := by
  have hexact := calidus_entries_exact Crypto.toy (zeroPoolRead [zeroPoolRegistration []])
  exact ⟨hexact.2.2.2.1 [[0xa0], zeroPoolRegistration [], [0xff]] (by decide +kernel),
    by decide +kernel⟩

/-! ## The committee -/

namespace CommitteeRead

variable {committee : CommitteeRead} {cold : Credential} {reg : CommitteeRegistration}
  {claimedCommittee : List Credential} {m : CommitteeMember} {order : CertOrder} {entry : RoleEntry}

def mergeSeat (kept : Option CommitteeMember) (m : CommitteeMember) : Option CommitteeMember :=
  match kept with
  | some kept =>
      some
        { kept with
          isScript := kept.isScript || m.isScript
          expirationEpoch := min kept.expirationEpoch m.expirationEpoch }
  | none => some m

theorem seat_get (committee : CommitteeRead) (cold : Credential) :
    committee.seat.get cold =
      (committee.members.filter (fun m => decide (m.cold = cold))).foldl mergeSeat none := by
  unfold seat
  rw [← StorageMap.get_empty (V := CommitteeMember) cold]
  generalize (∅ : StorageMap Credential CommitteeMember) = seats
  induction committee.members generalizing seats with
  | nil => rfl
  | cons m members ih =>
    rw [List.foldl_cons, ih, List.filter_cons]
    by_cases hcold : m.cold = cold
    · subst hcold
      simp only [decide_true, if_true, List.foldl_cons]
      congr 1
      cases seats.get m.cold <;> simp [mergeSeat]
    · simp only [hcold, decide_false, Bool.false_eq_true, if_false]
      congr 1
      split
      · exact StorageMap.get_insert_of_ne _ _ (Ne.symm hcold)
      · exact StorageMap.get_insert_of_ne _ _ (Ne.symm hcold)

theorem foldl_mergeSeat_some {members : List CommitteeMember} {kept seat : CommitteeMember}
    (h : members.foldl mergeSeat (some kept) = some seat) (epoch : ℕ) :
    epoch ≤ seat.expirationEpoch ↔
      epoch ≤ kept.expirationEpoch ∧ ∀ m ∈ members, epoch ≤ m.expirationEpoch := by
  induction members generalizing kept with
  | nil => simp [← Option.some.inj h]
  | cons m members ih =>
    rw [ih h, List.forall_mem_cons, ← and_assoc]
    simp only [le_min_iff]

theorem inTerm_iff (h : committee.seat.get cold = some m) :
    m.inTermAt committee.epoch = true ↔
      ∀ row ∈ committee.members, row.cold = cold → committee.epoch ≤ row.expirationEpoch := by
  rw [seat_get] at h
  have hrows : (∀ row ∈ committee.members, row.cold = cold →
        committee.epoch ≤ row.expirationEpoch) ↔
      ∀ row ∈ committee.members.filter (fun m => decide (m.cold = cold)),
        committee.epoch ≤ row.expirationEpoch := by
    simp [List.mem_filter]
  rw [CommitteeMember.inTermAt, decide_eq_true_eq, hrows]
  cases hmembers : committee.members.filter (fun m => decide (m.cold = cold)) with
  | nil => rw [hmembers] at h; cases h
  | cons first members =>
    rw [hmembers] at h
    rw [List.forall_mem_cons]
    exact foldl_mergeSeat_some h committee.epoch

theorem foldl_mergeSeat_isSome (members : List CommitteeMember) (kept : CommitteeMember) :
    (members.foldl mergeSeat (some kept)).isSome := by
  induction members generalizing kept with
  | nil => rfl
  | cons m members ih => exact ih _

theorem seat_isSome_iff :
    (committee.seat.get cold).isSome ↔ ∃ row ∈ committee.members, row.cold = cold := by
  rw [seat_get]
  cases hmembers : committee.members.filter (fun m => decide (m.cold = cold)) with
  | nil =>
    rw [List.filter_eq_nil_iff] at hmembers
    simpa using hmembers
  | cons first members =>
    have hfirst : first ∈ committee.members.filter (fun m => decide (m.cold = cold)) := by
      rw [hmembers]
      exact List.mem_cons_self ..
    rw [List.mem_filter, decide_eq_true_eq] at hfirst
    exact ⟨fun _ => ⟨first, hfirst⟩, fun _ => foldl_mergeSeat_isSome members first⟩

theorem newestReg_get :
    committee.newestReg.get cold = some reg ↔
      (committee.seat.get cold).isSome = true ∧ FirstGreatest CommitteeRegistration.rank
        (committee.registrations.filter (fun reg => decide (reg.cold = cold))) reg := by
  rw [newestReg, StorageMap.get_foldl_keepBest_gated CommitteeRegistration.cold
    (fun reg => reg), List.map_id']
  rfl

theorem newestDereg_get :
    committee.newestDereg.get cold = some order ↔
      (committee.seat.get cold).isSome = true ∧ FirstGreatest id
        ((committee.deregistrations.filter (fun dereg => decide (dereg.cold = cold))).map
          CommitteeDeregistration.order) order :=
  StorageMap.get_foldl_keepBest_gated CommitteeDeregistration.cold CommitteeDeregistration.order
    committee.seat.contains committee.deregistrations

/-- The seat of a cold credential earns this entry. -/
structure Badges (committee : CommitteeRead) (claimedCommittee : List Credential)
    (cold hot : Credential) : Prop where
  claimed : hot ∈ claimedCommittee
  seated : ∃ row ∈ committee.members, row.cold = cold
  inTerm : ∀ row ∈ committee.members, row.cold = cold → committee.epoch ≤ row.expirationEpoch
  registered : ∃ reg ∈ committee.registrations, reg.cold = cold ∧
    (∀ reg' ∈ committee.registrations, reg'.cold = cold → reg'.rank ≤ reg.rank) ∧
    reg.hot = hot ∧ reg.hotIsScript = false ∧
    ∀ dereg ∈ committee.deregistrations, dereg.cold = cold → ¬reg.order < dereg.order

theorem rank_inj {reg' : CommitteeRegistration} (hcold : reg.cold = reg'.cold)
    (hrank : reg.rank = reg'.rank) : reg = reg' := by
  obtain ⟨cold, ⟨hot⟩, hotIsScript, order⟩ := reg
  obtain ⟨cold', ⟨hot'⟩, hotIsScript', order'⟩ := reg'
  simp only [CommitteeRegistration.rank, toLex_inj, Prod.mk.injEq] at hrank
  obtain ⟨rfl, rfl, rfl⟩ := hrank
  obtain rfl : cold = cold' := hcold
  rfl

theorem newestReg_eq_some_iff (hseated : (committee.seat.get cold).isSome = true) :
    committee.newestReg.get cold = some reg ↔
      reg ∈ committee.registrations ∧ reg.cold = cold ∧
        ∀ reg' ∈ committee.registrations, reg'.cold = cold → reg'.rank ≤ reg.rank := by
  have hmem : ∀ reg, reg ∈ committee.registrations.filter (fun reg => decide (reg.cold = cold)) ↔
      reg ∈ committee.registrations ∧ reg.cold = cold := by
    simp [List.mem_filter]
  rw [newestReg_get]
  constructor
  · rintro ⟨-, hfirst⟩
    have hreg := (hmem reg).mp hfirst.mem
    exact ⟨hreg.1, hreg.2, fun reg' hreg' hcold' => hfirst.rank_le ((hmem reg').mpr ⟨hreg', hcold'⟩)⟩
  · rintro ⟨hreg, hcold, hgreatest⟩
    have hoffered := (hmem reg).mpr ⟨hreg, hcold⟩
    obtain ⟨best, hbest⟩ := exists_firstGreatest CommitteeRegistration.rank hoffered
    have hbestmem := (hmem best).mp hbest.mem
    have hrank : best.rank = reg.rank :=
      le_antisymm (hgreatest best hbestmem.1 hbestmem.2) (hbest.rank_le hoffered)
    rw [rank_inj (hbestmem.2.trans hcold.symm) hrank] at hbest
    exact ⟨hseated, hbest⟩

theorem newestDereg_any (hseated : (committee.seat.get cold).isSome = true) :
    (committee.newestDereg.get cold).any (fun newest => order < newest) = true ↔
      ∃ dereg ∈ committee.deregistrations, dereg.cold = cold ∧ order < dereg.order := by
  have hmem : ∀ newest, newest ∈ (committee.deregistrations.filter
        (fun dereg => decide (dereg.cold = cold))).map CommitteeDeregistration.order ↔
      ∃ dereg ∈ committee.deregistrations, dereg.cold = cold ∧ dereg.order = newest := by
    simp [List.mem_filter, and_assoc]
  rw [Option.any_eq_true_iff_get]
  constructor
  · rintro ⟨hsome, hnewer⟩
    have hnewest := newestDereg_get.mp (Option.some_get hsome).symm
    obtain ⟨dereg, hdereg, hcold, horder⟩ := (hmem _).mp hnewest.2.mem
    exact ⟨dereg, hdereg, hcold, by rw [horder]; simpa using hnewer⟩
  · rintro ⟨dereg, hdereg, hcold, hnewer⟩
    have hoffered := (hmem _).mpr ⟨dereg, hdereg, hcold, rfl⟩
    obtain ⟨newest, hnewest⟩ := exists_firstGreatest id hoffered
    have hget := newestDereg_get.mpr ⟨hseated, hnewest⟩
    refine ⟨by rw [hget]; rfl, ?_⟩
    simp only [hget, Option.get_some, decide_eq_true_eq]
    exact hnewer.trans_le (hnewest.rank_le hoffered)

theorem badge_eq_some_iff :
    committee.badge claimedCommittee cold m = some entry ↔
      m.inTermAt committee.epoch = true ∧ ∃ reg, committee.newestReg.get cold = some reg ∧
        reg.hotIsScript = false ∧
        ¬(committee.newestDereg.get cold).any (fun order => reg.order < order) = true ∧
        reg.hot ∈ claimedCommittee ∧ entry = ⟨.committee, reg.hot, reg.hot, 0⟩ := by
  unfold badge
  cases hterm : m.inTermAt committee.epoch with
  | false => simp
  | true =>
    cases hreg : committee.newestReg.get cold with
    | none => simp
    | some reg =>
      simp only [Bool.not_true, Bool.false_eq_true, if_false, true_and, Option.some.injEq,
        exists_eq_left']
      split_ifs with hscript hdereg hclaimed
      · simp [hscript]
      · simp [hdereg]
      · simp [hscript, hdereg, hclaimed, eq_comm]
      · simp [hclaimed]

theorem mem_entries :
    entry ∈ committee.entries claimedCommittee ↔
      ∃ cold hot, committee.Badges claimedCommittee cold hot ∧
        entry = ⟨.committee, hot, hot, 0⟩ := by
  simp only [entries, List.mem_filterMap, Prod.exists, ← StorageMap.get_eq_some_iff,
    badge_eq_some_iff]
  constructor
  · rintro ⟨cold, m, hseat, hterm, reg, hnewest, hscript, hdereg, hclaimed, rfl⟩
    have hseated : (committee.seat.get cold).isSome = true := by rw [hseat]; rfl
    obtain ⟨hreg, hcold, hgreatest⟩ := (newestReg_eq_some_iff hseated).mp hnewest
    refine ⟨cold, reg.hot, ⟨hclaimed, seat_isSome_iff.mp hseated, (inTerm_iff hseat).mp hterm,
      reg, hreg, hcold, hgreatest, rfl, hscript, ?_⟩, rfl⟩
    intro dereg hmem hdcold hnewer
    exact hdereg ((newestDereg_any hseated).mpr ⟨dereg, hmem, hdcold, hnewer⟩)
  · rintro ⟨cold, hot, hbadges, rfl⟩
    have hseated := seat_isSome_iff.mpr hbadges.seated
    obtain ⟨m, hseat⟩ := Option.isSome_iff_exists.mp hseated
    obtain ⟨reg, hreg, hcold, hgreatest, rfl, hscript, hdereg⟩ := hbadges.registered
    refine ⟨cold, m, hseat, (inTerm_iff hseat).mpr hbadges.inTerm, reg,
      (newestReg_eq_some_iff hseated).mpr ⟨hreg, hcold, hgreatest⟩, hscript, ?_,
      hbadges.claimed, rfl⟩
    intro hany
    obtain ⟨dereg, hmem, hdcold, hnewer⟩ := (newestDereg_any hseated).mp hany
    exact hdereg dereg hmem hdcold hnewer

theorem Badges.congr {committee' : CommitteeRead} {hot : Credential}
    (hepoch : committee'.epoch = committee.epoch)
    (hmembers : ∀ row, row ∈ committee'.members ↔ row ∈ committee.members)
    (hregs : ∀ reg, reg ∈ committee'.registrations ↔ reg ∈ committee.registrations)
    (hderegs : ∀ dereg, dereg ∈ committee'.deregistrations ↔ dereg ∈ committee.deregistrations) :
    committee'.Badges claimedCommittee cold hot ↔ committee.Badges claimedCommittee cold hot := by
  constructor
  · rintro ⟨hclaimed, hseated, hterm, hregistered⟩
    simp only [hepoch, hmembers, hregs, hderegs] at hseated hterm hregistered
    exact ⟨hclaimed, hseated, hterm, hregistered⟩
  · rintro ⟨hclaimed, hseated, hterm, hregistered⟩
    simp only [← hepoch, ← hmembers, ← hregs, ← hderegs] at hseated hterm hregistered
    exact ⟨hclaimed, hseated, hterm, hregistered⟩

end CommitteeRead

/-- The committee entries are one for each claimed hot credential that a seat
in term is registered under, and how the rows were ordered plays no part. -/
theorem committee_entries_exact (crypto : Crypto) (read : RoleRead) :
    (∀ entry, entry ∈ reduceRoleObservation crypto read ∧ entry.source = .committee ↔
      ∃ cold hot, read.committee.Badges read.claimedCommittee cold hot ∧
        entry = ⟨.committee, hot, hot, 0⟩) ∧
    (∀ cold hot, read.committee.Badges read.claimedCommittee cold hot →
      (reduceRoleObservation crypto read).filter
          (fun entry => decide (entry.source = .committee ∧ entry.credential = hot)) =
        [⟨.committee, hot, hot, 0⟩]) ∧
    (∀ members registrations deregistrations,
      members.Perm read.committee.members →
      registrations.Perm read.committee.registrations →
      deregistrations.Perm read.committee.deregistrations →
      reduceRoleObservation crypto
          { read with
            committee := ⟨read.committee.epoch, members, registrations, deregistrations⟩ } =
        reduceRoleObservation crypto read) := by
  have hrule : ∀ entry, entry ∈ reduceRoleObservation crypto read ∧ entry.source = .committee ↔
      entry ∈ read.committee.entries read.claimedCommittee := by
    intro entry
    rw [mem_reduceRoleObservation]
    constructor
    · rintro ⟨⟨pool, -, reg, -, -, rfl⟩ | howner | hdrep | hcommittee, hsource⟩
      · cases hsource
      · rw [ownerEntries_source howner] at hsource
        cases hsource
      · rw [drepEntries_source hdrep] at hsource
        cases hsource
      · exact hcommittee
    · intro hcommittee
      exact ⟨.inr (.inr (.inr hcommittee)), CommitteeRead.entries_source hcommittee⟩
  refine ⟨fun entry => (hrule entry).trans CommitteeRead.mem_entries, ?_, ?_⟩
  · intro cold hot hbadges
    rw [← List.perm_singleton, List.perm_ext_iff_of_nodup
      ((reduceRoleObservation_nodup crypto read).filter _) (List.nodup_singleton _)]
    intro entry
    rw [List.mem_filter, decide_eq_true_eq, ← and_assoc, hrule, CommitteeRead.mem_entries,
      List.mem_singleton]
    constructor
    · rintro ⟨⟨-, hot', -, rfl⟩, rfl⟩
      rfl
    · rintro rfl
      exact ⟨⟨cold, hot, hbadges, rfl⟩, rfl⟩
  · intro members registrations deregistrations hmembers hregs hderegs
    apply reduceRoleObservation_ext
    intro entry
    have hbadges : ∀ cold hot, CommitteeRead.Badges
          ⟨read.committee.epoch, members, registrations, deregistrations⟩
          read.claimedCommittee cold hot ↔
        read.committee.Badges read.claimedCommittee cold hot := by
      intro cold hot
      exact CommitteeRead.Badges.congr rfl (fun _ => hmembers.mem_iff) (fun _ => hregs.mem_iff)
        (fun _ => hderegs.mem_iff)
    rw [mem_reduceRoleObservation, mem_reduceRoleObservation]
    simp only [CommitteeRead.mem_entries, hbadges, CalidusRule]

def seatRead (committee : CommitteeRead) : RoleRead where
  registrations := []
  activePools := []
  ownerPools := []
  claimedCalidus := []
  liveDreps := []
  poolStake := []
  drepStake := []
  committee := committee
  claimedCommittee := [⟨7⟩, ⟨9⟩]

theorem committee_entries_exact_seat :
    let members : List CommitteeMember := [⟨⟨1⟩, false, 9⟩, ⟨⟨1⟩, true, 5⟩, ⟨⟨2⟩, false, 4⟩]
    let registrations : List CommitteeRegistration :=
      [⟨⟨1⟩, ⟨7⟩, false, toLex (3, 0)⟩, ⟨⟨1⟩, ⟨8⟩, false, toLex (2, 1)⟩,
        ⟨⟨2⟩, ⟨9⟩, false, toLex (3, 1)⟩]
    let deregistrations : List CommitteeDeregistration := [⟨⟨1⟩, toLex (2, 5)⟩]
    let read := seatRead ⟨5, members, registrations, deregistrations⟩
    reduceRoleObservation Crypto.toy read = [⟨.committee, ⟨7⟩, ⟨7⟩, 0⟩] ∧
      reduceRoleObservation Crypto.toy
          (seatRead ⟨5, members.reverse, registrations.reverse, deregistrations⟩) =
        reduceRoleObservation Crypto.toy read := by
  intro members registrations deregistrations read
  exact ⟨by decide +kernel,
    (committee_entries_exact Crypto.toy read).2.2 members.reverse registrations.reverse
      deregistrations (List.reverse_perm _) (List.reverse_perm _) (List.Perm.refl _)⟩

/-! ## The windowed read -/

/-- The credentials of each source a read is restricted to. -/
structure RoleScope where
  calidus : List Credential
  owners : List Credential
  dreps : List Credential
  committee : List Credential

def RoleScope.credentials (scope : RoleScope) : RoleSource → List Credential
  | .spoCalidus => scope.calidus
  | .spoOwner => scope.owners
  | .dRep => scope.dreps
  | .committee => scope.committee

/-- The read of a window: the same material for fewer credentials. -/
def RoleRead.restrict (read : RoleRead) (scope : RoleScope) : RoleRead :=
  { read with
    ownerPools := read.ownerPools.filter (fun owner => decide (owner.1 ∈ scope.owners))
    claimedCalidus := scope.calidus
    liveDreps := read.liveDreps.filter (fun drep => decide (drep ∈ scope.dreps))
    claimedCommittee := scope.committee }

section Restriction

variable {crypto : Crypto} {read : RoleRead} {scope : RoleScope} {entry : RoleEntry}

theorem calidusRule_restrict (hcalidus : scope.calidus ⊆ read.claimedCalidus) :
    CalidusRule crypto (read.restrict scope) entry ↔
      CalidusRule crypto read entry ∧ entry.credential ∈ scope.credentials entry.source := by
  constructor
  · rintro ⟨pool, hactive, reg, hfirst, hclaimed, rfl⟩
    exact ⟨⟨pool, hactive, reg, hfirst, hcalidus hclaimed, rfl⟩, hclaimed⟩
  · rintro ⟨⟨pool, hactive, reg, hfirst, -, rfl⟩, hscope⟩
    exact ⟨pool, hactive, reg, hfirst, hscope, rfl⟩

theorem mem_ownerEntries_restrict {poolWeight : StorageMap Credential ℕ} :
    entry ∈ ownerEntries (read.restrict scope).ownerPools read.activePools poolWeight ↔
      entry ∈ ownerEntries read.ownerPools read.activePools poolWeight ∧
        entry.credential ∈ scope.credentials entry.source := by
  simp only [ownerEntries, RoleRead.restrict, List.mem_map, List.mem_filter, decide_eq_true_eq]
  constructor
  · rintro ⟨owner, ⟨⟨hmem, hscope⟩, hactive⟩, rfl⟩
    exact ⟨⟨owner, ⟨hmem, hactive⟩, rfl⟩, hscope⟩
  · rintro ⟨⟨owner, ⟨hmem, hactive⟩, rfl⟩, hscope⟩
    exact ⟨owner, ⟨⟨hmem, hscope⟩, hactive⟩, rfl⟩

theorem mem_drepEntries_restrict {drepWeight : StorageMap Credential ℕ} :
    entry ∈ drepEntries (read.restrict scope).liveDreps drepWeight ↔
      entry ∈ drepEntries read.liveDreps drepWeight ∧
        entry.credential ∈ scope.credentials entry.source := by
  simp only [drepEntries, RoleRead.restrict, List.mem_map, List.mem_filter, decide_eq_true_eq]
  constructor
  · rintro ⟨drep, ⟨hmem, hscope⟩, rfl⟩
    exact ⟨⟨drep, hmem, rfl⟩, hscope⟩
  · rintro ⟨⟨drep, hmem, rfl⟩, hscope⟩
    exact ⟨drep, ⟨hmem, hscope⟩, rfl⟩

theorem CommitteeRead.mem_entries_restrict {committee : CommitteeRead}
    {claimedCommittee : List Credential} (hcommittee : scope.committee ⊆ claimedCommittee) :
    entry ∈ committee.entries scope.committee ↔
      entry ∈ committee.entries claimedCommittee ∧
        entry.credential ∈ scope.credentials entry.source := by
  simp only [CommitteeRead.mem_entries]
  constructor
  · rintro ⟨cold, hot, hbadges, rfl⟩
    exact ⟨⟨cold, hot, { hbadges with claimed := hcommittee hbadges.claimed }, rfl⟩,
      hbadges.claimed⟩
  · rintro ⟨⟨cold, hot, hbadges, rfl⟩, hscope⟩
    exact ⟨cold, hot, { hbadges with claimed := hscope }, rfl⟩

theorem reduceRoleObservation_restrict (crypto : Crypto)
    (hcalidus : scope.calidus ⊆ read.claimedCalidus)
    (hcommittee : scope.committee ⊆ read.claimedCommittee) :
    reduceRoleObservation crypto (read.restrict scope) =
      (reduceRoleObservation crypto read).filter
        (fun entry => decide (entry.credential ∈ scope.credentials entry.source)) := by
  apply eq_filter_reduceRoleObservation
  intro entry
  rw [decide_eq_true_eq, mem_reduceRoleObservation, mem_reduceRoleObservation, or_and_right,
    or_and_right, or_and_right, calidusRule_restrict hcalidus]
  exact or_congr_right (or_congr mem_ownerEntries_restrict
    (or_congr mem_drepEntries_restrict (CommitteeRead.mem_entries_restrict hcommittee)))

end Restriction

/-- A windowed read gives what the full read gives for the credentials of the
window, and every account whose credentials are in the window the roles the full
read gives it. -/
theorem windowed_read_restricts (crypto : Crypto) (read : RoleRead) (scope : RoleScope)
    (hcalidus : scope.calidus ⊆ read.claimedCalidus)
    (hcommittee : scope.committee ⊆ read.claimedCommittee) :
    reduceRoleObservation crypto (read.restrict scope) =
      (reduceRoleObservation crypto read).filter
        (fun entry => decide (entry.credential ∈ scope.credentials entry.source)) ∧
    ∀ (s : Runtime) (obs : CardanoObservation) (who : AccountId),
      (∀ entry ∈ reduceRoleObservation crypto read,
        s.resolveRole entry.source entry.credential = some who →
        entry.credential ∈ scope.credentials entry.source) →
      (s.roleDesired { obs with
          roleEntries := reduceRoleObservation crypto (read.restrict scope) }).get who =
        (s.roleDesired { obs with roleEntries := reduceRoleObservation crypto read }).get who := by
  have hrestrict := reduceRoleObservation_restrict crypto hcalidus hcommittee
  refine ⟨hrestrict, ?_⟩
  intro s obs who hscope
  rw [Runtime.roleDesired_get, Runtime.roleDesired_get, hrestrict, List.filter_filter]
  congr 1
  apply List.filter_congr
  intro entry hentry
  rw [Bool.and_eq_left_iff_imp, decide_eq_true_eq, decide_eq_true_eq]
  exact hscope entry hentry

def ownersRead : RoleRead where
  registrations := []
  activePools := [⟨4⟩]
  ownerPools := [(⟨7⟩, ⟨4⟩), (⟨8⟩, ⟨4⟩)]
  claimedCalidus := [⟨1⟩]
  liveDreps := []
  poolStake := [(⟨4⟩, 9)]
  drepStake := []
  committee := ⟨0, [], [], []⟩
  claimedCommittee := []

theorem windowed_read_restricts_owners :
    reduceRoleObservation Crypto.toy (ownersRead.restrict ⟨[], [⟨7⟩], [], []⟩) =
      [⟨.spoOwner, ⟨7⟩, ⟨4⟩, 9⟩] ∧
    (poolOwner.roleDesired (twoPools
        (reduceRoleObservation Crypto.toy (ownersRead.restrict ⟨[], [⟨7⟩], [], []⟩)))).get ⟨1⟩ =
      (poolOwner.roleDesired (twoPools (reduceRoleObservation Crypto.toy ownersRead))).get ⟨1⟩ := by
  have hwindow := windowed_read_restricts Crypto.toy ownersRead ⟨[], [⟨7⟩], [], []⟩
    (by simp) (by simp)
  exact ⟨hwindow.1.trans (by decide +kernel), hwindow.2 poolOwner (twoPools []) ⟨1⟩
    (by decide +kernel)⟩

end CognoChain
