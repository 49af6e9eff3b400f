import CognoChain.Model.Governance

/-!
# The committee cannot lock itself out

Whatever the committee votes, its members stay distinct, one or at least three,
and every seat filled on the way is funded: the call filter asks for the
allowance when a newcomer is seated, and `revoke` refuses to take it while the
seat is held.
-/

namespace CognoChain

open Substrate

/-! ## The allowance list -/

section Allowances

variable {cfg : GovernanceConfig} {who : AccountId} {max : ℕ}
  {list list' : List (AccountId × ℕ)} {entry : AccountId × ℕ}

@[simp] theorem map_fst_setEntry (who : AccountId) (max : ℕ) (list : List (AccountId × ℕ)) :
    (setEntry who max list).map Prod.fst = list.map Prod.fst := by
  induction list with
  | nil => rfl
  | cons entry rest ih =>
    rw [setEntry]
    split_ifs
    · rfl
    · rw [List.map_cons, ih, List.map_cons]

theorem mem_setEntry (hmem : entry ∈ setEntry who max list) :
    entry ∈ list ∨ entry = (who, max) := by
  induction list with
  | nil => exact absurd hmem List.not_mem_nil
  | cons head rest ih =>
    rw [setEntry] at hmem
    split_ifs at hmem with hhead
    · rcases List.mem_cons.mp hmem with rfl | hmem
      · exact Or.inr (by rw [hhead])
      · exact Or.inl (List.mem_cons_of_mem _ hmem)
    · rcases List.mem_cons.mp hmem with rfl | hmem
      · exact Or.inl List.mem_cons_self
      · exact (ih hmem).imp_left (List.mem_cons_of_mem _)

theorem setEntry_self_mem (hmem : who ∈ list.map Prod.fst) :
    (who, max) ∈ setEntry who max list := by
  induction list with
  | nil => exact absurd hmem List.not_mem_nil
  | cons head rest ih =>
    rw [setEntry]
    split_ifs with hhead
    · rw [hhead]
      exact List.mem_cons_self
    · rw [List.map_cons, List.mem_cons] at hmem
      exact List.mem_cons_of_mem _ (ih (hmem.resolve_left (Ne.symm hhead)))

theorem any_fst_iff {m : AccountId} :
    (list.any fun entry => entry.1 = m) = true ↔ m ∈ list.map Prod.fst := by
  simp only [List.any_eq_true, decide_eq_true_eq, List.mem_map]

structure AllowancesOk (cfg : GovernanceConfig) (list : List (AccountId × ℕ)) : Prop where
  nodup : (list.map Prod.fst).Nodup
  within : ∀ entry ∈ list, cfg.minAllowance ≤ entry.2 ∧ entry.2 ≤ cfg.maxAllowance

structure Upserted (who : AccountId) (max : ℕ) (list list' : List (AccountId × ℕ)) : Prop where
  mem_self : (who, max) ∈ list'
  mem_of_mem : ∀ entry ∈ list', entry ∈ list ∨ entry = (who, max)
  funded : ∀ m ∈ list.map Prod.fst, m ∈ list'.map Prod.fst
  nodup : (list.map Prod.fst).Nodup → (list'.map Prod.fst).Nodup

theorem upsertAllowance_ok (h : upsertAllowance cfg who max list = .ok list') :
    Upserted who max list list' := by
  unfold upsertAllowance at h
  split_ifs at h with hany hroom
  · rw [← Except.ok.inj h]
    exact
      { mem_self := setEntry_self_mem (any_fst_iff.mp hany)
        mem_of_mem := fun entry => mem_setEntry
        funded := fun m hm => by rwa [map_fst_setEntry]
        nodup := fun hnodup => by rwa [map_fst_setEntry] }
  · have hnew : who ∉ list.map Prod.fst := fun hmem => hany (any_fst_iff.mpr hmem)
    rw [← Except.ok.inj h]
    refine
      { mem_self := by simp
        mem_of_mem := fun entry hmem => by simpa using hmem
        funded := fun m hm => by
          rw [List.map_append]
          exact List.mem_append_left _ hm
        nodup := fun hnodup => ?_ }
    rw [List.map_append, List.map_singleton, ← List.concat_eq_append]
    exact hnodup.concat hnew

theorem AllowancesOk.upsert (hok : AllowancesOk cfg list) (hup : Upserted who max list list')
    (hmin : cfg.minAllowance ≤ max) (hmax : max ≤ cfg.maxAllowance) :
    AllowancesOk cfg list' := by
  refine ⟨hup.nodup hok.nodup, ?_⟩
  intro entry hentry
  rcases hup.mem_of_mem entry hentry with hold | rfl
  · exact hok.within entry hold
  · exact ⟨hmin, hmax⟩

theorem AllowancesOk.filter (hok : AllowancesOk cfg list) (keep : AccountId × ℕ → Bool) :
    AllowancesOk cfg (list.filter keep) where
  nodup := hok.nodup.sublist (List.filter_sublist.map Prod.fst)
  within := fun entry hentry => hok.within entry (List.mem_of_mem_filter hentry)

end Allowances

/-! ## What each call can do -/

namespace Governance

variable {C : Currency} {cfg : GovernanceConfig} {s s' : Governance C}
  {origin : CommitteeOrigin} {who : AccountId} {max : ℕ} {newMembers : List AccountId}

def funded (s : Governance C) : List AccountId := s.allowances.map Prod.fst

structure SeatsOk (cfg : GovernanceConfig) (members : List AccountId) : Prop where
  nodup : members.Nodup
  size : members.length = 1 ∨ 3 ≤ members.length
  size_le : members.length ≤ cfg.maxMembers

theorem SeatsOk.perm {members members' : List AccountId} (hok : SeatsOk cfg members)
    (hperm : members'.Perm members) : SeatsOk cfg members' where
  nodup := hperm.nodup_iff.mpr hok.nodup
  size := by rw [hperm.length_eq]; exact hok.size
  size_le := hperm.length_eq.trans_le hok.size_le

theorem seatsOk_of_cognoCallFilter (h : s.cognoCallFilter cfg newMembers = true) :
    SeatsOk cfg newMembers ∧ ∀ m ∈ newMembers, m ∈ s.members ∨ m ∈ s.funded := by
  unfold cognoCallFilter at h
  split_ifs at h with hdistinct hempty hmany htwo
  have hlength : newMembers.dedup.length = newMembers.length := by
    have hsorted := not_not.mp hdistinct
    rwa [sortedSet, List.length_insertionSort] at hsorted
  have hnodup : newMembers.Nodup := by
    rw [← List.dedup_eq_self]
    exact (List.dedup_sublist newMembers).eq_of_length hlength
  have hpos : newMembers.length ≠ 0 := by
    simpa [List.isEmpty_iff] using hempty
  refine ⟨⟨hnodup, by omega, by omega⟩, ?_⟩
  intro m hm
  have hall := List.all_eq_true.mp h m hm
  simpa only [Bool.or_eq_true, List.contains_eq_mem, decide_eq_true_eq, any_fst_iff, funded]
    using hall

theorem setMembers_ok (h : s.setMembers cfg origin newMembers = .ok s') :
    SeatsOk cfg newMembers ∧ (∀ m ∈ newMembers, m ∈ s.members ∨ m ∈ s.funded) ∧
      ∃ members, members.Perm newMembers ∧ s' = { s with members := members } := by
  unfold setMembers at h
  split_ifs at h with hfilter horigin
  rw [Bool.not_eq_true', Bool.not_eq_false] at hfilter
  obtain ⟨hseats, hfunded⟩ := seatsOk_of_cognoCallFilter hfilter
  exact ⟨hseats, hfunded, _, List.perm_insertionSort _ _, (Except.ok.inj h).symm⟩

theorem setAllowance_ok (h : s.setAllowance cfg origin who max = .ok s') :
    cfg.minAllowance ≤ max ∧ max ≤ cfg.maxAllowance ∧ s'.members = s.members ∧
      Upserted who max s.allowances s'.allowances ∧
      ((s'.balances = s.balances ∧ s'.totalMinted = s.totalMinted) ∨
        (C.balance s.balances who < max ∧
          C.mintInto s.balances who (max - C.balance s.balances who) = some s'.balances ∧
          s'.totalMinted = satAdd u128Max s.totalMinted (max - C.balance s.balances who))) := by
  unfold setAllowance at h
  split at h
  · cases h
  split at h
  · cases h
  split at h
  · cases h
  next _ hmax hmin =>
  split at h
  · cases h
  next list hlist =>
  have hup := upsertAllowance_ok hlist
  refine ⟨not_lt.mp hmin, not_lt.mp hmax, ?_⟩
  dsimp only at h
  split at h
  next hshort =>
    split at h
    · cases h
    next balances hmint =>
      rw [← Except.ok.inj h]
      exact ⟨rfl, hup, Or.inr ⟨hshort, hmint, rfl⟩⟩
  · rw [← Except.ok.inj h]
    exact ⟨rfl, hup, Or.inl ⟨rfl, rfl⟩⟩

theorem revoke_ok (h : s.revoke origin who = .ok s') :
    who ∉ s.members ∧ s'.members = s.members ∧ s'.totalMinted = s.totalMinted ∧
      s'.allowances = s.allowances.filter (fun entry => entry.1 ≠ who) := by
  unfold revoke at h
  split at h
  · cases h
  split at h
  · cases h
  next _ hseated =>
  refine ⟨by simpa using hseated, ?_⟩
  dsimp only at h
  split at h
  · rw [← Except.ok.inj h]
    exact ⟨rfl, rfl, rfl⟩
  · split at h
    · cases h
    · rw [← Except.ok.inj h]
      exact ⟨rfl, rfl, rfl⟩

theorem doRegenerate_members (s : Governance C) :
    s.doRegenerate.members = s.members ∧ s.doRegenerate.allowances = s.allowances := by
  unfold doRegenerate
  dsimp only
  split <;> exact ⟨rfl, rfl⟩

/-! ## Seats and allowances along a run -/

/-- A step keeps the seats it found, or replaces them by a list that passed the
filter. -/
inductive SeatStep (cfg : GovernanceConfig) (s s' : Governance C) : Prop
  | seated (hseats : SeatsOk cfg s'.members)
      (hfunded : ∀ m ∈ s'.members, m ∈ s.members ∨ m ∈ s.funded)
      (hallowances : s'.allowances = s.allowances)
  | granted (who : AccountId) (max : ℕ) (hmin : cfg.minAllowance ≤ max)
      (hmax : max ≤ cfg.maxAllowance) (hmembers : s'.members = s.members)
      (hup : Upserted who max s.allowances s'.allowances)
  | revoked (who : AccountId) (hseat : who ∉ s.members) (hmembers : s'.members = s.members)
      (hallowances : s'.allowances = s.allowances.filter (fun entry => entry.1 ≠ who))
  | kept (hmembers : s'.members = s.members) (hallowances : s'.allowances = s.allowances)

theorem step_seatStep (cfg : GovernanceConfig) (s : Governance C) (op : GovernanceOp C) :
    SeatStep cfg s (s.step cfg op) := by
  cases op with
  | setMembers origin newMembers =>
    rw [step]
    cases h : s.setMembers cfg origin newMembers with
    | error e => exact .kept rfl rfl
    | ok after =>
      obtain ⟨hseats, hfunded, members, hperm, rfl⟩ := setMembers_ok h
      exact .seated (hseats.perm hperm) (fun m hm => hfunded m (hperm.mem_iff.mp hm)) rfl
  | setAllowance origin who max =>
    rw [step]
    cases h : s.setAllowance cfg origin who max with
    | error e => exact .kept rfl rfl
    | ok after =>
      obtain ⟨hmin, hmax, hmembers, hup, -⟩ := setAllowance_ok h
      exact .granted who max hmin hmax hmembers hup
  | revoke origin who =>
    rw [step]
    cases h : s.revoke origin who with
    | error e => exact .kept rfl rfl
    | ok after =>
      obtain ⟨hseat, hmembers, -, hallowances⟩ := revoke_ok h
      exact .revoked who hseat hmembers hallowances
  | tick now =>
    rw [step, onInitialize]
    split_ifs
    · exact .kept rfl rfl
    · exact .kept (doRegenerate_members s).1 (doRegenerate_members s).2
  | fees balances => exact .kept rfl rfl

theorem SeatStep.seatsOk (hstep : SeatStep cfg s s') (hok : SeatsOk cfg s.members) :
    SeatsOk cfg s'.members := by
  cases hstep with
  | seated hseats _ _ => exact hseats
  | granted _ _ _ _ hmembers _ | revoked _ _ hmembers _ | kept hmembers _ => rwa [hmembers]

theorem SeatStep.allowancesOk (hstep : SeatStep cfg s s') (hok : AllowancesOk cfg s.allowances) :
    AllowancesOk cfg s'.allowances := by
  cases hstep with
  | seated _ _ hallowances | kept _ hallowances => rwa [hallowances]
  | granted _ _ hmin hmax _ hup => exact hok.upsert hup hmin hmax
  | revoked _ _ _ hallowances =>
    rw [hallowances]
    exact hok.filter _

/-- A seat held before and after a step keeps its allowance: only an account
without a seat can be revoked. -/
theorem SeatStep.funded_of_seated (hstep : SeatStep cfg s s') {m : AccountId}
    (hseat : m ∈ s'.members) : m ∈ s.members ∧ (m ∈ s.funded → m ∈ s'.funded) ∨ m ∈ s'.funded := by
  cases hstep with
  | seated _ hfunded hallowances =>
    have hsame : s'.funded = s.funded := congrArg (List.map Prod.fst) hallowances
    rw [hsame]
    exact (hfunded m hseat).imp_left (fun hold => ⟨hold, id⟩)
  | granted _ _ _ _ hmembers hup =>
    rw [hmembers] at hseat
    exact Or.inl ⟨hseat, hup.funded m⟩
  | revoked who hgone hmembers hallowances =>
    rw [hmembers] at hseat
    refine Or.inl ⟨hseat, fun hold => ?_⟩
    obtain ⟨entry, hentry, rfl⟩ := List.mem_map.mp hold
    rw [funded, hallowances]
    refine List.mem_map_of_mem (List.mem_filter.mpr ⟨hentry, ?_⟩)
    rw [decide_eq_true_eq]
    rintro rfl
    exact hgone hseat
  | kept hmembers hallowances =>
    rw [hmembers] at hseat
    rw [funded, funded, hallowances]
    exact Or.inl ⟨hseat, id⟩

def SeatedThroughout (cfg : GovernanceConfig) (s : Governance C) (ops : List (GovernanceOp C))
    (m : AccountId) : Prop :=
  ∀ earlier, earlier <+: ops → m ∈ (s.run cfg earlier).members

theorem seatedThroughout_or_funded (cfg : GovernanceConfig) (s : Governance C)
    (ops : List (GovernanceOp C)) {m : AccountId} (hseat : m ∈ (s.run cfg ops).members) :
    SeatedThroughout cfg s ops m ∨ m ∈ (s.run cfg ops).funded := by
  induction ops using List.reverseRecOn with
  | nil =>
    refine Or.inl fun earlier hearlier => ?_
    rwa [List.prefix_nil.mp hearlier]
  | append_singleton ops op ih =>
    have hrun : s.run cfg (ops ++ [op]) = (s.run cfg ops).step cfg op := run_concat s ops op
    have hstep := step_seatStep cfg (s.run cfg ops) op
    rw [← hrun] at hstep
    rcases hstep.funded_of_seated hseat with ⟨hbefore, hkeeps⟩ | hnow
    · rcases ih hbefore with hthrough | hfunded
      · refine Or.inl fun earlier hearlier => ?_
        rcases List.prefix_concat_iff.mp hearlier with rfl | hearlier
        · exact hseat
        · exact hthrough earlier hearlier
      · exact Or.inr (hkeeps hfunded)
    · exact Or.inr hnow

/-! ## Quorums -/

/-- Distinct seated voters enough for the authority origin. -/
structure Carries (s : Governance C) (voters : List AccountId) : Prop where
  nodup : voters.Nodup
  seated : voters ⊆ s.members
  origin : authorityOrigin (.members voters.length s.members.length) = true

theorem authorityOrigin_iff {ayes seats : ℕ} :
    authorityOrigin (.members ayes seats) = true ↔ 3 * seats ≤ ayes * 5 :=
  decide_eq_true_iff

theorem carries_members (hok : SeatsOk cfg s.members) : s.Carries s.members :=
  ⟨hok.nodup, fun _ => id, authorityOrigin_iff.mpr (by omega)⟩

/-- From three seats on, all but one are enough. -/
theorem carries_erase (hok : SeatsOk cfg s.members) (hsize : 3 ≤ s.members.length)
    (lost : AccountId) : lost ∉ s.members.erase lost ∧ s.Carries (s.members.erase lost) := by
  have hlength : s.members.length - 1 ≤ (s.members.erase lost).length := by
    rw [List.length_erase]
    split <;> omega
  exact ⟨hok.nodup.not_mem_erase,
    hok.nodup.erase lost, List.erase_subset, authorityOrigin_iff.mpr (by omega)⟩

end Governance

/-! ## Minting -/

section Minting

variable {C : Currency} {acc : Regeneration C} {list : List (AccountId × ℕ)} {who : AccountId}

theorem Regeneration.refill_cases (hmint : C.ExactMint) (acc : Regeneration C)
    (entry : AccountId × ℕ) :
    acc.refill entry = acc ∨
      (C.balance acc.balances entry.1 < entry.2 ∧
        C.balance (acc.refill entry).balances =
          Function.update (C.balance acc.balances) entry.1 entry.2 ∧
        (acc.refill entry).minted =
          satAdd u128Max acc.minted (entry.2 - C.balance acc.balances entry.1)) := by
  unfold Regeneration.refill
  dsimp only
  split
  next hshort =>
    split
    next after hafter =>
      refine Or.inr ⟨hshort, ?_, rfl⟩
      rw [hmint _ _ _ _ hafter, Nat.add_sub_cancel' hshort.le]
    · exact Or.inl rfl
  · exact Or.inl rfl

theorem Regeneration.refill_balance_of_ne (hmint : C.ExactMint) (acc : Regeneration C)
    {entry : AccountId × ℕ} (hne : who ≠ entry.1) :
    C.balance (acc.refill entry).balances who = C.balance acc.balances who := by
  rcases acc.refill_cases hmint entry with hsame | ⟨-, hbalance, -⟩
  · rw [hsame]
  · rw [hbalance, Function.update_of_ne hne]

theorem Regeneration.foldl_balance_of_not_mem (hmint : C.ExactMint) (acc : Regeneration C)
    (hwho : who ∉ list.map Prod.fst) :
    C.balance (list.foldl Regeneration.refill acc).balances who = C.balance acc.balances who := by
  induction list generalizing acc with
  | nil => rfl
  | cons entry rest ih =>
    rw [List.map_cons, List.mem_cons, not_or] at hwho
    rw [List.foldl_cons, ih _ hwho.2, acc.refill_balance_of_ne hmint hwho.1]

theorem Regeneration.foldl_minted (hmint : C.ExactMint) (acc : Regeneration C)
    (hnodup : (list.map Prod.fst).Nodup) (hacc : acc.minted ≤ u128Max) :
    (list.foldl Regeneration.refill acc).minted =
      satAdd u128Max acc.minted ((list.map fun entry =>
        C.balance (list.foldl Regeneration.refill acc).balances entry.1 -
          C.balance acc.balances entry.1).sum) := by
  induction list generalizing acc with
  | nil => simpa [satAdd] using hacc
  | cons entry rest ih =>
    rw [List.map_cons, List.nodup_cons] at hnodup
    obtain ⟨hfresh, hnodup⟩ := hnodup
    have hle : (acc.refill entry).minted ≤ u128Max := by
      rcases acc.refill_cases hmint entry with hsame | ⟨-, -, hminted⟩
      · rwa [hsame]
      · rw [hminted]
        exact satAdd_le _ _ _
    have hhead := (acc.refill entry).foldl_balance_of_not_mem hmint hfresh
    have hrest : ∀ other ∈ rest, C.balance (acc.refill entry).balances other.1 =
        C.balance acc.balances other.1 := by
      intro other hother
      refine acc.refill_balance_of_ne hmint ?_
      rintro heq
      exact hfresh (heq ▸ List.mem_map_of_mem hother)
    rw [List.foldl_cons, ih _ hnodup hle, List.map_cons, List.sum_cons, hhead]
    rw [List.map_congr_left (g := fun other =>
      C.balance (rest.foldl Regeneration.refill (acc.refill entry)).balances other.1 -
        C.balance acc.balances other.1) (fun other hother => by rw [hrest other hother])]
    rcases acc.refill_cases hmint entry with hsame | ⟨-, hbalance, hminted⟩
    · rw [hsame, Nat.sub_self, Nat.zero_add]
    · rw [hminted, hbalance, Function.update_self]
      unfold satAdd
      omega

theorem Regeneration.foldl_balance_le (hmint : C.ExactMint) (acc : Regeneration C)
    (hraised : C.balance acc.balances who < C.balance (list.foldl Regeneration.refill acc).balances who)
    :
    ∃ max, (who, max) ∈ list ∧
      C.balance (list.foldl Regeneration.refill acc).balances who ≤ max := by
  induction list generalizing acc with
  | nil => exact absurd hraised (lt_irrefl _)
  | cons entry rest ih =>
    rw [List.foldl_cons] at hraised ⊢
    by_cases hlater : C.balance (acc.refill entry).balances who <
        C.balance (rest.foldl Regeneration.refill (acc.refill entry)).balances who
    · obtain ⟨max, hmem, hle⟩ := ih _ hlater
      exact ⟨max, List.mem_cons_of_mem _ hmem, hle⟩
    · -- the entry itself raised the balance
      have hnow := hraised.trans_le (not_lt.mp hlater)
      rcases acc.refill_cases hmint entry with hsame | ⟨-, hbalance, -⟩
      · rw [hsame] at hnow
        exact absurd hnow (lt_irrefl _)
      · by_cases hwho : who = entry.1
        · subst hwho
          rw [hbalance, Function.update_self] at hlater
          exact ⟨entry.2, List.mem_cons_self, not_lt.mp hlater⟩
        · rw [hbalance, Function.update_of_ne hwho] at hnow
          exact absurd hnow (lt_irrefl _)

end Minting

namespace Governance

variable {C : Currency} {cfg : GovernanceConfig} {s : Governance C} {op : GovernanceOp C}

def mintedBy (cfg : GovernanceConfig) (s : Governance C) (op : GovernanceOp C) : ℕ :=
  let gained := fun who =>
    C.balance (s.step cfg op).balances who - C.balance s.balances who
  match op with
  | .setAllowance _ who _ => gained who
  | .tick _ => (s.funded.map gained).sum
  | _ => 0

theorem step_setAllowance_of_ok {s' : Governance C} {origin : CommitteeOrigin} {who : AccountId}
    {max : ℕ} (h : s.setAllowance cfg origin who max = .ok s') :
    s.step cfg (.setAllowance origin who max) = s' := by
  rw [step, h]
  rfl

def Mints : GovernanceOp C → Prop
  | .setAllowance _ _ _ => True
  | .tick _ => True
  | _ => False

theorem doRegenerate_balances (s : Governance C) :
    s.doRegenerate.balances =
      (s.allowances.foldl Regeneration.refill { balances := s.balances }).balances := by
  unfold doRegenerate
  dsimp only
  split <;> rfl

theorem doRegenerate_totalMinted (hle : s.totalMinted ≤ u128Max) :
    s.doRegenerate.totalMinted = satAdd u128Max s.totalMinted
      (s.allowances.foldl Regeneration.refill { balances := s.balances }).minted := by
  unfold doRegenerate
  dsimp only
  split
  next hzero => rw [hzero, satAdd_of_le hle, Nat.add_zero]
  · rfl

theorem step_totalMinted (hmint : C.ExactMint) (hallowances : AllowancesOk cfg s.allowances)
    (hle : s.totalMinted ≤ u128Max) (op : GovernanceOp C) :
    (s.step cfg op).totalMinted = satAdd u128Max s.totalMinted (s.mintedBy cfg op) := by
  have hnone : s.totalMinted = satAdd u128Max s.totalMinted 0 := (min_eq_left hle).symm
  cases op with
  | setMembers origin newMembers =>
    refine Eq.trans ?_ hnone
    rw [step]
    cases h : s.setMembers cfg origin newMembers with
    | error e => rfl
    | ok after =>
      obtain ⟨-, -, members, -, rfl⟩ := setMembers_ok h
      rfl
  | setAllowance origin who max =>
    unfold mintedBy
    dsimp only
    rw [step]
    cases h : s.setAllowance cfg origin who max with
    | error e => simpa [Except.toOption] using hnone
    | ok after =>
      change after.totalMinted = satAdd u128Max s.totalMinted
        (C.balance after.balances who - C.balance s.balances who)
      obtain ⟨-, -, -, -, hbalances⟩ := setAllowance_ok h
      rcases hbalances with ⟨hsame, htotal⟩ | ⟨hshort, hminted, htotal⟩
      · rw [hsame, htotal, Nat.sub_self]
        exact hnone
      · rw [htotal, hmint _ _ _ _ hminted, Function.update_self, Nat.add_sub_cancel_left]
  | revoke origin who =>
    refine Eq.trans ?_ hnone
    rw [step]
    cases h : s.revoke origin who with
    | error e => rfl
    | ok after => exact (revoke_ok h).2.2.1
  | tick now =>
    unfold mintedBy
    dsimp only
    rw [step, onInitialize]
    split_ifs
    · simpa using hnone
    · rw [doRegenerate_totalMinted hle, doRegenerate_balances,
        Regeneration.foldl_minted hmint _ hallowances.nodup (Nat.zero_le _)]
      rw [funded, List.map_map]
      unfold satAdd
      dsimp only [Function.comp_def]
      omega
  | fees balances => exact hnone

theorem step_balance_le (hmint : C.ExactMint) (hmints : Mints op) {who : AccountId}
    (hraised : C.balance s.balances who < C.balance (s.step cfg op).balances who) :
    ∃ max, (who, max) ∈ (s.step cfg op).allowances ∧
      C.balance (s.step cfg op).balances who ≤ max := by
  cases op with
  | setMembers | revoke | fees => exact hmints.elim
  | tick now =>
    rw [step, onInitialize] at hraised ⊢
    split_ifs at hraised ⊢ with hcadence
    · exact absurd hraised (lt_irrefl _)
    · rw [doRegenerate_balances] at hraised ⊢
      rw [(doRegenerate_members s).2]
      exact Regeneration.foldl_balance_le hmint _ hraised
  | setAllowance origin granted max =>
    rw [step] at hraised ⊢
    cases h : s.setAllowance cfg origin granted max with
    | error e =>
      rw [h] at hraised
      exact absurd hraised (lt_irrefl _)
    | ok after =>
      rw [h] at hraised
      change C.balance s.balances who < C.balance after.balances who at hraised
      change ∃ max, (who, max) ∈ after.allowances ∧ C.balance after.balances who ≤ max
      obtain ⟨-, -, -, hup, hbalances⟩ := setAllowance_ok h
      rcases hbalances with ⟨hsame, -⟩ | ⟨hshort, hminted, -⟩
      · rw [hsame] at hraised
        exact absurd hraised (lt_irrefl _)
      · rw [hmint _ _ _ _ hminted, Nat.add_sub_cancel' hshort.le] at hraised ⊢
        by_cases hwho : who = granted
        · subst hwho
          refine ⟨max, hup.mem_self, ?_⟩
          rw [Function.update_self]
        · rw [Function.update_of_ne hwho] at hraised
          exact absurd hraised (lt_irrefl _)

/-! ## The committee along a run -/

structure Founding (cfg : GovernanceConfig) (s : Governance C) : Prop where
  seats : SeatsOk cfg s.members
  unfunded : s.allowances = []
  totalMinted_le : s.totalMinted ≤ u128Max

theorem Founding.allowancesOk (h : s.Founding cfg) : AllowancesOk cfg s.allowances := by
  rw [h.unfunded]
  exact ⟨List.nodup_nil, fun entry hentry => absurd hentry List.not_mem_nil⟩

theorem run_seatsOk (hseats : SeatsOk cfg s.members) (ops : List (GovernanceOp C)) :
    SeatsOk cfg (s.run cfg ops).members :=
  run_invariant (fun s => SeatsOk cfg s.members) ops
    (fun s op hok => (step_seatStep cfg s op).seatsOk hok) hseats

theorem run_allowancesOk (hallowances : AllowancesOk cfg s.allowances)
    (ops : List (GovernanceOp C)) : AllowancesOk cfg (s.run cfg ops).allowances :=
  run_invariant (fun s => AllowancesOk cfg s.allowances) ops
    (fun s op hok => (step_seatStep cfg s op).allowancesOk hok) hallowances

theorem run_totalMinted (hmint : C.ExactMint) (hallowances : AllowancesOk cfg s.allowances)
    (hle : s.totalMinted ≤ u128Max) (ops : List (GovernanceOp C)) :
    (s.run cfg ops).totalMinted =
      satAdd u128Max s.totalMinted (sumAlong (step cfg) (mintedBy cfg) s ops) := by
  induction ops generalizing s with
  | nil => exact (min_eq_left hle).symm
  | cons op ops ih =>
    have hstep := step_totalMinted hmint hallowances hle op
    have hafter := (step_seatStep cfg s op).allowancesOk hallowances
    have hle' : (s.step cfg op).totalMinted ≤ u128Max := by
      rw [hstep]
      exact satAdd_le _ _ _
    change ((s.step cfg op).run cfg ops).totalMinted = _
    rw [ih hafter hle', hstep, sumAlong]
    unfold satAdd
    omega

/-- Seats, quorums and allowances survive every sequence of motions and ticks;
the audit counter is the sum of what was minted until it reaches its maximum. -/
theorem committee_never_bricked (cfg : GovernanceConfig) {start : Governance C}
    (hstart : start.Founding cfg) (ops : List (GovernanceOp C)) :
    let s := start.run cfg ops
    s.members.Nodup ∧
      (s.members.length = 1 ∨ 3 ≤ s.members.length ∧ s.members.length ≤ cfg.maxMembers) ∧
      (∃ voters, s.Carries voters) ∧
      (3 ≤ s.members.length → ∀ lost, ∃ voters, lost ∉ voters ∧ s.Carries voters) ∧
      (∀ m ∈ s.members, ¬ SeatedThroughout cfg start ops m →
        ∃ max, (m, max) ∈ s.allowances ∧ cfg.minAllowance ≤ max) ∧
      (s.allowances.map Prod.fst).Nodup ∧
      (∀ entry ∈ s.allowances, cfg.minAllowance ≤ entry.2 ∧ entry.2 ≤ cfg.maxAllowance) ∧
      (C.ExactMint →
        (∀ op who, Mints op → C.balance s.balances who < C.balance (s.step cfg op).balances who →
          ∃ max, (who, max) ∈ (s.step cfg op).allowances ∧
            C.balance (s.step cfg op).balances who ≤ max) ∧
        s.totalMinted =
          satAdd u128Max start.totalMinted (sumAlong (step cfg) (mintedBy cfg) start ops)) := by
  intro s
  have hseats : SeatsOk cfg s.members := run_seatsOk hstart.seats ops
  have hallowances : AllowancesOk cfg s.allowances := run_allowancesOk hstart.allowancesOk ops
  refine ⟨hseats.nodup, hseats.size.imp_right (fun h => ⟨h, hseats.size_le⟩),
    ⟨s.members, carries_members hseats⟩, ?_, ?_, hallowances.nodup, hallowances.within, ?_⟩
  · intro hsize lost
    exact ⟨_, carries_erase hseats hsize lost⟩
  · intro m hm hbreak
    have hfunded := (seatedThroughout_or_funded cfg start ops hm).resolve_left hbreak
    obtain ⟨entry, hentry, rfl⟩ := List.mem_map.mp hfunded
    exact ⟨entry.2, hentry, (hallowances.within entry hentry).1⟩
  · intro hmint
    exact ⟨fun op who hmints => step_balance_le hmint hmints,
      run_totalMinted hmint hstart.allowancesOk hstart.totalMinted_le ops⟩

end Governance

/-! ## The audit counter at its maximum -/

def nativeToken : Currency where
  Ledger := AccountId → ℕ
  balance := id
  totalBalance := id
  reducibleBalance := id
  mintInto ledger who amount :=
    if ledger who + amount ≤ u128Max then
      some (Function.update ledger who (ledger who + amount))
    else none
  burnFrom ledger who amount := some (Function.update ledger who (ledger who - amount))

theorem nativeToken_exactMint : nativeToken.ExactMint := by
  intro ledger who amount ledger' h
  simp only [nativeToken] at h
  split at h
  · exact (Option.some.inj h).symm
  · cases h

namespace Governance

def founded : Governance nativeToken where
  members := [⟨1⟩]
  balances := fun _ => 0

theorem founded_founding : founded.Founding governanceConfig where
  seats := ⟨List.nodup_singleton _, Or.inl rfl, by decide⟩
  unfunded := rfl
  totalMinted_le := Nat.zero_le _

def federation : List (GovernanceOp nativeToken) :=
  [.setAllowance (.members 1 1) ⟨2⟩ (2 * 10 ^ 12), .setAllowance (.members 1 1) ⟨3⟩ (2 * 10 ^ 12),
    .setAllowance (.members 1 1) ⟨4⟩ (2 * 10 ^ 12), .setMembers (.members 1 1) [⟨4⟩, ⟨2⟩, ⟨3⟩],
    .fees (fun _ => 0), .tick 20]

theorem committee_never_bricked_federation :
    founded.Founding governanceConfig ∧
      (founded.run governanceConfig federation).members = [⟨2⟩, ⟨3⟩, ⟨4⟩] ∧
      ∀ lost, ∃ voters, lost ∉ voters ∧
        (founded.run governanceConfig federation).Carries voters := by
  have hmembers : (founded.run governanceConfig federation).members = [⟨2⟩, ⟨3⟩, ⟨4⟩] := by
    decide +kernel
  have hsize : 3 ≤ (founded.run governanceConfig federation).members.length := by
    rw [hmembers]
    exact le_rfl
  exact ⟨founded_founding, hmembers,
    (committee_never_bricked governanceConfig founded_founding federation).2.2.2.1 hsize⟩

def grantAndRevoke : List (GovernanceOp nativeToken) :=
  [.setAllowance (.members 1 1) ⟨2⟩ governanceConfig.maxAllowance, .revoke (.members 1 1) ⟨2⟩]

def Vacant (s : Governance nativeToken) : Prop :=
  s.members = [⟨1⟩] ∧ s.allowances = [] ∧ s.balances = fun _ => 0

def topped : nativeToken.Ledger :=
  Function.update (fun _ => 0) (⟨2⟩ : AccountId) governanceConfig.maxAllowance

variable {s : Governance nativeToken}

theorem Vacant.setAllowance (h : s.Vacant) :
    s.setAllowance governanceConfig (.members 1 1) ⟨2⟩ governanceConfig.maxAllowance =
      .ok ({ s with
        allowances := [(⟨2⟩, governanceConfig.maxAllowance)]
        balances := topped
        totalMinted := satAdd u128Max s.totalMinted governanceConfig.maxAllowance }.deposit
          (.allowanceSet ⟨2⟩ governanceConfig.maxAllowance governanceConfig.maxAllowance)) := by
  obtain ⟨hmembers, hallowances, hbalances⟩ := h
  simp [Governance.setAllowance, upsertAllowance, authorityOrigin, ensureProportionAtLeast,
    hallowances, hbalances, nativeToken, governanceConfig, u128Max, topped]

theorem Vacant.revoke {granted : Governance nativeToken} (hmembers : granted.members = [⟨1⟩])
    (hallowances : granted.allowances = [(⟨2⟩, governanceConfig.maxAllowance)])
    (hbalances : granted.balances = topped) :
    (granted.step governanceConfig (.revoke (.members 1 1) ⟨2⟩)).Vacant := by
  have hok : granted.revoke (.members 1 1) ⟨2⟩ = .ok ({ granted with
      allowances := []
      balances := fun _ => 0
      totalRevoked := satAdd u128Max granted.totalRevoked governanceConfig.maxAllowance }.deposit
        (.allowanceRevoked ⟨2⟩ governanceConfig.maxAllowance)) := by
    simp [Governance.revoke, authorityOrigin, ensureProportionAtLeast, hmembers, hallowances,
      hbalances, nativeToken, governanceConfig, topped]
  rw [step, hok]
  exact ⟨hmembers, rfl, rfl⟩

theorem Vacant.round (h : s.Vacant) :
    (s.run governanceConfig grantAndRevoke).Vacant ∧
      sumAlong (step governanceConfig) (mintedBy governanceConfig) s grantAndRevoke =
        governanceConfig.maxAllowance := by
  have hgrant := step_setAllowance_of_ok h.setAllowance
  refine ⟨?_, ?_⟩
  · rw [run, grantAndRevoke, run_cons, run_cons, run_nil, hgrant]
    exact Vacant.revoke h.1 rfl rfl
  · have htopped : nativeToken.balance topped ⟨2⟩ = governanceConfig.maxAllowance := by
      simp [nativeToken, topped]
    have hempty : nativeToken.balance (fun _ => 0) ⟨2⟩ = 0 := rfl
    simp only [grantAndRevoke, sumAlong, mintedBy, Nat.add_zero]
    rw [hgrant, h.2.2, deposit, htopped, hempty, Nat.sub_zero]

theorem Vacant.rounds (h : s.Vacant) (n : ℕ) :
    ∃ ops, sumAlong (step governanceConfig) (mintedBy governanceConfig) s ops =
      n * governanceConfig.maxAllowance := by
  induction n generalizing s with
  | zero => exact ⟨[], by simp [sumAlong]⟩
  | succ n ih =>
    obtain ⟨hafter, hsum⟩ := h.round
    obtain ⟨ops, hops⟩ := ih hafter
    refine ⟨grantAndRevoke ++ ops, ?_⟩
    rw [sumAlong_append, hsum, Nat.succ_mul, Nat.add_comm]
    exact congrArg (· + governanceConfig.maxAllowance) hops

/-- The counter saturates while minting goes on. -/
theorem totalMinted_saturates :
    ∃ ops, founded.Founding governanceConfig ∧ nativeToken.ExactMint ∧
      (founded.run governanceConfig ops).totalMinted ≠
        founded.totalMinted +
          sumAlong (step governanceConfig) (mintedBy governanceConfig) founded ops := by
  have hvacant : founded.Vacant := ⟨rfl, rfl, rfl⟩
  obtain ⟨ops, hsum⟩ := hvacant.rounds (2 ^ 128)
  refine ⟨ops, founded_founding, nativeToken_exactMint, ?_⟩
  have htotal := run_totalMinted nativeToken_exactMint founded_founding.allowancesOk
    founded_founding.totalMinted_le ops
  have hle : (founded.run governanceConfig ops).totalMinted ≤ u128Max := by
    rw [htotal]
    exact satAdd_le _ _ _
  have hlarge : u128Max < 2 ^ 128 * governanceConfig.maxAllowance := by decide
  rw [hsum]
  omega

end Governance

end CognoChain
