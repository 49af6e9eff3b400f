import CognoChain.Close.Chambers

/-!
# The frozen view repeats the live one

Before a poll is finalized its view joins the votes over the stakers and the
badges over the role holders; a close walks the voters.  Where the two lists
leave nobody out they read the same votes, and since stakers, role holders and
voters are keyed by account under one hasher, the badges are also met in the
same order.
-/

namespace CognoChain

open Substrate CognoChain.Runtime StorageMap

/-! ## Holder weights -/

section Weights

variable {vote : AccountId → Option ℕ} {power : AccountId → ℕ}
  {accounts accounts' : List AccountId} {numOptions : ℕ}

theorem slotSums_ballotParts_congr (hnodup : accounts.Nodup) (hnodup' : accounts'.Nodup)
    (hmem : ∀ who, (vote who).isSome → power who ≠ 0 → (who ∈ accounts ↔ who ∈ accounts')) :
    slotSums u128Max numOptions (ballotParts vote power accounts) =
      slotSums u128Max numOptions (ballotParts vote power accounts') := by
  refine slotSums_congr (fun option _ => ?_)
  rw [ballotParts_sum, ballotParts_sum, ← List.sum_toFinset power (hnodup.filter _),
    ← List.sum_toFinset power (hnodup'.filter _)]
  refine Finset.sum_congr_of_eq_on_inter ?_ ?_ (fun _ _ _ => rfl)
  · intro who hwho hother
    simp only [List.mem_toFinset, List.mem_filter, decide_eq_true_eq] at hwho hother
    by_contra hpower
    exact hother ⟨(hmem who (by rw [hwho.2]; rfl) hpower).mp hwho.1, hwho.2⟩
  · intro who hwho hother
    simp only [List.mem_toFinset, List.mem_filter, decide_eq_true_eq] at hwho hother
    by_contra hpower
    exact hother ⟨(hmem who (by rw [hwho.2]; rfl) hpower).mpr hwho.1, hwho.2⟩

end Weights

namespace Runtime

variable {cfg : Config} {s : Runtime} {host numOptions : ℕ}

theorem pollOptionWeights_slotSums (power : AccountId → ℕ) (accounts : List AccountId) :
    s.pollOptionWeights host numOptions (accounts.map (fun who => (who, power who))) =
      slotSums u128Max numOptions (ballotParts (s.ballotOf host) power accounts) := by
  induction accounts using List.reverseRecOn with
  | nil => rfl
  | append_singleton accounts who ih =>
    unfold pollOptionWeights at ih ⊢
    rw [List.map_append, List.foldl_append, ih, ballotParts_append_singleton, ballotOf]
    simp only [List.map_cons, List.map_nil, List.foldl_cons, List.foldl_nil]
    cases s.polls.pollVotes.get (host, who) with
    | none => simp
    | some option =>
      rw [Option.map_some, Option.toList_some, slotSums_append_singleton]
      dsimp only
      split_ifs with hoption
      · rfl
      · rw [addAt_of_length_le (by rw [slotSums_length]; exact Nat.not_lt.mp hoption)]

theorem stakerWeights_eq (cfg : Config) (s : Runtime) :
    ∃ distinct : List AccountId, distinct.Nodup ∧
      (∀ who, who ∈ distinct ↔ who ∈ s.stakers cfg) ∧
      s.stakerWeights cfg = distinct.map (fun who => (who, s.talkStake.votingPower.getD who 0)) := by
  unfold stakerWeights
  induction s.stakers cfg using List.reverseRecOn with
  | nil => exact ⟨[], List.nodup_nil, fun _ => Iff.rfl, rfl⟩
  | append_singleton stakers who ih =>
    obtain ⟨distinct, hnodup, hmem, hweights⟩ := ih
    rw [List.foldl_append, hweights, List.foldl_cons, List.foldl_nil]
    have hany : (distinct.map (fun who => (who, s.talkStake.votingPower.getD who 0))).any
        (fun entry => entry.1 = who) = true ↔ who ∈ distinct := by
      simp
    split_ifs with hold
    · have hlisted : who ∈ stakers := (hmem who).mp (hany.mp hold)
      refine ⟨distinct, hnodup, ?_, rfl⟩
      intro other
      rw [hmem other, List.mem_append, List.mem_singleton]
      exact (or_iff_left_of_imp (fun hother => hother ▸ hlisted)).symm
    · refine ⟨distinct ++ [who], ?_, ?_, by rw [List.map_append]; rfl⟩
      · exact List.nodup_append.mpr ⟨hnodup, List.nodup_singleton who, by
          rintro a ha b hb rfl
          exact hold (hany.mpr (List.mem_singleton.mp hb ▸ ha))⟩
      · intro other
        rw [List.mem_append, List.mem_append, hmem other]

theorem pollOptionWeights_eq_walk (hstakers : ∀ who, s.talkStake.votingPower.getD who 0 ≠ 0 →
      who ∈ s.stakers cfg) (poll : Poll) :
    s.pollOptionWeights host poll.options.length (s.stakerWeights cfg) =
      (s.closePlan cfg host poll).total.weights := by
  obtain ⟨distinct, hnodup, hmem, hweights⟩ := s.stakerWeights_eq cfg
  have hwalk : (s.closePlan cfg host poll).total.weights =
      slotSums u128Max poll.options.length (ballotParts (s.ballotOf host) s.census.power
        (s.polls.pollVotes.prefixKeys cfg.blake2 host)) :=
    countVoters_slotSums poll s.census _
  rw [hweights, pollOptionWeights_slotSums, hwalk]
  refine slotSums_ballotParts_congr hnodup (prefixKeys_nodup _ _ _) ?_
  intro who hvoted hpower
  exact iff_of_true ((hmem who).mpr (hstakers who hpower))
    (mem_prefixKeys.mpr hvoted)

end Runtime

/-! ## Chambers -/

theorem sightings_filter (wants : ℕ → Bool) (numOptions : ℕ) (vote : AccountId → Option ℕ)
    (roles : AccountId → List RoleTuple) (accounts : List AccountId) :
    sightings wants numOptions vote roles
        (accounts.filter (fun who => (vote who).isSome ∧ roles who ≠ [])) =
      sightings wants numOptions vote roles accounts := by
  induction accounts with
  | nil => rfl
  | cons who accounts ih =>
    unfold sightings at ih ⊢
    rw [List.filter_cons, List.flatMap_cons, ← ih]
    split_ifs with hseen
    · rw [List.flatMap_cons]
    · have hnone : voterSightings wants numOptions vote roles who = [] := by
        unfold voterSightings
        cases hvote : vote who with
        | none => rfl
        | some option =>
          have hroles : roles who = [] := by simpa [hvote] using hseen
          simp [badgeSightings, hroles]
      rw [hnone, List.nil_append]

/-- Where the role holders leave no badge out, the live walk sees what the walk
over the voters sees, in the same order. -/
theorem sightings_roleHolders {cfg : Config} {s : Runtime}
    (hholders : ∀ who, s.observedRolesOf who ≠ [] → who ∈ s.roleHolders cfg)
    (wants : ℕ → Bool) (host numOptions : ℕ) :
    sightings wants numOptions (s.ballotOf host) s.rolesOf (s.roleHolders cfg) =
      sightings wants numOptions (s.ballotOf host) s.rolesOf
        (s.polls.pollVotes.prefixKeys cfg.blake2 host) := by
  have hsorted : (s.roleHolders cfg).Pairwise (HashLt cfg.blake2) :=
    (iterKeys_pairwise _ _).sublist (List.take_sublist _ _)
  have hsame : (s.roleHolders cfg).filter
        (fun who => (s.ballotOf host who).isSome ∧ s.rolesOf who ≠ []) =
      (s.polls.pollVotes.prefixKeys cfg.blake2 host).filter
        (fun who => (s.ballotOf host who).isSome ∧ s.rolesOf who ≠ []) := by
    refine eq_of_hashLt_pairwise (hsorted.filter _)
      ((prefixKeys_pairwise _ _ _).filter _) (fun who => ?_)
    simp only [List.mem_filter, decide_eq_true_eq]
    refine and_congr_left (fun hseen => iff_of_true ?_ (mem_prefixKeys.mpr hseen.1))
    refine hholders who (fun hbare => hseen.2 ?_)
    rw [rolesOf, hbare, List.map_nil]
  rw [← sightings_filter, hsame, sightings_filter]

theorem pollChamberWeights_eq_walk {cfg : Config} {s : Runtime}
    (hholders : ∀ who, s.observedRolesOf who ≠ [] → who ∈ s.roleHolders cfg)
    (host : ℕ) (poll : Poll) :
    s.pollChamberWeights host poll.options.length (s.roleHolders cfg) poll.kind.hasSpo
        poll.kind.hasDrep =
      ((s.closePlan cfg host poll).drained (s.closePlan cfg host poll).keys).surfaced
        poll.kind.hasSpo poll.kind.hasDrep := by
  rw [pollChamberWeights_eq, ← wants_eq_wantsOf, sightings_roleHolders hholders,
    (s.closePlan cfg host poll).drained_keys]
  rfl

/-! ## Views -/

def ChamberTotals.reading (totals : ChamberTotals) (i : ℕ) : ℕ × ℕ × ℕ × ℕ :=
  (totals.spoWeights.getD i 0, totals.spoCounts.getD i 0, totals.drepWeights.getD i 0,
    totals.drepCounts.getD i 0)

def PollResult.chambers (result : PollResult) : ChamberTotals :=
  ⟨result.optionSpoWeights, result.optionSpoCounts, result.optionDrepWeights,
    result.optionDrepCounts⟩

/-- Once somebody has voted for an option of the poll, its stored counts are not
all zero. -/
def Runtime.BallotsCounted (s : Runtime) (host : ℕ) (poll : Poll) : Prop :=
  ∀ who option, s.polls.pollVotes.get (host, who) = some option →
    option < poll.options.length → 0 < (s.optionCounts host poll).foldl (satAdd u32Max) 0

section Views

variable {cfg : Config} {s : Runtime} {host : ℕ} {poll : Poll}

theorem ChamberTotals.zero_reading (numOptions i : ℕ) :
    (ChamberTotals.zero numOptions).reading i = (0, 0, 0, 0) := by
  have hzeros : (List.replicate numOptions 0).getD i 0 = 0 := by
    rw [List.getD_eq_getElem?_getD, List.getElem?_replicate]
    split <;> rfl
  simp only [reading, zero, hzeros]

theorem optionViews_congr {options : List Bytes} {weights weights' counts : List ℕ}
    {chambers chambers' : ChamberTotals} (hweights : ∀ i, weights.getD i 0 = weights'.getD i 0)
    (hchambers : ∀ i, chambers.reading i = chambers'.reading i) :
    optionViews options weights counts chambers =
      optionViews options weights' counts chambers' := by
  unfold optionViews
  congr 1
  funext i label
  have hreading := hchambers i
  simp only [ChamberTotals.reading, Prod.mk.injEq] at hreading
  obtain ⟨hspo, hspoCount, hdrep, hdrepCount⟩ := hreading
  rw [hweights i, hspo, hspoCount, hdrep, hdrepCount]

theorem map_getD_range (counts : List ℕ) :
    (List.range counts.length).map (fun i => counts.getD i 0) = counts := by
  refine List.ext_getElem (by simp) (fun i hi hi' => ?_)
  rw [List.getElem_map, List.getElem_range, List.getD_eq_getElem?_getD,
    List.getElem?_eq_getElem hi', Option.getD_some]

theorem closePlan_weights_length :
    (s.closePlan cfg host poll).total.weights.length = poll.options.length := by
  rw [ClosePlan.total, ClosePlan.counted, countVoters_slotSums, slotSums_length]

theorem optionCounts_length : (s.optionCounts host poll).length = poll.options.length := by
  rw [optionCounts, List.length_map, List.length_range]

theorem closePlan_weights_of_no_ballot
    (hnone : ∀ who option, s.polls.pollVotes.get (host, who) = some option →
      poll.options.length ≤ option) :
    (s.closePlan cfg host poll).total.weights = List.replicate poll.options.length 0 := by
  rw [ClosePlan.total, ClosePlan.counted, countVoters_slotSums]
  change _ = slotSums u128Max poll.options.length []
  refine slotSums_congr (fun option hoption => ?_)
  have hvoters : (s.closePlan cfg host poll).voters.filter
      (fun voter => (s.closePlan cfg host poll).vote voter = some option) = [] := by
    refine List.filter_eq_nil_iff.mpr (fun voter _ hvote => ?_)
    exact absurd (hnone voter option (of_decide_eq_true hvote)) (Nat.not_le.mpr hoption)
  rw [ballotParts_sum, hvoters]
  rfl

theorem resultOf_chambers (poll : Poll) (counts weights : List ℕ) (totals : ChamberTotals) (closedAt : ℕ) :
    (resultOf poll counts weights totals closedAt).chambers =
      if 0 < counts.foldl (satAdd u32Max) 0 ∧ poll.kind.hasChambers then
        totals.surfaced poll.kind.hasSpo poll.kind.hasDrep
      else ⟨[], [], [], []⟩ := by
  unfold resultOf PollResult.chambers
  dsimp only
  by_cases hvotes : 0 < counts.foldl (satAdd u32Max) 0 <;>
    by_cases hkind : poll.kind.hasChambers = true <;>
    simp [hvotes, hkind, ChamberTotals.surfaced]

/-- The result of the plan, read back, is the live view. -/
theorem frozenView_eq_liveView
    (hstakers : ∀ who, s.talkStake.votingPower.getD who 0 ≠ 0 → who ∈ s.stakers cfg)
    (hholders : ∀ who, s.observedRolesOf who ≠ [] → who ∈ s.roleHolders cfg)
    (hcounted : s.BallotsCounted host poll) (closedAt : ℕ) :
    frozenView host poll
        ((s.closePlan cfg host poll).resultAt (s.optionCounts host poll) closedAt) =
      s.liveView cfg host poll := by
  let plan := s.closePlan cfg host poll
  let counts := s.optionCounts host poll
  have hcounts : (plan.resultAt counts closedAt).optionCounts = counts := by
    have hlength : plan.total.weights.length = counts.length :=
      closePlan_weights_length.trans optionCounts_length.symm
    change (List.range plan.total.weights.length).map (fun i => counts.getD i 0) = counts
    rw [hlength, map_getD_range]
  have htotal : (List.range poll.options.length).foldl
      (fun total i => satAdd u32Max total (counts.getD i 0)) 0 =
        counts.foldl (satAdd u32Max) 0 := by
    have hlength : counts.length = poll.options.length := optionCounts_length
    rw [← hlength, ← List.foldl_map (f := fun i => counts.getD i 0) (g := satAdd u32Max),
      map_getD_range]
  have hweights : plan.total.weights =
      if counts.foldl (satAdd u32Max) 0 = 0 then List.replicate poll.options.length 0
      else s.pollOptionWeights host poll.options.length (s.stakerWeights cfg) := by
    split_ifs with hzero
    · refine closePlan_weights_of_no_ballot (fun who option hvote => ?_)
      by_contra hoption
      exact absurd hzero (Nat.pos_iff_ne_zero.mp (hcounted who option hvote (by omega)))
    · exact (Runtime.pollOptionWeights_eq_walk hstakers poll).symm
  unfold frozenView liveView
  dsimp only
  rw [hcounts, htotal]
  congr 1
  refine optionViews_congr (fun i => congrArg (·.getD i 0) hweights) (fun i => ?_)
  have hchambers := resultOf_chambers poll counts plan.total.weights (plan.drained plan.keys)
    closedAt
  refine (congrArg (ChamberTotals.reading · i) hchambers).trans ?_
  by_cases hjoined : 0 < counts.foldl (satAdd u32Max) 0 ∧ poll.kind.hasChambers = true
  · rw [if_pos hjoined, ← pollChamberWeights_eq_walk hholders]
    exact congrArg (ChamberTotals.reading · i) (if_pos hjoined).symm
  · rw [if_neg hjoined]
    refine (ChamberTotals.zero_reading poll.options.length i).symm.trans ?_
    exact congrArg (ChamberTotals.reading · i) (if_neg hjoined).symm

end Views

/-! ## Ballots of reachable states -/

/-- Polls are bounded and allocated, ballots belong to polls, and a poll with a
ballot has an option with a positive count. -/
structure PollStore.Voted (p : PollStore) (maxOptions nextPostId : ℕ) : Prop where
  options : ∀ host poll, p.polls.get host = some poll → poll.options.length ≤ maxOptions
  allocated : ∀ host poll, p.polls.get host = some poll → host < u64Max → host < nextPostId
  polled : ∀ host who option, p.pollVotes.get (host, who) = some option →
    (p.polls.get host).isSome = true
  counted : ∀ host poll who option, host < u64Max → p.polls.get host = some poll →
    p.pollVotes.get (host, who) = some option →
      ∃ i < poll.options.length, 0 < p.pollTally.getD (host, i) 0

section Voted

variable {cfg : Config} {s : Runtime} {op : Op} {p : PollStore} {maxOptions nextPostId : ℕ}
  {poll : Poll} {host : ℕ}

theorem boundOptions_length (options : List Bytes) {bounded out : List Bytes}
    (hbounded : bounded.length ≤ cfg.maxPollOptions)
    (h : boundOptions cfg bounded options = .ok out) :
    out.length ≤ cfg.maxPollOptions := by
  induction options generalizing bounded with
  | nil => exact Except.ok.inj h ▸ hbounded
  | cons option options ih =>
    unfold boundOptions at h
    split_ifs at h with hlong hfull
    refine ih ?_ h
    rw [List.length_append, List.length_singleton]
    omega

theorem createPoll_options {who : AccountId} {question : Bytes} {options : List Bytes}
    {closeAt : Option ℕ} {kind : PollKind} {action : Option GovAction}
    (h : s.createPoll cfg who question options closeAt kind action = .ok (s.insertPoll who question poll))
    : poll.options.length ≤ cfg.maxPollOptions := by
  obtain ⟨-, deadline, bounded, action', -, -, -, hbounded, hinserted⟩ := createPoll_ok h
  have hpolls := congrArg (fun after : Runtime => after.polls.polls.get s.feed.nextPostId)
    hinserted
  have hpoll : some poll = some (⟨bounded, closeAt, kind, action'⟩ : Poll) :=
    (get_insert_self _ _ _).symm.trans
      (hpolls.trans (get_insert_self _ _ _))
  rw [Option.some.inj hpoll]
  exact boundOptions_length options (Nat.zero_le _) hbounded

theorem PollStore.Voted.genesis (maxOptions : ℕ) : PollStore.Voted {} maxOptions 0 :=
  ⟨nofun, nofun, nofun, nofun⟩

theorem PollStore.Voted.mono (hvoted : p.Voted maxOptions nextPostId) {nextPostId' : ℕ}
    (hnext : ∀ host, host < u64Max → host < nextPostId → host < nextPostId') :
    p.Voted maxOptions nextPostId' :=
  ⟨hvoted.options, fun host poll hpoll hhost =>
    hnext host hhost (hvoted.allocated host poll hpoll hhost), hvoted.polled, hvoted.counted⟩

theorem lt_satAdd_one (hbound : host < u64Max) (hlt : host < nextPostId) :
    host < satAdd u64Max nextPostId 1 := by
  unfold satAdd
  omega

theorem PollStore.Voted.createPoll (hvoted : p.Voted maxOptions nextPostId)
    (hoptions : poll.options.length ≤ maxOptions) :
    PollStore.Voted { p with polls := p.polls.insert nextPostId poll } maxOptions
      (satAdd u64Max nextPostId 1) := by
  refine ⟨fun host stored hstored => ?_, fun host stored hstored hhost => ?_,
    fun host who option hvote => ?_, fun host stored who option hhost hstored hvote => ?_⟩
  · dsimp only at hstored
    rw [get_insert] at hstored
    split_ifs at hstored with hsame
    · exact Option.some.inj hstored ▸ hoptions
    · exact hvoted.options host stored hstored
  · dsimp only at hstored
    rw [get_insert] at hstored
    split_ifs at hstored with hsame
    · unfold satAdd
      omega
    · exact lt_satAdd_one hhost (hvoted.allocated host stored hstored hhost)
  · dsimp only
    rw [get_insert]
    split_ifs
    · rfl
    · exact hvoted.polled host who option hvote
  · dsimp only at hstored hvote ⊢
    rw [get_insert] at hstored
    split_ifs at hstored with hsame
    · subst hsame
      obtain ⟨old, hold⟩ := Option.isSome_iff_exists.mp (hvoted.polled host who option hvote)
      exact absurd (hvoted.allocated host old hold hhost) (Nat.lt_irrefl host)
    · exact hvoted.counted host stored who option hhost hstored hvote

theorem PollStore.Voted.recordVote (hvoted : p.Voted maxOptions nextPostId) {option : ℕ}
    (hpoll : p.polls.get host = some poll) (hoption : option < poll.options.length)
    (who : AccountId) : (p.recordVote host who option).Voted maxOptions nextPostId := by
  refine ⟨hvoted.options, hvoted.allocated, fun other voter choice hvote => ?_,
    fun other stored voter choice hbound hstored hvote => ?_⟩
  · by_cases hsame : other = host
    · subst hsame
      exact Option.isSome_iff_exists.mpr ⟨poll, hpoll⟩
    · have hframe := recordVote_samePoll (Ne.symm hsame) p who option
      rw [hframe.votes] at hvote
      exact hvoted.polled other voter choice hvote
  · by_cases hsame : other = host
    · subst hsame
      have heq : stored = poll := Option.some.inj (hstored.symm.trans hpoll)
      refine ⟨option, heq ▸ hoption, ?_⟩
      have hpositive : ∀ count, 0 < satAdd u32Max count 1 := by
        intro count
        unfold satAdd u32Max
        omega
      unfold PollStore.recordVote mutate
      dsimp only
      rw [getD_insert_self]
      exact hpositive _
    · have hframe := recordVote_samePoll (Ne.symm hsame) p who option
      rw [hframe.votes] at hvote
      obtain ⟨i, hi, hcount⟩ := hvoted.counted other stored voter choice hbound hstored hvote
      refine ⟨i, hi, ?_⟩
      rw [getD, hframe.tally]
      exact hcount

theorem SocialStep.voted {after : Social} (hstep : SocialStep cfg s op after)
    (hvoted : s.polls.Voted cfg.maxPollOptions s.feed.nextPostId) :
    after.polls.Voted cfg.maxPollOptions after.feed.nextPostId := by
  cases hstep with
  | post post => exact hvoted.mono (fun host => lt_satAdd_one)
  | createPoll who question poll hcreated =>
    obtain ⟨options, closeAt, kind, action, hcreated⟩ := hcreated
    exact hvoted.createPoll (createPoll_options hcreated)
  | castPollVote host who option poll hpoll hoption hopen =>
    exact hvoted.recordVote hpoll hoption who
  | closePage host poll deadline htarget hpoll hresult hcloseAt hpast =>
    dsimp only
    rw [closePage_polls]
    split <;> exact ⟨hvoted.options, hvoted.allocated, hvoted.polled, hvoted.counted⟩
  | _ => exact hvoted

theorem run_voted (cfg : Config) (ops : List Op) :
    (genesis.run cfg ops).polls.Voted cfg.maxPollOptions
      (genesis.run cfg ops).feed.nextPostId := by
  apply run_invariant (fun s : Runtime => s.polls.Voted cfg.maxPollOptions s.feed.nextPostId) ops
  · intro before op hbefore
    exact (step_socialStep op).voted hbefore
  · exact .genesis _

theorem PollStore.Voted.ballotsCounted (hvoted : s.polls.Voted maxOptions nextPostId)
    (hmax : maxOptions ≤ 2 ^ 8) (hhost : host < u64Max) (hpoll : s.polls.polls.get host = some poll) :
    s.BallotsCounted host poll := by
  intro who option hvote _
  obtain ⟨i, hi, hcount⟩ := hvoted.counted host poll who option hhost hpoll hvote
  have hindex : i % 2 ^ 8 = i :=
    Nat.mod_eq_of_lt (Nat.lt_of_lt_of_le hi ((hvoted.options host poll hpoll).trans hmax))
  have hmem : s.polls.pollTally.getD (host, i) 0 ∈ s.optionCounts host poll :=
    List.mem_map.mpr ⟨i, List.mem_range.mpr hi, by rw [hindex]⟩
  have hsum := List.single_le_sum (fun _ _ => Nat.zero_le _) _ hmem
  rw [foldl_satAdd _ (Nat.zero_le _)]
  unfold u32Max
  omega

end Voted

/-! ## Closing without a change of view -/

/-- A poll past its deadline without a close in flight, in a state whose stakers
and role holders leave nobody out. -/
structure PollSettled (cfg : Config) (host deadline : ℕ) (poll : Poll) (s : Runtime) : Prop where
  stored : s.polls.polls.get host = some poll
  closeAt : poll.closeAt = some deadline
  past : deadline ≤ s.blockNumber
  allocated : s.feed.Allocated host
  closeState : s.polls.pollCloseState.get host = none
  rows : ∀ key, s.polls.pollChamberScratch.get (host, key) = none
  stakers : ∀ who, s.talkStake.votingPower.getD who 0 ≠ 0 → who ∈ s.stakers cfg
  holders : ∀ who, s.observedRolesOf who ≠ [] → who ∈ s.roleHolders cfg

section Settled

variable {cfg : Config} {host deadline : ℕ} {poll : Poll} {s : Runtime}

theorem PollSettled.idle (hsettled : PollSettled cfg host deadline poll s)
    (hresult : s.polls.pollResults.get host = none) : PollIdle host deadline poll s :=
  ⟨hsettled.stored, hsettled.closeAt, hsettled.past, hsettled.allocated, hresult,
    hsettled.closeState, hsettled.rows⟩

theorem PollSettled.of_tally (hsettled : PollSettled cfg host deadline poll s)
    (tally : StorageMap (ℕ × ℕ) ℕ) :
    PollSettled cfg host deadline poll
      { s with polls := { s.polls with pollTally := tally } } :=
  ⟨hsettled.stored, hsettled.closeAt, hsettled.past, hsettled.allocated, hsettled.closeState,
    hsettled.rows, hsettled.stakers, hsettled.holders⟩

theorem poll_of_result {result : PollResult} (hpoll : s.polls.polls.get host = some poll)
    (hresult : s.polls.pollResults.get host = some result) :
    s.poll cfg host = some (frozenView host poll result) := by
  simp only [Runtime.poll, hpoll, hresult, Option.map_some]

theorem poll_of_open (hpoll : s.polls.polls.get host = some poll)
    (hresult : s.polls.pollResults.get host = none) :
    s.poll cfg host = some (s.liveView cfg host poll) := by
  simp only [Runtime.poll, hpoll, hresult, Option.map_some]

theorem PollSettled.view_kept (hsettled : PollSettled cfg host deadline poll s)
    (hcounted : s.BallotsCounted host poll) (hpage : 1 ≤ cfg.maxClosePage) {ops : List Op}
    (hkeeps : Along (step cfg) (KeepsCensus cfg) s ops)
    (hclosed : (s.run cfg ops).polls.pollResults.contains host = true) :
    (s.run cfg ops).poll cfg host = s.poll cfg host := by
  have hpoll : (s.run cfg ops).polls.polls.get host = some poll :=
    run_poll_kept ops hsettled.allocated hsettled.stored
  cases hresult : s.polls.pollResults.get host with
  | some result =>
    rw [poll_of_result hpoll (run_pollResults_kept ops hresult),
      poll_of_result hsettled.stored hresult]
  | none =>
    rw [contains_eq_isSome] at hclosed
    rcases (hsettled.idle hresult).run_still hpage hkeeps with
      ⟨closedAt, hfrozen⟩ | ⟨hnone, -⟩
    · rw [poll_of_result hpoll hfrozen.result, poll_of_open hsettled.stored hresult,
        frozenView_eq_liveView hsettled.stakers hsettled.holders hcounted]
    · rw [hnone] at hclosed
      cases hclosed

theorem PollSettled.closes (hsettled : PollSettled cfg host deadline poll s)
    (hpage : 1 ≤ cfg.maxClosePage) :
    ∃ calls, ∀ ops, Along (step cfg) (KeepsCensus cfg) s ops →
      calls ≤ closeCalls cfg host s ops →
        (s.run cfg ops).polls.pollResults.contains host = true := by
  refine ⟨(s.closePlan cfg host poll).voters.length +
    (s.closePlan cfg host poll).keys.length + 1 + 1, fun ops hkeeps hcalls => ?_⟩
  rw [contains_eq_isSome]
  cases hresult : s.polls.pollResults.get host with
  | some result => rw [run_pollResults_kept ops hresult, Option.isSome_some]
  | none =>
    obtain ⟨closedAt, hfrozen⟩ := (hsettled.idle hresult).closes hpage hkeeps hcalls
    rw [hfrozen.result, Option.isSome_some]

end Settled

theorem keepsCensus_closePoll (cfg : Config) (s : Runtime) (who : AccountId) (host : ℕ) :
    KeepsCensus cfg s (.call (.signed who) (.microblog (.closePoll host))) := by
  have hwrites : ∀ after, s.dispatchSignedMicroblog cfg who (.closePoll host) = .ok after →
      after.census = s.census := by
    intro after hok
    obtain ⟨_, _, _, _, _, _, rfl, -⟩ := (dispatchSignedMicroblog_writes hok).social
    rfl
  rw [KeepsCensus, step, execute]
  split
  next after hok =>
    simp only [dispatch, dispatchMicroblog] at hok
    exact hwrites after (by simpa [mapError_eq_ok_iff] using hok)
  next => rfl

def pricedPoll : Runtime :=
  genesis.run onePerPage
    [.call .none (.gate (.linkIdentitySigned ⟨[1, 1], []⟩)),
      .call .none (.gate (.linkIdentitySigned ⟨[2, 2], []⟩)),
      .call .none (.gate (.linkStakeSigned ⟨[1, 1, 0], []⟩)),
      .call .none (.gate (.linkStakeSigned ⟨[2, 2, 0], []⟩)),
      .call .none (.roles (.claimRoleSigned ⟨[1, 1, 9, 0], []⟩)),
      .call .none (.roles (.claimRoleSigned ⟨[2, 0, 7, 0], []⟩)),
      .inherent ⟨⟨10, 0⟩, 0, [], [⟨⟨1⟩, 5⟩, ⟨⟨2⟩, 7⟩],
        [⟨.dRep, ⟨9⟩, ⟨9⟩, 50⟩, ⟨.spoCalidus, ⟨7⟩, ⟨7⟩, 30⟩]⟩,
      .call (.signed ⟨1⟩) (.microblog (.createPoll [] [[0], [1]] (some 1) .governance none)),
      .call (.signed ⟨1⟩) (.microblog (.castPollVote 0 0)),
      .call (.signed ⟨2⟩) (.microblog (.castPollVote 0 1)),
      .nextBlock 0]

def closeThrice : List Op := List.replicate 3 (.call (.signed ⟨1⟩) (.microblog (.closePoll 0)))

theorem closeThrice_keepsCensus (s : Runtime) :
    Along (step onePerPage) (KeepsCensus onePerPage) s closeThrice :=
  ⟨keepsCensus_closePoll _ _ _ _, keepsCensus_closePoll _ _ _ _, keepsCensus_closePoll _ _ _ _,
    trivial⟩

theorem pricedPoll_settled :
    PollSettled onePerPage 0 1 ⟨[[0], [1]], some 1, .governance, none⟩ pricedPoll where
  stored := by decide +kernel
  closeAt := rfl
  past := by decide +kernel
  allocated := by
    unfold Feed.Allocated
    decide +kernel
  closeState := by decide +kernel
  rows := by
    have hrows : pricedPoll.polls.pollChamberScratch = ∅ := by decide +kernel
    intro key
    rw [hrows]
    rfl
  stakers := by
    have hkeys : ∀ who ∈ pricedPoll.talkStake.votingPower.keys,
        who ∈ pricedPoll.stakers onePerPage := by
      decide +kernel
    exact fun who hpower => hkeys who (mem_keys_of_getD_ne hpower)
  holders := by
    have hkeys : ∀ who ∈ pricedPoll.roles.observedRoles.keys,
        who ∈ pricedPoll.roleHolders onePerPage := by
      decide +kernel
    exact fun who hroles => hkeys who (mem_keys_of_getD_ne hroles)

def uncountedPoll : Runtime :=
  { pricedPoll with polls := { pricedPoll.polls with pollTally := ∅ } }

def SameBallots (host : ℕ) (p p' : PollStore) : Prop :=
  (∀ who, p'.pollVotes.get (host, who) = p.pollVotes.get (host, who)) ∧
    ∀ option, p'.pollTally.get (host, option) = p.pollTally.get (host, option)

/-- A poll past its deadline that has the ballots and counts of `p`. -/
structure BallotsStand (host deadline : ℕ) (poll : Poll) (p : PollStore) (s : Runtime) :
    Prop where
  stored : s.polls.polls.get host = some poll
  past : deadline ≤ s.blockNumber
  allocated : s.feed.Allocated host
  ballots : SameBallots host p s.polls

theorem BallotsStand.step {cfg : Config} {s : Runtime} {host deadline : ℕ} {poll : Poll}
    {p : PollStore} (hstand : BallotsStand host deadline poll p s)
    (hcloseAt : poll.closeAt = some deadline) (op : Op) :
    BallotsStand host deadline poll p (s.step cfg op) := by
  have hstep : SocialStep cfg s op (s.step cfg op).social := step_socialStep op
  refine ⟨hstep.poll_kept hstand.allocated hstand.stored,
    hstand.past.trans hstep.blockNumber_le, hstep.allocated hstand.allocated, ?_⟩
  rcases hstep.samePoll hstand.stored hcloseAt hstand.past hstand.allocated with
    hsame | ⟨-, -, hclosed⟩
  · exact ⟨fun who => (hsame.votes who).trans (hstand.ballots.1 who),
      fun option => (hsame.tally option).trans (hstand.ballots.2 option)⟩
  · -- a page of the close reads the ballots and leaves them where they are
    have hpolls : (s.step cfg op).polls = (s.closePage cfg host poll).polls := hclosed
    rw [hpolls, closePage_polls]
    split <;> exact hstand.ballots

/-- Once its deadline has passed nothing changes the ballots of a poll, and once
its result is frozen nothing changes what a node serves of it. -/
theorem past_deadline_ballots_stand (cfg : Config) (s : Runtime) (ops : List Op)
    (host deadline : ℕ) (poll : Poll) (hpoll : s.polls.polls.get host = some poll)
    (hcloseAt : poll.closeAt = some deadline) (hpast : deadline ≤ s.blockNumber)
    (hid : s.feed.Allocated host) :
    SameBallots host s.polls (s.run cfg ops).polls ∧
      (s.polls.pollResults.contains host = true →
        (s.run cfg ops).poll cfg host = s.poll cfg host) := by
  have hstand : BallotsStand host deadline poll s.polls (s.run cfg ops) := by
    apply run_invariant (BallotsStand host deadline poll s.polls) ops
    · intro before op hbefore
      exact hbefore.step hcloseAt op
    · exact ⟨hpoll, hpast, hid, fun _ => rfl, fun _ => rfl⟩
  refine ⟨hstand.ballots, fun hclosed => ?_⟩
  rw [contains_eq_isSome] at hclosed
  obtain ⟨result, hresult⟩ := Option.isSome_iff_exists.mp hclosed
  rw [poll_of_result hstand.stored (run_pollResults_kept ops hresult),
    poll_of_result hpoll hresult]

def votedAgain : List Op :=
  [.call (.signed ⟨2⟩) (.microblog (.castPollVote 0 0)), .call .authority (.gate (.revoke ⟨2⟩)),
    .nextBlock 0]

theorem past_deadline_ballots_stand_priced :
    let closed := pricedPoll.run onePerPage closeThrice
    (closed.run onePerPage votedAgain).polls.pollVotes.get (0, ⟨2⟩) = some 1 ∧
      (closed.run onePerPage votedAgain).poll onePerPage 0 = closed.poll onePerPage 0 := by
  intro closed
  have hallocated : closed.feed.Allocated 0 := by
    unfold Feed.Allocated
    decide +kernel
  have hvote : closed.polls.pollVotes.get (0, ⟨2⟩) = some 1 := by decide +kernel
  have hclosed : closed.polls.pollResults.contains 0 = true := by decide +kernel
  obtain ⟨hballots, hview⟩ := past_deadline_ballots_stand onePerPage closed votedAgain 0 1
    ⟨[[0], [1]], some 1, .governance, none⟩ (by decide +kernel) rfl (by decide +kernel) hallocated
  exact ⟨(hballots.1 ⟨2⟩).trans hvote, hview hclosed⟩

end CognoChain
