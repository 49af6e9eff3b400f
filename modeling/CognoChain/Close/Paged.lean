import CognoChain.Close.Page
import CognoChain.Social

/-!
# Paged closes over whole runs

A poll past its deadline is closed by calls that may be spread over any run.
Between the calls nothing but a page of its own close writes the poll's rows,
so as long as the weights stand still the pages add up to the tally of a
single call, and the frozen result is final.
-/

namespace CognoChain

open Substrate CognoChain.Runtime StorageMap

/-! ## What other operations do to a poll -/

structure SamePoll (host : ℕ) (p p' : PollStore) : Prop where
  poll : p'.polls.get host = p.polls.get host
  votes : ∀ who, p'.pollVotes.get (host, who) = p.pollVotes.get (host, who)
  tally : ∀ option, p'.pollTally.get (host, option) = p.pollTally.get (host, option)
  result : p'.pollResults.get host = p.pollResults.get host
  closeState : p'.pollCloseState.get host = p.pollCloseState.get host
  rows : hostRows p'.pollChamberScratch host = hostRows p.pollChamberScratch host

theorem SamePoll.refl (host : ℕ) (p : PollStore) : SamePoll host p p :=
  ⟨rfl, fun _ => rfl, fun _ => rfl, rfl, rfl, rfl⟩

def Feed.Allocated (f : Feed) (id : ℕ) : Prop := id < f.nextPostId ∧ id < u64Max

theorem Feed.Allocated.addPost {f : Feed} {id : ℕ} (hid : f.Allocated id) (post : Post) :
    (f.addPost post).Allocated id := by
  obtain ⟨hlt, hbound⟩ := hid
  have hnext : (f.addPost post).nextPostId = satAdd u64Max f.nextPostId 1 := rfl
  refine ⟨?_, hbound⟩
  rw [hnext, satAdd]
  omega

section Frames

variable {cfg : Config} {host host' : ℕ} {poll : Poll} {s : Runtime} {op : Op}
  {after : Social}

theorem recordVote_samePoll (hne : host' ≠ host) (p : PollStore) (who : AccountId)
    (option : ℕ) : SamePoll host p (p.recordVote host' who option) := by
  have hkey : ∀ {K : Type} (k k' : K), (host, k) ≠ (host', k') :=
    fun _ _ heq => hne (congrArg Prod.fst heq).symm
  refine ⟨rfl, fun k => get_insert_of_ne _ _ (hkey k who), ?_, rfl, rfl, rfl⟩
  intro k
  unfold PollStore.recordVote
  dsimp only [mutate]
  rw [get_insert_of_ne _ _ (hkey k option)]
  split
  · exact get_insert_of_ne _ _ (hkey k _)
  · rfl

theorem closePage_polls (host : ℕ) (poll : Poll) :
    (s.closePage cfg host poll).polls =
      if closeFinished cfg host (s.nextPage cfg host poll) then
        { s.polls with
          pollChamberScratch := (s.nextPage cfg host poll).scratch
          pollResults := s.polls.pollResults.insert host
            (s.frozenResult host poll (s.nextPage cfg host poll).state)
          pollCloseState := s.polls.pollCloseState.remove host }
      else
        { s.polls with
          pollChamberScratch := (s.nextPage cfg host poll).scratch
          pollCloseState := s.polls.pollCloseState.insert host
            (s.nextPage cfg host poll).state } := by
  rw [closePage_eq]
  split
  · unfold finalizeClose
    dsimp only
    split <;> rfl
  · rfl

theorem closePage_samePoll (hne : host' ≠ host) (poll : Poll) :
    SamePoll host s.polls (s.closePage cfg host' poll).polls := by
  rw [closePage_polls]
  split
  · exact ⟨rfl, fun _ => rfl, fun _ => rfl, get_insert_of_ne _ _ hne.symm,
      get_remove_of_ne _ hne.symm, nextPage_scratch_of_ne hne.symm⟩
  · exact ⟨rfl, fun _ => rfl, fun _ => rfl, rfl, get_insert_of_ne _ _ hne.symm,
      nextPage_scratch_of_ne hne.symm⟩

/-- Past its deadline a poll is written by its own close and by nothing else. -/
theorem SocialStep.samePoll (hstep : SocialStep cfg s op after)
    (hpoll : s.polls.polls.get host = some poll) {deadline : ℕ}
    (hcloseAt : poll.closeAt = some deadline) (hpast : deadline ≤ s.blockNumber)
    (hid : s.feed.Allocated host) :
    SamePoll host s.polls after.polls ∨
      (closeTarget cfg s op = some host ∧ s.polls.pollResults.get host = none ∧
        after.polls = (s.closePage cfg host poll).polls) := by
  cases hstep with
  | createPoll who question created hcreated =>
    have hne : host ≠ s.feed.nextPostId := Nat.ne_of_lt hid.1
    exact Or.inl ⟨get_insert_of_ne _ _ hne, fun _ => rfl, fun _ => rfl, rfl, rfl,
      rfl⟩
  | castPollVote target who option voted hvoted hoption hopen =>
    left
    apply recordVote_samePoll
    rintro rfl
    rw [hvoted, Option.some.injEq] at hpoll
    subst hpoll
    have hbefore := hopen deadline hcloseAt
    omega
  | closePage target closed deadline' htarget hclosed hresult hcloseAt' hpast' =>
    by_cases hsame : target = host
    · subst hsame
      rw [hclosed, Option.some.injEq] at hpoll
      subst hpoll
      exact Or.inr ⟨htarget, hresult, rfl⟩
    · exact Or.inl (closePage_samePoll hsame closed)
  | _ => exact Or.inl (.refl host _)

theorem SocialStep.allocated (hstep : SocialStep cfg s op after) {id : ℕ}
    (hid : s.feed.Allocated id) : after.feed.Allocated id := by
  cases hstep with
  | post post => exact hid.addPost post
  | createPoll who question created hcreated => exact hid.addPost _
  | _ => exact hid

theorem SocialStep.blockNumber_le (hstep : SocialStep cfg s op after) :
    s.blockNumber ≤ after.blockNumber := by
  cases hstep with
  | tick unixSecs => exact Nat.le_succ _
  | _ => exact Nat.le_refl _

theorem step_closePage (htarget : closeTarget cfg s op = some host)
    (hpoll : s.polls.polls.get host = some poll) {deadline : ℕ}
    (hcloseAt : poll.closeAt = some deadline) (hpast : deadline ≤ s.blockNumber)
    (hresult : s.polls.pollResults.get host = none) :
    (s.step cfg op).polls = (s.closePage cfg host poll).polls ∧
      (s.step cfg op).events = (s.closePage cfg host poll).events := by
  have hexecute : ∀ who, s.isAllowed who = true →
      s.execute cfg (.signed who) (.microblog (.closePoll host)) =
        s.closePage cfg host poll := by
    intro who hallowed
    have hclose : s.closePoll cfg who host = .ok (s.closePage cfg host poll) := by
      simp [closePoll, hallowed, hpoll, hresult, hcloseAt, Nat.not_lt.mpr hpast]
    apply execute_of_ok
    simp only [dispatch, dispatchMicroblog, dispatchSignedMicroblog,
      hclose, Except.mapError]
  unfold closeTarget at htarget
  split at htarget
  next who target =>
    split_ifs at htarget with hallowed
    rw [Option.some.injEq] at htarget
    subst htarget
    rw [step, hexecute who hallowed]
    exact ⟨rfl, rfl⟩
  next who target len =>
    split at htarget
    next pre hcheck =>
      split_ifs at htarget with hallowed
      rw [Option.some.injEq] at htarget
      subst htarget
      simp only [step, applyExtrinsic, hcheck, hexecute who hallowed]
      unfold postDispatch
      split <;> exact ⟨rfl, rfl⟩
    next => cases htarget
  next => cases htarget

end Frames

/-! ## A poll on its way to its result -/

structure PollClosed (host : ℕ) (result : PollResult) (p : PollStore) : Prop where
  result : p.pollResults.get host = some result
  closeState : p.pollCloseState.get host = none
  rows : ∀ key, hostRows p.pollChamberScratch host key = none

/-- An unfinalized poll past its deadline, with the ballots of the plan. -/
structure PollOpen {hash : ℕ → ℕ} {poll : Poll} (plan : ClosePlan hash poll)
    (host deadline : ℕ) (counts : List ℕ) (s : Runtime) : Prop where
  stored : s.polls.polls.get host = some poll
  closeAt : poll.closeAt = some deadline
  past : deadline ≤ s.blockNumber
  allocated : s.feed.Allocated host
  result : s.polls.pollResults.get host = none
  covers : plan.Covers host s
  counts : s.optionCounts host poll = counts

section Runs

variable {cfg : Config} {host deadline : ℕ} {poll : Poll} {s : Runtime} {op : Op}
  {plan : ClosePlan cfg.blake2 poll} {counts : List ℕ} {result : PollResult} {work : ℕ}
  {after : Social} {s' : Runtime}

/-- The result of a poll is final, and no later page touches its rows. -/
theorem SocialStep.closeRows_kept (hstep : SocialStep cfg s op after)
    (hresult : s.polls.pollResults.get host = some result) :
    after.polls.pollResults.get host = some result ∧
      after.polls.pollCloseState.get host = s.polls.pollCloseState.get host ∧
      hostRows after.polls.pollChamberScratch host =
        hostRows s.polls.pollChamberScratch host := by
  cases hstep with
  | closePage target closed deadline htarget hpoll hopen hcloseAt hpast =>
    have hne : target ≠ host := by
      rintro rfl
      rw [hresult] at hopen
      cases hopen
    have hsame : SamePoll host s.polls (s.closePage cfg target closed).polls :=
      closePage_samePoll hne closed
    exact ⟨hsame.result.trans hresult, hsame.closeState, hsame.rows⟩
  | _ => exact ⟨hresult, rfl, rfl⟩

theorem run_pollResults_kept (ops : List Op)
    (hresult : s.polls.pollResults.get host = some result) :
    (s.run cfg ops).polls.pollResults.get host = some result := by
  apply run_invariant (fun after : Runtime => after.polls.pollResults.get host = some result) ops
  · intro before op hbefore
    exact ((step_socialStep op).closeRows_kept hbefore).1
  · exact hresult

theorem SocialStep.poll_kept (hstep : SocialStep cfg s op after) (hid : s.feed.Allocated host)
    (hpoll : s.polls.polls.get host = some poll) :
    after.polls.polls.get host = some poll := by
  cases hstep with
  | createPoll who question created hcreated =>
    exact (get_insert_of_ne _ _ (Nat.ne_of_lt hid.1)).trans hpoll
  | closePage target closed deadline htarget hpoll' hopen hcloseAt hpast =>
    dsimp only
    rw [closePage_polls]
    split <;> exact hpoll
  | _ => exact hpoll

theorem run_poll_kept (ops : List Op) (hid : s.feed.Allocated host)
    (hpoll : s.polls.polls.get host = some poll) :
    (s.run cfg ops).polls.polls.get host = some poll := by
  have hkept : (s.run cfg ops).feed.Allocated host ∧
      (s.run cfg ops).polls.polls.get host = some poll := by
    apply run_invariant (fun after : Runtime => after.feed.Allocated host ∧
      after.polls.polls.get host = some poll) ops
    · rintro before op ⟨hbefore, hstored⟩
      have hstep : SocialStep cfg before op (before.step cfg op).social :=
        step_socialStep op
      exact ⟨hstep.allocated hbefore, hstep.poll_kept hbefore hstored⟩
    · exact ⟨hid, hpoll⟩
  exact hkept.2

theorem PollClosed.socialStep (hclosed : PollClosed host result s.polls)
    (hstep : SocialStep cfg s op after) : PollClosed host result after.polls := by
  obtain ⟨hkept, hstate, hrows⟩ := hstep.closeRows_kept hclosed.result
  refine ⟨hkept, hstate.trans hclosed.closeState, ?_⟩
  intro key
  exact (congrFun hrows key).trans (hclosed.rows key)

theorem PollClosed.run (hclosed : PollClosed host result s.polls) (ops : List Op) :
    PollClosed host result (s.run cfg ops).polls := by
  apply run_invariant (fun after : Runtime => PollClosed host result after.polls) ops
  · intro before op hbefore
    exact hbefore.socialStep (step_socialStep op)
  · exact hclosed

theorem optionCounts_congr (hsame : SamePoll host s.polls s'.polls) (poll : Poll) :
    s'.optionCounts host poll = s.optionCounts host poll := by
  unfold optionCounts
  apply List.map_congr_left
  intro i _
  simp only [getD, hsame.tally]

theorem PollOpen.of_samePoll (hopen : PollOpen plan host deadline counts s)
    (hsame : SamePoll host s.polls s'.polls) (hblock : s.blockNumber ≤ s'.blockNumber)
    (hid : s'.feed.Allocated host) : PollOpen plan host deadline counts s' where
  stored := hsame.poll.trans hopen.stored
  closeAt := hopen.closeAt
  past := hopen.past.trans hblock
  allocated := hid
  result := hsame.result.trans hopen.result
  covers := fun who => (hsame.votes who).trans (hopen.covers who)
  counts := (optionCounts_congr hsame poll).trans hopen.counts

theorem closeStateOf_progress (hsame : SamePoll host s.polls s'.polls) (poll : Poll) :
    (s'.closeStateOf host poll).progress = (s.closeStateOf host poll).progress := by
  unfold closeStateOf
  rw [hsame.closeState]
  cases s.polls.pollCloseState.get host <;> rfl

theorem PollOpen.step_other (hopen : PollOpen plan host deadline counts s)
    (hother : closeTarget cfg s op ≠ some host) :
    PollOpen plan host deadline counts (s.step cfg op) ∧
      SamePoll host s.polls (s.step cfg op).polls := by
  have hstep : SocialStep cfg s op (s.step cfg op).social := step_socialStep op
  rcases hstep.samePoll hopen.stored hopen.closeAt hopen.past hopen.allocated with
    hsame | ⟨htarget, -, -⟩
  · exact ⟨hopen.of_samePoll hsame hstep.blockNumber_le (hstep.allocated hopen.allocated),
      hsame⟩
  · exact absurd htarget hother

def ClosePlan.resultAt {hash : ℕ → ℕ} (plan : ClosePlan hash poll) (counts : List ℕ)
    (closedAt : ℕ) : PollResult :=
  resultOf poll counts plan.total.weights (plan.drained plan.keys) closedAt

theorem closePage_complete (hcounts : s.optionCounts host poll = counts)
    (hcomplete : plan.Complete host (s.nextPage cfg host poll)) :
    PollClosed host (plan.resultAt counts s.blockNumber) (s.closePage cfg host poll).polls := by
  have hfrozen : s.frozenResult host poll (s.nextPage cfg host poll).state =
      plan.resultAt counts s.blockNumber := by
    rw [frozenResult_eq, hcounts, hcomplete.weights, hcomplete.totals]
    rfl
  rw [closePage_polls, if_pos hcomplete.finished, hfrozen]
  exact ⟨get_insert_self _ _ _, get_remove_self _ _, hcomplete.rows⟩

theorem closePage_of_room (cfg : Config) (plan : ClosePlan cfg.blake2 poll)
    (hcovers : plan.Covers host s) (hagrees : s.census.Agrees poll.kind plan.census)
    (hroom : plan.voters.length + plan.keys.length ≤ cfg.maxClosePage)
    (hwalking : plan.Walking [] (s.closeStateOf host poll)
      (hostRows s.polls.pollChamberScratch host)) :
    PollClosed host (plan.resultAt (s.optionCounts host poll) s.blockNumber)
      (s.closePage cfg host poll).polls :=
  closePage_complete rfl (nextPage_complete_of_room hcovers hroom hagrees hwalking)

theorem PollOpen.step_unfinished (hopen : PollOpen plan host deadline counts s)
    (htarget : closeTarget cfg s op = some host)
    (hunfinished : closeFinished cfg host (s.nextPage cfg host poll) = false) :
    PollOpen plan host deadline counts (s.step cfg op) ∧
      (s.step cfg op).polls.pollCloseState.get host =
        some (s.nextPage cfg host poll).state ∧
      (s.step cfg op).polls.pollChamberScratch = (s.nextPage cfg host poll).scratch := by
  have hstep : SocialStep cfg s op (s.step cfg op).social := step_socialStep op
  have hsaved : (s.step cfg op).polls = { s.polls with
      pollChamberScratch := (s.nextPage cfg host poll).scratch
      pollCloseState := s.polls.pollCloseState.insert host
        (s.nextPage cfg host poll).state } := by
    rw [(step_closePage htarget hopen.stored hopen.closeAt hopen.past hopen.result).1,
      closePage_polls, hunfinished]
    rfl
  rw [hsaved]
  refine ⟨⟨?_, hopen.closeAt, hopen.past.trans hstep.blockNumber_le,
    hstep.allocated hopen.allocated, ?_, ?_, ?_⟩, get_insert_self _ _ _, rfl⟩
  · rw [hsaved]
    exact hopen.stored
  · rw [hsaved]
    exact hopen.result
  · intro who
    rw [← hopen.covers who, ballotOf, hsaved]
    rfl
  · rw [← hopen.counts, optionCounts, hsaved]
    rfl

theorem PollOpen.step_close (hopen : PollOpen plan host deadline counts s)
    (hpage : 0 < cfg.maxClosePage) (htarget : closeTarget cfg s op = some host)
    (hagrees : (s.closeStateOf host poll).draining = false →
      s.census.Agrees poll.kind plan.census)
    (hpending : plan.Pending (s.closeStateOf host poll)
      (hostRows s.polls.pollChamberScratch host) work) :
    PollClosed host (plan.resultAt counts s.blockNumber) (s.step cfg op).polls ∨
      (PollOpen plan host deadline counts (s.step cfg op) ∧
        ∃ work' < work, plan.Pending ((s.step cfg op).closeStateOf host poll)
          (hostRows (s.step cfg op).polls.pollChamberScratch host) work') := by
  rcases nextPage_complete_or_pending hopen.covers hpage hagrees hpending with
    hcomplete | ⟨hunfinished, work', hless, hnext⟩
  · left
    rw [(step_closePage htarget hopen.stored hopen.closeAt hopen.past hopen.result).1]
    exact closePage_complete hopen.counts hcomplete
  · right
    obtain ⟨hopen', hstate, hscratch⟩ := hopen.step_unfinished htarget hunfinished
    refine ⟨hopen', work', hless, ?_⟩
    rw [closeStateOf, hstate, hscratch]
    exact hnext

end Runs

/-! ## Closing while the weights stand still -/

def KeepsCensus (cfg : Config) (s : Runtime) (op : Op) : Prop :=
  (s.step cfg op).census = s.census

def closeCalls (cfg : Config) (host : ℕ) (s : Runtime) (ops : List Op) : ℕ :=
  sumAlong (step cfg)
    (fun s op => if closeTarget cfg s op = some host then 1 else 0) s ops

section Still

variable {cfg : Config} {host deadline : ℕ} {poll : Poll} {s : Runtime}
  {plan : ClosePlan cfg.blake2 poll} {counts : List ℕ} {work : ℕ}

/-- Over a run that leaves the weights alone the result of the plan is frozen,
or the poll is still open and has seen no more close calls than it has work
left. -/
theorem PollOpen.run_still (hpage : 0 < cfg.maxClosePage) (ops : List Op)
    (hopen : PollOpen plan host deadline counts s) (hcensus : s.census = plan.census)
    (hpending : plan.Pending (s.closeStateOf host poll)
      (hostRows s.polls.pollChamberScratch host) work)
    (hkeeps : Along (step cfg) (KeepsCensus cfg) s ops) :
    (∃ closedAt, PollClosed host (plan.resultAt counts closedAt) (s.run cfg ops).polls) ∨
      (PollOpen plan host deadline counts (s.run cfg ops) ∧
        closeCalls cfg host s ops ≤ work) := by
  induction ops generalizing s work with
  | nil => exact Or.inr ⟨hopen, Nat.zero_le _⟩
  | cons op ops ih =>
    obtain ⟨hkeep, hkeeps⟩ := hkeeps
    have hcensus' : (s.step cfg op).census = plan.census := hkeep.trans hcensus
    have hagrees : s.census.Agrees poll.kind plan.census := by
      rw [hcensus]
      exact ⟨fun _ => rfl, fun _ _ => rfl⟩
    have hcount : closeCalls cfg host s (op :: ops) =
        (if closeTarget cfg s op = some host then 1 else 0) +
          closeCalls cfg host (s.step cfg op) ops := rfl
    rw [hcount]
    by_cases htarget : closeTarget cfg s op = some host
    · rw [if_pos htarget]
      rcases hopen.step_close hpage htarget (fun _ => hagrees) hpending with
        hclosed | ⟨hopen', work', hless, hpending'⟩
      · exact Or.inl ⟨s.blockNumber, hclosed.run ops⟩
      · rcases ih hopen' hcensus' hpending' hkeeps with hclosed | ⟨hstill, hcalls⟩
        · exact Or.inl hclosed
        · exact Or.inr ⟨hstill, by omega⟩
    · rw [if_neg htarget, Nat.zero_add]
      obtain ⟨hopen', hsame⟩ := hopen.step_other htarget
      have hpending' := hpending.of_progress (closeStateOf_progress hsame poll)
      rw [← hsame.rows] at hpending'
      exact ih hopen' hcensus' hpending' hkeeps

end Still

/-! ## The plan of a state -/

def Runtime.closePlan (cfg : Config) (s : Runtime) (host : ℕ) (poll : Poll) :
    ClosePlan cfg.blake2 poll :=
  let voters := s.polls.pollVotes.prefixKeys cfg.blake2 host
  let walked := voters.foldl (s.walkVoter host poll)
    ⟨List.replicate poll.options.length 0, ∅⟩
  have hwalked : walked.count host = countVoters poll (s.ballotOf host) s.census voters :=
    foldl_walkVoter_count s _ voters
  { vote := s.ballotOf host
    census := s.census
    voters := voters
    voters_sorted := prefixKeys_pairwise _ _ _
    mem_voters := fun _ => mem_prefixKeys
    keys := walked.scratch.prefixKeys cfg.blake2 host
    keys_sorted := prefixKeys_pairwise _ _ _
    mem_keys := fun key => by
      rw [mem_prefixKeys, ← hwalked]
      rfl }

/-- A poll past its deadline whose close has not begun. -/
structure PollIdle (host deadline : ℕ) (poll : Poll) (s : Runtime) : Prop where
  stored : s.polls.polls.get host = some poll
  closeAt : poll.closeAt = some deadline
  past : deadline ≤ s.blockNumber
  allocated : s.feed.Allocated host
  result : s.polls.pollResults.get host = none
  closeState : s.polls.pollCloseState.get host = none
  rows : ∀ key, s.polls.pollChamberScratch.get (host, key) = none

section Idle

variable {host deadline : ℕ} {poll : Poll} {s : Runtime} {cfg : Config}

theorem PollIdle.isOpen (hidle : PollIdle host deadline poll s) :
    PollOpen (s.closePlan cfg host poll) host deadline (s.optionCounts host poll) s :=
  ⟨hidle.stored, hidle.closeAt, hidle.past, hidle.allocated, hidle.result, fun _ => rfl, rfl⟩

theorem PollIdle.walking (cfg : Config) (hidle : PollIdle host deadline poll s) :
    (s.closePlan cfg host poll).Walking [] (s.closeStateOf host poll)
      (hostRows s.polls.pollChamberScratch host) := by
  have hstate : s.closeStateOf host poll = s.freshClose poll := by
    simp [closeStateOf, hidle.closeState]
  rw [hstate]
  exact ⟨rfl, rfl, rfl, funext hidle.rows, rfl⟩

section

variable {ops : List Op} (hidle : PollIdle host deadline poll s) (hpage : 1 ≤ cfg.maxClosePage)
  (hkeeps : Along (step cfg) (KeepsCensus cfg) s ops)
include hidle hpage hkeeps

theorem PollIdle.run_still :
    (∃ closedAt, PollClosed host ((s.closePlan cfg host poll).resultAt
        (s.optionCounts host poll) closedAt) (s.run cfg ops).polls) ∨
      ((s.run cfg ops).polls.pollResults.get host = none ∧
        closeCalls cfg host s ops ≤ (s.closePlan cfg host poll).voters.length +
          (s.closePlan cfg host poll).keys.length + 1) := by
  have hwalking : (s.closePlan cfg host poll).Pending (s.closeStateOf host poll)
      (hostRows s.polls.pollChamberScratch host) _ :=
    .walking (by rw [List.nil_append]) (hidle.walking cfg)
  rcases hidle.isOpen.run_still hpage ops rfl hwalking hkeeps with hclosed | ⟨hopen, hcalls⟩
  · exact Or.inl hclosed
  · exact Or.inr ⟨hopen.result, hcalls⟩

theorem PollIdle.closes
    (hcalls : (s.closePlan cfg host poll).voters.length + (s.closePlan cfg host poll).keys.length + 1 + 1 ≤ closeCalls cfg host s ops) :
    ∃ closedAt, PollClosed host ((s.closePlan cfg host poll).resultAt
      (s.optionCounts host poll) closedAt) (s.run cfg ops).polls := by
  rcases hidle.run_still hpage hkeeps with hclosed | ⟨-, hfew⟩
  · exact hclosed
  · omega

end

theorem PollIdle.onePage (cfg : Config) (hidle : PollIdle host deadline poll s)
    {size : ℕ} {who : AccountId}
    (hroom : (s.closePlan cfg host poll).voters.length +
      (s.closePlan cfg host poll).keys.length ≤ size)
    (hallowed : s.isAllowed who = true) :
    (s.execute { cfg with maxClosePage := size } (.signed who)
        (.microblog (.closePoll host))).polls.pollResults.get host =
      some ((s.closePlan cfg host poll).resultAt (s.optionCounts host poll)
        s.blockNumber) := by
  let plan := s.closePlan cfg host poll
  let wide : Config := { cfg with maxClosePage := size }
  have hone : PollClosed host (plan.resultAt (s.optionCounts host poll) s.blockNumber)
      (s.closePage wide host poll).polls :=
    closePage_of_room wide plan (fun _ => rfl) ⟨fun _ => rfl, fun _ _ => rfl⟩ hroom
      (hidle.walking cfg)
  have htarget : closeTarget wide s
      (.call (.signed who) (.microblog (.closePoll host))) = some host := by
    simp [closeTarget, hallowed]
  have hpolls := (step_closePage htarget hidle.stored hidle.closeAt hidle.past hidle.result).1
  rw [← hpolls] at hone
  exact hone.result

end Idle

def onePerPage : Config := { Config.toy with maxClosePage := 1, minPollDuration := 0 }

def splitPoll : Runtime :=
  genesis.run onePerPage
    [.call .none (.gate (.linkIdentitySigned ⟨[1, 1], []⟩)),
      .call .none (.gate (.linkIdentitySigned ⟨[2, 2], []⟩)),
      .call (.signed ⟨1⟩) (.microblog (.createPoll [] [[0], [1]] (some 1) .governance none)),
      .call (.signed ⟨1⟩) (.microblog (.castPollVote 0 0)),
      .call (.signed ⟨2⟩) (.microblog (.castPollVote 0 1)),
      .nextBlock 0]

end CognoChain
