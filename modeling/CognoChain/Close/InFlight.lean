import CognoChain.Close.Paged

/-!
# Closes in flight

Half-written poll state is bounded to polls whose close is under way: a close
state belongs to a stored poll past its deadline that has no result yet, its
running weights line up with the options, and scratch rows exist for no other
poll.
-/

namespace CognoChain

open Substrate CognoChain.Runtime

section Weights

variable {cfg : Config} {s : Runtime} {host : ℕ} {poll : Poll}

theorem foldl_walkVoter_weights_length (voters : List AccountId) (acc : WalkTotals) :
    (voters.foldl (s.walkVoter host poll) acc).weights.length = acc.weights.length := by
  refine foldl_invariant _ (fun total : WalkTotals => total.weights.length = acc.weights.length)
    (fun total voter htotal => ?_) rfl
  unfold walkVoter
  split
  · exact htotal
  · split
    · exact htotal
    · rw [addAt_length]
      exact htotal

theorem walkPage_weights_length (page : ClosePage) :
    (s.walkPage cfg host poll page).state.optionWeights.length =
      page.state.optionWeights.length := by
  unfold walkPage
  split
  · rfl
  · exact foldl_walkVoter_weights_length _ _

theorem drainPage_optionWeights (page : ClosePage) :
    (drainPage cfg host poll page).state.optionWeights = page.state.optionWeights := by
  unfold drainPage
  split <;> rfl

theorem nextPage_weights_length (cfg : Config) (s : Runtime) (host : ℕ) (poll : Poll) :
    (s.nextPage cfg host poll).state.optionWeights.length =
      (s.closeStateOf host poll).optionWeights.length := by
  have hstart : (s.checkSmear poll (s.closeStateOf host poll)).optionWeights =
      (s.closeStateOf host poll).optionWeights := by
    unfold checkSmear
    split <;> rfl
  rw [nextPage, drainPage_optionWeights, walkPage_weights_length, hstart]

end Weights

/-- What half-written poll state there may be, given the next post id and the
block. -/
structure PollStore.InFlight (p : PollStore) (nextPostId block : ℕ) : Prop where
  stored : ∀ host poll, p.polls.get host = some poll → host < nextPostId
  states : ∀ host state, p.pollCloseState.get host = some state →
    p.pollResults.get host = none ∧ ∃ poll deadline, p.polls.get host = some poll ∧
      poll.closeAt = some deadline ∧ deadline ≤ block ∧
      state.optionWeights.length = poll.options.length
  rows : ∀ host key, (p.pollChamberScratch.get (host, key)).isSome = true →
    (p.pollCloseState.get host).isSome = true

section InFlight

variable {cfg : Config} {s : Runtime} {op : Op} {p : PollStore} {nextPostId block : ℕ}

theorem PollStore.InFlight.genesis : PollStore.InFlight {} 0 0 := ⟨nofun, nofun, nofun⟩

theorem PollStore.InFlight.mono (hflight : p.InFlight nextPostId block) {nextPostId' block' : ℕ}
    (hnext : nextPostId ≤ nextPostId') (hblock : block ≤ block') :
    p.InFlight nextPostId' block' := by
  refine ⟨fun host poll hpoll => Nat.lt_of_lt_of_le (hflight.stored host poll hpoll) hnext,
    fun host state hstate => ?_, hflight.rows⟩
  obtain ⟨hresult, poll, deadline, hpoll, hcloseAt, hpast, hlength⟩ :=
    hflight.states host state hstate
  exact ⟨hresult, poll, deadline, hpoll, hcloseAt, Nat.le_trans hpast hblock, hlength⟩

theorem PollStore.InFlight.createPoll (hflight : p.InFlight nextPostId block) (poll : Poll) :
    PollStore.InFlight { p with polls := p.polls.insert nextPostId poll } (nextPostId + 1)
      block := by
  refine ⟨fun host stored hstored => ?_, fun host state hstate => ?_, hflight.rows⟩
  · dsimp only at hstored
    rw [StorageMap.get_insert] at hstored
    split_ifs at hstored with hhost
    · omega
    · exact Nat.lt_succ_of_lt (hflight.stored host stored hstored)
  · obtain ⟨hresult, poll', deadline, hpoll, hclose⟩ := hflight.states host state hstate
    refine ⟨hresult, poll', deadline, ?_, hclose⟩
    rw [← hpoll]
    exact StorageMap.get_insert_of_ne _ _ (Nat.ne_of_lt (hflight.stored host poll' hpoll))

theorem PollStore.InFlight.closeStateOf {host : ℕ} {poll : Poll}
    (hflight : s.polls.InFlight nextPostId block)
    (hpoll : s.polls.polls.get host = some poll) :
    (s.closeStateOf host poll).optionWeights.length = poll.options.length := by
  unfold Runtime.closeStateOf
  cases hstate : s.polls.pollCloseState.get host with
  | none => exact List.length_replicate
  | some state =>
    obtain ⟨-, poll', -, hpoll', -, -, hlength⟩ := hflight.states host state hstate
    rw [hpoll, Option.some.injEq] at hpoll'
    rw [Option.getD_some, hlength, hpoll']

theorem PollStore.InFlight.closePage {host deadline : ℕ} {poll : Poll}
    (hflight : s.polls.InFlight nextPostId s.blockNumber)
    (hpoll : s.polls.polls.get host = some poll) (hresult : s.polls.pollResults.get host = none)
    (hcloseAt : poll.closeAt = some deadline) (hpast : deadline ≤ s.blockNumber) :
    (s.closePage cfg host poll).polls.InFlight nextPostId s.blockNumber := by
  have hother : ∀ other, other ≠ host →
      SamePoll other s.polls (s.closePage cfg host poll).polls :=
    fun other hne => closePage_samePoll (Ne.symm hne) poll
  have hpolls : (s.closePage cfg host poll).polls.polls = s.polls.polls := by
    rw [closePage_polls]
    split <;> rfl
  refine ⟨fun other stored hstored => ?_, fun other state hstate => ?_, fun other key hrow => ?_⟩
  · rw [hpolls] at hstored
    exact hflight.stored other stored hstored
  · by_cases hsame : other = host
    · subst hsame
      rw [closePage_polls] at hstate ⊢
      by_cases hfinished : closeFinished cfg other (s.nextPage cfg other poll) = true
      · rw [if_pos hfinished, StorageMap.get_remove_self] at hstate
        cases hstate
      · rw [if_neg hfinished, StorageMap.get_insert_self, Option.some.injEq] at hstate
        rw [if_neg hfinished]
        refine ⟨hresult, poll, deadline, hpoll, hcloseAt, hpast, ?_⟩
        rw [← hstate, nextPage_weights_length, hflight.closeStateOf hpoll]
    · rw [(hother other hsame).closeState] at hstate
      rw [(hother other hsame).result, hpolls]
      exact hflight.states other state hstate
  · by_cases hsame : other = host
    · subst hsame
      rw [closePage_polls] at hrow ⊢
      by_cases hfinished : closeFinished cfg other (s.nextPage cfg other poll) = true
      · -- a finished close has drained its rows
        rw [if_pos hfinished] at hrow
        have hempty := (Bool.and_eq_true_iff.mp hfinished).2
        rw [List.isEmpty_iff] at hempty
        have hmem : key ∈ (s.nextPage cfg other poll).scratch.prefixKeys cfg.blake2 other :=
          StorageMap.mem_prefixKeys.mpr hrow
        rw [hempty] at hmem
        cases hmem
      · rw [if_neg hfinished, StorageMap.get_insert_self]
        rfl
    · have hrows : (s.closePage cfg host poll).polls.pollChamberScratch.get (other, key) =
          s.polls.pollChamberScratch.get (other, key) := congrFun (hother other hsame).rows key
      rw [hrows] at hrow
      rw [(hother other hsame).closeState]
      exact hflight.rows other key hrow

theorem SocialStep.inFlight {after : Social} (hstep : SocialStep cfg s op after)
    (hids : s.feed.nextPostId < u64Max)
    (hflight : s.polls.InFlight s.feed.nextPostId s.blockNumber) :
    after.polls.InFlight after.feed.nextPostId after.blockNumber := by
  have hnext : ∀ post, (s.feed.addPost post).nextPostId = s.feed.nextPostId + 1 :=
    fun post => satAdd_succ_of_lt hids
  cases hstep with
  | tick unixSecs => exact hflight.mono (Nat.le_refl _) (Nat.le_succ _)
  | post post =>
    refine hflight.mono ?_ (Nat.le_refl _)
    dsimp only
    rw [hnext]
    exact Nat.le_succ _
  | createPoll who question poll hcreated =>
    dsimp only
    rw [hnext]
    exact hflight.createPoll poll
  | castPollVote host who option poll hpoll hoption hopen =>
    exact ⟨hflight.stored, hflight.states, hflight.rows⟩
  | closePage host poll deadline htarget hpoll hresult hcloseAt hpast =>
    exact hflight.closePage hpoll hresult hcloseAt hpast
  | _ => exact hflight

end InFlight

end CognoChain
