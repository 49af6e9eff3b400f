import CognoChain.Close.Paged
import CognoChain.Substrate.Tally

/-!
# Vote tallies

The tallies kept beside the votes on posts, the votes on accounts and the
ballots of polls are exact in every run that does not bump one of them at its
maximum, through re-votes, changes of direction and cleared votes.
-/

namespace CognoChain

open Substrate StorageMap

def VoteCounts.countOf (t : VoteCounts) : VoteDir → ℕ
  | .up => t.upCount
  | .down => t.downCount

variable {dir : VoteDir}

theorem VoteCounts.countOf_drop (t : VoteCounts) (hpos : 0 < t.countOf dir) (other : VoteDir) :
    (t.drop dir).countOf other + (if other = dir then 1 else 0) = t.countOf other := by
  cases dir <;> cases other <;> simp [drop, countOf] at hpos ⊢ <;> omega

theorem VoteCounts.countOf_bump (t : VoteCounts) (hroom : t.countOf dir < u32Max) (other : VoteDir) :
    (t.bump dir).countOf other = t.countOf other + if other = dir then 1 else 0 := by
  cases dir <;> cases other <;> simp [bump, countOf] at hroom ⊢ <;>
    exact satAdd_succ_of_lt hroom

theorem VoteCounts.countOf_revote (t : VoteCounts) (previous : Option VoteDir)
    (hroom : t.countOf dir < u32Max) (hpos : ∀ old, previous = some old → 0 < t.countOf old)
    (other : VoteDir) :
    (t.revote previous dir).countOf other + (if previous = some other then 1 else 0) =
      t.countOf other + if other = dir then 1 else 0 := by
  cases previous with
  | none => simpa [revote] using t.countOf_bump hroom other
  | some old =>
    have hdrop := t.countOf_drop (hpos old rfl)
    have hroom' : (t.drop old).countOf dir < u32Max := by
      have hdir := hdrop dir
      omega
    rw [revote, (t.drop old).countOf_bump hroom' other, ← hdrop other]
    have hcond : (some old = some other) ↔ (other = old) :=
      ⟨fun h => (Option.some.inj h).symm, fun h => congrArg some h.symm⟩
    simp only [hcond]
    omega

/-! ## Votes on posts and accounts -/

section Votes

variable {K : Type*} [StorageKey K] [DecidableEq K] {tally : StorageMap K VoteCounts}
  {votes : StorageMap (K × AccountId) VoteDir} {k : K} {who : AccountId} {dir : VoteDir}

def TalliesVotes (tally : StorageMap K VoteCounts) (votes : StorageMap (K × AccountId) VoteDir) :
    Prop :=
  CountsChoices (fun k dir => (tally.getD k default).countOf dir) votes

theorem TalliesVotes.pos (htallies : TalliesVotes tally votes)
    (hvote : votes.get (k, who) = some dir) : 0 < (tally.getD k default).countOf dir := by
  have hpos := CountsChoices.pos htallies hvote
  exact hpos

theorem TalliesVotes.cast (htallies : TalliesVotes tally votes)
    (hroom : (tally.getD k default).countOf dir < u32Max) :
    TalliesVotes (tally.mutate k default (fun t => t.revote (votes.get (k, who)) dir))
      (votes.insert (k, who) dir) := by
  refine CountsChoices.insert htallies (fun k' other => ?_)
  rw [mutate, getD_insert]
  by_cases hk : k' = k
  · subst hk
    have hrevote := (tally.getD k' default).countOf_revote (votes.get (k', who)) hroom
      (fun old hold => htallies.pos hold) other
    simpa using hrevote
  · simp [hk]

theorem TalliesVotes.clear (htallies : TalliesVotes tally votes)
    (hvote : votes.get (k, who) = some dir) :
    TalliesVotes (tally.mutate k default (fun t => t.drop dir)) (votes.remove (k, who)) := by
  refine CountsChoices.remove htallies hvote (fun k' other => ?_)
  rw [mutate, getD_insert]
  by_cases hk : k' = k
  · subst hk
    have hdrop := (tally.getD k' default).countOf_drop (htallies.pos hvote) other
    simpa using hdrop
  · simp [hk]

end Votes

/-! ## Ballots of polls -/

def PollStore.TalliesBallots (p : PollStore) : Prop :=
  CountsChoices (fun host option => p.pollTally.getD (host, option) 0) p.pollVotes

theorem PollStore.dropped_getD {p : PollStore} (htallies : p.TalliesBallots) (host : ℕ)
    (who : AccountId) (host' option' : ℕ) :
    ((p.pollVotes.get (host, who)).elim p.pollTally
        (fun previous => p.pollTally.mutate (host, previous) 0 (fun c => c - 1))).getD
          (host', option') 0 +
        (if host' = host ∧ p.pollVotes.get (host, who) = some option' then 1 else 0) =
      p.pollTally.getD (host', option') 0 := by
  cases hvote : p.pollVotes.get (host, who) with
  | none => simp
  | some previous =>
    have hpos := CountsChoices.pos htallies hvote
    rw [Option.elim_some, mutate, getD_insert]
    by_cases hkey : (host', option') = (host, previous)
    · obtain ⟨rfl, rfl⟩ := Prod.mk.inj hkey
      simp only [and_self, if_true]
      omega
    · have hne : ¬ (host' = host ∧ some previous = some option') := fun h =>
        hkey (by rw [h.1, Option.some.inj h.2])
      rw [if_neg hkey, if_neg hne, Nat.add_zero]

theorem PollStore.TalliesBallots.recordVote {p : PollStore} (htallies : p.TalliesBallots)
    {host option : ℕ} (hroom : p.pollTally.getD (host, option) 0 < u32Max) (who : AccountId) :
    (p.recordVote host who option).TalliesBallots := by
  refine CountsChoices.insert htallies (fun host' option' => ?_)
  have hdropped := PollStore.dropped_getD htallies host who
  have htally : (p.recordVote host who option).pollTally =
      ((p.pollVotes.get (host, who)).elim p.pollTally
        (fun previous => p.pollTally.mutate (host, previous) 0 (fun c => c - 1))).mutate
          (host, option) 0 (fun c => satAdd u32Max c 1) := by
    unfold PollStore.recordVote
    cases p.pollVotes.get (host, who) <;> rfl
  rw [htally, mutate, getD_insert, ← hdropped host' option']
  by_cases hkey : (host', option') = (host, option)
  · obtain ⟨rfl, rfl⟩ := Prod.mk.inj hkey
    have hlt := hdropped host' option'
    rw [if_pos rfl, satAdd_succ_of_lt (by omega),
      if_pos (⟨rfl, rfl⟩ : host' = host' ∧ option' = option')]
    omega
  · have hne : ¬ (host' = host ∧ option' = option) := fun h => hkey (by rw [h.1, h.2])
    rw [if_neg hkey, if_neg hne, Nat.add_zero]

/-! ## Runs -/

structure VotesTallied (b : Ballots) (p : PollStore) : Prop where
  posts : TalliesVotes b.voteTally b.votes
  accounts : TalliesVotes b.accountVoteTally b.accountVotes
  polls : p.TalliesBallots

structure Runtime.TalliesBelowMax (s : Runtime) : Prop where
  posts : ∀ postId dir, (s.ballots.voteTally.getD postId default).countOf dir < u32Max
  accounts : ∀ target dir, (s.ballots.accountVoteTally.getD target default).countOf dir < u32Max
  polls : ∀ host option, s.polls.pollTally.getD (host, option) 0 < u32Max

theorem VotesTallied.genesis : VotesTallied {} {} := by
  refine ⟨fun postId dir => ?_, fun target dir => ?_, fun _ _ => rfl⟩ <;> cases dir <;> rfl

theorem SocialStep.votesTallied {cfg : Config} {s : Runtime} {op : Op} {after : Social}
    (hstep : SocialStep cfg s op after) (hroom : s.TalliesBelowMax)
    (htallied : VotesTallied s.ballots s.polls) : VotesTallied after.ballots after.polls := by
  obtain ⟨hposts, haccounts, hpolls⟩ := htallied
  cases hstep with
  | castVote postId who dir hposted =>
    have hcast : TalliesVotes (s.ballots.castVote postId who dir).voteTally
        (s.ballots.castVote postId who dir).votes := by
      cases dir <;> exact hposts.cast (hroom.posts postId _)
    have hrest : TalliesVotes (s.ballots.castVote postId who dir).accountVoteTally
        (s.ballots.castVote postId who dir).accountVotes := by
      cases dir <;> exact haccounts
    exact ⟨hcast, hrest, hpolls⟩
  | removeVote postId who dir hvote => exact ⟨hposts.clear hvote, haccounts, hpolls⟩
  | castAccountVote target who dir hne =>
    exact ⟨hposts, haccounts.cast (hroom.accounts target dir), hpolls⟩
  | removeAccountVote target who dir hvote => exact ⟨hposts, haccounts.clear hvote, hpolls⟩
  | castPollVote host who option poll hpoll hoption hopen =>
    exact ⟨hposts, haccounts, hpolls.recordVote (hroom.polls host option) who⟩
  | closePage host poll deadline htarget hpoll hresult hcloseAt hpast =>
    refine ⟨hposts, haccounts, ?_⟩
    dsimp only
    rw [closePage_polls]
    split <;> exact hpolls
  | _ => exact ⟨hposts, haccounts, hpolls⟩

end CognoChain
