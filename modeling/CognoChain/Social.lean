import CognoChain.Model.Frames

/-!
# The social half as a transition system

Every operation of a run moves the social half of the state by one of the
writes below, under the checks its call has passed.  Results about posts,
votes, follows and polls go through this list of writes rather than through
the calls.
-/

namespace CognoChain

open Substrate

def closeTarget (cfg : Config) (s : Runtime) : Op → Option ℕ
  | .call (.signed who) (.microblog (.closePoll host)) =>
      if s.isAllowed who then some host else none
  | .extrinsic who (.microblog (.closePoll host)) len =>
      match s.checkCapacity cfg (.signed who) (.microblog (.closePoll host)) len with
      | .ok _ => if s.isAllowed who then some host else none
      | .error _ => none
  | _ => none

/-- What an operation can do to the social half of the state. -/
inductive SocialStep (cfg : Config) (s : Runtime) (op : Op) : Social → Prop
  | idle : SocialStep cfg s op s.social
  | tick (unixSecs : ℕ) :
      SocialStep cfg s op
        { s.social with blockNumber := s.blockNumber + 1, unixSecs := unixSecs }
  | profile (profile : ProfileStore) :
      SocialStep cfg s op { s.social with profile := profile }
  | post (post : Post) : SocialStep cfg s op { s.social with feed := s.feed.addPost post }
  | castVote (postId : ℕ) (who : AccountId) (dir : VoteDir)
      (hposted : s.feed.posts.contains postId = true) :
      SocialStep cfg s op { s.social with ballots := s.ballots.castVote postId who dir }
  | removeVote (postId : ℕ) (who : AccountId) (dir : VoteDir)
      (hvote : s.ballots.votes.get (postId, who) = some dir) :
      SocialStep cfg s op { s.social with ballots := s.ballots.removeVote postId who dir }
  | castAccountVote (target who : AccountId) (dir : VoteDir) (hne : who ≠ target) :
      SocialStep cfg s op
        { s.social with ballots := s.ballots.castAccountVote target who dir }
  | removeAccountVote (target who : AccountId) (dir : VoteDir)
      (hvote : s.ballots.accountVotes.get (target, who) = some dir) :
      SocialStep cfg s op
        { s.social with ballots := s.ballots.removeAccountVote target who dir }
  | link (who target : AccountId) (hne : who ≠ target)
      (hnew : s.graph.following.contains (who, target) = false) :
      SocialStep cfg s op { s.social with graph := s.graph.link who target }
  | unlink (who target : AccountId)
      (hold : s.graph.following.contains (who, target) = true) :
      SocialStep cfg s op { s.social with graph := s.graph.unlink who target }
  | createPoll (who : AccountId) (question : Bytes) (poll : Poll)
      (hcreated : ∃ options closeAt kind action,
        s.createPoll cfg who question options closeAt kind action =
          .ok (s.insertPoll who question poll)) :
      SocialStep cfg s op
        { s.social with
          feed := s.feed.addPost ⟨who, question, none, s.blockNumber, none⟩
          polls := { s.polls with polls := s.polls.polls.insert s.feed.nextPostId poll } }
  | castPollVote (host : ℕ) (who : AccountId) (option : ℕ) (poll : Poll)
      (hpoll : s.polls.polls.get host = some poll) (hoption : option < poll.options.length)
      (hopen : ∀ deadline, poll.closeAt = some deadline → s.blockNumber < deadline) :
      SocialStep cfg s op { s.social with polls := s.polls.recordVote host who option }
  | closePage (host : ℕ) (poll : Poll) (deadline : ℕ)
      (htarget : closeTarget cfg s op = some host)
      (hpoll : s.polls.polls.get host = some poll)
      (hresult : s.polls.pollResults.get host = none)
      (hcloseAt : poll.closeAt = some deadline) (hpast : deadline ≤ s.blockNumber) :
      SocialStep cfg s op { s.social with polls := (s.closePage cfg host poll).polls }

namespace Runtime

variable {cfg : Config} {s s' : Runtime} {op : Op} {call : RuntimeCall} {origin : Origin}

theorem closePage_social (host : ℕ) (poll : Poll) :
    (s.closePage cfg host poll).social =
      { s.social with polls := (s.closePage cfg host poll).polls } := by
  unfold closePage
  dsimp only
  split_ifs
  · unfold finalizeClose
    dsimp only
    split_ifs <;> rfl
  · rfl

/-- A successful signed microblog call is one of the writes.  The close target
is named by the operation the call came in. -/
theorem dispatchSignedMicroblog_social {who : AccountId} {call : MicroblogCall}
    (h : s.dispatchSignedMicroblog cfg who call = .ok s')
    (htarget : ∀ host, call = .closePoll host → s.isAllowed who = true →
      closeTarget cfg s op = some host) :
    SocialStep cfg s op s'.social := by
  cases call with
  | postMessage text parent =>
    simp only [dispatchSignedMicroblog, mapError_eq_ok_iff, postMessage] at h
    split_ifs at h
    rw [← Except.ok.inj h]
    exact .post ⟨who, text, parent, s.blockNumber, none⟩
  | forceSetCapacity account capLast => cases h
  | quotePost text quotedId =>
    simp only [dispatchSignedMicroblog, mapError_eq_ok_iff, quotePost] at h
    split_ifs at h
    rw [← Except.ok.inj h]
    exact .post ⟨who, text, none, s.blockNumber, some quotedId⟩
  | vote postId dir =>
    simp only [dispatchSignedMicroblog, mapError_eq_ok_iff, vote] at h
    split_ifs at h with hallowed hposted
    rw [← Except.ok.inj h]
    exact .castVote postId who dir (by simpa [Option.isSome_iff_ne_none] using hposted)
  | clearVote postId =>
    simp only [dispatchSignedMicroblog, mapError_eq_ok_iff, clearVote] at h
    split_ifs at h
    split at h
    · cases h
    next dir hvote =>
      rw [← Except.ok.inj h]
      exact .removeVote postId who dir hvote
  | voteAccount target dir =>
    simp only [dispatchSignedMicroblog, mapError_eq_ok_iff, voteAccount] at h
    split_ifs at h with hallowed hself htargetAllowed
    rw [← Except.ok.inj h]
    exact .castAccountVote target who dir hself
  | clearAccountVote target =>
    simp only [dispatchSignedMicroblog, mapError_eq_ok_iff, clearAccountVote] at h
    split_ifs at h
    split at h
    · cases h
    next dir hvote =>
      rw [← Except.ok.inj h]
      exact .removeAccountVote target who dir hvote
  | follow target =>
    simp only [dispatchSignedMicroblog, mapError_eq_ok_iff, follow] at h
    split_ifs at h with hallowed hself hfollowing
    rw [← Except.ok.inj h]
    exact .link who target hself (by simpa using hfollowing)
  | unfollow target =>
    simp only [dispatchSignedMicroblog, mapError_eq_ok_iff, unfollow] at h
    split_ifs at h with hallowed hfollowing
    rw [← Except.ok.inj h]
    exact .unlink who target (by simpa [Option.isSome_iff_ne_none] using hfollowing)
  | createPoll question options closeAt kind action =>
    have hok := mapError_eq_ok_iff.mp h
    obtain ⟨-, deadline, bounded, action', -, -, -, -, rfl⟩ := createPoll_ok hok
    exact .createPoll who question _ ⟨options, closeAt, kind, action, hok⟩
  | castPollVote postId option =>
    obtain ⟨-, poll, hpoll, hoption, hopen, rfl⟩ :=
      castPollVote_ok (mapError_eq_ok_iff.mp h)
    exact .castPollVote postId who option poll hpoll hoption hopen
  | closePoll hostId =>
    obtain ⟨hallowed, poll, hpoll, hcases⟩ := closePoll_ok (mapError_eq_ok_iff.mp h)
    rcases hcases with ⟨-, rfl⟩ | ⟨hresult, deadline, hcloseAt, hpast, rfl⟩
    · exact .idle
    · rw [closePage_social]
      exact .closePage hostId poll deadline (htarget hostId rfl hallowed) hpoll
        (by simpa using hresult) hcloseAt hpast

theorem execute_of_ok (h : s.dispatch cfg origin call = .ok s') :
    s.execute cfg origin call = s' := by
  simp [execute, h]

theorem dispatchProfile_social {call : ProfileCall} (h : s.dispatchProfile cfg origin call = .ok s') :
    s'.social = { s.social with profile := s'.profile } := by
  obtain ⟨who, store, event, -, -, -, rfl⟩ := dispatchProfile_ok h
  rfl

theorem execute_socialStep
    (htarget : ∀ who host, origin = .signed who → call = .microblog (.closePoll host) → s.isAllowed who = true → closeTarget cfg s op = some host) :
    SocialStep cfg s op (s.execute cfg origin call).social := by
  unfold execute
  split
  next after hok =>
    cases call with
    | microblog call =>
      cases origin with
      | signed who =>
        exact dispatchSignedMicroblog_social hok
          (fun host hcall hallowed => htarget who host rfl (by rw [hcall]) hallowed)
      | none => cases call <;> cases hok
      | authority =>
        cases call with
        | forceSetCapacity who capLast =>
          have hafter : after = s.forceSetCapacity cfg who capLast :=
            (Except.ok.inj hok).symm
          rw [hafter, (forceSetCapacity_writes who capLast).writesMeter.social]
          exact .idle
        | _ => cases hok
    | profile call =>
      have hprofile : s.dispatchProfile cfg origin call = .ok after := hok
      rw [dispatchProfile_social hprofile]
      exact .profile _
    | gate call =>
      have hgate : s.dispatchGate cfg origin call = .ok after := hok
      rw [dispatchGate_social hgate]
      exact .idle
    | roles call =>
      have hroles : s.dispatchRoles cfg origin call = .ok after := hok
      rw [(dispatchRoles_writes hroles).social]
      exact .idle
    | observer call =>
      have hobserver : s.dispatchObserver cfg origin call = .ok after := hok
      rw [dispatchObserver_social hobserver]
      exact .idle
  next => exact .idle

theorem step_extrinsic_social {who : AccountId} {len : ℕ} {pre : Pre}
    (hcheck : s.checkCapacity cfg (.signed who) call len = .ok pre) :
    (s.step cfg (.extrinsic who call len)).social =
      (s.execute cfg (.signed who) call).social := by
  simp only [step, applyExtrinsic, hcheck]
  exact (postDispatch_writes pre).writesMeter.social

theorem step_socialStep (op : Op) : SocialStep cfg s op (s.step cfg op).social := by
  cases op with
  | nextBlock unixSecs =>
    have hsocial : (s.nextBlock cfg unixSecs).social =
        { s.social with blockNumber := s.blockNumber + 1, unixSecs := unixSecs } :=
      observerOnInitialize_writes.social
    rw [step, hsocial]
    exact .tick unixSecs
  | call origin call =>
    apply execute_socialStep
    intro who host horigin hcall hallowed
    simp [closeTarget, horigin, hcall, hallowed]
  | extrinsic who call len =>
    cases hcheck : s.checkCapacity cfg (.signed who) call len with
    | error e =>
      simp only [step, applyExtrinsic, hcheck]
      exact .idle
    | ok pre =>
      rw [step_extrinsic_social hcheck]
      apply execute_socialStep
      intro signer host horigin hcall hallowed
      cases horigin
      subst hcall
      simp [closeTarget, hcheck, hallowed]
  | inherent obs =>
    rw [step, observeSnapshot, observe_social]
    exact .idle

end Runtime

end CognoChain
