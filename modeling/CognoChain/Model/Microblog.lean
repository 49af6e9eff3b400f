import CognoChain.Model.Capacity

/-!
# Microblog calls

Posting, quoting, voting and following.  Every call first checks the signer's
identity bind; a call that passes its checks writes the primary row, the
indexes and the counters in one step.
-/

namespace CognoChain

open Substrate

inductive MicroblogError
  | tooLong
  | notFound
  | notAllowed
  | notVoted
  | selfFollow
  | alreadyFollowing
  | notFollowing
  | notEnoughOptions
  | tooManyOptions
  | optionTooLong
  | pollNotFound
  | invalidOption
  | selfAccountVote
  | targetNotAllowed
  | pollClosed
  | pollNotClosable
  | govActionRequiresChamber
  | invalidAnchor
  | pollCloseRequired
  | pollDurationTooShort
  | pollDurationTooLong
deriving DecidableEq, Repr

/-! ## Indexes -/

namespace Feed

def indexByAuthor (f : Feed) (id : ℕ) (author : AccountId) : Feed :=
  let seq := f.byAuthorCount.getD author 0
  { f with
    byAuthor := f.byAuthor.insert (author, seq) id
    byAuthorCount := f.byAuthorCount.insert author (satAdd u64Max seq 1) }

def indexTopLevel (f : Feed) (id : ℕ) (author : AccountId) : Feed :=
  let authorSeq := f.topLevelByAuthorCount.getD author 0
  { f with
    topLevelByAuthor := f.topLevelByAuthor.insert (author, authorSeq) id
    topLevelByAuthorCount :=
      f.topLevelByAuthorCount.insert author (satAdd u64Max authorSeq 1)
    topLevelPosts := f.topLevelPosts.insert f.nextTopLevelSeq id
    nextTopLevelSeq := satAdd u64Max f.nextTopLevelSeq 1 }

def indexReply (f : Feed) (id parent : ℕ) : Feed :=
  let seq := f.replyCount.getD parent 0
  { f with
    replyCount := f.replyCount.insert parent (satAdd u32Max seq 1)
    repliesByParent := f.repliesByParent.insert (parent, id) ()
    repliesByParentSeq := f.repliesByParentSeq.insert (parent, seq) id }

def addPost (f : Feed) (post : Post) : Feed :=
  let id := f.nextPostId
  let indexed := f.indexByAuthor id post.author
  let stored := { indexed with posts := indexed.posts.insert id post }
  let threaded :=
    match post.parent with
    | some parent => stored.indexReply id parent
    | none => stored.indexTopLevel id post.author
  { threaded with nextPostId := satAdd u64Max id 1 }

end Feed

/-- The likes index stores ids descending, so its keys are complements. -/
def descKey (postId : ℕ) : ℕ := u64Max - postId

namespace Ballots

def indexLike (b : Ballots) (who : AccountId) (postId : ℕ) : Ballots :=
  { b with
    votesByAccount := b.votesByAccount.insert (who, postId) ()
    likesByAccount := b.likesByAccount.insert (who, descKey postId) () }

def unindexLike (b : Ballots) (who : AccountId) (postId : ℕ) : Ballots :=
  { b with
    votesByAccount := b.votesByAccount.remove (who, postId)
    likesByAccount := b.likesByAccount.remove (who, descKey postId) }

end Ballots

namespace VoteCounts

def drop (t : VoteCounts) : VoteDir → VoteCounts
  | .up => { t with upCount := t.upCount - 1 }
  | .down => { t with downCount := t.downCount - 1 }

def bump (t : VoteCounts) : VoteDir → VoteCounts
  | .up => { t with upCount := satAdd u32Max t.upCount 1 }
  | .down => { t with downCount := satAdd u32Max t.downCount 1 }

def revote (t : VoteCounts) (previous : Option VoteDir) (dir : VoteDir) : VoteCounts :=
  match previous with
  | some old => (t.drop old).bump dir
  | none => t.bump dir

end VoteCounts

namespace Ballots

def castVote (b : Ballots) (postId : ℕ) (who : AccountId) (dir : VoteDir) : Ballots :=
  let recorded := { b with
    voteTally := b.voteTally.mutate postId default
      (fun t => t.revote (b.votes.get (postId, who)) dir)
    votes := b.votes.insert (postId, who) dir }
  match dir with
  | .up => recorded.indexLike who postId
  | .down => recorded.unindexLike who postId

def removeVote (b : Ballots) (postId : ℕ) (who : AccountId) (dir : VoteDir) : Ballots :=
  let taken := { b with votes := b.votes.remove (postId, who) }.unindexLike who postId
  { taken with voteTally := taken.voteTally.mutate postId default (fun t => t.drop dir) }

def castAccountVote (b : Ballots) (target who : AccountId) (dir : VoteDir) : Ballots :=
  { b with
    accountVoteTally := b.accountVoteTally.mutate target default
      (fun t => t.revote (b.accountVotes.get (target, who)) dir)
    accountVotes := b.accountVotes.insert (target, who) dir }

def removeAccountVote (b : Ballots) (target who : AccountId) (dir : VoteDir) : Ballots :=
  { b with
    accountVotes := b.accountVotes.remove (target, who)
    accountVoteTally := b.accountVoteTally.mutate target default (fun t => t.drop dir) }

end Ballots

namespace FollowGraph

def link (g : FollowGraph) (who target : AccountId) : FollowGraph :=
  { g with
    following := g.following.insert (who, target) ()
    followers := g.followers.insert (target, who) ()
    followingCount := g.followingCount.mutate who 0 (fun c => satAdd u32Max c 1)
    followerCount := g.followerCount.mutate target 0 (fun c => satAdd u32Max c 1) }

def unlink (g : FollowGraph) (who target : AccountId) : FollowGraph :=
  { g with
    following := g.following.remove (who, target)
    followers := g.followers.remove (target, who)
    followingCount := g.followingCount.mutate who 0 (fun c => c - 1)
    followerCount := g.followerCount.mutate target 0 (fun c => c - 1) }

end FollowGraph

/-! ## Calls -/

namespace Runtime

def postMessage (cfg : Config) (s : Runtime) (who : AccountId) (text : Bytes)
    (parent : Option ℕ) : Except MicroblogError Runtime :=
  if !s.isAllowed who then .error .notAllowed
  else if cfg.maxLength < text.length then .error .tooLong
  else
    .ok ({ s with feed := s.feed.addPost ⟨who, text, parent, s.blockNumber, none⟩ }.deposit
      (.postCreated s.feed.nextPostId who))

def quotePost (cfg : Config) (s : Runtime) (who : AccountId) (text : Bytes)
    (quotedId : ℕ) : Except MicroblogError Runtime :=
  if !s.isAllowed who then .error .notAllowed
  else if !s.feed.posts.contains quotedId then .error .notFound
  else if cfg.maxLength < text.length then .error .tooLong
  else
    .ok ({ s with
        feed := s.feed.addPost ⟨who, text, none, s.blockNumber, some quotedId⟩ }.deposit
      (.postCreated s.feed.nextPostId who))

def vote (s : Runtime) (who : AccountId) (postId : ℕ) (dir : VoteDir) :
    Except MicroblogError Runtime :=
  if !s.isAllowed who then .error .notAllowed
  else if !s.feed.posts.contains postId then .error .notFound
  else
    .ok ({ s with ballots := s.ballots.castVote postId who dir }.deposit
      (.voted postId who dir))

def clearVote (s : Runtime) (who : AccountId) (postId : ℕ) :
    Except MicroblogError Runtime :=
  if !s.isAllowed who then .error .notAllowed
  else
    match s.ballots.votes.get (postId, who) with
    | none => .error .notVoted
    | some dir =>
        .ok ({ s with ballots := s.ballots.removeVote postId who dir }.deposit
          (.voteCleared postId who))

def voteAccount (s : Runtime) (who target : AccountId) (dir : VoteDir) :
    Except MicroblogError Runtime :=
  if !s.isAllowed who then .error .notAllowed
  else if who = target then .error .selfAccountVote
  else if !s.isAllowed target then .error .targetNotAllowed
  else
    .ok ({ s with ballots := s.ballots.castAccountVote target who dir }.deposit
      (.accountVoted target who dir))

def clearAccountVote (s : Runtime) (who target : AccountId) :
    Except MicroblogError Runtime :=
  if !s.isAllowed who then .error .notAllowed
  else
    match s.ballots.accountVotes.get (target, who) with
    | none => .error .notVoted
    | some dir =>
        .ok ({ s with ballots := s.ballots.removeAccountVote target who dir }.deposit
          (.accountVoteCleared target who))

def follow (s : Runtime) (who target : AccountId) : Except MicroblogError Runtime :=
  if !s.isAllowed who then .error .notAllowed
  else if who = target then .error .selfFollow
  else if s.graph.following.contains (who, target) then .error .alreadyFollowing
  else
    .ok ({ s with graph := s.graph.link who target }.deposit (.followed who target))

def unfollow (s : Runtime) (who target : AccountId) : Except MicroblogError Runtime :=
  if !s.isAllowed who then .error .notAllowed
  else if !s.graph.following.contains (who, target) then .error .notFollowing
  else
    .ok ({ s with graph := s.graph.unlink who target }.deposit (.unfollowed who target))

end Runtime

end CognoChain
