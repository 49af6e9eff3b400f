import CognoChain.Model.Polls
import CognoChain.Substrate.Audit

/-!
# The storage-consistency check

The check that the `try_state` hook of the microblog pallet runs: every
denormalised counter equals the number of rows it counts, and every index
mirrors the rows it is for.  It stops at the first complaint.  A loop of the
source that tallies rows and checks them in one pass checks them first here;
tallying cannot fail.
-/

namespace CognoChain

open Substrate

/-! ## Families of checks -/

section Families

variable {K R V : Type*} [StorageKey K] [DecidableEq K]

def bumpVotes (counted : ℕ × ℕ) : VoteDir → ℕ × ℕ
  | .up => (satAdd u32Max counted.1 1, counted.2)
  | .down => (counted.1, satAdd u32Max counted.2 1)

def checkVotes (votes : StorageMap (K × AccountId) VoteDir) (tally : StorageMap K VoteCounts)
    (disagrees leftover : String) : Except String Unit :=
  audit (fun row => row.1.1) (fun counted row => bumpVotes counted row.2) (0, 0) votes.entries
    tally
    (fun counts counted =>
      ensure (counts.upCount = counted.1 ∧ counts.downCount = counted.2) disagrees)
    leftover

def checkCounts (key : R → K) (rows : List R) (counts : StorageMap K ℕ)
    (disagrees leftover : String) : Except String Unit :=
  audit key (fun n _ => satAdd u32Max n 1) 0 rows counts
    (fun count n => ensure (count = n) disagrees) leftover

def bumpSeq (bound : ℕ) (counted : ℕ × ℕ) (row : (K × ℕ) × V) : ℕ × ℕ :=
  (satAdd bound counted.1 1, max counted.2 row.1.2)

def checkSeqs (bound : ℕ) (index : StorageMap (K × ℕ) V) (counts : StorageMap K ℕ)
    (disagrees gap leftover : String) : Except String Unit :=
  audit (fun row => row.1.1) (bumpSeq bound) (0, 0) index.entries counts
    (fun count counted => do
      ensure (count = counted.1) disagrees
      ensure (!(0 < counted.1 && count ≤ counted.2)) gap)
    leftover

end Families

namespace Runtime

/-! ## Polls -/

def checkPollTally (s : Runtime) : Except String Unit :=
  checkCounts (fun row => (row.1.1, row.2)) s.polls.pollVotes.entries s.polls.pollTally
    "PollTally disagrees with the PollVotes records for an option"
    "PollVotes records exist for a (poll, option) with no PollTally row"

def checkCloseState (s : Runtime) (host : ℕ) (state : CloseState) : Except String Unit :=
  if s.polls.pollResults.contains host then
    .error "a poll has both a frozen PollResult and an in-flight PollCloseState"
  else
    match s.polls.polls.get host with
    | none => .error "a PollCloseState exists for a host that is not a poll"
    | some poll =>
        match poll.closeAt with
        | none => .error "a PollCloseState exists for a poll that can never be closed"
        | some deadline =>
            if s.blockNumber < deadline then
              .error "a PollCloseState exists for a poll that is not yet closable"
            else
              ensure (state.optionWeights.length = poll.options.length)
                "a PollCloseState's running weights are not aligned with the options"

def checkCloses (s : Runtime) : Except String Unit := do
  checkEach (fun row => s.checkCloseState row.1 row.2) s.polls.pollCloseState.entries
  checkEach (fun key => ensure (s.polls.pollCloseState.contains key.1)
    "orphaned PollChamberScratch rows for a host with no in-flight close")
    s.polls.pollChamberScratch.keys

/-! ## Follows -/

def checkFollows (s : Runtime) : Except String Unit := do
  checkCounts Prod.fst s.graph.followers.keys s.graph.followerCount
    "FollowerCount disagrees with the Followers rows"
    "Followers rows exist for a target with no FollowerCount row"
  checkCounts Prod.fst s.graph.following.keys s.graph.followingCount
    "FollowingCount disagrees with the Following rows"
    "Following rows exist for a who with no FollowingCount row"
  checkEach (fun edge => ensure (s.graph.followers.contains (edge.2, edge.1))
    "a Following edge is missing its Followers mirror") s.graph.following.keys
  checkEach (fun edge => ensure (s.graph.following.contains (edge.2, edge.1))
    "a Followers edge is missing its Following mirror") s.graph.followers.keys

/-! ## Replies -/

def checkReplies (s : Runtime) : Except String Unit := do
  checkCounts Prod.fst s.feed.repliesByParent.keys s.feed.replyCount
    "ReplyCount disagrees with the RepliesByParent rows"
    "RepliesByParent rows exist for a parent with no ReplyCount row"
  checkEach (fun row => ensure
    (row.2.parent.all (fun parent => s.feed.repliesByParent.contains (parent, row.1)))
    "a reply post is missing its RepliesByParent entry") s.feed.posts.entries
  checkEach (fun key => ensure
    ((s.feed.posts.get key.2).any (fun post => post.parent = some key.1))
    "a RepliesByParent entry has no matching reply post") s.feed.repliesByParent.keys

def checkReplySeq (s : Runtime) (parent seq id : ℕ) : Except String Unit := do
  ensure (s.feed.repliesByParent.contains (parent, id))
    "a RepliesByParentSeq entry is not a reply of that parent"
  ensure ((s.feed.repliesByParentSeq.get (parent, satAdd u64Max seq 1)).all (fun next => id < next))
    "RepliesByParentSeq ids do not ascend with seq"

def checkReplySpine (s : Runtime) : Except String Unit := do
  checkEach (fun row => s.checkReplySeq row.1.1 row.1.2 row.2) s.feed.repliesByParentSeq.entries
  checkSeqs u32Max s.feed.repliesByParentSeq s.feed.replyCount
    "ReplyCount disagrees with the RepliesByParentSeq rows"
    "a RepliesByParentSeq seq is at or past its ReplyCount (index not dense)"
    "RepliesByParentSeq rows exist for a parent with no ReplyCount row"

/-! ## Likes -/

def checkLikes (s : Runtime) : Except String Unit := do
  checkEach (fun key => ensure (s.ballots.votes.get (key.2, key.1) = some .up)
    "VotesByAccount has an entry with no matching Up vote") s.ballots.votesByAccount.keys
  checkEach (fun row => ensure
    (!(row.2 = .up && !s.ballots.votesByAccount.contains (row.1.2, row.1.1)))
    "an Up vote is missing its VotesByAccount entry") s.ballots.votes.entries
  checkEach (fun key => ensure (s.ballots.likesByAccount.contains (key.1, descKey key.2))
    "a liked post is missing from the ordered LikesByAccount index")
    s.ballots.votesByAccount.keys
  checkEach (fun key => ensure (s.ballots.votesByAccount.contains (key.1, u64Max - key.2))
    "a LikesByAccount row names a post the account does not like")
    s.ballots.likesByAccount.keys

/-! ## Author indexes -/

def byAuthorRows (s : Runtime) : ℕ :=
  ((tallyRows (fun row => row.1.1) (bumpSeq u64Max) (0, 0) s.feed.byAuthor.entries).entries.map
    (fun entry => entry.2.1)).sum

def checkAuthors (s : Runtime) : Except String Unit := do
  checkSeqs u64Max s.feed.byAuthor s.feed.byAuthorCount
    "ByAuthorCount disagrees with the ByAuthor rows"
    "a ByAuthor seq is at or past its ByAuthorCount (index not dense)"
    "ByAuthor rows exist for an author with no ByAuthorCount row"
  checkEach (fun row => ensure ((s.feed.posts.get row.2).any (fun post => post.parent = none))
    "a TopLevelByAuthor entry is missing or is not top-level") s.feed.topLevelByAuthor.entries
  checkSeqs u64Max s.feed.topLevelByAuthor s.feed.topLevelByAuthorCount
    "TopLevelByAuthorCount disagrees with the TopLevelByAuthor rows"
    "a TopLevelByAuthor seq is at or past its count (index not dense)"
    "TopLevelByAuthor rows exist for an author with no count row"
  ensure (s.byAuthorRows = s.feed.posts.entries.length)
    "the ByAuthor index and Posts disagree on how many posts exist"

/-! ## The whole check -/

def checkTallyConsistency (s : Runtime) : Except String Unit := do
  checkVotes s.ballots.votes s.ballots.voteTally
    "VoteTally disagrees with the Votes records for a post"
    "Votes records exist for a post with no VoteTally row"
  checkVotes s.ballots.accountVotes s.ballots.accountVoteTally
    "AccountVoteTally disagrees with the AccountVotes records for a target"
    "AccountVotes records exist for a target with no AccountVoteTally row"
  s.checkPollTally
  s.checkCloses
  s.checkFollows
  s.checkReplies
  s.checkReplySpine
  s.checkLikes
  s.checkAuthors

end Runtime

end CognoChain
