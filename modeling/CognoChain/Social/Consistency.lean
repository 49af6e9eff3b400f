import CognoChain.Close.InFlight
import CognoChain.Model.Consistency
import CognoChain.Social.Follows
import CognoChain.Social.Votes
import CognoChain.Views.Likes

/-!
# Consistency of denormalised state

The check of the `try_state` hook passes in every run in which no counter
reaches its maximum.  Each part of it comes down to an exact counter, to an
index that mirrors its rows, or to a numbered index that lists the posts it is
for.
-/

namespace CognoChain

open Substrate CognoChain.Runtime StorageMap Config

/-! ## When a family of checks passes -/

section Families

variable {K R V : Type*} [StorageKey K] [DecidableEq K] {disagrees gap leftover : String}

theorem foldl_bumpVotes (rows : List (R × VoteDir)) :
    rows.foldl (fun counted row => bumpVotes counted row.2) (0, 0) =
      (min (rows.countP (fun row => row.2 = .up)) u32Max,
        min (rows.countP (fun row => row.2 = .down)) u32Max) := by
  induction rows using List.reverseRecOn with
  | nil => simp
  | append_singleton rows row ih =>
    obtain ⟨key, dir⟩ := row
    rw [List.foldl_append, ih, List.countP_append, List.countP_append]
    cases dir with
    | up => simpa [bumpVotes] using satAdd_min_succ u32Max _
    | down => simpa [bumpVotes] using satAdd_min_succ u32Max _

theorem checkVotes_ok {votes : StorageMap (K × AccountId) VoteDir} {tally : StorageMap K VoteCounts}
    (htallies : TalliesVotes tally votes)
    (hmax : ∀ k dir, (tally.getD k default).countOf dir < u32Max) :
    checkVotes votes tally disagrees leftover = .ok () := by
  rw [checkVotes, audit_eq_ok_iff]
  refine ⟨fun k counts hcounts => ?_, fun row hrow => ?_⟩
  · have hstored : tally.getD k default = counts := getD_of_get_some hcounts
    have hcounted : ∀ dir, (votes.entries.filter (fun row => row.1.1 = k)).countP
        (fun row => row.2 = dir) = counts.countOf dir := by
      intro dir
      have hcount := htallies k dir
      dsimp only at hcount
      rw [hstored] at hcount
      rw [hcount, List.countP_filter, StorageMap.count]
      refine List.countP_congr (fun row _ => ?_)
      simp [and_comm]
    have hbelow : ∀ dir, counts.countOf dir < u32Max := hstored ▸ hmax k
    rw [ensure_eq_ok_iff, decide_eq_true_eq, foldl_bumpVotes, hcounted, hcounted,
      Nat.min_eq_left (Nat.le_of_lt (hbelow .up)), Nat.min_eq_left (Nat.le_of_lt (hbelow .down))]
    exact ⟨rfl, rfl⟩
  · have hpos := htallies.pos (get_eq_some_iff.mpr hrow)
    cases hget : tally.get row.1.1 with
    | none =>
      rw [getD_of_get_none hget] at hpos
      cases hdir : row.2 <;> rw [hdir] at hpos <;> exact absurd hpos (Nat.lt_irrefl 0)
    | some counts => simp [hget]

theorem checkCounts_ok {key : R → K} {rows : List R} {counts : StorageMap K ℕ}
    (hcounts : ∀ k, counts.getD k 0 = (rows.filter (fun row => key row = k)).length)
    (hmax : ∀ k, counts.getD k 0 < u32Max) :
    checkCounts key rows counts disagrees leftover = .ok () := by
  rw [checkCounts, audit_eq_ok_iff]
  refine ⟨fun k count hcount => ?_, fun row hrow => ?_⟩
  · have hcounted : count = (rows.filter (fun row => key row = k)).length := by
      rw [← hcounts, getD_of_get_some hcount]
    have hlt := hmax k
    rw [hcounts k] at hlt
    rw [ensure_eq_ok_iff, decide_eq_true_eq, foldl_count, Nat.min_eq_left (Nat.le_of_lt hlt)]
    exact hcounted
  · have hpos : 0 < counts.getD (key row) 0 := by
      rw [hcounts]
      exact List.length_pos_of_mem (List.mem_filter.mpr ⟨hrow, by simp⟩)
    cases hget : counts.get (key row) with
    | none =>
      rw [getD_of_get_none hget] at hpos
      cases hpos
    | some count => simp [hget]

omit [StorageKey K] [DecidableEq K] in
theorem foldl_bumpSeq (bound : ℕ) (rows : List ((K × ℕ) × V)) :
    rows.foldl (bumpSeq bound) (0, 0) =
      (min rows.length bound, rows.foldl (fun highest row => max highest row.1.2) 0) := by
  induction rows using List.reverseRecOn with
  | nil => simp
  | append_singleton rows row ih =>
    rw [List.foldl_append, ih, List.foldl_append, List.length_append, List.length_singleton]
    exact Prod.ext (satAdd_min_succ bound rows.length) rfl

theorem checkSeqs_ok {bound : ℕ} {index : StorageMap (K × ℕ) V} {counts : StorageMap K ℕ}
    {entries : K → List V}
    (hrows : ∀ k, Numbers (fun seq => index.get (k, seq)) (counts.getD k 0) (entries k))
    (hmax : ∀ k, counts.getD k 0 < bound) :
    checkSeqs bound index counts disagrees gap leftover = .ok () := by
  have hnumbered : ∀ k seq, (index.get (k, seq)).isSome = true ↔ seq < counts.getD k 0 := by
    intro k seq
    rw [(hrows k).count_eq, (hrows k).row_eq]
    simp
  rw [checkSeqs, audit_eq_ok_iff]
  refine ⟨fun k count hcount => ?_, fun row hrow => ?_⟩
  · have hstored : counts.getD k 0 = count := getD_of_get_some hcount
    have hcounted : (index.entries.filter (fun row => row.1.1 = k)).length = count := by
      rw [filter_entries_length, count_eq_length (List.nodup_range (n := count)) (fun seq => ?_),
        List.length_range]
      rw [hnumbered, hstored, List.mem_range]
    have hseqs : ∀ row ∈ index.entries.filter (fun row => row.1.1 = k), row.1.2 < count := by
      intro row hrow
      rw [List.mem_filter, decide_eq_true_eq] at hrow
      rw [← hstored, ← hnumbered, ← hrow.2, get_eq_some_iff.mpr hrow.1]
      rfl
    have hbelow : count < bound := hstored ▸ hmax k
    have hhighest : 0 < count →
        (index.entries.filter (fun row => row.1.1 = k)).foldl
          (fun highest row => max highest row.1.2) 0 < count := by
      intro hpos
      generalize index.entries.filter (fun row => row.1.1 = k) = rows at hseqs
      refine List.foldlRecOn (motive := fun highest => highest < count) rows _ hpos (fun highest hlt row hrow => ?_)
      exact Nat.max_lt.mpr ⟨hlt, hseqs row hrow⟩
    rw [foldl_bumpSeq, hcounted, Nat.min_eq_left (Nat.le_of_lt hbelow), bind_eq_ok_iff,
      ensure_eq_ok_iff, ensure_eq_ok_iff, decide_eq_true_eq]
    refine ⟨rfl, ?_⟩
    simpa using (Nat.eq_zero_or_pos count).imp_right hhighest
  · have hstored : (index.get (row.1.1, row.1.2)).isSome = true := by
      rw [get_eq_some_iff.mpr hrow]
      rfl
    have hpos := Nat.zero_lt_of_lt ((hnumbered row.1.1 row.1.2).mp hstored)
    cases hget : counts.get row.1.1 with
    | none =>
      rw [getD_of_get_none hget] at hpos
      cases hpos
    | some count => simp [hget]

end Families

/-! ## Polls -/

section Sections

variable {s : Runtime} {log : List Post}

theorem checkPollTally_ok (htallies : s.polls.TalliesBallots)
    (hmax : ∀ host option, s.polls.pollTally.getD (host, option) 0 < u32Max) :
    s.checkPollTally = .ok () := by
  refine checkCounts_ok (fun key => ?_) (fun key => hmax key.1 key.2)
  have hcount := htallies key.1 key.2
  dsimp only at hcount
  rw [hcount, StorageMap.count, List.countP_eq_length_filter]
  refine congrArg List.length (List.filter_congr (fun row _ => ?_))
  rw [decide_eq_decide, Prod.ext_iff]

theorem checkCloses_ok {nextPostId : ℕ} (hflight : s.polls.InFlight nextPostId s.blockNumber) :
    s.checkCloses = .ok () := by
  rw [checkCloses, bind_eq_ok_iff, checkEach_eq_ok_iff, checkEach_eq_ok_iff]
  refine ⟨fun row hrow => ?_, fun key hkey => ?_⟩
  · obtain ⟨hresult, poll, deadline, hpoll, hcloseAt, hpast, hlength⟩ :=
      hflight.states row.1 row.2 (get_eq_some_iff.mpr hrow)
    have hfrozen : s.polls.pollResults.contains row.1 = false :=
      contains_eq_false_iff.mpr hresult
    simp only [checkCloseState, hfrozen, hpoll, hcloseAt, Nat.not_lt.mpr hpast,
      Bool.false_eq_true, if_false]
    rw [ensure_eq_ok_iff, decide_eq_true_eq]
    exact hlength
  · rw [ensure_eq_ok_iff]
    exact hflight.rows key.1 key.2 (mem_keys_iff.mp hkey)

/-! ## Follows -/

theorem filter_keys_length {A B V : Type*} [StorageKey A] [StorageKey B] [DecidableEq A]
    (m : StorageMap (A × B) V) (a : A) :
    (m.keys.filter (fun key => key.1 = a)).length = m.count (fun key _ => key.1 = a) := by
  rw [keys, List.filter_map, List.length_map]
  exact filter_entries_length m a

theorem checkFollows_ok (hcounted : s.graph.Counted) (hfollowing : ∀ who, s.FollowsBelowMax who)
    (hfollowers : ∀ who, s.graph.followerCount.getD who 0 < u32Max) :
    s.checkFollows = .ok () := by
  have hmirror : ∀ edge : AccountId × AccountId,
      s.graph.followers.contains (edge.2, edge.1) = s.graph.following.contains edge :=
    fun edge => congrArg Option.isSome (hcounted.mirrored edge.1 edge.2)
  rw [checkFollows, bind_eq_ok_iff, bind_eq_ok_iff, bind_eq_ok_iff, checkEach_eq_ok_iff,
    checkEach_eq_ok_iff]
  refine ⟨checkCounts_ok (fun who => ?_) hfollowers, checkCounts_ok (fun who => ?_) hfollowing,
    fun edge hedge => ?_, fun edge hedge => ?_⟩
  · rw [filter_keys_length]
    exact hcounted.followers who
  · rw [filter_keys_length]
    exact hcounted.following who
  · rw [ensure_eq_ok_iff, hmirror]
    exact mem_keys_iff.mp hedge
  · rw [ensure_eq_ok_iff, ← hmirror]
    exact mem_keys_iff.mp hedge

/-! ## Replies -/

theorem checkReplies_ok (hrecords : s.feed.Records log)
    (hmax : ∀ parent, s.feed.replyCount.getD parent 0 < u32Max) : s.checkReplies = .ok () := by
  have hstored : ∀ parent id, s.feed.repliesByParent.contains (parent, id) = true ↔
      (s.feed.posts.get id).any (fun post => post.parent = some parent) = true := by
    intro parent id
    rw [hrecords.posts, ← mem_findIdxs]
    exact hrecords.repliesByParent parent id
  rw [checkReplies, bind_eq_ok_iff, bind_eq_ok_iff, checkEach_eq_ok_iff,
    checkEach_eq_ok_iff]
  refine ⟨checkCounts_ok (fun parent => ?_) hmax, fun row hrow => ?_, fun key hkey => ?_⟩
  · have hlt := hmax parent
    have hcount := hrecords.replyCount parent
    rw [filter_keys_length, count_eq_length List.nodup_findIdxs (hrecords.repliesByParent parent),
      hcount]
    rw [hcount] at hlt
    exact Nat.min_eq_left (by omega)
  · rw [ensure_eq_ok_iff]
    have hpost : s.feed.posts.get row.1 = some row.2 := get_eq_some_iff.mpr hrow
    cases hparent : row.2.parent with
    | none => rfl
    | some parent =>
      rw [Option.all_some, hstored, hpost, Option.any_some, hparent]
      simp
  · rw [ensure_eq_ok_iff, ← hstored]
    exact mem_keys_iff.mp hkey

theorem checkReplySpine_ok (hrecords : s.feed.Records log)
    (hmax : ∀ parent, s.feed.replyCount.getD parent 0 < u32Max) :
    s.checkReplySpine = .ok () := by
  have hcapped : ∀ parent, (Feed.repliesIn log parent).length < u32Max := by
    intro parent
    have hlt := hmax parent
    rw [hrecords.replyCount parent] at hlt
    omega
  have hspine : ∀ parent, Numbers (fun seq => s.feed.repliesByParentSeq.get (parent, seq))
      (s.feed.replyCount.getD parent 0) (Feed.repliesIn log parent) :=
    fun parent => hrecords.replies parent (Nat.le_of_lt (hcapped parent))
  rw [checkReplySpine, bind_eq_ok_iff, checkEach_eq_ok_iff]
  refine ⟨fun row hrow => ?_, checkSeqs_ok hspine hmax⟩
  have hget : (Feed.repliesIn log row.1.1)[row.1.2]? = some row.2 := by
    rw [← (hspine row.1.1).row_eq]
    exact get_eq_some_iff.mpr hrow
  have hseq := (List.getElem?_eq_some_iff.mp hget).1
  have hnext : satAdd u64Max row.1.2 1 = row.1.2 + 1 := by
    refine satAdd_succ_of_lt (Nat.lt_trans hseq (Nat.lt_trans (hcapped row.1.1) ?_))
    decide
  rw [checkReplySeq, bind_eq_ok_iff, ensure_eq_ok_iff, ensure_eq_ok_iff]
  refine ⟨(hrecords.repliesByParent row.1.1 row.2).mpr (List.mem_of_getElem? hget), ?_⟩
  rw [hnext, (hspine row.1.1).row_eq (row.1.2 + 1)]
  cases hlater : (Feed.repliesIn log row.1.1)[row.1.2 + 1]? with
  | none => rfl
  | some next =>
    rw [Option.all_some, decide_eq_true_eq]
    exact entries_lt List.pairwise_findIdxs hget hlater (Nat.lt_succ_self _)

/-! ## Likes -/

theorem checkLikes_ok (hlikes : LikesIndexed s.feed s.ballots) : s.checkLikes = .ok () := by
  have hliked : ∀ who postId, s.ballots.votesByAccount.contains (who, postId) = true ↔
      s.ballots.votes.get (postId, who) = some .up := by
    intro who postId
    rw [← any_up_iff]
    exact hlikes.votesByAccount.stored_iff (postId, who) trivial
  have hle : ∀ who postId, s.ballots.votesByAccount.contains (who, postId) = true →
      postId ≤ u64Max := fun who postId hstored =>
    hlikes.posts_le postId (hlikes.posted postId who .up ((hliked who postId).mp hstored))
  have hordered : ∀ who postId, postId ≤ u64Max →
      (s.ballots.likesByAccount.contains (who, descKey postId) = true ↔
        s.ballots.votesByAccount.contains (who, postId) = true) := by
    intro who postId hpost
    rw [hliked, ← any_up_iff]
    exact hlikes.likesByAccount.stored_iff (postId, who) hpost
  rw [checkLikes, bind_eq_ok_iff, bind_eq_ok_iff, bind_eq_ok_iff, checkEach_eq_ok_iff,
    checkEach_eq_ok_iff, checkEach_eq_ok_iff, checkEach_eq_ok_iff]
  refine ⟨fun key hkey => ?_, fun row hrow => ?_, fun key hkey => ?_, fun key hkey => ?_⟩
  · rw [ensure_eq_ok_iff, decide_eq_true_eq, ← hliked]
    exact mem_keys_iff.mp hkey
  · rw [ensure_eq_ok_iff]
    cases hdir : row.2 with
    | down => rfl
    | up =>
      have hvote : s.ballots.votes.get (row.1.1, row.1.2) = some .up :=
        hdir ▸ get_eq_some_iff.mpr hrow
      rw [(hliked row.1.2 row.1.1).mpr hvote]
      rfl
  · have hstored := mem_keys_iff.mp hkey
    rw [ensure_eq_ok_iff]
    exact (hordered key.1 key.2 (hle key.1 key.2 hstored)).mpr hstored
  · have hstored := mem_keys_iff.mp hkey
    obtain ⟨vote, hvote, rfl⟩ := hlikes.likesByAccount.covered key hstored
    have hback : u64Max - descKey vote.1 = vote.1 := Nat.sub_sub_self hvote
    rw [ensure_eq_ok_iff]
    dsimp only
    rw [hback, ← hordered vote.2 vote.1 hvote]
    exact hstored

/-! ## Author indexes -/

theorem feedOf_rows (hroom : log.length ≤ u64Max) :
    (feedOf log).posts.entries.length = log.length ∧
      (feedOf log).byAuthor.entries.length = log.length := by
  induction log using List.reverseRecOn with
  | nil => exact ⟨rfl, rfl⟩
  | append_singleton log post ih =>
    rw [List.length_append, List.length_singleton] at hroom ⊢
    obtain ⟨hposts, hbyAuthor⟩ := ih (by omega)
    have hrecords : (feedOf log).Records log := feedOf_records (by omega)
    have hnewPost : (feedOf log).posts.get (feedOf log).nextPostId = none := by
      rw [hrecords.posts, hrecords.nextPostId]
      exact List.getElem?_eq_none (Nat.le_refl _)
    have hnewRow : (feedOf log).byAuthor.get
        (post.author, (feedOf log).byAuthorCount.getD post.author 0) = none := by
      rw [(hrecords.byAuthor post.author).row_eq, (hrecords.byAuthor post.author).count_eq]
      exact List.getElem?_eq_none (Nat.le_refl _)
    rw [feedOf_concat, Feed.addPost_posts, Feed.addPost_byAuthor,
      entries_length_insert hnewPost, entries_length_insert hnewRow, hposts, hbyAuthor]
    exact ⟨rfl, rfl⟩

theorem checkAuthors_ok (hfeed : s.feed = feedOf log) (hroom : log.length < u64Max) :
    s.checkAuthors = .ok () := by
  have hrecords : s.feed.Records log := hfeed ▸ feedOf_records (Nat.le_of_lt hroom)
  have hbound : ∀ p : Post → Bool, (log.findIdxs p).length < u64Max :=
    fun p => Nat.lt_of_le_of_lt (Feed.findIdxs_length_le p) hroom
  obtain ⟨hposts, hbyAuthor⟩ := feedOf_rows (Nat.le_of_lt hroom)
  rw [← hfeed] at hposts hbyAuthor
  rw [checkAuthors, bind_eq_ok_iff, bind_eq_ok_iff, bind_eq_ok_iff, checkEach_eq_ok_iff,
    ensure_eq_ok_iff, decide_eq_true_eq]
  refine ⟨checkSeqs_ok hrecords.byAuthor (fun author => ?_), fun row hrow => ?_,
    checkSeqs_ok hrecords.topLevelByAuthor (fun author => ?_), ?_⟩
  · rw [(hrecords.byAuthor author).count_eq]
    exact hbound _
  · have hget : (Feed.topLevelByAuthorIn log row.1.1)[row.1.2]? = some row.2 := by
      rw [← (hrecords.topLevelByAuthor row.1.1).row_eq]
      exact get_eq_some_iff.mpr hrow
    have hpost := mem_findIdxs.mp (List.mem_of_getElem? hget)
    rw [ensure_eq_ok_iff, hrecords.posts]
    cases hstored : log[row.2]? with
    | none =>
      rw [hstored] at hpost
      cases hpost
    | some post =>
      rw [hstored, Option.any_some, decide_eq_true_eq] at hpost
      rw [Option.any_some, decide_eq_true_eq]
      exact hpost.2
  · rw [(hrecords.topLevelByAuthor author).count_eq]
    exact hbound _
  · have hsum : s.byAuthorRows = s.feed.byAuthor.entries.length :=
      tallyRows_sum u64Max rfl (fun _ _ => rfl) (by omega)
    rw [hsum, hbyAuthor, hposts]

end Sections

/-! ## Runs -/

/-- No `u32` counter is at its maximum. -/
structure Runtime.CountersBelowMax (s : Runtime) : Prop where
  replyCount : ∀ parent, s.feed.replyCount.getD parent 0 < u32Max
  tallies : s.TalliesBelowMax
  followingCount : ∀ who, s.FollowsBelowMax who
  followerCount : ∀ who, s.graph.followerCount.getD who 0 < u32Max

/-- Rows numbered densely from zero list, in ascending order, exactly the ids
of the posts that satisfy `p`. -/
def Feed.ListsPosts (f : Feed) (row : ℕ → Option ℕ) (p : Post → Bool) : Prop :=
  ∃ ids : List ℕ, (∀ seq, row seq = ids[seq]?) ∧ ids.Pairwise (· < ·) ∧
    ∀ id, id ∈ ids ↔ (f.posts.get id).any p = true

/-- The facts about votes, follows and closes that the check rests on. -/
structure Runtime.SocialSound (s : Runtime) : Prop where
  votes : VotesTallied s.ballots s.polls
  follows : s.graph.Counted
  closes : s.polls.InFlight s.feed.nextPostId s.blockNumber
  likes : LikesIndexed s.feed s.ballots

theorem Runtime.SocialSound.step (cfg : Config) (s : Runtime) (op : Op)
    (hmax : s.CountersBelowMax ∧ s.feed.nextPostId < u64Max) (hsound : s.SocialSound) :
    (s.step cfg op).SocialSound := by
  obtain ⟨hmax, hids⟩ := hmax
  have hstep : SocialStep cfg s op (s.step cfg op).social := step_socialStep op
  exact ⟨hstep.votesTallied hmax.tallies hsound.votes,
    hstep.followsCounted hmax.followingCount hmax.followerCount hsound.follows,
    hstep.inFlight hids hsound.closes, hstep.likesIndexed hsound.likes⟩

theorem Runtime.SocialSound.genesis : genesis.SocialSound :=
  ⟨.genesis, .genesis, .genesis, .genesis⟩

theorem Feed.Records.listsPosts {f : Feed} {log : List Post} (hrecords : f.Records log)
    {row : ℕ → Option ℕ} {count : ℕ} {p : Post → Bool}
    (hrows : Numbers row count (log.findIdxs p)) : f.ListsPosts row p :=
  ⟨log.findIdxs p, hrows.row_eq, List.pairwise_findIdxs, fun id => by
    rw [mem_findIdxs, hrecords.posts]⟩

theorem denormalised_state_consistent (cfg : Config) (ops : List Op)
    (hmax : ∀ earlier, earlier <+: ops →
      (genesis.run cfg earlier).CountersBelowMax ∧
        (genesis.run cfg earlier).feed.nextPostId < u64Max) :
    let s := genesis.run cfg ops
    s.checkTallyConsistency = .ok () ∧
      (∀ author, s.feed.ListsPosts (fun seq => s.feed.byAuthor.get (author, seq))
        (fun post => post.author = author)) ∧
      (∀ author, s.feed.ListsPosts (fun seq => s.feed.topLevelByAuthor.get (author, seq))
        (fun post => post.author = author ∧ post.parent = none)) ∧
      s.feed.ListsPosts s.feed.topLevelPosts.get (fun post => post.parent = none) := by
  intro s
  have hsound : s.SocialSound :=
    (Along.of_reached hmax).invariant SocialSound (SocialSound.step cfg) .genesis
  obtain ⟨hlast, hids⟩ : s.CountersBelowMax ∧ s.feed.nextPostId < u64Max :=
    hmax ops (List.prefix_refl ops)
  obtain ⟨log, hfeed⟩ : ∃ log, s.feed = feedOf log := run_feed_log cfg ops
  have hroom : log.length < u64Max := by
    rw [hfeed, feedOf_nextPostId] at hids
    omega
  have hrecords : s.feed.Records log := hfeed ▸ feedOf_records (Nat.le_of_lt hroom)
  refine ⟨?_, fun author => hrecords.listsPosts (hrecords.byAuthor author),
    fun author => hrecords.listsPosts (hrecords.topLevelByAuthor author),
    hrecords.listsPosts hrecords.topLevelPosts⟩
  simp only [checkTallyConsistency, bind_eq_ok_iff]
  exact ⟨checkVotes_ok hsound.votes.posts hlast.tallies.posts,
    checkVotes_ok hsound.votes.accounts hlast.tallies.accounts,
    checkPollTally_ok hsound.votes.polls hlast.tallies.polls, checkCloses_ok hsound.closes,
    checkFollows_ok hsound.follows hlast.followingCount hlast.followerCount,
    checkReplies_ok hrecords hlast.replyCount, checkReplySpine_ok hrecords hlast.replyCount,
    checkLikes_ok hsound.likes, checkAuthors_ok hfeed hroom⟩

/-! ## Saturated ids -/

/-- No votes, follows, polls or replies have been stored. -/
def Runtime.Quiet (s : Runtime) : Prop :=
  s.ballots = {} ∧ s.graph = {} ∧ s.polls = {} ∧ s.feed.replyCount = ∅

instance (s : Runtime) : Decidable s.Quiet := inferInstanceAs (Decidable (_ ∧ _))

variable {s : Runtime} {who : AccountId}

theorem Runtime.Quiet.countersBelowMax (hquiet : s.Quiet) : s.CountersBelowMax := by
  obtain ⟨hballots, hgraph, hpolls, hreplies⟩ := hquiet
  have hzero : (0 : ℕ) < u32Max := by decide
  refine ⟨fun parent => ?_, ⟨fun postId dir => ?_, fun target dir => ?_, fun host option => ?_⟩,
    fun who => ?_, fun who => ?_⟩
  · rw [hreplies]
    exact hzero
  · rw [hballots]
    cases dir <;> exact hzero
  · rw [hballots]
    cases dir <;> exact hzero
  · rw [hpolls]
    exact hzero
  · unfold FollowsBelowMax
    rw [hgraph]
    exact hzero
  · rw [hgraph]
    exact hzero

def emptyPost (who : AccountId) : Op := .call (.signed who) (.microblog (.postMessage [] none))

theorem step_emptyPost (cfg : Config) (hallowed : s.isAllowed who = true) :
    s.step cfg (emptyPost who) =
      { s with feed := s.feed.addPost ⟨who, [], none, s.blockNumber, none⟩ }.deposit
        (.postCreated s.feed.nextPostId who) := by
  simp [emptyPost, step, execute, dispatch,
    dispatchMicroblog, dispatchSignedMicroblog, postMessage, hallowed,
    Except.mapError]

theorem Runtime.Quiet.emptyPost (cfg : Config) (hquiet : s.Quiet)
    (hallowed : s.isAllowed who = true) : (s.step cfg (emptyPost who)).Quiet := by
  rw [step_emptyPost cfg hallowed]
  obtain ⟨hballots, hgraph, hpolls, hreplies⟩ := hquiet
  obtain ⟨-, -, -, -, hreplyCount, -⟩ :=
    s.feed.addPost_topLevel (show (⟨who, [], none, s.blockNumber, none⟩ : Post).parent = none
      from rfl)
  exact ⟨hballots, hgraph, hpolls, hreplyCount.trans hreplies⟩

theorem run_emptyPosts (cfg : Config) (hallowed : s.isAllowed who = true) (n : ℕ) :
    let after := s.run cfg (List.replicate n (emptyPost who))
    after.gate = s.gate ∧ after.blockNumber = s.blockNumber ∧
      after.feed = (List.replicate n ⟨who, [], none, s.blockNumber, none⟩).foldl Feed.addPost
        s.feed := by
  induction n generalizing s with
  | zero => exact ⟨rfl, rfl, rfl⟩
  | succ n ih =>
    have hstep := step_emptyPost cfg hallowed
    have hgate : (s.step cfg (emptyPost who)).gate = s.gate := by
      rw [hstep]
      rfl
    have hallowed' : (s.step cfg (emptyPost who)).isAllowed who = true := by
      rw [isAllowed, hgate]
      exact hallowed
    obtain ⟨hsame, hblock, hfeed⟩ := ih hallowed'
    refine ⟨hsame.trans hgate, hblock.trans ?_, hfeed.trans ?_⟩
    · rw [hstep]
      rfl
    · rw [hstep]
      rfl

/-- Once the ids have run out, a post of another author takes the place of the
last one. -/
theorem Feed.not_listsPosts_of_full {f : Feed} (hfull : f.nextPostId = u64Max)
    {first second : Post} (hne : first.author ≠ second.author) :
    ¬ ((f.addPost first).addPost second).ListsPosts
      (fun seq => ((f.addPost first).addPost second).byAuthor.get (first.author, seq))
      (fun post => post.author = first.author) := by
  rintro ⟨ids, hrows, -, hmem⟩
  have hnext : (f.addPost first).nextPostId = u64Max := by
    have hstep : (f.addPost first).nextPostId = satAdd u64Max f.nextPostId 1 := rfl
    rw [hstep, hfull]
    exact Nat.min_eq_right (Nat.le_succ _)
  have hrow : ((f.addPost first).addPost second).byAuthor.get
      (first.author, f.byAuthorCount.getD first.author 0) = some u64Max := by
    rw [Feed.addPost_byAuthor, get_insert_of_ne _ _
      (fun heq => hne (Prod.mk.inj heq).1), Feed.addPost_byAuthor, get_insert_self, hfull]
  have hlisted : u64Max ∈ ids := List.mem_of_getElem? ((hrows _).symm.trans hrow)
  have hstored : ((f.addPost first).addPost second).posts.get u64Max = some second := by
    rw [Feed.addPost_posts, hnext, get_insert_self]
  have hauthor := (hmem u64Max).mp hlisted
  rw [hstored, Option.any_some, decide_eq_true_eq] at hauthor
  exact hne hauthor.symm

def boundAuthors : List Op :=
  [.nextBlock 0, .call .none (.gate (.linkIdentitySigned ⟨[1, 5], []⟩)),
    .call .none (.gate (.linkIdentitySigned ⟨[2, 6], []⟩))]

def overflowing (n : ℕ) : List Op :=
  List.replicate n (emptyPost ⟨1⟩) ++ [emptyPost ⟨1⟩, emptyPost ⟨2⟩]

theorem boundAuthors_quiet :
    (∀ earlier ∈ boundAuthors.inits, (genesis.run toy earlier).Quiet) ∧
      (genesis.run toy boundAuthors).isAllowed ⟨1⟩ = true ∧
      (genesis.run toy boundAuthors).isAllowed ⟨2⟩ = true ∧
      (genesis.run toy boundAuthors).feed = {} := by
  decide +kernel

theorem overflowing_quiet (n : ℕ) {earlier : List Op} (hearlier : earlier <+: overflowing n) :
    ((genesis.run toy boundAuthors).run toy earlier).Quiet := by
  obtain ⟨hquiet, hfirst, hsecond, -⟩ := boundAuthors_quiet
  have hops : ∀ op ∈ earlier, op = emptyPost ⟨1⟩ ∨ op = emptyPost ⟨2⟩ := by
    intro op hop
    have hmem : op ∈ overflowing n := hearlier.subset hop
    rw [overflowing, List.mem_append, List.mem_replicate] at hmem
    rcases hmem with ⟨-, hop⟩ | hop
    · exact Or.inl hop
    · simpa using hop
  have hrun : Along (step toy)
      (fun _ op => op = emptyPost ⟨1⟩ ∨ op = emptyPost ⟨2⟩)
      (genesis.run toy boundAuthors) earlier := Along.of_forall hops
  refine (hrun.invariant (fun s : Runtime => s.Quiet ∧ s.isAllowed ⟨1⟩ = true ∧
    s.isAllowed ⟨2⟩ = true) ?_ ?_).1
  · rintro s op hop ⟨hs, hone, htwo⟩
    rcases hop with rfl | rfl
    · refine ⟨hs.emptyPost _ hone, ?_⟩
      rw [step_emptyPost _ hone]
      exact ⟨hone, htwo⟩
    · refine ⟨hs.emptyPost _ htwo, ?_⟩
      rw [step_emptyPost _ htwo]
      exact ⟨hone, htwo⟩
  · exact ⟨hquiet boundAuthors ((List.mem_inits _ _).mpr (List.prefix_refl _)), hfirst, hsecond⟩

theorem overflowing_feed (n : ℕ) :
    ∃ block, (genesis.run toy (boundAuthors ++ overflowing n)).feed =
      ((feedOf (List.replicate n ⟨⟨1⟩, [], none, block, none⟩)).addPost
        ⟨⟨1⟩, [], none, block, none⟩).addPost ⟨⟨2⟩, [], none, block, none⟩ := by
  obtain ⟨-, hfirst, hsecond, hfeed⟩ := boundAuthors_quiet
  obtain ⟨hgate, hblock, hposts⟩ := run_emptyPosts toy hfirst n
  have hsplit : genesis.run toy (boundAuthors ++ overflowing n) =
      ((((genesis.run toy boundAuthors).run toy
        (List.replicate n (emptyPost ⟨1⟩))).step toy (emptyPost ⟨1⟩)).step toy
          (emptyPost ⟨2⟩)) := by
    rw [Runtime.run, run_append, overflowing, run_append]
    rfl
  rw [hsplit]
  generalize (genesis.run toy boundAuthors).run toy
    (List.replicate n (emptyPost ⟨1⟩)) = full at hgate hblock hposts ⊢
  have hone : full.isAllowed ⟨1⟩ = true := by
    rw [isAllowed, hgate]
    exact hfirst
  have htwo : full.isAllowed ⟨2⟩ = true := by
    rw [isAllowed, hgate]
    exact hsecond
  refine ⟨(genesis.run toy boundAuthors).blockNumber, ?_⟩
  have hposted := step_emptyPost toy hone
  have hstill : (full.step toy (emptyPost ⟨1⟩)).isAllowed ⟨2⟩ = true := by
    rw [hposted]
    exact htwo
  rw [step_emptyPost toy hstill, hposted, feedOf, ← hfeed, ← hposts, ← hblock]
  rfl

theorem saturated_ids_mix_authors :
    ∃ ops, (∀ earlier, earlier <+: ops →
        (genesis.run toy earlier).CountersBelowMax) ∧
      ¬ ∀ author, (genesis.run toy ops).feed.ListsPosts
        (fun seq => (genesis.run toy ops).feed.byAuthor.get (author, seq))
        (fun post => post.author = author) := by
  refine ⟨boundAuthors ++ overflowing u64Max, fun earlier hearlier => ?_, fun hlists => ?_⟩
  · apply Quiet.countersBelowMax
    rcases List.prefix_or_prefix_of_prefix hearlier (List.prefix_append boundAuthors _) with
      hbefore | ⟨later, rfl⟩
    · exact boundAuthors_quiet.1 earlier ((List.mem_inits _ _).mpr hbefore)
    · rw [Runtime.run, run_append]
      exact overflowing_quiet u64Max ((List.prefix_append_right_inj _).mp hearlier)
  · obtain ⟨block, hfeed⟩ := overflowing_feed u64Max
    have hfull : (feedOf (List.replicate u64Max
        (⟨⟨1⟩, [], none, block, none⟩ : Post))).nextPostId = u64Max := by
      rw [feedOf_nextPostId, List.length_replicate, Nat.min_self]
    have hone := hlists ⟨1⟩
    rw [hfeed] at hone
    have hauthors : (⟨1⟩ : AccountId) ≠ ⟨2⟩ := by decide
    exact Feed.not_listsPosts_of_full hfull hauthors hone

theorem denormalised_state_consistent_two_posts :
    (genesis.run toy (boundAuthors ++ overflowing 0)).checkTallyConsistency = .ok () ∧
      (genesis.run toy (boundAuthors ++ overflowing 0)).feed.nextPostId = 2 := by
  have hall : ∀ earlier ∈ (boundAuthors ++ overflowing 0).inits,
      (genesis.run toy earlier).Quiet ∧
        (genesis.run toy earlier).feed.nextPostId < u64Max := by
    decide +kernel
  refine ⟨(denormalised_state_consistent toy (boundAuthors ++ overflowing 0)
    fun earlier hearlier => ?_).1, by decide +kernel⟩
  obtain ⟨hquiet, hids⟩ := hall earlier ((List.mem_inits _ _).mpr hearlier)
  exact ⟨hquiet.countersBelowMax, hids⟩

end CognoChain
