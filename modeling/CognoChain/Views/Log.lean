import CognoChain.Model.Views
import CognoChain.Social
import CognoChain.Substrate.AppendLog

/-!
# The feed as a log of posts

Posts are only ever added, so the feed of a reached state is what its posts,
in the order they were made, leave behind.  As long as the id counter has not
reached its maximum every index of the feed is the list of the places it is
for.
-/

namespace CognoChain

open Substrate CognoChain.Runtime

def feedOf (log : List Post) : Feed := log.foldl Feed.addPost {}

theorem feedOf_concat (log : List Post) (post : Post) :
    feedOf (log ++ [post]) = (feedOf log).addPost post := by
  rw [feedOf, List.foldl_append]
  rfl

/-! ## Growth -/

/-- A later feed holds more posts, and the same ones before them. -/
def Feed.Grows (f g : Feed) : Prop := ∃ more : List Post, g = more.foldl Feed.addPost f

theorem Feed.Grows.refl (f : Feed) : f.Grows f := ⟨[], rfl⟩

variable {f g : Feed} {s : Runtime} {p : Post → Bool} {read : Runtime → Option ℕ → FeedPage}
  {states : ℕ → Runtime}

theorem Feed.Grows.trans {h : Feed} (hfg : f.Grows g) (hgh : g.Grows h) : f.Grows h := by
  obtain ⟨more, rfl⟩ := hfg
  obtain ⟨later, rfl⟩ := hgh
  exact ⟨more ++ later, by rw [List.foldl_append]⟩

theorem Feed.grows_addPost (f : Feed) (post : Post) : f.Grows (f.addPost post) := ⟨[post], rfl⟩

variable {log : List Post}

theorem Feed.Grows.feedOf (hgrows : (feedOf log).Grows g) :
    ∃ later, log <+: later ∧ g = CognoChain.feedOf later := by
  obtain ⟨more, rfl⟩ := hgrows
  exact ⟨log ++ more, List.prefix_append _ _, by rw [CognoChain.feedOf, CognoChain.feedOf,
    List.foldl_append]⟩

theorem SocialStep.feed_grows {cfg : Config} {op : Op} {after : Social}
    (hstep : SocialStep cfg s op after) : s.feed.Grows after.feed := by
  cases hstep with
  | post post => exact s.feed.grows_addPost post
  | createPoll who question poll hcreated =>
    exact s.feed.grows_addPost ⟨who, question, none, s.blockNumber, none⟩
  | _ => exact .refl _

theorem Runtime.run_feed_grows (cfg : Config) (s : Runtime) (ops : List Op) :
    s.feed.Grows (s.run cfg ops).feed := by
  apply run_invariant (fun t : Runtime => s.feed.Grows t.feed) ops
  · intro before op hbefore
    exact hbefore.trans (step_socialStep op).feed_grows
  · exact .refl _

theorem Runtime.run_feed_log (cfg : Config) (ops : List Op) :
    ∃ log, (genesis.run cfg ops).feed = feedOf log := by
  obtain ⟨more, hmore⟩ := run_feed_grows cfg .genesis ops
  exact ⟨more, hmore⟩

namespace Feed

variable {f : Feed} {log : List Post} {post : Post} {parent : ℕ}

theorem addPost_posts (f : Feed) (post : Post) :
    (f.addPost post).posts = f.posts.insert f.nextPostId post := by
  unfold addPost
  cases post.parent <;> rfl

theorem addPost_byAuthor (f : Feed) (post : Post) :
    (f.addPost post).byAuthor =
      f.byAuthor.insert (post.author, f.byAuthorCount.getD post.author 0) f.nextPostId := by
  unfold addPost
  cases post.parent <;> rfl

theorem addPost_byAuthorCount (f : Feed) (post : Post) :
    (f.addPost post).byAuthorCount =
      f.byAuthorCount.insert post.author
        (satAdd u64Max (f.byAuthorCount.getD post.author 0) 1) := by
  unfold addPost
  cases post.parent <;> rfl

theorem addPost_topLevel (f : Feed) (hparent : post.parent = none) :
    (f.addPost post).topLevelPosts = f.topLevelPosts.insert f.nextTopLevelSeq f.nextPostId ∧
      (f.addPost post).nextTopLevelSeq = satAdd u64Max f.nextTopLevelSeq 1 ∧
      (f.addPost post).topLevelByAuthor = f.topLevelByAuthor.insert
        (post.author, f.topLevelByAuthorCount.getD post.author 0) f.nextPostId ∧
      (f.addPost post).topLevelByAuthorCount = f.topLevelByAuthorCount.insert post.author
        (satAdd u64Max (f.topLevelByAuthorCount.getD post.author 0) 1) ∧
      (f.addPost post).replyCount = f.replyCount ∧
      (f.addPost post).repliesByParent = f.repliesByParent ∧
      (f.addPost post).repliesByParentSeq = f.repliesByParentSeq := by
  unfold addPost
  rw [hparent]
  exact ⟨rfl, rfl, rfl, rfl, rfl, rfl, rfl⟩

theorem addPost_reply (f : Feed) (hparent : post.parent = some parent) :
    (f.addPost post).topLevelPosts = f.topLevelPosts ∧
      (f.addPost post).nextTopLevelSeq = f.nextTopLevelSeq ∧
      (f.addPost post).topLevelByAuthor = f.topLevelByAuthor ∧
      (f.addPost post).topLevelByAuthorCount = f.topLevelByAuthorCount ∧
      (f.addPost post).replyCount =
        f.replyCount.insert parent (satAdd u32Max (f.replyCount.getD parent 0) 1) ∧
      (f.addPost post).repliesByParent = f.repliesByParent.insert (parent, f.nextPostId) () ∧
      (f.addPost post).repliesByParentSeq =
        f.repliesByParentSeq.insert (parent, f.replyCount.getD parent 0) f.nextPostId := by
  unfold addPost
  rw [hparent]
  exact ⟨rfl, rfl, rfl, rfl, rfl, rfl, rfl⟩

/-! ## What a feed records -/

def byAuthorIn (log : List Post) (author : AccountId) : List ℕ :=
  log.findIdxs (fun post => post.author = author)

def topLevelByAuthorIn (log : List Post) (author : AccountId) : List ℕ :=
  log.findIdxs (fun post => post.author = author ∧ post.parent = none)

def topLevelIn (log : List Post) : List ℕ := log.findIdxs (fun post => post.parent = none)

def repliesIn (log : List Post) (parent : ℕ) : List ℕ :=
  log.findIdxs (fun post => post.parent = some parent)

/-- The feed stores the log and indexes it.  A reply spine is only right as
long as its counter has not saturated. -/
structure Records (f : Feed) (log : List Post) : Prop where
  nextPostId : f.nextPostId = log.length
  posts : ∀ id, f.posts.get id = log[id]?
  byAuthor : ∀ author, Numbers (fun seq => f.byAuthor.get (author, seq))
    (f.byAuthorCount.getD author 0) (byAuthorIn log author)
  topLevelByAuthor : ∀ author, Numbers (fun seq => f.topLevelByAuthor.get (author, seq))
    (f.topLevelByAuthorCount.getD author 0) (topLevelByAuthorIn log author)
  topLevelPosts : Numbers f.topLevelPosts.get f.nextTopLevelSeq (topLevelIn log)
  repliesByParent : ∀ parent id, (f.repliesByParent.get (parent, id)).isSome ↔
    id ∈ repliesIn log parent
  replyCount : ∀ parent, f.replyCount.getD parent 0 = min (repliesIn log parent).length u32Max
  replies : ∀ parent, (repliesIn log parent).length ≤ u32Max →
    Numbers (fun seq => f.repliesByParentSeq.get (parent, seq)) (f.replyCount.getD parent 0)
      (repliesIn log parent)

theorem records_empty : Records {} [] where
  nextPostId := rfl
  posts := fun _ => rfl
  byAuthor := fun _ => .empty
  topLevelByAuthor := fun _ => .empty
  topLevelPosts := .empty
  repliesByParent := fun _ _ => ⟨nofun, nofun⟩
  replyCount := fun _ => rfl
  replies := fun _ _ => .empty

section

variable (log)

theorem byAuthorIn_concat (post : Post) (author : AccountId) :
    byAuthorIn (log ++ [post]) author =
      byAuthorIn log author ++ if post.author = author then [log.length] else [] := by
  simp only [byAuthorIn, findIdxs_concat, decide_eq_true_eq]

theorem topLevelByAuthorIn_concat (hparent : post.parent = none) (author : AccountId) :
    topLevelByAuthorIn (log ++ [post]) author =
      topLevelByAuthorIn log author ++ if post.author = author then [log.length] else [] := by
  simp only [topLevelByAuthorIn, findIdxs_concat, hparent, and_true, decide_eq_true_eq]

theorem topLevelByAuthorIn_reply (hparent : post.parent = some parent) (author : AccountId) :
    topLevelByAuthorIn (log ++ [post]) author = topLevelByAuthorIn log author := by
  simp [topLevelByAuthorIn, hparent]

theorem topLevelIn_concat (hparent : post.parent = none) :
    topLevelIn (log ++ [post]) = topLevelIn log ++ [log.length] := by
  simp [topLevelIn, hparent]

theorem topLevelIn_reply (hparent : post.parent = some parent) :
    topLevelIn (log ++ [post]) = topLevelIn log := by
  simp [topLevelIn, hparent]

theorem repliesIn_topLevel (hparent : post.parent = none) (parent : ℕ) :
    repliesIn (log ++ [post]) parent = repliesIn log parent := by
  simp [repliesIn, hparent]

theorem repliesIn_concat {target : ℕ} (hparent : post.parent = some target) (parent : ℕ) :
    repliesIn (log ++ [post]) parent =
      repliesIn log parent ++ if target = parent then [log.length] else [] := by
  simp only [repliesIn, findIdxs_concat, hparent, Option.some.injEq, decide_eq_true_eq]

end

theorem findIdxs_length_le (p : Post → Bool) :
    (log.findIdxs p).length ≤ log.length := by
  rw [List.length_findIdxs]
  exact List.countP_le_length

theorem Records.addPost (hrecords : f.Records log) (hroom : log.length < u64Max) (post : Post) :
    (f.addPost post).Records (log ++ [post]) := by
  have hbound : ∀ p : Post → Bool, (log.findIdxs p).length < u64Max :=
    fun p => Nat.lt_of_le_of_lt (findIdxs_length_le p) hroom
  have hid : f.nextPostId = log.length := hrecords.nextPostId
  have hnextId : (f.addPost post).nextPostId = (log ++ [post]).length := by
    have hstep : (f.addPost post).nextPostId = satAdd u64Max f.nextPostId 1 := rfl
    rw [hstep, hid, satAdd_succ_of_lt hroom, List.length_append, List.length_singleton]
  have hposts : ∀ id, (f.addPost post).posts.get id = (log ++ [post])[id]? := by
    have hrows : Numbers f.posts.get log.length log := ⟨hrecords.posts, rfl⟩
    rw [addPost_posts, hid]
    exact (hrows.insert post).row_eq
  have hbyAuthor : ∀ author, Numbers (fun seq => (f.addPost post).byAuthor.get (author, seq))
      ((f.addPost post).byAuthorCount.getD author 0) (byAuthorIn (log ++ [post]) author) := by
    intro author
    rw [addPost_byAuthor, addPost_byAuthorCount, byAuthorIn_concat, hid]
    exact (hrecords.byAuthor author).insert_keyed post.author u64Max (fun _ => hbound _) _
  cases hparent : post.parent with
  | none =>
    obtain ⟨hspine, hseq, hauthor, hcount, hreplyCount, hreplies, hreplySeq⟩ :=
      f.addPost_topLevel hparent
    refine ⟨hnextId, hposts, hbyAuthor, ?_, ?_, ?_, ?_, ?_⟩
    · intro author
      rw [hauthor, hcount, topLevelByAuthorIn_concat log hparent, hid]
      exact (hrecords.topLevelByAuthor author).insert_keyed post.author u64Max
        (fun _ => hbound _) _
    · have hfree : f.nextTopLevelSeq < u64Max := by
        rw [hrecords.topLevelPosts.count_eq]
        exact hbound _
      rw [hspine, hseq, satAdd_succ_of_lt hfree, topLevelIn_concat log hparent, hid]
      exact hrecords.topLevelPosts.insert _
    · simpa only [hreplies, repliesIn_topLevel log hparent] using hrecords.repliesByParent
    · simpa only [hreplyCount, repliesIn_topLevel log hparent] using hrecords.replyCount
    · simpa only [hreplyCount, hreplySeq, repliesIn_topLevel log hparent] using hrecords.replies
  | some target =>
    obtain ⟨hspine, hseq, hauthor, hcount, hreplyCount, hreplies, hreplySeq⟩ :=
      f.addPost_reply hparent
    refine ⟨hnextId, hposts, hbyAuthor, ?_, ?_, ?_, ?_, ?_⟩
    · simpa only [hauthor, hcount, topLevelByAuthorIn_reply log hparent] using
        hrecords.topLevelByAuthor
    · rw [hspine, hseq, topLevelIn_reply log hparent]
      exact hrecords.topLevelPosts
    · intro parent id
      rw [hreplies, repliesIn_concat log hparent, hid, StorageMap.get_insert]
      have hold := hrecords.repliesByParent parent id
      by_cases hkey : (parent, id) = (target, log.length)
      · obtain ⟨rfl, rfl⟩ := Prod.mk.inj hkey
        simp
      · rw [if_neg hkey, hold]
        by_cases htarget : target = parent
        · have hne : id ≠ log.length := fun h => hkey (by rw [htarget, h])
          simp [htarget, hne]
        · simp [htarget]
    · intro parent
      rw [hreplyCount, repliesIn_concat log hparent, StorageMap.getD_insert]
      by_cases htarget : parent = target
      · rw [if_pos htarget, if_pos htarget.symm, ← htarget, hrecords.replyCount,
          List.length_append, List.length_singleton]
        exact satAdd_min_succ _ _
      · rw [if_neg htarget, if_neg (Ne.symm htarget), List.append_nil, hrecords.replyCount]
    · intro parent hcapped
      rw [hreplyCount, hreplySeq, repliesIn_concat log hparent, hid]
      rw [repliesIn_concat log hparent, List.length_append] at hcapped
      refine (hrecords.replies parent (by omega)).insert_keyed target u32Max ?_ _
      intro htarget
      rw [if_pos htarget, List.length_singleton] at hcapped
      omega

end Feed

theorem feedOf_records (hroom : log.length ≤ u64Max) :
    (feedOf log).Records log := by
  induction log using List.reverseRecOn with
  | nil => exact Feed.records_empty
  | append_singleton log post ih =>
    rw [List.length_append, List.length_singleton] at hroom
    rw [feedOf_concat]
    exact (ih (by omega)).addPost (by omega) post

/-! ## Saturation -/

theorem feedOf_nextPostId (log : List Post) :
    (feedOf log).nextPostId = min log.length u64Max := by
  induction log using List.reverseRecOn with
  | nil => rfl
  | append_singleton log post ih =>
    have hstep : ((feedOf log).addPost post).nextPostId =
        satAdd u64Max (feedOf log).nextPostId 1 := rfl
    rw [feedOf_concat, hstep, ih, List.length_append, List.length_singleton]
    exact satAdd_min_succ _ _

theorem records_of_nextPostId (hids : (feedOf log).nextPostId < u64Max) :
    (feedOf log).Records log := by
  rw [feedOf_nextPostId] at hids
  exact feedOf_records (by omega)

/-! ## Reading while others write -/

/-- The states in which a client reads its pages; `between n` happens after
page `n`. -/
def Runtime.readings (cfg : Config) (s : Runtime) (between : ℕ → List Op) : ℕ → Runtime
  | 0 => s
  | n + 1 => (readings cfg s between n).run cfg (between n)

theorem Runtime.readings_invariant (cfg : Config) (inv : Runtime → Prop) (between : ℕ → List Op)
    (hstep : ∀ s op, inv s → inv (s.step cfg op)) (hinit : inv s) (n : ℕ) :
    inv (s.readings cfg between n) := by
  induction n with
  | zero => exact hinit
  | succ n ih => exact run_invariant inv (between n) hstep ih

theorem Runtime.readings_feed_grows (cfg : Config) (s : Runtime) (between : ℕ → List Op)
    (n : ℕ) : s.feed.Grows (s.readings cfg between n).feed := by
  induction n with
  | zero => exact .refl _
  | succ n ih => exact ih.trans (run_feed_grows cfg _ (between n))

theorem Runtime.readings_records (cfg : Config) (ops : List Op) (between : ℕ → List Op)
    (hids : ∀ n,
      ((genesis.run cfg ops).readings cfg between n).feed.nextPostId < u64Max) :
    ∃ log : ℕ → List Post,
      (∀ n, ((genesis.run cfg ops).readings cfg between n).feed.Records (log n)) ∧
        (∀ n, (log n).length < u64Max) ∧ ∀ n, log 0 <+: log n := by
  obtain ⟨first, hfirst⟩ := run_feed_log cfg ops
  have hlater : ∀ n, ∃ later, first <+: later ∧
      ((genesis.run cfg ops).readings cfg between n).feed = feedOf later := by
    intro n
    have hgrows := readings_feed_grows cfg (genesis.run cfg ops) between n
    rw [hfirst] at hgrows
    exact hgrows.feedOf
  choose later hextends hfeed using hlater
  let log : ℕ → List Post := fun n => if n = 0 then first else later n
  have hlog : ∀ n, ((genesis.run cfg ops).readings cfg between n).feed =
      feedOf (log n) := by
    intro n
    cases n with
    | zero => exact hfirst
    | succ n => exact hfeed (n + 1)
  have hrecords : ∀ n,
      ((genesis.run cfg ops).readings cfg between n).feed.Records (log n) := by
    intro n
    have hbelow := hids n
    rw [hlog n] at hbelow ⊢
    exact records_of_nextPostId hbelow
  refine ⟨log, hrecords, fun n => ?_, fun n => ?_⟩
  · rw [← (hrecords n).nextPostId]
    exact hids n
  · cases n with
    | zero => exact List.prefix_refl _
    | succ n => exact hextends (n + 1)

/-- The ids of the stored posts that satisfy `p`, the newest first. -/
structure NewestFirst (f : Feed) (p : Post → Bool) (ids : List ℕ) : Prop where
  descending : ids.Pairwise (· > ·)
  mem_iff : ∀ id, id ∈ ids ↔ (f.posts.get id).any p = true

theorem Feed.Records.newestFirst (hrecords : f.Records log) (p : Post → Bool) :
    NewestFirst f p (log.findIdxs p).reverse where
  descending := List.pairwise_reverse.mpr List.pairwise_findIdxs
  mem_iff id := by rw [List.mem_reverse, mem_findIdxs, hrecords.posts]

/-- Pages that go through the places of a log for the posts that satisfy `p`. -/
abbrev PlacePages (read : Runtime → Option ℕ → FeedPage) (states : ℕ → Runtime)
    (log : ℕ → List Post) (p : Post → Bool) : Prop :=
  PagesOf read FeedPage.nextCursor FeedPage.ids states
    (fun n => Option.guard (fun id => (log n)[id]?.any p)) (fun n => (log n).length)

theorem PlacePages.exists_listed {log : ℕ → List Post} (hpages : PlacePages read states log p)
    (hextends : ∀ n, log 0 <+: log n) (cursor : Option ℕ) :
    ∃ pages, Chase read FeedPage.nextCursor states cursor pages ∧
      pages.flatMap FeedPage.ids = (countdown 0 (cursorBound (log 0).length cursor)).filterMap
        (Option.guard (fun id => (log 0)[id]?.any p)) := by
  have hbound : cursorBound (log 0).length cursor ≤ (log 0).length := Nat.min_le_right _ _
  refine PagesOf.exists_listed hpages cursor
    (fun n => Nat.le_trans hbound (hextends n).length_le) (fun n id hid => ?_)
  rw [Option.guard, Option.guard, getElem?_of_extends (hextends n) (Nat.lt_of_lt_of_le hid hbound)]

theorem PlacePages.exists_newestFirst {log : ℕ → List Post} (hpages : PlacePages read states log p)
    (hextends : ∀ n, log 0 <+: log n) (hrecords : (states 0).feed.Records (log 0)) :
    ∃ pages, Chase read FeedPage.nextCursor states none pages ∧
      NewestFirst (states 0).feed p (pages.flatMap FeedPage.ids) := by
  obtain ⟨pages, hchase, hlisted⟩ := hpages.exists_listed hextends none
  rw [cursorBound_none, filterMap_countdown_places] at hlisted
  refine ⟨pages, hchase, ?_⟩
  rw [hlisted]
  exact hrecords.newestFirst p

end CognoChain
