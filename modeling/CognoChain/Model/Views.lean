import CognoChain.Model.PollView
import CognoChain.Substrate.Bytes

/-!
# Reading the feed

The pages a node serves: the global and following feeds, search, one author's
posts and replies, a post's thread and an account's likes.  Every page is read
newest first below a cursor and hands back the cursor to continue from.  The
fields of a post that the runtime fills from other pallets are left out.
-/

namespace CognoChain

open Substrate

structure QuotedSummary where
  id : ℕ
  author : AccountId
  text : Bytes
deriving DecidableEq

structure EnrichedPost where
  id : ℕ
  author : AccountId
  text : Bytes
  parent : Option ℕ
  quote : Option ℕ
  atBlock : ℕ
  upWeight : ℕ
  downWeight : ℕ
  upCount : ℕ
  downCount : ℕ
  repostCount : ℕ
  replyCount : ℕ
  isPoll : Bool
  myVote : Option VoteDir
  reposted : Bool
  quoted : Option QuotedSummary
deriving DecidableEq

structure FeedPage where
  posts : List EnrichedPost
  nextCursor : Option ℕ
deriving DecidableEq

def FeedPage.ids (page : FeedPage) : List ℕ := page.posts.map EnrichedPost.id

structure Thread where
  ancestors : List EnrichedPost
  focal : Option EnrichedPost
  replies : List EnrichedPost
  repliesNextCursor : Option ℕ
deriving DecidableEq

def maxPage : ℕ := 100
def maxScanFactor : ℕ := 8
def maxThreadDepth : ℕ := 64
def maxThreadReplies : ℕ := 512

def clampLimit (limit : ℕ) : ℕ := max 1 (min limit maxPage)

/-! ## Matching text -/

def toAsciiLowercase (byte : UInt8) : UInt8 :=
  if 65 ≤ byte ∧ byte ≤ 90 then byte + 32 else byte

def eqIgnoreAsciiCase (a b : UInt8) : Bool := toAsciiLowercase a = toAsciiLowercase b

def windows (width : ℕ) (bytes : Bytes) : List Bytes :=
  (bytes.tails.filter (fun rest => width ≤ rest.length)).map (List.take width)

def containsCi (haystack needle : Bytes) : Bool :=
  if needle = [] then true
  else if haystack.length < needle.length then false
  else (windows needle.length haystack).any
    (fun window => (window.zip needle).all (fun pair => eqIgnoreAsciiCase pair.1 pair.2))

/-! ## Scans down an index -/

def startBelow (before : Option ℕ) (next : ℕ) : Option ℕ :=
  match before with
  | some 0 => none
  | some b => some (min b next - 1)
  | none => if next = 0 then none else some (next - 1)

/-- Look at the positions from `pos` down until the page is full, the budget
is spent or the last one has been seen.  The second part is how many were
examined. -/
def scanDown (limit maxScan : ℕ) (look : ℕ → Option EnrichedPost) :
    ℕ → List EnrichedPost → ℕ → FeedPage × ℕ
  | pos, posts, examined =>
      if limit ≤ posts.length ∨ maxScan ≤ examined then
        (⟨posts, some (satAdd u64Max pos 1)⟩, examined)
      else
        match pos with
        | 0 => (⟨posts ++ (look 0).toList, none⟩, examined + 1)
        | below + 1 =>
            scanDown limit maxScan look below (posts ++ (look (below + 1)).toList)
              (examined + 1)

def scanPage (before : Option ℕ) (next limit : ℕ) (look : ℕ → Option EnrichedPost) :
    FeedPage × ℕ :=
  match startBelow before next with
  | none => (⟨[], none⟩, 0)
  | some pos =>
      scanDown (clampLimit limit) (satMul u32Max (clampLimit limit) maxScanFactor) look pos [] 0

/-- The half-open bisection of an index for the first entry not below
`before`.  A missing entry counts as not below. -/
def bisect (get : ℕ → Option ℕ) (before : ℕ) : ℕ → ℕ → ℕ → ℕ
  | 0, lo, _ => lo
  | fuel + 1, lo, hi =>
      if lo < hi then
        let mid := satAdd u64Max lo ((hi - lo) / 2)
        if (get mid).any (fun id => id < before) then
          bisect get before fuel (satAdd u64Max mid 1) hi
        else bisect get before fuel lo mid
      else lo

def authorIndexSeqBelow (count : ℕ) (beforeId : Option ℕ) (get : ℕ → Option ℕ) : ℕ :=
  match beforeId with
  | none => count
  | some before => bisect get before count 0 count

namespace Runtime

/-! ## Enriching posts -/

def postWeighted (s : Runtime) (postId : ℕ) (counts : VoteCounts)
    (stakers : List (AccountId × ℕ)) : ℕ × ℕ :=
  if counts.upCount = 0 ∧ counts.downCount = 0 then (0, 0)
  else stakers.foldl (fun (weights : ℕ × ℕ) staker =>
    match s.ballots.votes.get (postId, staker.1) with
    | some .up => (satAdd u128Max weights.1 staker.2, weights.2)
    | some .down => (weights.1, satAdd u128Max weights.2 staker.2)
    | none => weights) (0, 0)

def enrich (s : Runtime) (id : ℕ) (post : Post) (viewer : Option AccountId)
    (stakers : List (AccountId × ℕ)) : EnrichedPost :=
  let counts := s.ballots.voteTally.getD id default
  let weights := s.postWeighted id counts stakers
  { id := id
    author := post.author
    text := post.text
    parent := post.parent
    quote := post.quote
    atBlock := min post.atBlock u32Max
    upWeight := weights.1
    downWeight := weights.2
    upCount := counts.upCount
    downCount := counts.downCount
    repostCount := 0
    replyCount := s.feed.replyCount.getD id 0
    isPoll := s.polls.polls.contains id
    myVote := viewer.bind (fun who => s.ballots.votes.get (id, who))
    reposted := false
    quoted := post.quote.bind (fun quotedId =>
      (s.feed.posts.get quotedId).map (fun quoted =>
        ⟨quotedId, quoted.author, quoted.text⟩)) }

def enrichedPost (s : Runtime) (id : ℕ) (viewer : Option AccountId)
    (stakers : List (AccountId × ℕ)) : Option EnrichedPost :=
  (s.feed.posts.get id).map (fun post => s.enrich id post viewer stakers)

/-! ## The top-level spine -/

def topLevelAt (s : Runtime) (viewer : Option AccountId) (stakers : List (AccountId × ℕ))
    (keep : Post → Bool) (seq : ℕ) : Option EnrichedPost :=
  (s.feed.topLevelPosts.get seq).bind (fun id =>
    (s.feed.posts.get id).bind (fun post =>
      if keep post then some (s.enrich id post viewer stakers) else none))

def scanTopLevelBySeq (s : Runtime) (before : Option ℕ) (limit : ℕ)
    (viewer : Option AccountId) (stakers : List (AccountId × ℕ)) (keep : Post → Bool) :
    FeedPage × ℕ :=
  scanPage before s.feed.nextTopLevelSeq limit (s.topLevelAt viewer stakers keep)

def feedPage (cfg : Config) (s : Runtime) (before : Option ℕ) (limit : ℕ)
    (viewer : Option AccountId) : FeedPage × ℕ :=
  s.scanTopLevelBySeq before limit viewer (s.stakerWeights cfg) (fun _ => true)

def followingFeedPage (cfg : Config) (s : Runtime) (viewer : AccountId) (before : Option ℕ)
    (limit : ℕ) : FeedPage × ℕ :=
  if s.graph.followingCount.getD viewer 0 = 0 then (⟨[], none⟩, 0)
  else s.scanTopLevelBySeq before limit (some viewer) (s.stakerWeights cfg)
    (fun post => s.graph.following.contains (viewer, post.author))

/-! ## Search -/

def matchAt (s : Runtime) (term : Bytes) (viewer : Option AccountId)
    (stakers : List (AccountId × ℕ)) (id : ℕ) : Option EnrichedPost :=
  (s.feed.posts.get id).bind (fun post =>
    if containsCi post.text term then some (s.enrich id post viewer stakers) else none)

def searchPosts (cfg : Config) (s : Runtime) (term : Bytes) (beforeId : Option ℕ)
    (limit : ℕ) (viewer : Option AccountId) : FeedPage × ℕ :=
  scanPage beforeId s.feed.nextPostId limit (s.matchAt term viewer (s.stakerWeights cfg))

/-! ## One author -/

def authorFeedLoop (s : Runtime) (author : AccountId) (beforeId : Option ℕ) (limit : ℕ)
    (viewer : Option AccountId) (stakers : List (AccountId × ℕ)) :
    ℕ → List EnrichedPost → FeedPage
  | 0, posts => ⟨posts, none⟩
  | seq + 1, posts =>
      match s.feed.topLevelByAuthor.get (author, seq) with
      | none => authorFeedLoop s author beforeId limit viewer stakers seq posts
      | some id =>
          if beforeId.any (fun before => before ≤ id) then
            authorFeedLoop s author beforeId limit viewer stakers seq posts
          else if limit ≤ posts.length then ⟨posts, some (satAdd u64Max id 1)⟩
          else
            authorFeedLoop s author beforeId limit viewer stakers seq
              (posts ++ (s.enrichedPost id viewer stakers).toList)

def authorFeedPage (cfg : Config) (s : Runtime) (author : AccountId) (beforeId : Option ℕ)
    (limit : ℕ) (viewer : Option AccountId) : FeedPage :=
  let count := s.feed.topLevelByAuthorCount.getD author 0
  let seq := authorIndexSeqBelow count beforeId
    (fun seq => s.feed.topLevelByAuthor.get (author, seq))
  s.authorFeedLoop author beforeId (clampLimit limit) viewer (s.stakerWeights cfg) seq []

def authorRepliesLoop (s : Runtime) (author : AccountId) (beforeId : Option ℕ)
    (limit maxScan : ℕ) (viewer : Option AccountId) (stakers : List (AccountId × ℕ)) :
    ℕ → List EnrichedPost → ℕ → FeedPage
  | 0, posts, _ => ⟨posts, none⟩
  | seq + 1, posts, examined =>
      match s.feed.byAuthor.get (author, seq) with
      | none => authorRepliesLoop s author beforeId limit maxScan viewer stakers seq posts examined
      | some id =>
          if beforeId.any (fun before => before ≤ id) then
            authorRepliesLoop s author beforeId limit maxScan viewer stakers seq posts examined
          else if maxScan ≤ examined then ⟨posts, some (satAdd u64Max id 1)⟩
          else
            match s.feed.posts.get id with
            | none =>
                authorRepliesLoop s author beforeId limit maxScan viewer stakers seq posts
                  (examined + 1)
            | some post =>
                if post.parent = none then
                  authorRepliesLoop s author beforeId limit maxScan viewer stakers seq posts
                    (examined + 1)
                else if limit ≤ posts.length then ⟨posts, some (satAdd u64Max id 1)⟩
                else
                  authorRepliesLoop s author beforeId limit maxScan viewer stakers seq
                    (posts ++ [s.enrich id post viewer stakers]) (examined + 1)

def authorRepliesPage (cfg : Config) (s : Runtime) (author : AccountId) (beforeId : Option ℕ)
    (limit : ℕ) (viewer : Option AccountId) : FeedPage :=
  let count := s.feed.byAuthorCount.getD author 0
  let seq := authorIndexSeqBelow count beforeId
    (fun seq => s.feed.byAuthor.get (author, seq))
  s.authorRepliesLoop author beforeId (clampLimit limit)
    (satMul u32Max (clampLimit limit) maxScanFactor) viewer (s.stakerWeights cfg) seq [] 0

/-! ## Threads -/

/-- Walk `limit` reply slots of a parent down from `seq`.  The second part is
the slot the walk stopped above. -/
def repliesLoop (s : Runtime) (parent limit : ℕ) (viewer : Option AccountId)
    (stakers : List (AccountId × ℕ)) :
    ℕ → List EnrichedPost → ℕ → List EnrichedPost × ℕ
  | 0, posts, _ => (posts, 0)
  | seq + 1, posts, examined =>
      if examined < limit then
        repliesLoop s parent limit viewer stakers seq
          (posts ++ ((s.feed.repliesByParentSeq.get (parent, seq)).bind
            (fun id => s.enrichedPost id viewer stakers)).toList) (examined + 1)
      else (posts, seq + 1)

def repliesFromSeq (s : Runtime) (parent : ℕ) (beforeSeq : Option ℕ) (limit : ℕ)
    (viewer : Option AccountId) (stakers : List (AccountId × ℕ)) :
    List EnrichedPost × Option ℕ :=
  let count := s.feed.replyCount.getD parent 0
  let seq :=
    match beforeSeq with
    | some b => min b count
    | none => count
  let walked := s.repliesLoop parent limit viewer stakers seq [] 0
  (walked.1, if 0 < walked.2 then some walked.2 else none)

def repliesPage (cfg : Config) (s : Runtime) (parent : ℕ) (beforeSeq : Option ℕ) (limit : ℕ)
    (viewer : Option AccountId) : FeedPage :=
  let replies := s.repliesFromSeq parent beforeSeq (clampLimit limit) viewer
    (s.stakerWeights cfg)
  ⟨replies.1, replies.2⟩

/-- Follow parents upward, nearest first.  `room` is how many more the depth
cap allows. -/
def ancestorsLoop (s : Runtime) (viewer : Option AccountId) (stakers : List (AccountId × ℕ)) :
    ℕ → List ℕ → Option ℕ → List EnrichedPost
  | 0, _, _ => []
  | _ + 1, _, none => []
  | room + 1, seen, some parent =>
      if parent ∈ seen then []
      else
        match s.enrichedPost parent viewer stakers with
        | none => []
        | some post => post :: ancestorsLoop s viewer stakers room (parent :: seen) post.parent

def thread (cfg : Config) (s : Runtime) (focal : ℕ) (viewer : Option AccountId) : Thread :=
  let stakers := s.stakerWeights cfg
  let focalPost := s.enrichedPost focal viewer stakers
  let ancestors :=
    match focalPost with
    | none => []
    | some post =>
        (s.ancestorsLoop viewer stakers maxThreadDepth [focal] post.parent).reverse
  let replies := s.repliesFromSeq focal none maxThreadReplies viewer stakers
  { ancestors := ancestors
    focal := focalPost
    replies := replies.1.reverse
    repliesNextCursor := replies.2 }

/-! ## Likes -/

/-- The raw second keys of an account's likes, in byte order.  They are stored
unhashed, eight bytes each, the most significant first. -/
def likeKeys (s : Runtime) (who : AccountId) : List Bytes :=
  ((s.ballots.likesByAccount.keys.filter (fun key => key.1 = who)).map
    (fun key => beBytes 8 key.2)).insertionSort (fun a b => a ≤ b)

/-- Iteration from a raw key resumes strictly after it, stored or not. -/
def likeKeysFrom (s : Runtime) (who : AccountId) (after : Bytes) : List Bytes :=
  (s.likeKeys who).filter (fun key => after < key)

def postOfDescKey (key : Bytes) : ℕ := u64Max - beVal key

def likesLoop (s : Runtime) (limit : ℕ) (viewer : Option AccountId)
    (stakers : List (AccountId × ℕ)) : List Bytes → List EnrichedPost → FeedPage
  | [], posts => ⟨posts, none⟩
  | key :: keys, posts =>
      if limit ≤ posts.length then ⟨posts, some (satAdd u64Max (postOfDescKey key) 1)⟩
      else
        likesLoop s limit viewer stakers keys
          (posts ++ (s.enrichedPost (postOfDescKey key) viewer stakers).toList)

def likesPage (cfg : Config) (s : Runtime) (who : AccountId) (beforeId : Option ℕ)
    (limit : ℕ) (viewer : Option AccountId) : FeedPage :=
  let keys :=
    match beforeId with
    | some b => s.likeKeysFrom who (beBytes 8 (descKey b))
    | none => s.likeKeys who
  s.likesLoop (clampLimit limit) viewer (s.stakerWeights cfg) keys []

end Runtime

end CognoChain
