import Mathlib.Data.Rat.Floor
import CognoChain.Model.Views

/-!
# Feeds in the app

How the app turns the pages a node serves into the pages it shows: one page is
chased together from several reads, flagged, and stripped of what the operator
does not serve.  A read may fail, and what it was rejected with goes through.
Cursors travel as decimal text, here as the numbers they spell.
-/

namespace CognoChain.Client

open Substrate

inductive Reason
  | error (message : String)
  | other
deriving DecidableEq

abbrev FeedPageRaw := CognoChain.FeedPage

abbrev PageFetcher := Option ℕ → ℕ → Except Reason FeedPageRaw

/-- The post another one quotes; a quote the node could not resolve has neither
author nor text. -/
structure QuotedRef where
  id : ℕ
  author : Option AccountId
  text : Bytes
  authorRevoked : Bool
deriving DecidableEq

structure CognoPost where
  id : ℕ
  author : AccountId
  text : Bytes
  parent : Option ℕ
  atBlock : ℕ
  upWeight : ℕ
  downWeight : ℕ
  upCount : ℕ
  downCount : ℕ
  score : ℤ
  replyCount : ℕ
  myVote : Option (Option VoteDir)
  isPoll : Bool
  quote : Option QuotedRef
  authorRevoked : Option Bool
deriving DecidableEq

def mapQuoted (q : QuotedSummary) : QuotedRef := ⟨q.id, some q.author, q.text, false⟩

/-- The vote of the viewer is stamped only where the read had a viewer. -/
def mapEnrichedPost (e : EnrichedPost) (hasViewer : Bool) : CognoPost where
  id := e.id
  author := e.author
  text := e.text
  parent := e.parent
  atBlock := e.atBlock
  upWeight := e.upWeight
  downWeight := e.downWeight
  upCount := e.upCount
  downCount := e.downCount
  score := (e.upWeight : ℤ) - e.downWeight
  replyCount := e.replyCount
  myVote := if hasViewer then some e.myVote else none
  isPoll := e.isPoll
  quote := e.quote.map (fun id => (e.quoted.map mapQuoted).getD ⟨id, none, [], false⟩)
  authorRevoked := none

/-! ## Chasing one page -/

def maxPage : ℕ := 100

/-- A page size rounded towards zero and brought into the range the node serves. -/
def clampLimit (limit : ℚ) : ℕ :=
  (min (max 1 (if 0 ≤ limit then ⌊limit⌋ else ⌈limit⌉)) maxPage).toNat

def maxChaseHops : ℕ := 64

def maxEmptyChaseHops : ℕ := 256

structure IdPage where
  posts : List CognoPost
  nextCursor : Option ℕ
deriving DecidableEq

def hopCap (maxHops : Option ℤ) (posts : List CognoPost) : ℤ :=
  maxHops.getD (if posts.isEmpty then maxEmptyChaseHops else maxChaseHops)

/-- The loop of a chase.  The first argument bounds its hops: the last of them is
at the cap, so the loop never ends on it. -/
def chaseLoop (fetchPage : PageFetcher) (target : ℕ) (hasViewer : Bool) (maxHops : Option ℤ)
    (keep : CognoPost → Bool) : ℕ → ℕ → Option ℕ → List CognoPost → Except Reason IdPage
  | left, hop, cursor, posts => do
      let raw ← fetchPage cursor (target - posts.length)
      let posts := posts ++ (raw.posts.map (fun e => mapEnrichedPost e hasViewer)).filter keep
      match raw.nextCursor with
      | none => .ok ⟨posts, none⟩
      | some nextCursor =>
          if target ≤ posts.length ∨ hopCap maxHops posts ≤ hop + 1 then
            .ok ⟨posts, some nextCursor⟩
          else
            match left with
            | 0 => .ok ⟨posts, some nextCursor⟩
            | left + 1 =>
                chaseLoop fetchPage target hasViewer maxHops keep left (hop + 1)
                  (some nextCursor) posts

def chasePage (fetchPage : PageFetcher) (beforeId : Option ℕ) (limit : ℚ) (hasViewer : Bool)
    (maxHops : Option ℤ) (keep : Option (CognoPost → Bool)) : Except Reason IdPage :=
  chaseLoop fetchPage (clampLimit limit) hasViewer maxHops (keep.getD (fun _ => true))
    (maxHops.elim maxEmptyChaseHops Int.toNat) 0 beforeId []

/-! ## List timelines -/

def maxFeedMembers : ℕ := 32

/-- The first rejection that was an error, else an error of the list's own. -/
def memberReadFailure (settled : List (Except Reason IdPage)) : Reason :=
  (settled.findSome? (fun r =>
    match r with
    | .error (.error message) => some (Reason.error message)
    | _ => none)).getD (.error "Couldn't load this list's posts.")

def nodeAuthorFeedPage (authorFeedPage : AccountId → PageFetcher) (author : AccountId)
    (beforeId : Option ℕ) (limit : ℚ) (hasViewer : Bool) : Except Reason IdPage :=
  chasePage (authorFeedPage author) beforeId limit hasViewer none none

def mergePosts (pages : List IdPage) : List CognoPost :=
  (pages.flatMap IdPage.posts).insertionSort (fun a b => b.id ≤ a.id)

/-- The cursor is the last id shown, so a page that shows nothing and has more
fails. -/
def nodeMembersFeedPage (authorFeedPage : AccountId → PageFetcher) (members : List AccountId)
    (beforeId : Option ℕ) (limit : ℚ) (hasViewer : Bool) : Except Reason IdPage :=
  let inScope := members.take maxFeedMembers
  if inScope.isEmpty then .ok ⟨[], none⟩
  else
    let target := clampLimit limit
    let settled := inScope.map
      (fun m => nodeAuthorFeedPage authorFeedPage m beforeId target hasViewer)
    let pages := settled.filterMap Except.toOption
    let anyMemberFailed := decide (settled.length ≠ pages.length)
    if pages.isEmpty || (anyMemberFailed && beforeId.isNone) then
      .error (memberReadFailure settled)
    else
      let merged := mergePosts pages
      let slice := merged.take target
      let anyMemberHasMore := pages.any (fun p => p.nextCursor.isSome)
      let truncated := decide (slice.length < merged.length)
      let hasMore := truncated || anyMemberHasMore || anyMemberFailed
      match slice.getLast? with
      | none => if hasMore then .error (memberReadFailure settled) else .ok ⟨slice, none⟩
      | some last => .ok ⟨slice, if hasMore then some last.id else none⟩

/-! ## Shown pages -/

structure FeedPage where
  posts : List CognoPost
  endCursor : Option ℕ
  hasNextPage : Bool
  totalCount : Option ℕ
deriving DecidableEq

structure FeedQuery where
  first : Option ℚ
  after : Option ℕ
  viewer : Option AccountId
deriving DecidableEq

def defaultFirst : ℚ := 50

def flagRevocations (revoked : AccountId → Bool) (posts : List CognoPost) : List CognoPost :=
  posts.map (fun p => { p with authorRevoked := some (revoked p.author) })

def toFeedPage (revoked : AccountId → Bool) (idp : IdPage) : FeedPage where
  posts := flagRevocations revoked idp.posts
  endCursor := idp.nextCursor
  hasNextPage := idp.nextCursor.isSome
  totalCount := none

/-- One page of a feed: the reads it is chased through, the hops it may take and
the posts it keeps depend on the feed. -/
def page (revoked : AccountId → Bool) (fetchPage : PageFetcher) (maxHops : Option ℤ)
    (keep : Option (CognoPost → Bool)) (q : FeedQuery) : Except Reason FeedPage := do
  let idp ← chasePage fetchPage q.after (q.first.getD defaultFirst) q.viewer.isSome maxHops keep
  .ok (toFeedPage revoked idp)

/-! ## What is not served -/

structure Denylist where
  authors : List AccountId
  posts : List ℕ
deriving DecidableEq

def Denylist.isDenied (denylist : Denylist) (post : CognoPost) : Bool :=
  decide (post.id ∈ denylist.posts) || decide (post.author ∈ denylist.authors)

def filterDenied (denylist : Denylist) (posts : List CognoPost) : List CognoPost :=
  posts.filter (fun p => !denylist.isDenied p)

def maxTopUp : ℕ := 3

/-- While a page came with posts and lost them all, read the next one. -/
def topUp (denylist : Denylist) (source : FeedQuery → Except Reason FeedPage) (q : FeedQuery) :
    ℕ → FeedPage → Except Reason FeedPage
  | 0, pg => .ok pg
  | hops + 1, pg =>
      if !pg.posts.isEmpty && (filterDenied denylist pg.posts).isEmpty && pg.hasNextPage &&
          pg.endCursor.isSome then do
        let later ← source { q with after := pg.endCursor }
        topUp denylist source q hops later
      else .ok pg

def withServeDenylist (denylist : Denylist) (source : FeedQuery → Except Reason FeedPage)
    (q : FeedQuery) : Except Reason FeedPage := do
  let first ← source q
  let pg ← topUp denylist source q maxTopUp first
  let kept := filterDenied denylist pg.posts
  .ok { pg with
    posts := kept
    totalCount := pg.totalCount.map (fun _ => kept.length) }

end CognoChain.Client
