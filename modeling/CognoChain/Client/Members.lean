import CognoChain.Client.Feeds
import CognoChain.Views.Author

/-!
# List timelines

A list page merges one page of each member and continues below the last post it
shows.  While every member answers, the pages hold the members' top-level posts
once each and newest first, because a member that stopped early has filled the
page above the cursor.  A first page with a failed member is an error.  On a later
page a failed member is passed over and its posts above the next cursor are never
asked for again.
-/

namespace CognoChain.Client

open Substrate CognoChain.Runtime

/-! ## One member -/

theorem clampLimit_natCast {target : ℕ} (hpos : 0 < target) (hle : target ≤ maxPage) :
    clampLimit (target : ℚ) = target := by
  have hcast : (0 : ℚ) ≤ (target : ℚ) := Nat.cast_nonneg target
  unfold maxPage at hle
  rw [clampLimit, if_pos hcast, Int.floor_natCast, maxPage]
  omega

theorem clampLimit_clampLimit (limit : ℚ) : clampLimit (clampLimit limit : ℚ) = clampLimit limit :=
  clampLimit_natCast (clampLimit_pos limit) (clampLimit_le limit)

variable {beforeId : Option ℕ} {fetchPage : PageFetcher} {hasViewer : Bool} {limit : ℚ}

/-- A page that is full wherever it hands back a cursor takes one hop. -/
theorem chasePage_one_hop {raw : FeedPageRaw}
    (hfetch : fetchPage beforeId (clampLimit limit) = .ok raw)
    (hfull : raw.nextCursor ≠ none → clampLimit limit ≤ raw.posts.length) :
    chasePage fetchPage beforeId limit hasViewer none none =
      .ok ⟨raw.posts.map (fun e => mapEnrichedPost e hasViewer), raw.nextCursor⟩ := by
  unfold chasePage
  rw [chaseLoop, List.length_nil, Nat.sub_zero, hfetch]
  cases hnext : raw.nextCursor with
  | none => simp [bind, Except.bind, hnext]
  | some nextCursor =>
    have hstop : clampLimit limit ≤ raw.posts.length := hfull (by simp [hnext])
    simp [bind, Except.bind, hnext, hstop]

theorem chasePage_error {reason : Reason}
    (hfetch : fetchPage beforeId (clampLimit limit) = .error reason) :
    chasePage fetchPage beforeId limit hasViewer none none = .error reason := by
  unfold chasePage
  rw [chaseLoop, List.length_nil, Nat.sub_zero, hfetch]
  rfl

/-- The top-level posts of an author, and of any member of a list, by place in
the log. -/
def ownPost (log : List Post) (author : AccountId) (id : ℕ) : Bool :=
  log[id]?.any (fun post => decide (post.author = author ∧ post.parent = none))

def memberPost (log : List Post) (members : List AccountId) (id : ℕ) : Bool :=
  log[id]?.any (fun post => decide (post.author ∈ members ∧ post.parent = none))

theorem any_ownPost (log : List Post) (members : List AccountId) (id : ℕ) :
    members.any (fun author => ownPost log author id) = memberPost log members id := by
  rw [Bool.eq_iff_iff, List.any_eq_true]
  unfold ownPost memberPost
  cases log[id]? with
  | none => simp
  | some post =>
    simp only [Option.any_some, decide_eq_true_eq]
    constructor
    · rintro ⟨author, hmember, rfl, hparent⟩
      exact ⟨hmember, hparent⟩
    · rintro ⟨hmember, hparent⟩
      exact ⟨post.author, hmember, rfl, hparent⟩

theorem ownPost_apart {log : List Post} {author other : AccountId} (hne : author ≠ other) {id : ℕ}
    (hown : ownPost log author id = true) : ownPost log other id = false := by
  unfold ownPost at hown ⊢
  cases hpost : log[id]? with
  | none => rfl
  | some post =>
    rw [hpost, Option.any_some, decide_eq_true_eq] at hown
    rw [Option.any_some, decide_eq_false_iff_not]
    exact fun hboth => hne (hown.1.symm.trans hboth.1)

section Timeline

variable (cfg : Config) (s : Runtime) (viewer : Option AccountId)

/-- The reads of one list page: what the chain serves, except for the members
whose read fails. -/
def authorFetcher (failing : AccountId → Option Reason) (author : AccountId) : PageFetcher :=
  fun beforeId limit =>
    match failing author with
    | some reason => .error reason
    | none => .ok (s.authorFeedPage cfg author beforeId limit viewer)

def memberPage (beforeId : Option ℕ) (limit : ℚ) (author : AccountId) : IdPage :=
  let raw := s.authorFeedPage cfg author beforeId (clampLimit limit) viewer
  ⟨raw.posts.map (fun e => mapEnrichedPost e viewer.isSome), raw.nextCursor⟩

def IdPage.ids (page : IdPage) : List ℕ := page.posts.map CognoPost.id

variable {cfg s viewer} {log : List Post} {failing : AccountId → Option Reason}
  {beforeId : Option ℕ} {limit : ℚ} {author : AccountId} {members : List AccountId} {page : IdPage}

theorem memberPage_ids : (memberPage cfg s viewer beforeId limit author).ids =
    (s.authorFeedPage cfg author beforeId (clampLimit limit) viewer).ids := by
  simp [memberPage, IdPage.ids, FeedPage.ids, mapEnrichedPost]

theorem runtime_clampLimit (limit : ℚ) :
    CognoChain.clampLimit (clampLimit limit) = clampLimit limit := by
  have hpos := clampLimit_pos limit
  have hle := clampLimit_le limit
  unfold maxPage at hle
  rw [CognoChain.clampLimit, CognoChain.maxPage]
  omega

theorem memberPage_reads (hrecords : s.feed.Records log) (hroom : log.length < u64Max)
    (cfg : Config) (viewer : Option AccountId) (beforeId : Option ℕ) (limit : ℚ)
    (author : AccountId) :
    Reads (Option.guard (ownPost log author)) (cursorBound log.length beforeId)
      (memberPage cfg s viewer beforeId limit author).ids
      (memberPage cfg s viewer beforeId limit author).nextCursor ∧
    ((memberPage cfg s viewer beforeId limit author).nextCursor ≠ none →
      clampLimit limit ≤ (memberPage cfg s viewer beforeId limit author).ids.length) := by
  obtain ⟨hreads, hshort⟩ := authorFeedPage_reads hrecords hroom cfg author beforeId
    (clampLimit limit) viewer
  rw [runtime_clampLimit] at hshort
  rw [memberPage_ids]
  refine ⟨hreads, fun hmore => ?_⟩
  rw [FeedPage.ids, List.length_map]
  exact Nat.le_of_not_lt (fun hlt => hmore (hshort hlt))

theorem nodeAuthorFeedPage_answers (hrecords : s.feed.Records log) (hroom : log.length < u64Max)
    (hanswers : failing author = none) :
    nodeAuthorFeedPage (authorFetcher cfg s viewer failing) author beforeId (clampLimit limit)
        viewer.isSome =
      .ok (memberPage cfg s viewer beforeId limit author) := by
  have hfull := (memberPage_reads hrecords hroom cfg viewer beforeId limit author).2
  rw [memberPage_ids, FeedPage.ids, List.length_map] at hfull
  refine chasePage_one_hop ?_ ?_
  · rw [clampLimit_clampLimit]
    simp [authorFetcher, hanswers]
  · rw [clampLimit_clampLimit]
    exact hfull

theorem nodeAuthorFeedPage_fails {reason : Reason} (hfails : failing author = some reason) :
    nodeAuthorFeedPage (authorFetcher cfg s viewer failing) author beforeId (clampLimit limit)
        viewer.isSome = .error reason :=
  chasePage_error (by simp [authorFetcher, hfails])

/-! ## All members -/

theorem mergePosts_sorted (pages : List IdPage) :
    ((mergePosts pages).map CognoPost.id).Pairwise (· ≥ ·) := by
  have : Std.Total (fun a b : CognoPost => b.id ≤ a.id) := ⟨fun a b => Nat.le_total b.id a.id⟩
  have : IsTrans CognoPost (fun a b : CognoPost => b.id ≤ a.id) :=
    ⟨fun a b c hab hbc => hbc.trans hab⟩
  rw [List.pairwise_map]
  exact List.pairwise_insertionSort _ _

theorem mergePosts_perm (pages : List IdPage) :
    ((mergePosts pages).map CognoPost.id).Perm (pages.flatMap IdPage.ids) := by
  have hperm := (List.perm_insertionSort (fun a b : CognoPost => b.id ≤ a.id)
    (pages.flatMap IdPage.posts)).map CognoPost.id
  rwa [List.map_flatMap] at hperm

section

variable (hrecords : s.feed.Records log) (hroom : log.length < u64Max)
include hrecords hroom

theorem memberPages_merge (cfg : Config) (viewer : Option AccountId) (beforeId : Option ℕ)
    (limit : ℚ) (hdistinct : members.Nodup) :
    MergesPages (ownPost log) (cursorBound log.length beforeId) (clampLimit limit) members
      (fun author => (memberPage cfg s viewer beforeId limit author).ids)
      (fun author => (memberPage cfg s viewer beforeId limit author).nextCursor)
      ((mergePosts (members.map (memberPage cfg s viewer beforeId limit))).map CognoPost.id) where
  reads author _ := (memberPage_reads hrecords hroom cfg viewer beforeId limit author).1
  full author _ := (memberPage_reads hrecords hroom cfg viewer beforeId limit author).2
  apart := hdistinct.imp (fun hne _ hown => ownPost_apart hne hown)
  perm := by
    have hperm := mergePosts_perm (members.map (memberPage cfg s viewer beforeId limit))
    rwa [List.flatMap_map] at hperm
  sorted := mergePosts_sorted _

theorem membersPage_ok (hsize : members.length ≤ maxFeedMembers)
    (hanswers : ∀ author ∈ members, failing author = none)
    (hpage : nodeMembersFeedPage (authorFetcher cfg s viewer failing) members beforeId limit viewer.isSome = .ok page) :
    let merged := mergePosts (members.map (memberPage cfg s viewer beforeId limit))
    page.posts = merged.take (clampLimit limit) ∧
      ((page.nextCursor = none ∧ merged.length ≤ clampLimit limit ∧
          ∀ author ∈ members, (memberPage cfg s viewer beforeId limit author).nextCursor = none) ∨
        ∃ last, (merged.take (clampLimit limit)).getLast? = some last ∧
          page.nextCursor = some last.id) := by
  intro merged
  have hsettled : members.map (fun m => nodeAuthorFeedPage (authorFetcher cfg s viewer failing) m
      beforeId (clampLimit limit) viewer.isSome) =
      (members.map (memberPage cfg s viewer beforeId limit)).map Except.ok := by
    rw [List.map_map]
    exact List.map_congr_left
      (fun m hm => nodeAuthorFeedPage_answers hrecords hroom (hanswers m hm))
  have hpages (pages : List IdPage) :
      (pages.map (Except.ok : IdPage → Except Reason IdPage)).filterMap Except.toOption = pages := by
    rw [List.filterMap_map]
    exact List.filterMap_some
  unfold nodeMembersFeedPage at hpage
  dsimp only at hpage
  rw [List.take_of_length_le hsize, hsettled, hpages, List.length_map] at hpage
  by_cases hempty : members = []
  · subst hempty
    obtain rfl := Except.ok.inj hpage
    have hmerged : merged = [] := rfl
    rw [hmerged]
    exact ⟨by simp, Or.inl ⟨rfl, Nat.zero_le _, by simp⟩⟩
  have hread : (members.map (memberPage cfg s viewer beforeId limit)).isEmpty = false := by
    simpa using hempty
  rw [if_neg (by simpa using hempty), hread] at hpage
  simp only [ne_eq, not_true_eq_false, decide_false, Bool.false_and, Bool.or_false,
    Bool.false_eq_true, if_false] at hpage
  -- nothing is left where the page is not cut and no member has more
  have hend : ¬ (decide ((merged.take (clampLimit limit)).length < merged.length) ||
      (members.map (memberPage cfg s viewer beforeId limit)).any
        (fun p => p.nextCursor.isSome)) = true →
      merged.length ≤ clampLimit limit ∧
        ∀ author ∈ members,
          (memberPage cfg s viewer beforeId limit author).nextCursor = none := by
    intro hdone
    simp only [Bool.or_eq_true, decide_eq_true_eq, List.length_take, not_or, List.any_map,
      List.any_eq_true, Function.comp_apply, not_exists, not_and, Bool.not_eq_true,
      Option.isSome_eq_false_iff, Option.isNone_iff_eq_none] at hdone
    exact ⟨by omega, hdone.2⟩
  split at hpage
  · split_ifs at hpage with hmore
    obtain rfl := Except.ok.inj hpage
    exact ⟨rfl, Or.inl ⟨rfl, hend hmore⟩⟩
  · rename_i last hlast
    obtain rfl := Except.ok.inj hpage
    refine ⟨rfl, ?_⟩
    split_ifs with hmore
    · exact Or.inr ⟨last, hlast, rfl⟩
    · exact Or.inl ⟨rfl, hend hmore⟩

theorem membersPage_reads (hdistinct : members.Nodup) (hsize : members.length ≤ maxFeedMembers)
    (hanswers : ∀ author ∈ members, failing author = none)
    (hpage : nodeMembersFeedPage (authorFetcher cfg s viewer failing) members beforeId limit viewer.isSome = .ok page) :
    Reads (Option.guard (memberPost log members)) (cursorBound log.length beforeId) page.ids
      page.nextCursor := by
  have hmerge := memberPages_merge hrecords hroom cfg viewer beforeId limit hdistinct
  have hlive : (fun id => members.any (fun author => ownPost log author id)) =
      memberPost log members := funext (any_ownPost log members)
  obtain ⟨hposts, ⟨hnext, hfits, hlast⟩ | ⟨last, hlast, hnext⟩⟩ :=
    membersPage_ok hrecords hroom hsize hanswers hpage
  · have hreads := hmerge.reads_last hlast
    rw [List.take_of_length_le hfits] at hposts
    rwa [hlive, ← hposts, ← hnext] at hreads
  · have hend := congrArg (Option.map CognoPost.id) hlast
    rw [← List.getLast?_map, List.map_take] at hend
    have hreads := hmerge.reads_take hend
    rwa [hlive, ← List.map_take, ← hposts, ← hnext] at hreads

end

theorem firstPage_answers (hsize : members.length ≤ maxFeedMembers)
    (hpage : nodeMembersFeedPage (authorFetcher cfg s viewer failing) members none limit viewer.isSome = .ok page) :
    ∀ author ∈ members, failing author = none := by
  intro author hmember
  by_contra hfails
  obtain ⟨reason, hreason⟩ := Option.ne_none_iff_exists'.mp hfails
  unfold nodeMembersFeedPage at hpage
  dsimp only at hpage
  rw [List.take_of_length_le hsize, if_neg (by simpa using List.ne_nil_of_mem hmember)] at hpage
  generalize hsettled : members.map (fun m => nodeAuthorFeedPage
    (authorFetcher cfg s viewer failing) m none (clampLimit limit) viewer.isSome) = settled at hpage
  have hrejected : Except.error reason ∈ settled := by
    rw [← hsettled, ← nodeAuthorFeedPage_fails hreason]
    exact List.mem_map_of_mem hmember
  have hfewer : settled.length ≠ (settled.filterMap Except.toOption).length := by
    intro heq
    have hall := List.filterMap_length_eq_length.mp heq.symm _ hrejected
    cases hall
  rw [if_pos (by simp [hfewer])] at hpage
  cases hpage

end Timeline

/-! ## A whole timeline -/

def nextCursorOf : Except Reason IdPage → Option ℕ
  | .ok page => page.nextCursor
  | .error _ => none

def idsOf : Except Reason IdPage → List ℕ
  | .ok page => page.ids
  | .error _ => []

abbrev TimelinePages (cfg : Config) (s : Runtime) (viewer : Option AccountId)
    (members : List AccountId) (limit : ℚ) (failures : ℕ → AccountId → Option Reason)
    (cursor : Option ℕ) (pages : List (Except Reason IdPage)) : Prop :=
  Chase (fun failing cursor => nodeMembersFeedPage (authorFetcher cfg s viewer failing) members
    cursor limit viewer.isSome) nextCursorOf failures cursor pages

def leftOf (log : List Post) (members : List AccountId) (cursor : Option ℕ) : List ℕ :=
  (countdown 0 (cursorBound log.length cursor)).filterMap (Option.guard (memberPost log members))

section Whole

variable {cfg : Config} {s : Runtime} {viewer : Option AccountId} {log : List Post}
  {members : List AccountId} {limit : ℚ} {failing : AccountId → Option Reason}

section

variable (hrecords : s.feed.Records log) (hroom : log.length < u64Max) (hdistinct : members.Nodup)
  (hsize : members.length ≤ maxFeedMembers) {cursor : Option ℕ}
include hrecords hroom hdistinct hsize

theorem answeredPage_continues (hanswers : ∀ author ∈ members, failing author = none)
    (hok : ∃ page, nodeMembersFeedPage (authorFetcher cfg s viewer failing) members cursor limit viewer.isSome = .ok page) :
    let r := nodeMembersFeedPage (authorFetcher cfg s viewer failing) members cursor limit
      viewer.isSome
    Continues (leftOf log members) cursor (idsOf r) (nextCursorOf r) := by
  obtain ⟨page, hpage⟩ := hok
  intro r
  have hr : r = .ok page := hpage
  rw [hr]
  exact (membersPage_reads hrecords hroom hdistinct hsize hanswers hpage).continues

theorem answeredPages_eq {failures : ℕ → AccountId → Option Reason}
    {pages : List (Except Reason IdPage)}
    (hpages : TimelinePages cfg s viewer members limit failures cursor pages)
    (hok : ∀ r ∈ pages, ∃ page, r = .ok page)
    (hanswers : ∀ n < pages.length, ∀ author ∈ members, failures n author = none) :
    pages.flatMap idsOf = leftOf log members cursor :=
  hpages.flatMap_eq (fun n hn _ hmem =>
    answeredPage_continues hrecords hroom hdistinct hsize (hanswers n hn) (hok _ hmem))

end

end Whole

def takingTurns : List Op :=
  [.nextBlock 0,
    .call .none (.gate (.linkIdentitySigned ⟨[1, 5], []⟩)),
    .call .none (.gate (.linkIdentitySigned ⟨[2, 6], []⟩)),
    .call (.signed ⟨2⟩) (.microblog (.postMessage [97] none)),
    .call (.signed ⟨1⟩) (.microblog (.postMessage [98] none)),
    .call (.signed ⟨2⟩) (.microblog (.postMessage [99] none)),
    .call (.signed ⟨1⟩) (.microblog (.postMessage [100] none))]

def bothMembers : List AccountId := [⟨1⟩, ⟨2⟩]

def oneBlip (n : ℕ) (author : AccountId) : Option Reason :=
  if n = 1 ∧ author = ⟨2⟩ then some .other else none

def turnsPage (limit : ℚ) (failing : AccountId → Option Reason) (cursor : Option ℕ) :
    Except Reason IdPage :=
  nodeMembersFeedPage (authorFetcher Config.toy (genesis.run Config.toy takingTurns) none
    failing) bothMembers cursor limit false

theorem forall_ok_of_isSome {pages : List (Except Reason IdPage)}
    (h : pages.all (fun r => r.toOption.isSome) = true) : ∀ r ∈ pages, ∃ page, r = .ok page := by
  intro r hmem
  have hsome := List.all_eq_true.mp h r hmem
  cases r with
  | error reason => cases hsome
  | ok page => exact ⟨page, rfl⟩

end CognoChain.Client
