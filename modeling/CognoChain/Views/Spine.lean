import CognoChain.Social.Follows
import CognoChain.Views.Log

/-!
# Feeds that scan a spine

The global feed, the following feed and search look at positions one by one
from the newest down.  A page stops when it is full or when its scan budget is
spent, and hands back the position it stopped above, so a chase of the cursors
sees every position once.
-/

namespace CognoChain

open Substrate CognoChain.Runtime Config FeedPage

/-! ## One scan -/

section Scan

variable {limit maxScan : ℕ} {look : ℕ → Option EnrichedPost} {examined : ℕ}

theorem scanDown_stop {pos : ℕ} {posts : List EnrichedPost} (hpos : pos < u64Max)
    (hstop : limit ≤ posts.length ∨ maxScan ≤ examined) :
    scanDown limit maxScan look pos posts examined = (⟨posts, some (pos + 1)⟩, examined) := by
  unfold scanDown
  rw [if_pos hstop, satAdd_succ_of_lt hpos]

theorem scanDown_zero {posts : List EnrichedPost}
    (hgoes : ¬ (limit ≤ posts.length ∨ maxScan ≤ examined)) :
    scanDown limit maxScan look 0 posts examined =
      (⟨posts ++ (look 0).toList, none⟩, examined + 1) := by
  rw [scanDown, if_neg hgoes]

theorem scanDown_spec (limit maxScan : ℕ) (look : ℕ → Option EnrichedPost) (pos : ℕ)
    (posts : List EnrichedPost) (examined : ℕ) (hpos : pos < u64Max) :
    let page := (scanDown limit maxScan look pos posts examined).1
    page.ids = posts.map EnrichedPost.id ++
        (countdown (page.nextCursor.getD 0) (pos + 1)).filterMap
          (fun seq => (look seq).map EnrichedPost.id) ∧
      (∀ lo, page.nextCursor = some lo → lo ≤ pos + 1) ∧
      (posts.length < limit → examined < maxScan →
        ∀ lo, page.nextCursor = some lo → lo < pos + 1) := by
  have hlisted : ∀ (seq : ℕ) (rest : List ℕ),
      (seq :: rest).filterMap (fun seq => (look seq).map EnrichedPost.id) =
        (look seq).toList.map EnrichedPost.id ++
          rest.filterMap (fun seq => (look seq).map EnrichedPost.id) := by
    intro seq rest
    cases hlook : look seq <;> simp [hlook]
  induction pos generalizing posts examined with
  | zero =>
    by_cases hstop : limit ≤ posts.length ∨ maxScan ≤ examined
    · rw [scanDown_stop hpos hstop]
      simp [ids]
      omega
    · rw [scanDown_zero hstop]
      refine ⟨?_, nofun, nofun⟩
      rw [ids, List.map_append, Option.getD_none, countdown_succ (Nat.le_refl 0),
        hlisted, countdown_self, List.filterMap_nil, List.append_nil]
  | succ pos ih =>
    by_cases hstop : limit ≤ posts.length ∨ maxScan ≤ examined
    · rw [scanDown_stop hpos hstop]
      simp [ids]
      omega
    · have hstep : scanDown limit maxScan look (pos + 1) posts examined =
          scanDown limit maxScan look pos (posts ++ (look (pos + 1)).toList)
            (examined + 1) := by
        rw [scanDown, if_neg hstop]
      obtain ⟨hids, hle, -⟩ := ih (posts ++ (look (pos + 1)).toList) (examined + 1) (by omega)
      rw [hstep]
      dsimp only at hids hle ⊢
      generalize (scanDown limit maxScan look pos (posts ++ (look (pos + 1)).toList)
        (examined + 1)).1 = page at hids hle ⊢
      have hlow : page.nextCursor.getD 0 ≤ pos + 1 := by
        cases hnext : page.nextCursor with
        | none => exact Nat.zero_le _
        | some lo => exact hle lo hnext
      refine ⟨?_, fun lo hlo => Nat.le_succ_of_le (hle lo hlo),
        fun _ _ lo hlo => Nat.lt_succ_of_le (hle lo hlo)⟩
      rw [hids, countdown_succ hlow, hlisted, List.map_append, List.append_assoc]

theorem scanDown_examined (pos : ℕ) (posts : List EnrichedPost) (hexamined : examined ≤ maxScan) :
    (scanDown limit maxScan look pos posts examined).2 ≤ maxScan := by
  induction pos generalizing posts examined with
  | zero =>
    unfold scanDown
    split_ifs with hstop
    · exact hexamined
    · rw [not_or, Nat.not_le, Nat.not_le] at hstop
      exact hstop.2
  | succ pos ih =>
    unfold scanDown
    split_ifs with hstop
    · exact hexamined
    · rw [not_or, Nat.not_le, Nat.not_le] at hstop
      exact ih _ hstop.2

end Scan

/-! ## One page -/

section Page

variable {next limit : ℕ} {look : ℕ → Option EnrichedPost}

theorem clampLimit_pos (limit : ℕ) : 0 < clampLimit limit := Nat.le_max_left _ _

theorem scanBudget (limit : ℕ) :
    satMul u32Max (clampLimit limit) maxScanFactor = clampLimit limit * maxScanFactor := by
  refine Nat.min_eq_left ?_
  have hle : clampLimit limit ≤ maxPage :=
    Nat.max_le.mpr ⟨by decide, Nat.min_le_right _ _⟩
  exact Nat.le_trans (Nat.mul_le_mul_right maxScanFactor hle) (by decide)

theorem scanBudget_pos (limit : ℕ) : 0 < satMul u32Max (clampLimit limit) maxScanFactor := by
  rw [scanBudget]
  exact Nat.mul_pos (clampLimit_pos limit) (by decide)

theorem scanDown_reads {maxScan pos : ℕ} (hlimit : 0 < limit) (hscan : 0 < maxScan)
    (hpos : pos < u64Max) :
    Reads (fun seq => (look seq).map EnrichedPost.id) (pos + 1)
      (scanDown limit maxScan look pos [] 0).1.ids
      (scanDown limit maxScan look pos [] 0).1.nextCursor := by
  obtain ⟨hids, -, hlt⟩ := scanDown_spec limit maxScan look pos [] 0 hpos
  exact ⟨by simpa using hids, hlt hlimit hscan⟩

theorem scanPage_reads (before : Option ℕ) (limit : ℕ) (hnext : next ≤ u64Max)
    (hempty : next = 0 → look 0 = none) :
    Reads (fun seq => (look seq).map EnrichedPost.id) (cursorBound next before)
      (scanPage before next limit look).1.ids (scanPage before next limit look).1.nextCursor := by
  have hnothing : Reads (fun seq => (look seq).map EnrichedPost.id) 0 [] none := ⟨rfl, nofun⟩
  have hscan : ∀ pos, pos + 1 ≤ next →
      Reads (fun seq => (look seq).map EnrichedPost.id) (pos + 1)
        (scanDown (clampLimit limit) (satMul u32Max (clampLimit limit) maxScanFactor) look pos
          [] 0).1.ids
        (scanDown (clampLimit limit) (satMul u32Max (clampLimit limit) maxScanFactor) look pos
          [] 0).1.nextCursor :=
    fun pos hpos => scanDown_reads (clampLimit_pos limit) (scanBudget_pos limit) (by omega)
  unfold scanPage
  match before with
  | none =>
    rw [cursorBound_none]
    cases next with
    | zero => exact hnothing
    | succ pos => exact hscan pos (Nat.le_refl _)
  | some 0 =>
    rw [cursorBound_some, Nat.zero_min]
    exact hnothing
  | some (b + 1) =>
    rw [cursorBound_some]
    cases next with
    | zero =>
      -- the scan of an empty spine still looks at its first position
      have hstart : startBelow (some (b + 1)) 0 = some 0 := by simp [startBelow]
      have hgoes : ¬ (clampLimit limit ≤ ([] : List EnrichedPost).length ∨
          satMul u32Max (clampLimit limit) maxScanFactor ≤ 0) :=
        not_or.mpr ⟨Nat.not_le.mpr (clampLimit_pos limit),
          Nat.not_le.mpr (scanBudget_pos limit)⟩
      rw [hstart]
      dsimp only
      rw [scanDown_zero hgoes, hempty rfl]
      exact hnothing
    | succ top =>
      have hstart : startBelow (some (b + 1)) (top + 1) = some (min b top) := by
        simp [startBelow]
      rw [hstart, Nat.succ_min_succ]
      exact hscan (min b top) (Nat.succ_le_succ (Nat.min_le_right b top))

theorem scanPage_examined (before : Option ℕ) (next limit : ℕ) (look : ℕ → Option EnrichedPost) :
    (scanPage before next limit look).2 ≤ clampLimit limit * maxScanFactor := by
  rw [← scanBudget]
  unfold scanPage
  split
  · exact Nat.zero_le _
  · exact scanDown_examined _ _ (Nat.zero_le _)

end Page

/-! ## The top-level spine -/

def spineAt (log : List Post) (keep : Post → Bool) (seq : ℕ) : Option ℕ :=
  (Feed.topLevelIn log)[seq]?.bind (fun id => if log[id]?.any keep then some id else none)

section Spine

variable {s : Runtime} {first later log : List Post} {keep : Post → Bool} {seq : ℕ}

theorem topLevelAt_id (hrecords : s.feed.Records log) (viewer : Option AccountId)
    (stakers : List (AccountId × ℕ)) (keep : Post → Bool) (seq : ℕ) :
    (s.topLevelAt viewer stakers keep seq).map EnrichedPost.id = spineAt log keep seq := by
  unfold topLevelAt spineAt
  rw [hrecords.topLevelPosts.row_eq]
  cases (Feed.topLevelIn log)[seq]? with
  | none => rfl
  | some id =>
    rw [Option.bind_some, Option.bind_some, hrecords.posts]
    cases log[id]? with
    | none => rfl
    | some post =>
      simp only [Option.bind_some, Option.any_some]
      split_ifs <;> rfl

theorem spineAt_of_extends (hextends : first <+: later)
    (hseq : seq < (Feed.topLevelIn first).length) :
    spineAt later keep seq = spineAt first keep seq := by
  have hspine : (Feed.topLevelIn later)[seq]? = (Feed.topLevelIn first)[seq]? :=
    getElem?_of_extends (findIdxs_mono hextends) hseq
  unfold spineAt
  rw [hspine]
  cases hid : (Feed.topLevelIn first)[seq]? with
  | none => rfl
  | some id =>
    have hlt : id < first.length := by
      have hmem : id ∈ Feed.topLevelIn first := List.mem_of_getElem? hid
      simpa using List.lt_add_of_mem_findIdxs id hmem
    rw [Option.bind_some, Option.bind_some, getElem?_of_extends hextends hlt]

theorem spineAt_listed (log : List Post) (keep : Post → Bool) :
    (countdown 0 (Feed.topLevelIn log).length).filterMap (spineAt log keep) =
      (log.findIdxs (fun post => decide (post.parent = none) && keep post)).reverse := by
  unfold spineAt
  rw [filterMap_countdown, ← findIdxs_filter, ← List.filterMap_eq_filter]
  congr 1

theorem spine_chase {read : Runtime → Option ℕ → FeedPage} {states : ℕ → Runtime}
    {log : ℕ → List Post} (hextends : ∀ n, log 0 <+: log n)
    (hrecords : (states 0).feed.Records (log 0))
    (hpages : PagesOf read nextCursor ids states
      (fun n => spineAt (log n) keep) (fun n => (Feed.topLevelIn (log n)).length)) :
    ∃ pages, Chase read nextCursor states none pages ∧
      NewestFirst (states 0).feed (fun post => decide (post.parent = none) && keep post)
        (pages.flatMap ids) := by
  obtain ⟨pages, hchase, hlisted⟩ := hpages.exists_listed none
    (fun n => by
      rw [cursorBound_none]
      exact (findIdxs_mono (hextends n)).length_le)
    (fun n seq hseq => by
      rw [cursorBound_none] at hseq
      exact spineAt_of_extends (hextends n) hseq)
  rw [cursorBound_none, spineAt_listed] at hlisted
  exact ⟨pages, hchase, hlisted ▸ hrecords.newestFirst _⟩

theorem scanTopLevelBySeq_reads (hrecords : s.feed.Records log) (hroom : log.length < u64Max)
    (before : Option ℕ) (limit : ℕ) (viewer : Option AccountId)
    (stakers : List (AccountId × ℕ)) (keep : Post → Bool) :
    Reads (spineAt log keep) (cursorBound (Feed.topLevelIn log).length before)
      (s.scanTopLevelBySeq before limit viewer stakers keep).1.ids
      (s.scanTopLevelBySeq before limit viewer stakers keep).1.nextCursor := by
  have hcount : s.feed.nextTopLevelSeq = (Feed.topLevelIn log).length :=
    hrecords.topLevelPosts.count_eq
  have hnext : s.feed.nextTopLevelSeq ≤ u64Max := by
    rw [hcount]
    exact Nat.le_of_lt (Nat.lt_of_le_of_lt (Feed.findIdxs_length_le _) hroom)
  have hempty : s.feed.nextTopLevelSeq = 0 → s.topLevelAt viewer stakers keep 0 = none := by
    intro hzero
    have hnone : s.feed.topLevelPosts.get 0 = none := by
      rw [hrecords.topLevelPosts.row_eq, List.getElem?_eq_none_iff, ← hcount, hzero]
    rw [topLevelAt, hnone]
    rfl
  have hreads := scanPage_reads before limit hnext hempty
  simp only [topLevelAt_id hrecords] at hreads
  rw [← hcount]
  exact hreads

end Spine

/-! ## The three feeds -/

section Feeds

variable {cfg : Config} {s : Runtime} {log : List Post} {viewer : AccountId}

theorem followingFeedPage_reads (hrecords : s.feed.Records log) (hroom : log.length < u64Max)
    (hcounts : s.graph.CountsFollowing viewer) (before : Option ℕ) (limit : ℕ) :
    Reads (spineAt log (fun post => s.graph.following.contains (viewer, post.author)))
      (cursorBound (Feed.topLevelIn log).length before)
      (s.followingFeedPage cfg viewer before limit).1.ids
      (s.followingFeedPage cfg viewer before limit).1.nextCursor := by
  unfold followingFeedPage
  split_ifs with hzero
  · have hnobody : ∀ post : Post,
        s.graph.following.contains (viewer, post.author) = false := by
      intro post
      exact StorageMap.contains_eq_false_iff.mpr (Degree.get_eq_none hcounts hzero post.author)
    refine ⟨?_, nofun⟩
    have hnone : ∀ seq, spineAt log
        (fun post => s.graph.following.contains (viewer, post.author)) seq = none := by
      intro seq
      simp only [spineAt, hnobody]
      cases (Feed.topLevelIn log)[seq]? with
      | none => rfl
      | some id => cases log[id]? <;> simp
    exact (List.filterMap_eq_nil_iff.mpr (fun seq _ => hnone seq)).symm
  · exact scanTopLevelBySeq_reads hrecords hroom before limit _ _ _

theorem matchAt_id (hrecords : s.feed.Records log) (term : Bytes) (viewer : Option AccountId)
    (stakers : List (AccountId × ℕ)) (id : ℕ) :
    (s.matchAt term viewer stakers id).map EnrichedPost.id =
      Option.guard (fun id => log[id]?.any (fun post => containsCi post.text term)) id := by
  rw [matchAt, hrecords.posts, Option.guard]
  cases log[id]? with
  | none => rfl
  | some post =>
    simp only [Option.bind_some, Option.any_some]
    split_ifs <;> rfl

theorem searchPosts_reads (hrecords : s.feed.Records log) (hroom : log.length < u64Max)
    (term : Bytes) (beforeId : Option ℕ) (limit : ℕ) (viewer : Option AccountId) :
    Reads (Option.guard (fun id => log[id]?.any (fun post => containsCi post.text term)))
      (cursorBound log.length beforeId)
      (s.searchPosts cfg term beforeId limit viewer).1.ids
      (s.searchPosts cfg term beforeId limit viewer).1.nextCursor := by
  have hcount : s.feed.nextPostId = log.length := hrecords.nextPostId
  have hempty : s.feed.nextPostId = 0 →
      s.matchAt term viewer (s.stakerWeights cfg) 0 = none := by
    intro hzero
    have hnone : s.feed.posts.get 0 = none := by
      rw [hrecords.posts, List.getElem?_eq_none_iff, ← hcount, hzero]
    rw [matchAt, hnone]
    rfl
  have hreads := scanPage_reads beforeId limit (by rw [hcount]; omega) hempty
  simp only [matchAt_id hrecords] at hreads
  rw [← hcount]
  exact hreads

end Feeds

theorem readings_countsFollowing {cfg : Config} {ops : List Op} {between : ℕ → List Op}
    {viewer : AccountId}
    (hops : Along (step cfg) (fun s _ => s.FollowsBelowMax viewer) .genesis ops)
    (hbetween : ∀ n, Along (step cfg) (fun s _ => s.FollowsBelowMax viewer)
      ((genesis.run cfg ops).readings cfg between n) (between n)) (n : ℕ) :
    ((genesis.run cfg ops).readings cfg between n).graph.CountsFollowing viewer := by
  induction n with
  | zero => exact run_countsFollowing hops (Degree.empty viewer)
  | succ n ih => exact run_countsFollowing (hbetween n) ih

/-- Chasing the global feed, the following feed or a search from the head ends
and lists the matching posts of the first reading, newest first, whatever is
written between the pages; a call examines at most its scan budget. -/
theorem spine_feeds_complete (cfg : Config) (ops : List Op) (between : ℕ → List Op) (limit : ℕ)
    (hids : ∀ n,
      ((genesis.run cfg ops).readings cfg between n).feed.nextPostId < u64Max) :
    let first := genesis.run cfg ops
    let states := first.readings cfg between
    (∀ viewer, ∃ pages,
      Chase (fun s before => (s.feedPage cfg before limit viewer).1) nextCursor states
          none pages ∧
        NewestFirst first.feed (fun post => decide (post.parent = none))
          (pages.flatMap ids)) ∧
    (∀ viewer,
      Along (step cfg) (fun s _ => s.FollowsBelowMax viewer) .genesis ops →
      (∀ n, Along (step cfg) (fun s _ => s.FollowsBelowMax viewer) (states n)
        (between n)) →
      (∀ n author, (states n).graph.following.contains (viewer, author) =
        first.graph.following.contains (viewer, author)) →
      ∃ pages,
        Chase (fun s before => (s.followingFeedPage cfg viewer before limit).1)
            nextCursor states none pages ∧
          NewestFirst first.feed
            (fun post => decide (post.parent = none) &&
              first.graph.following.contains (viewer, post.author))
            (pages.flatMap ids)) ∧
    (∀ term viewer, ∃ pages,
      Chase (fun s before => (s.searchPosts cfg term before limit viewer).1)
          nextCursor states none pages ∧
        NewestFirst first.feed (fun post => containsCi post.text term)
          (pages.flatMap ids)) ∧
    ∀ (s : Runtime) (before : Option ℕ) (viewer : Option AccountId) (follower : AccountId)
        (term : Bytes),
      (s.feedPage cfg before limit viewer).2 ≤ clampLimit limit * maxScanFactor ∧
      (s.followingFeedPage cfg follower before limit).2 ≤ clampLimit limit * maxScanFactor ∧
      (s.searchPosts cfg term before limit viewer).2 ≤ clampLimit limit * maxScanFactor := by
  intro first states
  obtain ⟨log, hrecords, hroom, hextends⟩ := readings_records cfg ops between hids
  refine ⟨?_, ?_, ?_, ?_⟩
  · intro viewer
    have hreads : PagesOf (fun s before => (s.feedPage cfg before limit viewer).1)
        nextCursor ids states (fun n => spineAt (log n) (fun _ => true))
        (fun n => (Feed.topLevelIn (log n)).length) :=
      fun n before => scanTopLevelBySeq_reads (hrecords n) (hroom n) before limit viewer _ _
    have hchase := spine_chase hextends (hrecords 0) hreads
    simp only [Bool.and_true] at hchase
    exact hchase
  · intro viewer hops hbetween hfollows
    have hreads : PagesOf (fun s before => (s.followingFeedPage cfg viewer before limit).1)
        nextCursor ids states
        (fun n => spineAt (log n)
          (fun post => first.graph.following.contains (viewer, post.author)))
        (fun n => (Feed.topLevelIn (log n)).length) := by
      intro n before
      simp only [← hfollows n]
      exact followingFeedPage_reads (hrecords n) (hroom n)
        (readings_countsFollowing hops hbetween n) before limit
    exact spine_chase hextends (hrecords 0) hreads
  · intro term viewer
    have hreads : PlacePages (fun s before => (s.searchPosts cfg term before limit viewer).1)
        states log (fun post => containsCi post.text term) :=
      fun n before => searchPosts_reads (hrecords n) (hroom n) term before limit viewer
    exact hreads.exists_newestFirst hextends (hrecords 0)
  · intro s before viewer follower term
    refine ⟨scanPage_examined _ _ _ _, ?_, scanPage_examined _ _ _ _⟩
    unfold followingFeedPage
    split_ifs
    · exact Nat.zero_le _
    · exact scanPage_examined _ _ _ _

def chatter : List Op :=
  [.nextBlock 0,
    .call .none (.gate (.linkIdentitySigned ⟨[1, 5], []⟩)),
    .call .none (.gate (.linkIdentitySigned ⟨[2, 6], []⟩)),
    .call (.signed ⟨1⟩) (.microblog (.postMessage [97] none)),
    .call (.signed ⟨2⟩) (.microblog (.postMessage [98] (some 0))),
    .call (.signed ⟨2⟩) (.microblog (.postMessage [65, 98] none)),
    .call (.signed ⟨1⟩) (.microblog (.follow ⟨2⟩))]

def interruption : ℕ → List Op
  | 0 => [.call (.signed ⟨2⟩) (.microblog (.postMessage [97] none))]
  | _ + 1 => []

theorem chatter_readings (n : ℕ) :
    (genesis.run toy chatter).readings toy interruption (n + 1) =
      (genesis.run toy (chatter ++ interruption 0)) := by
  induction n with
  | zero => exact (run_append _ _ _).symm
  | succ n ih => exact ih

theorem chatter_ids (n : ℕ) :
    ((genesis.run toy chatter).readings toy interruption n).feed.nextPostId <
      u64Max := by
  cases n with
  | zero => decide +kernel
  | succ n =>
    rw [chatter_readings]
    decide +kernel

theorem spine_feeds_complete_chatter :
    ((genesis.run toy chatter).searchPosts toy [97] none 1 none).1.ids =
        [2] ∧
      ∃ pages,
        Chase (fun s before => (s.searchPosts toy [97] before 1 none).1)
            nextCursor
            ((genesis.run toy chatter).readings toy interruption) none
            pages ∧
          NewestFirst (genesis.run toy chatter).feed
            (fun post => containsCi post.text [97]) (pages.flatMap ids) := by
  refine ⟨by decide +kernel, ?_⟩
  obtain ⟨-, -, hsearch, -⟩ := spine_feeds_complete toy chatter interruption 1 chatter_ids
  exact hsearch [97] none

theorem zero_limit_examines :
    0 * maxScanFactor <
      ((genesis.run toy chatter).feedPage toy none 0 none).2 := by
  decide +kernel

end CognoChain
