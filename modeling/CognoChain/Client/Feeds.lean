import CognoChain.Model.Feeds
import CognoChain.Substrate.Paging
import CognoChain.Substrate.Reader

/-!
# Reading a feed to its end

A chased page is the next pages of the stream seen through the feed's lens, and
topping up passes over pages of which nothing is served.  So the shown pages are
again pages of a stream: read one after another they end, and together they are
the kept and served posts of the snapshot.
-/

namespace CognoChain.Client

open Substrate

/-! ## Fetchers -/

/-- What a fetcher reads from: posts by position, the newest first. -/
structure Snapshot where
  rows : List (ℕ × EnrichedPost)
  descending : rows.Pairwise (fun row later => later.1 < row.1)

def Snapshot.below (snapshot : Snapshot) (cursor : Option ℕ) : List EnrichedPost :=
  (snapshot.rows.filter (fun row => cursor.all (fun b => row.1 < b))).map Prod.snd

/-- A fetcher answers every request for at least one post with at most that many
of the next posts, and continues below the cursor it hands back. -/
def Serves (snapshot : Snapshot) (fetchPage : PageFetcher) : Prop :=
  ∀ cursor limit, 0 < limit → ∃ raw, fetchPage cursor limit = .ok raw ∧
    raw.posts.length ≤ limit ∧ Continues snapshot.below cursor raw.posts raw.nextCursor

theorem clampLimit_pos (limit : ℚ) : 0 < clampLimit limit := by
  unfold clampLimit maxPage
  omega

theorem clampLimit_le (limit : ℚ) : clampLimit limit ≤ maxPage := by
  unfold clampLimit maxPage
  omega

/-! ## The chase -/

section Chasing

variable {snapshot : Snapshot} {fetchPage : PageFetcher} {hasViewer : Bool}
  {keep : CognoPost → Bool} {target : ℕ} {maxHops : Option ℤ} {cursor : Option ℕ}
  {posts : List CognoPost}

theorem hopCap_le (maxHops : Option ℤ) (posts : List CognoPost) :
    hopCap maxHops posts ≤ maxHops.elim maxEmptyChaseHops Int.toNat := by
  cases maxHops with
  | some hops => exact Int.self_le_toNat hops
  | none =>
    unfold hopCap maxEmptyChaseHops maxChaseHops
    split_ifs <;> simp

theorem chaseLoop_succ (left hop : ℕ) (cursor : Option ℕ) (posts : List CognoPost)
    (hbound : maxHops.elim maxEmptyChaseHops Int.toNat ≤ hop + left) :
    chaseLoop fetchPage target hasViewer maxHops keep (left + 1) hop cursor posts =
      chaseLoop fetchPage target hasViewer maxHops keep left hop cursor posts := by
  induction left generalizing hop cursor posts with
  | zero =>
    rw [chaseLoop, chaseLoop]
    congr 1
    funext raw
    cases raw.nextCursor with
    | none => rfl
    | some nextCursor =>
      have hcap := hopCap_le maxHops
        (posts ++ (raw.posts.map (fun e => mapEnrichedPost e hasViewer)).filter keep)
      have hstop : hopCap maxHops
          (posts ++ (raw.posts.map (fun e => mapEnrichedPost e hasViewer)).filter keep) ≤
          (hop : ℤ) + 1 := by omega
      simp only [hstop, or_true, if_true]
  | succ left ih =>
    rw [chaseLoop, chaseLoop]
    congr 1
    funext raw
    cases raw.nextCursor with
    | none => rfl
    | some nextCursor =>
      dsimp only
      rw [ih (hop + 1) (some nextCursor) _ (by omega)]

theorem chasePage_eq_chaseLoop (more : ℕ) (beforeId : Option ℕ) (limit : ℚ) (hasViewer : Bool)
    (maxHops : Option ℤ) (keep : Option (CognoPost → Bool)) :
    chasePage fetchPage beforeId limit hasViewer maxHops keep =
      chaseLoop fetchPage (clampLimit limit) hasViewer maxHops (keep.getD (fun _ => true))
        (maxHops.elim maxEmptyChaseHops Int.toNat + more) 0 beforeId [] := by
  induction more with
  | zero => rfl
  | succ more ih => rw [ih, ← Nat.add_assoc, chaseLoop_succ _ _ _ _ (by omega)]

def keptPost (hasViewer : Bool) (keep : CognoPost → Bool) (e : EnrichedPost) : Option CognoPost :=
  Option.guard keep (mapEnrichedPost e hasViewer)

theorem filterMap_keptPost (posts : List EnrichedPost) :
    posts.filterMap (keptPost hasViewer keep) =
      (posts.map (fun e => mapEnrichedPost e hasViewer)).filter keep := by
  rw [← List.filterMap_eq_filter, List.filterMap_map]
  rfl

/-- The posts a page adds are the next kept ones, and they fit. -/
structure Extends (left : Option ℕ → List CognoPost) (target : ℕ) (cursor : Option ℕ)
    (posts : List CognoPost) (page : IdPage) : Prop where
  added : ∃ added, page.posts = posts ++ added ∧ Continues left cursor added page.nextCursor
  fits : page.posts.length ≤ target

theorem Extends.trans {left : Option ℕ → List CognoPost} {lo : ℕ} {gathered : List CognoPost}
    {page : IdPage} (h : Extends left target cursor posts ⟨gathered, some lo⟩)
    (hlater : Extends left target (some lo) gathered page) :
    Extends left target cursor posts page := by
  obtain ⟨added, hgathered, hcontinues⟩ := h.added
  obtain ⟨more, hmore, hafter⟩ := hlater.added
  refine ⟨⟨added ++ more, ?_, hcontinues.trans hafter⟩, hlater.fits⟩
  rw [hmore, show gathered = posts ++ added from hgathered, List.append_assoc]

def keptBelow (snapshot : Snapshot) (hasViewer : Bool) (keep : CognoPost → Bool)
    (cursor : Option ℕ) : List CognoPost :=
  (snapshot.below cursor).filterMap (keptPost hasViewer keep)

theorem hop_extends (hasViewer : Bool) (keep : CognoPost → Bool) {raw : FeedPageRaw}
    (hroom : posts.length < target) (hlength : raw.posts.length ≤ target - posts.length)
    (hcontinues : Continues snapshot.below cursor raw.posts raw.nextCursor) :
    Extends (keptBelow snapshot hasViewer keep) target cursor posts
      ⟨posts ++ (raw.posts.map (fun e => mapEnrichedPost e hasViewer)).filter keep,
        raw.nextCursor⟩ := by
  constructor
  · refine ⟨_, rfl, ?_⟩
    rw [← filterMap_keptPost]
    exact hcontinues.filterMap (keptPost hasViewer keep)
  · have hfilter := List.length_filter_le keep
      (raw.posts.map (fun e => mapEnrichedPost e hasViewer))
    rw [List.length_map] at hfilter
    rw [List.length_append]
    omega

theorem chaseLoop_extends (hserves : Serves snapshot fetchPage) (hops hop : ℕ) (cursor : Option ℕ)
    (posts : List CognoPost) (hroom : posts.length < target) :
    ∃ page, chaseLoop fetchPage target hasViewer maxHops keep hops hop cursor posts = .ok page ∧
      Extends (keptBelow snapshot hasViewer keep) target cursor posts page := by
  induction hops generalizing hop cursor posts with
  | zero =>
    obtain ⟨raw, hraw, hlength, hcontinues⟩ :=
      hserves cursor (target - posts.length) (Nat.sub_pos_of_lt hroom)
    have hhop := hop_extends hasViewer keep hroom hlength hcontinues
    rw [chaseLoop, hraw]
    refine ⟨_, ?_, hhop⟩
    cases hnext : raw.nextCursor with
    | none => simp [bind, Except.bind, hnext]
    | some nextCursor => simp [bind, Except.bind, hnext]
  | succ hops ih =>
    obtain ⟨raw, hraw, hlength, hcontinues⟩ :=
      hserves cursor (target - posts.length) (Nat.sub_pos_of_lt hroom)
    have hhop := hop_extends hasViewer keep hroom hlength hcontinues
    rw [chaseLoop, hraw]
    simp only [bind, Except.bind]
    cases hnext : raw.nextCursor with
    | none =>
      rw [hnext] at hhop
      exact ⟨_, rfl, hhop⟩
    | some nextCursor =>
      rw [hnext] at hhop
      dsimp only
      split_ifs with hstop
      · exact ⟨_, rfl, hhop⟩
      · push Not at hstop
        obtain ⟨page, hpage, hlater⟩ := ih (hop + 1) (some nextCursor) _ hstop.1
        exact ⟨page, hpage, hhop.trans hlater⟩

theorem chasePage_continues (hserves : Serves snapshot fetchPage) (beforeId : Option ℕ) (limit : ℚ)
    (hasViewer : Bool) (maxHops : Option ℤ) (keep : Option (CognoPost → Bool)) :
    ∃ page, chasePage fetchPage beforeId limit hasViewer maxHops keep = .ok page ∧
      Continues (keptBelow snapshot hasViewer (keep.getD (fun _ => true))) beforeId page.posts
        page.nextCursor ∧
      page.posts.length ≤ clampLimit limit := by
  obtain ⟨page, hpage, hextends⟩ := chaseLoop_extends hserves
    (maxHops.elim maxEmptyChaseHops Int.toNat) 0 beforeId [] (clampLimit_pos limit)
  obtain ⟨added, hposts, hcontinues⟩ := hextends.added
  rw [List.nil_append] at hposts
  exact ⟨page, hpage, hposts ▸ hcontinues, hextends.fits⟩

end Chasing

/-! ## Shown pages -/

/-- A shown page of a stream: it says that there is more exactly when it has a
cursor. -/
structure IsPage (left : Option ℕ → List CognoPost) (size : ℕ) (cursor : Option ℕ)
    (pg : FeedPage) : Prop where
  continues : Continues left cursor pg.posts pg.endCursor
  live : pg.hasNextPage = pg.endCursor.isSome
  fits : pg.posts.length ≤ size

/-- A source that answers every query, whatever its cursor, with a page. -/
def Pages (left : Option ℕ → List CognoPost) (size : ℕ)
    (source : FeedQuery → Except Reason FeedPage) (q : FeedQuery) : Prop :=
  ∀ after, ∃ pg, source { q with after := after } = .ok pg ∧ IsPage left size after pg

def flagPost (revoked : AccountId → Bool) (p : CognoPost) : CognoPost :=
  { p with authorRevoked := some (revoked p.author) }

theorem page_pages {snapshot : Snapshot} {fetchPage : PageFetcher}
    (hserves : Serves snapshot fetchPage) (revoked : AccountId → Bool) (maxHops : Option ℤ)
    (keep : Option (CognoPost → Bool)) (q : FeedQuery) :
    Pages (fun c => flagRevocations revoked
        (keptBelow snapshot q.viewer.isSome (keep.getD (fun _ => true)) c))
      (clampLimit (q.first.getD defaultFirst)) (page revoked fetchPage maxHops keep) q := by
  intro after
  obtain ⟨idp, hidp, hcontinues, hfits⟩ := chasePage_continues hserves after
    (q.first.getD defaultFirst) q.viewer.isSome maxHops keep
  refine ⟨toFeedPage revoked idp, ?_, ?_, rfl, ?_⟩
  · simp [page, hidp, bind, Except.bind]
  · have hflagged := hcontinues.filterMap (fun p => some (flagPost revoked p))
    simpa [List.filterMap_eq_map, toFeedPage, flagRevocations, flagPost] using hflagged
  · simpa [toFeedPage, flagRevocations] using hfits

section Denying

variable {denylist : Denylist} {left : Option ℕ → List CognoPost} {size : ℕ}
  {source : FeedQuery → Except Reason FeedPage} {q : FeedQuery} {cursor : Option ℕ}

theorem continues_filterDenied {next : Option ℕ} {listed : List CognoPost} (denylist : Denylist)
    (h : Continues left cursor listed next) :
    Continues (fun c => filterDenied denylist (left c)) cursor
      (filterDenied denylist listed) next := by
  have hserved := h.filterMap (Option.guard (fun p => !denylist.isDenied p))
  simpa only [List.filterMap_eq_filter, filterDenied] using hserved

theorem topUp_page (hpages : Pages left size source q) (hops : ℕ) {pg : FeedPage}
    (hpage : IsPage left size cursor pg) :
    ∃ last, topUp denylist source q hops pg = .ok last ∧
      Continues (fun c => filterDenied denylist (left c)) cursor
        (filterDenied denylist last.posts) last.endCursor ∧
      last.hasNextPage = last.endCursor.isSome ∧ last.posts.length ≤ size := by
  induction hops generalizing cursor pg with
  | zero => exact ⟨pg, rfl, continues_filterDenied denylist hpage.continues, hpage.live, hpage.fits⟩
  | succ hops ih =>
    rw [topUp]
    split_ifs with hdenied
    · simp only [Bool.and_eq_true, List.isEmpty_iff] at hdenied
      obtain ⟨lo, hlo⟩ := Option.isSome_iff_exists.mp hdenied.2
      obtain ⟨later, hlater, hnext⟩ := hpages pg.endCursor
      obtain ⟨last, hlast, hcontinues, hend⟩ := ih hnext
      have hpassed := continues_filterDenied denylist hpage.continues
      rw [hdenied.1.1.2, hlo] at hpassed
      rw [hlo] at hcontinues
      refine ⟨last, ?_, hpassed.trans hcontinues, hend⟩
      rw [hlater]
      exact hlast
    · exact ⟨pg, rfl, continues_filterDenied denylist hpage.continues, hpage.live, hpage.fits⟩

theorem withServeDenylist_pages (denylist : Denylist) (hpages : Pages left size source q) :
    Pages (fun c => filterDenied denylist (left c)) size (withServeDenylist denylist source) q := by
  intro after
  obtain ⟨first, hfirst, hpage⟩ := hpages after
  have htop : Pages left size source { q with after := after } := hpages
  obtain ⟨last, hlast, hcontinues, hlive, hfits⟩ := topUp_page htop maxTopUp hpage
  let kept := filterDenied denylist last.posts
  refine ⟨{ last with posts := kept, totalCount := last.totalCount.map (fun _ => kept.length) },
    ?_, hcontinues, hlive, (List.length_filter_le _ _).trans hfits⟩
  simp only [withServeDenylist, hfirst, hlast, bind, Except.bind, kept]

end Denying

/-! ## Reading to the end -/

def nextOf : Except Reason FeedPage → Option ℕ
  | .ok pg => if pg.hasNextPage then pg.endCursor else none
  | .error _ => none

def postsOf : Except Reason FeedPage → List CognoPost
  | .ok pg => pg.posts
  | .error _ => []

theorem IsPage.nextOf_eq {left : Option ℕ → List CognoPost} {size : ℕ} {cursor : Option ℕ}
    {pg : FeedPage} (h : IsPage left size cursor pg) : nextOf (.ok pg) = pg.endCursor := by
  rw [nextOf, h.live]
  cases pg.endCursor <;> rfl

abbrev ReadThrough (source : FeedQuery → Except Reason FeedPage) (q : FeedQuery)
    (after : Option ℕ) (pages : List (Except Reason FeedPage)) : Prop :=
  Chase (fun (_ : Unit) cursor => source { q with after := cursor }) nextOf (fun _ => ()) after
    pages

section Reading

variable {left : Option ℕ → List CognoPost} {size : ℕ}
  {source : FeedQuery → Except Reason FeedPage} {q : FeedQuery}

section

variable (hpages : Pages left size source q) {after : Option ℕ}
  {pages : List (Except Reason FeedPage)}
include hpages

theorem Pages.continues (after : Option ℕ) :
    Continues left after (postsOf (source { q with after := after }))
      (nextOf (source { q with after := after })) := by
  obtain ⟨pg, hpg, hpage⟩ := hpages after
  rw [hpg, hpage.nextOf_eq]
  exact hpage.continues

theorem Pages.exists_readThrough (after : Option ℕ) :
    ∃ pages, ReadThrough source q after pages :=
  exists_chase_of_lt (fun _ b lo hnext => (hpages.continues (some b)).next_lt lo b hnext rfl) after

theorem Pages.readThrough_eq (hread : ReadThrough source q after pages) :
    pages.flatMap postsOf = left after :=
  hread.flatMap_eq (fun _ _ cursor _ => hpages.continues cursor)

theorem Pages.readThrough_fits (hread : ReadThrough source q after pages)
    {r : Except Reason FeedPage} (hmem : r ∈ pages) :
    ∃ pg, r = .ok pg ∧ pg.posts.length ≤ size := by
  obtain ⟨-, cursor, rfl⟩ := hread.exists_read_of_mem hmem
  obtain ⟨pg, hpg, hpage⟩ := hpages cursor
  exact ⟨pg, hpg, hpage.fits⟩

end

end Reading

def servedPosts (denylist : Denylist) (revoked : AccountId → Bool) (hasViewer : Bool)
    (keep : Option (CognoPost → Bool)) (posts : List EnrichedPost) : List CognoPost :=
  filterDenied denylist (flagRevocations revoked
    ((posts.map (fun e => mapEnrichedPost e hasViewer)).filter (keep.getD (fun _ => true))))

theorem servedPosts_rows (snapshot : Snapshot) (denylist : Denylist) (revoked : AccountId → Bool)
    (hasViewer : Bool) (keep : Option (CognoPost → Bool)) (cursor : Option ℕ) :
    ∃ rows : List (ℕ × EnrichedPost), rows.Sublist snapshot.rows ∧
      rows.Pairwise (fun row later => later.1 < row.1) ∧
      servedPosts denylist revoked hasViewer keep (snapshot.below cursor) =
        rows.map (fun row => flagPost revoked (mapEnrichedPost row.2 hasViewer)) := by
  let below := snapshot.rows.filter (fun row => cursor.all (fun b => row.1 < b))
  let kept := below.filter
    (fun row => keep.getD (fun _ => true) (mapEnrichedPost row.2 hasViewer))
  let served := kept.filter
    (fun row => !denylist.isDenied (flagPost revoked (mapEnrichedPost row.2 hasViewer)))
  have hsublist : served.Sublist snapshot.rows :=
    List.filter_sublist.trans (List.filter_sublist.trans List.filter_sublist)
  refine ⟨served, hsublist, snapshot.descending.sublist hsublist, ?_⟩
  simp only [servedPosts, Snapshot.below, filterDenied, flagRevocations, List.filter_map,
    List.map_map, served, kept, below]
  rfl

/-- Over every fetcher that serves a snapshot, for every lens, hop budget,
denylist and query, reading shown pages one after another ends; the pages hold
the kept and served posts below the first cursor once each and newest first,
none of them more than the clamped size. -/
theorem feed_readThrough (snapshot : Snapshot) (fetchPage : PageFetcher)
    (hserves : Serves snapshot fetchPage) (revoked : AccountId → Bool) (maxHops : Option ℤ)
    (keep : Option (CognoPost → Bool)) (denylist : Denylist) (q : FeedQuery) :
    let source := withServeDenylist denylist (page revoked fetchPage maxHops keep)
    (∃ pages, ReadThrough source q q.after pages) ∧
    ∀ pages, ReadThrough source q q.after pages →
      pages.flatMap postsOf =
        servedPosts denylist revoked q.viewer.isSome keep (snapshot.below q.after) ∧
      (∃ rows : List (ℕ × EnrichedPost), rows.Sublist snapshot.rows ∧
        rows.Pairwise (fun row later => later.1 < row.1) ∧
        pages.flatMap postsOf =
          rows.map (fun row => flagPost revoked (mapEnrichedPost row.2 q.viewer.isSome))) ∧
      ∀ r ∈ pages, ∃ pg, r = .ok pg ∧
        pg.posts.length ≤ clampLimit (q.first.getD defaultFirst) := by
  intro source
  have hpages := withServeDenylist_pages denylist (page_pages hserves revoked maxHops keep q)
  refine ⟨hpages.exists_readThrough q.after, fun pages hread => ?_⟩
  have hposts : pages.flatMap postsOf =
      servedPosts denylist revoked q.viewer.isSome keep (snapshot.below q.after) := by
    rw [hpages.readThrough_eq hread, keptBelow, filterMap_keptPost]
    rfl
  refine ⟨hposts, ?_, fun r hmem => hpages.readThrough_fits hread hmem⟩
  rw [hposts]
  exact servedPosts_rows snapshot denylist revoked q.viewer.isSome keep q.after

def plainPost (id : ℕ) : EnrichedPost :=
  ⟨id, ⟨id⟩, [], none, none, 0, 0, 0, 0, 0, 0, 0, false, none, false, none⟩

def twoPosts : Snapshot := ⟨[(1, plainPost 1), (0, plainPost 0)], by decide⟩

def oneAtATime : PageFetcher := fun cursor _ =>
  match cursor with
  | some 0 => .ok ⟨[], none⟩
  | some 1 => .ok ⟨[plainPost 0], some 0⟩
  | _ => .ok ⟨[plainPost 1], some 1⟩

theorem oneAtATime_serves : Serves twoPosts oneAtATime := by
  intro cursor limit hlimit
  match cursor with
  | none => exact ⟨_, rfl, hlimit, rfl, by simp⟩
  | some 0 => exact ⟨_, rfl, Nat.zero_le _, rfl, by simp⟩
  | some 1 => exact ⟨_, rfl, hlimit, rfl, by simp⟩
  | some (b + 2) =>
    refine ⟨_, rfl, hlimit, ?_, by simp⟩
    simp [Snapshot.below, twoPosts]

theorem feed_readThrough_twoPosts :
    ∃ pages, ReadThrough (withServeDenylist ⟨[], [1]⟩ (page (fun _ => false) oneAtATime none none))
        ⟨some 1, none, none⟩ none pages ∧
      (pages.flatMap postsOf).map CognoPost.id = [0] := by
  obtain ⟨⟨pages, hread⟩, hall⟩ := feed_readThrough twoPosts oneAtATime oneAtATime_serves
    (fun _ => false) none none ⟨[], [1]⟩ ⟨some 1, none, none⟩
  refine ⟨pages, hread, ?_⟩
  rw [(hall pages hread).1]
  decide +kernel

end CognoChain.Client
