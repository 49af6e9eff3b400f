import CognoChain.Views.Spine

/-!
# Author tabs and reply threads

An author's tabs are read off indexes numbered in the order of posting, below a
cursor that is a post id; the place to start from is found by bisection.  The
replies of a post are read off its spine of replies, below a cursor that is a
place on it.
-/

namespace CognoChain

open Substrate CognoChain.Runtime Config FeedPage

/-! ## Bisection -/

/-- `place` parts the entries below `before` from the others. -/
structure Parts (entries : List ℕ) (before place : ℕ) : Prop where
  le_length : place ≤ entries.length
  lt_iff : ∀ seq id, entries[seq]? = some id → (id < before ↔ seq < place)

section Bisection

variable {entries : List ℕ} {get : ℕ → Option ℕ} {before : ℕ}

theorem entries_lt (hsorted : entries.Pairwise (· < ·)) {seq later id next : ℕ}
    (hid : entries[seq]? = some id) (hnext : entries[later]? = some next) (hlt : seq < later) :
    id < next := by
  obtain ⟨hseq, rfl⟩ := List.getElem?_eq_some_iff.mp hid
  obtain ⟨hlater, rfl⟩ := List.getElem?_eq_some_iff.mp hnext
  exact List.pairwise_iff_getElem.mp hsorted seq later hseq hlater hlt

theorem entries_le (hsorted : entries.Pairwise (· < ·)) {seq later id next : ℕ}
    (hid : entries[seq]? = some id) (hnext : entries[later]? = some next) (hle : seq ≤ later) :
    id ≤ next := by
  rcases Nat.lt_or_eq_of_le hle with hlt | rfl
  · exact Nat.le_of_lt (entries_lt hsorted hid hnext hlt)
  · exact Nat.le_of_eq (Option.some.inj (hid.symm.trans hnext))

theorem Parts.of_bounds {place : ℕ} (hle : place ≤ entries.length)
    (hbelow : ∀ seq id, entries[seq]? = some id → seq < place → id < before)
    (habove : ∀ seq id, entries[seq]? = some id → place ≤ seq → before ≤ id) :
    Parts entries before place := by
  refine ⟨hle, fun seq id hid => ⟨fun hlt => ?_, hbelow seq id hid⟩⟩
  by_contra hge
  exact Nat.not_lt.mpr (habove seq id hid (Nat.not_lt.mp hge)) hlt

/-- The search keeps the entries before `lo` below the cursor and those from
`hi` on at or above it. -/
theorem bisect_parts (hsorted : entries.Pairwise (· < ·)) (hget : ∀ seq, get seq = entries[seq]?)
    (hroom : entries.length ≤ u64Max) (fuel lo hi : ℕ) (hle : lo ≤ hi)
    (hhi : hi ≤ entries.length) (hfuel : hi ≤ lo + fuel)
    (hbelow : ∀ seq id, entries[seq]? = some id → seq < lo → id < before)
    (habove : ∀ seq id, entries[seq]? = some id → hi ≤ seq → before ≤ id) :
    Parts entries before (bisect get before fuel lo hi) := by
  induction fuel generalizing lo hi with
  | zero =>
    have hmet : lo = hi := by omega
    exact .of_bounds (hmet ▸ hhi) hbelow (hmet ▸ habove)
  | succ fuel ih =>
    rw [bisect]
    by_cases hlt : lo < hi
    · have hmid : satAdd u64Max lo ((hi - lo) / 2) = lo + (hi - lo) / 2 :=
        Nat.min_eq_left (by omega)
      obtain ⟨id, hid⟩ : ∃ id, entries[lo + (hi - lo) / 2]? = some id :=
        ⟨_, List.getElem?_eq_getElem (by omega)⟩
      rw [if_pos hlt]
      simp only [hmid, hget, hid, Option.any_some, decide_eq_true_eq]
      split_ifs with hless
      · rw [satAdd_succ_of_lt (by omega)]
        refine ih _ hi (by omega) hhi (by omega) (fun seq id' hid' hseq => ?_) habove
        exact Nat.lt_of_le_of_lt (entries_le hsorted hid' hid (by omega)) hless
      · refine ih lo _ (by omega) (by omega) (by omega) hbelow (fun seq id' hid' hseq => ?_)
        exact Nat.le_trans (Nat.not_lt.mp hless) (entries_le hsorted hid hid' hseq)
    · have hmet : lo = hi := by omega
      rw [if_neg hlt]
      exact .of_bounds (hmet ▸ hhi) hbelow (hmet ▸ habove)

theorem authorIndexSeqBelow_spec {log : List Post} {index : Post → Bool} {count : ℕ}
    (hrows : Numbers get count (log.findIdxs index)) (hroom : log.length < u64Max)
    (beforeId : Option ℕ) :
    authorIndexSeqBelow count beforeId get ≤ (log.findIdxs index).length ∧
      ∀ id, id ∈ (log.findIdxs index).take (authorIndexSeqBelow count beforeId get) ↔
        id ∈ log.findIdxs index ∧ ∀ b ∈ beforeId, id < b := by
  have hsorted : (log.findIdxs index).Pairwise (· < ·) := List.pairwise_findIdxs
  have hlength : (log.findIdxs index).length ≤ u64Max :=
    Nat.le_of_lt (Nat.lt_of_le_of_lt (Feed.findIdxs_length_le index) hroom)
  generalize log.findIdxs index = entries at hrows hsorted hlength
  cases beforeId with
  | none =>
    have htake : entries.take count = entries := by rw [hrows.count_eq, List.take_length]
    refine ⟨Nat.le_of_eq hrows.count_eq, fun id => ?_⟩
    simp [authorIndexSeqBelow, htake]
  | some b =>
    have hparts : Parts entries b (bisect get b count 0 count) := by
      refine bisect_parts hsorted hrows.row_eq hlength count 0 count (Nat.zero_le _)
        (Nat.le_of_eq hrows.count_eq) (by omega) (by omega) (fun seq id hid hseq => ?_)
      have hlt := (List.getElem?_eq_some_iff.mp hid).1
      rw [hrows.count_eq] at hseq
      omega
    refine ⟨hparts.le_length, fun id => ?_⟩
    simp only [authorIndexSeqBelow, Option.mem_def, Option.some.injEq, forall_eq']
    rw [List.mem_take_iff_getElem, List.mem_iff_getElem?]
    constructor
    · rintro ⟨seq, hseq, rfl⟩
      have hid := List.getElem?_eq_getElem (Nat.lt_of_lt_of_le hseq (Nat.min_le_right _ _))
      exact ⟨⟨seq, hid⟩,
        (hparts.lt_iff seq _ hid).mpr (Nat.lt_of_lt_of_le hseq (Nat.min_le_left _ _))⟩
    · rintro ⟨⟨seq, hid⟩, hlt⟩
      obtain ⟨hseq, rfl⟩ := List.getElem?_eq_some_iff.mp hid
      exact ⟨seq, Nat.lt_min.mpr ⟨(hparts.lt_iff seq _ hid).mp hlt, hseq⟩, rfl⟩

end Bisection

/-! ## Walking an author's index -/

section Walk

variable {s : Runtime} {author : AccountId} {beforeId : Option ℕ} {log : List Post}
  {entries : List ℕ} {seq : ℕ}

/-- The entry a walk looks at next.  Below the start of the page the guard
never skips it. -/
theorem next_entry (hbelow : ∀ id ∈ entries.take (seq + 1), ∀ b ∈ beforeId, id < b)
    (hseq : seq < entries.length) :
    ∃ id, entries[seq]? = some id ∧
      (entries.take (seq + 1)).reverse = id :: (entries.take seq).reverse ∧
      beforeId.any (fun before => before ≤ id) = false ∧
      ∀ id ∈ entries.take seq, ∀ b ∈ beforeId, id < b := by
  have hid : entries[seq]? = some entries[seq] := List.getElem?_eq_getElem hseq
  have htake : entries.take (seq + 1) = entries.take seq ++ [entries[seq]] := by
    rw [List.take_add_one, hid, Option.toList_some]
  rw [htake] at hbelow ⊢
  refine ⟨entries[seq], hid, by rw [List.reverse_append]; rfl, ?_,
    fun id hmem => hbelow id (List.mem_append_left _ hmem)⟩
  have hguard := hbelow entries[seq] (List.mem_append_right _ (List.mem_singleton_self _))
  cases beforeId with
  | none => rfl
  | some b => simpa using hguard b rfl

/-- The page lists the candidates in turn after `posts` until it is full, and
its cursor is that of the first one left. -/
def Fills (limit : ℕ) (cursor : ℕ → ℕ) (posts : List EnrichedPost) (candidates : List ℕ)
    (page : FeedPage) : Prop :=
  ∃ seen rest, candidates = seen ++ rest ∧ page.ids = posts.map EnrichedPost.id ++ seen ∧
    page.nextCursor = rest.head?.map cursor ∧ (rest ≠ [] → limit ≤ posts.length + seen.length)

section Fills

variable {limit : ℕ} {cursor : ℕ → ℕ} {posts : List EnrichedPost} {candidates : List ℕ}
  {page : FeedPage}

theorem Fills.nil (posts : List EnrichedPost) : Fills limit cursor posts [] ⟨posts, none⟩ :=
  ⟨[], [], rfl, (List.append_nil _).symm, rfl, nofun⟩

theorem Fills.full (hfull : limit ≤ posts.length) (id : ℕ) (rest : List ℕ) :
    Fills limit cursor posts (id :: rest) ⟨posts, some (cursor id)⟩ :=
  ⟨[], _, rfl, (List.append_nil _).symm, rfl, fun _ => hfull⟩

theorem Fills.cons (post : EnrichedPost)
    (h : Fills limit cursor (posts ++ [post]) candidates page) :
    Fills limit cursor posts (post.id :: candidates) page := by
  obtain ⟨seen, rest, hsplit, hids, hnext, hlength⟩ := h
  refine ⟨post.id :: seen, rest, by rw [hsplit, List.cons_append], ?_, hnext, fun hleft => ?_⟩
  · rw [hids, List.map_append, List.append_assoc]
    rfl
  · have hlimit := hlength hleft
    rw [List.length_append, List.length_singleton] at hlimit
    rw [List.length_cons]
    omega

end Fills

theorem enrichedPost_of_stored {id : ℕ} {post : Post} (hpost : s.feed.posts.get id = some post)
    (viewer : Option AccountId) (stakers : List (AccountId × ℕ)) :
    s.enrichedPost id viewer stakers = some (s.enrich id post viewer stakers) := by
  rw [enrichedPost, hpost, Option.map_some]

theorem authorFeedLoop_walks
    (hrow : ∀ seq, s.feed.topLevelByAuthor.get (author, seq) = entries[seq]?)
    (hstored : ∀ id ∈ entries, id < u64Max ∧ ∃ post, s.feed.posts.get id = some post)
    (hbelow : ∀ id ∈ entries.take seq, ∀ b ∈ beforeId, id < b) (hseq : seq ≤ entries.length)
    (limit : ℕ) (viewer : Option AccountId) (stakers : List (AccountId × ℕ))
    (posts : List EnrichedPost) :
    Fills limit (· + 1) posts (entries.take seq).reverse
      (s.authorFeedLoop author beforeId limit viewer stakers seq posts) := by
  induction seq generalizing posts with
  | zero => exact .nil posts
  | succ seq ih =>
    obtain ⟨id, hid, htake, hguard, hrest⟩ := next_entry hbelow hseq
    obtain ⟨hroom, post, hpost⟩ := hstored id (List.mem_of_getElem? hid)
    rw [authorFeedLoop, hrow, hid, htake]
    simp only [hguard, Bool.false_eq_true, if_false]
    by_cases hfull : limit ≤ posts.length
    · rw [if_pos hfull, satAdd_succ_of_lt hroom]
      exact .full hfull id _
    · rw [if_neg hfull, enrichedPost_of_stored hpost, Option.toList_some]
      exact .cons (s.enrich id post viewer stakers) (ih hrest (Nat.le_of_succ_le hseq) _)

/-- The replies of an author are what the walk keeps of the entries it
examines. -/
theorem authorRepliesLoop_walks
    (hrow : ∀ seq, s.feed.byAuthor.get (author, seq) = entries[seq]?)
    (hstored : ∀ id ∈ entries, id < u64Max ∧ ∃ post, s.feed.posts.get id = some post)
    (hbelow : ∀ id ∈ entries.take seq, ∀ b ∈ beforeId, id < b) (hseq : seq ≤ entries.length)
    (limit maxScan : ℕ) (viewer : Option AccountId) (stakers : List (AccountId × ℕ))
    (posts : List EnrichedPost) (examined : ℕ) :
    ∃ seen rest, (entries.take seq).reverse = seen ++ rest ∧
      (s.authorRepliesLoop author beforeId limit maxScan viewer stakers seq posts examined).ids =
        posts.map EnrichedPost.id ++
          seen.filter (fun id => (s.feed.posts.get id).any (fun post => post.parent ≠ none)) ∧
      (s.authorRepliesLoop author beforeId limit maxScan viewer stakers seq posts
        examined).nextCursor = rest.head?.map (· + 1) ∧
      (posts.length < limit → examined < maxScan → rest ≠ [] → seen ≠ []) := by
  induction seq generalizing posts examined with
  | zero => exact ⟨[], [], rfl, (List.append_nil _).symm, rfl, nofun⟩
  | succ seq ih =>
    obtain ⟨id, hid, htake, hguard, hrest⟩ := next_entry hbelow hseq
    obtain ⟨hroom, post, hpost⟩ := hstored id (List.mem_of_getElem? hid)
    have hlater := ih hrest (Nat.le_of_succ_le hseq)
    rw [authorRepliesLoop, hrow, hid, htake]
    simp only [hguard, Bool.false_eq_true, if_false, hpost]
    by_cases hspent : maxScan ≤ examined
    · rw [if_pos hspent, satAdd_succ_of_lt hroom]
      exact ⟨[], _, rfl, (List.append_nil _).symm, rfl, by omega⟩
    · rw [if_neg hspent]
      by_cases hparent : post.parent = none
      · obtain ⟨seen, rest, hsplit, hids, hnext, -⟩ := hlater posts (examined + 1)
        rw [if_pos hparent]
        refine ⟨id :: seen, rest, by rw [hsplit, List.cons_append], ?_, hnext, nofun⟩
        rw [hids, List.filter_cons_of_neg (by simp [hpost, hparent])]
      · rw [if_neg hparent]
        by_cases hfull : limit ≤ posts.length
        · rw [if_pos hfull, satAdd_succ_of_lt hroom]
          exact ⟨[], _, rfl, (List.append_nil _).symm, rfl, by omega⟩
        · obtain ⟨seen, rest, hsplit, hids, hnext, -⟩ :=
            hlater (posts ++ [s.enrich id post viewer stakers]) (examined + 1)
          rw [if_neg hfull]
          refine ⟨id :: seen, rest, by rw [hsplit, List.cons_append], ?_, hnext, nofun⟩
          rw [hids, List.map_append, List.append_assoc,
            List.filter_cons_of_pos (by simp [hpost, hparent])]
          rfl

theorem reads_of_walk {index p : Post → Bool} {get : ℕ → Option ℕ} {count : ℕ}
    (hrows : Numbers get count (log.findIdxs index)) (hroom : log.length < u64Max)
    {keep : ℕ → Bool}
    (hlive : ∀ id, log[id]?.any p = true ↔ id ∈ log.findIdxs index ∧ keep id = true)
    {seen rest : List ℕ}
    (hsplit : ((log.findIdxs index).take (authorIndexSeqBelow count beforeId get)).reverse =
      seen ++ rest)
    (hmoves : rest ≠ [] → seen ≠ []) :
    Reads (Option.guard (fun id => log[id]?.any p)) (cursorBound log.length beforeId)
      (seen.filter keep) (rest.head?.map (· + 1)) := by
  obtain ⟨-, hmem⟩ := authorIndexSeqBelow_spec hrows hroom beforeId
  refine Reads.of_walk (List.pairwise_reverse.mpr (List.pairwise_findIdxs.take)) ?_ ?_ hsplit
    hmoves
  · intro id hid
    obtain ⟨hindex, hbefore⟩ := (hmem id).mp (List.mem_reverse.mp hid)
    exact lt_cursorBound_iff.mpr ⟨by simpa using List.lt_add_of_mem_findIdxs id hindex, hbefore⟩
  · intro id hid
    rw [List.mem_reverse, hmem, hlive, and_right_comm]
    exact (and_iff_left (lt_cursorBound_iff.mp hid).2).symm

end Walk

/-! ## One page -/

section Page

variable {s : Runtime} {log : List Post}

section

variable (hrecords : s.feed.Records log) (hroom : log.length < u64Max)
include hrecords hroom

theorem stored_of_mem_findIdxs {index : Post → Bool} : ∀ id ∈ log.findIdxs index,
      id < u64Max ∧ ∃ post, s.feed.posts.get id = some post := by
  intro id hid
  have hlt : id < log.length := by simpa using List.lt_add_of_mem_findIdxs id hid
  exact ⟨Nat.lt_trans hlt hroom, log[id], by
    rw [hrecords.posts, List.getElem?_eq_getElem hlt]⟩

theorem authorFeedPage_reads (cfg : Config) (author : AccountId) (beforeId : Option ℕ) (limit : ℕ)
    (viewer : Option AccountId) :
    let page := s.authorFeedPage cfg author beforeId limit viewer
    Reads (Option.guard (fun id => log[id]?.any
        (fun post => decide (post.author = author ∧ post.parent = none))))
      (cursorBound log.length beforeId) page.ids page.nextCursor ∧
      (page.posts.length < clampLimit limit → page.nextCursor = none) := by
  intro page
  have hrows := hrecords.topLevelByAuthor author
  obtain ⟨hseq, hmem⟩ := authorIndexSeqBelow_spec hrows hroom beforeId
  have hfills : Fills (clampLimit limit) (· + 1) [] _ page :=
    authorFeedLoop_walks hrows.row_eq (stored_of_mem_findIdxs hrecords hroom)
      (fun id hid => ((hmem id).mp hid).2) hseq (clampLimit limit) viewer (s.stakerWeights cfg) []
  obtain ⟨seen, rest, hsplit, hids, hnext, hfull⟩ := hfills
  rw [List.map_nil, List.nil_append] at hids
  rw [List.length_nil, Nat.zero_add] at hfull
  refine ⟨?_, fun hshort => ?_⟩
  · have hlive : ∀ id, log[id]?.any
          (fun post => decide (post.author = author ∧ post.parent = none)) = true ↔
        id ∈ Feed.topLevelByAuthorIn log author ∧ (fun _ : ℕ => true) id = true := by
      intro id
      rw [Feed.topLevelByAuthorIn, mem_findIdxs, and_iff_left rfl]
    have hreads := reads_of_walk hrows hroom hlive hsplit (fun hrest hseen =>
      Nat.not_lt.mpr (hfull hrest) (by rw [hseen]; exact clampLimit_pos limit))
    rw [List.filter_true] at hreads
    rwa [hids, hnext]
  · have hcount : page.posts.length = seen.length := by
      rw [← hids, ids, List.length_map]
    have hrest : rest = [] := by
      by_contra hrest
      have hle := hfull hrest
      omega
    rw [hnext, hrest]
    rfl

theorem authorRepliesPage_reads (cfg : Config) (author : AccountId) (beforeId : Option ℕ)
    (limit : ℕ) (viewer : Option AccountId) :
    Reads (Option.guard (fun id => log[id]?.any
        (fun post => decide (post.author = author ∧ post.parent ≠ none))))
      (cursorBound log.length beforeId)
      (s.authorRepliesPage cfg author beforeId limit viewer).ids
      (s.authorRepliesPage cfg author beforeId limit viewer).nextCursor := by
  have hrows := hrecords.byAuthor author
  obtain ⟨hseq, hmem⟩ := authorIndexSeqBelow_spec hrows hroom beforeId
  obtain ⟨seen, rest, hsplit, hids, hnext, hmoves⟩ :=
    authorRepliesLoop_walks hrows.row_eq (stored_of_mem_findIdxs hrecords hroom)
      (fun id hid => ((hmem id).mp hid).2) hseq (clampLimit limit)
      (satMul u32Max (clampLimit limit) maxScanFactor) viewer (s.stakerWeights cfg) [] 0
  have hlive : ∀ id, log[id]?.any
        (fun post => decide (post.author = author ∧ post.parent ≠ none)) = true ↔
      id ∈ Feed.byAuthorIn log author ∧
        (s.feed.posts.get id).any (fun post => decide (post.parent ≠ none)) = true := by
    intro id
    rw [Feed.byAuthorIn, mem_findIdxs, hrecords.posts]
    cases log[id]? with
    | none => simp
    | some post => simp
  have hreads := reads_of_walk hrows hroom hlive hsplit
    (hmoves (clampLimit_pos limit) (scanBudget_pos limit))
  rw [← hnext] at hreads
  exact hids ▸ hreads

end

end Page

/-! ## Replies -/

/-- What a client reads of a post's replies, newest first: the thread, which
lists its replies in the order they were made, and then pages of replies. -/
def Runtime.threadReplies (cfg : Config) (s : Runtime) (parent limit : ℕ)
    (viewer : Option AccountId) : Option ℕ → FeedPage
  | none =>
      ⟨(s.thread cfg parent viewer).replies.reverse, (s.thread cfg parent viewer).repliesNextCursor⟩
  | some beforeSeq => s.repliesPage cfg parent (some beforeSeq) limit viewer

section Replies

variable {s : Runtime} {log : List Post} {parent : ℕ}

def Runtime.replyAt (s : Runtime) (parent : ℕ) (viewer : Option AccountId)
    (stakers : List (AccountId × ℕ)) (seq : ℕ) : Option EnrichedPost :=
  (s.feed.repliesByParentSeq.get (parent, seq)).bind
    (fun id => s.enrichedPost id viewer stakers)

theorem repliesLoop_spec (s : Runtime) (parent limit : ℕ) (viewer : Option AccountId)
    (stakers : List (AccountId × ℕ)) (seq : ℕ) (posts : List EnrichedPost) (examined : ℕ) :
    let walked := s.repliesLoop parent limit viewer stakers seq posts examined
    walked.1 = posts ++
        (countdown walked.2 seq).filterMap (s.replyAt parent viewer stakers) ∧
      walked.2 ≤ seq ∧ (examined < limit → 0 < walked.2 → walked.2 < seq) := by
  induction seq generalizing posts examined with
  | zero => exact ⟨(List.append_nil _).symm, Nat.le_refl _, fun _ h => h⟩
  | succ seq ih =>
    unfold repliesLoop
    split_ifs with hgoes
    · obtain ⟨hlisted, hle, -⟩ := ih (posts ++ (s.replyAt parent viewer stakers seq).toList)
        (examined + 1)
      refine ⟨hlisted.trans ?_, Nat.le_succ_of_le hle, fun _ _ => Nat.lt_succ_of_le hle⟩
      rw [List.append_assoc, List.append_cancel_left_eq]
      refine Eq.trans ?_ (congrArg _ (countdown_succ hle).symm)
      cases hlook : s.replyAt parent viewer stakers seq with
      | none => simp only [Option.toList_none, List.nil_append, List.filterMap_cons, hlook]
      | some post =>
        simp only [Option.toList_some, List.singleton_append, List.filterMap_cons, hlook]
    · refine ⟨?_, Nat.le_refl _, fun h => absurd h hgoes⟩
      simp

theorem replyAt_id (hrecords : s.feed.Records log) (hroom : log.length < u64Max)
    (hcapped : (Feed.repliesIn log parent).length ≤ u32Max) (viewer : Option AccountId)
    (stakers : List (AccountId × ℕ)) (seq : ℕ) :
    (s.replyAt parent viewer stakers seq).map EnrichedPost.id =
      (Feed.repliesIn log parent)[seq]? := by
  have hrow := (hrecords.replies parent hcapped).row_eq seq
  unfold replyAt
  rw [hrow]
  cases hid : (Feed.repliesIn log parent)[seq]? with
  | none => rfl
  | some id =>
    obtain ⟨-, post, hpost⟩ :=
      stored_of_mem_findIdxs hrecords hroom id (List.mem_of_getElem? hid)
    rw [Option.bind_some, enrichedPost_of_stored hpost]
    rfl

theorem repliesFromSeq_eq (s : Runtime) (parent : ℕ) (beforeSeq : Option ℕ) (limit : ℕ)
    (viewer : Option AccountId) (stakers : List (AccountId × ℕ)) :
    let walked := s.repliesLoop parent limit viewer stakers
      (cursorBound (s.feed.replyCount.getD parent 0) beforeSeq) [] 0
    s.repliesFromSeq parent beforeSeq limit viewer stakers =
      (walked.1, if 0 < walked.2 then some walked.2 else none) := by
  cases beforeSeq with
  | none =>
    rw [cursorBound_none]
    rfl
  | some b => rfl

theorem repliesFromSeq_reads (hrecords : s.feed.Records log) (hroom : log.length < u64Max)
    (hcapped : (Feed.repliesIn log parent).length ≤ u32Max) (beforeSeq : Option ℕ) (limit : ℕ)
    (hlimit : 0 < limit) (viewer : Option AccountId) (stakers : List (AccountId × ℕ)) :
    Reads (fun seq => (Feed.repliesIn log parent)[seq]?)
      (cursorBound (Feed.repliesIn log parent).length beforeSeq)
      ((s.repliesFromSeq parent beforeSeq limit viewer stakers).1.map EnrichedPost.id)
      (s.repliesFromSeq parent beforeSeq limit viewer stakers).2 := by
  have hcount : s.feed.replyCount.getD parent 0 = (Feed.repliesIn log parent).length :=
    (hrecords.replies parent hcapped).count_eq
  rw [repliesFromSeq_eq, hcount]
  obtain ⟨hlisted, -, hlt⟩ := repliesLoop_spec s parent limit viewer stakers
    (cursorBound (Feed.repliesIn log parent).length beforeSeq) [] 0
  dsimp only at hlisted hlt ⊢
  generalize s.repliesLoop parent limit viewer stakers
    (cursorBound (Feed.repliesIn log parent).length beforeSeq) [] 0 = walked at hlisted hlt ⊢
  have hlow : (if 0 < walked.2 then some walked.2 else none).getD 0 = walked.2 := by
    split_ifs with hleft
    · rfl
    · exact (Nat.eq_zero_of_not_pos hleft).symm
  refine ⟨?_, fun lo hlo => ?_⟩
  · rw [hlow, hlisted, List.nil_append, List.map_filterMap]
    exact List.filterMap_congr
      (fun seq _ => replyAt_id hrecords hroom hcapped viewer stakers seq)
  · rw [Option.ite_none_right_eq_some, Option.some.injEq] at hlo
    obtain ⟨hpos, rfl⟩ := hlo
    exact hlt hlimit hpos

theorem threadReplies_chase (cfg : Config) {states : ℕ → Runtime} {log : ℕ → List Post}
    (hrecords : ∀ n, (states n).feed.Records (log n)) (hroom : ∀ n, (log n).length < u64Max)
    (hextends : ∀ n, log 0 <+: log n)
    (hcapped : ∀ n, (Feed.repliesIn (log n) parent).length ≤ u32Max) (limit : ℕ)
    (viewer : Option AccountId) (cursor : Option ℕ) :
    ∃ pages, Chase (fun s => s.threadReplies cfg parent limit viewer) nextCursor states
        cursor pages ∧
      pages.flatMap ids =
        (countdown 0 (cursorBound (Feed.repliesIn (log 0) parent).length cursor)).filterMap
          (fun seq => (Feed.repliesIn (log 0) parent)[seq]?) := by
  have hpages : PagesOf (fun s => s.threadReplies cfg parent limit viewer) nextCursor
      ids states (fun n seq => (Feed.repliesIn (log n) parent)[seq]?)
      (fun n => (Feed.repliesIn (log n) parent).length) := by
    intro n before
    cases before with
    | none =>
      have hreads := repliesFromSeq_reads (hrecords n) (hroom n) (hcapped n) none
        maxThreadReplies (by decide) viewer ((states n).stakerWeights cfg)
      have hids : ((states n).threadReplies cfg parent limit viewer none).ids =
          (((states n).repliesFromSeq parent none maxThreadReplies viewer
            ((states n).stakerWeights cfg)).1).map EnrichedPost.id :=
        congrArg _ (List.reverse_reverse _)
      rw [← hids] at hreads
      exact hreads
    | some b =>
      exact repliesFromSeq_reads (hrecords n) (hroom n) (hcapped n) (some b)
        (clampLimit limit) (clampLimit_pos limit) viewer ((states n).stakerWeights cfg)
  have hbound : cursorBound (Feed.repliesIn (log 0) parent).length cursor ≤
      (Feed.repliesIn (log 0) parent).length := Nat.min_le_right _ _
  exact hpages.exists_listed cursor
    (fun n => Nat.le_trans hbound (findIdxs_mono (hextends n)).length_le)
    (fun n seq hseq => getElem?_of_extends (findIdxs_mono (hextends n))
      (Nat.lt_of_lt_of_le hseq hbound))

end Replies

/-! ## Complete pages -/

/-- Chasing the cursors of a tab lists the posts that satisfy `p` once, newest
first; from a cursor of any kind it still ends and lists nothing twice and
nothing at or above the cursor. -/
structure TabPages (read : Runtime → Option ℕ → FeedPage) (states : ℕ → Runtime)
    (p : Post → Bool) : Prop where
  complete : ∃ pages, Chase read nextCursor states none pages ∧
    NewestFirst (states 0).feed p (pages.flatMap ids)
  below : ∀ b, ∃ pages, Chase read nextCursor states (some b) pages ∧
    (pages.flatMap ids).Pairwise (· > ·) ∧ ∀ id ∈ pages.flatMap ids, id < b

theorem PlacePages.tabPages {read : Runtime → Option ℕ → FeedPage} {states : ℕ → Runtime}
    {log : ℕ → List Post} {p : Post → Bool} (hpages : PlacePages read states log p)
    (hextends : ∀ n, log 0 <+: log n) (hrecords : (states 0).feed.Records (log 0)) :
    TabPages read states p := by
  refine ⟨hpages.exists_newestFirst hextends hrecords, fun b => ?_⟩
  obtain ⟨pages, hchase, hlisted⟩ := hpages.exists_listed hextends (some b)
  rw [List.filterMap_eq_filter] at hlisted
  refine ⟨pages, hchase, ?_, fun id hid => ?_⟩
  · rw [hlisted]
    exact (countdown_pairwise _ _).filter _
  · rw [hlisted] at hid
    have hlt := (mem_countdown.mp (List.mem_of_mem_filter hid)).2
    exact Nat.lt_of_lt_of_le hlt (Nat.min_le_left _ _)

theorem author_tabs_and_threads_complete (cfg : Config) (ops : List Op)
    (between : ℕ → List Op) (limit : ℕ)
    (hids : ∀ n,
      ((genesis.run cfg ops).readings cfg between n).feed.nextPostId < u64Max) :
    let first := genesis.run cfg ops
    let states := first.readings cfg between
    (∀ author viewer,
      TabPages (fun s before => s.authorFeedPage cfg author before limit viewer) states
          (fun post => decide (post.author = author ∧ post.parent = none)) ∧
        TabPages (fun s before => s.authorRepliesPage cfg author before limit viewer) states
          (fun post => decide (post.author = author ∧ post.parent ≠ none)) ∧
        ∀ n before,
          let page := (states n).authorFeedPage cfg author before limit viewer
          page.posts.length < clampLimit limit → page.nextCursor = none ∧
            ∀ id post, (states n).feed.posts.get id = some post → post.author = author →
              post.parent = none → (∀ b ∈ before, id < b) → id ∈ page.ids) ∧
    ∀ parent viewer, (∀ n, (states n).feed.replyCount.getD parent 0 < u32Max) →
      (∃ pages,
        Chase (fun s => s.threadReplies cfg parent limit viewer) nextCursor states none
            pages ∧
          NewestFirst first.feed (fun post => decide (post.parent = some parent))
            (pages.flatMap ids)) ∧
      ∀ b, ∃ pages,
        Chase (fun s => s.threadReplies cfg parent limit viewer) nextCursor states
            (some b) pages ∧
          (pages.flatMap ids).Pairwise (· > ·) ∧
          ∀ id ∈ pages.flatMap ids, ∃ seq < b,
            first.feed.repliesByParentSeq.get (parent, seq) = some id := by
  intro first states
  obtain ⟨log, hrecords, hroom, hextends⟩ := readings_records cfg ops between hids
  refine ⟨fun author viewer => ⟨?_, ?_, ?_⟩, fun parent viewer hreplies => ?_⟩
  · have hpages : PlacePages (fun s before => s.authorFeedPage cfg author before limit viewer)
        states log (fun post => decide (post.author = author ∧ post.parent = none)) :=
      fun n before =>
        (authorFeedPage_reads (hrecords n) (hroom n) cfg author before limit viewer).1
    exact hpages.tabPages hextends (hrecords 0)
  · have hpages : PlacePages (fun s before => s.authorRepliesPage cfg author before limit viewer)
        states log (fun post => decide (post.author = author ∧ post.parent ≠ none)) :=
      fun n before => authorRepliesPage_reads (hrecords n) (hroom n) cfg author before limit viewer
    exact hpages.tabPages hextends (hrecords 0)
  · intro n before page hshort
    obtain ⟨hreads, hlast⟩ :=
      authorFeedPage_reads (hrecords n) (hroom n) cfg author before limit viewer
    refine ⟨hlast hshort, fun id post hpost hauthor hparent hbefore => ?_⟩
    rw [(hrecords n).posts] at hpost
    have hbelow : id < cursorBound (log n).length before :=
      lt_cursorBound_iff.mpr ⟨(List.getElem?_eq_some_iff.mp hpost).1, hbefore⟩
    refine hreads.mem_iff.mpr ⟨?_, hbelow, ?_⟩
    · rw [hlast hshort]
      exact Nat.zero_le _
    · rw [hpost, Option.any_some, decide_eq_true_eq]
      exact ⟨hauthor, hparent⟩
  · have hcapped : ∀ n, (Feed.repliesIn (log n) parent).length ≤ u32Max := by
      intro n
      have hbelow := hreplies n
      rw [(hrecords n).replyCount] at hbelow
      exact Nat.le_of_lt (min_lt_iff.mp hbelow |>.resolve_right (Nat.lt_irrefl _))
    have hchase := threadReplies_chase cfg hrecords hroom hextends hcapped limit viewer
    refine ⟨?_, fun b => ?_⟩
    · obtain ⟨pages, hpages, hlisted⟩ := hchase none
      have hall := filterMap_countdown (Feed.repliesIn (log 0) parent) some
      simp only [Option.bind_fun_some, List.filterMap_some] at hall
      rw [cursorBound_none, hall] at hlisted
      refine ⟨pages, hpages, ?_⟩
      rw [hlisted]
      exact (hrecords 0).newestFirst _
    · obtain ⟨pages, hpages, hlisted⟩ := hchase (some b)
      refine ⟨pages, hpages, ?_, fun id hid => ?_⟩
      · rw [hlisted]
        exact (countdown_pairwise _ _).filterMap _ (fun seq later hlt id hid next hnext =>
          entries_lt List.pairwise_findIdxs hnext hid hlt)
      · rw [hlisted] at hid
        obtain ⟨seq, hseq, hid⟩ := List.mem_filterMap.mp hid
        refine ⟨seq, Nat.lt_of_lt_of_le (mem_countdown.mp hseq).2 (Nat.min_le_left _ _), ?_⟩
        exact (((hrecords 0).replies parent (hcapped 0)).row_eq seq).trans hid

theorem author_tabs_and_threads_complete_chatter :
    ((genesis.run toy chatter).threadReplies toy 0 1 none none).ids = [1] ∧
      (∃ pages,
        Chase (fun s before => s.authorRepliesPage toy ⟨2⟩ before 1 none)
            nextCursor
            ((genesis.run toy chatter).readings toy interruption) none
            pages ∧
          NewestFirst (genesis.run toy chatter).feed
            (fun post => decide (post.author = ⟨2⟩ ∧ post.parent ≠ none))
            (pages.flatMap ids)) ∧
      ∃ pages,
        Chase (fun s => s.threadReplies toy 0 1 none) nextCursor
            ((genesis.run toy chatter).readings toy interruption) none
            pages ∧
          NewestFirst (genesis.run toy chatter).feed
            (fun post => decide (post.parent = some 0)) (pages.flatMap ids) := by
  obtain ⟨htabs, hthreads⟩ :=
    author_tabs_and_threads_complete toy chatter interruption 1 chatter_ids
  have hreplies : ∀ n, ((genesis.run toy chatter).readings toy
      interruption n).feed.replyCount.getD 0 0 < u32Max := by
    intro n
    cases n with
    | zero => decide +kernel
    | succ n =>
        rw [chatter_readings]
        decide +kernel
  exact ⟨by decide +kernel, (htabs ⟨2⟩ none).2.1.complete, (hthreads 0 none hreplies).1⟩

/-- A thread lists its replies in the order they were made. -/
theorem thread_lists_oldest_first :
    ¬ (((genesis.run toy
      (chatter ++ [.call (.signed ⟨1⟩) (.microblog (.postMessage [99] (some 0)))])).thread
        toy 0 none).replies.map EnrichedPost.id).Pairwise (· > ·) := by
  decide +kernel

end CognoChain
