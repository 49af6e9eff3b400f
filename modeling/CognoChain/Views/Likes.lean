import CognoChain.Substrate.Tally
import CognoChain.Views.Author

/-!
# The likes tab

An account's likes are read off an index under big-endian complements of post
ids, so that byte order is newest first.  Likes come and go between the pages
of a chase; what it lists is right for every post as of the page that was read
at it.
-/

namespace CognoChain

open Substrate CognoChain.Runtime StorageMap

/-! ## The index of likes -/

/-- Votes are on stored posts, and the likes among them are in both indexes. -/
structure LikesIndexed (f : Feed) (b : Ballots) : Prop where
  next_le : f.nextPostId ≤ u64Max
  posts_le : ∀ postId, f.posts.contains postId = true → postId ≤ u64Max
  posted : ∀ postId who dir, b.votes.get (postId, who) = some dir →
    f.posts.contains postId = true
  votesByAccount : Mirrors b.votes b.votesByAccount (fun dir => decide (dir = .up))
    (fun vote => (vote.2, vote.1)) (fun _ => True)
  likesByAccount : Mirrors b.votes b.likesByAccount (fun dir => decide (dir = .up))
    (fun vote => (vote.2, descKey vote.1)) (fun vote => vote.1 ≤ u64Max)

section Index

variable {f : Feed} {b : Ballots} {postId : ℕ} {who : AccountId}

theorem descKey_inj {postId' : ℕ} (hle : postId ≤ u64Max) (hle' : postId' ≤ u64Max)
    (heq : descKey postId = descKey postId') : postId = postId' := by
  unfold descKey at heq
  omega

theorem swap_inj (a a' : ℕ × AccountId) (_ : True) (_ : True)
    (heq : (a.2, a.1) = (a'.2, a'.1)) : a = a' :=
  Prod.ext (Prod.mk.inj heq).2 (Prod.mk.inj heq).1

theorem likeKey_inj (a a' : ℕ × AccountId) (ha : a.1 ≤ u64Max) (ha' : a'.1 ≤ u64Max)
    (heq : (a.2, descKey a.1) = (a'.2, descKey a'.1)) : a = a' :=
  Prod.ext (descKey_inj ha ha' (Prod.mk.inj heq).2) (Prod.mk.inj heq).1

theorem any_up_iff (vote : Option VoteDir) :
    vote.any (fun dir => decide (dir = .up)) = true ↔ vote = some .up := by
  cases vote <;> simp

theorem LikesIndexed.genesis : LikesIndexed {} {} where
  next_le := Nat.zero_le _
  posts_le := nofun
  posted := nofun
  votesByAccount := .empty
  likesByAccount := .empty

theorem LikesIndexed.addPost (hlikes : LikesIndexed f b) (post : Post) :
    LikesIndexed (f.addPost post) b := by
  refine ⟨satAdd_le _ _ _, fun postId hposted => ?_, fun postId who dir hvote => ?_,
    hlikes.votesByAccount, hlikes.likesByAccount⟩
  · rw [Feed.addPost_posts, contains, get_insert] at hposted
    split_ifs at hposted with hid
    · rw [hid]
      exact hlikes.next_le
    · exact hlikes.posts_le postId hposted
  · rw [Feed.addPost_posts]
    exact contains_insert _ _ (hlikes.posted postId who dir hvote)

theorem LikesIndexed.castVote (hlikes : LikesIndexed f b)
    (hposted : f.posts.contains postId = true) (who : AccountId) (dir : VoteDir) :
    LikesIndexed f (b.castVote postId who dir) := by
  have hle : postId ≤ u64Max := hlikes.posts_le postId hposted
  have hvotes : ∀ postId' who' dir', (b.votes.insert (postId, who) dir).get (postId', who') =
      some dir' → f.posts.contains postId' = true := by
    intro postId' who' dir' hvote
    rw [get_insert] at hvote
    split_ifs at hvote with hkey
    · rw [(Prod.mk.inj hkey).1]
      exact hposted
    · exact hlikes.posted postId' who' dir' hvote
  cases dir with
  | up =>
    exact ⟨hlikes.next_le, hlikes.posts_le, hvotes,
      hlikes.votesByAccount.insert (a := (postId, who)) swap_inj trivial rfl,
      hlikes.likesByAccount.insert (a := (postId, who)) likeKey_inj hle rfl⟩
  | down =>
    exact ⟨hlikes.next_le, hlikes.posts_le, hvotes,
      hlikes.votesByAccount.drop (a := (postId, who)) swap_inj trivial rfl,
      hlikes.likesByAccount.drop (a := (postId, who)) likeKey_inj hle rfl⟩

theorem LikesIndexed.removeVote (hlikes : LikesIndexed f b)
    (hposted : f.posts.contains postId = true) (who : AccountId) (dir : VoteDir) :
    LikesIndexed f (b.removeVote postId who dir) := by
  refine ⟨hlikes.next_le, hlikes.posts_le, fun postId' who' dir' hvote => ?_,
    hlikes.votesByAccount.remove (a := (postId, who)) swap_inj trivial,
    hlikes.likesByAccount.remove (a := (postId, who)) likeKey_inj
      (hlikes.posts_le postId hposted)⟩
  have hvote : (b.votes.remove (postId, who)).get (postId', who') = some dir' := hvote
  rw [get_remove] at hvote
  split_ifs at hvote
  exact hlikes.posted postId' who' dir' hvote

theorem SocialStep.likesIndexed {cfg : Config} {s : Runtime} {op : Op} {after : Social}
    (hstep : SocialStep cfg s op after) (hlikes : LikesIndexed s.feed s.ballots) :
    LikesIndexed after.feed after.ballots := by
  cases hstep with
  | post post => exact hlikes.addPost post
  | createPoll who question poll hcreated =>
    exact hlikes.addPost ⟨who, question, none, s.blockNumber, none⟩
  | castVote postId who dir hposted => exact hlikes.castVote hposted who dir
  | removeVote postId who dir hvote =>
    exact hlikes.removeVote (hlikes.posted postId who dir hvote) who dir
  | castAccountVote target who dir hne => exact { hlikes with }
  | removeAccountVote target who dir hvote => exact { hlikes with }
  | _ => exact hlikes

theorem Runtime.step_likesIndexed (cfg : Config) (s : Runtime) (op : Op)
    (hlikes : LikesIndexed s.feed s.ballots) :
    LikesIndexed (s.step cfg op).feed (s.step cfg op).ballots :=
  (step_socialStep op).likesIndexed hlikes

end Index

/-! ## One page -/

section Page

variable {s : Runtime} {who : AccountId} {key : Bytes}

def Runtime.likedPosts (s : Runtime) (who : AccountId) : List ℕ :=
  (s.likeKeys who).map postOfDescKey

theorem u64Max_lt_pow : u64Max < 256 ^ 8 := by decide

theorem mem_likeKeys (hlikes : LikesIndexed s.feed s.ballots) :
    key ∈ s.likeKeys who ↔ ∃ postId, s.ballots.votes.get (postId, who) = some .up ∧
      postId ≤ u64Max ∧ key = beBytes 8 (descKey postId) := by
  unfold likeKeys
  rw [List.mem_insertionSort, List.mem_map]
  constructor
  · rintro ⟨row, hrow, rfl⟩
    rw [List.mem_filter, mem_keys_iff, decide_eq_true_eq] at hrow
    obtain ⟨hstored, hwho⟩ := hrow
    obtain ⟨⟨postId, voter⟩, hle, rfl⟩ := hlikes.likesByAccount.covered row hstored
    dsimp only at hwho hle
    subst hwho
    have hvote := (hlikes.likesByAccount.stored_iff (postId, voter) hle).mp hstored
    exact ⟨postId, (any_up_iff _).mp hvote, hle, rfl⟩
  · rintro ⟨postId, hvote, hle, rfl⟩
    refine ⟨(who, descKey postId), ?_, rfl⟩
    rw [List.mem_filter, mem_keys_iff, decide_eq_true_eq]
    exact ⟨(hlikes.likesByAccount.stored_iff (postId, who) hle).mpr
      ((any_up_iff _).mpr hvote), rfl⟩

theorem Runtime.postOfDescKey_beBytes {postId : ℕ} (hle : postId ≤ u64Max) :
    postOfDescKey (beBytes 8 (descKey postId)) = postId := by
  have hkey : descKey postId < 256 ^ 8 :=
    Nat.lt_of_le_of_lt (Nat.sub_le _ _) u64Max_lt_pow
  rw [postOfDescKey, beVal_beBytes hkey, descKey]
  omega

section

variable (hlikes : LikesIndexed s.feed s.ballots)
include hlikes

theorem mem_likedPosts {postId : ℕ} :
    postId ∈ s.likedPosts who ↔ s.ballots.votes.get (postId, who) = some .up := by
  unfold likedPosts
  rw [List.mem_map]
  constructor
  · rintro ⟨key, hkey, rfl⟩
    obtain ⟨postId, hvote, hle, rfl⟩ := (mem_likeKeys hlikes).mp hkey
    rwa [postOfDescKey_beBytes hle]
  · intro hvote
    have hle := hlikes.posts_le postId (hlikes.posted postId who .up hvote)
    exact ⟨_, (mem_likeKeys hlikes).mpr ⟨postId, hvote, hle, rfl⟩,
      postOfDescKey_beBytes hle⟩

theorem beVal_of_mem_likeKeys (hkey : key ∈ s.likeKeys who) :
    key.length = 8 ∧ beVal key ≤ u64Max := by
  obtain ⟨postId, -, -, rfl⟩ := (mem_likeKeys hlikes).mp hkey
  have hle : descKey postId ≤ u64Max := Nat.sub_le _ _
  rw [beVal_beBytes (Nat.lt_of_le_of_lt hle u64Max_lt_pow)]
  exact ⟨beBytes_length _ _, hle⟩

theorem likeKeys_nodup : (s.likeKeys who).Nodup := by
  unfold likeKeys
  rw [(List.perm_insertionSort _ _).nodup_iff]
  refine List.Nodup.map_on ?_ ((keys_nodup _).filter _)
  intro row hrow row' hrow' heq
  rw [List.mem_filter, mem_keys_iff, decide_eq_true_eq] at hrow hrow'
  have hvalue : ∀ row, (s.ballots.likesByAccount.get row).isSome = true → row.2 < 256 ^ 8 := by
    intro row hstored
    obtain ⟨vote, -, rfl⟩ := hlikes.likesByAccount.covered row hstored
    exact Nat.lt_of_le_of_lt (Nat.sub_le _ _) u64Max_lt_pow
  have hsame := congrArg beVal heq
  rw [beVal_beBytes (hvalue row hrow.1), beVal_beBytes (hvalue row' hrow'.1)] at hsame
  exact Prod.ext (hrow.2.trans hrow'.2.symm) hsame

theorem likedPosts_sorted :
    (s.likedPosts who).Pairwise (· > ·) := by
  have hsorted : (s.likeKeys who).Pairwise (fun a b => a ≤ b) :=
    List.pairwise_insertionSort _ _
  refine List.pairwise_map.mpr ((hsorted.and (likeKeys_nodup hlikes)).imp_of_mem ?_)
  rintro a b ha hb ⟨hle, hne⟩
  obtain ⟨hlength, hmax⟩ := beVal_of_mem_likeKeys hlikes ha
  obtain ⟨hlength', hmax'⟩ := beVal_of_mem_likeKeys hlikes hb
  have hlength_eq : a.length = b.length := hlength.trans hlength'.symm
  have hge : ¬ beVal b < beVal a := (lt_iff_beVal_lt hlength_eq.symm).not.mp hle
  have hval : beVal a ≠ beVal b := fun h => hne (beVal_inj hlength_eq h)
  unfold Runtime.postOfDescKey
  omega

theorem likeKeysFrom_posts {b : ℕ} (hb : b ≤ u64Max) :
    (s.likeKeysFrom who (beBytes 8 (descKey b))).map Runtime.postOfDescKey =
      (s.likedPosts who).filter (fun postId => postId < b) := by
  unfold likeKeysFrom likedPosts
  rw [List.filter_map]
  refine congrArg _ (List.filter_congr (fun key hkey => ?_))
  obtain ⟨hlength, hmax⟩ := beVal_of_mem_likeKeys hlikes hkey
  have hcursor : descKey b ≤ u64Max := Nat.sub_le _ _
  have horder : beBytes 8 (descKey b) < key ↔ descKey b < beVal key := by
    rw [lt_iff_beVal_lt ((beBytes_length _ _).trans hlength.symm),
      beVal_beBytes (Nat.lt_of_le_of_lt hcursor u64Max_lt_pow)]
  rw [Function.comp_apply, decide_eq_decide, horder, Runtime.postOfDescKey, descKey]
  omega

end

def Runtime.likesBelow (s : Runtime) (who : AccountId) (beforeId : Option ℕ) : List ℕ :=
  (s.likedPosts who).filter (fun postId => beforeId.all (fun b => postId < b))

theorem likesLoop_walks {keys : List Bytes} (limit : ℕ) (viewer : Option AccountId)
    (stakers : List (AccountId × ℕ))
    (hstored : ∀ key ∈ keys, ∃ post, s.feed.posts.get (Runtime.postOfDescKey key) = some post)
    (posts : List EnrichedPost) :
    Fills limit (fun postId => satAdd u64Max postId 1) posts (keys.map Runtime.postOfDescKey)
      (s.likesLoop limit viewer stakers keys posts) := by
  induction keys generalizing posts with
  | nil => exact .nil posts
  | cons key keys ih =>
    rw [likesLoop]
    by_cases hfull : limit ≤ posts.length
    · rw [if_pos hfull]
      exact .full hfull _ _
    · obtain ⟨post, hpost⟩ := hstored key List.mem_cons_self
      rw [if_neg hfull, enrichedPost_of_stored hpost, Option.toList_some]
      exact .cons (s.enrich _ post viewer stakers)
        (ih (fun key hkey => hstored key (List.mem_cons_of_mem _ hkey)) _)

theorem likesPage_reads (hlikes : LikesIndexed s.feed s.ballots) (cfg : Config)
    (who : AccountId) {beforeId : Option ℕ} (hcursor : ∀ b ∈ beforeId, b ≤ u64Max) (limit : ℕ)
    (viewer : Option AccountId) :
    Reads (Option.guard (fun postId => decide (s.ballots.votes.get (postId, who) = some .up)))
      (cursorBound (u64Max + 1) beforeId) (s.likesPage cfg who beforeId limit viewer).ids
      (s.likesPage cfg who beforeId limit viewer).nextCursor := by
  obtain ⟨keys, hpage, hkeys, hmap⟩ : ∃ keys,
      s.likesPage cfg who beforeId limit viewer =
        s.likesLoop (clampLimit limit) viewer (s.stakerWeights cfg) keys [] ∧
      (∀ key ∈ keys, key ∈ s.likeKeys who) ∧
      keys.map Runtime.postOfDescKey = s.likesBelow who beforeId := by
    cases beforeId with
    | none =>
      refine ⟨s.likeKeys who, rfl, fun key hkey => hkey, ?_⟩
      simp [likesBelow, likedPosts]
    | some b =>
      refine ⟨_, rfl, fun key hkey => List.mem_of_mem_filter hkey, ?_⟩
      exact likeKeysFrom_posts hlikes (hcursor b rfl)
  have hstored : ∀ key ∈ keys, ∃ post,
      s.feed.posts.get (Runtime.postOfDescKey key) = some post := by
    intro key hkey
    obtain ⟨postId, hvote, hle, rfl⟩ := (mem_likeKeys hlikes).mp (hkeys key hkey)
    rw [postOfDescKey_beBytes hle]
    exact Option.isSome_iff_exists.mp (hlikes.posted postId who .up hvote)
  obtain ⟨seen, rest, hsplit, hids, hnext, hfull⟩ :=
    likesLoop_walks (clampLimit limit) viewer (s.stakerWeights cfg) hstored []
  have hmoves : rest ≠ [] → seen ≠ [] := by
    intro hrest hseen
    have hle := hfull hrest
    rw [hseen] at hle
    exact Nat.not_lt.mpr hle (clampLimit_pos limit)
  have hcandidates : s.likesBelow who beforeId = seen ++ rest := hmap.symm.trans hsplit
  have hsorted : (s.likesBelow who beforeId).Pairwise (· > ·) := (likedPosts_sorted hlikes).filter _
  have hmem : ∀ postId, postId ∈ s.likesBelow who beforeId ↔
      s.ballots.votes.get (postId, who) = some .up ∧ ∀ b ∈ beforeId, postId < b := by
    intro postId
    rw [likesBelow, List.mem_filter, mem_likedPosts hlikes]
    cases beforeId <;> simp
  have hmax : ∀ postId ∈ s.likesBelow who beforeId, postId ≤ u64Max := fun postId hliked =>
    hlikes.posts_le postId (hlikes.posted postId who .up ((hmem postId).mp hliked).1)
  have hcursors : rest.head?.map (fun postId => satAdd u64Max postId 1) =
      rest.head?.map (· + 1) := by
    cases rest with
    | nil => rfl
    | cons head tail =>
      -- a page that stops has listed a newer post, so the cursor does not saturate
      obtain ⟨first, hfirst⟩ := List.exists_mem_of_ne_nil seen (hmoves nofun)
      rw [hcandidates] at hsorted hmax
      have hlt : head < first :=
        (List.pairwise_append.mp hsorted).2.2 first hfirst head List.mem_cons_self
      have hle := hmax first (List.mem_append_left _ hfirst)
      rw [List.head?_cons, Option.map_some, Option.map_some, satAdd_succ_of_lt (by omega)]
  have hreads : Reads
      (Option.guard (fun postId => decide (s.ballots.votes.get (postId, who) = some .up)))
      (cursorBound (u64Max + 1) beforeId) (seen.filter (fun _ => true))
      (rest.head?.map (· + 1)) := by
    refine Reads.of_walk hsorted (fun postId hliked => ?_) (fun postId hbelow => ?_) hcandidates
      hmoves
    · exact lt_cursorBound_iff.mpr
        ⟨Nat.lt_succ_of_le (hmax postId hliked), ((hmem postId).mp hliked).2⟩
    · rw [decide_eq_true_eq, and_iff_left rfl, hmem]
      exact (and_iff_left (lt_cursorBound_iff.mp hbelow).2).symm
  rw [List.filter_true, ← hcursors, ← hnext] at hreads
  rw [hpage, hids]
  exact hreads

end Page

/-! ## The chase -/

theorem likes_tab_tracks (cfg : Config) (ops : List Op) (between : ℕ → List Op)
    (who : AccountId) (limit : ℕ) (viewer : Option AccountId) :
    let states := (genesis.run cfg ops).readings cfg between
    ∃ pages,
      Chase (fun s before => s.likesPage cfg who before limit viewer) FeedPage.nextCursor states
          none pages ∧
        (pages.flatMap FeedPage.ids).Pairwise (· > ·) ∧
        (∀ postId,
          (∀ n < pages.length, (states n).ballots.votes.get (postId, who) = some .up) →
          postId ∈ pages.flatMap FeedPage.ids) ∧
        ∀ n page, pages[n]? = some page → ∀ postId ∈ page.ids,
          (states n).ballots.votes.get (postId, who) = some .up := by
  intro states
  have hlikes : ∀ n, LikesIndexed (states n).feed (states n).ballots := by
    intro n
    refine readings_invariant cfg (fun s => LikesIndexed s.feed s.ballots) between
      (step_likesIndexed cfg) ?_ n
    exact run_invariant (fun s : Runtime => LikesIndexed s.feed s.ballots) ops
      (step_likesIndexed cfg) LikesIndexed.genesis
  -- a cursor above every id stands for none
  let read : Runtime → Option ℕ → FeedPage := fun s before =>
    s.likesPage cfg who (before.filter (fun b => b ≤ u64Max)) limit viewer
  have hpages : PagesOf read FeedPage.nextCursor FeedPage.ids states
      (fun n => Option.guard
        (fun postId => decide ((states n).ballots.votes.get (postId, who) = some .up)))
      (fun _ => u64Max + 1) := by
    intro n before
    have hfits : ∀ b ∈ before.filter (fun b => b ≤ u64Max), b ≤ u64Max :=
      fun b hb => by simpa using (Option.mem_filter_iff.mp hb).2
    have hbound : cursorBound (u64Max + 1) (before.filter (fun b => b ≤ u64Max)) =
        cursorBound (u64Max + 1) before := by
      cases before with
      | none => rfl
      | some b =>
          by_cases hb : b ≤ u64Max
          · rw [Option.filter_some_pos (by simpa using hb)]
          · rw [Option.filter_some_neg (by simpa using hb), cursorBound_none, cursorBound_some,
              Nat.min_eq_right (Nat.not_le.mp hb)]
    have hreads := likesPage_reads (hlikes n) cfg who hfits limit viewer
    rwa [hbound] at hreads
  obtain ⟨pages, hchase⟩ := hpages.exists_chase none
  have htracks := hchase.tracks hpages (fun n => Nat.le_refl _)
  refine ⟨pages, ?_, htracks.descending, fun postId hliked => ?_, htracks.sound⟩
  · refine hchase.congr (fun cursor => ∀ b ∈ cursor, b ≤ u64Max) nofun ?_ ?_
    · intro s cursor hcursor
      have hsame : cursor.filter (fun b => b ≤ u64Max) = cursor := by
        cases cursor with
        | none => rfl
        | some b => exact Option.filter_some_pos (by simpa using hcursor b rfl)
      exact congrArg (fun before => s.likesPage cfg who before limit viewer) hsame
    · intro n cursor lo hnext b hb
      have hlt := Nat.lt_of_lt_of_le ((hpages n cursor).next_lt lo hnext) (Nat.min_le_right _ _)
      rw [← Option.some.inj hb]
      exact Nat.le_of_lt_succ hlt
  · have hlive : (states 0).ballots.votes.get (postId, who) = some .up :=
      hliked 0 hchase.length_pos
    refine htracks.complete postId ?_ hliked
    rw [cursorBound_none]
    exact Nat.lt_succ_of_le ((hlikes 0).posts_le postId ((hlikes 0).posted postId who .up hlive))

end CognoChain
