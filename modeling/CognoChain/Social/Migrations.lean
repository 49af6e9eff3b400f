import CognoChain.Model.Migrations
import CognoChain.Social.Consistency

/-!
# The index migrations rebuild the live indexes

A state that passes the storage-consistency check is stored the way version 9
stored it and then taken through the migrations.  The check makes every numbered
index dense, so each index is determined by the lists it holds; the migrations
write exactly those lists under consecutive numbers.
-/

namespace CognoChain

open Substrate CognoChain.Runtime StorageMap Migrations

/-! ## What the check says -/

section Checked

variable {K R V : Type*} [StorageKey K] [DecidableEq K] {disagrees gap leftover : String}
  {counts : StorageMap K ℕ} {rows : List R} {bound : ℕ} {index : StorageMap (K × ℕ) V}

theorem getD_of_checkCounts {key : R → K}
    (hcheck : checkCounts key rows counts disagrees leftover = .ok ()) (k : K) :
    counts.getD k 0 = min (rows.filter (fun row => key row = k)).length u32Max := by
  rw [checkCounts, audit_eq_ok_iff] at hcheck
  obtain ⟨hcounts, hcovered⟩ := hcheck
  cases hget : counts.get k with
  | some count =>
    have hcount := hcounts k count hget
    rw [ensure_eq_ok_iff, decide_eq_true_eq, foldl_count] at hcount
    rw [getD_of_get_some hget, hcount]
  | none =>
    have hnone : rows.filter (fun row => key row = k) = [] := by
      rw [List.filter_eq_nil_iff]
      intro row hrow hkey
      have hstored := hcovered row hrow
      rw [of_decide_eq_true hkey, contains, hget] at hstored
      cases hstored
    rw [getD_of_get_none hget, hnone]
    rfl

omit [StorageKey K] [DecidableEq K] in
theorem le_foldl_max (size : R → ℕ) {row : R} (hrow : row ∈ rows) (start : ℕ) :
    size row ≤ rows.foldl (fun highest row => max highest (size row)) start := by
  induction rows using List.reverseRecOn with
  | nil => cases hrow
  | append_singleton rows last ih =>
    rw [List.foldl_append]
    rcases List.mem_append.mp hrow with hrow | hrow
    · exact Nat.le_trans (ih hrow) (Nat.le_max_left _ _)
    · rw [List.mem_singleton.mp hrow]
      exact Nat.le_max_right _ _

theorem numbers_of_checkSeqs (hbound : 0 < bound)
    (hcheck : checkSeqs bound index counts disagrees gap leftover = .ok ()) (k : K) :
    Numbers (fun seq => index.get (k, seq)) (counts.getD k 0) (index.rowsUnder k) := by
  rw [checkSeqs, audit_eq_ok_iff] at hcheck
  obtain ⟨hcounts, hcovered⟩ := hcheck
  have hdense : ∀ seq, (index.get (k, seq)).isSome = true ↔ seq < counts.getD k 0 := by
    cases hget : counts.get k with
    | none =>
      intro seq
      rw [getD_of_get_none hget]
      refine iff_of_false (fun hstored => ?_) (Nat.not_lt_zero seq)
      obtain ⟨v, hv⟩ := Option.isSome_iff_exists.mp hstored
      have hcounter := hcovered ((k, seq), v) (get_eq_some_iff.mp hv)
      rw [contains, hget] at hcounter
      cases hcounter
    | some count =>
      have hcount := hcounts k count hget
      rw [foldl_bumpSeq, bind_eq_ok_iff, ensure_eq_ok_iff, ensure_eq_ok_iff,
        decide_eq_true_eq, filter_entries_length] at hcount
      obtain ⟨hsize, hgap⟩ := hcount
      have hrows : ∀ seq, (index.get (k, seq)).isSome = true → ∃ v,
          ((k, seq), v) ∈ index.entries.filter (fun row => row.1.1 = k) := by
        intro seq hstored
        obtain ⟨v, hv⟩ := Option.isSome_iff_exists.mp hstored
        exact ⟨v, List.mem_filter.mpr ⟨get_eq_some_iff.mp hv, by simp⟩⟩
      rw [getD_of_get_some hget]
      refine dense_of_count (by omega) (fun seq hstored => ?_)
      obtain ⟨v, hrow⟩ := hrows seq hstored
      have hpos : 0 < index.count (fun key _ => key.1 = k) := by
        rw [← filter_entries_length]
        exact List.length_pos_of_mem hrow
      have hhighest := le_foldl_max (fun row : (K × ℕ) × V => row.1.2) hrow 0
      simp only [Bool.not_eq_true', Bool.and_eq_false_iff, decide_eq_false_iff_not] at hgap
      dsimp only at hhighest
      omega
  have hnumbers := Numbers.of_dense hdense
  rw [hnumbers.rowsUnder_eq]
  exact hnumbers

theorem getD_le_of_checkSeqs (hcheck : checkSeqs bound index counts disagrees gap leftover = .ok ())
    (k : K) :
    counts.getD k 0 ≤ bound := by
  rw [checkSeqs, audit_eq_ok_iff] at hcheck
  cases hget : counts.get k with
  | none =>
    rw [getD_of_get_none hget]
    exact Nat.zero_le bound
  | some count =>
    have hcount := hcheck.1 k count hget
    rw [foldl_bumpSeq, bind_eq_ok_iff, ensure_eq_ok_iff, decide_eq_true_eq] at hcount
    rw [getD_of_get_some hget, hcount.1]
    exact Nat.min_le_right _ _

end Checked

/-! ## The author indexes -/

section Repaging

variable {index : StorageMap (AccountId × ℕ) ℕ} {postless : List AccountId} {hash : ℕ → ℕ}
  {who : AccountId} {lists : AccountId → List ℕ}

theorem blobs_get_list (who : AccountId) :
    (blobs index postless).get (who, none) =
      if who ∈ index.keys.map Prod.fst ++ postless then some (.ids (index.rowsUnder who))
      else none := by
  unfold blobs
  generalize index.keys.map Prod.fst ++ postless = accounts
  induction accounts using List.reverseRecOn with
  | nil => rfl
  | append_singleton accounts last ih =>
    rw [List.foldl_append, List.foldl_cons, List.foldl_nil, get_insert, ih]
    by_cases hlast : who = last
    · subst hlast
      simp
    · simp [hlast]

theorem blobs_get_row (who : AccountId) (seq : ℕ) :
    (blobs index postless).get (who, some seq) = none := by
  unfold blobs
  generalize index.keys.map Prod.fst ++ postless = accounts
  induction accounts using List.reverseRecOn with
  | nil => rfl
  | append_singleton accounts last ih =>
    rw [List.foldl_append, List.foldl_cons, List.foldl_nil, get_insert_of_ne, ih]
    simp

def blobAccounts (hash : ℕ → ℕ) (index : StorageMap (AccountId × ℕ) ℕ)
    (postless : List AccountId) : List AccountId :=
  ((blobs index postless).iterKeys hash).map Prod.fst

theorem mem_iterKeys_blobs {key : IndexKey} :
    key ∈ (blobs index postless).iterKeys hash ↔
      key.2 = none ∧ key.1 ∈ index.keys.map Prod.fst ++ postless := by
  obtain ⟨who, _ | seq⟩ := key
  · rw [mem_iterKeys, blobs_get_list]
    split_ifs with hmem <;> simp [hmem]
  · rw [mem_iterKeys, blobs_get_row]
    simp

theorem mem_blobAccounts :
    who ∈ blobAccounts hash index postless ↔ who ∈ index.keys.map Prod.fst ++ postless := by
  rw [blobAccounts, List.mem_map]
  constructor
  · rintro ⟨key, hkey, rfl⟩
    exact (mem_iterKeys_blobs.mp hkey).2
  · exact fun hmem => ⟨(who, none), mem_iterKeys_blobs.mpr ⟨rfl, hmem⟩, rfl⟩

theorem blobAccounts_nodup (hash : ℕ → ℕ) : (blobAccounts hash index postless).Nodup := by
  refine List.Nodup.map_on (fun key hkey key' hkey' heq => ?_) (iterKeys_nodup hash _)
  exact Prod.ext heq
    ((mem_iterKeys_blobs.mp hkey).1.trans (mem_iterKeys_blobs.mp hkey').1.symm)

theorem iterBlobs_blobs (hash : ℕ → ℕ) (misread : ℕ → Option (List ℕ)) :
    iterBlobs hash misread (blobs index postless) =
      (blobAccounts hash index postless).map (fun who => (who, index.rowsUnder who)) := by
  rw [iterBlobs, blobAccounts, List.map_map, ← List.filterMap_eq_map]
  refine List.filterMap_congr (fun key hkey => ?_)
  obtain ⟨who, old⟩ := key
  obtain ⟨rfl, hmem⟩ := mem_iterKeys_blobs.mp hkey
  simp only [blobs_get_list, if_pos hmem]
  rfl

/-- An author index after the lists of some accounts were written as rows. -/
structure Repaged (lists : AccountId → List ℕ) (done : List AccountId)
    (index : StorageMap IndexKey IndexRow × StorageMap AccountId ℕ) : Prop where
  list : ∀ who, index.1.get (who, none) = none
  row : ∀ who seq, index.1.get (who, some seq) =
    if who ∈ done then (lists who)[seq]?.map IndexRow.id else none
  count : ∀ who, index.2.get who =
    if who ∈ done ∧ lists who ≠ [] then some (lists who).length else none

theorem Repaged.author {done : List AccountId}
    {index : StorageMap IndexKey IndexRow × StorageMap AccountId ℕ}
    (hrepaged : Repaged lists done index) (hnew : who ∉ done) (hroom : (lists who).length ≤ u64Max) :
    Repaged lists (done ++ [who]) (repageAuthor index (who, lists who)) := by
  have hempty : ∀ seq, index.1.get (who, some seq) = none := by
    intro seq
    rw [hrepaged.row, if_neg hnew]
  have hkey : Function.Injective (fun seq : ℕ => (who, some seq)) := by
    intro seq seq' h
    exact Option.some.inj (Prod.mk.inj h).2
  have hlength : ((lists who).map IndexRow.id).length ≤ u64Max :=
    List.length_map _ |>.trans_le hroom
  have hrows := writeNumbered_numbers hkey hempty hlength
  refine ⟨fun other => ?_, fun other seq => ?_, fun other => ?_⟩
  · rw [repageAuthor, writeNumbered_get_of_ne (by simp), hrepaged.list]
  · by_cases hother : other = who
    · subst hother
      rw [if_pos (by simp), ← List.getElem?_map]
      exact hrows.row_eq seq
    · rw [repageAuthor, writeNumbered_get_of_ne (by simp [hother]), hrepaged.row]
      simp [hother]
  · have hcount : (writeNumbered u64Max (fun seq => (who, some seq)) index.1
        ((lists who).map IndexRow.id)).2 = (lists who).length := by
      rw [hrows.count_eq, List.length_map]
    simp only [repageAuthor, hcount, List.length_pos_iff]
    by_cases hother : other = who
    · subst hother
      by_cases hlist : lists other = []
      · rw [if_neg (not_not.mpr hlist), hrepaged.count]
        simp [hlist]
      · simp [hlist]
    · have hkept : (if lists who ≠ [] then index.2.insert who (lists who).length
          else index.2).get other = index.2.get other := by
        split_ifs
        · exact get_insert_of_ne _ _ hother
        · rfl
      rw [hkept, hrepaged.count]
      simp [hother]

theorem Repaged.authors (hroom : ∀ who, (lists who).length ≤ u64Max)
    {rows : StorageMap IndexKey IndexRow} (hrows : ∀ key, rows.get key = none)
    {accounts : List AccountId} (hnodup : accounts.Nodup) :
    Repaged lists accounts ((accounts.map (fun who => (who, lists who))).foldl
      repageAuthor (rows, ∅)) := by
  induction accounts using List.reverseRecOn with
  | nil => exact ⟨fun _ => hrows _, fun _ _ => hrows _, fun _ => by simp⟩
  | append_singleton accounts who ih =>
    obtain ⟨hearlier, -, hdisjoint⟩ := List.nodup_append.mp hnodup
    rw [List.map_append, List.foldl_append]
    exact (ih hearlier).author
      (fun hmem => hdisjoint who hmem who (List.mem_singleton_self who) rfl) (hroom who)

/-- Every list is removed before the rows are written. -/
theorem blobs_cleared (hash : ℕ → ℕ) (key : IndexKey) :
    ((blobs index postless).removeAll
      ((blobAccounts hash index postless).map (fun who => (who, none)))).get key = none := by
  rw [get_removeAll]
  obtain ⟨who, _ | seq⟩ := key
  · rw [blobs_get_list]
    simp only [List.mem_map, Prod.mk.injEq, and_true, exists_eq_right, mem_blobAccounts]
    split_ifs <;> rfl
  · rw [blobs_get_row, ite_self]

theorem repage_blobs (hash : ℕ → ℕ) (misread : ℕ → Option (List ℕ))
    (hroom : ∀ who, (index.rowsUnder who).length ≤ u64Max) :
    Repaged index.rowsUnder (blobAccounts hash index postless)
      (repage hash misread (blobs index postless) ∅) := by
  rw [repage, iterBlobs_blobs, List.map_map]
  exact Repaged.authors hroom (blobs_cleared hash) (blobAccounts_nodup hash)

/-- The numbered rows of an author index as the migrated storage holds them. -/
structure HoldsIndex (index : StorageMap (AccountId × ℕ) ℕ) (counts : StorageMap AccountId ℕ)
    (rows : StorageMap IndexKey IndexRow) (counted : StorageMap AccountId ℕ) : Prop where
  list : ∀ who, rows.get (who, none) = none
  row : ∀ who seq, rows.get (who, some seq) = (index.get (who, seq)).map IndexRow.id
  counts : counted = counts
  postless : ∀ who, (∀ seq, index.get (who, seq) = none) → counted.get who = none

theorem repage_rebuilds (hash : ℕ → ℕ) (misread : ℕ → Option (List ℕ))
    {counts : StorageMap AccountId ℕ}
    (hnumbers : ∀ who, Numbers (fun seq => index.get (who, seq)) (counts.getD who 0)
      (index.rowsUnder who))
    (hcounts : ∀ who, counts.get who ≠ some 0) (hmax : ∀ who, counts.getD who 0 ≤ u64Max) :
    HoldsIndex index counts (repage hash misread (blobs index postless) ∅).1
      (repage hash misread (blobs index postless) ∅).2 := by
  have hlength : ∀ who, (index.rowsUnder who).length = counts.getD who 0 :=
    fun who => (hnumbers who).count_eq.symm
  have hrepaged : Repaged index.rowsUnder (blobAccounts hash index postless)
      (repage hash misread (blobs index postless) ∅) :=
    repage_blobs hash misread (fun who => (hlength who).trans_le (hmax who))
  generalize repage hash misread (blobs index postless) ∅ = after at hrepaged
  have hwritten : ∀ who, who ∉ blobAccounts hash index postless → index.rowsUnder who = [] := by
    intro who hwho
    refine rowsUnder_eq_nil (fun seq => ?_)
    rw [← Option.not_isSome_iff_eq_none]
    intro hstored
    refine hwho (mem_blobAccounts.mpr (List.mem_append_left _ ?_))
    exact List.mem_map_of_mem (f := Prod.fst) (mem_keys_iff.mpr hstored)
  have hcounted : ∀ who, after.2.get who =
      if index.rowsUnder who ≠ [] then some (index.rowsUnder who).length else none := by
    intro who
    rw [hrepaged.count]
    refine if_congr (and_iff_right_of_imp (fun hrows => ?_)) rfl rfl
    exact not_not.mp (fun hwho => hrows (hwritten who hwho))
  refine ⟨hrepaged.list, fun who seq => ?_, ext_get (fun who => ?_),
    fun who hnone => ?_⟩
  · rw [hrepaged.row, (hnumbers who).row_eq]
    split_ifs with hwho
    · rfl
    · rw [hwritten who hwho]
      rfl
  · rw [hcounted, hlength]
    cases hget : counts.get who with
    | none =>
      have hnil : index.rowsUnder who = [] := by
        rw [← List.length_eq_zero_iff, hlength, getD_of_get_none hget]
      rw [if_neg (not_not.mpr hnil)]
    | some count =>
      have hrows : index.rowsUnder who ≠ [] := by
        intro hnil
        have hzero : counts.getD who 0 = 0 := by rw [← hlength, hnil, List.length_nil]
        rw [getD_of_get_some hget] at hzero
        exact hcounts who (hget.trans (congrArg some hzero))
      rw [if_pos hrows, getD_of_get_some hget]
  · rw [hcounted, rowsUnder_eq_nil hnone, if_neg (not_not.mpr rfl)]

end Repaging

/-! ## The replies of a post -/

section Replies

variable {s : Runtime} {hash : ℕ → ℕ} {replies : StorageMap (ℕ × ℕ) Unit} {parent : ℕ}

theorem mem_replyPairs {pair : ℕ × ℕ} :
    pair ∈ replyPairs hash replies ↔ replies.contains pair = true := by
  rw [replyPairs, List.mem_map]
  simp only [mem_orderedSet, List.mem_map, mem_iterKeys, contains_eq_isSome]
  constructor
  · rintro ⟨_, ⟨key, hkey, rfl⟩, rfl⟩
    exact hkey
  · exact fun hkey => ⟨toLex pair, ⟨pair, hkey, rfl⟩, rfl⟩

section

variable (hash replies)

theorem replyPairs_pairwise :
    (replyPairs hash replies).Pairwise
      (fun a b => a.1 < b.1 ∨ a.1 = b.1 ∧ a.2 < b.2) := by
  rw [replyPairs, List.pairwise_map]
  exact (orderedSet_pairwise _).imp (fun hlt => Prod.Lex.lt_iff.mp hlt)

theorem replyPairs_ascending (parent : ℕ) :
    (rowsFor (replyPairs hash replies) parent).Pairwise (· < ·) := by
  rw [rowsFor, List.pairwise_map, List.pairwise_filter]
  refine (replyPairs_pairwise hash replies).imp (fun {a b} horder ha hb => ?_)
  rcases horder with hlt | ⟨-, hlt⟩
  · rw [of_decide_eq_true ha, of_decide_eq_true hb] at hlt
    exact absurd hlt (Nat.lt_irrefl parent)
  · exact hlt

theorem rowsFor_replyPairs_length (parent : ℕ) :
    (rowsFor (replyPairs hash replies) parent).length =
      replies.count (fun key _ => key.1 = parent) := by
  refine (count_eq_length (replyPairs_ascending hash replies parent).nodup (fun id => ?_)).symm
  rw [mem_rowsFor, mem_replyPairs, contains_eq_isSome]

end

/-- The check says that a numbered reply is a reply, and that later numbers have
later replies. -/
theorem spine_ascending {count : ℕ} {entries : List ℕ}
    (hcheck : s.checkReplySpine = .ok ()) (hcount : count ≤ u32Max)
    (hspine : Numbers (fun seq => s.feed.repliesByParentSeq.get (parent, seq)) count entries) :
    entries.Pairwise (· < ·) ∧
      ∀ id ∈ entries, s.feed.repliesByParent.contains (parent, id) = true := by
  rw [checkReplySpine, bind_eq_ok_iff, checkEach_eq_ok_iff] at hcheck
  have hrow : ∀ seq id, entries[seq]? = some id →
      s.checkReplySeq parent seq id = .ok () := by
    intro seq id hget
    rw [← hspine.row_eq] at hget
    exact hcheck.1 ((parent, seq), id) (get_eq_some_iff.mp hget)
  constructor
  · rw [← List.isChain_iff_pairwise, List.isChain_iff_getElem]
    intro seq hseq
    have hchecked := hrow seq entries[seq] (List.getElem?_eq_getElem _)
    have hsucc : satAdd u64Max seq 1 = seq + 1 := by
      refine satAdd_succ_of_lt ?_
      have hlt : seq < u32Max := by
        have := hspine.count_eq
        omega
      exact Nat.lt_trans hlt (by decide)
    rw [checkReplySeq, bind_eq_ok_iff, ensure_eq_ok_iff, ensure_eq_ok_iff, hsucc,
      hspine.row_eq (seq + 1), List.getElem?_eq_getElem hseq, Option.all_some,
      decide_eq_true_eq] at hchecked
    exact hchecked.2
  · intro id hid
    obtain ⟨seq, hget⟩ := List.mem_iff_getElem?.mp hid
    have hchecked := hrow seq id hget
    rw [checkReplySeq, bind_eq_ok_iff, ensure_eq_ok_iff] at hchecked
    exact hchecked.1

theorem spine_eq_replyPairs (hreplies : s.checkReplies = .ok ())
    (hspine : s.checkReplySpine = .ok ())
    (hmax : s.feed.repliesByParent.count (fun key _ => key.1 = parent) ≤ u32Max) :
    s.feed.repliesByParentSeq.rowsUnder parent =
      rowsFor (replyPairs hash s.feed.repliesByParent) parent := by
  have hcounted : s.feed.replyCount.getD parent 0 =
      s.feed.repliesByParent.count (fun key _ => key.1 = parent) := by
    rw [checkReplies, bind_eq_ok_iff] at hreplies
    rw [getD_of_checkCounts hreplies.1, filter_keys_length, Nat.min_eq_left hmax]
  have hseqs := hspine
  rw [checkReplySpine, bind_eq_ok_iff] at hseqs
  have hrows := numbers_of_checkSeqs (by decide) hseqs.2 parent
  obtain ⟨hascending, hmem⟩ := spine_ascending hspine (hcounted.trans_le hmax) hrows
  have hlength : (rowsFor (replyPairs hash s.feed.repliesByParent) parent).length ≤
      (s.feed.repliesByParentSeq.rowsUnder parent).length := by
    rw [rowsFor_replyPairs_length, ← hrows.count_eq, hcounted]
  have hsubset : s.feed.repliesByParentSeq.rowsUnder parent ⊆
      rowsFor (replyPairs hash s.feed.repliesByParent) parent := by
    intro id hid
    rw [mem_rowsFor, mem_replyPairs]
    exact hmem id hid
  have hperm := (hascending.nodup.subperm hsubset).perm_of_length_le hlength
  exact hascending.eq_of_mem_iff (replyPairs_ascending hash _ parent) (fun id => hperm.mem_iff)

theorem renumber_rebuilds (hash : ℕ → ℕ) (hreplies : s.checkReplies = .ok ())
    (hspine : s.checkReplySpine = .ok ())
    (hmax : ∀ parent, s.feed.repliesByParent.count (fun key _ => key.1 = parent) ≤ u32Max) :
    (renumber u64Max ∅ (replyPairs hash s.feed.repliesByParent)).rows =
      s.feed.repliesByParentSeq := by
  have hdone : (renumber u64Max ∅ (replyPairs hash s.feed.repliesByParent)).Done
      (replyPairs hash s.feed.repliesByParent) := by
    refine renumber_done ((replyPairs_pairwise hash _).imp (fun horder => ?_)) (fun parent => ?_)
    · omega
    · rw [rowsFor_replyPairs_length]
      exact Nat.le_trans (hmax parent) (by decide)
  refine ext_get (fun key => ?_)
  obtain ⟨parent, seq⟩ := key
  have hseqs := hspine
  rw [checkReplySpine, bind_eq_ok_iff] at hseqs
  rw [(hdone.numbers parent).row_eq seq, (numbers_of_checkSeqs (by decide) hseqs.2 parent).row_eq seq,
    spine_eq_replyPairs hreplies hspine (hmax parent)]

end Replies

/-! ## The likes of an account -/

theorem likes_rebuilt {s : Runtime} (hash : ℕ → ℕ) (hlikes : s.checkLikes = .ok ())
    (hwide : ∀ key ∈ s.ballots.likesByAccount.keys, key.2 ≤ u64Max) :
    insertAll ∅
        ((s.ballots.votesByAccount.iterKeys hash).map (fun key => (key.1, descKey key.2))) () =
      s.ballots.likesByAccount := by
  rw [checkLikes, bind_eq_ok_iff, bind_eq_ok_iff, bind_eq_ok_iff, checkEach_eq_ok_iff,
    checkEach_eq_ok_iff, checkEach_eq_ok_iff, checkEach_eq_ok_iff] at hlikes
  obtain ⟨-, -, hindexed, hliked⟩ := hlikes
  refine ext_get (fun key => ?_)
  have hmem : key ∈ (s.ballots.votesByAccount.iterKeys hash).map
      (fun key => (key.1, descKey key.2)) ↔ (s.ballots.likesByAccount.get key).isSome = true := by
    rw [List.mem_map]
    constructor
    · rintro ⟨vote, hvote, rfl⟩
      have hrow := hindexed vote
        (mem_keys_iff.mpr (mem_iterKeys.mp hvote))
      rwa [ensure_eq_ok_iff, contains_eq_isSome] at hrow
    · intro hstored
      have hkey := mem_keys_iff.mpr hstored
      have hvote := hliked key hkey
      rw [ensure_eq_ok_iff, contains_eq_isSome] at hvote
      refine ⟨(key.1, u64Max - key.2), mem_iterKeys.mpr hvote, ?_⟩
      exact Prod.ext rfl (Nat.sub_sub_self (hwide key hkey))
  rw [get_insertAll, get_empty]
  cases hget : s.ballots.likesByAccount.get key with
  | none =>
    rw [hget] at hmem
    exact if_neg (fun h => Bool.false_ne_true (hmem.mp h))
  | some _ => exact if_pos (hmem.mpr (by rw [hget]; rfl))

/-! ## Capacity buckets -/

section Buckets

variable (blake2 : ℕ → ℕ)
  (verifyIdentityProof : CoseProof → Except ProofError (AccountId × IdentityHash))
  (verifyStakeProof : CoseProof → Except ProofError (AccountId × StakeCredential × ℕ))
  (verifyRoleProof : CoseProof → Except ProofError (AccountId × RoleKind × RoleCredential × ℕ))

theorem rescaled_within_ceiling {weight bucket : ℕ}
    (hbucket : bucket ≤ V9Constants.capacityCeiling weight) :
    bucket * capacityUnitRescale ≤ capacityCeiling
      (Config.cogno blake2 verifyIdentityProof verifyStakeProof verifyRoleProof) weight := by
  have hmax : 300000000000000 ≤ u128Max := by decide
  simp only [V9Constants.capacityCeiling, V9Constants.capRatio,
    V9Constants.ceiling, capacityUnitRescale, capacityCeiling, Config.cogno,
    satMul] at hbucket ⊢
  omega

/-! ## The three migrations -/

/-- Migrated storage that holds the indexes of a state, with its buckets in the new
units. -/
structure Runtime.Rebuilt (cfg : Config) (s : Runtime) (store : MigrationStore) : Prop where
  byAuthor : HoldsIndex s.feed.byAuthor s.feed.byAuthorCount store.byAuthor store.byAuthorCount
  topLevelByAuthor : HoldsIndex s.feed.topLevelByAuthor s.feed.topLevelByAuthorCount
    store.topLevelByAuthor store.topLevelByAuthorCount
  repliesByParent : store.repliesByParent = s.feed.repliesByParent
  repliesByParentSeq : store.repliesByParentSeq = s.feed.repliesByParentSeq
  votesByAccount : store.votesByAccount = s.ballots.votesByAccount
  likesByAccount : store.likesByAccount = s.ballots.likesByAccount
  capacity : ∀ who, store.capacity.get who = (s.capacity.get who).map
    (fun row => { row with capLast := row.capLast * capacityUnitRescale })
  ceiling : ∀ who row, s.capacity.get who = some row →
    row.capLast ≤ V9Constants.capacityCeiling (s.weightOf who) →
    ∃ row', store.capacity.get who = some row' ∧
      row'.capLast ≤ capacityCeiling cfg (s.weightOf who)

theorem index_migrations_rebuild (misread : ℕ → Option (List ℕ)) (s : Runtime)
    (postless postlessTop : List AccountId) (hcheck : s.checkTallyConsistency = .ok ())
    (hwide : ∀ key ∈ s.ballots.likesByAccount.keys, key.2 ≤ u64Max)
    (hcounts : ∀ who, s.feed.byAuthorCount.get who ≠ some 0)
    (htopCounts : ∀ who, s.feed.topLevelByAuthorCount.get who ≠ some 0)
    (hreplies : ∀ parent, s.feed.repliesByParent.count (fun key _ => key.1 = parent) ≤ u32Max)
    (hbuckets : ∀ who row, s.capacity.get who = some row →
      row.capLast * capacityUnitRescale ≤ u128Max) :
    s.Rebuilt (Config.cogno blake2 verifyIdentityProof verifyStakeProof verifyRoleProof)
      (v9ToV12 blake2 misread (s.atV9 postless postlessTop)) := by
  rw [checkTallyConsistency, bind_eq_ok_iff, bind_eq_ok_iff, bind_eq_ok_iff,
    bind_eq_ok_iff, bind_eq_ok_iff, bind_eq_ok_iff, bind_eq_ok_iff, bind_eq_ok_iff] at hcheck
  obtain ⟨-, -, -, -, -, hthreads, hspine, hlikes, hauthors⟩ := hcheck
  rw [checkAuthors, bind_eq_ok_iff, bind_eq_ok_iff, bind_eq_ok_iff] at hauthors
  obtain ⟨hbyAuthor, -, htopLevel, -⟩ := hauthors
  have hrescaled : ∀ who, (s.capacity.translate rescale).get who =
      (s.capacity.get who).map
        (fun row => { row with capLast := row.capLast * capacityUnitRescale }) := by
    intro who
    rw [get_translate]
    cases hget : s.capacity.get who with
    | none => rfl
    | some row =>
        rw [Option.map_some, Option.map_some, rescale, satMul,
          Nat.min_eq_left (hbuckets who row hget)]
  exact
    { byAuthor := repage_rebuilds blake2 misread (numbers_of_checkSeqs (by decide) hbyAuthor)
        hcounts (getD_le_of_checkSeqs hbyAuthor)
      topLevelByAuthor := repage_rebuilds blake2 misread
        (numbers_of_checkSeqs (by decide) htopLevel) htopCounts (getD_le_of_checkSeqs htopLevel)
      repliesByParent := rfl
      repliesByParentSeq := renumber_rebuilds blake2 hthreads hspine hreplies
      votesByAccount := rfl
      likesByAccount := likes_rebuilt blake2 hlikes hwide
      capacity := hrescaled
      ceiling := fun who row hget hwithin => by
        refine ⟨_, (hrescaled who).trans (congrArg _ hget), ?_⟩
        exact rescaled_within_ceiling blake2 verifyIdentityProof verifyStakeProof
          verifyRoleProof hwithin }

end Buckets

def threaded : Runtime :=
  { genesis with
    talkStake := { allowedStake := (∅ : StorageMap _ _).insert ⟨7⟩ 1000000000000 }
    feed := (({} : Feed).addPost ⟨⟨7⟩, [], none, 0, none⟩).addPost ⟨⟨8⟩, [], some 0, 0, none⟩
    ballots :=
      { ({} : Ballots).indexLike ⟨8⟩ 0 with
        votes := (∅ : StorageMap _ _).insert (0, ⟨8⟩) .up
        voteTally := (∅ : StorageMap _ _).insert 0 ⟨1, 0⟩ }
    capacity := (∅ : StorageMap _ _).insert ⟨7⟩ ⟨5000000000000, 0⟩ }

theorem index_migrations_rebuild_threaded :
    threaded.checkTallyConsistency = .ok () ∧
      threaded.Rebuilt Config.toy
        (v9ToV12 id (fun _ => some []) (threaded.atV9 [⟨9⟩] [⟨8⟩, ⟨9⟩])) ∧
      (threaded.capacity.getD ⟨7⟩ ⟨0, 0⟩).capLast =
        V9Constants.capacityCeiling (threaded.weightOf ⟨7⟩) := by
  have hcheck : threaded.checkTallyConsistency = .ok () := by decide +kernel
  have hcounters : ∀ entry ∈ threaded.feed.byAuthorCount.entries ++
      threaded.feed.topLevelByAuthorCount.entries, entry.2 ≠ 0 := by decide +kernel
  have hbuckets : ∀ entry ∈ threaded.capacity.entries,
      entry.2.capLast * capacityUnitRescale ≤ u128Max := by decide +kernel
  refine ⟨hcheck, index_migrations_rebuild id _ _ _ (fun _ => some []) threaded _ _ hcheck
    (by decide +kernel) (fun who hget => ?_) (fun who hget => ?_) (fun parent => ?_)
    (fun who row hget => ?_), by decide +kernel⟩
  · exact hcounters (who, 0) (List.mem_append_left _ (get_eq_some_iff.mp hget)) rfl
  · exact hcounters (who, 0) (List.mem_append_right _ (get_eq_some_iff.mp hget)) rfl
  · exact Nat.le_trans List.countP_le_length (by decide +kernel)
  · exact hbuckets (who, row) (get_eq_some_iff.mp hget)

/-- Storage that passes the check although an account without posts has a counter,
and a bucket that no ceiling bounds. -/
def staleCounter : Runtime :=
  { genesis with
    feed := { byAuthorCount := (∅ : StorageMap _ _).insert ⟨7⟩ 0 }
    capacity := (∅ : StorageMap _ _).insert ⟨7⟩ ⟨u128Max, 0⟩ }

/-- The counter is not written back, and the bucket stays where it is. -/
theorem staleCounter_not_rebuilt :
    staleCounter.checkTallyConsistency = .ok () ∧
      staleCounter.feed.byAuthorCount.get ⟨7⟩ = some 0 ∧
      (v9ToV12 id (fun _ => none) (staleCounter.atV9 [] [])).byAuthorCount.get ⟨7⟩ =
        none ∧
      (v9ToV12 id (fun _ => none) (staleCounter.atV9 [] [])).capacity =
        staleCounter.capacity := by
  decide +kernel

end CognoChain
