import CognoChain.Substrate.KeyPages
import CognoChain.Model.People
import CognoChain.Model.Dispatch

/-!
# People reads reach everyone

A page of either read examines a stretch of the map after its cursor, at least
one row of it, and hands back a cursor only if a row is left.  A search lists
every match of its stretch; a list of suggestions lists the best followed bound
authors of its stretch.  Over a fixed state a chase covers the whole map, so
the search finds every match once, and an author the suggestions leave out is
outranked by a full page of authors they list.
-/

namespace CognoChain

open Substrate StorageMap

/-! ## The scan -/

section Scan

variable {β : Type} (full : List β → Bool) (look : AccountId → Option β)

theorem scanPeople_spec (rows : List AccountId) (scan : PeopleScan β)
    (hopen : scan.stoppedShort = false) :
    ∃ seen rest, rows = seen ++ rest ∧
      (scanPeople full look rows scan).found = scan.found ++ seen.filterMap look ∧
      (scanPeople full look rows scan).last = seen.getLast?.or scan.last ∧
      (scanPeople full look rows scan).stoppedShort = !rest.isEmpty ∧
      (full scan.found = false → scan.examined < maxPeopleScan → seen = [] → rest = []) := by
  induction rows generalizing scan with
  | nil =>
    refine ⟨[], [], rfl, ?_, rfl, ?_, fun _ _ _ => rfl⟩
    · rw [scanPeople, List.filterMap_nil, List.append_nil]
    · rw [scanPeople, hopen]
      rfl
  | cons account rows ih =>
    rw [scanPeople]
    by_cases hstop : (full scan.found || decide (maxPeopleScan ≤ scan.examined)) = true
    · rw [if_pos hstop]
      refine ⟨[], account :: rows, rfl, ?_, rfl, rfl, ?_⟩
      · rw [List.filterMap_nil, List.append_nil]
      · intro hroom hbudget
        rw [hroom, Bool.false_or, decide_eq_true_eq] at hstop
        omega
    · rw [if_neg hstop]
      obtain ⟨seen, rest, rfl, hfound, hlast, hshort, -⟩ := ih
        { scan with
          found := scan.found ++ (look account).toList
          examined := satAdd u32Max scan.examined 1
          last := some account } hopen
      refine ⟨account :: seen, rest, rfl, ?_, ?_, hshort, fun _ _ hnil => absurd hnil nofun⟩
      · rw [hfound, List.append_assoc, List.filterMap_cons]
        cases look account <;> rfl
      · rw [hlast, List.getLast?_cons]
        cases seen.getLast? <;> rfl

theorem scanPeople_length {limit : ℕ} (hfull : ∀ found, full found = false → found.length < limit)
    (rows : List AccountId) (scan : PeopleScan β) (hlength : scan.found.length ≤ limit) :
    (scanPeople full look rows scan).found.length ≤ limit := by
  induction rows generalizing scan with
  | nil => exact hlength
  | cons account rows ih =>
    rw [scanPeople]
    split_ifs with hstop
    · exact hlength
    · have hroom := hfull scan.found (by
        rw [Bool.or_eq_true, not_or] at hstop
        simpa using hstop.1)
      apply ih
      dsimp only
      rw [List.length_append]
      have hone : (look account).toList.length ≤ 1 := by cases look account <;> simp
      omega

theorem scanPeople_examines {hash : ℕ → ℕ} {keys : List AccountId} (hfull : full [] = false)
    (cursor : Option AccountId) :
    ∃ seen, Examines hash keys cursor seen
        (scanPeople full look (walkFrom hash keys cursor) {}).nextCursor ∧
      (scanPeople full look (walkFrom hash keys cursor) {}).found = seen.filterMap look := by
  obtain ⟨seen, rest, hsplit, hfound, hlast, hshort, hmoves⟩ :=
    scanPeople_spec full look (walkFrom hash keys cursor) {} rfl
  refine ⟨seen, ⟨⟨rest, hsplit, ?_⟩, ?_⟩, hfound⟩
  · intro hnone
    cases rest with
    | nil => rfl
    | cons row rest =>
      rw [PeopleScan.nextCursor, hshort, hlast] at hnone
      have hbudget : 0 < maxPeopleScan := by decide
      have hseen : seen ≠ [] := fun hnil => absurd (hmoves hfull hbudget hnil) nofun
      rw [List.getLast?_eq_some_getLast hseen] at hnone
      cases hnone
  · intro last hnext
    rw [PeopleScan.nextCursor, hshort, hlast] at hnext
    cases rest with
    | nil => cases hnext
    | cons row rest =>
      refine ⟨by simpa using hnext, fun hall => ?_⟩
      rw [hall] at hsplit
      simpa using congrArg List.length hsplit

end Scan

/-! ## One page -/

section Page

def Runtime.named (s : Runtime) (term : Bytes) (who : AccountId) : Bool :=
  s.gate.pkhOf.contains who &&
    (s.profile.profiles.get who).any (fun prof => containsCi prof.displayName term)

theorem nameMatch_map_fst (s : Runtime) (term : Bytes) (who : AccountId) :
    (s.nameMatch term who).map Prod.fst = if s.named term who then some who else none := by
  unfold Runtime.nameMatch Runtime.named
  cases s.profile.profiles.get who with
  | none => simp
  | some prof =>
    rw [Option.bind_some, Option.any_some]
    cases s.gate.pkhOf.contains who <;> cases containsCi prof.displayName term <;> rfl

theorem boundAuthor_map_fst (s : Runtime) (who : AccountId) :
    (s.boundAuthor who).map Prod.fst = if s.gate.pkhOf.contains who then some who else none := by
  unfold Runtime.boundAuthor
  cases s.gate.pkhOf.contains who <;> rfl

theorem filterMap_fst {β : Type} {look : AccountId → Option (AccountId × β)}
    {keep : AccountId → Bool}
    (hlook : ∀ who, (look who).map Prod.fst = if keep who then some who else none)
    (seen : List AccountId) : (seen.filterMap look).map Prod.fst = seen.filter keep := by
  rw [List.map_filterMap, ← List.filterMap_eq_filter]
  exact List.filterMap_congr (fun who _ => (hlook who).trans (by
    rw [Option.guard]))

def rankedPage {β : Type} (ranked : List (AccountId × β)) (next : Option AccountId)
    (summary : AccountId × β → PersonSummary) : PeoplePage :=
  if ranked.isEmpty then { people := [], nextCursor := next }
  else { people := ranked.map summary, nextCursor := next }

theorem rankedPage_spec {β : Type} (ranked : List (AccountId × β)) (next : Option AccountId)
    {summary : AccountId × β → PersonSummary} (hsummary : ∀ row, (summary row).account = row.1) :
    (rankedPage ranked next summary).accounts = ranked.map Prod.fst ∧
      (rankedPage ranked next summary).nextCursor = next := by
  cases ranked with
  | nil => exact ⟨rfl, rfl⟩
  | cons row ranked => simp [rankedPage, PeoplePage.accounts, hsummary]

theorem take_outranks {α : Type} {key : α → ℕ} {ranked : List α} {n : ℕ} {x : α}
    (hsorted : ranked.Pairwise (fun a b => key b ≤ key a)) (hmem : x ∈ ranked)
    (hleft : x ∉ ranked.take n) :
    (ranked.take n).length = n ∧ ∀ y ∈ ranked.take n, key x ≤ key y := by
  rw [← List.take_append_drop n ranked] at hsorted hmem
  have hdrop : x ∈ ranked.drop n := (List.mem_append.mp hmem).resolve_left hleft
  refine ⟨?_, fun y hy => (List.pairwise_append.mp hsorted).2.2 y hy x hdrop⟩
  have hlong := List.length_pos_of_mem hdrop
  rw [List.length_drop] at hlong
  rw [List.length_take]
  omega

theorem searchPeople_page (cfg : Config) (order : UnstableSort) (s : Runtime) (term : Bytes)
    (limit : ℕ) (after : Option AccountId) :
    (s.searchPeople cfg order term limit after).people.length ≤ clampLimit limit ∧
    ∃ seen, Examines cfg.blake2 (s.profile.profiles.iterKeys cfg.blake2) after seen
        (s.searchPeople cfg order term limit after).nextCursor ∧
      (s.searchPeople cfg order term limit after).accounts.Perm (seen.filter (s.named term)) := by
  let full : List (AccountId × ℕ × Profile) → Bool :=
    fun found => decide (clampLimit limit ≤ found.length)
  let rows := walkFrom cfg.blake2 (s.profile.profiles.iterKeys cfg.blake2) after
  let ranked := order.sort (fun row => row.2.1) (scanPeople full (s.nameMatch term) rows {}).found
  have hperm : ranked.Perm (scanPeople full (s.nameMatch term) rows {}).found := order.perm _ _
  obtain ⟨haccounts, hnext⟩ : (s.searchPeople cfg order term limit after).accounts = _ ∧
      (s.searchPeople cfg order term limit after).nextCursor = _ :=
    rankedPage_spec ranked (scanPeople full (s.nameMatch term) rows {}).nextCursor (fun _ => rfl)
  constructor
  · have hlength := congrArg List.length haccounts
    rw [PeoplePage.accounts, List.length_map, List.length_map, hperm.length_eq] at hlength
    rw [hlength]
    exact scanPeople_length full _ (fun found hroom => by simpa [full] using hroom) rows {}
      (Nat.zero_le _)
  · have hempty : full [] = false := by
      have hpos : 0 < clampLimit limit := Nat.le_max_left _ _
      simp only [full, List.length_nil, decide_eq_false_iff_not]
      omega
    obtain ⟨seen, hexamines, hfound⟩ := scanPeople_examines full (s.nameMatch term) hempty after
    refine ⟨seen, ?_, ?_⟩
    · rw [hnext]
      exact hexamines
    · rw [haccounts, ← filterMap_fst (nameMatch_map_fst s term), ← hfound]
      exact hperm.map Prod.fst

/-- A page of suggestions lists bound authors among the rows it examines; one it
leaves out is outranked by a full page. -/
theorem whoToFollow_page (cfg : Config) (order : UnstableSort) (s : Runtime) (limit : ℕ)
    (after : Option AccountId) :
    ∃ seen, Examines cfg.blake2 (s.feed.byAuthorCount.iterKeys cfg.blake2) after seen
        (s.whoToFollow cfg order limit after).nextCursor ∧
      (s.whoToFollow cfg order limit after).accounts.Subperm (seen.filter s.gate.pkhOf.contains) ∧
      ∀ who ∈ seen.filter s.gate.pkhOf.contains,
        who ∉ (s.whoToFollow cfg order limit after).accounts →
        (s.whoToFollow cfg order limit after).accounts.length = clampLimit limit ∧
          ∀ better ∈ (s.whoToFollow cfg order limit after).accounts,
            s.graph.followerCount.getD who 0 ≤ s.graph.followerCount.getD better 0 := by
  let rows := walkFrom cfg.blake2 (s.feed.byAuthorCount.iterKeys cfg.blake2) after
  let scan := scanPeople (fun _ => false) s.boundAuthor rows {}
  let ranked := order.sort (fun row => row.2) scan.found
  have hperm : ranked.Perm scan.found := order.perm _ _
  obtain ⟨haccounts, hnext⟩ : (s.whoToFollow cfg order limit after).accounts = _ ∧
      (s.whoToFollow cfg order limit after).nextCursor = _ :=
    rankedPage_spec (ranked.take (clampLimit limit)) scan.nextCursor (fun _ => rfl)
  obtain ⟨seen, hexamines, hfound⟩ :=
    scanPeople_examines (fun _ => false) s.boundAuthor rfl after
  have hbound : ranked.map Prod.fst |>.Perm (seen.filter s.gate.pkhOf.contains) := by
    rw [← filterMap_fst (boundAuthor_map_fst s), ← hfound]
    exact hperm.map Prod.fst
  have hcount : ∀ row ∈ ranked, row.2 = s.graph.followerCount.getD row.1 0 := by
    intro row hrow
    have hmem := hperm.mem_iff.mp hrow
    rw [hfound] at hmem
    obtain ⟨who, -, hlook⟩ := List.mem_filterMap.mp hmem
    unfold Runtime.boundAuthor at hlook
    split_ifs at hlook
    rw [← Option.some.inj hlook]
  refine ⟨seen, ?_, ?_, ?_⟩
  · rw [hnext]
    exact hexamines
  · rw [haccounts]
    exact ((List.take_sublist _ _).map _).subperm.trans hbound.subperm
  · intro who hwho hleft
    obtain ⟨row, hrow, rfl⟩ := List.mem_map.mp (hbound.mem_iff.mpr hwho)
    rw [haccounts] at hleft ⊢
    have hleft' : row ∉ ranked.take (clampLimit limit) :=
      fun hmem => hleft (List.mem_map_of_mem hmem)
    obtain ⟨hlength, houtranks⟩ := take_outranks (order.sorted _ _) hrow hleft'
    refine ⟨by rw [List.length_map, hlength], ?_⟩
    intro better hbetter
    obtain ⟨row', hrow', rfl⟩ := List.mem_map.mp hbetter
    have hle := houtranks row' hrow'
    rwa [hcount row hrow, hcount row' (List.mem_of_mem_take hrow')] at hle

end Page

/-! ## The chase -/

def Runtime.isBoundAuthor (s : Runtime) (who : AccountId) : Bool :=
  s.feed.byAuthorCount.contains who && s.gate.pkhOf.contains who

theorem mem_walkFrom_some {hash : ℕ → ℕ} {V : Type} {m : StorageMap AccountId V}
    {last row : AccountId} (h : row ∈ walkFrom hash (m.iterKeys hash) (some last)) :
    m.contains row = true ∧ HashLt hash last row := by
  obtain ⟨hmem, hafter⟩ := List.mem_filter.mp h
  refine ⟨?_, by simpa using hafter⟩
  rw [contains_eq_isSome]
  exact mem_iterKeys.mp hmem

theorem searchPeople_chase (cfg : Config) (order : UnstableSort) (s : Runtime) (term : Bytes)
    (limit : ℕ) :
    ∃ pages, KeyChase (s.searchPeople cfg order term limit) PeoplePage.nextCursor none pages ∧
      (pages.flatMap PeoplePage.accounts).Perm
        ((s.profile.profiles.iterKeys cfg.blake2).filter (s.named term)) := by
  choose seenOf hexamines hlisted using
    fun after => (searchPeople_page cfg order s term limit after).2
  obtain ⟨cursors, hchase, hcover⟩ :=
    exists_keyChase (s.profile.profiles.iterKeys_pairwise cfg.blake2) hexamines none
  refine ⟨_, hchase, ?_⟩
  rw [walkFrom] at hcover
  rw [List.flatMap_map, ← hcover, List.filter_flatMap]
  exact List.Perm.flatMap_left _ (fun after _ => hlisted after)

theorem whoToFollow_chase (cfg : Config) (order : UnstableSort) (s : Runtime) (limit : ℕ) :
    ∃ pages, KeyChase (s.whoToFollow cfg order limit) PeoplePage.nextCursor none pages ∧
      ∀ who, s.isBoundAuthor who = true → who ∉ pages.flatMap PeoplePage.accounts →
        ∃ better : List AccountId, better.Nodup ∧ clampLimit limit ≤ better.length ∧
          ∀ other ∈ better, s.isBoundAuthor other = true ∧
            other ∈ pages.flatMap PeoplePage.accounts ∧
            s.graph.followerCount.getD who 0 ≤ s.graph.followerCount.getD other 0 := by
  choose seenOf hexamines hlisted houtranked using whoToFollow_page cfg order s limit
  obtain ⟨cursors, hchase, hcover⟩ :=
    exists_keyChase (s.feed.byAuthorCount.iterKeys_pairwise cfg.blake2) hexamines none
  have hauthors : ∀ who, who ∈ cursors.flatMap seenOf ↔
      s.feed.byAuthorCount.contains who = true := by
    intro who
    rw [hcover, contains_eq_isSome]
    exact mem_iterKeys
  have hnodup : (cursors.flatMap seenOf).Nodup := by
    rw [hcover]
    exact iterKeys_nodup _ _
  refine ⟨_, hchase, fun who hwho hleft => ?_⟩
  obtain ⟨hauthor, hbound⟩ := Bool.and_eq_true_iff.mp hwho
  obtain ⟨cursor, hcursor, hseen⟩ := List.mem_flatMap.mp ((hauthors who).mpr hauthor)
  have hin : ∀ other ∈ (s.whoToFollow cfg order limit cursor).accounts,
      other ∈ (cursors.map (s.whoToFollow cfg order limit)).flatMap PeoplePage.accounts :=
    fun other hother => List.mem_flatMap.mpr ⟨_, List.mem_map_of_mem hcursor, hother⟩
  obtain ⟨hlength, hbetter⟩ := houtranked cursor who (List.mem_filter.mpr ⟨hseen, hbound⟩)
    (fun hmem => hleft (hin who hmem))
  refine ⟨_, ?_, hlength.ge, fun other hother => ⟨?_, hin other hother, hbetter other hother⟩⟩
  · have hwindow : (seenOf cursor).Nodup :=
      (List.nodup_flatMap.mp hnodup).1 cursor hcursor
    obtain ⟨listed, hperm, hsub⟩ := hlisted cursor
    exact hperm.nodup_iff.mp ((hwindow.filter _).sublist hsub)
  · obtain ⟨hother, hpkh⟩ := List.mem_filter.mp ((hlisted cursor).subset hother)
    rw [Runtime.isBoundAuthor, Bool.and_eq_true_iff]
    exact ⟨(hauthors other).mp (List.mem_flatMap.mpr ⟨cursor, hcursor, hother⟩), hpkh⟩

/-- Over a fixed state a search that is chased lists every bound account whose
name holds the term, once; its pages hold at most the clamped limit, and hand
back a cursor only if a row is left after it.  An author the chased suggestions
leave out is outranked by a page of authors they list. -/
theorem people_reads_reach_everyone (cfg : Config) (order : UnstableSort) (s : Runtime)
    (limit : ℕ) :
    (∀ term,
      (∃ pages,
        KeyChase (s.searchPeople cfg order term limit) PeoplePage.nextCursor none pages ∧
          (pages.flatMap PeoplePage.accounts).Nodup ∧
          ∀ who, who ∈ pages.flatMap PeoplePage.accounts ↔ s.named term who = true) ∧
      ∀ after,
        (s.searchPeople cfg order term limit after).people.length ≤ clampLimit limit ∧
          ∀ last, (s.searchPeople cfg order term limit after).nextCursor = some last →
            ∃ row, s.profile.profiles.contains row = true ∧ HashLt cfg.blake2 last row) ∧
    ∃ pages, KeyChase (s.whoToFollow cfg order limit) PeoplePage.nextCursor none pages ∧
      ∀ who, s.isBoundAuthor who = true → who ∉ pages.flatMap PeoplePage.accounts →
        ∃ better : List AccountId, better.Nodup ∧ clampLimit limit ≤ better.length ∧
          ∀ other ∈ better, s.isBoundAuthor other = true ∧
            other ∈ pages.flatMap PeoplePage.accounts ∧
            s.graph.followerCount.getD who 0 ≤ s.graph.followerCount.getD other 0 := by
  refine ⟨fun term => ⟨?_, fun after => ?_⟩, whoToFollow_chase cfg order s limit⟩
  · obtain ⟨pages, hchase, hperm⟩ := searchPeople_chase cfg order s term limit
    refine ⟨pages, hchase, ?_, fun who => ?_⟩
    · exact hperm.nodup_iff.mpr ((iterKeys_nodup _ _).filter _)
    · rw [hperm.mem_iff, List.mem_filter, mem_iterKeys]
      refine ⟨fun h => h.2, fun hnamed => ⟨?_, hnamed⟩⟩
      cases hprof : s.profile.profiles.get who with
      | none => rw [Runtime.named, hprof, Option.any_none, Bool.and_false] at hnamed; cases hnamed
      | some prof => rfl
  · obtain ⟨hlength, seen, hexamines, -⟩ := searchPeople_page cfg order s term limit after
    refine ⟨hlength, fun last hnext => ?_⟩
    obtain ⟨row, hrow⟩ := List.exists_mem_of_ne_nil _
      (hexamines.left (iterKeys_pairwise _ _) hnext)
    exact ⟨row, mem_walkFrom_some hrow⟩

/-! ## A page of one -/

def UnstableSort.insertion : UnstableSort where
  sort key l := l.insertionSort (fun a b => key b ≤ key a)
  perm key l := List.perm_insertionSort _ l
  sorted {α} key l := by
    have : Std.Total (fun a b : α => key b ≤ key a) := ⟨fun a b => Nat.le_total (key b) (key a)⟩
    have : IsTrans α (fun a b => key b ≤ key a) := ⟨fun _ _ _ hab hbc => Nat.le_trans hbc hab⟩
    exact List.pairwise_insertionSort _ l

def oneNamed : Runtime :=
  Runtime.genesis.run Config.toy
    [.nextBlock 0,
      .call .none (.gate (.linkIdentitySigned ⟨[1, 5], []⟩)),
      .call (.signed ⟨1⟩) (.profile (.setProfile ⟨[65], [], [], [], [], []⟩))]

theorem people_reads_reach_everyone_oneNamed :
    ∃ pages, KeyChase (oneNamed.searchPeople Config.toy .insertion [97] 1) PeoplePage.nextCursor
      none pages ∧ ⟨1⟩ ∈ pages.flatMap PeoplePage.accounts := by
  obtain ⟨hsearch, -⟩ := people_reads_reach_everyone Config.toy .insertion oneNamed 1
  obtain ⟨⟨pages, hchase, -, hlisted⟩, -⟩ := hsearch [97]
  exact ⟨pages, hchase, (hlisted ⟨1⟩).mpr (by decide +kernel)⟩

theorem zero_limit_lists_one :
    (oneNamed.searchPeople Config.toy .insertion [97] 0 none).people.length = 1 := by
  decide +kernel

end CognoChain
