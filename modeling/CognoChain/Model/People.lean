import CognoChain.Model.Views

/-!
# Finding people

The two reads that list accounts: a search by display name and a list of
authors to follow.  Both walk a map in the order of its hashed keys, with a
budget that rows they filter out also spend, and hand back the last account
examined when they stop before the end of the map.
-/

namespace CognoChain

open Substrate

/-- A sort by descending key that may place equal keys in any order. -/
structure UnstableSort where
  sort {α : Type} (key : α → ℕ) (l : List α) : List α
  perm {α : Type} (key : α → ℕ) (l : List α) : (sort key l).Perm l
  sorted {α : Type} (key : α → ℕ) (l : List α) :
    (sort key l).Pairwise (fun a b => key b ≤ key a)

structure Tally where
  upWeight : ℕ
  downWeight : ℕ
  upCount : ℕ
  downCount : ℕ
deriving DecidableEq

structure PersonSummary where
  account : AccountId
  displayName : Bytes
  avatar : Bytes
  weight : ℕ
  followerCount : ℕ
  accountTally : Tally
deriving DecidableEq

structure PeoplePage where
  people : List PersonSummary
  nextCursor : Option AccountId
deriving DecidableEq

def PeoplePage.accounts (page : PeoplePage) : List AccountId :=
  page.people.map PersonSummary.account

def maxPeopleScan : ℕ := 10000

/-! ## The scan -/

/-- What a walk has found, how many rows it has examined, the last of them, and
whether it left any. -/
structure PeopleScan (β : Type) where
  found : List β := []
  examined : ℕ := 0
  last : Option AccountId := none
  stoppedShort : Bool := false

/-- Walk the rows until the page is full or the budget is spent.  Both are
checked when there is another row. -/
def scanPeople {β : Type} (full : List β → Bool) (look : AccountId → Option β) :
    List AccountId → PeopleScan β → PeopleScan β
  | [], scan => scan
  | account :: rows, scan =>
      if full scan.found || decide (maxPeopleScan ≤ scan.examined) then
        { scan with stoppedShort := true }
      else
        scanPeople full look rows
          { scan with
            found := scan.found ++ (look account).toList
            examined := satAdd u32Max scan.examined 1
            last := some account }

def PeopleScan.nextCursor {β : Type} (scan : PeopleScan β) : Option AccountId :=
  if scan.stoppedShort then scan.last else none

namespace Runtime

/-! ## Rows of people -/

def accountWeighted (s : Runtime) (target : AccountId) (counts : VoteCounts)
    (stakers : List (AccountId × ℕ)) : ℕ × ℕ :=
  if counts.upCount = 0 ∧ counts.downCount = 0 then (0, 0)
  else stakers.foldl (fun (weights : ℕ × ℕ) staker =>
    match s.ballots.accountVotes.get (target, staker.1) with
    | some .up => (satAdd u128Max weights.1 staker.2, weights.2)
    | some .down => (weights.1, satAdd u128Max weights.2 staker.2)
    | none => weights) (0, 0)

def accountTally (s : Runtime) (target : AccountId) (stakers : List (AccountId × ℕ)) : Tally :=
  let counts := s.ballots.accountVoteTally.getD target default
  let weights := s.accountWeighted target counts stakers
  { upWeight := weights.1
    downWeight := weights.2
    upCount := counts.upCount
    downCount := counts.downCount }

def personSummary (s : Runtime) (account : AccountId) (prof : Option Profile)
    (stakers : List (AccountId × ℕ)) : PersonSummary :=
  { account := account
    displayName := (prof.map Profile.displayName).getD []
    avatar := (prof.map Profile.avatar).getD []
    weight := s.talkStake.allowedStake.getD account 0
    followerCount := s.graph.followerCount.getD account 0
    accountTally := s.accountTally account stakers }

/-! ## Search -/

def nameMatch (s : Runtime) (term : Bytes) (account : AccountId) :
    Option (AccountId × ℕ × Profile) :=
  (s.profile.profiles.get account).bind (fun prof =>
    if !s.gate.pkhOf.contains account then none
    else if !containsCi prof.displayName term then none
    else some (account, s.graph.followerCount.getD account 0, prof))

/-- Stops examining once the page is full, and ranks what it has. -/
def searchPeople (cfg : Config) (order : UnstableSort) (s : Runtime) (term : Bytes) (limit : ℕ)
    (after : Option AccountId) : PeoplePage :=
  let rows := walkFrom cfg.blake2 (s.profile.profiles.iterKeys cfg.blake2) after
  let scan := scanPeople (fun found => decide (clampLimit limit ≤ found.length))
    (s.nameMatch term) rows {}
  let ranked := order.sort (fun row => row.2.1) scan.found
  if ranked.isEmpty then { people := [], nextCursor := scan.nextCursor }
  else
    let stakers := s.stakerWeights cfg
    { people := ranked.map (fun row => s.personSummary row.1 (some row.2.2) stakers)
      nextCursor := scan.nextCursor }

/-! ## Suggestions -/

def boundAuthor (s : Runtime) (account : AccountId) : Option (AccountId × ℕ) :=
  if !s.gate.pkhOf.contains account then none
  else some (account, s.graph.followerCount.getD account 0)

/-- Examines its whole budget, ranks that and keeps the first of it. -/
def whoToFollow (cfg : Config) (order : UnstableSort) (s : Runtime) (limit : ℕ)
    (after : Option AccountId) : PeoplePage :=
  let rows := walkFrom cfg.blake2 (s.feed.byAuthorCount.iterKeys cfg.blake2) after
  let scan := scanPeople (fun _ => false) s.boundAuthor rows {}
  let ranked := (order.sort (fun row => row.2) scan.found).take (clampLimit limit)
  if ranked.isEmpty then { people := [], nextCursor := scan.nextCursor }
  else
    let stakers := s.stakerWeights cfg
    { people := ranked.map (fun row =>
        s.personSummary row.1 (s.profile.profiles.get row.1) stakers)
      nextCursor := scan.nextCursor }

end Runtime

end CognoChain
