import CognoChain.Model.Capacity
import CognoChain.Model.Microblog
import CognoChain.Substrate.Batch
import CognoChain.Substrate.Renumber
import Mathlib.Data.Prod.Lex

/-!
# The index migrations of the microblog pallet

The storage migrations from version 9 to version 12.  The first turns the two
author indexes from one list per author into numbered rows beside a counter and
rescales the capacity buckets; the second numbers the replies of every post; the
third orders the likes of every account.

An author index keeps its storage prefix in the first migration, so lists and
numbered rows can stand side by side under it and differ in their keys only.
-/

namespace CognoChain

open Substrate

/-- What stands behind the prefix of an author index: an author's list under the
author alone, a numbered row under the author and its number. -/
abbrev IndexKey := AccountId × Option ℕ

inductive IndexRow
  | ids (list : List ℕ)
  | id (postId : ℕ)
deriving DecidableEq, Repr

/-- The storage that the migrations read and write. -/
structure MigrationStore where
  byAuthor : StorageMap IndexKey IndexRow := ∅
  byAuthorCount : StorageMap AccountId ℕ := ∅
  topLevelByAuthor : StorageMap IndexKey IndexRow := ∅
  topLevelByAuthorCount : StorageMap AccountId ℕ := ∅
  repliesByParent : StorageMap (ℕ × ℕ) Unit := ∅
  repliesByParentSeq : StorageMap (ℕ × ℕ) ℕ := ∅
  votesByAccount : StorageMap (AccountId × ℕ) Unit := ∅
  likesByAccount : StorageMap (AccountId × ℕ) Unit := ∅
  capacity : StorageMap AccountId CapacityState := ∅
deriving DecidableEq

namespace Migrations

/-! ## Version 9 to 10 -/

namespace V9Constants

def capRatio : ℕ := 50

def ceiling : ℕ := 5000000000000

def capacityCeiling (weight : ℕ) : ℕ := min (satMul u128Max weight capRatio) ceiling

end V9Constants

def capacityUnitRescale : ℕ := 60

section Hashed

variable (hash : ℕ → ℕ) (misread : ℕ → Option (List ℕ))

/-- The author index through its old shape.  The old shape takes the author from
the first part of any key under the prefix and decodes a post id as a list, if it
decodes at all; `misread` says what comes out. -/
def iterBlobs (rows : StorageMap IndexKey IndexRow) : List (AccountId × List ℕ) :=
  (rows.iterKeys hash).filterMap (fun key =>
    match rows.get key with
    | some (.ids list) => some (key.1, list)
    | some (.id postId) => (misread postId).map (fun list => (key.1, list))
    | none => none)

def repageAuthor (index : StorageMap IndexKey IndexRow × StorageMap AccountId ℕ)
    (entry : AccountId × List ℕ) : StorageMap IndexKey IndexRow × StorageMap AccountId ℕ :=
  let written := writeNumbered u64Max (fun seq => (entry.1, some seq)) index.1
    (entry.2.map IndexRow.id)
  (written.1, if 0 < written.2 then index.2.insert entry.1 written.2 else index.2)

/-- Read every list, remove it, and only then write the numbered rows. -/
def repage (rows : StorageMap IndexKey IndexRow) (counts : StorageMap AccountId ℕ) :
    StorageMap IndexKey IndexRow × StorageMap AccountId ℕ :=
  let old := iterBlobs hash misread rows
  let cleared := rows.removeAll (old.map (fun entry => (entry.1, none)))
  old.foldl repageAuthor (cleared, counts)

def rescale (row : CapacityState) : CapacityState :=
  { row with capLast := satMul u128Max row.capLast capacityUnitRescale }

def v9ToV10 (store : MigrationStore) : MigrationStore :=
  let byAuthor := repage hash misread store.byAuthor store.byAuthorCount
  let topLevel := repage hash misread store.topLevelByAuthor store.topLevelByAuthorCount
  { store with
    byAuthor := byAuthor.1
    byAuthorCount := byAuthor.2
    topLevelByAuthor := topLevel.1
    topLevelByAuthorCount := topLevel.2
    capacity := store.capacity.translate rescale }

/-! ## Version 10 to 11 -/

/-- The replies of every post, grouped by the post and ascending in each group. -/
def replyPairs (repliesByParent : StorageMap (ℕ × ℕ) Unit) : List (ℕ × ℕ) :=
  (orderedSet ((repliesByParent.iterKeys hash).map toLex)).map ofLex

def v10ToV11 (store : MigrationStore) : MigrationStore :=
  { store with
    repliesByParentSeq :=
      (renumber u64Max store.repliesByParentSeq (replyPairs hash store.repliesByParent)).rows }

/-! ## Version 11 to 12 -/

def v11ToV12 (store : MigrationStore) : MigrationStore :=
  { store with
    likesByAccount := store.likesByAccount.insertAll
      ((store.votesByAccount.iterKeys hash).map (fun key => (key.1, descKey key.2))) () }

def v9ToV12 (store : MigrationStore) : MigrationStore :=
  v11ToV12 hash (v10ToV11 hash (v9ToV10 hash misread store))

end Hashed

end Migrations

/-! ## A state as version 9 stored it -/

/-- The lists of an author index, each under its author, with an empty list for
every account in `postless` that has no rows. -/
def blobs (index : StorageMap (AccountId × ℕ) ℕ) (postless : List AccountId) :
    StorageMap IndexKey IndexRow :=
  (index.keys.map Prod.fst ++ postless).foldl
    (fun rows who => rows.insert (who, none) (.ids (index.rowsUnder who))) ∅

/-- Version 9 had no counters, no numbered replies and no ordered likes. -/
def Runtime.atV9 (s : Runtime) (postless postlessTop : List AccountId) : MigrationStore where
  byAuthor := blobs s.feed.byAuthor postless
  topLevelByAuthor := blobs s.feed.topLevelByAuthor postlessTop
  repliesByParent := s.feed.repliesByParent
  votesByAccount := s.ballots.votesByAccount
  capacity := s.capacity

end CognoChain
