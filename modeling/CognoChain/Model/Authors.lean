import CognoChain.Model.Types
import CognoChain.Substrate.Saturating

/-!
# Tallying block authors

The command that walks a range of blocks over RPC and credits each to the
validator its slot points at.  A node answers for the blocks it has; reads that
fail in transport end the command and are left out, as is the printing.
-/

namespace CognoChain

open Substrate

/-- What a node answers about one block: its digest and three items of the state
after it. -/
structure BlockRecord where
  logs : List Bytes
  currentIndex : Option ℕ
  validators : Option (List AccountId)
  now : Option ℕ
deriving DecidableEq

/-- The blocks a node has, from genesis on, and the height of its finalized head. -/
structure Node where
  blocks : List BlockRecord
  tip : ℕ

/-! ## The slot of a header -/

def auraEngineId : Bytes := ascii "aura"

def takeBytes (n : ℕ) (input : Bytes) : Option (Bytes × Bytes) :=
  if n ≤ input.length then some (input.take n, input.drop n) else none

/-- A compact 32-bit number; a spelling wider than needed is refused. -/
def decodeCompact (input : Bytes) : Option (ℕ × Bytes) := do
  let (first, _) ← takeBytes 1 input
  let tag := leVal first
  if tag % 4 = 0 then
    some (tag / 4, input.drop 1)
  else if tag % 4 = 1 then
    let (spelled, rest) ← takeBytes 2 input
    if 2 ^ 6 ≤ leVal spelled / 4 then some (leVal spelled / 4, rest) else none
  else if tag % 4 = 2 then
    let (spelled, rest) ← takeBytes 4 input
    if 2 ^ 14 ≤ leVal spelled / 4 then some (leVal spelled / 4, rest) else none
  else if tag / 4 = 0 then
    let (spelled, rest) ← takeBytes 4 (input.drop 1)
    if 2 ^ 30 ≤ leVal spelled then some (leVal spelled, rest) else none
  else none

/-- The engine and the payload of a pre-runtime digest item; `none` for any other
item and for bytes that are no item. -/
def decodePreRuntime (raw : Bytes) : Option (Bytes × Bytes) := do
  let (variant, rest) ← takeBytes 1 raw
  if variant = [6] then
    let (engine, rest) ← takeBytes 4 rest
    let (length, rest) ← decodeCompact rest
    let (data, _) ← takeBytes length rest
    some (engine, data)
  else none

def decodeU64 (data : Bytes) : Option ℕ := (takeBytes 8 data).map (fun taken => leVal taken.1)

def auraSlot : List Bytes → Option ℕ
  | [] => none
  | raw :: logs =>
      match decodePreRuntime raw with
      | some (engine, data) => if engine = auraEngineId then decodeU64 data else auraSlot logs
      | none => auraSlot logs

/-! ## The range -/

inductive AuthorsError
  | twoStarts
  | twoEnds
  | timeOutOfRange
  | missingBlock (height tip : ℕ)
  | emptyRange (start stop tip : ℕ)
deriving DecidableEq, Repr

def toMs (secs : ℤ) : Except AuthorsError ℕ :=
  if 0 ≤ secs ∧ secs.toNat * 1000 ≤ u64Max then .ok (secs.toNat * 1000) else .error .timeOutOfRange

namespace Node

def bisectTime (node : Node) (targetMs : ℕ) : (fuel lo hi : ℕ) → Except AuthorsError ℕ
  | 0, lo, _ => .ok lo
  | fuel + 1, lo, hi =>
      if lo < hi then
        let mid := lo + (hi - lo) / 2
        match node.blocks[mid]? with
        | none => .error (.missingBlock mid node.tip)
        | some block =>
            if targetMs ≤ block.now.getD 0 then node.bisectTime targetMs fuel lo mid
            else node.bisectTime targetMs fuel (mid + 1) hi
      else .ok lo

def firstBlockAtOrAfter (node : Node) (targetMs : ℕ) : Except AuthorsError ℕ :=
  node.bisectTime targetMs node.tip 1 (node.tip + 1)

def resolveStart (node : Node) : Option ℕ → Option ℤ → Except AuthorsError ℕ
  | some n, _ => .ok (max n 1)
  | none, some secs => do node.firstBlockAtOrAfter (← toMs secs)
  | none, none => .ok 1

def resolveStop (node : Node) : Option ℕ → Option ℤ → Except AuthorsError ℕ
  | some n, _ => .ok n
  | none, some secs => do return (← node.firstBlockAtOrAfter ((← toMs secs) + 1)) - 1
  | none, none => .ok node.tip

end Node

/-! ## The walk -/

structure AuthorWalk where
  counts : StorageMap AccountId ℕ
  counted : ℕ
  unattributed : ℕ
  lastSeen : ℕ
  curSession : Option ℕ
  curValidators : List AccountId

namespace AuthorWalk

def start (first : ℕ) : AuthorWalk where
  counts := ∅
  counted := 0
  unattributed := 0
  lastSeen := first - 1
  curSession := none
  curValidators := []

def refresh (walk : AuthorWalk) (block : BlockRecord) : AuthorWalk :=
  let session := block.currentIndex.getD 0
  if walk.curSession ≠ some session then
    { walk with curValidators := block.validators.getD [], curSession := some session }
  else walk

def pick (validators : List AccountId) (slot : ℕ) : Option AccountId :=
  validators[slot % validators.length]?

def credit (walk : AuthorWalk) : Option AccountId → AuthorWalk
  | none => { walk with unattributed := walk.unattributed + 1 }
  | some author =>
      { walk with
        counts := walk.counts.insert author (walk.counts.getD author 0 + 1)
        counted := walk.counted + 1 }

def creditedTo (walk : AuthorWalk) (block : BlockRecord) : Option AccountId :=
  (auraSlot block.logs).bind (fun slot => pick (walk.refresh block).curValidators slot)

def visit (walk : AuthorWalk) (n : ℕ) (block : BlockRecord) : AuthorWalk :=
  let seen := { walk with lastSeen := n }
  match auraSlot block.logs with
  | none => seen.credit none
  | some slot =>
      let read := seen.refresh block
      read.credit (pick read.curValidators slot)

def walkAll (node : Node) : List ℕ → AuthorWalk → AuthorWalk
  | [], walk => walk
  | n :: heights, walk =>
      match node.blocks[n]? with
      | none => walk
      | some block => walkAll node heights (walk.visit n block)

end AuthorWalk

structure AuthorReport where
  start : ℕ
  lastSeen : ℕ
  tip : ℕ
  counted : ℕ
  unattributed : ℕ
  counts : StorageMap AccountId ℕ

def heights (start stop : ℕ) : List ℕ := List.range' start (stop + 1 - start)

def runAuthors (node : Node) (start stop : Option ℕ) (startTime stopTime : Option ℤ) :
    Except AuthorsError AuthorReport := do
  if start.isSome ∧ startTime.isSome then .error .twoStarts
  else if stop.isSome ∧ stopTime.isSome then .error .twoEnds
  else
    let first ← node.resolveStart start startTime
    let last ← node.resolveStop stop stopTime
    if 1 ≤ first ∧ first ≤ last then
      let walk := AuthorWalk.walkAll node (heights first last) (.start first)
      .ok
        { start := first
          lastSeen := walk.lastSeen
          tip := node.tip
          counted := walk.counted
          unattributed := walk.unattributed
          counts := walk.counts }
    else .error (.emptyRange first last node.tip)

end CognoChain
