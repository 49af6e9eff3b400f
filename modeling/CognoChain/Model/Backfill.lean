import CognoChain.Model.Gate
import CognoChain.Substrate.Weight

/-!
# Backfill of the scan rotation

The migration that introduces the rotation enrols the accounts bound before it,
up to a cap, and leaves the rest to a drain that runs in idle blocks.  Both walk
the bound accounts in trie order and stop on a raw key.
-/

namespace CognoChain

open Substrate

/-- The chain with the raw key the backfill resumes from.  A key is that of an
account or the empty one. -/
structure BackfillChain where
  chain : Runtime
  rotationBackfillCursor : Option (Option AccountId)

def maxAccounts : ℕ := 4096

def backfillBatch : ℕ := 64

/-! ## The walk -/

/-- The local variables of a walk, over the table it writes. -/
structure EnrolWalk where
  gate : GateStore
  slot : ℕ
  walked : ℕ := 0
  enrolled : ℕ := 0
  lastKey : Option AccountId := none
  exhausted : Bool := true

namespace EnrolWalk

def start (g : GateStore) : EnrolWalk where
  gate := g
  slot := g.scanSlotCount

def visit (w : EnrolWalk) (who : AccountId) : EnrolWalk :=
  let reached := { w with walked := satAdd u64Max w.walked 1, lastKey := some who }
  if w.gate.scanSlotOf.contains who then reached
  else { reached with
    gate := { w.gate with
      accountAtScanSlot := w.gate.accountAtScanSlot.insert w.slot who
      scanSlotOf := w.gate.scanSlotOf.insert who w.slot }
    slot := satAdd u64Max w.slot 1
    enrolled := satAdd u64Max w.enrolled 1 }

/-- Visit the keys until `stop`, which is asked before each of them. -/
def visitAll (stop : EnrolWalk → Bool) : EnrolWalk → List AccountId → EnrolWalk
  | w, [] => w
  | w, who :: keys =>
      if stop w then { w with exhausted := false } else (w.visit who).visitAll stop keys

end EnrolWalk

/-- The bound accounts after a raw key.  The empty key lies outside the map,
and so does what follows it. -/
def iterKeysFrom (cfg : Config) (pkhOf : StorageMap AccountId IdentityHash) :
    Option AccountId → List AccountId
  | none => []
  | some last => walkFrom cfg.blake2 (pkhOf.iterKeys cfg.blake2) (some last)

namespace BackfillChain

def onRuntimeUpgrade (cfg : Config) (db : DbWeight) (s : BackfillChain) :
    BackfillChain × Weight :=
  let g := s.chain.gate
  let walk := (EnrolWalk.start g).visitAll (fun w => maxAccounts ≤ w.enrolled)
    (g.pkhOf.iterKeys cfg.blake2)
  ({ chain := { s.chain with gate := { walk.gate with scanSlotCount := walk.slot } }
     rotationBackfillCursor :=
       if walk.exhausted then s.rotationBackfillCursor else some walk.lastKey },
    db.readsWrites (satAdd u64Max (satMul u64Max walk.walked 2) 1)
      (satAdd u64Max (satMul u64Max walk.enrolled 2) 1))

def drainBudget (db : DbWeight) (remaining : Weight) : ℕ :=
  let perAccount := db.readsWrites 2 2
  if perAccount.isZero then backfillBatch
  else
    let left := (remaining.saturatingSub (db.reads 1)).saturatingSub (db.writes 2)
    min ((left.checkedDivPerComponent perAccount).getD 0) backfillBatch

def drainRotationBackfill (cfg : Config) (db : DbWeight) (s : BackfillChain)
    (remaining : Weight) : BackfillChain × Weight :=
  let probe := db.reads 1
  match s.rotationBackfillCursor with
  | none => (s, probe)
  | some cursor =>
      let budget := drainBudget db remaining
      if budget = 0 then (s, probe)
      else
        let g := s.chain.gate
        let walk := (EnrolWalk.start g).visitAll (fun w => budget ≤ w.walked)
          (iterKeysFrom cfg g.pkhOf cursor)
        let table :=
          if 0 < walk.enrolled then { walk.gate with scanSlotCount := walk.slot } else walk.gate
        let resume :=
          match walk.exhausted, walk.lastKey with
          | true, _ => none
          | false, some key => some (some key)
          | false, none => some cursor
        ({ chain := { s.chain with gate := table }, rotationBackfillCursor := resume },
          (probe.saturatingAdd (db.writes 2)).saturatingAdd
            ((db.readsWrites 2 2).saturatingMul (max walk.walked 1)))

def trySlot (g : GateStore) (slot : ℕ) : Except String Unit :=
  match g.accountAtScanSlot.get slot with
  | none => .error "the scan rotation's slot table has a hole below its count"
  | some who =>
      if g.scanSlotOf.get who ≠ some slot then
        .error "the scan rotation's two maps are not each other's inverse"
      else if !g.pkhOf.contains who then
        .error "an unbound account is still enrolled in the scan rotation"
      else .ok ()

def tryState (s : BackfillChain) : Except String Unit :=
  let g := s.chain.gate
  let bound := g.pkhOf.keys.length
  if g.accountAtScanSlot.keys.length ≠ g.scanSlotCount then
    .error "the scan rotation's slot table and its count disagree"
  else if g.scanSlotOf.keys.length ≠ g.scanSlotCount then
    .error "the scan rotation's inverse index and its count disagree"
  else do
    (List.range g.scanSlotCount).forM (trySlot g)
    if s.rotationBackfillCursor.isSome then
      if bound < g.scanSlotCount then
        .error "the scan rotation holds more accounts than are bound"
    else if bound ≠ g.scanSlotCount then
      .error "a bound account is missing from the scan rotation"

/-! ## Runs -/

inductive Call
  | doBind (account : AccountId) (identity : IdentityHash)
  | doRevoke (account : AccountId)
  | revokeMany (targets : List AccountId)
  | drainRotationBackfill (remaining : Weight)

def step (cfg : Config) (db : DbWeight) (s : BackfillChain) : Call → BackfillChain
  | .doBind account identity =>
      { s with chain := attempt (fun chain => chain.doBind account) s.chain identity }
  | .doRevoke account => { s with chain := attempt Runtime.doRevoke s.chain account }
  | .revokeMany targets => { s with chain := s.chain.revokeMany targets }
  | .drainRotationBackfill remaining => (s.drainRotationBackfill cfg db remaining).1

end BackfillChain

end CognoChain
