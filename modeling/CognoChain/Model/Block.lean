import CognoChain.Model.Inherent

/-!
# Blocks

A block runs its hooks and then what its author put into it.  When the code of
the parent state is newer than the version that state records, the executive
first records the new version and runs the upgrade hooks, on the number of the
parent; the block's own number is written after that.  An author builds its
inherent on the initialized block, an importer checks it on the parent state.
-/

namespace CognoChain

open Substrate

def Op.isTick : Op → Bool
  | .nextBlock _ => true
  | _ => false

structure Block where
  unixSecs : ℕ
  body : List Op
  inBlock : ∀ op ∈ body, op.isTick = false

theorem Block.nil_inBlock : ∀ op ∈ ([] : List Op), op.isTick = false := List.forall_mem_nil _

namespace Runtime

def execBlock (cfg : Config) (s : Runtime) (block : Block) : Runtime :=
  (s.nextBlock cfg block.unixSecs).run cfg block.body

def runBlocks (cfg : Config) (s : Runtime) (blocks : List Block) : Runtime :=
  Substrate.run (execBlock cfg) s blocks

def chainEvents (cfg : Config) : Runtime → List Block → List Event
  | _, [] => []
  | s, block :: blocks =>
      (s.execBlock cfg block).events ++ chainEvents cfg (s.execBlock cfg block) blocks

end Runtime

/-! ## Runtime upgrades -/

/-- The state a block is built on: the storage of the pallets and what it
records of upgrades. -/
structure Chain where
  runtime : Runtime
  upgrades : Upgrades

/-- A block, the storage migrations of the code it runs on, and the code it
stores for the blocks after it. -/
structure UpgradingBlock extends Block where
  migrations : Runtime → Runtime
  migrations_blockNumber : ∀ s, (migrations s).blockNumber = s.blockNumber
  newCode : Option RuntimeVersion

namespace Chain

def onRuntimeUpgrade (c : Chain) : Chain :=
  { c with upgrades := { c.upgrades with upgradeEnactedAt := some c.runtime.blockNumber } }

/-- The upgrade hooks of the executive: the version is recorded, then the
migrations and the pallets' hooks run. -/
def executeOnRuntimeUpgrade (c : Chain) (migrations : Runtime → Runtime) : Chain :=
  onRuntimeUpgrade
    { runtime := migrations c.runtime
      upgrades := { c.upgrades with lastRuntimeUpgrade := some c.upgrades.version } }

def initializeBlock (cfg : Config) (c : Chain) (block : UpgradingBlock) : Chain :=
  let upgraded :=
    if c.upgrades.enacting then c.executeOnRuntimeUpgrade block.migrations else c
  { upgraded with runtime := upgraded.runtime.nextBlock cfg block.unixSecs }

def execBlock (cfg : Config) (c : Chain) (block : UpgradingBlock) : Chain :=
  let initialized := c.initializeBlock cfg block
  { runtime := initialized.runtime.run cfg block.body
    upgrades := { initialized.upgrades with
      version := block.newCode.getD initialized.upgrades.version } }

def run (cfg : Config) (c : Chain) (blocks : List UpgradingBlock) : Chain :=
  Substrate.run (execBlock cfg) c blocks

end Chain

end CognoChain
