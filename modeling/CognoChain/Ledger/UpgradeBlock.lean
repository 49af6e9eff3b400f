import CognoChain.Ledger.StallAlarm

/-!
# Blocks that enact an upgrade

The author of a block asks the upgrade marker whether to leave the observation
out, the importers ask the version recorded in the parent state.  The marker is
always behind the current block, except right after the hook that writes it, so
both name the same blocks.  Block numbers are 32 bits wide.
-/

namespace CognoChain

open Substrate

namespace Chain

variable {cfg : Config} {c : Chain}

def MarkerBehind (c : Chain) : Prop :=
  ∀ enactedAt, c.upgrades.upgradeEnactedAt = some enactedAt → enactedAt < c.runtime.blockNumber

theorem initializeBlock_blockNumber (block : UpgradingBlock) :
    (c.initializeBlock cfg block).runtime.blockNumber = c.runtime.blockNumber + 1 := by
  unfold initializeBlock
  dsimp only
  rw [Runtime.nextBlock_blockNumber]
  split_ifs
  · exact congrArg (· + 1) (block.migrations_blockNumber c.runtime)
  · rfl

theorem initializeBlock_marker (block : UpgradingBlock) :
    (c.initializeBlock cfg block).upgrades.upgradeEnactedAt =
      if c.upgrades.enacting then some c.runtime.blockNumber
      else c.upgrades.upgradeEnactedAt := by
  unfold initializeBlock
  dsimp only
  split_ifs
  · exact congrArg some (block.migrations_blockNumber c.runtime)
  · rfl

theorem execBlock_blockNumber (block : UpgradingBlock) :
    (c.execBlock cfg block).runtime.blockNumber = c.runtime.blockNumber + 1 := by
  rw [← initializeBlock_blockNumber block]
  have hbody : Along (Runtime.step cfg) (fun _ op => op.isTick = false)
      (c.initializeBlock cfg block).runtime block.body := Along.of_forall block.inBlock
  apply hbody.invariant
    (fun s : Runtime => s.blockNumber = (c.initializeBlock cfg block).runtime.blockNumber)
  · intro s op hop hs
    exact (Runtime.step_blockNumber cfg s hop).trans hs
  · rfl

theorem MarkerBehind.execBlock (h : c.MarkerBehind) (block : UpgradingBlock) :
    (c.execBlock cfg block).MarkerBehind := by
  intro enactedAt hmarker
  have hinitialized : (c.initializeBlock cfg block).upgrades.upgradeEnactedAt = some enactedAt :=
    hmarker
  rw [initializeBlock_marker] at hinitialized
  rw [execBlock_blockNumber]
  split_ifs at hinitialized with henacting
  · rw [← Option.some.inj hinitialized]
    exact Nat.lt_succ_self _
  · exact Nat.lt_succ_of_lt (h enactedAt hinitialized)

theorem createInherent_initializeBlock (cfg : Config) (h : c.MarkerBehind)
    (hnumber : c.runtime.blockNumber < u32Max) (block : UpgradingBlock)
    (data : Option CardanoObservation) :
    let building := c.initializeBlock cfg block
    building.runtime.createInherent cfg building.upgrades data =
      if c.upgrades.enacting then none else data.map (building.runtime.deriveCall cfg) := by
  intro building
  have hbuilding : building.runtime.blockNumber = c.runtime.blockNumber + 1 :=
    initializeBlock_blockNumber block
  have hmarker : building.upgrades.upgradeEnactedAt =
      if c.upgrades.enacting then some c.runtime.blockNumber
      else c.upgrades.upgradeEnactedAt := initializeBlock_marker block
  unfold Runtime.createInherent
  rw [hmarker, hbuilding]
  split_ifs with henacting
  · have hreached : c.runtime.blockNumber + 1 ≤ satAdd u32Max c.runtime.blockNumber 1 :=
      (satAdd_succ_of_lt hnumber).ge
    exact if_pos hreached
  · cases hstored : c.upgrades.upgradeEnactedAt with
    | none => rfl
    | some enactedAt =>
      have hbehind := h enactedAt hstored
      have hpast : ¬ c.runtime.blockNumber + 1 ≤ satAdd u32Max enactedAt 1 := by
        rw [satAdd_succ_of_lt (hbehind.trans hnumber)]
        omega
      exact if_neg hpast

end Chain

/-- On every chain of blocks the author leaves the observation out exactly of
the blocks on which every importer would refuse it for the upgrade. -/
theorem enacting_blocks_carry_no_observation (cfg : Config) {start : Chain}
    (hstart : start.upgrades.upgradeEnactedAt = none) (blocks : List UpgradingBlock)
    (next : UpgradingBlock) (hnumber : (start.run cfg blocks).runtime.blockNumber < u32Max) :
    let parent := start.run cfg blocks
    let building := parent.initializeBlock cfg next
    (parent.upgrades.enacting = true →
      (∀ args data, parent.runtime.checkInherent cfg parent.upgrades (.observe args) data =
        .error .mismatch) ∧
      ∀ data, building.runtime.createInherent cfg building.upgrades data = none) ∧
    (∀ obs, building.runtime.createInherent cfg building.upgrades (some obs) = none ↔
      parent.upgrades.enacting = true) := by
  intro parent building
  have hbehind : parent.MarkerBehind := by
    apply run_invariant Chain.MarkerBehind blocks
    · intro c block hc
      exact hc.execBlock block
    · intro enactedAt hmarker
      rw [hstart] at hmarker
      cases hmarker
  have hcreate := Chain.createInherent_initializeBlock cfg hbehind hnumber next
  refine ⟨fun henacting => ⟨fun args data => ?_, fun data => ?_⟩, fun obs => ?_⟩
  · simp only [Runtime.checkInherent, henacting, if_true]
  · rw [hcreate data, if_pos henacting]
  · rw [hcreate (some obs)]
    cases parent.upgrades.enacting <;> simp

def freshChain : Chain := ⟨.genesis, ⟨⟨0, 1⟩, some ⟨0, 1⟩, none⟩⟩

def codeBlock (newCode : Option RuntimeVersion) : UpgradingBlock :=
  ⟨⟨0, [], Block.nil_inBlock⟩, id, fun _ => rfl, newCode⟩

theorem enacting_blocks_carry_no_observation_freshChain :
    let parent := freshChain.run Config.toy [codeBlock (some ⟨0, 2⟩)]
    let building := parent.initializeBlock Config.toy (codeBlock none)
    building.runtime.createInherent Config.toy building.upgrades
      (some ⟨⟨100, 0⟩, 0, [], [], []⟩) = none := by
  intro parent building
  have hblocks := enacting_blocks_carry_no_observation Config.toy (show
    freshChain.upgrades.upgradeEnactedAt = none from rfl) [codeBlock (some ⟨0, 2⟩)]
    (codeBlock none) (by decide +kernel)
  exact (hblocks.2 _).mpr (by decide +kernel)

end CognoChain
