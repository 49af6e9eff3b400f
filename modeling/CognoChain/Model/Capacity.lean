import CognoChain.Model.State

/-!
# Stake weight and the talk-capacity meter

The two writers of the talk-stake ledger and the lazy capacity meter of the
microblog pallet.  Capacity is stored as of the last block that touched it and
priced forward at the weight in force when it is read, so a weight change
first settles the bucket at the old weight.
-/

namespace CognoChain

open Substrate

namespace Runtime

def isAllowed (s : Runtime) (who : AccountId) : Bool := s.gate.pkhOf.contains who

/-! ## Talk stake -/

def applyWeight (s : Runtime) (who : AccountId) (weight : ℕ) : Runtime :=
  let talkStake := { s.talkStake with
    allowedStake := s.talkStake.allowedStake.insert who weight }
  { s with talkStake }.deposit (.stakeSet who weight)

def applyVotingPower (s : Runtime) (who : AccountId) (weight : ℕ) : Runtime :=
  let previous := s.talkStake.votingPower.getD who 0
  let talkStake := { s.talkStake with
    votingPower := s.talkStake.votingPower.insert who weight
    votingPowerSeq :=
      if weight = previous then s.talkStake.votingPowerSeq
      else satAdd u64Max s.talkStake.votingPowerSeq 1 }
  { s with talkStake }.deposit (.votingPowerSet who weight)

/-! ## The meter -/

def weightOf (s : Runtime) (who : AccountId) : ℕ :=
  s.talkStake.allowedStake.getD who 0

end Runtime

def capacityCeiling (cfg : Config) (weight : ℕ) : ℕ :=
  min (satMul u128Max weight cfg.capRatio) cfg.ceiling

def regenPerBlock (cfg : Config) (weight : ℕ) : ℕ :=
  if cfg.capRatio = 0 then 0
  else satMul u128Max (capacityCeiling cfg weight) cfg.regenPerBlock / cfg.capRatio

def accrue (cfg : Config) (weight now : ℕ) (row : CapacityState) : ℕ :=
  min (capacityCeiling cfg weight)
    (satAdd u128Max row.capLast
      (satMul u128Max (regenPerBlock cfg weight) (now - row.lastBlock)))

def currentCapacity (cfg : Config) (s : Runtime) (who : AccountId) (now : ℕ) : ℕ :=
  match s.capacity.get who with
  | none => 0
  | some row => accrue cfg (s.weightOf who) now row

def postCost (cfg : Config) (len : ℕ) : ℕ :=
  satAdd u128Max cfg.baseCost (satMul u128Max cfg.perByteCost len)

namespace Runtime

def setCapacity (s : Runtime) (who : AccountId) (capLast : ℕ) : Runtime :=
  { s with capacity := s.capacity.insert who ⟨capLast, s.blockNumber⟩ }

def onFirstBind (s : Runtime) (who : AccountId) : Runtime :=
  if s.capacity.contains who then s else s.setCapacity who 0

def settleCapacityAt (cfg : Config) (s : Runtime) (who : AccountId)
    (oldWeight : ℕ) : Runtime :=
  match s.capacity.get who with
  | none => s
  | some row =>
      if row.lastBlock = s.blockNumber then s
      else s.setCapacity who (accrue cfg oldWeight s.blockNumber row)

def applyObservedWeight (cfg : Config) (s : Runtime) (who : AccountId)
    (weight : ℕ) : Runtime :=
  let previous := s.weightOf who
  let settled :=
    if previous = weight then s
    else (s.settleCapacityAt cfg who previous).applyWeight who weight
  settled.onFirstBind who

def consume (cfg : Config) (s : Runtime) (who : AccountId) (cost : ℕ) : Runtime :=
  s.setCapacity who (currentCapacity cfg s who s.blockNumber - cost)

/-- The meter's half of a revoke: the banked capacity is zeroed, the row is
kept. -/
def zeroCapacity (s : Runtime) (who : AccountId) : Runtime :=
  if s.capacity.contains who then s.setCapacity who 0 else s

def forcedAmount (cfg : Config) (s : Runtime) (who : AccountId) (capLast : ℕ) : ℕ :=
  min capLast (capacityCeiling cfg (s.weightOf who))

def forceSetCapacity (cfg : Config) (s : Runtime) (who : AccountId)
    (capLast : ℕ) : Runtime :=
  let primed := s.onFirstBind who
  let amount := primed.forcedAmount cfg who capLast
  (primed.setCapacity who amount).deposit (.capacityForced who amount)

end Runtime

end CognoChain
