import CognoChain.Model.Dispatch

/-!
# What the client derives from chain state

The composer replays the capacity meter to tell how long a draft has to wait, and
the status row classifies whether the observer is alive.  Big integers of the
client are exact; where one becomes a number it is rounded to 53 bits.
-/

namespace CognoChain.Client

open Substrate

/-! ## Capacity -/

structure CapacityConsts where
  capRatio : ℕ
  regenPerBlock : ℕ
  ceiling : ℕ
  baseCost : ℕ
  perByteCost : ℕ
  maxLength : ℕ
deriving DecidableEq, Repr

structure CapacityInputs where
  weight : ℕ
  bucket : Option CapacityState

structure CapacityView where
  weight : ℕ
  bucket : Option CapacityState
  cap : ℕ
  have' : ℕ
  ratePerBlock : ℕ
  atBlock : ℕ

def readCapacityConsts (cfg : Config) : CapacityConsts where
  capRatio := cfg.capRatio
  regenPerBlock := cfg.regenPerBlock
  ceiling := cfg.ceiling
  baseCost := cfg.baseCost
  perByteCost := cfg.perByteCost
  maxLength := cfg.maxLength

def readCapacityInputs (s : Runtime) (who : AccountId) : CapacityInputs where
  weight := s.talkStake.allowedStake.getD who 0
  bucket := s.capacity.get who

def capOf (weight : ℕ) (K : CapacityConsts) : ℕ :=
  let linear := weight * K.capRatio
  if linear < K.ceiling then linear else K.ceiling

def ratePerBlockOf (weight : ℕ) (K : CapacityConsts) : ℕ :=
  if K.capRatio = 0 then 0 else capOf weight K * K.regenPerBlock / K.capRatio

def postCost (byteLen : ℕ) (K : CapacityConsts) : ℕ := K.baseCost + K.perByteCost * byteLen

def currentCapacity (inputs : CapacityInputs) (atBlock : ℕ) (K : CapacityConsts) : ℕ :=
  let cap := capOf inputs.weight K
  match inputs.bucket with
  | none => 0
  | some bucket =>
      let filled := bucket.capLast + ratePerBlockOf inputs.weight K * (atBlock - bucket.lastBlock)
      if filled < cap then filled else cap

def computeView (inputs : CapacityInputs) (atBlock : ℕ) (K : CapacityConsts) : CapacityView where
  weight := inputs.weight
  bucket := inputs.bucket
  cap := capOf inputs.weight K
  have' := currentCapacity inputs atBlock K
  ratePerBlock := ratePerBlockOf inputs.weight K
  atBlock := atBlock

inductive DraftStatus
  | ok (have' need : ℕ)
  | noWeight (need : ℕ)
  | tooLong (need cap : ℕ)
  | charging (have' need blocks : ℕ)
  | wait (have' need blocks : ℕ)
deriving DecidableEq, Repr

/-- A big integer as a number: the nearest with 53 bits, ties to the even one. -/
def number (n : ℕ) : ℕ :=
  if n < 2 ^ 53 then n
  else
    let ulp := 2 ^ (n.log2 - 52)
    let below := n / ulp
    let rest := n % ulp
    if 2 * rest < ulp ∨ (2 * rest = ulp ∧ below % 2 = 0) then below * ulp else (below + 1) * ulp

def CapacityView.blocksUntil (view : CapacityView) (need : ℕ) : ℕ :=
  (need - view.have' + view.ratePerBlock - 1) / view.ratePerBlock

def draftStatus (view : CapacityView) (byteLen : ℕ) (K : CapacityConsts) : DraftStatus :=
  let need := postCost byteLen K
  if view.weight = 0 then .noWeight need
  else if view.cap < need then .tooLong need view.cap
  else if need ≤ view.have' then .ok view.have' need
  else if view.ratePerBlock = 0 then .noWeight need
  else
    let blocks := number (view.blocksUntil need)
    match view.bucket with
    | some _ => .wait view.have' need blocks
    | none => .charging view.have' need blocks

def DraftStatus.isOk : DraftStatus → Bool
  | .ok _ _ => true
  | _ => false

def DraftStatus.blocks : DraftStatus → Option ℕ
  | .wait _ _ blocks => some blocks
  | .charging _ _ blocks => some blocks
  | _ => none

def DraftStatus.never : DraftStatus → Bool
  | .noWeight _ => true
  | .tooLong _ _ => true
  | _ => false

/-! ## Observer liveness -/

inductive ObserverHealth
  | ok
  | unknown
  | neverStarted
  | stalled (blocks : ℤ)
deriving DecidableEq, Repr

/-- The reads of the classification; `none` is a read that has not come back. -/
structure ObserverLiveness where
  latched : Option Bool
  lastAppliedAt : Option ℤ
  bestBlock : Option ℤ
  stallAfter : Option ℤ
  everObserved : Option Bool
deriving DecidableEq, Repr

def classifyObserverHealth (live : ObserverLiveness) : ObserverHealth :=
  match live.everObserved, live.bestBlock, live.stallAfter with
  | some everObserved, some bestBlock, some stallAfter =>
      if everObserved = false then .neverStarted
      else if live.latched = some true then
        match live.lastAppliedAt with
        | none => .stalled stallAfter
        | some lastAppliedAt => .stalled (max stallAfter (bestBlock - lastAppliedAt))
      else
        match live.lastAppliedAt with
        | none => .unknown
        | some lastAppliedAt =>
            let gap := bestBlock - lastAppliedAt
            if stallAfter < gap then .stalled gap else .ok
  | _, _, _ => .unknown

def ObserverHealth.isStalled : ObserverHealth → Bool
  | .stalled _ => true
  | _ => false

def readObserverLiveness (cfg : Config) (s : Runtime) : ObserverLiveness where
  latched := some s.observer.stalled
  lastAppliedAt := some s.observer.lastAppliedAt
  bestBlock := some s.blockNumber
  stallAfter := some cfg.stallAfter
  everObserved := some s.observer.lastReference.isSome

end CognoChain.Client
