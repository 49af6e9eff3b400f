import CognoChain.Model.Polls

/-!
# Reading a poll

The view of a poll that a node serves.  Once a result is frozen the view
repeats it; before that the weights are joined live over the stakers and the
chambers over the role holders, both as the runtime lists them.
-/

namespace CognoChain

open Substrate

structure PollOptionView where
  index : ℕ
  label : Bytes
  weight : ℕ
  count : ℕ
  spoWeight : ℕ
  spoCount : ℕ
  drepWeight : ℕ
  drepCount : ℕ
deriving DecidableEq

structure GovActionView where
  actionType : ℕ
  anchorUrl : Bytes
  anchorHash : Option ℕ
deriving DecidableEq

structure PollView where
  hostId : ℕ
  options : List PollOptionView
  totalVotes : ℕ
  kind : ℕ
  action : Option GovActionView
deriving DecidableEq

/-! ## The live lenses -/

structure ChamberChoices where
  pools : StorageMap Credential ChamberEntry := ∅
  dreps : StorageMap Credential (ℕ × ℕ) := ∅

/-- A pool seen again under another option abstains. -/
def choosePool (option : ℕ) (pools : StorageMap Credential ChamberEntry) (id : Credential)
    (weight : ℕ) : StorageMap Credential ChamberEntry :=
  match pools.get id with
  | some entry =>
      if entry.option ≠ option then pools.insert id { entry with conflict := true } else pools
  | none => pools.insert id ⟨option, weight, false⟩

def chooseDrep (option : ℕ) (dreps : StorageMap Credential (ℕ × ℕ)) (id : Credential)
    (weight : ℕ) : StorageMap Credential (ℕ × ℕ) :=
  match dreps.get id with
  | some _ => dreps
  | none => dreps.insert id (option, weight)

def chooseRole (wantSpo wantDrep : Bool) (option : ℕ) (choices : ChamberChoices)
    (role : RoleTuple) : ChamberChoices :=
  match role.1 with
  | 0 =>
      if wantSpo then
        { choices with pools := choosePool option choices.pools role.2.1 role.2.2 }
      else choices
  | 1 =>
      if wantDrep then
        { choices with dreps := chooseDrep option choices.dreps role.2.1 role.2.2 }
      else choices
  | _ => choices

namespace Runtime

/-- The accounts of the stored stake rows, or, before any observation, those
with a voting-power row. -/
def stakers (cfg : Config) (s : Runtime) : List AccountId :=
  let observed := ((s.observer.lastObservedStake.iterKeys cfg.blake2).filterMap
    (fun cred => (s.observer.lastObservedStake.get cred).map Prod.fst)).take cfg.maxScanned
  if observed ≠ [] then observed
  else (s.talkStake.votingPower.iterKeys cfg.blake2).take cfg.maxScanned

/-- An account listed twice keeps its first place. -/
def stakerWeights (cfg : Config) (s : Runtime) : List (AccountId × ℕ) :=
  (s.stakers cfg).foldl (fun out who =>
    if out.any (fun entry => entry.1 = who) then out
    else out ++ [(who, s.talkStake.votingPower.getD who 0)]) []

def roleHolders (cfg : Config) (s : Runtime) : List AccountId :=
  (s.roles.observedRoles.iterKeys cfg.blake2).take cfg.maxScanned

def pollOptionWeights (s : Runtime) (host numOptions : ℕ) (stakers : List (AccountId × ℕ)) :
    List ℕ :=
  stakers.foldl (fun weights staker =>
    match s.polls.pollVotes.get (host, staker.1) with
    | some option =>
        if option < numOptions then addAt u128Max weights option staker.2 else weights
    | none => weights) (List.replicate numOptions 0)

def chooseHolder (s : Runtime) (host numOptions : ℕ) (wantSpo wantDrep : Bool)
    (choices : ChamberChoices) (holder : AccountId) : ChamberChoices :=
  match s.polls.pollVotes.get (host, holder) with
  | none => choices
  | some option =>
      if numOptions ≤ option then choices
      else (s.rolesOf holder).foldl (chooseRole wantSpo wantDrep option) choices

/-- A chamber that is not asked for comes back empty. -/
def pollChamberWeights (s : Runtime) (host numOptions : ℕ) (holders : List AccountId)
    (wantSpo wantDrep : Bool) : ChamberTotals :=
  let choices := holders.foldl (s.chooseHolder host numOptions wantSpo wantDrep) {}
  let zeros := List.replicate numOptions 0
  let spo := choices.pools.entries.foldl (fun (acc : List ℕ × List ℕ) row =>
    if row.2.conflict then acc
    else (addAt u128Max acc.1 row.2.option row.2.weight, addAt u32Max acc.2 row.2.option 1))
    (zeros, zeros)
  let drep := choices.dreps.entries.foldl (fun (acc : List ℕ × List ℕ) row =>
    (addAt u128Max acc.1 row.2.1 row.2.2, addAt u32Max acc.2 row.2.1 1)) (zeros, zeros)
  { spoWeights := if wantSpo then spo.1 else []
    spoCounts := if wantSpo then spo.2 else []
    drepWeights := if wantDrep then drep.1 else []
    drepCounts := if wantDrep then drep.2 else [] }

/-! ## The view -/

def actionView (action : GovAction) : GovActionView :=
  ⟨action.actionType.index, action.anchorUrl, action.anchorHash⟩

def optionViews (options : List Bytes) (weights counts : List ℕ) (chambers : ChamberTotals) :
    List PollOptionView :=
  options.mapIdx (fun i label =>
    { index := i % 2 ^ 8
      label := label
      weight := weights.getD i 0
      count := counts.getD i 0
      spoWeight := chambers.spoWeights.getD i 0
      spoCount := chambers.spoCounts.getD i 0
      drepWeight := chambers.drepWeights.getD i 0
      drepCount := chambers.drepCounts.getD i 0 })

def frozenView (host : ℕ) (poll : Poll) (result : PollResult) : PollView :=
  { hostId := host
    options := optionViews poll.options result.optionWeights result.optionCounts
      ⟨result.optionSpoWeights, result.optionSpoCounts, result.optionDrepWeights,
        result.optionDrepCounts⟩
    totalVotes := (List.range poll.options.length).foldl
      (fun total i => satAdd u32Max total (result.optionCounts.getD i 0)) 0
    kind := poll.kind.index
    action := poll.action.map actionView }

def liveView (cfg : Config) (s : Runtime) (host : ℕ) (poll : Poll) : PollView :=
  let numOptions := poll.options.length
  let counts := (List.range numOptions).map
    (fun i => s.polls.pollTally.getD (host, i % 2 ^ 8) 0)
  let total := counts.foldl (satAdd u32Max) 0
  let chambers :=
    if 0 < total ∧ poll.kind.hasChambers then
      s.pollChamberWeights host numOptions (s.roleHolders cfg) poll.kind.hasSpo
        poll.kind.hasDrep
    else ChamberTotals.zero numOptions
  let weights :=
    if total = 0 then List.replicate numOptions 0
    else s.pollOptionWeights host numOptions (s.stakerWeights cfg)
  { hostId := host
    options := optionViews poll.options weights counts chambers
    totalVotes := total
    kind := poll.kind.index
    action := poll.action.map actionView }

def poll (cfg : Config) (s : Runtime) (host : ℕ) : Option PollView :=
  (s.polls.polls.get host).map (fun poll =>
    match s.polls.pollResults.get host with
    | some result => frozenView host poll result
    | none => s.liveView cfg host poll)

end Runtime

end CognoChain
