import CognoChain.Model.Microblog
import CognoChain.Model.Roles
import Mathlib.Algebra.Order.Floor.Div

/-!
# Polls

Creating polls, voting in them and the paged close.  A close walks the voters
of a poll a page at a time in trie order, writing one scratch row per badge it
meets, then drains the scratch rows into the chamber totals and freezes the
result.  The re-bounding of the accumulators is left out: a stored poll never
has more options than the bound, so it cannot fail.
-/

namespace CognoChain

open Substrate

namespace Runtime

def boundOptions (cfg : Config) (bounded : List Bytes) :
    List Bytes → Except MicroblogError (List Bytes)
  | [] => .ok bounded
  | option :: options =>
      if cfg.maxPollOptionLen < option.length then .error .optionTooLong
      else if cfg.maxPollOptions ≤ bounded.length then .error .tooManyOptions
      else boundOptions cfg (bounded ++ [option]) options

def boundAction (cfg : Config) (kind : PollKind) :
    Option GovAction → Except MicroblogError (Option GovAction)
  | none => .ok none
  | some action =>
      if !kind.hasChambers then .error .govActionRequiresChamber
      else if action.anchorUrl = [] then .error .invalidAnchor
      else if cfg.maxAnchorUrlLen < action.anchorUrl.length then .error .invalidAnchor
      else .ok (some action)

def insertPoll (s : Runtime) (who : AccountId) (question : Bytes) (poll : Poll) :
    Runtime :=
  let id := s.feed.nextPostId
  { s with
    feed := s.feed.addPost ⟨who, question, none, s.blockNumber, none⟩
    polls := { s.polls with polls := s.polls.polls.insert id poll } }
    |>.deposit (.postCreated id who)
    |>.deposit (.pollCreated id who)

def createPoll (cfg : Config) (s : Runtime) (who : AccountId) (question : Bytes)
    (options : List Bytes) (closeAt : Option ℕ) (kind : PollKind)
    (action : Option GovAction) : Except MicroblogError Runtime :=
  if !s.isAllowed who then .error .notAllowed
  else
    match closeAt with
    | none => .error .pollCloseRequired
    | some deadline =>
        if deadline < satAdd u32Max s.blockNumber cfg.minPollDuration then
          .error .pollDurationTooShort
        else if satAdd u32Max s.blockNumber cfg.maxPollDuration < deadline then
          .error .pollDurationTooLong
        else if options.length < 2 then .error .notEnoughOptions
        else if cfg.maxLength < question.length then .error .tooLong
        else
          match boundOptions cfg [] options with
          | .error e => .error e
          | .ok bounded =>
              match boundAction cfg kind action with
              | .error e => .error e
              | .ok action => .ok (s.insertPoll who question ⟨bounded, closeAt, kind, action⟩)

end Runtime

namespace PollStore

def recordVote (p : PollStore) (host : ℕ) (who : AccountId) (option : ℕ) : PollStore :=
  let dropped :=
    match p.pollVotes.get (host, who) with
    | some previous => p.pollTally.mutate (host, previous) 0 (fun c => c - 1)
    | none => p.pollTally
  { p with
    pollTally := dropped.mutate (host, option) 0 (fun c => satAdd u32Max c 1)
    pollVotes := p.pollVotes.insert (host, who) option }

end PollStore

namespace Runtime

def castPollVote (s : Runtime) (who : AccountId) (host option : ℕ) :
    Except MicroblogError Runtime :=
  if !s.isAllowed who then .error .notAllowed
  else
    match s.polls.polls.get host with
    | none => .error .pollNotFound
    | some poll =>
        if poll.options.length ≤ option then .error .invalidOption
        else if poll.closeAt.any (fun deadline => deadline ≤ s.blockNumber) then
          .error .pollClosed
        else
          .ok ({ s with polls := s.polls.recordVote host who option }.deposit
            (.pollVoted host who option))

def rolesOf (s : Runtime) (who : AccountId) : List RoleTuple :=
  (s.observedRolesOf who).map (fun role => (role.kind.index, role.id, role.weight))

end Runtime

/-! ## Walking voters -/

abbrev ChamberScratch := StorageMap (ℕ × (ℕ × Credential)) ChamberEntry

def PollKind.wants (kind : PollKind) : ℕ → Bool
  | 0 => kind.hasSpo
  | 1 => kind.hasDrep
  | _ => false

/-- Note one badge of a voter who chose `option`.  The first sighting of a
badge fixes its option and weight; a pool seen again under another option is
marked as conflicting. -/
def recordBadge (host : ℕ) (kind : PollKind) (option : ℕ) (scratch : ChamberScratch)
    (badge : RoleTuple) : ChamberScratch :=
  if kind.wants badge.1 then
    let key := (host, (badge.1, badge.2.1))
    match scratch.get key with
    | none => scratch.insert key ⟨option, badge.2.2, false⟩
    | some entry =>
        if badge.1 = 0 ∧ entry.conflict = false ∧ entry.option ≠ option then
          scratch.insert key { entry with conflict := true }
        else scratch
  else scratch

def addAt (bound : ℕ) (totals : List ℕ) (i amount : ℕ) : List ℕ :=
  totals.modify i (fun total => satAdd bound total amount)

structure WalkTotals where
  weights : List ℕ
  scratch : ChamberScratch

def Runtime.walkVoter (s : Runtime) (host : ℕ) (poll : Poll) (acc : WalkTotals)
    (voter : AccountId) : WalkTotals :=
  match s.polls.pollVotes.get (host, voter) with
  | none => acc
  | some option =>
      if poll.options.length ≤ option then acc
      else
        { weights := addAt u128Max acc.weights option
            (s.talkStake.votingPower.getD voter 0)
          scratch :=
            if poll.kind.hasChambers then
              (s.rolesOf voter).foldl (recordBadge host poll.kind option) acc.scratch
            else acc.scratch }

/-! ## Draining scratch rows -/

structure ChamberTotals where
  spoWeights : List ℕ
  spoCounts : List ℕ
  drepWeights : List ℕ
  drepCounts : List ℕ
deriving DecidableEq, Repr

def ChamberTotals.zero (numOptions : ℕ) : ChamberTotals :=
  let zeros := List.replicate numOptions 0
  ⟨zeros, zeros, zeros, zeros⟩

def ChamberTotals.addEntry (numOptions : ℕ) (totals : ChamberTotals) (badgeKind : ℕ)
    (entry : ChamberEntry) : ChamberTotals :=
  if entry.conflict ∨ numOptions ≤ entry.option then totals
  else
    match badgeKind with
    | 0 => { totals with
        spoWeights := addAt u128Max totals.spoWeights entry.option entry.weight
        spoCounts := addAt u32Max totals.spoCounts entry.option 1 }
    | 1 => { totals with
        drepWeights := addAt u128Max totals.drepWeights entry.option entry.weight
        drepCounts := addAt u32Max totals.drepCounts entry.option 1 }
    | _ => totals

def drainRow (host numOptions : ℕ) (acc : ChamberTotals × ChamberScratch)
    (key : ℕ × Credential) : ChamberTotals × ChamberScratch :=
  let totals :=
    match acc.2.get (host, key) with
    | none => acc.1
    | some entry => acc.1.addEntry numOptions key.1 entry
  (totals, acc.2.remove (host, key))

/-! ## The paged close -/

namespace CloseState

def chamberTotals (state : CloseState) : ChamberTotals :=
  ⟨state.spoWeights, state.spoCounts, state.drepWeights, state.drepCounts⟩

def setChamberTotals (state : CloseState) (totals : ChamberTotals) : CloseState :=
  { state with
    spoWeights := totals.spoWeights
    spoCounts := totals.spoCounts
    drepWeights := totals.drepWeights
    drepCounts := totals.drepCounts }

end CloseState

/-- A close in progress within one call: its state, the scratch rows and the
budget the call has left. -/
structure ClosePage where
  state : CloseState
  scratch : ChamberScratch
  budget : ℕ

namespace Runtime

def votersFrom (cfg : Config) (s : Runtime) (host : ℕ) (cursor : Option AccountId) :
    List AccountId :=
  walkFrom cfg.blake2 (s.polls.pollVotes.prefixKeys cfg.blake2 host) cursor

def freshClose (s : Runtime) (poll : Poll) : CloseState where
  draining := false
  cursor := none
  optionWeights := List.replicate poll.options.length 0
  spoWeights := []
  spoCounts := []
  drepWeights := []
  drepCounts := []
  stakeSeq := s.talkStake.votingPowerSeq
  rolesSeq := s.roles.observedRolesSeq
  smeared := false
  startedAt := s.blockNumber

/-- On a resumed walk, note that the weights moved since the close began. -/
def checkSmear (s : Runtime) (poll : Poll) (state : CloseState) : CloseState :=
  if state.cursor.isSome ∧ state.smeared = false ∧
      (s.talkStake.votingPowerSeq ≠ state.stakeSeq ∨
        (poll.kind.hasChambers ∧ s.roles.observedRolesSeq ≠ state.rolesSeq)) then
    { state with smeared := true }
  else state

def walkPage (cfg : Config) (s : Runtime) (host : ℕ) (poll : Poll)
    (page : ClosePage) : ClosePage :=
  if page.state.draining then page
  else
    let voters := (s.votersFrom cfg host page.state.cursor).take page.budget
    let totals := voters.foldl (s.walkVoter host poll) ⟨page.state.optionWeights, page.scratch⟩
    let cursor := voters.getLast?.or page.state.cursor
    -- a page that is not full has reached the end; a full one looks one voter ahead
    let exhausted :=
      decide (voters.length < page.budget) || cursor.isNone ||
        (s.votersFrom cfg host cursor).isEmpty
    { state := { page.state with
        optionWeights := totals.weights
        draining := exhausted
        cursor := if exhausted then none else cursor }
      scratch := totals.scratch
      budget := page.budget - voters.length }

def drainPage (cfg : Config) (host : ℕ) (poll : Poll) (page : ClosePage) : ClosePage :=
  if page.state.draining then
    let budget := page.budget * max cfg.maxChamberBadges 1
    let numOptions := poll.options.length
    let totals :=
      if page.state.spoWeights = [] then ChamberTotals.zero numOptions
      else page.state.chamberTotals
    let keys := (page.scratch.prefixKeys cfg.blake2 host).take budget
    let drained := keys.foldl (drainRow host numOptions) (totals, page.scratch)
    { state := page.state.setChamberTotals drained.1
      scratch := drained.2
      budget := budget }
  else page

def closeFinished (cfg : Config) (host : ℕ) (page : ClosePage) : Bool :=
  page.state.draining && (page.scratch.prefixKeys cfg.blake2 host).isEmpty

def frozenResult (s : Runtime) (host : ℕ) (poll : Poll) (state : CloseState) : PollResult :=
  let counts := (List.range poll.options.length).map
    (fun i => s.polls.pollTally.getD (host, i % 2 ^ 8) 0)
  let total := counts.foldl (satAdd u32Max) 0
  let materialize := decide (0 < total) && poll.kind.hasChambers
  let spo := materialize && poll.kind.hasSpo
  let drep := materialize && poll.kind.hasDrep
  { optionWeights := state.optionWeights
    optionCounts := (List.range state.optionWeights.length).map (fun i => counts.getD i 0)
    optionSpoWeights := if spo then state.spoWeights else []
    optionSpoCounts := if spo then state.spoCounts else []
    optionDrepWeights := if drep then state.drepWeights else []
    optionDrepCounts := if drep then state.drepCounts else []
    closedAt := s.blockNumber }

def savePage (s : Runtime) (host : ℕ) (page : ClosePage) : Runtime :=
  { s with polls := { s.polls with
      pollChamberScratch := page.scratch
      pollCloseState := s.polls.pollCloseState.insert host page.state } }

def finalizeClose (s : Runtime) (host : ℕ) (poll : Poll) (page : ClosePage) : Runtime :=
  let frozen := { s with polls := { s.polls with
      pollChamberScratch := page.scratch
      pollResults := s.polls.pollResults.insert host (s.frozenResult host poll page.state)
      pollCloseState := s.polls.pollCloseState.remove host } }
  let reported :=
    if page.state.smeared then
      frozen.deposit (.pollTallySmeared host
        (satAdd u32Max (min (s.blockNumber - page.state.startedAt) u32Max) 1))
    else frozen
  reported.deposit (.pollClosed host)

def closePage (cfg : Config) (s : Runtime) (host : ℕ) (poll : Poll) : Runtime :=
  let state := (s.polls.pollCloseState.get host).getD (s.freshClose poll)
  let page := drainPage cfg host poll
    (s.walkPage cfg host poll
      ⟨s.checkSmear poll state, s.polls.pollChamberScratch, cfg.maxClosePage⟩)
  if closeFinished cfg host page then s.finalizeClose host poll page
  else s.savePage host page

def closePoll (cfg : Config) (s : Runtime) (who : AccountId) (host : ℕ) :
    Except MicroblogError Runtime :=
  if !s.isAllowed who then .error .notAllowed
  else
    match s.polls.polls.get host with
    | none => .error .pollNotFound
    | some poll =>
        if s.polls.pollResults.contains host then .ok s
        else
          match poll.closeAt with
          | none => .error .pollNotClosable
          | some deadline =>
              if s.blockNumber < deadline then .error .pollNotClosable
              else .ok (s.closePage cfg host poll)

/-! ## What a close is charged for -/

def walkedVoters (cfg : Config) (s : Runtime) (host : ℕ) (page : ClosePage) :
    List AccountId :=
  if page.state.draining then []
  else (s.votersFrom cfg host page.state.cursor).take page.budget

def drainedRows (cfg : Config) (host : ℕ) (page : ClosePage) : List (ℕ × Credential) :=
  if page.state.draining then
    (page.scratch.prefixKeys cfg.blake2 host).take
      (page.budget * max cfg.maxChamberBadges 1)
  else []

/-- A page priced in walked voters; a voter costs as much as all its badges. -/
def closePageItems (cfg : Config) (walkItems drainItems : ℕ) : ℕ :=
  satAdd u32Max walkItems (drainItems ⌈/⌉ max cfg.maxChamberBadges 1)

def startPage (cfg : Config) (s : Runtime) (host : ℕ) (poll : Poll) : ClosePage :=
  ⟨s.checkSmear poll ((s.polls.pollCloseState.get host).getD (s.freshClose poll)),
    s.polls.pollChamberScratch, cfg.maxClosePage⟩

/-- The number of items a close call reports as its weight.  A call that does
no page reports none. -/
def closePollItems (cfg : Config) (s : Runtime) (who : AccountId) (host : ℕ) : ℕ :=
  if !s.isAllowed who then 0
  else
    match s.polls.polls.get host with
    | none => 0
    | some poll =>
        if s.polls.pollResults.contains host then 0
        else
          match poll.closeAt with
          | none => 0
          | some deadline =>
              if s.blockNumber < deadline then 0
              else
                let start := s.startPage cfg host poll
                closePageItems cfg (s.walkedVoters cfg host start).length
                  (drainedRows cfg host (s.walkPage cfg host poll start)).length

end Runtime

end CognoChain
