import CognoChain.Model.Observer
import CognoChain.Model.Polls

/-!
# Calls, origins and the block pipeline

The runtime's calls, their dispatch under an origin, the capacity check that
admits and charges a signed call, and the operations a block is made of.  A
failed dispatch leaves the state unchanged.
-/

namespace CognoChain

open Substrate

/-! ## Profile calls -/

inductive ProfileError
  | notAllowed
  | nameTooLong
  | bioTooLong
  | avatarTooLong
  | bannerTooLong
  | locationTooLong
  | websiteTooLong
  | noProfile
  | notPinned
deriving DecidableEq, Repr

namespace Runtime

def setProfile (cfg : Config) (s : Runtime) (who : AccountId) (profile : Profile) :
    Except ProfileError Runtime :=
  if !s.isAllowed who then .error .notAllowed
  else if cfg.maxName < profile.displayName.length then .error .nameTooLong
  else if cfg.maxBio < profile.bio.length then .error .bioTooLong
  else if cfg.maxAvatar < profile.avatar.length then .error .avatarTooLong
  else if cfg.maxBanner < profile.banner.length then .error .bannerTooLong
  else if cfg.maxLocation < profile.location.length then .error .locationTooLong
  else if cfg.maxWebsite < profile.website.length then .error .websiteTooLong
  else
    .ok ({ s with profile := { s.profile with
        profiles := s.profile.profiles.insert who profile } }.deposit (.profileSet who))

def clearProfile (s : Runtime) (who : AccountId) : Except ProfileError Runtime :=
  if s.profile.profiles.contains who then
    .ok ({ s with profile := { s.profile with
        profiles := s.profile.profiles.remove who } }.deposit (.profileCleared who))
  else .error .noProfile

def pinPost (s : Runtime) (who : AccountId) (id : ℕ) : Except ProfileError Runtime :=
  if !s.isAllowed who then .error .notAllowed
  else
    .ok ({ s with profile := { s.profile with
        pinnedPost := s.profile.pinnedPost.insert who id } }.deposit (.postPinned who id))

def unpinPost (s : Runtime) (who : AccountId) : Except ProfileError Runtime :=
  if s.profile.pinnedPost.contains who then
    .ok ({ s with profile := { s.profile with
        pinnedPost := s.profile.pinnedPost.remove who } }.deposit (.postUnpinned who))
  else .error .notPinned

end Runtime

/-! ## Calls and origins -/

inductive MicroblogCall
  | postMessage (text : Bytes) (parent : Option ℕ)
  | forceSetCapacity (who : AccountId) (capLast : ℕ)
  | quotePost (text : Bytes) (quotedId : ℕ)
  | vote (postId : ℕ) (dir : VoteDir)
  | clearVote (postId : ℕ)
  | voteAccount (target : AccountId) (dir : VoteDir)
  | clearAccountVote (target : AccountId)
  | follow (target : AccountId)
  | unfollow (target : AccountId)
  | createPoll (question : Bytes) (options : List Bytes) (closeAt : Option ℕ)
      (kind : PollKind) (action : Option GovAction)
  | castPollVote (postId option : ℕ)
  | closePoll (hostId : ℕ)

inductive ProfileCall
  | setProfile (profile : Profile)
  | clearProfile
  | pinPost (id : ℕ)
  | unpinPost

inductive GateCall
  | linkIdentitySigned (proof : CoseProof)
  | linkStakeSigned (proof : CoseProof)
  | revoke (account : AccountId)
  | revokeMany (targets : List AccountId)
  | unlinkStake
  | tombstoneStakeCred (stakeCred : StakeCredential)

inductive RolesCall
  | claimRoleSigned (proof : CoseProof)
  | unclaimRole (role : RoleKind)
  | revokeRole (account : AccountId) (role : RoleKind)
  | revokeRoleMany (targets : List (AccountId × RoleKind))

inductive ObserverCall
  | observe (args : ObserveArgs)
  | setEnforcement (enabled : Bool)

inductive RuntimeCall
  | microblog (call : MicroblogCall)
  | profile (call : ProfileCall)
  | gate (call : GateCall)
  | roles (call : RolesCall)
  | observer (call : ObserverCall)

/-- Who a call comes from: an account, the authority committee, or nobody (an
inherent or an unsigned transaction). -/
inductive Origin
  | signed (who : AccountId)
  | authority
  | none
deriving DecidableEq, Repr

inductive DispatchError
  | badOrigin
  | microblog (e : MicroblogError)
  | profile (e : ProfileError)
  | gate (e : GateError)
  | roles (e : RolesError)
deriving DecidableEq, Repr

abbrev DispatchResult := Except DispatchError Runtime

namespace Runtime

def dispatchSignedMicroblog (cfg : Config) (s : Runtime) (who : AccountId) :
    MicroblogCall → DispatchResult
  | .postMessage text parent => (s.postMessage cfg who text parent).mapError .microblog
  | .forceSetCapacity _ _ => .error .badOrigin
  | .quotePost text quotedId => (s.quotePost cfg who text quotedId).mapError .microblog
  | .vote postId dir => (s.vote who postId dir).mapError .microblog
  | .clearVote postId => (s.clearVote who postId).mapError .microblog
  | .voteAccount target dir => (s.voteAccount who target dir).mapError .microblog
  | .clearAccountVote target => (s.clearAccountVote who target).mapError .microblog
  | .follow target => (s.follow who target).mapError .microblog
  | .unfollow target => (s.unfollow who target).mapError .microblog
  | .createPoll question options closeAt kind action =>
      (s.createPoll cfg who question options closeAt kind action).mapError .microblog
  | .castPollVote postId option => (s.castPollVote who postId option).mapError .microblog
  | .closePoll hostId => (s.closePoll cfg who hostId).mapError .microblog

def dispatchMicroblog (cfg : Config) (s : Runtime) (origin : Origin)
    (call : MicroblogCall) : DispatchResult :=
  match origin, call with
  | .signed who, call => s.dispatchSignedMicroblog cfg who call
  | .authority, .forceSetCapacity who capLast => .ok (s.forceSetCapacity cfg who capLast)
  | _, _ => .error .badOrigin

def dispatchProfile (cfg : Config) (s : Runtime) (origin : Origin)
    (call : ProfileCall) : DispatchResult :=
  match origin with
  | .signed who =>
      (match call with
        | .setProfile profile => s.setProfile cfg who profile
        | .clearProfile => s.clearProfile who
        | .pinPost id => s.pinPost who id
        | .unpinPost => s.unpinPost who).mapError .profile
  | _ => .error .badOrigin

def dispatchGate (cfg : Config) (s : Runtime) (origin : Origin)
    (call : GateCall) : DispatchResult :=
  match origin, call with
  | .none, .linkIdentitySigned proof => (s.linkIdentitySigned cfg proof).mapError .gate
  | .none, .linkStakeSigned proof => (s.linkStakeSigned cfg proof).mapError .gate
  | .authority, .revoke account => (s.doRevoke account).mapError .gate
  | .authority, .revokeMany targets => .ok (s.revokeMany targets)
  | .signed who, .unlinkStake => (s.unlinkStake who).mapError .gate
  | .authority, .tombstoneStakeCred stakeCred =>
      .ok ((s.tombstoneStakeCred stakeCred).deposit
        (.stakeCredTombstonedByAuthority stakeCred))
  | _, _ => .error .badOrigin

def dispatchRoles (cfg : Config) (s : Runtime) (origin : Origin)
    (call : RolesCall) : DispatchResult :=
  match origin, call with
  | .none, .claimRoleSigned proof => (s.claimRoleSigned cfg proof).mapError .roles
  | .signed who, .unclaimRole role => (s.unclaimRole who role).mapError .roles
  | .authority, .revokeRole account role => (s.doRevokeRole account role).mapError .roles
  | .authority, .revokeRoleMany targets => .ok (s.revokeRoleMany targets)
  | _, _ => .error .badOrigin

def dispatchObserver (cfg : Config) (s : Runtime) (origin : Origin)
    (call : ObserverCall) : DispatchResult :=
  match origin, call with
  | .none, .observe args => .ok (s.observe cfg args)
  | .authority, .setEnforcement enabled => .ok (s.setEnforcement enabled)
  | _, _ => .error .badOrigin

def dispatch (cfg : Config) (s : Runtime) (origin : Origin) (call : RuntimeCall) :
    DispatchResult :=
  match call with
  | .microblog call => s.dispatchMicroblog cfg origin call
  | .profile call => s.dispatchProfile cfg origin call
  | .gate call => s.dispatchGate cfg origin call
  | .roles call => s.dispatchRoles cfg origin call
  | .observer call => s.dispatchObserver cfg origin call

def execute (cfg : Config) (s : Runtime) (origin : Origin) (call : RuntimeCall) : Runtime :=
  match s.dispatch cfg origin call with
  | .ok after => after
  | .error _ => s

end Runtime

/-! ## The capacity check -/

def MicroblogCall.meteredCost (cfg : Config) : MicroblogCall → Option ℕ
  | .postMessage text _ => some (postCost cfg text.length)
  | .quotePost text _ => some (postCost cfg text.length)
  | .vote _ _ => some cfg.voteCost
  | .clearVote _ => some cfg.voteCost
  | .voteAccount _ _ => some cfg.voteCost
  | .clearAccountVote _ => some cfg.voteCost
  | .follow _ => some cfg.followCost
  | .unfollow _ => some cfg.followCost
  | .createPoll question _ _ _ _ => some (postCost cfg question.length)
  | .castPollVote _ _ => some cfg.voteCost
  | .closePoll _ => some cfg.voteCost
  | .forceSetCapacity _ _ => none

def MicroblogCall.overLen (cfg : Config) : MicroblogCall → Bool
  | .postMessage text _ => decide (cfg.maxLength < text.length)
  | .quotePost text _ => decide (cfg.maxLength < text.length)
  | .createPoll question _ _ _ _ => decide (cfg.maxLength < question.length)
  | _ => false

def unpayable : ℕ := u128Max

def foreignCost (cfg : Config) (s : Runtime) (who : AccountId) : RuntimeCall → Option ℕ
  | .profile .clearProfile =>
      some (if s.profile.profiles.contains who then 0 else unpayable)
  | .profile .unpinPost =>
      some (if s.profile.pinnedPost.contains who then 0 else unpayable)
  | .profile _ => some cfg.profileCost
  | _ => none

def RuntimeCall.feelessIf (s : Runtime) (who : AccountId) : RuntimeCall → Bool
  | .microblog (.forceSetCapacity _ _) => false
  | .microblog _ => true
  | .profile _ => true
  | .gate .unlinkStake => s.gate.stakeCredOf.contains who
  | .roles (.unclaimRole role) => s.roles.roleClaimOf.contains (who, role)
  | _ => false

inductive InvalidTransaction
  | call
  | exhaustsResources
deriving DecidableEq, Repr

/-- What the check carries to the end of the call: who to charge and how much. -/
structure Pre where
  who : Option AccountId
  cost : ℕ
deriving DecidableEq, Repr

def meteredNeed (cfg : Config) (s : Runtime) (who : AccountId) : RuntimeCall → Option ℕ
  | .microblog call => call.meteredCost cfg
  | call => foreignCost cfg s who call

def RuntimeCall.overLen (cfg : Config) : RuntimeCall → Bool
  | .microblog call => call.overLen cfg
  | _ => false

namespace Runtime

def checkCapacity (cfg : Config) (s : Runtime) (origin : Origin) (call : RuntimeCall)
    (len : ℕ) : Except InvalidTransaction Pre :=
  match origin with
  | .signed who =>
      if call.overLen cfg then .error .call
      else
        match meteredNeed cfg s who call with
        | none => .ok ⟨none, 0⟩
        | some need =>
            if cfg.maxCallLen < len then .error .call
            else if need = unpayable then .error .call
            else if currentCapacity cfg s who s.blockNumber < need then
              .error .exhaustsResources
            else .ok ⟨some who, need⟩
  | _ => .ok ⟨none, 0⟩

def postDispatch (cfg : Config) (s : Runtime) (pre : Pre) : Runtime :=
  match pre.who with
  | some who => s.consume cfg who pre.cost
  | none => s

/-- A transaction: checked, executed and charged, or not included at all. -/
def applyExtrinsic (cfg : Config) (s : Runtime) (origin : Origin) (call : RuntimeCall)
    (len : ℕ) : Except InvalidTransaction Runtime :=
  match s.checkCapacity cfg origin call len with
  | .error e => .error e
  | .ok pre => .ok ((s.execute cfg origin call).postDispatch cfg pre)

/-- Start the next block: the number and the clock move, the previous block's
events are dropped, and the observer's hook runs. -/
def nextBlock (cfg : Config) (s : Runtime) (unixSecs : ℕ) : Runtime :=
  { s with blockNumber := s.blockNumber + 1, unixSecs := unixSecs, events := [] }
    |>.observerOnInitialize cfg

/-- The observation inherent: the delta a node derives from its snapshot in
the state it is applied in. -/
def observeSnapshot (cfg : Config) (s : Runtime) (obs : CardanoObservation) : Runtime :=
  s.observe cfg (s.deriveCall cfg obs)

end Runtime

/-! ## Operations of a run -/

/-- What happens to a chain, one step at a time: a new block, a call executed
under some origin, a signed transaction through the capacity check, or an
observation inherent. -/
inductive Op
  | nextBlock (unixSecs : ℕ)
  | call (origin : Origin) (call : RuntimeCall)
  | extrinsic (who : AccountId) (call : RuntimeCall) (len : ℕ)
  | inherent (obs : CardanoObservation)

namespace Runtime

def step (cfg : Config) (s : Runtime) : Op → Runtime
  | .nextBlock unixSecs => s.nextBlock cfg unixSecs
  | .call origin call => s.execute cfg origin call
  | .extrinsic who call len =>
      match s.applyExtrinsic cfg (.signed who) call len with
      | .ok after => after
      | .error _ => s
  | .inherent obs => s.observeSnapshot cfg obs

def run (cfg : Config) (s : Runtime) (ops : List Op) : Runtime :=
  Substrate.run (step cfg) s ops

end Runtime

end CognoChain
