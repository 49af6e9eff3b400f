import CognoChain.Model.Governance
import CognoChain.Substrate.BoundedVec

/-!
# The validator set

The pallet that decides who produces blocks.  The committee adds and removes
validators; an offence report queues its offenders, and the next rotation
drains the queue before it hands the set to the session pallet.  The bound of
the set is a 32-bit number, so its length fits the type the floor is compared
in.
-/

namespace CognoChain

open Substrate

structure ValidatorConfig where
  minAuthorities : ℕ
  maxValidators : ℕ

def validatorConfig : ValidatorConfig where
  minAuthorities := 1
  maxValidators := 32

inductive ValidatorEvent (V : Type)
  | validatorAdditionInitiated (id : V)
  | validatorRemovalInitiated (id : V)
deriving DecidableEq, Repr

inductive ValidatorError
  | badOrigin
  | tooLowValidatorCount
  | duplicate
  | tooManyValidators
  | notFunded
  | noSessionKeys
deriving DecidableEq, Repr

/-- What the fuel and session pallets answer when a validator is to be seated. -/
structure SeatGates (V : Type) where
  fuelGate : V → Bool
  keysGate : V → Bool

structure ValidatorStore (cfg : ValidatorConfig) (V : Type) where
  validators : BoundedVec V cfg.maxValidators := ∅
  offlineValidators : BoundedVec V cfg.maxValidators := ∅
  events : List (ValidatorEvent V) := []

namespace ValidatorStore

variable {cfg : ValidatorConfig} {V : Type} [DecidableEq V]

def deposit (s : ValidatorStore cfg V) (event : ValidatorEvent V) : ValidatorStore cfg V :=
  { s with events := s.events ++ [event] }

/-- Seat the genesis set.  A second seating and a set above the bound abort the
build. -/
def initializeValidators (s : ValidatorStore cfg V) (validators : List V) :
    Option (ValidatorStore cfg V) :=
  if validators.isEmpty then some s
  else if !s.validators.items.isEmpty then none
  else (BoundedVec.ofList validators).map (fun bounded => { s with validators := bounded })

def doAddValidator (s : ValidatorStore cfg V) (gates : SeatGates V) (id : V) :
    Except ValidatorError (ValidatorStore cfg V) :=
  if !gates.fuelGate id then .error .notFunded
  else if !gates.keysGate id then .error .noSessionKeys
  else if s.validators.items.contains id then .error .duplicate
  else
    match s.validators.tryPush id with
    | none => .error .tooManyValidators
    | some validators =>
        .ok ({ s with validators := validators }.deposit (.validatorAdditionInitiated id))

/-- The floor is checked on the size the set would have after the removal,
whether or not the validator is in it. -/
def doRemoveValidator (s : ValidatorStore cfg V) (id : V) :
    Except ValidatorError (ValidatorStore cfg V) :=
  if s.validators.items.length - 1 < cfg.minAuthorities then .error .tooLowValidatorCount
  else
    .ok ({ s with validators := s.validators.retain (· ≠ id) }.deposit
      (.validatorRemovalInitiated id))

def addValidator (s : ValidatorStore cfg V) (origin : CommitteeOrigin) (gates : SeatGates V)
    (id : V) : Except ValidatorError (ValidatorStore cfg V) :=
  if !authorityOrigin origin then .error .badOrigin else s.doAddValidator gates id

def removeValidator (s : ValidatorStore cfg V) (origin : CommitteeOrigin) (id : V) :
    Except ValidatorError (ValidatorStore cfg V) :=
  if !authorityOrigin origin then .error .badOrigin else s.doRemoveValidator id

/-- A mark that does not fit the queue is dropped. -/
def markForRemoval (s : ValidatorStore cfg V) (id : V) : ValidatorStore cfg V :=
  { s with offlineValidators := (s.offlineValidators.tryPush id).getD s.offlineValidators }

def removeOfflineValidators (s : ValidatorStore cfg V) : ValidatorStore cfg V :=
  if s.offlineValidators.items.isEmpty then s
  else { s with
    validators := s.validators.retain (fun v => !s.offlineValidators.items.contains v)
    offlineValidators := ∅ }

def newSession (s : ValidatorStore cfg V) : Option (List V) × ValidatorStore cfg V :=
  let drained := s.removeOfflineValidators
  (some drained.validators.items, drained)

def reportOffence (s : ValidatorStore cfg V) (offenders : List (V × V)) :
    ValidatorStore cfg V :=
  offenders.foldl (fun s offender => s.markForRemoval offender.1) s

end ValidatorStore

/-- What can happen to the set: the two calls, an offence report and a session
rotation. -/
inductive ValidatorOp (V : Type)
  | addValidator (origin : CommitteeOrigin) (gates : SeatGates V) (id : V)
  | removeValidator (origin : CommitteeOrigin) (id : V)
  | reportOffence (offenders : List (V × V))
  | newSession

namespace ValidatorStore

variable {cfg : ValidatorConfig} {V : Type} [DecidableEq V]

def step (s : ValidatorStore cfg V) : ValidatorOp V → ValidatorStore cfg V
  | .addValidator origin gates id => (s.addValidator origin gates id).toOption.getD s
  | .removeValidator origin id => (s.removeValidator origin id).toOption.getD s
  | .reportOffence offenders => s.reportOffence offenders
  | .newSession => s.newSession.2

def run (s : ValidatorStore cfg V) (ops : List (ValidatorOp V)) : ValidatorStore cfg V :=
  Substrate.run step s ops

end ValidatorStore

end CognoChain
