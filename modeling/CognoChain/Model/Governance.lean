import CognoChain.Model.Types
import CognoChain.Substrate.Run
import CognoChain.Substrate.Selection

/-!
# The committee and its fuel

The follower committee is the only authority of the chain.  Its member list is
replaced by `set_members`, which the runtime's call filter guards; its members
pay their fees from fuel, which a standing allowance regenerates.  The native
token is a parameter: the fuel pallet reads balances and mints or burns, and a
mint or a burn may fail.
-/

namespace CognoChain

open Substrate

structure GovernanceConfig where
  maxMembers : ℕ
  maxAllowance : ℕ
  minAllowance : ℕ
  maxFundedAccounts : ℕ
  regenPeriod : ℕ

def governanceConfig : GovernanceConfig where
  maxMembers := 7
  maxAllowance := 1000 * 10 ^ 12
  minAllowance := 10 ^ 9 + 10 ^ 12
  maxFundedAccounts := 64
  regenPeriod := 10

/-- What the fuel pallet uses of the native token. -/
structure Currency where
  Ledger : Type
  balance : Ledger → AccountId → ℕ
  totalBalance : Ledger → AccountId → ℕ
  reducibleBalance : Ledger → AccountId → ℕ
  mintInto : Ledger → AccountId → ℕ → Option Ledger
  burnFrom : Ledger → AccountId → ℕ → Option Ledger

/-- A mint adds exactly its amount to one balance, or fails. -/
def Currency.ExactMint (C : Currency) : Prop :=
  ∀ ledger who amount ledger', C.mintInto ledger who amount = some ledger' →
    C.balance ledger' = Function.update (C.balance ledger) who (C.balance ledger who + amount)

inductive FuelEvent
  | allowanceSet (who : AccountId) (max minted : ℕ)
  | allowanceRevoked (who : AccountId) (burned : ℕ)
  | fuelRegenerated (accounts minted : ℕ)
deriving DecidableEq, Repr

inductive GovernanceError
  | callFiltered
  | badOrigin
  | allowanceExceedsMax
  | allowanceBelowMinimum
  | tooManyFundedAccounts
  | stillSeated
  | currency
deriving DecidableEq, Repr

/-- A motion of the committee carries its ayes and the number of seats. -/
inductive CommitteeOrigin
  | members (ayes seats : ℕ)
  | other
deriving DecidableEq, Repr

def ensureProportionAtLeast (n d : ℕ) : CommitteeOrigin → Bool
  | .members ayes seats => decide (n * seats ≤ ayes * d)
  | .other => false

def authorityOrigin : CommitteeOrigin → Bool := ensureProportionAtLeast 3 5

structure Governance (C : Currency) where
  members : List AccountId
  allowances : List (AccountId × ℕ) := []
  totalMinted : ℕ := 0
  totalRevoked : ℕ := 0
  balances : C.Ledger
  events : List FuelEvent := []

def setEntry (who : AccountId) (max : ℕ) : List (AccountId × ℕ) → List (AccountId × ℕ)
  | [] => []
  | entry :: rest =>
      if entry.1 = who then (entry.1, max) :: rest else entry :: setEntry who max rest

def upsertAllowance (cfg : GovernanceConfig) (who : AccountId) (max : ℕ)
    (list : List (AccountId × ℕ)) : Except GovernanceError (List (AccountId × ℕ)) :=
  if list.any (fun entry => entry.1 = who) then .ok (setEntry who max list)
  else if list.length < cfg.maxFundedAccounts then .ok (list ++ [(who, max)])
  else .error .tooManyFundedAccounts

structure Regeneration (C : Currency) where
  balances : C.Ledger
  minted : ℕ := 0
  refilled : ℕ := 0

def Regeneration.refill {C : Currency} (acc : Regeneration C) (entry : AccountId × ℕ) :
    Regeneration C :=
  let bal := C.balance acc.balances entry.1
  if bal < entry.2 then
    let shortfall := entry.2 - bal
    match C.mintInto acc.balances entry.1 shortfall with
    | some after =>
        { balances := after
          minted := satAdd u128Max acc.minted shortfall
          refilled := satAdd u32Max acc.refilled 1 }
    | none => acc
  else acc

namespace Governance

variable {C : Currency}

def deposit (s : Governance C) (event : FuelEvent) : Governance C :=
  { s with events := s.events ++ [event] }

/-- The filter's rule for a new member list: distinct, not empty, within the
pallet's bound, not two, and every newcomer already funded. -/
def cognoCallFilter (cfg : GovernanceConfig) (s : Governance C)
    (newMembers : List AccountId) : Bool :=
  if (sortedSet StorageKey.enc newMembers).length ≠ newMembers.length then false
  else if newMembers.isEmpty then false
  else if cfg.maxMembers < newMembers.length then false
  else if newMembers.length = 2 then false
  else newMembers.all (fun m =>
    s.members.contains m || s.allowances.any (fun entry => entry.1 = m))

/-- The filter runs before the call, the origin check inside it.  The pallet
stores the list it is given, sorted. -/
def setMembers (cfg : GovernanceConfig) (s : Governance C) (origin : CommitteeOrigin)
    (newMembers : List AccountId) : Except GovernanceError (Governance C) :=
  if !s.cognoCallFilter cfg newMembers then .error .callFiltered
  else if !authorityOrigin origin then .error .badOrigin
  else .ok { s with
    members := newMembers.insertionSort (fun a b => StorageKey.enc a ≤ StorageKey.enc b) }

def setAllowance (cfg : GovernanceConfig) (s : Governance C) (origin : CommitteeOrigin)
    (who : AccountId) (max : ℕ) : Except GovernanceError (Governance C) :=
  if !authorityOrigin origin then .error .badOrigin
  else if cfg.maxAllowance < max then .error .allowanceExceedsMax
  else if max < cfg.minAllowance then .error .allowanceBelowMinimum
  else
    match upsertAllowance cfg who max s.allowances with
    | .error e => .error e
    | .ok list =>
        let bal := C.balance s.balances who
        if bal < max then
          let shortfall := max - bal
          match C.mintInto s.balances who shortfall with
          | none => .error .currency
          | some balances =>
              .ok ({ s with
                allowances := list
                balances := balances
                totalMinted := satAdd u128Max s.totalMinted shortfall }.deposit
                  (.allowanceSet who max shortfall))
        else .ok ({ s with allowances := list }.deposit (.allowanceSet who max 0))

def revoke (s : Governance C) (origin : CommitteeOrigin) (who : AccountId) :
    Except GovernanceError (Governance C) :=
  if !authorityOrigin origin then .error .badOrigin
  else if s.members.contains who then .error .stillSeated
  else
    let dropped := { s with allowances := s.allowances.filter (fun entry => entry.1 ≠ who) }
    let before := C.totalBalance s.balances who
    let reducible := C.reducibleBalance s.balances who
    if reducible = 0 then .ok (dropped.deposit (.allowanceRevoked who 0))
    else
      match C.burnFrom s.balances who reducible with
      | none => .error .currency
      | some balances =>
          let delta := before - C.totalBalance balances who
          .ok ({ dropped with
            balances := balances
            totalRevoked := satAdd u128Max s.totalRevoked delta }.deposit
              (.allowanceRevoked who delta))

def doRegenerate (s : Governance C) : Governance C :=
  let acc := s.allowances.foldl Regeneration.refill { balances := s.balances }
  if acc.minted = 0 then { s with balances := acc.balances }
  else
    { s with
      balances := acc.balances
      totalMinted := satAdd u128Max s.totalMinted acc.minted }.deposit
        (.fuelRegenerated acc.refilled acc.minted)

def onInitialize (cfg : GovernanceConfig) (s : Governance C) (now : ℕ) : Governance C :=
  if cfg.regenPeriod = 0 ∨ now % cfg.regenPeriod ≠ 0 then s else s.doRegenerate

end Governance

/-- What can happen to the committee and its fuel: the three calls, the hook of
a new block, and fees, which move balances outside the two pallets. -/
inductive GovernanceOp (C : Currency)
  | setMembers (origin : CommitteeOrigin) (newMembers : List AccountId)
  | setAllowance (origin : CommitteeOrigin) (who : AccountId) (max : ℕ)
  | revoke (origin : CommitteeOrigin) (who : AccountId)
  | tick (now : ℕ)
  | fees (balances : C.Ledger)

namespace Governance

variable {C : Currency}

def step (cfg : GovernanceConfig) (s : Governance C) : GovernanceOp C → Governance C
  | .setMembers origin newMembers => (s.setMembers cfg origin newMembers).toOption.getD s
  | .setAllowance origin who max => (s.setAllowance cfg origin who max).toOption.getD s
  | .revoke origin who => (s.revoke origin who).toOption.getD s
  | .tick now => s.onInitialize cfg now
  | .fees balances => { s with balances := balances }

def run (cfg : GovernanceConfig) (s : Governance C) (ops : List (GovernanceOp C)) :
    Governance C :=
  Substrate.run (step cfg) s ops

end Governance

end CognoChain
