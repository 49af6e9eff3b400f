import Mathlib.Logic.Function.Basic
import Mathlib.Tactic

/-!
# Nonces of writes in flight

The client's nonce manager.  A take runs in three stretches between which other
code may run: it queues behind the lock of its account, waits for a chain read,
and hands out a nonce.  Settling a write is synchronous.  Account nonces are 32
bits wide, where the numbers of the client are exact.
-/

namespace CognoChain

abbrev Ss58 := String

/-- The record of one account.  Its lock is the promise the next take waits for:
the one an earlier take releases, or one that is resolved from the start. -/
structure AccountNonce where
  next : Option ℕ
  inflight : ℕ
  lock : Option ℕ
deriving DecidableEq, Repr

inductive TakePhase
  | queued (prev : Option ℕ)
  | reading
  | released
deriving DecidableEq, Repr

/-- A call of `takeNonce`, numbered by its place among all calls. -/
structure Take where
  ss58 : Ss58
  phase : TakePhase
deriving DecidableEq, Repr

/-- A nonce handed out, with what the take read from the chain if its read came back. -/
structure Handed where
  ss58 : Ss58
  chainNonce : Option ℕ
  nonce : ℕ
deriving DecidableEq, Repr

/-- The records, the calls made so far, every nonce handed out, and those whose
write has not settled, both in the order the takes completed. -/
structure NonceManager where
  accounts : Ss58 → Option AccountNonce
  takes : List Take
  handed : List Handed
  outstanding : List Handed

namespace NonceManager

def start : NonceManager where
  accounts := fun _ => none
  takes := []
  handed := []
  outstanding := []

def getState (m : NonceManager) (ss58 : Ss58) : AccountNonce :=
  (m.accounts ss58).getD { next := none, inflight := 0, lock := none }

def setState (m : NonceManager) (ss58 : Ss58) (s : AccountNonce) : NonceManager :=
  { m with accounts := Function.update m.accounts ss58 (some s) }

/-! ## Taking -/

def enqueue (m : NonceManager) (ss58 : Ss58) : NonceManager :=
  let s := m.getState ss58
  let queued := m.setState ss58 { s with lock := some m.takes.length }
  { queued with takes := m.takes ++ [⟨ss58, .queued s.lock⟩] }

def resolved (m : NonceManager) : Option ℕ → Bool
  | none => true
  | some take => m.takes[take]?.any (fun t => t.phase = .released)

def acquire (m : NonceManager) (take : ℕ) : Option NonceManager :=
  match m.takes[take]? with
  | some ⟨ss58, .queued prev⟩ =>
      if m.resolved prev then some { m with takes := m.takes.set take ⟨ss58, .reading⟩ } else none
  | _ => none

/-- The nonce a read gives: the chain's is a floor, and a failed read counts as 0. -/
def assign (s : AccountNonce) (chainNonce : Option ℕ) : ℕ :=
  match s.next with
  | some next => max (chainNonce.getD 0) next
  | none => chainNonce.getD 0

def complete (m : NonceManager) (take : ℕ) (chainNonce : Option ℕ) : Option NonceManager :=
  match m.takes[take]? with
  | some ⟨ss58, .reading⟩ =>
      let s := m.getState ss58
      let n := assign s chainNonce
      let taken := m.setState ss58 { s with next := some (n + 1), inflight := s.inflight + 1 }
      let handed : Handed := ⟨ss58, chainNonce, n⟩
      some
        { taken with
          takes := m.takes.set take ⟨ss58, .released⟩
          handed := m.handed ++ [handed]
          outstanding := m.outstanding ++ [handed] }
  | _ => none

/-! ## Settling -/

def settleNonce (m : NonceManager) (ss58 : Ss58) : NonceManager :=
  match m.accounts ss58 with
  | none => m
  | some s =>
      let inflight := s.inflight - 1
      m.setState ss58 { s with inflight, next := if inflight = 0 then none else s.next }

def settle (m : NonceManager) (write : Handed) : Option NonceManager :=
  if write ∈ m.outstanding then
    some { m.settleNonce write.ss58 with outstanding := m.outstanding.erase write }
  else none

end NonceManager

/-! ## Interleavings -/

inductive NonceEvent
  | call (ss58 : Ss58)
  | locked (take : ℕ)
  | read (take : ℕ) (chainNonce : Option ℕ)
  | settled (write : Handed)
deriving DecidableEq, Repr

namespace NonceManager

/-- One stretch of code that runs without interruption; `none` if it cannot run now. -/
def step (m : NonceManager) : NonceEvent → Option NonceManager
  | .call ss58 => some (m.enqueue ss58)
  | .locked take => m.acquire take
  | .read take chainNonce => m.complete take chainNonce
  | .settled write => m.settle write

def run (events : List NonceEvent) : Option NonceManager := events.foldlM step start

def inFlight (m : NonceManager) (ss58 : Ss58) : List Handed :=
  m.outstanding.filter (fun write => write.ss58 = ss58)

end NonceManager

end CognoChain
