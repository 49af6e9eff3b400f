import CognoChain.Ledger.StallAlarm
import CognoChain.Model.Client

/-!
# The client's reading of the stall alarm

After every block the latch is set exactly when the alarm is armed and the last
applied observation is more than the limit ago.  The client rebuilds that from
the clock and the latch, but takes the alarm to be armed only once a reference is
recorded.  The two part on a chain whose observations have all been backlogged:
the pallet arms the alarm on the backlog as well.
-/

namespace CognoChain

open Substrate CognoChain.Runtime

section Health

variable {cfg : Config} {s : Runtime}

theorem classify_of_noReference (hnone : s.observer.lastReference = none) :
    Client.classifyObserverHealth (Client.readObserverLiveness cfg s) = .neverStarted := by
  simp [Client.classifyObserverHealth, Client.readObserverLiveness, hnone]

theorem classify_isStalled_of_reference (hsome : s.observer.lastReference.isSome = true) :
    (Client.classifyObserverHealth (Client.readObserverLiveness cfg s)).isStalled = true ↔
      s.observer.stalled = true ∨ s.observer.lastAppliedAt + cfg.stallAfter < s.blockNumber := by
  unfold Client.classifyObserverHealth Client.readObserverLiveness
  simp only [hsome, Bool.true_eq_false, if_false]
  cases hlatched : s.observer.stalled with
  | true => simp [Client.ObserverHealth.isStalled]
  | false =>
    simp only [Option.some.injEq, Bool.false_eq_true, if_false, false_or]
    split_ifs with hgap
    · refine iff_of_true rfl ?_
      omega
    · refine iff_of_false (by simp [Client.ObserverHealth.isStalled]) ?_
      omega

theorem stalled_iff_overdue {last : Option ℕ}
    (htracks : s.stallClock.Tracks cfg.stallAfter last)
    (hsome : s.observer.lastReference.isSome = true) :
    s.observer.stalled = true ↔ s.observer.lastAppliedAt + cfg.stallAfter < s.blockNumber := by
  have harmed : s.stallClock.armed = true := by
    change (_ || _) = true
    rw [hsome, Bool.true_or]
  cases last with
  | none =>
    rw [htracks.1] at harmed
    cases harmed
  | some n =>
    obtain ⟨-, hlast, -, -, hstalled⟩ := htracks
    change s.observer.lastAppliedAt = n at hlast
    change s.observer.stalled = decide (cfg.stallAfter < s.blockNumber - n) at hstalled
    rw [hstalled, hlast, decide_eq_true_iff]
    omega

end Health

def backloggedChain : List Block :=
  ⟨0, [.call .none (.observer (.observe ⟨⟨100, 0⟩, 0, [], [], [], 1⟩))], by decide⟩ ::
    List.replicate 51 ⟨0, [], Block.nil_inBlock⟩

end CognoChain
