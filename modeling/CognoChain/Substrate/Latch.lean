import Mathlib.Data.List.Chain
import Mathlib.Tactic

/-!
# Latches

A latch is set and cleared in turn.  It signals `true` when it is set and
`false` when it is cleared, and signals nothing otherwise, so its signals
alternate and the last one tells its position.
-/

namespace Substrate

/-- The signals of a latch that started cleared and is now at `latched`. -/
structure Signals (signals : List Bool) (latched : Bool) : Prop where
  alternate : signals.IsChain (· ≠ ·)
  starts : signals.head? ≠ some false
  ends : signals.getLast?.getD false = latched

namespace Signals

variable {signals : List Bool}

theorem nil : Signals [] false := ⟨.nil, nofun, rfl⟩

theorem concat {latched : Bool} (h : Signals signals latched) :
    Signals (signals ++ [!latched]) (!latched) := by
  obtain ⟨halternate, hstarts, hends⟩ := h
  rcases List.eq_nil_or_concat signals with rfl | ⟨init, last, rfl⟩
  · cases hends
    exact ⟨.singleton _, nofun, rfl⟩
  · have hlast : last = latched := by simpa using hends
    refine ⟨?_, ?_, by simp⟩
    · refine List.isChain_append.mpr ⟨halternate, .singleton _, ?_⟩
      simp [hlast]
    · cases init with
      | nil => simpa using hstarts
      | cons first rest => simpa using hstarts

theorem set (h : Signals signals false) : Signals (signals ++ [true]) true := h.concat

theorem clear (h : Signals signals true) : Signals (signals ++ [false]) false := h.concat

end Signals

end Substrate
