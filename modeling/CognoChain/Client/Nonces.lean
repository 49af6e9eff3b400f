import CognoChain.Model.Nonces
import CognoChain.Substrate.Run

/-!
# In-flight nonces never collide

The record of an account covers its writes in flight: it counts them, and while
there are any its counter stands above all their nonces.  The counter is cleared
only when no write is in flight, so whatever a take has read by the time it
resumes, the nonce it computes then is above every nonce still out.
-/

namespace CognoChain

open Substrate

/-! ## One account -/

structure AccountNonce.Covers (s : AccountNonce) (writes : List Handed) : Prop where
  count : s.inflight = writes.length
  ascending : (writes.map Handed.nonce).Pairwise (· < ·)
  above : ∀ write ∈ writes, ∃ next, s.next = some next ∧ write.nonce < next

namespace NonceManager

variable {s : AccountNonce} {writes : List Handed} {m after : NonceManager} {ss58 : Ss58}

theorem le_assign (s : AccountNonce) {chainNonce : Option ℕ} {n : ℕ} (hread : chainNonce = some n) :
    n ≤ assign s chainNonce := by
  rw [hread]
  unfold assign
  split
  · exact Nat.le_max_left _ _
  · exact Nat.le_refl n

theorem lt_assign (hcovers : s.Covers writes) (chainNonce : Option ℕ) :
    ∀ write ∈ writes, write.nonce < assign s chainNonce := by
  intro write hwrite
  obtain ⟨next, hnext, hlt⟩ := hcovers.above write hwrite
  unfold assign
  rw [hnext]
  exact Nat.lt_of_lt_of_le hlt (Nat.le_max_right _ _)

theorem covers_take (hcovers : s.Covers writes) (ss58 : Ss58) (chainNonce : Option ℕ) :
    AccountNonce.Covers
      { s with next := some (assign s chainNonce + 1), inflight := s.inflight + 1 }
      (writes ++ [⟨ss58, chainNonce, assign s chainNonce⟩]) := by
  have hbelow := lt_assign hcovers chainNonce
  refine ⟨?_, ?_, ?_⟩
  · simp [hcovers.count]
  · rw [List.map_append, List.pairwise_append]
    refine ⟨hcovers.ascending, List.pairwise_singleton _ _, ?_⟩
    intro earlier hearlier latest hlatest
    obtain ⟨write, hwrite, rfl⟩ := List.mem_map.mp hearlier
    rw [List.map_singleton, List.mem_singleton] at hlatest
    rw [hlatest]
    exact hbelow write hwrite
  · intro write hwrite
    refine ⟨assign s chainNonce + 1, rfl, ?_⟩
    rcases List.mem_append.mp hwrite with hearlier | hlatest
    · exact Nat.lt_succ_of_lt (hbelow write hearlier)
    · rw [List.mem_singleton.mp hlatest]
      exact Nat.lt_succ_self _

theorem covers_settle (hcovers : s.Covers writes) {write : Handed} (hwrite : write ∈ writes) :
    AccountNonce.Covers
      { s with
        inflight := s.inflight - 1
        next := if s.inflight - 1 = 0 then none else s.next }
      (writes.erase write) := by
  have hlength : (writes.erase write).length = s.inflight - 1 := by
    rw [List.length_erase_of_mem hwrite, hcovers.count]
  refine ⟨hlength.symm, ?_, ?_⟩
  · exact hcovers.ascending.sublist (List.erase_sublist.map Handed.nonce)
  · intro other hother
    have hleft : s.inflight - 1 ≠ 0 := by
      rw [← hlength]
      exact Nat.pos_iff_ne_zero.mp (List.length_pos_of_mem hother)
    obtain ⟨next, hnext, hlt⟩ := hcovers.above other (List.mem_of_mem_erase hother)
    exact ⟨next, by rw [if_neg hleft, hnext], hlt⟩

/-! ## All accounts -/

theorem getState_setState (m : NonceManager) (ss58 other : Ss58) (s : AccountNonce) :
    (m.setState ss58 s).getState other = if other = ss58 then s else m.getState other := by
  unfold getState setState
  dsimp only
  split_ifs with hsame
  · rw [hsame, Function.update_self, Option.getD_some]
  · rw [Function.update_of_ne hsame]

/-- Every record covers the writes of its account, and no nonce is below the
chain nonce read for it. -/
structure Sound (m : NonceManager) : Prop where
  covers : ∀ ss58, (m.getState ss58).Covers (m.inFlight ss58)
  floor : ∀ write ∈ m.handed, ∀ n, write.chainNonce = some n → n ≤ write.nonce

theorem start_sound : start.Sound where
  covers := fun _ => ⟨rfl, List.Pairwise.nil, fun _ hwrite => absurd hwrite List.not_mem_nil⟩
  floor := fun _ hwrite => absurd hwrite List.not_mem_nil

theorem enqueue_sound (hsound : m.Sound) (ss58 : Ss58) : (m.enqueue ss58).Sound := by
  refine ⟨fun other => ?_, hsound.floor⟩
  have hstate : (m.enqueue ss58).getState other =
      if other = ss58 then { m.getState ss58 with lock := some m.takes.length }
      else m.getState other := getState_setState m ss58 other _
  have hcovers := hsound.covers other
  rw [hstate]
  split_ifs with hsame
  · rw [hsame] at hcovers ⊢
    exact ⟨hcovers.count, hcovers.ascending, hcovers.above⟩
  · exact hcovers

theorem acquire_sound (hsound : m.Sound) {take : ℕ} (h : m.acquire take = some after) :
    after.Sound := by
  unfold acquire at h
  split at h
  · split_ifs at h
    rw [← Option.some.inj h]
    exact ⟨hsound.covers, hsound.floor⟩
  · cases h

theorem complete_sound (hsound : m.Sound) {take : ℕ} {chainNonce : Option ℕ}
    (h : m.complete take chainNonce = some after) : after.Sound := by
  unfold complete at h
  split at h
  next ss58 _ =>
    rw [← Option.some.inj h]
    refine ⟨fun other => ?_, ?_⟩
    · have hcovers := hsound.covers other
      change AccountNonce.Covers ((m.setState ss58 _).getState other) (List.filter _ (_ ++ [_]))
      rw [getState_setState, List.filter_append]
      by_cases hsame : other = ss58
      · subst hsame
        simpa [inFlight] using covers_take hcovers other chainNonce
      · simpa [inFlight, hsame, Ne.symm hsame] using hcovers
    · intro write hwrite n hread
      rcases List.mem_append.mp hwrite with hearlier | hlatest
      · exact hsound.floor write hearlier n hread
      · rw [List.mem_singleton.mp hlatest] at hread ⊢
        exact le_assign _ hread
  · cases h

theorem settle_sound (hsound : m.Sound) {write : Handed} (h : m.settle write = some after) :
    after.Sound := by
  unfold settle at h
  split_ifs at h with hwrite
  rw [← Option.some.inj h]
  have hmine : write ∈ m.inFlight write.ss58 := List.mem_filter.mpr ⟨hwrite, by simp⟩
  have hcovers := hsound.covers write.ss58
  -- an account with a write in flight has a record
  obtain ⟨s, hs⟩ : ∃ s, m.accounts write.ss58 = some s := by
    rw [← Option.isSome_iff_exists, ← Option.ne_none_iff_isSome]
    intro hnone
    obtain ⟨next, hnext, -⟩ := hcovers.above write hmine
    rw [getState, hnone] at hnext
    cases hnext
  have hstate : m.getState write.ss58 = s := by rw [getState, hs, Option.getD_some]
  rw [hstate] at hcovers
  have hsettled : m.settleNonce write.ss58 = m.setState write.ss58
      { s with
        inflight := s.inflight - 1
        next := if s.inflight - 1 = 0 then none else s.next } := by
    rw [settleNonce, hs]
  refine ⟨fun other => ?_, ?_⟩
  · change AccountNonce.Covers ((m.settleNonce write.ss58).getState other)
      ((m.outstanding.erase write).filter _)
    rw [hsettled, getState_setState, ← List.erase_filter]
    by_cases hsame : other = write.ss58
    · rw [hsame, if_pos rfl]
      exact covers_settle hcovers hmine
    · rw [if_neg hsame, List.erase_of_not_mem]
      · exact hsound.covers other
      · rw [List.mem_filter]
        rintro ⟨-, hother⟩
        exact hsame (of_decide_eq_true hother).symm
  · change ∀ write' ∈ (m.settleNonce write.ss58).handed, _
    rw [hsettled]
    exact hsound.floor

theorem step_sound (hsound : m.Sound) {event : NonceEvent} (h : m.step event = some after) :
    after.Sound := by
  cases event with
  | call ss58 =>
    rw [← Option.some.inj h]
    exact enqueue_sound hsound ss58
  | locked take => exact acquire_sound hsound h
  | read take chainNonce => exact complete_sound hsound h
  | settled write => exact settle_sound hsound h

end NonceManager

/-- However takes, reads and settles interleave, the nonces of an account's
writes in flight increase in the order their takes completed, and no nonce is
below the chain nonce its take read. -/
theorem inFlight_nonces_distinct (events : List NonceEvent) (m : NonceManager)
    (hrun : NonceManager.run events = some m) (ss58 : Ss58) :
    ((m.inFlight ss58).map Handed.nonce).Pairwise (· < ·) ∧
      ((m.inFlight ss58).map Handed.nonce).Nodup ∧
      ∀ write ∈ m.handed, ∀ n, write.chainNonce = some n → n ≤ write.nonce := by
  have hsound : m.Sound := foldlM_invariant NonceManager.Sound events
    (fun _ _ _ hstep hbefore => NonceManager.step_sound hbefore hstep) hrun
    NonceManager.start_sound
  have hascending := (hsound.covers ss58).ascending
  exact ⟨hascending, hascending.imp Nat.ne_of_lt, hsound.floor⟩

/-- Two writes are in flight when the first settles; a third take, queued before
that, then reads a stale nonce, and a read for another account fails. -/
def overlappingTakes : List NonceEvent :=
  [.call "alice", .call "alice", .locked 0, .read 0 (some 7), .locked 1, .read 1 (some 7),
    .call "alice", .call "bob", .settled ⟨"alice", some 7, 7⟩, .locked 2, .locked 3,
    .read 3 none, .read 2 (some 7)]

theorem inFlight_nonces_distinct_overlapping :
    ∃ m, NonceManager.run overlappingTakes = some m ∧
      (m.inFlight "alice").map Handed.nonce = [8, 9] ∧
      ((m.inFlight "alice").map Handed.nonce).Pairwise (· < ·) ∧
      ((m.inFlight "alice").map Handed.nonce).Nodup ∧
      ∀ write ∈ m.handed, ∀ n, write.chainNonce = some n → n ≤ write.nonce :=
  ⟨_, rfl, by decide +kernel, inFlight_nonces_distinct overlappingTakes _ rfl "alice"⟩

end CognoChain
