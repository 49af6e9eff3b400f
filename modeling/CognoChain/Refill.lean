import CognoChain.Meter
import Mathlib.Algebra.Order.Floor.Div

/-!
# How long an empty bucket takes to fill

The rate of a bucket is derived from its ceiling, so stake sets how large a
bucket is and not how many blocks it takes to fill: the window is the capacity
ratio divided by the regeneration constant, rounded up.
-/

namespace CognoChain

open Substrate Config

def refillWindow (cfg : Config) : ℕ := cfg.capRatio ⌈/⌉ cfg.regenPerBlock

structure EmptyBucket (cfg : Config) (s : Runtime) (who : AccountId) : Prop where
  stamped : ∃ row, s.capacity.get who = some row ∧ row.lastBlock ≤ s.blockNumber
  empty : currentCapacity cfg s who s.blockNumber = 0

/-- Nothing has touched the account's bucket or weight for `blocks` blocks. -/
structure Idle (who : AccountId) (blocks : ℕ) (s s' : Runtime) : Prop where
  blockNumber : s'.blockNumber = s.blockNumber + blocks
  weight : s'.weightOf who = s.weightOf who
  row : s'.capacity.get who = s.capacity.get who

def Runtime.reading (cfg : Config) (s : Runtime) (who : AccountId) : ℕ :=
  currentCapacity cfg s who s.blockNumber

def Runtime.bucketOf (cfg : Config) (s : Runtime) (who : AccountId) : ℕ :=
  capacityCeiling cfg (s.weightOf who)

section Rate

variable {cfg : Config} {weight : ℕ}

theorem capacityCeiling_mono (cfg : Config) : Monotone (capacityCeiling cfg) :=
  fun _ _ hle => min_le_min_right cfg.ceiling (satMul_mono hle)

theorem regenPerBlock_mono (cfg : Config) : Monotone (regenPerBlock cfg) := by
  intro weight weight' hle
  unfold regenPerBlock
  split_ifs
  · exact le_rfl
  · exact Nat.div_le_div_right (satMul_mono (capacityCeiling_mono cfg hle))

theorem regenPerBlock_eq_div
    (hfits : capacityCeiling cfg weight * cfg.regenPerBlock ≤ u128Max) :
    regenPerBlock cfg weight =
      capacityCeiling cfg weight * cfg.regenPerBlock / cfg.capRatio := by
  unfold regenPerBlock satMul
  rw [min_eq_left hfits]
  split_ifs with hzero
  · rw [hzero, Nat.div_zero]
  · rfl

theorem capacityCeiling_below (hceiling : cfg.ceiling ≤ u128Max)
    (hknee : weight * cfg.capRatio ≤ cfg.ceiling) :
    capacityCeiling cfg weight = weight * cfg.capRatio := by
  unfold capacityCeiling satMul
  rw [min_eq_left (hknee.trans hceiling), min_eq_left hknee]

theorem capacityCeiling_above (hceiling : cfg.ceiling ≤ u128Max)
    (hknee : cfg.ceiling ≤ weight * cfg.capRatio) :
    capacityCeiling cfg weight = cfg.ceiling := by
  unfold capacityCeiling satMul
  exact min_eq_right (le_min hknee hceiling)

theorem regenPerBlock_below (hceiling : cfg.ceiling ≤ u128Max) (hratio : 1 ≤ cfg.capRatio)
    (hknee : weight * cfg.capRatio ≤ cfg.ceiling)
    (hfits : capacityCeiling cfg weight * cfg.regenPerBlock ≤ u128Max) :
    regenPerBlock cfg weight = weight * cfg.regenPerBlock := by
  rw [regenPerBlock_eq_div hfits, capacityCeiling_below hceiling hknee, Nat.mul_right_comm]
  exact Nat.mul_div_cancel _ hratio

end Rate

section Window

variable {cfg : Config} {s s' : Runtime} {who : AccountId} {blocks : ℕ}

theorem Idle.nextBlock (hidle : Idle who blocks s s') (unixSecs : ℕ) :
    Idle who (blocks + 1) s (s'.nextBlock cfg unixSecs) := by
  let ticked : Runtime :=
    { s' with blockNumber := s'.blockNumber + 1, unixSecs := unixSecs, events := [] }
  have hsame : SameRow who ticked (ticked.observerOnInitialize cfg) :=
    .of_writesFrontier Runtime.observerOnInitialize_writes
  exact
    { blockNumber := hsame.blockNumber.trans (congrArg (· + 1) hidle.blockNumber)
      weight := hsame.weight.trans hidle.weight
      row := hsame.row.trans hidle.row }

theorem idle_run_nextBlock (s : Runtime) (who : AccountId) (unixSecs blocks : ℕ) :
    Idle who blocks s (s.run cfg (List.replicate blocks (.nextBlock unixSecs))) := by
  induction blocks with
  | zero => exact ⟨rfl, rfl, rfl⟩
  | succ blocks ih =>
    rw [List.replicate_succ', Runtime.run, run_concat]
    exact ih.nextBlock unixSecs

theorem EmptyBucket.reading_eq (hempty : EmptyBucket cfg s who) (hidle : Idle who blocks s s') :
    s'.reading cfg who =
      min (s.bucketOf cfg who) (blocks * regenPerBlock cfg (s.weightOf who)) := by
  obtain ⟨row, hrow, hlast⟩ := hempty.stamped
  have hread : ∀ now, currentCapacity cfg s who now =
      min (s.bucketOf cfg who)
        (row.capLast + regenPerBlock cfg (s.weightOf who) * (now - row.lastBlock)) := by
    intro now
    rw [currentCapacity, hrow]
    exact accrue_eq _ _ _
  have hlater : s'.reading cfg who = currentCapacity cfg s who (s.blockNumber + blocks) := by
    unfold Runtime.reading currentCapacity
    rw [hidle.row, hidle.weight, hidle.blockNumber]
  have hzero := hempty.empty
  rw [hread] at hzero
  rw [hlater, hread]
  rcases Nat.min_eq_zero_iff.mp hzero with hbucket | hcharge
  · rw [hbucket, Nat.zero_min, Nat.zero_min]
  · -- an empty bucket has banked nothing, so only the blocks to come count
    have hsplit : s.blockNumber + blocks - row.lastBlock =
        (s.blockNumber - row.lastBlock) + blocks := by omega
    rw [hsplit, Nat.mul_add, ← Nat.add_assoc, hcharge, Nat.zero_add, Nat.mul_comm blocks]

theorem min_refill_iff {k ratio rate : ℕ} (hrate : 1 ≤ rate) (hk : 0 < k) :
    min (k * ratio) (blocks * (k * rate)) = k * ratio ↔ ratio ⌈/⌉ rate ≤ blocks := by
  have hassoc : blocks * (k * rate) = k * (rate * blocks) := by ring
  rw [min_eq_left_iff, ceilDiv_le_iff_le_mul (show 0 < rate from hrate), hassoc]
  exact Nat.mul_le_mul_left_iff hk

theorem EmptyBucket.full_iff (hempty : EmptyBucket cfg s who) (hidle : Idle who blocks s s')
    (hregen : 1 ≤ cfg.regenPerBlock) (hdvd : cfg.capRatio ∣ s.bucketOf cfg who)
    (hpos : 0 < s.bucketOf cfg who)
    (hfits : s.bucketOf cfg who * cfg.regenPerBlock ≤ u128Max) :
    s'.reading cfg who = s.bucketOf cfg who ↔ refillWindow cfg ≤ blocks := by
  have hrate := regenPerBlock_eq_div hfits
  obtain ⟨k, hk⟩ := hdvd
  rw [Nat.mul_comm] at hk
  have hratio : 0 < cfg.capRatio := Nat.pos_of_mul_pos_left (hk ▸ hpos)
  have hcancel : s.bucketOf cfg who * cfg.regenPerBlock / cfg.capRatio =
      k * cfg.regenPerBlock := by
    rw [hk, Nat.mul_right_comm]
    exact Nat.mul_div_cancel _ hratio
  rw [hempty.reading_eq hidle, hrate]
  change min (s.bucketOf cfg who)
    (blocks * (s.bucketOf cfg who * cfg.regenPerBlock / cfg.capRatio)) = _ ↔ _
  rw [hcancel, hk]
  exact min_refill_iff hregen (Nat.pos_of_mul_pos_right (hk ▸ hpos))

end Window

/-- Every bucket whose size is a positive multiple of the ratio fills in the
same number of blocks, whatever the stake behind it; bucket and rate grow with
the stake, and in general an idle bucket gains the floored rate every block. -/
theorem refillWindow_stakeIndependent (cfg : Config) (hceiling : cfg.ceiling ≤ u128Max)
    (hratio : 1 ≤ cfg.capRatio) (hregen : 1 ≤ cfg.regenPerBlock) :
    (∀ s who, EmptyBucket cfg s who → cfg.capRatio ∣ s.bucketOf cfg who →
      0 < s.bucketOf cfg who → s.bucketOf cfg who * cfg.regenPerBlock ≤ u128Max →
        (∀ s', Idle who (refillWindow cfg) s s' → s'.reading cfg who = s.bucketOf cfg who) ∧
        ∀ blocks s', blocks < refillWindow cfg → Idle who blocks s s' →
          s'.reading cfg who < s.bucketOf cfg who) ∧
    (∀ weight, weight * cfg.capRatio ≤ cfg.ceiling →
      cfg.capRatio ∣ capacityCeiling cfg weight) ∧
    (cfg.capRatio ∣ cfg.ceiling → ∀ weight, cfg.ceiling ≤ weight * cfg.capRatio →
      cfg.capRatio ∣ capacityCeiling cfg weight) ∧
    Monotone (regenPerBlock cfg) ∧ Monotone (capacityCeiling cfg) ∧
    (∀ weight, weight * cfg.capRatio ≤ cfg.ceiling →
      capacityCeiling cfg weight * cfg.regenPerBlock ≤ u128Max →
        regenPerBlock cfg weight = weight * cfg.regenPerBlock) ∧
    ∀ s s' who blocks, EmptyBucket cfg s who → Idle who blocks s s' →
      s.bucketOf cfg who * cfg.regenPerBlock ≤ u128Max →
        s'.reading cfg who = min (s.bucketOf cfg who)
          (blocks * (s.bucketOf cfg who * cfg.regenPerBlock / cfg.capRatio)) := by
  refine ⟨?_, ?_, ?_, regenPerBlock_mono cfg, capacityCeiling_mono cfg, ?_, ?_⟩
  · intro s who hempty hdvd hpos hfits
    constructor
    · intro s' hidle
      exact (hempty.full_iff hidle hregen hdvd hpos hfits).mpr le_rfl
    · intro blocks s' hearly hidle
      have hle : s'.reading cfg who ≤ s.bucketOf cfg who := by
        rw [hempty.reading_eq hidle]
        exact min_le_left _ _
      apply lt_of_le_of_ne hle
      rw [ne_eq, hempty.full_iff hidle hregen hdvd hpos hfits]
      exact Nat.not_le.mpr hearly
  · intro weight hknee
    rw [capacityCeiling_below hceiling hknee]
    exact Nat.dvd_mul_left _ _
  · intro hdvd weight hknee
    rw [capacityCeiling_above hceiling hknee]
    exact hdvd
  · intro weight hknee hfits
    exact regenPerBlock_below hceiling hratio hknee hfits
  · intro s s' who blocks hempty hidle hfits
    rw [hempty.reading_eq hidle, regenPerBlock_eq_div hfits]
    rfl

def drainedSample (weight : ℕ) : Runtime :=
  { talkStake := { allowedStake := StorageMap.insert ∅ ⟨1⟩ weight }
    capacity := StorageMap.insert ∅ ⟨1⟩ ⟨0, 0⟩ }

def idledSample (weight blocks : ℕ) : Runtime :=
  (drainedSample weight).run toy (List.replicate blocks (.nextBlock 0))

theorem refillWindow_stakeIndependent_hundredAda :
    refillWindow toy = 3000 ∧
      (drainedSample 100000000).bucketOf toy ⟨1⟩ = 300000000000 ∧
      (idledSample 100000000 3000).reading toy ⟨1⟩ = 300000000000 ∧
      (idledSample 100000000 2999).reading toy ⟨1⟩ < 300000000000 := by
  have hwindow : refillWindow toy = 3000 := by decide +kernel
  have hbucket : (drainedSample 100000000).bucketOf toy ⟨1⟩ = 300000000000 := by
    decide +kernel
  have hempty : EmptyBucket toy (drainedSample 100000000) ⟨1⟩ :=
    ⟨⟨⟨0, 0⟩, rfl, le_rfl⟩, by decide +kernel⟩
  obtain ⟨hfull, hearly⟩ := (refillWindow_stakeIndependent toy (by decide +kernel)
    (by decide +kernel) (by decide +kernel)).1 _ _ hempty (by decide +kernel)
      (by decide +kernel) (by decide +kernel)
  rw [hbucket] at hfull hearly
  rw [hwindow] at hfull hearly
  exact ⟨hwindow, hbucket, hfull _ (idle_run_nextBlock _ _ _ _),
    hearly 2999 _ (by decide) (idle_run_nextBlock _ _ _ _)⟩

/-- Without stake the bucket has no size: it reads full at once. -/
theorem refill_zeroWeight :
    EmptyBucket toy (drainedSample 0) ⟨1⟩ ∧
      toy.capRatio ∣ (drainedSample 0).bucketOf toy ⟨1⟩ ∧
      0 < refillWindow toy ∧
      Idle ⟨1⟩ 0 (drainedSample 0) (drainedSample 0) ∧
      (drainedSample 0).reading toy ⟨1⟩ = (drainedSample 0).bucketOf toy ⟨1⟩ :=
  ⟨⟨⟨⟨0, 0⟩, rfl, le_rfl⟩, by decide +kernel⟩, by decide +kernel, by decide +kernel,
    ⟨rfl, rfl, rfl⟩, by decide +kernel⟩

end CognoChain
