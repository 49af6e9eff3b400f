import CognoChain.Ledger.Coverage

/-!
# How long an account waits for its window

Scan windows follow each other around the rotation, and between two of them
accounts join at the tail or leave.  Counted on the largest size the rotation
reaches, an account that a window misses is a whole budget closer to the next
one, unless somebody left in between.
-/

namespace CognoChain

open Substrate SlotTable

/-- What can happen to the rotation between two windows. -/
inductive RotationCall
  | join (account : AccountId)
  | leave (account : AccountId)
deriving DecidableEq

def divCeil (n d : ℕ) : ℕ := (n + d - 1) / d

namespace GateStore

def turn (g : GateStore) : RotationCall → GateStore
  | .join account => g.joinRotation account
  | .leave account => g.leaveRotation account

def turns (g : GateStore) (calls : List RotationCall) : GateStore := calls.foldl turn g

def rotations : GateStore → List RotationCall → List GateStore
  | g, [] => [g]
  | g, call :: calls => g :: (g.turn call).rotations calls

def someoneLeaves : GateStore → List RotationCall → Bool
  | _, [] => false
  | g, .join account :: calls => (g.joinRotation account).someoneLeaves calls
  | g, .leave account :: calls =>
      g.scanSlotOf.contains account || (g.leaveRotation account).someoneLeaves calls

def scanWindows (budget : ℕ) :
    GateStore → ℕ → List (List RotationCall) → List (List AccountId)
  | g, cursor, [] => [g.scanWindow cursor budget]
  | g, cursor, gap :: gaps =>
      g.scanWindow cursor budget ::
        scanWindows budget (g.turns gap) (g.nextScanCursor cursor budget) gaps

def leavingGaps : GateStore → List (List RotationCall) → ℕ
  | _, [] => 0
  | g, gap :: gaps => (g.someoneLeaves gap).toNat + (g.turns gap).leavingGaps gaps

def largestRotation (g : GateStore) (gaps : List (List RotationCall)) : ℕ :=
  ((g.rotations gaps.flatten).map scanSlotCount).foldr max 0

/-! ## Gaps -/

section Gap

variable {g now : GateStore} {account : AccountId} {calls later : List RotationCall} {slot : ℕ}

theorem turn_rotation_dense (hdense : g.rotation.Dense) (hroom : g.scanSlotCount < u64Max)
    (call : RotationCall) : (g.turn call).rotation.Dense := by
  cases call with
  | join account =>
    simp only [turn, joinRotation_rotation]
    exact hdense.join hroom account
  | leave account =>
    simp only [turn, leaveRotation_rotation]
    exact hdense.leave account

theorem self_mem_rotations (calls : List RotationCall) : g ∈ g.rotations calls := by
  cases calls <;> simp [rotations]

theorem turns_dense (hdense : g.rotation.Dense)
    (hroom : ∀ now ∈ g.rotations calls, now.scanSlotCount < u64Max) :
    (g.turns calls).rotation.Dense := by
  induction calls generalizing g with
  | nil => exact hdense
  | cons call calls ih =>
    have hnow : g.scanSlotCount < u64Max := hroom g (self_mem_rotations _)
    apply ih (turn_rotation_dense hdense hnow call)
    intro now hmem
    exact hroom now (List.mem_cons_of_mem _ hmem)

theorem mem_rotations_right (hmem : now ∈ (g.turns calls).rotations later) :
    now ∈ g.rotations (calls ++ later) := by
  induction calls generalizing g with
  | nil => exact hmem
  | cons call calls ih => exact List.mem_cons_of_mem _ (ih hmem)

theorem mem_rotations_left (hmem : now ∈ g.rotations calls) :
    now ∈ g.rotations (calls ++ later) := by
  induction calls generalizing g with
  | nil =>
    rw [rotations, List.mem_singleton] at hmem
    rw [hmem]
    exact self_mem_rotations _
  | cons call calls ih =>
    rcases List.mem_cons.mp hmem with rfl | hmem
    · exact self_mem_rotations _
    · exact List.mem_cons_of_mem _ (ih hmem)

theorem turns_of_no_leave (hkeeps : g.someoneLeaves calls = false)
    (hroom : ∀ now ∈ g.rotations calls, now.scanSlotCount < u64Max)
    (hslot : g.scanSlotOf.get account = some slot) :
    (g.turns calls).scanSlotOf.get account = some slot ∧
      g.scanSlotCount ≤ (g.turns calls).scanSlotCount := by
  induction calls generalizing g with
  | nil => exact ⟨hslot, le_rfl⟩
  | cons call calls ih =>
    have hnow : g.scanSlotCount < u64Max := hroom g (self_mem_rotations _)
    have hlater : ∀ now ∈ (g.turn call).rotations calls, now.scanSlotCount < u64Max :=
      fun now hmem => hroom now (List.mem_cons_of_mem _ hmem)
    cases call with
    | join other =>
      have hkept : (g.joinRotation other).scanSlotOf.get account = some slot := by
        have hjoined : (g.joinRotation other).rotation.slotOf.get account = some slot := by
          rw [joinRotation_rotation]
          exact slotOf_join hslot other
        exact hjoined
      have hgrown : g.scanSlotCount ≤ (g.joinRotation other).scanSlotCount := by
        unfold joinRotation
        split_ifs
        · exact le_rfl
        · show g.scanSlotCount ≤ satAdd u64Max g.scanSlotCount 1
          rw [satAdd_succ_of_lt hnow]
          omega
      obtain ⟨hget, hcount⟩ := ih hkeeps hlater hkept
      exact ⟨hget, hgrown.trans hcount⟩
    | leave other =>
      simp only [someoneLeaves, Bool.or_eq_false_iff] at hkeeps
      have hsame : g.leaveRotation other = g := by
        simp only [leaveRotation, StorageMap.contains_eq_false_iff.mp hkeeps.1]
      have hkept : (g.leaveRotation other).scanSlotOf.get account = some slot := by rwa [hsame]
      obtain ⟨hget, hcount⟩ := ih hkeeps.2 hlater hkept
      exact ⟨hget, (congrArg scanSlotCount hsame).symm.le.trans hcount⟩

end Gap

/-! ## Windows -/

section Windows

variable {g : GateStore} {account : AccountId} {gaps : List (List RotationCall)}
  {cursor budget slot size : ℕ}

theorem length_scanWindows : (scanWindows budget g cursor gaps).length = gaps.length + 1 := by
  induction gaps generalizing g cursor with
  | nil => rfl
  | cons gap gaps ih => simp [scanWindows, ih]

/-- The account is enrolled, and the rotation no larger than `size`, all along
the run. -/
structure Waits (size : ℕ) (account : AccountId) (g : GateStore)
    (gaps : List (List RotationCall)) : Prop where
  dense : g.rotation.Dense
  bounded : ∀ now ∈ g.rotations gaps.flatten, now.scanSlotCount ≤ size
  enrolled : ∀ now ∈ g.rotations gaps.flatten, now.scanSlotOf.contains account

theorem Waits.tail {gap : List RotationCall} (hwidth : size < u64Max)
    (hwaits : Waits size account g (gap :: gaps)) :
    Waits size account (g.turns gap) gaps := by
  constructor
  · apply turns_dense hwaits.dense
    intro now hmem
    exact (hwaits.bounded now (mem_rotations_left hmem)).trans_lt hwidth
  · exact fun now hmem => hwaits.bounded now (mem_rotations_right hmem)
  · exact fun now hmem => hwaits.enrolled now (mem_rotations_right hmem)

theorem Waits.lag_lt (hwaits : Waits size account g gaps) : ∃ slot,
    g.scanSlotOf.get account = some slot ∧
      ∀ cursor, lag size (cursor % g.scanSlotCount) slot < size := by
  obtain ⟨slot, hslot⟩ :=
    Option.isSome_iff_exists.mp (hwaits.enrolled g (self_mem_rotations _))
  have hlt := hwaits.dense.bounded hslot
  have hle := hwaits.bounded g (self_mem_rotations _)
  exact ⟨slot, hslot, fun cursor => SlotTable.lag_lt
    ((Nat.mod_lt _ (Nat.zero_lt_of_lt hlt)).trans_le hle) (hlt.trans_le hle)⟩

/-- Windows that miss the account use up its distance, and each gap somebody
leaves in gives back one round at most. -/
theorem missed_le (hbudget : 0 < budget) (hwidth : size + budget ≤ u64Max)
    (hwaits : Waits size account g gaps)
    (hslot : g.scanSlotOf.get account = some slot) {k : ℕ} (hk : k ≤ gaps.length + 1)
    (hmissed : ∀ window ∈ (scanWindows budget g cursor gaps).take k, account ∉ window) :
    k * budget ≤ lag size (cursor % g.scanSlotCount) slot +
      g.leavingGaps gaps * (size - 1) := by
  induction k generalizing g cursor slot gaps with
  | zero => omega
  | succ k ih =>
    have hcount : g.scanSlotCount ≤ size := hwaits.bounded g (self_mem_rotations _)
    have hfits : g.scanSlotCount + budget ≤ u64Max := by omega
    have hwindow : account ∉ g.scanWindow cursor budget :=
      hmissed _ (by cases gaps <;> simp [scanWindows])
    have hfar : budget ≤ lag size (cursor % g.scanSlotCount) slot :=
      le_lag_of_missed hwaits.dense hslot hfits hcount hwindow
    rw [Nat.succ_mul]
    cases gaps with
    | nil =>
      obtain rfl : k = 0 := by simpa using hk
      omega
    | cons gap gaps =>
      have hwaits' : Waits size account (g.turns gap) gaps := hwaits.tail (by omega)
      obtain ⟨slot', hslot', hring⟩ := hwaits'.lag_lt
      have hrest : ∀ window ∈ (scanWindows budget (g.turns gap)
          (g.nextScanCursor cursor budget) gaps).take k, account ∉ window :=
        fun window hmem => hmissed window (by simp [scanWindows, hmem])
      have hlater := ih hwaits' hslot' (by simpa using hk) hrest
      rw [leavingGaps]
      cases hleaves : g.someoneLeaves gap with
      | false =>
        have hroom : ∀ now ∈ g.rotations gap, now.scanSlotCount < u64Max := by
          intro now hmem
          have hle := hwaits.bounded now (mem_rotations_left hmem)
          omega
        obtain ⟨hkept, hgrown⟩ := turns_of_no_leave hleaves hroom hslot
        obtain rfl : slot' = slot := Option.some.inj (hslot'.symm.trans hkept)
        have hcloser : lag size
            (g.nextScanCursor cursor budget % (g.turns gap).scanSlotCount) slot' + budget ≤
              lag size (cursor % g.scanSlotCount) slot' :=
          lag_advance hwaits.dense hslot hfits hgrown
            (hwaits'.bounded _ (self_mem_rotations _)) hwindow
        simp only [Bool.toNat_false, Nat.zero_add]
        omega
      | true =>
        have hround := hring (g.nextScanCursor cursor budget)
        rw [Bool.toNat_true, Nat.add_mul, Nat.one_mul]
        omega

theorem scanWindows_drop {skip : ℕ} (hskip : skip ≤ gaps.length) :
    ∃ g' cursor', (scanWindows budget g cursor gaps).drop skip =
        scanWindows budget g' cursor' (gaps.drop skip) ∧
      g'.leavingGaps (gaps.drop skip) ≤ g.leavingGaps gaps ∧
      ∀ size account, size < u64Max → Waits size account g gaps →
        Waits size account g' (gaps.drop skip) := by
  induction skip generalizing g cursor gaps with
  | zero => exact ⟨g, cursor, rfl, le_rfl, fun _ _ _ hwaits => hwaits⟩
  | succ skip ih =>
    cases gaps with
    | nil => simp at hskip
    | cons gap gaps =>
      have hskip' : skip ≤ gaps.length := by simpa using hskip
      obtain ⟨g', cursor', hdrop, hleaving, hkeeps⟩ := ih (g := g.turns gap) hskip'
      refine ⟨g', cursor', hdrop, ?_, ?_⟩
      · exact hleaving.trans (Nat.le_add_left _ _)
      · intro size account hsize hwaits
        exact hkeeps size account hsize (hwaits.tail hsize)

theorem le_divCeil_mul (n : ℕ) {d : ℕ} (hd : 0 < d) : n ≤ divCeil n d * d := by
  have hdiv := Nat.lt_div_mul_add hd (a := n + d - 1)
  unfold divCeil
  omega

theorem exists_window (hbudget : 0 < budget) (hwidth : size + budget ≤ u64Max)
    (hwaits : Waits size account g gaps) {skip : ℕ}
    (hlong : skip + (g.leavingGaps gaps + 1) * divCeil size budget ≤
      (scanWindows budget g cursor gaps).length) :
    ∃ window ∈ ((scanWindows budget g cursor gaps).drop skip).take
      ((g.leavingGaps gaps + 1) * divCeil size budget), account ∈ window := by
  by_contra hnone
  simp only [not_exists, not_and] at hnone
  set enough := (g.leavingGaps gaps + 1) * divCeil size budget with henough
  have hceil : size ≤ divCeil size budget * budget := le_divCeil_mul size hbudget
  have hsize : 0 < size := by
    obtain ⟨first, -, hfirst⟩ := hwaits.lag_lt
    exact Nat.zero_lt_of_lt (hfirst 0)
  have hpos : 0 < enough := by
    have hrounds : 0 < divCeil size budget := by
      by_contra hzero
      rw [Nat.eq_zero_of_not_pos hzero, Nat.zero_mul] at hceil
      omega
    positivity
  rw [length_scanWindows] at hlong
  -- the windows skipped are those of an earlier part of the run
  obtain ⟨g', cursor', hdrop, hleaving, hkeeps⟩ :=
    scanWindows_drop (g := g) (show skip ≤ gaps.length by omega)
  rw [hdrop] at hnone
  have hwaits' := hkeeps size account (by omega) hwaits
  obtain ⟨slot, hslot, hring⟩ := hwaits'.lag_lt
  have hmissed := missed_le hbudget hwidth hwaits' hslot (k := enough)
    (by rw [List.length_drop]; omega) hnone
  have hround : lag size (cursor' % g'.scanSlotCount) slot ≤ size - 1 := Nat.le_pred_of_lt (hring _)
  have hover : (g.leavingGaps gaps + 1) * size ≤ (g.leavingGaps gaps + 1) * (size - 1) :=
    calc (g.leavingGaps gaps + 1) * size
        ≤ (g.leavingGaps gaps + 1) * (divCeil size budget * budget) :=
          Nat.mul_le_mul_left _ hceil
      _ = enough * budget := by rw [henough, Nat.mul_assoc]
      _ ≤ (size - 1) + g'.leavingGaps (gaps.drop skip) * (size - 1) :=
          hmissed.trans (Nat.add_le_add_right hround _)
      _ ≤ (size - 1) + g.leavingGaps gaps * (size - 1) :=
          Nat.add_le_add_left (Nat.mul_le_mul_right _ hleaving) _
      _ = (g.leavingGaps gaps + 1) * (size - 1) := by ring
  have hle := Nat.le_of_mul_le_mul_left hover (Nat.succ_pos _)
  omega

theorem le_largestRotation {now : GateStore} (hmem : now ∈ g.rotations gaps.flatten) :
    now.scanSlotCount ≤ g.largestRotation gaps := by
  have hle : ∀ sizes : List ℕ, ∀ size ∈ sizes, size ≤ sizes.foldr max 0 := by
    intro sizes
    induction sizes with
    | nil => simp
    | cons head sizes ih => simpa using fun size hsize => Or.inr (ih size hsize)
  exact hle _ _ (List.mem_map_of_mem hmem)

end Windows

end GateStore

/-- A window holds the accounts whose slots it covers, each once.  An account
that stays enrolled is in one of any `(B + 1) * ⌈N / b⌉` consecutive windows,
where `N` is the largest size of the rotation and `B` counts the gaps in which
somebody left; nothing may overflow. -/
theorem scanWindow_covers (g : GateStore) (cursor budget : ℕ) (hdense : g.rotation.Dense)
    (hbudget : 0 < budget) :
    (g.scanSlotCount + budget ≤ u64Max →
      (∀ account, account ∈ g.scanWindow cursor budget ↔
        ∃ slot, g.scanSlotOf.get account = some slot ∧
          g.slotInWindow slot cursor budget = true) ∧
      (g.scanWindow cursor budget).Nodup) ∧
    (∀ gaps account, g.largestRotation gaps + budget ≤ u64Max →
      (∀ now ∈ g.rotations gaps.flatten, now.scanSlotOf.contains account) →
      ∀ skip, skip + (g.leavingGaps gaps + 1) * divCeil (g.largestRotation gaps) budget ≤
          (GateStore.scanWindows budget g cursor gaps).length →
        ∃ window ∈ ((GateStore.scanWindows budget g cursor gaps).drop skip).take
          ((g.leavingGaps gaps + 1) * divCeil (g.largestRotation gaps) budget),
          account ∈ window) ∧
    (∀ gaps account, g.largestRotation gaps + budget ≤ u64Max →
      (∀ now ∈ g.rotations gaps.flatten, now.scanSlotOf.contains account) →
      g.leavingGaps gaps = 0 →
      ∀ skip, skip + divCeil (g.largestRotation gaps) budget ≤
          (GateStore.scanWindows budget g cursor gaps).length →
        ∃ window ∈ ((GateStore.scanWindows budget g cursor gaps).drop skip).take
          (divCeil (g.largestRotation gaps) budget), account ∈ window) := by
  have hcovers : ∀ gaps account, g.largestRotation gaps + budget ≤ u64Max →
      (∀ now ∈ g.rotations gaps.flatten, now.scanSlotOf.contains account) →
      ∀ skip, skip + (g.leavingGaps gaps + 1) * divCeil (g.largestRotation gaps) budget ≤
          (GateStore.scanWindows budget g cursor gaps).length →
        ∃ window ∈ ((GateStore.scanWindows budget g cursor gaps).drop skip).take
          ((g.leavingGaps gaps + 1) * divCeil (g.largestRotation gaps) budget),
          account ∈ window := by
    intro gaps account hwidth henrolled skip hlong
    exact GateStore.exists_window hbudget hwidth
      ⟨hdense, fun _ hmem => GateStore.le_largestRotation hmem, henrolled⟩ hlong
  refine ⟨?_, hcovers, ?_⟩
  · intro hwidth
    constructor
    · intro account
      exact mem_window_iff_covers hdense hwidth
    · exact window_nodup hdense hwidth
  · intro gaps account hwidth henrolled hkeeps skip hlong
    have hcovered := hcovers gaps account hwidth henrolled skip
    rw [hkeeps, Nat.zero_add, Nat.one_mul] at hcovered
    exact hcovered hlong

def fiveEnrolled : GateStore :=
  GateStore.turns {} [.join ⟨1⟩, .join ⟨2⟩, .join ⟨3⟩, .join ⟨4⟩, .join ⟨5⟩]

def leaveThenJoin : List (List RotationCall) :=
  [[.leave ⟨3⟩], [.join ⟨6⟩], [], [], []]

theorem scanWindow_covers_fiveEnrolled :
    fiveEnrolled.leavingGaps leaveThenJoin = 1 ∧
      (fiveEnrolled.scanWindow 4 2).Nodup ∧
      ∃ window ∈ GateStore.scanWindows 2 fiveEnrolled 4 leaveThenJoin, ⟨5⟩ ∈ window := by
  have hdense : fiveEnrolled.rotation.Dense :=
    GateStore.turns_dense SlotTable.Dense.empty (by decide +kernel)
  obtain ⟨hwindow, hcovers, -⟩ := scanWindow_covers fiveEnrolled 4 2 hdense (by decide)
  refine ⟨by decide +kernel, (hwindow (by decide +kernel)).2, ?_⟩
  obtain ⟨window, hmem, haccount⟩ :=
    hcovers leaveThenJoin ⟨5⟩ (by decide +kernel) (by decide +kernel) 0 (by decide +kernel)
  exact ⟨window, List.mem_of_mem_drop (List.mem_of_mem_take hmem), haccount⟩

/-! ## At the end of the number range -/

def numbered (n : ℕ) : GateStore := GateStore.turns {} ((List.range n).map (fun i => .join ⟨i⟩))

theorem numbered_succ (n : ℕ) : numbered (n + 1) = (numbered n).joinRotation ⟨n⟩ := by
  simp [numbered, GateStore.turns, List.range_succ, GateStore.turn]

theorem numbered_rotation {n : ℕ} (hn : n ≤ u64Max) :
    (numbered n).rotation.Dense ∧ (numbered n).scanSlotCount = n ∧
      (∀ i, i < n → (numbered n).accountAtScanSlot.get i = some ⟨i⟩) ∧
      ∀ i, n ≤ i → (numbered n).scanSlotOf.get ⟨i⟩ = none := by
  induction n with
  | zero => exact ⟨.empty, rfl, fun _ hi => absurd hi (Nat.not_lt_zero _), fun _ _ => rfl⟩
  | succ n ih =>
    obtain ⟨hdense, hcount, hmembers, hfree⟩ := ih (by omega)
    have hnew : (numbered n).scanSlotOf.contains ⟨n⟩ = false :=
      StorageMap.contains_eq_false_iff.mpr (hfree n le_rfl)
    have hjoined : (numbered n).joinRotation ⟨n⟩ = { numbered n with
        accountAtScanSlot := (numbered n).accountAtScanSlot.insert n ⟨n⟩
        scanSlotOf := (numbered n).scanSlotOf.insert ⟨n⟩ n
        scanSlotCount := n + 1 } := by
      rw [GateStore.joinRotation, hnew, hcount, satAdd_succ_of_lt (by omega)]
      rfl
    rw [numbered_succ]
    refine ⟨?_, by rw [hjoined], ?_, ?_⟩
    · rw [GateStore.joinRotation_rotation]
      refine hdense.join ?_ _
      show (numbered n).scanSlotCount < u64Max
      omega
    · intro i hi
      rw [hjoined]
      by_cases hlast : i = n
      · simp [hlast]
      · simp only [StorageMap.get_insert_of_ne _ _ hlast]
        exact hmembers i (by omega)
    · intro i hi
      have hne : (⟨i⟩ : AccountId) ≠ ⟨n⟩ := by
        intro hsame
        have hraw : i = n := congrArg AccountId.raw hsame
        omega
      rw [hjoined]
      simp only [StorageMap.get_insert_of_ne _ _ hne]
      exact hfree i (by omega)

theorem GateStore.scanWindow_full {g : GateStore} {first last : AccountId}
    (hcount : g.scanSlotCount = u64Max) (hfirst : g.accountAtScanSlot.get 0 = some first)
    (hlast : g.accountAtScanSlot.get (u64Max - 1) = some last) :
    g.scanWindow (u64Max - 1) 3 = [last, first, first] := by
  have hstart : (u64Max - 1) % u64Max = u64Max - 1 := Nat.mod_eq_of_lt (by decide)
  have hrange : List.range (min 3 u64Max) = [0, 1, 2] := by decide
  have hzero : satAdd u64Max (u64Max - 1) 0 = u64Max - 1 := by decide
  have hone : satAdd u64Max (u64Max - 1) 1 = u64Max := by decide
  have htwo : satAdd u64Max (u64Max - 1) 2 = u64Max := by decide
  have hinside : ¬ u64Max ≤ u64Max - 1 := by decide
  unfold GateStore.scanWindow
  rw [hcount, if_neg (by decide)]
  simp only [hstart, hrange, List.filterMap_cons, List.filterMap_nil, hzero, hone, htwo, hinside,
    if_false, le_refl, if_true, Nat.sub_self, hfirst, hlast]

theorem scanWindow_saturates :
    (numbered u64Max).rotation.Dense ∧ (numbered u64Max).scanSlotCount = u64Max ∧
      (numbered u64Max).scanWindow (u64Max - 1) 3 = [⟨u64Max - 1⟩, ⟨0⟩, ⟨0⟩] := by
  obtain ⟨hdense, hcount, hmembers, -⟩ := numbered_rotation le_rfl
  exact ⟨hdense, hcount, GateStore.scanWindow_full hcount (hmembers 0 (by decide))
    (hmembers (u64Max - 1) (by decide))⟩

end CognoChain
