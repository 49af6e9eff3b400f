import CognoChain.Ledger.Coverage
import CognoChain.Ledger.Registers
import CognoChain.Model.Backfill
import CognoChain.Substrate.Backfill

/-!
# A rotation that is still being filled

Until the backfill is through, the rotation holds the accounts bound since the
migration and those its walk has reached.  Binds, revokes and drains in any
order keep it dense, and keep everyone it does not hold yet ahead of the
cursor, as long as slot numbers last.
-/

namespace CognoChain

open Substrate StorageMap SlotTable

/-! ## What a walk does -/

namespace EnrolWalk

def table (w : EnrolWalk) : SlotTable AccountId :=
  ⟨w.gate.scanSlotOf, w.gate.accountAtScanSlot, w.slot⟩

/-- The walk enrolled everyone of `reached` and stopped before `rest`. -/
structure Reached (stop : EnrolWalk → Bool) (w : EnrolWalk) (reached rest : List AccountId)
    (after : EnrolWalk) : Prop where
  gate : after.gate = { w.gate with
    accountAtScanSlot := after.gate.accountAtScanSlot
    scanSlotOf := after.gate.scanSlotOf }
  table : after.table = w.table.joinAll u64Max reached
  lastKey : after.lastKey = reached.getLast?.or w.lastKey
  exhausted : after.exhausted = rest.isEmpty
  walked : after.walked ≤ w.walked + reached.length
  enrolled : after.enrolled ≤ w.enrolled + reached.length
  unmoved : after.enrolled = 0 → w.enrolled = 0 ∧ after.slot = w.slot
  stopped : rest ≠ [] →
    ∃ last, stop last = true ∧ last.walked = after.walked ∧ last.enrolled = after.enrolled

section

variable (w : EnrolWalk) (who : AccountId)

theorem visit_table :
    (w.visit who).table = w.table.join u64Max who := by
  unfold visit join table
  split_ifs <;> rfl

theorem visit_walked :
    (w.visit who).walked = satAdd u64Max w.walked 1 := by
  unfold visit
  split_ifs <;> rfl

theorem visit_lastKey :
    (w.visit who).lastKey = some who := by
  unfold visit
  split_ifs <;> rfl

theorem visit_exhausted :
    (w.visit who).exhausted = w.exhausted := by
  unfold visit
  split_ifs <;> rfl

theorem visit_gate :
    (w.visit who).gate = { w.gate with
      accountAtScanSlot := (w.visit who).gate.accountAtScanSlot
      scanSlotOf := (w.visit who).gate.scanSlotOf } := by
  unfold visit
  split_ifs <;> rfl

theorem visit_enrolled :
    (w.visit who).enrolled ≤ w.enrolled + 1 ∧
      ((w.visit who).enrolled = 0 → w.enrolled = 0 ∧ (w.visit who).slot = w.slot) := by
  unfold visit
  split_ifs
  · exact ⟨Nat.le_succ _, fun hzero => ⟨hzero, rfl⟩⟩
  · have hcount : satAdd u64Max w.enrolled 1 ≤ w.enrolled + 1 := Nat.min_le_left _ _
    have hpos : 0 < satAdd u64Max w.enrolled 1 := lt_min (Nat.succ_pos _) (by decide)
    exact ⟨hcount, fun hzero => absurd hzero hpos.ne'⟩

end

theorem visitAll_reached (stop : EnrolWalk → Bool) {w : EnrolWalk} (keys : List AccountId)
    (hfresh : w.exhausted = true) :
    ∃ reached rest, keys = reached ++ rest ∧
      Reached stop w reached rest (w.visitAll stop keys) := by
  induction keys generalizing w with
  | nil =>
    refine ⟨[], [], rfl, ?_⟩
    constructor <;> simp [visitAll, hfresh, joinAll]
  | cons who keys ih =>
    unfold visitAll
    split_ifs with hstop
    · refine ⟨[], who :: keys, rfl, ?_⟩
      constructor <;> simp [joinAll, table]
      exact ⟨w, hstop, rfl, rfl⟩
    · obtain ⟨reached, rest, hkeys, hreached⟩ := ih ((w.visit_exhausted who).trans hfresh)
      refine ⟨who :: reached, rest, by rw [hkeys]; rfl, ?_⟩
      obtain ⟨hcount, hzero⟩ := w.visit_enrolled who
      constructor
      · rw [hreached.gate, visit_gate]
      · rw [hreached.table, visit_table]
        rfl
      · rw [hreached.lastKey, visit_lastKey, List.getLast?_cons]
        cases reached.getLast? <;> rfl
      · exact hreached.exhausted
      · have hwalked := hreached.walked
        have hone : satAdd u64Max w.walked 1 ≤ w.walked + 1 := Nat.min_le_left _ _
        rw [visit_walked] at hwalked
        rw [List.length_cons]
        omega
      · have henrolled := hreached.enrolled
        rw [List.length_cons]
        omega
      · intro hnone
        obtain ⟨hbefore, hslot⟩ := hreached.unmoved hnone
        obtain ⟨hnone', hslot'⟩ := hzero hbefore
        exact ⟨hnone', hslot.trans hslot'⟩
      · exact hreached.stopped

theorem visitAll_walked_le {budget : ℕ} {w : EnrolWalk} (keys : List AccountId)
    (hw : w.walked ≤ budget) :
    (w.visitAll (fun now => budget ≤ now.walked) keys).walked ≤ budget := by
  induction keys generalizing w with
  | nil => exact hw
  | cons who keys ih =>
    unfold visitAll
    split_ifs with hstop
    · exact hw
    · apply ih
      have hlt : w.walked < budget := by simpa using hstop
      have hone : satAdd u64Max w.walked 1 ≤ w.walked + 1 := Nat.min_le_left _ _
      rw [visit_walked]
      omega

end EnrolWalk

theorem iterKeysFrom_pairwise (cfg : Config) (pkhOf : StorageMap AccountId IdentityHash)
    (key : Option AccountId) :
    (iterKeysFrom cfg pkhOf key).Pairwise (HashLt cfg.blake2) := by
  cases key with
  | none => exact List.Pairwise.nil
  | some last => exact walkFrom_pairwise (pkhOf.iterKeys_pairwise cfg.blake2) (some last)

theorem mem_of_mem_iterKeysFrom {cfg : Config} {pkhOf : StorageMap AccountId IdentityHash}
    {key : Option AccountId} {account : AccountId}
    (hmem : account ∈ iterKeysFrom cfg pkhOf key) : account ∈ pkhOf.keys := by
  cases key with
  | none => cases hmem
  | some last => exact mem_hashSort.mp (List.mem_of_mem_filter hmem)

namespace BackfillChain

variable {cfg : Config} {db : DbWeight} {s : BackfillChain} {remaining : Weight} {chain : Runtime}

/-! ## The drain -/

def unwalked (cfg : Config) (s : BackfillChain) : List AccountId :=
  match s.rotationBackfillCursor with
  | none => []
  | some key => iterKeysFrom cfg s.chain.gate.pkhOf key

/-- A drain that walks: the next accounts are enrolled, and the cursor moves to
the last of them or is cleared. -/
structure Drains (cfg : Config) (db : DbWeight) (budget : ℕ) (s : BackfillChain)
    (reached rest : List AccountId) (after : BackfillChain) (spent : Weight) : Prop where
  keys : s.unwalked cfg = reached ++ rest
  pkhOf : after.chain.gate.pkhOf = s.chain.gate.pkhOf
  rotation : after.chain.gate.rotation = s.chain.gate.rotation.joinAll u64Max reached
  cursor : after.rotationBackfillCursor =
    if rest.isEmpty then none else some reached.getLast?
  moved : rest ≠ [] → reached ≠ []
  spent : ∃ walked, walked ≤ budget ∧ spent =
    ((db.reads 1).saturatingAdd (db.writes 2)).saturatingAdd
      ((db.readsWrites 2 2).saturatingMul (max walked 1))

theorem drain_cases (cfg : Config) (db : DbWeight) (s : BackfillChain) (remaining : Weight) :
    s.drainRotationBackfill cfg db remaining = (s, db.reads 1) ∧
        (s.rotationBackfillCursor = none ∨ drainBudget db remaining = 0) ∨
      0 < drainBudget db remaining ∧ ∃ reached rest,
        Drains cfg db (drainBudget db remaining) s reached rest
          (s.drainRotationBackfill cfg db remaining).1
          (s.drainRotationBackfill cfg db remaining).2 := by
  unfold drainRotationBackfill
  cases hcursor : s.rotationBackfillCursor with
  | none => exact Or.inl ⟨rfl, Or.inl rfl⟩
  | some key =>
    dsimp only
    by_cases hbudget : drainBudget db remaining = 0
    · rw [if_pos hbudget]
      exact Or.inl ⟨rfl, Or.inr hbudget⟩
    rw [if_neg hbudget]
    right
    have hpos : 0 < drainBudget db remaining := Nat.pos_of_ne_zero hbudget
    refine ⟨hpos, ?_⟩
    generalize drainBudget db remaining = budget at hpos
    obtain ⟨reached, rest, hkeys, hreached⟩ :=
      EnrolWalk.visitAll_reached (fun now => decide (budget ≤ now.walked))
        (w := EnrolWalk.start s.chain.gate)
        (iterKeysFrom cfg s.chain.gate.pkhOf key) rfl
    have hwalked := EnrolWalk.visitAll_walked_le (w := EnrolWalk.start s.chain.gate)
      (iterKeysFrom cfg s.chain.gate.pkhOf key) (Nat.zero_le budget)
    generalize (EnrolWalk.start s.chain.gate).visitAll _ _ = walk at hreached hwalked
    have hcount : walk.gate.scanSlotCount = s.chain.gate.scanSlotCount := by
      rw [hreached.gate]
      rfl
    have hbinds : walk.gate.pkhOf = s.chain.gate.pkhOf := by
      rw [hreached.gate]
      rfl
    have hmoved : rest ≠ [] → reached ≠ [] := by
      rintro hrest rfl
      obtain ⟨last, hstop, hlast, -⟩ := hreached.stopped hrest
      have hnone : walk.walked = 0 := Nat.le_zero.mp hreached.walked
      have hover : budget ≤ last.walked := of_decide_eq_true hstop
      omega
    refine ⟨reached, rest, ?_, ?_, ?_, ?_, hmoved, walk.walked, hwalked, rfl⟩
    · rw [unwalked, hcursor]
      exact hkeys
    · dsimp only
      split_ifs <;> exact hbinds
    · -- the count is written back only when someone was enrolled
      dsimp only
      split_ifs with henrolled
      · exact hreached.table
      · obtain ⟨-, hslot⟩ := hreached.unmoved (Nat.eq_zero_of_not_pos henrolled)
        have hsame : walk.gate.rotation = walk.table := by
          rw [GateStore.rotation, EnrolWalk.table, hcount, hslot]
          rfl
        rw [hsame]
        exact hreached.table
    · have hlast : walk.lastKey = reached.getLast? := by
        rw [hreached.lastKey]
        exact Option.or_none
      dsimp only
      rw [hreached.exhausted, hlast]
      cases hrest : rest.isEmpty with
      | true => rfl
      | false =>
        have hne : reached ≠ [] := hmoved (by simpa using hrest)
        rw [List.getLast?_eq_some_getLast hne]
        rfl

theorem drain_progress (hbudget : 0 < drainBudget db remaining) :
    (s.drainRotationBackfill cfg db remaining).1.rotationBackfillCursor = none ∨
      ((s.drainRotationBackfill cfg db remaining).1.unwalked cfg).length <
        (s.unwalked cfg).length := by
  rcases drain_cases cfg db s remaining with
    ⟨hsame, hidle⟩ | ⟨-, reached, rest, hdrains⟩
  · rw [hsame]
    exact Or.inl (hidle.resolve_right hbudget.ne')
  generalize s.drainRotationBackfill cfg db remaining = after at hdrains
  rw [hdrains.cursor]
  cases rest with
  | nil => exact Or.inl rfl
  | cons next rest =>
    right
    have hne : reached ≠ [] := hdrains.moved (List.cons_ne_nil _ _)
    have hkeys := hdrains.keys
    have hresumed : after.1.unwalked cfg = next :: rest := by
      rw [unwalked, hdrains.cursor, hdrains.pkhOf]
      unfold unwalked at hkeys
      rcases hcursor : s.rotationBackfillCursor with _ | _ | start
      · rw [hcursor] at hkeys
        exact absurd (List.append_eq_nil_iff.mp hkeys.symm).1 hne
      · rw [hcursor] at hkeys
        exact absurd (List.append_eq_nil_iff.mp hkeys.symm).1 hne
      · rw [hcursor] at hkeys
        have hwalk : walkFrom cfg.blake2 (s.chain.gate.pkhOf.iterKeys cfg.blake2)
            (some start) = reached ++ next :: rest := hkeys
        rw [List.getLast?_eq_some_getLast hne]
        exact walkFrom_resume (s.chain.gate.pkhOf.iterKeys_pairwise _) hwalk
          (List.getLast?_eq_some_getLast hne)
    rw [hresumed, hkeys, List.length_append]
    have hpos := List.length_pos_iff.mpr hne
    omega

/-! ## Weights -/

def oneStep (db : DbWeight) : ℕ :=
  (db.reads 1).refTime + (db.writes 2).refTime + (db.readsWrites 2 2).refTime

theorem drainBudget_pos (hidle : oneStep db ≤ remaining.refTime) :
    0 < drainBudget db remaining := by
  unfold drainBudget
  dsimp only
  split_ifs with hzero
  · decide
  · have hpriced : (db.readsWrites 2 2).isZero = false := by simpa using hzero
    have hpos : 0 < (db.readsWrites 2 2).refTime := by
      simpa [Weight.isZero, DbWeight.readsWrites, Nat.pos_iff_ne_zero] using hpriced
    rw [DbWeight.checkedDivPerComponent_readsWrites _ _ hpriced, Option.getD_some]
    unfold oneStep at hidle
    have hleft : (db.readsWrites 2 2).refTime ≤
        ((remaining.saturatingSub (db.reads 1)).saturatingSub (db.writes 2)).refTime := by
      simp only [Weight.saturatingSub]
      omega
    have hone := Nat.div_pos hleft hpos
    have hbatch : 0 < backfillBatch := by decide
    have hmax : 0 < u64Max := by decide
    omega

theorem drainBudget_mul_le (hbudget : 0 < drainBudget db remaining) :
    (db.reads 1).refTime + (db.writes 2).refTime +
        (db.readsWrites 2 2).refTime * drainBudget db remaining ≤ remaining.refTime ∨
      db.read = 0 ∧ db.write = 0 := by
  unfold drainBudget at hbudget ⊢
  dsimp only at hbudget ⊢
  split_ifs at hbudget ⊢ with hzero
  · right
    simp only [Weight.isZero, DbWeight.readsWrites, satAdd, satMul, u64Max, Bool.and_eq_true,
      beq_iff_eq] at hzero
    omega
  · left
    have hpriced : (db.readsWrites 2 2).isZero = false := by simpa using hzero
    have hpos : 0 < (db.readsWrites 2 2).refTime := by
      simpa [Weight.isZero, DbWeight.readsWrites, Nat.pos_iff_ne_zero] using hpriced
    rw [DbWeight.checkedDivPerComponent_readsWrites _ _ hpriced, Option.getD_some] at hbudget ⊢
    generalize hleft : ((remaining.saturatingSub (db.reads 1)).saturatingSub
      (db.writes 2)).refTime = left at hbudget ⊢
    simp only [Weight.saturatingSub] at hleft
    generalize (db.readsWrites 2 2).refTime = price at hpos hbudget ⊢
    have hsteps : min (min (left / price) u64Max) backfillBatch ≤ left / price :=
      (Nat.min_le_left _ _).trans (Nat.min_le_left _ _)
    have hcost : price * min (min (left / price) u64Max) backfillBatch ≤ left :=
      (Nat.mul_le_mul_left price hsteps).trans (Nat.mul_div_le left price)
    have hone : 0 < price * min (min (left / price) u64Max) backfillBatch :=
      Nat.mul_pos hpos hbudget
    omega

theorem drain_spent_le (hprobe : db.reads 1 ≤ remaining) :
    (s.drainRotationBackfill cfg db remaining).2 ≤ remaining := by
  rcases drain_cases cfg db s remaining with
    ⟨hidle, -⟩ | ⟨hbudget, reached, rest, hdrains⟩
  · rw [hidle]
    exact hprobe
  obtain ⟨walked, hwalked, hspent⟩ := hdrains.spent
  rw [hspent]
  have hproof : (((db.reads 1).saturatingAdd (db.writes 2)).saturatingAdd
      ((db.readsWrites 2 2).saturatingMul (max walked 1))).proofSize = 0 := by
    simp [Weight.saturatingAdd, Weight.saturatingMul, DbWeight.reads, DbWeight.writes,
      DbWeight.readsWrites, satAdd]
  refine ⟨?_, by rw [hproof]; exact Nat.zero_le _⟩
  simp only [Weight.saturatingAdd, Weight.saturatingMul]
  rcases drainBudget_mul_le hbudget with hcost | ⟨hread, hwrite⟩
  · have hsteps : (db.readsWrites 2 2).refTime * max walked 1 ≤
        (db.readsWrites 2 2).refTime * drainBudget db remaining :=
      Nat.mul_le_mul_left _ (max_le hwalked hbudget)
    unfold satAdd satMul
    omega
  · simp [DbWeight.reads, DbWeight.writes, DbWeight.readsWrites, hread, hwrite, satAdd]

/-! ## Binds, revokes and drains in any order -/

/-- Everyone bound and not enrolled is ahead of the cursor. -/
def Filling (cfg : Config) (s : BackfillChain) : Prop :=
  Backfilling cfg.blake2 s.chain.gate.pkhOf.keys s.chain.gate.rotation
    s.rotationBackfillCursor.join

theorem Filling.doBind {account : AccountId} {identity : IdentityHash} (hfill : s.Filling cfg)
    (hok : s.chain.doBind account identity = .ok chain)
    (hroom : chain.gate.pkhOf.keys.length ≤ u64Max) :
    Filling cfg { s with chain := chain } := by
  obtain ⟨-, -, -, hregister⟩ := Runtime.doBind_register hok
  have hpkhOf : chain.gate.pkhOf = s.chain.gate.pkhOf.insert account identity :=
    congrArg (fun r => r.binds.pkhOf) hregister
  unfold Filling
  dsimp only
  rw [Runtime.doBind_rotation hok]
  apply Backfilling.join hfill _ hroom
  intro other
  rw [hpkhOf, mem_keys_iff, mem_keys_iff, get_insert]
  split_ifs with hsame <;> simp [hsame]

theorem Filling.doRevoke {account : AccountId} (hfill : s.Filling cfg)
    (hok : s.chain.doRevoke account = .ok chain) : Filling cfg { s with chain := chain } := by
  unfold Filling
  dsimp only
  rw [Runtime.doRevoke_rotation hok, Runtime.doRevoke_pkhOf hok]
  apply Backfilling.leave hfill
  intro other
  rw [mem_keys_iff, mem_keys_iff, get_remove]
  split_ifs with hsame <;> simp [hsame]

theorem Filling.revokeMany (hfill : s.Filling cfg) (targets : List AccountId) :
    Filling cfg { s with chain := s.chain.revokeMany targets } := by
  apply Runtime.revokeMany_invariant (fun chain => Filling cfg { s with chain := chain })
  · exact fun _ _ h => h
  · exact fun chain _ _ hok h => Filling.doRevoke (s := { s with chain := chain }) h hok
  · exact hfill

theorem Filling.drain (hfill : s.Filling cfg) (hroom : s.chain.gate.pkhOf.keys.length ≤ u64Max) :
    (s.drainRotationBackfill cfg db remaining).1.Filling cfg := by
  rcases drain_cases cfg db s remaining with ⟨hidle, -⟩ | ⟨-, reached, rest, hdrains⟩
  · rw [hidle]
    exact hfill
  generalize s.drainRotationBackfill cfg db remaining = after at hdrains
  have hkeys := hdrains.keys
  have hreached : ∀ account ∈ s.unwalked cfg, account ∈ s.chain.gate.pkhOf.keys := by
    intro account hmem
    unfold unwalked at hmem
    split at hmem
    · cases hmem
    · exact mem_of_mem_iterKeysFrom hmem
  have hsorted : (s.unwalked cfg).Pairwise (HashLt cfg.blake2) := by
    unfold unwalked
    split
    · exact List.Pairwise.nil
    · exact iterKeysFrom_pairwise _ _ _
  have hmissing : ∀ account ∈ s.chain.gate.pkhOf.keys,
      s.chain.gate.rotation.slotOf.get account = none → account ∈ s.unwalked cfg := by
    intro account hbound hout
    obtain ⟨last, hlast, hahead⟩ := hfill.ahead account hbound hout
    rw [unwalked, Option.join_eq_some_iff.mp hlast]
    exact List.mem_filter.mpr ⟨mem_hashSort.mpr hbound, by simpa using hahead⟩
  rw [hkeys] at hreached hsorted hmissing
  unfold Filling
  rw [hdrains.rotation, hdrains.pkhOf]
  apply Backfilling.of_walk hfill.toWithin
    (fun account hmem => hreached account (List.mem_append_left _ hmem)) hroom hmissing hsorted
  intro hrest
  have hempty : rest.isEmpty = false := by simpa using hrest
  refine ⟨?_, hdrains.moved hrest⟩
  rw [hdrains.cursor, hempty]
  rfl

def boundAccounts (s : BackfillChain) : ℕ := s.chain.gate.pkhOf.keys.length

theorem Filling.step (hfill : s.Filling cfg) (call : Call) (hbefore : s.boundAccounts < 2 ^ 64)
    (hafter : (s.step cfg db call).boundAccounts < 2 ^ 64) :
    (s.step cfg db call).Filling cfg := by
  have hbefore' : s.chain.gate.pkhOf.keys.length ≤ u64Max := Nat.le_sub_one_of_lt hbefore
  cases call with
  | doBind account identity =>
    have hafter' : (attempt (fun chain => chain.doBind account) s.chain identity).gate.pkhOf.keys.length
        ≤ u64Max := Nat.le_sub_one_of_lt hafter
    exact attempt_invariant (fun chain => chain.gate.pkhOf.keys.length ≤ u64Max →
      Filling cfg { s with chain := chain }) (fun chain hok => hfill.doBind hok)
      (fun _ => hfill) hafter'
  | doRevoke account =>
    exact attempt_invariant (fun chain => Filling cfg { s with chain := chain })
      (fun chain hok => hfill.doRevoke hok) hfill
  | revokeMany targets => exact hfill.revokeMany targets
  | drainRotationBackfill remaining => exact hfill.drain hbefore'

theorem onRuntimeUpgrade_pkhOf (cfg : Config) (db : DbWeight) (s : BackfillChain) :
    (onRuntimeUpgrade cfg db s).1.chain.gate.pkhOf = s.chain.gate.pkhOf := by
  obtain ⟨_, _, _, hreached⟩ :=
    EnrolWalk.visitAll_reached (fun now => decide (maxAccounts ≤ now.enrolled))
      (w := EnrolWalk.start s.chain.gate) (s.chain.gate.pkhOf.iterKeys cfg.blake2) rfl
  have hgate := congrArg GateStore.pkhOf hreached.gate
  exact hgate

theorem onRuntimeUpgrade_filling (hempty : chain.gate.rotation = ⟨∅, ∅, 0⟩)
    (hroom : chain.gate.pkhOf.keys.length ≤ u64Max) :
    Filling cfg (onRuntimeUpgrade cfg db ⟨chain, none⟩).1 := by
  obtain ⟨reached, rest, hkeys, hreached⟩ :=
    EnrolWalk.visitAll_reached (fun now => decide (maxAccounts ≤ now.enrolled))
      (w := EnrolWalk.start chain.gate) (chain.gate.pkhOf.iterKeys cfg.blake2) rfl
  unfold onRuntimeUpgrade
  dsimp only
  generalize (EnrolWalk.start chain.gate).visitAll _ _ = walk at hreached ⊢
  have hmem : ∀ account, account ∈ reached ++ rest ↔ account ∈ chain.gate.pkhOf.keys := by
    intro account
    rw [← hkeys]
    exact mem_hashSort
  have hsorted := chain.gate.pkhOf.iterKeys_pairwise cfg.blake2
  rw [hkeys] at hsorted
  have hbinds : walk.gate.pkhOf = chain.gate.pkhOf := by
    rw [hreached.gate]
    rfl
  have hempty' : Within chain.gate.pkhOf.keys chain.gate.rotation := by
    rw [hempty]
    exact ⟨.empty, fun account henrolled => by simp at henrolled⟩
  have htable : walk.table = chain.gate.rotation.joinAll u64Max reached := hreached.table
  show Backfilling cfg.blake2 walk.gate.pkhOf.keys walk.table _
  rw [hbinds, htable]
  apply Backfilling.of_walk hempty'
    (fun account hreach => (hmem account).mp (List.mem_append_left _ hreach)) hroom
    (fun account hbound _ => (hmem account).mpr hbound) hsorted
  intro hrest
  have hstopped : walk.exhausted = false := by
    rw [hreached.exhausted]
    simpa using hrest
  have hne : reached ≠ [] := by
    rintro rfl
    obtain ⟨last, hstop, -, hlast⟩ := hreached.stopped hrest
    have hnone : walk.enrolled = 0 := Nat.le_zero.mp hreached.enrolled
    have hcap : maxAccounts ≤ last.enrolled := of_decide_eq_true hstop
    rw [hlast, hnone] at hcap
    exact absurd hcap (by decide)
  refine ⟨?_, hne⟩
  have hlast : walk.lastKey = reached.getLast? := by
    rw [hreached.lastKey]
    exact Option.or_none
  rw [hstopped, hlast]
  rfl

/-! ## The gate's own check -/

theorem forM_ok {check : ℕ → Except String Unit} {slots : List ℕ}
    (hall : ∀ slot ∈ slots, check slot = .ok ()) : slots.forM check = .ok () := by
  induction slots with
  | nil => rfl
  | cons slot slots ih =>
    have hhead : check slot = .ok () := hall slot List.mem_cons_self
    have hrest := ih (fun slot' hmem => hall slot' (List.mem_cons_of_mem slot hmem))
    simp only [List.forM_eq_forM, List.forM_cons] at hrest ⊢
    rw [hhead]
    exact hrest

theorem Filling.trySlot (hfill : s.Filling cfg) {slot : ℕ}
    (hslot : slot < s.chain.gate.scanSlotCount) :
    BackfillChain.trySlot s.chain.gate slot = .ok () := by
  obtain ⟨who, hwho⟩ := Option.isSome_iff_exists.mp (hfill.dense.filled hslot)
  have hmember : s.chain.gate.accountAtScanSlot.get slot = some who := hwho
  have hinverse : s.chain.gate.scanSlotOf.get who = some slot :=
    (hfill.dense.inverse who slot).mpr hwho
  have hbound : s.chain.gate.pkhOf.contains who = true := by
    apply mem_keys_iff.mp
    exact hfill.owed_of_enrolled who (Option.isSome_iff_exists.mpr ⟨slot, hinverse⟩)
  unfold BackfillChain.trySlot
  rw [hmember]
  dsimp only
  rw [if_neg (not_not.mpr hinverse), hbound]
  rfl

theorem Filling.tryState (hfill : s.Filling cfg) : s.tryState = .ok () := by
  have hrows : s.chain.gate.accountAtScanSlot.keys.length = s.chain.gate.scanSlotCount :=
    hfill.dense.length_memberAt
  have hinverse : s.chain.gate.scanSlotOf.keys.length = s.chain.gate.scanSlotCount :=
    hfill.dense.length_slotOf
  have hslots : (List.range s.chain.gate.scanSlotCount).forM
      (BackfillChain.trySlot s.chain.gate) = .ok () :=
    forM_ok (fun slot hslot => hfill.trySlot (List.mem_range.mp hslot))
  unfold BackfillChain.tryState
  dsimp only
  rw [if_neg (not_not.mpr hrows), if_neg (not_not.mpr hinverse), hslots]
  cases hcursor : s.rotationBackfillCursor with
  | some key =>
    have hle : s.chain.gate.scanSlotCount ≤ s.chain.gate.pkhOf.keys.length :=
      hfill.dense.count_le hfill.owed_of_enrolled
    simp only [Option.isSome_some, if_true, if_neg (Nat.not_lt.mpr hle)]
    rfl
  | none =>
    have hfull : s.chain.gate.pkhOf.keys.length = s.chain.gate.scanSlotCount := by
      unfold Filling at hfill
      rw [hcursor] at hfill
      rw [← hinverse]
      apply List.Perm.length_eq
      rw [List.perm_ext_iff_of_nodup (keys_nodup _) (keys_nodup _)]
      intro account
      rw [← Backfilling.complete hfill, mem_keys_iff]
      rfl
    simp only [Option.isSome_none, Bool.false_eq_true, if_false, if_neg (not_not.mpr hfull)]
    rfl

/-! ## Whole runs -/

/-- The rotation pairs slots and enrolled accounts one to one, holds only bound
accounts, and misses only those ahead of the cursor. -/
structure Sound (cfg : Config) (s : BackfillChain) : Prop where
  dense : s.chain.gate.rotation.Dense
  bound : ∀ account, s.chain.Enrolled account → s.chain.gate.pkhOf.contains account
  ahead : ∀ account, s.chain.gate.pkhOf.contains account → ¬ s.chain.Enrolled account →
    ∃ last, s.rotationBackfillCursor = some (some last) ∧ HashLt cfg.blake2 last account
  complete : s.rotationBackfillCursor = none →
    ∀ account, s.chain.Enrolled account ↔ s.chain.gate.pkhOf.contains account
  checked : s.tryState = .ok ()

theorem Filling.sound (hfill : s.Filling cfg) : s.Sound cfg where
  dense := hfill.dense
  bound account henrolled :=
    mem_keys_iff.mp (hfill.owed_of_enrolled account henrolled)
  ahead account hbound hout := by
    obtain ⟨last, hlast, hahead⟩ := hfill.ahead account (mem_keys_iff.mpr hbound)
      (Option.not_isSome_iff_eq_none.mp hout)
    exact ⟨last, Option.join_eq_some_iff.mp hlast, hahead⟩
  complete hcursor account := by
    unfold Filling at hfill
    rw [hcursor] at hfill
    exact (Backfilling.complete hfill).trans mem_keys_iff
  checked := hfill.tryState

theorem Filling.run (hfill : s.Filling cfg) (calls : List Call)
    (hroom : ∀ before, before <+: calls →
      (run (BackfillChain.step cfg db) s before).boundAccounts < 2 ^ 64) :
    (run (BackfillChain.step cfg db) s calls).Filling cfg := by
  induction calls generalizing s with
  | nil => exact hfill
  | cons call calls ih =>
    have hnow : s.boundAccounts < 2 ^ 64 := hroom [] List.nil_prefix
    have hnext : (s.step cfg db call).boundAccounts < 2 ^ 64 :=
      hroom [call] ⟨calls, rfl⟩
    apply ih (hfill.step call hnow hnext)
    intro before hbefore
    exact hroom (call :: before) (List.cons_prefix_cons.mpr ⟨rfl, hbefore⟩)

end BackfillChain

open BackfillChain

/-- From what the migration leaves on an empty table, every run of binds,
revokes and drains keeps the rotation sound while fewer than 2^64 accounts are
bound.  A drain with weight for one account gets on, and no drain reports more
weight than it was given. -/
theorem rotation_backfilled (cfg : Config) (db : DbWeight) (chain : Runtime)
    (hempty : chain.gate.rotation = ⟨∅, ∅, 0⟩) (calls : List Call)
    (hroom : ∀ before, before <+: calls →
      (run (step cfg db)
        (onRuntimeUpgrade cfg db ⟨chain, none⟩).1 before).boundAccounts < 2 ^ 64) :
    ∀ s, s = run (step cfg db)
        (onRuntimeUpgrade cfg db ⟨chain, none⟩).1 calls →
      s.Sound cfg ∧
      ∀ remaining : Weight,
        (oneStep db ≤ remaining.refTime →
          (s.drainRotationBackfill cfg db remaining).1.rotationBackfillCursor = none ∨
            ((s.drainRotationBackfill cfg db remaining).1.unwalked cfg).length <
              (s.unwalked cfg).length) ∧
        (db.reads 1 ≤ remaining → (s.drainRotationBackfill cfg db remaining).2 ≤ remaining) := by
  intro s hs
  have hstart : (onRuntimeUpgrade cfg db ⟨chain, none⟩).1.boundAccounts < 2 ^ 64 :=
    hroom [] List.nil_prefix
  have hmigrated : (onRuntimeUpgrade cfg db ⟨chain, none⟩).1.Filling cfg := by
    apply onRuntimeUpgrade_filling hempty
    rw [← onRuntimeUpgrade_pkhOf cfg db ⟨chain, none⟩]
    exact Nat.le_sub_one_of_lt hstart
  have hfill : s.Filling cfg := hs ▸ hmigrated.run calls hroom
  refine ⟨hfill.sound, ?_⟩
  intro remaining
  constructor
  · intro hidle
    exact drain_progress (drainBudget_pos hidle)
  · exact drain_spent_le

def boundBefore : Runtime :=
  { Runtime.genesis with gate := { ({} : GateStore) with
      pkhOf := insert (insert ∅ ⟨1⟩ ⟨11⟩) ⟨2⟩ ⟨12⟩
      accountOf := insert (insert ∅ ⟨11⟩ ⟨1⟩) ⟨12⟩ ⟨2⟩ } }

def bindRevokeDrain : List Call :=
  [.doBind ⟨3⟩ ⟨13⟩, .revokeMany [⟨1⟩, ⟨5⟩], .drainRotationBackfill ⟨1000, 0⟩]

def pricedDb : DbWeight := ⟨25, 100⟩

theorem rotation_backfilled_boundBefore :
    ((run (step .toy pricedDb)
        (onRuntimeUpgrade .toy pricedDb ⟨boundBefore, none⟩).1
        bindRevokeDrain).Sound .toy) ∧
      ((run (step .toy pricedDb)
        (onRuntimeUpgrade .toy pricedDb ⟨boundBefore, none⟩).1
        bindRevokeDrain).drainRotationBackfill .toy pricedDb ⟨500, 0⟩).2 ≤ ⟨500, 0⟩ := by
  have hroom : ∀ before ∈ bindRevokeDrain.inits,
      (run (step .toy pricedDb)
        (onRuntimeUpgrade .toy pricedDb ⟨boundBefore, none⟩).1
        before).boundAccounts < 2 ^ 64 := by decide +kernel
  obtain ⟨hsound, hdrain⟩ := rotation_backfilled .toy pricedDb boundBefore rfl bindRevokeDrain
    (fun before hbefore => hroom before ((List.mem_inits _ _).mpr hbefore)) _ rfl
  obtain ⟨-, hspent⟩ := hdrain ⟨500, 0⟩
  exact ⟨hsound, hspent (by decide)⟩

/-! ## When slot numbers run out -/

def numberedBinds (n : ℕ) : List Call :=
  (List.range n).map (fun i => .doBind ⟨i⟩ ⟨i⟩)

def afterNumberedBinds (n : ℕ) : BackfillChain :=
  run (step .toy pricedDb)
    (onRuntimeUpgrade .toy pricedDb ⟨.genesis, none⟩).1 (numberedBinds n)

/-- `n` accounts have bound and joined; the numbers from `n` on are free. -/
structure Numbered (n : ℕ) (s : Runtime) : Prop where
  count : s.gate.scanSlotCount = n
  tombstoned : ∀ identity, s.gate.tombstoned.get identity = none
  unbound : ∀ i, n ≤ i → s.gate.pkhOf.get ⟨i⟩ = none
  unused : ∀ i, n ≤ i → s.gate.accountOf.get ⟨i⟩ = none
  unenrolled : ∀ i, n ≤ i → s.gate.scanSlotOf.get ⟨i⟩ = none

theorem afterNumberedBinds_succ (n : ℕ) :
    afterNumberedBinds (n + 1) = { afterNumberedBinds n with
      chain := attempt (fun chain => chain.doBind ⟨n⟩) (afterNumberedBinds n).chain ⟨n⟩ } := by
  unfold afterNumberedBinds numberedBinds
  rw [List.range_succ, List.map_append, List.map_singleton, run_concat]
  rfl

section Numbered

variable {n : ℕ} {s : Runtime}

theorem Numbered.doBind (hnumbered : Numbered n s) :
    ∃ after, s.doBind ⟨n⟩ ⟨n⟩ = .ok after ∧
      after.gate.scanSlotOf = s.gate.scanSlotOf.insert ⟨n⟩ n ∧
      after.gate.scanSlotCount = satAdd u64Max n 1 := by
  have htombstoned := contains_eq_false_iff.mpr (hnumbered.tombstoned ⟨n⟩)
  have hunbound := contains_eq_false_iff.mpr (hnumbered.unbound n le_rfl)
  have hunused := contains_eq_false_iff.mpr (hnumbered.unused n le_rfl)
  have hunenrolled := contains_eq_false_iff.mpr (hnumbered.unenrolled n le_rfl)
  have hbinds : ∃ after, s.doBind ⟨n⟩ ⟨n⟩ = .ok after := by
    unfold Runtime.doBind
    rw [htombstoned, hunbound, hunused]
    exact ⟨_, rfl⟩
  obtain ⟨after, hok⟩ := hbinds
  have hrotation := Runtime.doBind_rotation hok
  have hjoined : s.gate.rotation.join u64Max ⟨n⟩ = ⟨s.gate.scanSlotOf.insert ⟨n⟩ n,
      s.gate.accountAtScanSlot.insert n ⟨n⟩, satAdd u64Max n 1⟩ := by
    have hnew : s.gate.rotation.slotOf.contains ⟨n⟩ = false := hunenrolled
    have hcount : s.gate.rotation.count = n := hnumbered.count
    rw [join, hnew, hcount]
    rfl
  rw [hjoined] at hrotation
  exact ⟨after, hok, congrArg slotOf hrotation, congrArg SlotTable.count hrotation⟩

theorem Numbered.succ {after : Runtime} (hnumbered : Numbered n s) (hn : n < u64Max)
    (hok : s.doBind ⟨n⟩ ⟨n⟩ = .ok after) : Numbered (n + 1) after := by
  obtain ⟨after', hok', hslots, hcount⟩ := hnumbered.doBind
  have hsame : after = after' := Except.ok.inj (hok.symm.trans hok')
  subst hsame
  obtain ⟨-, -, -, hregister⟩ := Runtime.doBind_register hok
  have hpkhOf : after.gate.pkhOf = s.gate.pkhOf.insert ⟨n⟩ ⟨n⟩ :=
    congrArg (fun r => r.binds.pkhOf) hregister
  have haccountOf : after.gate.accountOf = s.gate.accountOf.insert ⟨n⟩ ⟨n⟩ :=
    congrArg (fun r => r.binds.accountOf) hregister
  have htombstoned : after.gate.tombstoned = s.gate.tombstoned :=
    congrArg (fun r => r.binds.tombstoned) hregister
  have hother : ∀ {i}, n + 1 ≤ i → (⟨i⟩ : AccountId) ≠ ⟨n⟩ ∧ (⟨i⟩ : IdentityHash) ≠ ⟨n⟩ := by
    intro i hi
    simp only [ne_eq, AccountId.mk.injEq, IdentityHash.mk.injEq]
    omega
  constructor
  · rw [hcount, satAdd_succ_of_lt hn]
  · rw [htombstoned]
    exact hnumbered.tombstoned
  · intro i hi
    rw [hpkhOf, get_insert_of_ne _ _ (hother hi).1]
    exact hnumbered.unbound i (by omega)
  · intro i hi
    rw [haccountOf, get_insert_of_ne _ _ (hother hi).2]
    exact hnumbered.unused i (by omega)
  · intro i hi
    rw [hslots, get_insert_of_ne _ _ (hother hi).1]
    exact hnumbered.unenrolled i (by omega)

end Numbered

theorem afterNumberedBinds_numbered {n : ℕ} (hn : n ≤ u64Max) :
    Numbered n (afterNumberedBinds n).chain := by
  induction n with
  | zero => exact ⟨rfl, fun _ => rfl, fun _ _ => rfl, fun _ _ => rfl, fun _ _ => rfl⟩
  | succ n ih =>
    have hbefore := ih (by omega)
    obtain ⟨after, hok, -, -⟩ := hbefore.doBind
    rw [afterNumberedBinds_succ, attempt_of_ok hok]
    exact hbefore.succ (by omega) hok

theorem not_dense_of_numbered {n : ℕ} (hn : n = u64Max) :
    ¬ (afterNumberedBinds (n + 1)).chain.gate.rotation.Dense := by
  intro hdense
  obtain ⟨after, hok, hslots, hcount⟩ := (afterNumberedBinds_numbered hn.le).doBind
  rw [afterNumberedBinds_succ, attempt_of_ok hok] at hdense
  have hslot : after.gate.rotation.slotOf.get ⟨n⟩ = some n := by
    show after.gate.scanSlotOf.get ⟨n⟩ = some n
    rw [hslots, get_insert_self]
  have hlt : n < after.gate.scanSlotCount := hdense.bounded hslot
  have hle : satAdd u64Max n 1 ≤ u64Max := satAdd_le u64Max n 1
  omega

/-- After 2^64 binds the rotation has an account at a slot past its count. -/
theorem rotation_overflows : ¬ (afterNumberedBinds (u64Max + 1)).Sound .toy :=
  fun hsound => not_dense_of_numbered rfl hsound.dense

end CognoChain
