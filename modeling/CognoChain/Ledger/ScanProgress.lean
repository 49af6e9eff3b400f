import CognoChain.Ledger.Convergence
import CognoChain.Ledger.Regression

/-!
# Progress of the scan window

The scan cursor moves on once the voting-power page and the role page of a
block are not full.  Enforced pages shrink the difference they are cut from, so
they stop being full.  A frozen block derives the same page again, and a page
that is full once stays full until the freeze ends.
-/

namespace CognoChain

open Substrate

/-! ## The cursor -/

namespace GateStore

variable {g : GateStore} {cursor budget : ℕ}

theorem nextScanCursor_lt (hcount : 0 < g.scanSlotCount) :
    g.nextScanCursor cursor budget < g.scanSlotCount := by
  simp only [nextScanCursor, hcount.ne', if_false]
  exact Nat.mod_lt _ hcount

theorem nextScanCursor_ne (hbudget : 0 < budget) (hmore : budget < g.scanSlotCount)
    (hwidth : g.scanSlotCount ≤ u64Max) : g.nextScanCursor cursor budget ≠ cursor := by
  have hcount : 0 < g.scanSlotCount := by omega
  by_cases hinside : cursor < g.scanSlotCount
  · simp only [nextScanCursor, hcount.ne', if_false, Nat.mod_eq_of_lt hinside,
      Nat.min_eq_left hmore.le, satAdd]
    rcases Nat.lt_or_ge (min (cursor + budget) u64Max) g.scanSlotCount with hlt | hge
    · rw [Nat.mod_eq_of_lt hlt]
      omega
    · rw [Nat.mod_eq_sub_mod hge, Nat.mod_eq_of_lt (by omega)]
      omega
  · have hlt : g.nextScanCursor cursor budget < g.scanSlotCount := nextScanCursor_lt hcount
    omega

end GateStore

namespace Runtime

variable {cfg : Config} {s t : Runtime} {obs : CardanoObservation} {args : ObserveArgs}

theorem observe_scanCursor (haccepts : s.accepts cfg args.reference) :
    (s.observe cfg args).observer.scanCursor =
      if scopedAxesDrained cfg args then
        s.gate.nextScanCursor s.observer.scanCursor cfg.maxScanned
      else s.observer.scanCursor := by
  obtain ⟨_, _, _, _, _, hobserver⟩ := observe_observer haccepts
  rw [hobserver]

theorem deriveCall_scopedAxesDrained :
    scopedAxesDrained cfg (s.deriveCall cfg obs) ↔
      (s.stakeDelta cfg obs).length < cfg.maxChangesPerBlock ∧
        (s.roleDelta cfg obs).length < cfg.maxChangesPerBlock := by
  simp [scopedAxesDrained, deriveCall]

theorem observe_accepts (haccepts : s.accepts cfg args.reference) :
    (s.observe cfg args).accepts cfg args.reference = true := by
  have hclock : (s.observe cfg args).unixSecs = s.unixSecs :=
    congrArg Social.unixSecs (observe_social args)
  have hbound : (s.observe cfg args).maxReferenceForNow cfg = s.maxReferenceForNow cfg := by
    simp only [maxReferenceForNow, hclock]
  obtain ⟨_, _, _, _, _, hobserver⟩ := observe_observer haccepts
  unfold accepts at haccepts ⊢
  rw [hbound, hobserver]
  by_cases hpending : args.pending = 0
  · simp only [Bool.and_eq_true] at haccepts
    simp [hpending, haccepts.2]
  · simpa [hpending] using haccepts

theorem scopedDeltas_congr (obs : CardanoObservation) (hroom : 0 < cfg.maxRolesPerAccount) (hsame : SameAxes s t)
    (hcursor : t.observer.scanCursor = s.observer.scanCursor) :
    t.stakeDelta cfg obs = s.stakeDelta cfg obs ∧ t.roleDelta cfg obs = s.roleDelta cfg obs := by
  have hclears : t.clearedByAbsence cfg = s.clearedByAbsence cfg := by
    funext who
    simp only [clearedByAbsence, hsame.gate, hcursor]
  have hstake : t.stakeLedger = ((s.stakeDelta cfg obs).take 0).foldl
      (DeltaLedger.applyChange s.resolveStake (stakeAccept cfg)) s.stakeLedger := hsame.stake
  have hroles : t.roleLedger =
      ((s.roleDelta cfg obs).take 0).foldl RoleLedger.applyChange s.roleLedger := hsame.roles
  exact ⟨stakeDelta_eq_drop hsame.gate hcursor hstake,
    roleDelta_eq_drop hroom (roleDesired_congr hsame.gate hsame.credIndex) hclears hroles⟩

end Runtime

open CognoChain.Runtime

theorem Op.frontier_of_none {cfg : Config} {s : Runtime} (op : Op)
    (hnone : op.observation cfg s = none) : SameFrontier s (s.step cfg op) := by
  rcases (s.step_ledgerStep op).frontier with hsame | ⟨args, hargs, -⟩
  · exact hsame
  · rw [hnone] at hargs
    cases hargs

theorem Op.quiet_frontier (cfg : Config) (s : Runtime) {op : Op} (hquiet : op.quiet) :
    SameFrontier s (s.step cfg op) := by
  apply op.frontier_of_none
  cases op with
  | nextBlock unixSecs => rfl
  | call origin call =>
    cases call with
    | observer call => cases hquiet
    | _ => cases origin <;> rfl
  | extrinsic who call len => rfl
  | inherent obs => cases hquiet

/-! ## Repeating a snapshot -/

/-- The run observes one snapshot again and again, accepted each time. -/
def Repeats (cfg : Config) (obs : CardanoObservation) (s : Runtime) (op : Op) : Prop :=
  op.quiet ∨ (op = .inherent obs ∧ s.accepts cfg obs.reference)

def Runtime.scopedPages (cfg : Config) (s : Runtime) (obs : CardanoObservation) : ℕ :=
  (max (s.stakeDelta cfg obs).length (s.roleDelta cfg obs).length +
    cfg.maxChangesPerBlock - 1) / cfg.maxChangesPerBlock

def ScanMovesOn (cfg : Config) (s : Runtime) (obs : CardanoObservation) : Prop :=
  ∀ ops, Along (Runtime.step cfg) (Repeats cfg obs) s ops →
    s.scopedPages cfg obs + 1 ≤ ops.countP Op.isInherent →
    ∃ before, before <+: ops ∧
      (s.run cfg before).observer.scanCursor ≠ s.observer.scanCursor

section Enforcing

variable {cfg : Config} {obs : CardanoObservation} {s t : Runtime} {blocks : ℕ}

theorem Drained.scopedAxesDrained_iff (hdrained : Drained cfg obs s t blocks)
    (hpage : 0 < cfg.maxChangesPerBlock) (hroom : 0 < cfg.maxRolesPerAccount)
    (hcursor : t.observer.scanCursor = s.observer.scanCursor) :
    scopedAxesDrained cfg (t.deriveCall cfg obs) ↔
      max (s.stakeDelta cfg obs).length (s.roleDelta cfg obs).length <
        (blocks + 1) * cfg.maxChangesPerBlock := by
  rw [deriveCall_scopedAxesDrained, hdrained.stakeDelta hcursor,
    hdrained.roleDelta hroom hcursor, List.length_drop, List.length_drop, Nat.add_mul]
  omega

theorem Drained.movesOn (hpage : 0 < cfg.maxChangesPerBlock)
    (hroom : 0 < cfg.maxRolesPerAccount) (hbudget : 0 < cfg.maxScanned)
    (hmore : cfg.maxScanned < s.gate.scanSlotCount) (hwidth : s.gate.scanSlotCount ≤ u64Max)
    {ops : List Op} (hdrained : Drained cfg obs s t blocks)
    (hcursor : t.observer.scanCursor = s.observer.scanCursor)
    (hdue : blocks * cfg.maxChangesPerBlock ≤
      max (s.stakeDelta cfg obs).length (s.roleDelta cfg obs).length)
    (halong : Along (step cfg) (Repeats cfg obs) t ops)
    (henough : max (s.stakeDelta cfg obs).length (s.roleDelta cfg obs).length <
      (blocks + ops.countP Op.isInherent) * cfg.maxChangesPerBlock) :
    ∃ before, before <+: ops ∧
      (t.run cfg before).observer.scanCursor ≠ s.observer.scanCursor := by
  induction ops generalizing t blocks with
  | nil =>
    simp only [List.countP_nil, Nat.add_zero] at henough
    omega
  | cons op ops ih =>
    obtain ⟨hop, hrest⟩ := halong
    rcases hop with hquiet | ⟨rfl, haccepts⟩
    · rw [countP_isInherent_cons_of_quiet hquiet] at henough
      have hkept : (t.step cfg op).observer.scanCursor = s.observer.scanCursor :=
        (op.quiet_frontier cfg t hquiet).scanCursor.trans hcursor
      obtain ⟨before, hbefore, hmoved⟩ :=
        ih (hdrained.quiet hquiet) hkept hdue hrest henough
      exact ⟨op :: before, List.cons_prefix_cons.mpr ⟨rfl, hbefore⟩, hmoved⟩
    · have hnext : (t.observeSnapshot cfg obs).observer.scanCursor = _ :=
        observe_scanCursor haccepts
      by_cases hfits : scopedAxesDrained cfg (t.deriveCall cfg obs)
      · refine ⟨[.inherent obs], List.cons_prefix_cons.mpr ⟨rfl, List.nil_prefix⟩, ?_⟩
        show (t.observeSnapshot cfg obs).observer.scanCursor ≠ _
        rw [hnext, if_pos hfits, hdrained.gate, hcursor]
        exact GateStore.nextScanCursor_ne hbudget hmore hwidth
      · -- a full page brings the next block one page further
        rw [if_neg hfits] at hnext
        rw [hdrained.scopedAxesDrained_iff hpage hroom hcursor, not_lt] at hfits
        have hcount : (Op.inherent obs :: ops).countP Op.isInherent =
            ops.countP Op.isInherent + 1 := List.countP_cons_of_pos rfl
        rw [hcount, ← Nat.add_assoc, Nat.add_right_comm] at henough
        obtain ⟨before, hbefore, hmoved⟩ :=
          ih (hdrained.block hroom haccepts hcursor) (hnext.trans hcursor) hfits hrest henough
        exact ⟨.inherent obs :: before, List.cons_prefix_cons.mpr ⟨rfl, hbefore⟩, hmoved⟩

end Enforcing

section Frozen

variable {cfg : Config} {obs : CardanoObservation} {s t : Runtime}

/-- `t` is `s` as far as the windowed axes and the window are concerned. -/
structure SameWindow (s t : Runtime) : Prop where
  axes : SameAxes s t
  cursor : t.observer.scanCursor = s.observer.scanCursor

theorem SameWindow.movesOn (hroom : 0 < cfg.maxRolesPerAccount) (hbudget : 0 < cfg.maxScanned)
    (hmore : cfg.maxScanned < s.gate.scanSlotCount) (hwidth : s.gate.scanSlotCount ≤ u64Max)
    (hfits : scopedAxesDrained cfg (s.deriveCall cfg obs))
    {ops : List Op} (hsame : SameWindow s t)
    (halong : Along (step cfg) (Repeats cfg obs) t ops)
    (hsome : 0 < ops.countP Op.isInherent) :
    ∃ before, before <+: ops ∧
      (t.run cfg before).observer.scanCursor ≠ s.observer.scanCursor := by
  induction ops generalizing t with
  | nil => cases hsome
  | cons op ops ih =>
    obtain ⟨hop, hrest⟩ := halong
    rcases hop with hquiet | ⟨rfl, haccepts⟩
    · rw [countP_isInherent_cons_of_quiet hquiet] at hsome
      have hnext : SameWindow s (t.step cfg op) :=
        ⟨hsame.axes.trans (step_quiet cfg t hquiet).1,
          (op.quiet_frontier cfg t hquiet).scanCursor.trans hsame.cursor⟩
      obtain ⟨before, hbefore, hmoved⟩ := ih hnext hrest hsome
      exact ⟨op :: before, List.cons_prefix_cons.mpr ⟨rfl, hbefore⟩, hmoved⟩
    · refine ⟨[.inherent obs], List.cons_prefix_cons.mpr ⟨rfl, List.nil_prefix⟩, ?_⟩
      have hdeltas := scopedDeltas_congr obs hroom hsame.axes hsame.cursor
      have hstill : scopedAxesDrained cfg (t.deriveCall cfg obs) := by
        rw [deriveCall_scopedAxesDrained] at hfits ⊢
        rwa [hdeltas.1, hdeltas.2]
      have hnext : (t.observeSnapshot cfg obs).observer.scanCursor = _ :=
        observe_scanCursor haccepts
      show (t.observeSnapshot cfg obs).observer.scanCursor ≠ _
      rw [hnext, if_pos hstill, hsame.axes.gate, hsame.cursor]
      exact GateStore.nextScanCursor_ne hbudget hmore hwidth

theorem frozen_pins (hroom : 0 < cfg.maxRolesPerAccount)
    (hfrozen : s.observer.enforceWeight = false) (haccepts : s.accepts cfg obs.reference)
    (hfull : ¬ scopedAxesDrained cfg (s.deriveCall cfg obs)) (blocks : ℕ) :
    Along (step cfg) (Repeats cfg obs) s (List.replicate blocks (.inherent obs)) ∧
      (s.run cfg (List.replicate blocks (.inherent obs))).observer.scanCursor =
        s.observer.scanCursor := by
  induction blocks generalizing s with
  | zero => exact ⟨trivial, rfl⟩
  | succ blocks ih =>
    have hsame : SameAxes s (s.observeSnapshot cfg obs) :=
      observe_sameAxes (Or.inr hfrozen)
    have hcursor : (s.observeSnapshot cfg obs).observer.scanCursor = s.observer.scanCursor :=
      (observe_scanCursor haccepts).trans (if_neg hfull)
    have hstillFrozen : (s.observeSnapshot cfg obs).observer.enforceWeight = false :=
      (observe_enforceWeight haccepts).trans hfrozen
    have hdeltas := scopedDeltas_congr obs hroom hsame hcursor
    have hstillFull :
        ¬ scopedAxesDrained cfg ((s.observeSnapshot cfg obs).deriveCall cfg obs) := by
      rw [deriveCall_scopedAxesDrained] at hfull ⊢
      rwa [hdeltas.1, hdeltas.2]
    obtain ⟨halong, hpinned⟩ :=
      ih hstillFrozen (observe_accepts haccepts) hstillFull
    exact ⟨⟨Or.inr ⟨rfl, haccepts⟩, halong⟩, hpinned.trans hcursor⟩

end Frozen

/-- Observing a snapshot moves the scan window on within the blocks its pages
take exactly when weights are enforced or the window's changes fit in one
page.  Otherwise the window stays where it is for as long as the freeze
lasts. -/
theorem scanMovesOn_iff (cfg : Config) (s : Runtime) (obs : CardanoObservation)
    (hpage : 0 < cfg.maxChangesPerBlock)
    (hroom : maxObservedRolesPerAccount ≤ cfg.maxRolesPerAccount)
    (hbudget : 0 < cfg.maxScanned) (hmore : cfg.maxScanned < s.gate.scanSlotCount)
    (hwidth : s.gate.scanSlotCount ≤ u64Max) (haccepts : s.accepts cfg obs.reference) :
    (ScanMovesOn cfg s obs ↔
      s.observer.enforceWeight = true ∨
        ((s.stakeDelta cfg obs).length < cfg.maxChangesPerBlock ∧
          (s.roleDelta cfg obs).length < cfg.maxChangesPerBlock)) ∧
    (¬ ScanMovesOn cfg s obs → ∀ blocks,
      (s.run cfg (List.replicate blocks (.inherent obs))).observer.scanCursor =
        s.observer.scanCursor) := by
  have hroles : 0 < cfg.maxRolesPerAccount := Nat.lt_of_lt_of_le (by decide) hroom
  rw [← Runtime.deriveCall_scopedAxesDrained]
  have hmoves : s.observer.enforceWeight = true ∨
      Runtime.scopedAxesDrained cfg (s.deriveCall cfg obs) → ScanMovesOn cfg s obs := by
    rintro (henforce | hfits) ops halong hblocks
    · apply (Drained.start henforce).movesOn hpage hroles hbudget hmore hwidth rfl (by simp)
        halong
      have hceil : max (s.stakeDelta cfg obs).length (s.roleDelta cfg obs).length +
          cfg.maxChangesPerBlock - 1 < cfg.maxChangesPerBlock * (s.scopedPages cfg obs + 1) :=
        Nat.lt_mul_div_succ _ hpage
      have hmul := Nat.mul_le_mul_left cfg.maxChangesPerBlock hblocks
      rw [Nat.zero_add, Nat.mul_comm]
      omega
    · exact SameWindow.movesOn hroles hbudget hmore hwidth hfits
        ⟨⟨rfl, rfl, rfl, rfl, rfl⟩, rfl⟩ halong (by omega)
  have hpins : ¬ (s.observer.enforceWeight = true ∨
      Runtime.scopedAxesDrained cfg (s.deriveCall cfg obs)) → ¬ ScanMovesOn cfg s obs ∧
      ∀ blocks, (s.run cfg (List.replicate blocks (.inherent obs))).observer.scanCursor =
        s.observer.scanCursor := by
    intro hneither
    rw [not_or, Bool.not_eq_true] at hneither
    have hpinned := frozen_pins hroles hneither.1 haccepts hneither.2
    refine ⟨fun hmoved => ?_, fun blocks => (hpinned blocks).2⟩
    obtain ⟨before, hbefore, hne⟩ := hmoved _ (hpinned (s.scopedPages cfg obs + 1)).1
      (by simp [Op.isInherent, List.countP_replicate])
    rw [List.eq_replicate_of_mem (fun op hop =>
      List.eq_of_mem_replicate (hbefore.subset hop))] at hne
    exact hne (hpinned _).2
  refine ⟨⟨fun hmoved => ?_, hmoves⟩, fun hstuck => ?_⟩
  · by_contra hneither
    exact (hpins hneither).1 hmoved
  · exact (hpins (fun hcond => hstuck (hmoves hcond))).2

def narrowScan : Config := { Config.toy with maxChangesPerBlock := 1, maxScanned := 1 }

def stakedWindow (enforce : Bool) : Runtime :=
  Runtime.genesis.run narrowScan
    [.nextBlock 0,
      .call .none (.gate (.linkIdentitySigned ⟨[1, 5], []⟩)),
      .call .none (.gate (.linkIdentitySigned ⟨[2, 6], []⟩)),
      .call .none (.gate (.linkStakeSigned ⟨[1, 7, 0], []⟩)),
      .call .authority (.observer (.setEnforcement enforce))]

def oneStake : CardanoObservation := ⟨⟨10, 0⟩, 0, [], [(⟨7⟩, 800)], []⟩

/-- A single stake credit pins the window of a frozen chain. -/
theorem frozenWindow_pinned :
    (stakedWindow false).observer.enforceWeight = false ∧
      narrowScan.maxScanned < (stakedWindow false).gate.scanSlotCount ∧
      (∀ blocks, ((stakedWindow false).run narrowScan
        (List.replicate blocks (.inherent oneStake))).observer.scanCursor = 0) ∧
      ¬ ScanMovesOn narrowScan (stakedWindow false) oneStake := by
  have hfrozen : (stakedWindow false).observer.enforceWeight = false := by decide +kernel
  have hcursor : (stakedWindow false).observer.scanCursor = 0 := by decide +kernel
  have haccepts : (stakedWindow false).accepts narrowScan oneStake.reference := by decide +kernel
  have hpinned := frozen_pins (by decide) hfrozen haccepts (by decide +kernel)
  refine ⟨hfrozen, by decide +kernel, fun blocks => (hpinned blocks).2.trans hcursor, ?_⟩
  intro hmoves
  obtain ⟨before, hbefore, hne⟩ := hmoves _ (hpinned 2).1 (by decide +kernel)
  rw [List.eq_replicate_of_mem (fun op hop =>
    List.eq_of_mem_replicate (hbefore.subset hop))] at hne
  exact hne (hpinned _).2

theorem scanMovesOn_iff_enforced :
    narrowScan.maxScanned < (stakedWindow true).gate.scanSlotCount ∧
      ScanMovesOn narrowScan (stakedWindow true) oneStake := by
  have hmore : narrowScan.maxScanned < (stakedWindow true).gate.scanSlotCount := by
    decide +kernel
  have hiff := (scanMovesOn_iff narrowScan (stakedWindow true) oneStake (by decide) (by decide)
    (by decide) hmore (by decide +kernel) (by decide +kernel)).1
  exact ⟨hmore, hiff.mpr (Or.inl (by decide +kernel))⟩

end CognoChain
