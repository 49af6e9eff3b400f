import CognoChain.Ledger.ScanProgress
import CognoChain.Substrate.SlotTable

/-!
# The coverage clock

The block of the last complete sweep is stamped when the scan cursor ends at or
behind where it was.  That a sweep was complete then rests on the accounts
behind the cursor still being the ones that were scanned there.  An account
that leaves from behind the cursor breaks it: the last account moves into a
slot already passed, or the rotation shrinks below the cursor and the stamp
comes without a wrap.
-/

namespace CognoChain

open Substrate CognoChain.Runtime

/-! ## The rotation as a slot table -/

def GateStore.rotation (g : GateStore) : SlotTable AccountId :=
  ⟨g.scanSlotOf, g.accountAtScanSlot, g.scanSlotCount⟩

namespace GateStore

variable {g : GateStore}

theorem joinRotation_rotation (account : AccountId) :
    (g.joinRotation account).rotation = g.rotation.join u64Max account := by
  unfold joinRotation SlotTable.join rotation
  split_ifs <;> rfl

theorem leaveRotation_rotation (account : AccountId) :
    (g.leaveRotation account).rotation = g.rotation.leave account := by
  unfold leaveRotation SlotTable.leave rotation
  dsimp only
  cases g.scanSlotOf.get account with
  | none => rfl
  | some slot =>
    simp only [fillSlot, SlotTable.fill]
    by_cases hlast : slot < g.scanSlotCount - 1
    · simp only [hlast, if_true]
      cases g.accountAtScanSlot.get (g.scanSlotCount - 1) <;> rfl
    · simp only [hlast, if_false]

end GateStore

/-- What a step does to the rotation. -/
inductive RotationMove (s after : SlotTable AccountId) : Prop
  | keep (h : after = s)
  | join (account : AccountId) (h : after = s.join u64Max account)
  | leave (accounts : List AccountId) (h : after = accounts.foldl SlotTable.leave s)

namespace Runtime

variable {cfg : Config} {s after : Runtime}

theorem deposit_gate (e : Event) : (s.deposit e).gate = s.gate := rfl

theorem doBind_rotation {account : AccountId} {identity : IdentityHash}
    (h : s.doBind account identity = .ok after) :
    after.gate.rotation = s.gate.rotation.join u64Max account := by
  obtain ⟨-, -, -, rfl⟩ := doBind_ok h
  rw [deposit_gate, (onFirstBind_writes account).writesMeter.gate,
    GateStore.joinRotation_rotation]
  rfl

theorem banStake_rotation (account : AccountId) :
    (s.banStake account).gate.rotation = s.gate.rotation := by
  unfold banStake
  split
  · rfl
  next stakeCred hbound =>
    rw [(forgetStake_writes account stakeCred).gate]
    rfl

theorem doRevoke_rotation {account : AccountId} (h : s.doRevoke account = .ok after) :
    after.gate.rotation = s.gate.rotation.leave account := by
  obtain ⟨identity, torn, -, htorn, rfl⟩ := doRevoke_ok h
  have hkept : torn.gate.rotation = s.gate.rotation := by
    rw [htorn, (forgetAccount_writes account).writesRoles.gate, banStake_rotation]
    rfl
  rw [deposit_gate, onRevoke_gate, GateStore.leaveRotation_rotation, hkept]

theorem revokeMany_rotation (targets : List AccountId) :
    ∃ accounts : List AccountId, (s.revokeMany targets).gate.rotation =
      accounts.foldl SlotTable.leave s.gate.rotation := by
  apply revokeMany_invariant (fun after => ∃ accounts : List AccountId,
    after.gate.rotation = accounts.foldl SlotTable.leave s.gate.rotation)
  · exact fun _ _ h => h
  · rintro before account after hok ⟨accounts, hbefore⟩
    refine ⟨accounts ++ [account], ?_⟩
    rw [doRevoke_rotation hok, hbefore, List.foldl_append]
    rfl
  · exact ⟨[], rfl⟩

theorem observe_gate (args : ObserveArgs) : (s.observe cfg args).gate = s.gate := by
  have hcases : SameAxes s (s.observe cfg args) ∨ AppliesAxes cfg s args (s.observe cfg args) :=
    observe_axes_cases args
  rcases hcases with hsame | happlied
  · exact hsame.gate
  · exact happlied.gate

end Runtime

variable {cfg : Config} {s : Runtime}

theorem LedgerStep.rotation {after : Runtime} {op : Op} (hstep : LedgerStep cfg s op after) :
    RotationMove s.gate.rotation after.gate.rotation := by
  cases hstep with
  | keeps hsame => exact .keep (by rw [hsame.gate])
  | tick unixSecs =>
    refine .keep ?_
    unfold nextBlock observerOnInitialize
    dsimp only
    split_ifs <;> rfl
  | bind hbind => exact .join _ (Runtime.doBind_rotation hbind)
  | bindStake hbind =>
    obtain ⟨-, -, -, rfl⟩ := doBindStake_ok hbind
    exact .keep rfl
  | revoke hrevoke => exact .leave [_] (Runtime.doRevoke_rotation hrevoke)
  | revokeMany targets =>
    obtain ⟨accounts, hleft⟩ := s.revokeMany_rotation targets
    exact .leave accounts hleft
  | unlinkStake hunlink =>
    obtain ⟨stakeCred, -, rfl⟩ := unlinkStake_ok hunlink
    refine .keep ?_
    rw [Runtime.deposit_gate, (Runtime.forgetStake_writes _ stakeCred).gate]
    rfl
  | tombstoneStakeCred stakeCred => exact .keep rfl
  | claim hclaim => exact .keep (by rw [(doClaim_writes hclaim).gate])
  | unclaim hunclaim => exact .keep (by rw [(unclaimRole_writes hunclaim).gate])
  | revokeRole hrevoke => exact .keep (by rw [(doRevokeRole_writes hrevoke).gate])
  | revokeRoleMany targets =>
    exact .keep (by rw [(revokeRoleMany_writes targets).gate])
  | observe args hop => exact .keep (by rw [Runtime.observe_gate])
  | inherent obs hop => exact .keep (by rw [observeSnapshot, Runtime.observe_gate])
  | setEnforcement enabled => exact .keep rfl

/-! ## Windows and stamps of a run -/

def Op.scanned (cfg : Config) (s : Runtime) (op : Op) : Option (List AccountId) :=
  match op.observation cfg s with
  | some args =>
      if s.accepts cfg args.reference then
        some (s.gate.scanWindow s.observer.scanCursor cfg.maxScanned)
      else none
  | none => none

def Op.stamps (cfg : Config) (s : Runtime) (op : Op) : Bool :=
  match op.observation cfg s with
  | some args =>
      s.accepts cfg args.reference && decide (scopedAxesDrained cfg args) &&
        decide (s.gate.nextScanCursor s.observer.scanCursor cfg.maxScanned ≤
          s.observer.scanCursor)
  | none => false

def windowsScanned (cfg : Config) : Runtime → List Op → List (List AccountId)
  | _, [] => []
  | s, op :: ops => (op.scanned cfg s).toList ++ windowsScanned cfg (s.step cfg op) ops

theorem windowsScanned_append (cfg : Config) (s : Runtime) (ops ops' : List Op) :
    windowsScanned cfg s (ops ++ ops') =
      windowsScanned cfg s ops ++ windowsScanned cfg (s.run cfg ops) ops' := by
  induction ops generalizing s with
  | nil => rfl
  | cons op ops ih =>
    simp only [List.cons_append, windowsScanned, ih, List.append_assoc]
    rfl

def sweepStamps (cfg : Config) : Runtime → List Op → ℕ
  | _, [] => 0
  | s, op :: ops => (op.stamps cfg s).toNat + sweepStamps cfg (s.step cfg op) ops

theorem Op.stamps_lastSweepAt (cfg : Config) (s : Runtime) (op : Op) :
    (s.step cfg op).observer.lastSweepAt =
      if op.stamps cfg s then s.blockNumber else s.observer.lastSweepAt := by
  unfold Op.stamps
  cases hargs : op.observation cfg s with
  | none =>
    have hsame := op.frontier_of_none hargs
    simpa using hsame.lastSweepAt
  | some args =>
    rw [op.step_observation hargs]
    cases haccepts : s.accepts cfg args.reference with
    | false => simp [observe_rejected haccepts, haccepts]
    | true =>
      obtain ⟨_, _, _, _, _, hobserver⟩ := observe_observer haccepts
      rw [hobserver]
      simp [haccepts]

/-! ## Complete sweeps -/

def Runtime.Enrolled (s : Runtime) (account : AccountId) : Prop :=
  (s.gate.scanSlotOf.get account).isSome

/-- Whenever the coverage clock is stamped, everyone enrolled then and at the
stamp before, or at the start when there is none, was in a window scanned since
the window of that stamp. -/
structure CoverageClock (cfg : Config) (start : Runtime) (ops : List Op) : Prop where
  first : ∀ before op after account, ops = before ++ op :: after →
    sweepStamps cfg start before = 0 → op.stamps cfg (start.run cfg before) = true →
    start.Enrolled account → (start.run cfg before).Enrolled account →
    ∃ window ∈ windowsScanned cfg start (before ++ [op]), account ∈ window
  next : ∀ before stamp between op after account,
    ops = before ++ stamp :: (between ++ op :: after) →
    stamp.stamps cfg (start.run cfg before) = true →
    sweepStamps cfg (start.run cfg (before ++ [stamp])) between = 0 →
    op.stamps cfg (start.run cfg (before ++ stamp :: between)) = true →
    (start.run cfg (before ++ [stamp])).Enrolled account →
    (start.run cfg (before ++ stamp :: between)).Enrolled account →
    ∃ window ∈ windowsScanned cfg (start.run cfg before) (stamp :: between ++ [op]),
      account ∈ window

/-- The rotation has room, and whoever a step takes out of it held a slot at or
ahead of the cursor. -/
structure KeepsSweep (cfg : Config) (s : Runtime) (op : Op) : Prop where
  width : s.gate.scanSlotCount + cfg.maxScanned < u64Max
  ahead : ∀ account slot, s.gate.scanSlotOf.get account = some slot →
    ¬ (s.step cfg op).Enrolled account → s.observer.scanCursor ≤ slot

instance (s : Runtime) (account : AccountId) : Decidable (s.Enrolled account) :=
  inferInstanceAs (Decidable (_ = true))

theorem keepsSweep_iff {op : Op} :
    (s.gate.scanSlotCount + cfg.maxScanned < u64Max ∧
      ∀ row ∈ s.gate.scanSlotOf.entries, ¬ (s.step cfg op).Enrolled row.1 →
        s.observer.scanCursor ≤ row.2) ↔ KeepsSweep cfg s op := by
  constructor
  · intro ⟨hwidth, hahead⟩
    exact ⟨hwidth, fun account slot hslot =>
      hahead (account, slot) (StorageMap.get_eq_some_iff.mp hslot)⟩
  · intro hkeeps
    exact ⟨hkeeps.width, fun row hrow =>
      hkeeps.ahead row.1 row.2 (StorageMap.get_eq_some_iff.mpr hrow)⟩

instance (cfg : Config) (s : Runtime) (op : Op) : Decidable (KeepsSweep cfg s op) :=
  decidable_of_iff _ keepsSweep_iff

/-- Everyone behind the scan cursor is in one of the windows. -/
structure SweptBy (windows : List (List AccountId)) (s : Runtime) : Prop where
  dense : s.gate.rotation.Dense
  swept : s.gate.rotation.Swept s.observer.scanCursor
    (fun account => ∃ window ∈ windows, account ∈ window)

section Step

variable {cfg : Config} {s : Runtime} {op : Op} {windows : List (List AccountId)}

theorem SweptBy.mono {windows' : List (List AccountId)} (hswept : SweptBy windows s)
    (hsub : windows ⊆ windows') : SweptBy windows' s := by
  refine ⟨hswept.dense, hswept.swept.mono ?_⟩
  rintro account ⟨window, hwindow, hmem⟩
  exact ⟨window, hsub hwindow, hmem⟩

theorem SweptBy.quiet (hswept : SweptBy windows s) (hkeeps : KeepsSweep cfg s op)
    (hcursor : (s.step cfg op).observer.scanCursor = s.observer.scanCursor) :
    SweptBy windows (s.step cfg op) := by
  have hwidth := hkeeps.width
  have hroom : s.gate.rotation.count < u64Max := by
    show s.gate.scanSlotCount < u64Max
    omega
  rcases (s.step_ledgerStep op).rotation with hkeep | ⟨account, hjoin⟩ | ⟨accounts, hleave⟩
  · constructor
    · rw [hkeep]
      exact hswept.dense
    · rw [hkeep, hcursor]
      exact hswept.swept
  · constructor
    · rw [hjoin]
      exact hswept.dense.join hroom account
    · rw [hjoin, hcursor]
      exact hswept.swept.join hroom account
  · have hahead : ∀ account ∈ accounts, ∀ slot,
        s.gate.rotation.slotOf.get account = some slot → s.observer.scanCursor ≤ slot := by
      intro account haccount slot hslot
      apply hkeeps.ahead account slot hslot
      have hgone : (s.step cfg op).gate.rotation.slotOf.get account = none := by
        rw [hleave]
        exact hswept.dense.leaveAll_slotOf (Or.inl haccount)
      have hgone' : (s.step cfg op).gate.scanSlotOf.get account = none := hgone
      simp [Runtime.Enrolled, hgone']
    obtain ⟨hdense, hleft⟩ := hswept.swept.leaveAll hswept.dense hahead
    rw [← hleave] at hdense hleft
    exact ⟨hdense, by rwa [hcursor]⟩

theorem SweptBy.observe {args : ObserveArgs} {seen : AccountId → Prop}
    (hdense : s.gate.rotation.Dense) (hargs : op.observation cfg s = some args)
    (hcursor : s.gate.rotation.Swept (s.step cfg op).observer.scanCursor seen)
    (hseen : ∀ account, seen account → ∃ window ∈ windows, account ∈ window) :
    SweptBy windows (s.step cfg op) := by
  have hgate : (s.step cfg op).gate = s.gate := by
    rw [op.step_observation hargs, Runtime.observe_gate]
  constructor
  · rwa [hgate]
  · rw [hgate]
    exact hcursor.mono hseen

theorem SweptBy.step (hswept : SweptBy windows s) (hkeeps : KeepsSweep cfg s op)
    (hstamps : op.stamps cfg s = false) :
    SweptBy (windows ++ (op.scanned cfg s).toList) (s.step cfg op) := by
  cases hargs : op.observation cfg s with
  | none =>
    have hkept := hswept.quiet hkeeps (op.frontier_of_none hargs).scanCursor
    simpa [Op.scanned, hargs] using hkept
  | some args =>
    cases haccepts : s.accepts cfg args.reference with
    | false =>
      rw [op.step_observation hargs, observe_rejected haccepts]
      exact hswept.mono (List.subset_append_left _ _)
    | true =>
      have hcursor := observe_scanCursor haccepts
      rw [← op.step_observation hargs] at hcursor
      have hscanned : op.scanned cfg s =
          some (s.gate.scanWindow s.observer.scanCursor cfg.maxScanned) := by
        simp [Op.scanned, hargs, haccepts]
      rw [hscanned, Option.toList_some]
      by_cases hdrained : scopedAxesDrained cfg args
      · have hnext : s.observer.scanCursor <
            s.gate.nextScanCursor s.observer.scanCursor cfg.maxScanned := by
          simpa [Op.stamps, hargs, haccepts, hdrained] using hstamps
        rw [if_pos hdrained] at hcursor
        have hadvanced := hswept.swept.advance hswept.dense hkeeps.width.le hnext
        apply SweptBy.observe hswept.dense hargs (by rw [hcursor]; exact hadvanced)
        rintro account (⟨window, hwindow, hmem⟩ | hmem)
        · exact ⟨window, List.mem_append_left _ hwindow, hmem⟩
        · exact ⟨_, List.mem_append_right _ (List.mem_singleton_self _), hmem⟩
      · rw [if_neg hdrained] at hcursor
        apply SweptBy.observe hswept.dense hargs (by rw [hcursor]; exact hswept.swept)
        rintro account ⟨window, hwindow, hmem⟩
        exact ⟨window, List.mem_append_left _ hwindow, hmem⟩

theorem SweptBy.stamp (hswept : SweptBy windows s) (hbudget : 0 < cfg.maxScanned)
    (hkeeps : KeepsSweep cfg s op) (hstamps : op.stamps cfg s = true) :
    (∀ account, s.Enrolled account →
      ∃ window ∈ windows ++ (op.scanned cfg s).toList, account ∈ window) ∧
    SweptBy (op.scanned cfg s).toList (s.step cfg op) := by
  cases hargs : op.observation cfg s with
  | none => simp [Op.stamps, hargs] at hstamps
  | some args =>
    simp only [Op.stamps, hargs, Bool.and_eq_true, decide_eq_true_eq] at hstamps
    obtain ⟨⟨haccepts, hdrained⟩, hnext⟩ := hstamps
    have hscanned : op.scanned cfg s =
        some (s.gate.scanWindow s.observer.scanCursor cfg.maxScanned) := by
      simp [Op.scanned, hargs, haccepts]
    have hcursor : (s.step cfg op).observer.scanCursor =
        s.gate.nextScanCursor s.observer.scanCursor cfg.maxScanned := by
      rw [op.step_observation hargs, observe_scanCursor haccepts, if_pos hdrained]
    obtain ⟨hall, hbegun⟩ :=
      hswept.swept.wrap hswept.dense hbudget hkeeps.width.le hnext
    rw [hscanned, Option.toList_some]
    constructor
    · intro account henrolled
      obtain ⟨slot, hslot⟩ := Option.isSome_iff_exists.mp henrolled
      rcases hall account slot hslot with ⟨window, hwindow, hmem⟩ | hmem
      · exact ⟨window, List.mem_append_left _ hwindow, hmem⟩
      · exact ⟨_, List.mem_append_right _ (List.mem_singleton_self _), hmem⟩
    · apply SweptBy.observe hswept.dense hargs (by rw [hcursor]; exact hbegun)
      intro account hmem
      exact ⟨_, List.mem_singleton_self _, hmem⟩

end Step

section Run

variable {cfg : Config} {s : Runtime} {ops : List Op} {windows : List (List AccountId)}

theorem SweptBy.run (hswept : SweptBy windows s)
    (halong : Along (Runtime.step cfg) (KeepsSweep cfg) s ops)
    (hnone : sweepStamps cfg s ops = 0) :
    SweptBy (windows ++ windowsScanned cfg s ops) (s.run cfg ops) := by
  induction ops generalizing s windows with
  | nil => simpa [windowsScanned, Runtime.run] using hswept
  | cons op ops ih =>
    obtain ⟨hkeeps, hrest⟩ := halong
    simp only [sweepStamps, Nat.add_eq_zero_iff, Bool.toNat_eq_zero] at hnone
    have hnext := ih (hswept.step hkeeps hnone.1) hrest hnone.2
    rwa [List.append_assoc] at hnext

theorem SweptBy.reach (hbudget : 0 < cfg.maxScanned) (hswept : SweptBy windows s)
    (halong : Along (Runtime.step cfg) (KeepsSweep cfg) s ops) :
    ∃ windows', SweptBy windows' (s.run cfg ops) := by
  induction ops generalizing s windows with
  | nil => exact ⟨windows, hswept⟩
  | cons op ops ih =>
    obtain ⟨hkeeps, hrest⟩ := halong
    cases hstamps : op.stamps cfg s with
    | false => exact ih (hswept.step hkeeps hstamps) hrest
    | true => exact ih (hswept.stamp hbudget hkeeps hstamps).2 hrest

theorem SweptBy.complete (hbudget : 0 < cfg.maxScanned) (hswept : SweptBy windows s) {op : Op}
    (halong : Along (Runtime.step cfg) (KeepsSweep cfg) s (ops ++ [op]))
    (hnone : sweepStamps cfg s ops = 0) (hstamps : op.stamps cfg (s.run cfg ops) = true)
    {account : AccountId} (henrolled : (s.run cfg ops).Enrolled account) :
    ∃ window ∈ windows ++ windowsScanned cfg s (ops ++ [op]), account ∈ window := by
  obtain ⟨hops, hop, -⟩ := Along.append_iff.mp halong
  have hcovered := (hswept.run hops hnone).stamp hbudget hop hstamps
  rw [windowsScanned_append, ← List.append_assoc]
  simpa only [windowsScanned, List.append_nil] using hcovered.1 account henrolled

end Run

/-- From a dense rotation scanned from its start, the coverage clock is right
in every run in which accounts leave the rotation only ahead of the cursor. -/
theorem coverageClock_of_keepsSweep (cfg : Config) (start : Runtime) (ops : List Op)
    (hbudget : 0 < cfg.maxScanned) (hdense : start.gate.rotation.Dense)
    (hcursor : start.observer.scanCursor = 0)
    (halong : Along (Runtime.step cfg) (KeepsSweep cfg) start ops) :
    CoverageClock cfg start ops := by
  have hstart : SweptBy [] start := by
    refine ⟨hdense, ?_⟩
    rw [hcursor]
    exact ⟨Nat.zero_le _, fun _ hlt => absurd hlt (Nat.not_lt_zero _)⟩
  constructor
  · intro before op after account hops hnone hstamps _ henrolled
    rw [hops, List.append_cons] at halong
    exact hstart.complete hbudget (Along.append_iff.mp halong).1 hnone hstamps henrolled
  · intro before stamp between op after account hops hstamp hnone hstamps _ henrolled
    have hsplit : ops = (before ++ [stamp]) ++ ((between ++ [op]) ++ after) := by
      simp [hops]
    rw [hsplit, Along.append_iff] at halong
    obtain ⟨hbefore, hlater⟩ := halong
    obtain ⟨hreach, hkeeps, -⟩ := Along.append_iff.mp hbefore
    obtain ⟨windows, hswept⟩ := hstart.reach hbudget hreach
    have hbegun := (hswept.stamp hbudget hkeeps hstamp).2
    have hstep : start.run cfg (before ++ [stamp]) =
        (start.run cfg before).step cfg stamp := run_concat start before stamp
    have hlast : start.run cfg (before ++ stamp :: between) =
        ((start.run cfg before).step cfg stamp).run cfg between := by
      rw [List.append_cons, ← hstep]
      exact run_append start (before ++ [stamp]) between
    rw [hlast] at hstamps henrolled
    rw [hstep] at hnone
    have hbetween : Along (Runtime.step cfg) (KeepsSweep cfg)
        ((start.run cfg before).step cfg stamp) (between ++ [op]) := by
      rw [← hstep]
      exact (Along.append_iff.mp hlater).1
    exact hbegun.complete hbudget hbetween hnone hstamps henrolled

def oneScanned : Config := { Config.toy with maxScanned := 1 }

def emptySnapshot : CardanoObservation := ⟨⟨10, 0⟩, 0, [], [], []⟩

def fiveBound : List Op :=
  [.nextBlock 0,
    .call .none (.gate (.linkIdentitySigned ⟨[1, 5], []⟩)),
    .call .none (.gate (.linkIdentitySigned ⟨[2, 6], []⟩)),
    .call .none (.gate (.linkIdentitySigned ⟨[3, 7], []⟩)),
    .call .none (.gate (.linkIdentitySigned ⟨[4, 8], []⟩)),
    .call .none (.gate (.linkIdentitySigned ⟨[5, 9], []⟩))]

/-- Four blocks scan the first four slots; the last two accounts are revoked,
and the next block scans the second slot and stamps. -/
def shrunkSweep : List Op :=
  fiveBound ++ List.replicate 4 (.inherent emptySnapshot) ++
    [.call .authority (.gate (.revokeMany [⟨5⟩, ⟨4⟩])), .inherent emptySnapshot,
      .inherent emptySnapshot]

/-- A rotation that shrank below its cursor stamps two sweeps in a row, and the
second left out the account in the first slot. -/
theorem shrunkRotation_stamps_early : ¬ CoverageClock oneScanned .genesis shrunkSweep := by
  intro hclock
  have hcovered := hclock.next
    (fiveBound ++ List.replicate 4 (.inherent emptySnapshot) ++
      [.call .authority (.gate (.revokeMany [⟨5⟩, ⟨4⟩]))])
    (.inherent emptySnapshot) [] (.inherent emptySnapshot) [] ⟨1⟩ rfl
    (by decide +kernel) (by decide +kernel) (by decide +kernel)
    (by decide +kernel) (by decide +kernel)
  exact absurd hcovered (by decide +kernel)

def tailRevoked : List Op :=
  fiveBound ++ [.inherent emptySnapshot, .call .authority (.gate (.revoke ⟨5⟩))] ++
    List.replicate 3 (.inherent emptySnapshot)

theorem coverageClock_of_keepsSweep_tailRevoked :
    sweepStamps oneScanned .genesis tailRevoked = 1 ∧
      CoverageClock oneScanned .genesis tailRevoked := by
  exact ⟨by decide +kernel,
    coverageClock_of_keepsSweep _ _ _ (by decide) .empty rfl (by decide +kernel)⟩

end CognoChain
