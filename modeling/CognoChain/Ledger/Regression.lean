import CognoChain.Ledger.Axes

/-!
# The order of applied references

The observer refuses a reference older than the last one it recorded.  It
records a reference only when the call carried its whole change set, so a call
that leaves a backlog applies changes without moving the mark the next call is
compared with.
-/

namespace CognoChain

open Substrate

/-! ## What keeps the frontier -/

structure SameFrontier (s after : Runtime) : Prop where
  lastReference : after.observer.lastReference = s.observer.lastReference
  pendingChanges : after.observer.pendingChanges = s.observer.pendingChanges
  scanCursor : after.observer.scanCursor = s.observer.scanCursor
  lastSweepAt : after.observer.lastSweepAt = s.observer.lastSweepAt

namespace SameFrontier

variable {s t after : Runtime}

theorem of_observer (h : after.observer = s.observer) : SameFrontier s after := by
  constructor <;> rw [h]

theorem of_ledgerWrites (h : s.LedgerWrites after) : SameFrontier s after := by
  obtain ⟨_, _, _, hobserver⟩ := h.observer
  constructor <;> rw [hobserver]

theorem nextBlock (cfg : Config) (unixSecs : ℕ) : SameFrontier s (s.nextBlock cfg unixSecs) := by
  unfold Runtime.nextBlock Runtime.observerOnInitialize
  dsimp only
  split_ifs <;> exact ⟨rfl, rfl, rfl, rfl⟩

end SameFrontier

variable {cfg : Config} {op : Op} {s : Runtime} {args : ObserveArgs} {slots : List ℕ}

theorem LedgerStep.frontier {after : Runtime} (hstep : LedgerStep cfg s op after) :
    SameFrontier s after ∨
      ∃ args, op.observation cfg s = some args ∧ after = s.observe cfg args := by
  rcases hstep.writes with hsame | hwrites | ⟨unixSecs, rfl⟩ | ⟨enabled, rfl⟩ | hobserved
  · exact Or.inl (.of_observer hsame.observer)
  · exact Or.inl (.of_ledgerWrites hwrites)
  · exact Or.inl (.nextBlock cfg unixSecs)
  · exact Or.inl ⟨rfl, rfl, rfl, rfl⟩
  · exact Or.inr hobserved

/-! ## Applied references -/

def Runtime.appliesChange (cfg : Config) (s : Runtime) (args : ObserveArgs) : Bool :=
  let (_, vault, stake, roles) := s.applyChanges cfg args
  s.accepts cfg args.reference && s.observer.enforceWeight &&
    decide (0 < vault.credited + vault.cleared + stake.credited + stake.cleared +
      roles.credited + roles.cleared)

def Op.appliedSlot (cfg : Config) (s : Runtime) (op : Op) : Option ℕ :=
  match op.observation cfg s with
  | some args => if s.appliesChange cfg args then some args.reference.slot else none
  | none => none

def appliedSlots (cfg : Config) : Runtime → List Op → List ℕ
  | _, [] => []
  | s, op :: ops => (op.appliedSlot cfg s).toList ++ appliedSlots cfg (s.step cfg op) ops

/-- Applied references never go back, and a call with a reference older than
an applied one writes no ledger and no basis row. -/
structure NoRegression (cfg : Config) (s : Runtime) (ops : List Op) : Prop where
  ordered : (appliedSlots cfg s ops).Pairwise (· ≤ ·)
  refused : ∀ before op after args slot, ops = before ++ op :: after →
    op.observation cfg (s.run cfg before) = some args →
    slot ∈ appliedSlots cfg s before → args.reference.slot < slot →
    SameAxes (s.run cfg before) (s.run cfg (before ++ [op]))

/-- A call that applies changes carries its whole change set, or stays at the
recorded reference. -/
def StaysAtFrontier (cfg : Config) (s : Runtime) (op : Op) : Prop :=
  ∀ args, op.observation cfg s = some args → s.appliesChange cfg args = true →
    args.pending = 0 ∨
      ∃ last, s.observer.lastReference = some last ∧ args.reference.slot = last.slot

theorem appliedSlots_append (cfg : Config) (s : Runtime) (ops ops' : List Op) :
    appliedSlots cfg s (ops ++ ops') =
      appliedSlots cfg s ops ++ appliedSlots cfg (s.run cfg ops) ops' := by
  induction ops generalizing s with
  | nil => rfl
  | cons op ops ih =>
    simp only [List.cons_append, appliedSlots, ih, List.append_assoc]
    rfl

/-- No applied slot is ahead of the recorded reference. -/
def Recorded (slots : List ℕ) (s : Runtime) : Prop :=
  ∀ slot ∈ slots, ∃ last, s.observer.lastReference = some last ∧ slot ≤ last.slot

theorem accepts_lastReference {reference last : CardanoRef}
    (haccepts : s.accepts cfg reference = true) (hlast : s.observer.lastReference = some last) :
    last.slot ≤ reference.slot := by
  simp only [Runtime.accepts, hlast, Bool.and_eq_true, decide_eq_true_eq] at haccepts
  exact haccepts.1

theorem Recorded.observe (hrecorded : Recorded slots s) : Recorded slots (s.observe cfg args) := by
  intro slot hslot
  obtain ⟨last, hlast, hle⟩ := hrecorded slot hslot
  cases haccepts : s.accepts cfg args.reference with
  | false =>
    rw [Runtime.observe_rejected haccepts]
    exact ⟨last, hlast, hle⟩
  | true =>
    obtain ⟨_, _, _, _, _, hobserver⟩ := Runtime.observe_observer haccepts
    rw [hobserver]
    have hnewer := accepts_lastReference haccepts hlast
    by_cases hpending : args.pending = 0
    · exact ⟨args.reference, by simp [hpending], hle.trans hnewer⟩
    · exact ⟨last, by simp [hpending, hlast], hle⟩

theorem accepts_of_appliesChange (happlies : s.appliesChange cfg args = true) :
    s.accepts cfg args.reference = true := by
  simp only [Runtime.appliesChange, Bool.and_eq_true] at happlies
  exact happlies.1.1

theorem recorded_of_staysAtFrontier (happlies : s.appliesChange cfg args = true)
    (hfrontier : args.pending = 0 ∨ ∃ last, s.observer.lastReference = some last ∧ args.reference.slot = last.slot) :
    Recorded [args.reference.slot] (s.observe cfg args) := by
  have hobserved := Runtime.observe_observer (accepts_of_appliesChange happlies)
  obtain ⟨_, _, _, _, _, hobserver⟩ := hobserved
  intro slot hslot
  rw [List.mem_singleton.mp hslot, hobserver]
  by_cases hpending : args.pending = 0
  · exact ⟨args.reference, by simp [hpending], le_rfl⟩
  · obtain ⟨last, hlast, hsame⟩ := hfrontier.resolve_left hpending
    exact ⟨last, by simp [hpending, hlast], hsame.le⟩

theorem Recorded.step (hrecorded : Recorded slots s) (hfrontier : StaysAtFrontier cfg s op) :
    Recorded (slots ++ (op.appliedSlot cfg s).toList) (s.step cfg op) := by
  have hkept : Recorded slots (s.step cfg op) := by
    rcases (s.step_ledgerStep op).frontier with hsame | ⟨args, -, hafter⟩
    · intro slot hslot
      rw [hsame.lastReference]
      exact hrecorded slot hslot
    · rw [hafter]
      exact hrecorded.observe
  have happlied : Recorded (op.appliedSlot cfg s).toList (s.step cfg op) := by
    unfold Op.appliedSlot
    cases hargs : op.observation cfg s with
    | none =>
      intro slot hslot
      cases hslot
    | some args =>
      by_cases happlies : s.appliesChange cfg args = true
      · have hstep : s.step cfg op = s.observe cfg args := op.step_observation hargs
        simp only [happlies, if_true, Option.toList_some]
        rw [hstep]
        exact recorded_of_staysAtFrontier happlies (hfrontier args hargs happlies)
      · intro slot hslot
        simp [happlies] at hslot
  intro slot hslot
  rcases List.mem_append.mp hslot with hold | hnew
  · exact hkept slot hold
  · exact happlied slot hnew

theorem Recorded.run {ops : List Op} (halong : Along (Runtime.step cfg) (StaysAtFrontier cfg) s ops) :
    Recorded (appliedSlots cfg s ops) (s.run cfg ops) := by
  induction ops using List.reverseRecOn with
  | nil =>
    intro slot hslot
    cases hslot
  | append_singleton ops op ih =>
    obtain ⟨hbefore, hop⟩ := Along.append_iff.mp halong
    have hlast : s.run cfg (ops ++ [op]) = (s.run cfg ops).step cfg op := run_concat s ops op
    rw [appliedSlots_append, hlast]
    have hstep := (ih hbefore).step hop.1
    simpa only [appliedSlots, List.append_nil] using hstep

theorem appliedSlot_ge {slot : ℕ} (hrecorded : Recorded slots s)
    (happlied : op.appliedSlot cfg s = some slot) :
    ∀ earlier ∈ slots, earlier ≤ slot := by
  intro earlier hearlier
  obtain ⟨last, hlast, hle⟩ := hrecorded earlier hearlier
  unfold Op.appliedSlot at happlied
  split at happlied
  next args hargs =>
    split_ifs at happlied with happlies
    rw [← Option.some.inj happlied]
    exact hle.trans (accepts_lastReference (accepts_of_appliesChange happlies) hlast)
  next => cases happlied

theorem appliedSlots_ordered {ops : List Op}
    (halong : Along (Runtime.step cfg) (StaysAtFrontier cfg) s ops) :
    (appliedSlots cfg s ops).Pairwise (· ≤ ·) := by
  induction ops using List.reverseRecOn with
  | nil => exact List.Pairwise.nil
  | append_singleton ops op ih =>
    obtain ⟨hbefore, -⟩ := Along.append_iff.mp halong
    rw [appliedSlots_append, List.pairwise_append]
    simp only [appliedSlots, List.append_nil]
    refine ⟨ih hbefore, ?_, ?_⟩
    · cases op.appliedSlot cfg (s.run cfg ops) <;> simp
    · intro earlier hearlier slot hslot
      exact appliedSlot_ge (Recorded.run hbefore) (Option.mem_toList.mp hslot) earlier hearlier

/-- Older Cardano data is never applied after newer data in a run whose
applying calls stay at the frontier. -/
theorem noRegression_of_staysAtFrontier (cfg : Config) (s : Runtime) (ops : List Op)
    (halong : Along (Runtime.step cfg) (StaysAtFrontier cfg) s ops) :
    NoRegression cfg s ops := by
  refine ⟨appliedSlots_ordered halong, ?_⟩
  intro before op after args slot hops hargs hslot holder
  rw [hops] at halong
  obtain ⟨hbefore, -⟩ := Along.append_iff.mp halong
  obtain ⟨last, hlast, hle⟩ := Recorded.run hbefore slot hslot
  have hrejected : (s.run cfg before).accepts cfg args.reference = false := by
    by_contra haccepts
    have hnewer := accepts_lastReference (Bool.not_eq_false _ ▸ haccepts) hlast
    omega
  have hkept : s.run cfg (before ++ [op]) = s.run cfg before := by
    calc s.run cfg (before ++ [op]) = (s.run cfg before).step cfg op := run_concat s before op
      _ = (s.run cfg before).observe cfg args := op.step_observation hargs
      _ = s.run cfg before := Runtime.observe_rejected hrejected
  rw [hkept]
  exact ⟨rfl, rfl, rfl, rfl, rfl⟩

def twoReads (pending : ℕ) : List Op :=
  [.call .none (.gate (.linkIdentitySigned ⟨[1, 5], []⟩)),
    .nextBlock 0,
    .call .none (.observer (.observe ⟨⟨100, 0⟩, 0, [(⟨5⟩, some 200000000)], [], [], pending⟩)),
    .call .none (.observer (.observe ⟨⟨50, 0⟩, 0, [(⟨5⟩, some 300000000)], [], [], 0⟩))]

/-- With a backlog left over, the read at slot 50 replaces the read at 100. -/
theorem backlog_regresses :
    appliedSlots Config.toy .genesis (twoReads 1) = [100, 50] ∧
      ¬ NoRegression Config.toy .genesis (twoReads 1) := by
  have hslots : appliedSlots Config.toy .genesis (twoReads 1) = [100, 50] := by decide +kernel
  refine ⟨hslots, fun hregression => ?_⟩
  have hordered := hregression.ordered
  rw [hslots] at hordered
  exact absurd hordered (by decide)

theorem noRegression_of_staysAtFrontier_twoReads :
    appliedSlots Config.toy .genesis (twoReads 0) = [100] ∧
      NoRegression Config.toy .genesis (twoReads 0) := by
  refine ⟨by decide +kernel, noRegression_of_staysAtFrontier _ _ _ ?_⟩
  refine ⟨fun args hargs => ?_, fun args hargs => ?_, fun args hargs _ => ?_,
    fun args hargs _ => ?_, trivial⟩
  · cases hargs
  · cases hargs
  · cases hargs
    exact Or.inl rfl
  · cases hargs
    exact Or.inl rfl

end CognoChain
