import CognoChain.Ledger.Regression
import CognoChain.Model.Block
import CognoChain.Substrate.Latch

/-!
# The stall alarm

The alarm is a latch with a clock.  A hook at the start of a block sets it when
the last applied observation is too long ago, and an applied observation clears
it; nothing else of the runtime touches the latch, the clock or the condition
that arms it.  The runtime therefore runs as the small machine below, whose
signals alternate.
-/

namespace CognoChain

open Substrate

def Alarm.sets : Alarm → Bool
  | stalled _ _ => true
  | resumed _ => false

/-! ## The alarm as a machine of its own -/

/-- The alarm's clock, its latch, whether it is armed, and what it announced in
the current block. -/
structure StallClock where
  now : ℕ
  lastAppliedAt : ℕ
  armed : Bool
  stalled : Bool
  alarms : List Alarm

namespace StallClock

def tick (stallAfter : ℕ) (c : StallClock) : StallClock :=
  let next := { c with now := c.now + 1, alarms := [] }
  if c.lastAppliedAt = 0 then { next with lastAppliedAt := next.now }
  else if next.now - c.lastAppliedAt ≤ stallAfter ∨ c.stalled = true ∨ c.armed = false then next
  else
    { next with
      stalled := true
      alarms := [.stalled c.lastAppliedAt (next.now - c.lastAppliedAt)] }

def apply (c : StallClock) : StallClock :=
  { now := c.now
    lastAppliedAt := c.now
    armed := true
    stalled := false
    alarms := c.alarms ++ if c.stalled then [.resumed (c.now - c.lastAppliedAt)] else [] }

/-- The clock against the block of the last applied observation: the latch is
set exactly while that block is more than `stallAfter` behind. -/
def Tracks (stallAfter : ℕ) (c : StallClock) : Option ℕ → Prop
  | none => c.armed = false ∧ c.stalled = false
  | some last => c.armed = true ∧ c.lastAppliedAt = last ∧ 0 < last ∧ last ≤ c.now ∧
      c.stalled = decide (stallAfter < c.now - last)

variable {stallAfter : ℕ} {c : StallClock}

theorem tick_of_fresh (hfresh : c.lastAppliedAt = 0) :
    c.tick stallAfter =
      { c with now := c.now + 1, lastAppliedAt := c.now + 1, alarms := [] } := by
  rw [tick, if_pos hfresh]

theorem tick_of_quiet (hstarted : c.lastAppliedAt ≠ 0)
    (hquiet : c.now + 1 - c.lastAppliedAt ≤ stallAfter ∨ c.stalled = true ∨ c.armed = false) :
    c.tick stallAfter = { c with now := c.now + 1, alarms := [] } := by
  rw [tick, if_neg hstarted, if_pos hquiet]

theorem tick_of_due (hstarted : c.lastAppliedAt ≠ 0)
    (hdue : ¬ (c.now + 1 - c.lastAppliedAt ≤ stallAfter ∨ c.stalled = true ∨ c.armed = false)) :
    c.tick stallAfter =
      { c with
        now := c.now + 1
        stalled := true
        alarms := [.stalled c.lastAppliedAt (c.now + 1 - c.lastAppliedAt)] } := by
  rw [tick, if_neg hstarted, if_neg hdue]

theorem mem_apply_alarms {n blocks : ℕ} :
    Alarm.stalled n blocks ∈ c.apply.alarms ↔ Alarm.stalled n blocks ∈ c.alarms := by
  unfold apply
  split_ifs <;> simp

theorem Tracks.apply (hnow : 0 < c.now) : c.apply.Tracks stallAfter (some c.now) := by
  refine ⟨rfl, rfl, hnow, le_rfl, ?_⟩
  simp [StallClock.apply]

/-- A block announces a stall exactly when it is the first one past the limit. -/
theorem Tracks.tick {last : Option ℕ} (h : c.Tracks stallAfter last) :
    (c.tick stallAfter).Tracks stallAfter last ∧
      ∀ alarm, alarm ∈ (c.tick stallAfter).alarms ↔
        ∃ n, last = some n ∧ c.now + 1 = n + (stallAfter + 1) ∧
          alarm = .stalled n (stallAfter + 1) := by
  cases last with
  | none =>
    obtain ⟨hunarmed, hcleared⟩ := h
    by_cases hfresh : c.lastAppliedAt = 0
    · rw [tick_of_fresh hfresh]
      exact ⟨⟨hunarmed, hcleared⟩, by simp⟩
    · rw [tick_of_quiet hfresh (Or.inr (Or.inr hunarmed))]
      exact ⟨⟨hunarmed, hcleared⟩, by simp⟩
  | some n =>
    obtain ⟨harmed, rfl, hpos, hle, hstalled⟩ := h
    have hlatched : c.stalled = true ↔ stallAfter < c.now - c.lastAppliedAt := by
      rw [hstalled, decide_eq_true_eq]
    have hlater : c.lastAppliedAt ≤ c.now + 1 := Nat.le_succ_of_le hle
    have hstarted : c.lastAppliedAt ≠ 0 := Nat.pos_iff_ne_zero.mp hpos
    by_cases hquiet : c.now + 1 - c.lastAppliedAt ≤ stallAfter ∨ c.stalled = true ∨
        c.armed = false
    · -- nothing to announce: still in time, or announced before
      rw [tick_of_quiet hstarted hquiet]
      have hkept : (stallAfter < c.now - c.lastAppliedAt ↔
            stallAfter < c.now + 1 - c.lastAppliedAt) ∧
          c.now + 1 ≠ c.lastAppliedAt + (stallAfter + 1) := by
        rcases hquiet with hearly | hlate | hunarmed
        · omega
        · have hover := hlatched.mp hlate
          omega
        · rw [harmed] at hunarmed
          cases hunarmed
      refine ⟨⟨harmed, rfl, hpos, hlater, hstalled.trans (decide_eq_decide.mpr hkept.1)⟩,
        fun alarm => ?_⟩
      simp only [List.not_mem_nil, Option.some.injEq, false_iff, not_exists, not_and]
      rintro n rfl hdue
      exact absurd hdue hkept.2
    · rw [tick_of_due hstarted hquiet]
      have hintime : ¬ stallAfter < c.now - c.lastAppliedAt :=
        fun hover => hquiet (Or.inr (Or.inl (hlatched.mpr hover)))
      have hdue : stallAfter < c.now + 1 - c.lastAppliedAt :=
        Nat.lt_of_not_le fun hearly => hquiet (Or.inl hearly)
      have hgap : c.now + 1 - c.lastAppliedAt = stallAfter + 1 := by omega
      refine ⟨⟨harmed, rfl, hpos, hlater, (decide_eq_true hdue).symm⟩, fun alarm => ?_⟩
      rw [List.mem_singleton, hgap]
      constructor
      · intro halarm
        exact ⟨c.lastAppliedAt, rfl, by omega, halarm⟩
      · rintro ⟨n, hn, -, halarm⟩
        rw [halarm, Option.some.inj hn]

variable {log : List Bool}

/-- What the alarm has signalled, up to and including the current block. -/
def Signalled (log : List Bool) (c : StallClock) : Prop :=
  Signals (log ++ c.alarms.map Alarm.sets) c.stalled

theorem Signalled.tick (h : Signals log c.stalled) (stallAfter : ℕ) :
    (c.tick stallAfter).Signalled log := by
  by_cases hfresh : c.lastAppliedAt = 0
  · rw [tick_of_fresh hfresh]
    simpa [Signalled] using h
  by_cases hquiet : c.now + 1 - c.lastAppliedAt ≤ stallAfter ∨ c.stalled = true ∨ c.armed = false
  · rw [tick_of_quiet hfresh hquiet]
    simpa [Signalled] using h
  · rw [tick_of_due hfresh hquiet]
    have hcleared : c.stalled = false := by
      cases hstalled : c.stalled with
      | false => rfl
      | true => exact absurd (Or.inr (Or.inl hstalled)) hquiet
    rw [hcleared] at h
    exact h.set

theorem Signalled.apply (h : c.Signalled log) : c.apply.Signalled log := by
  unfold Signalled StallClock.apply at *
  dsimp only
  cases hstalled : c.stalled with
  | false =>
    rw [hstalled] at h
    simpa using h
  | true =>
    rw [hstalled] at h
    simpa [Alarm.sets] using h.clear

end StallClock

/-! ## The runtime's alarm -/

namespace Runtime

variable {cfg : Config} {s after : Runtime} {origin : Origin} {op : Op} {last : Option ℕ}
  {log : List Bool}

def stallClock (s : Runtime) : StallClock where
  now := s.blockNumber
  lastAppliedAt := s.observer.lastAppliedAt
  armed := s.observer.lastReference.isSome || decide (s.observer.pendingChanges ≠ 0)
  stalled := s.observer.stalled
  alarms := s.events.filterMap Event.alarm

theorem deposit_stallClock {event : Event} (hquiet : event.alarm = none) :
    (s.deposit event).stallClock = s.stallClock := by
  have halarms : (s.events ++ [event]).filterMap Event.alarm = s.events.filterMap Event.alarm := by
    simp [List.filterMap_append, hquiet]
  exact congrArg (fun alarms => { s.stallClock with alarms := alarms }) halarms

theorem nextBlock_stallClock (unixSecs : ℕ) :
    (s.nextBlock cfg unixSecs).stallClock = s.stallClock.tick cfg.stallAfter := by
  have harmed : s.stallClock.armed = false ↔
      s.observer.lastReference = none ∧ s.observer.pendingChanges = 0 := by
    simp [stallClock]
  unfold nextBlock observerOnInitialize
  dsimp only
  split_ifs with hfresh hearly hlatched hunarmed
  · rw [StallClock.tick_of_fresh hfresh]
    rfl
  · rw [StallClock.tick_of_quiet hfresh (Or.inl hearly)]
    rfl
  · rw [StallClock.tick_of_quiet hfresh (Or.inr (Or.inl hlatched))]
    rfl
  · rw [StallClock.tick_of_quiet hfresh (Or.inr (Or.inr (harmed.mpr hunarmed)))]
    rfl
  · rw [StallClock.tick_of_due hfresh]
    · rfl
    · rintro (hquiet | hquiet | hquiet)
      · exact hearly hquiet
      · exact hlatched hquiet
      · exact hunarmed (harmed.mp hquiet)

/-! ### What leaves the alarm alone -/

theorem LedgerWrite.stallClock (h : s.LedgerWrite after) : after.stallClock = s.stallClock := by
  cases h with
  | deposit hquiet => exact deposit_stallClock hquiet
  | power who weight =>
    unfold setVotingPower
    split
    · rfl
    · exact deposit_stallClock rfl
  | badges who roles =>
    unfold applyRoles
    split
    · rfl
    · exact deposit_stallClock rfl
  | drop who =>
    unfold dropObservedBadges
    split
    · exact deposit_stallClock (s := { s with roles := _ }) rfl
    · rfl
  | _ => rfl

theorem LedgerWrites.stallClock (h : s.LedgerWrites after) : after.stallClock = s.stallClock :=
  reach_invariant (fun after : Runtime => after.stallClock = s.stallClock)
    (fun _ _ hwrite hbefore => hwrite.stallClock.trans hbefore) h rfl

theorem WritesSocial.stallClock (h : s.WritesSocial after) : after.stallClock = s.stallClock := by
  obtain ⟨feed, ballots, graph, polls, profile, new, rfl, hnew⟩ := h
  have hquiet : ∀ event ∈ new, event.alarm = none := by
    intro event hmem
    have hsocial := hnew event hmem
    cases event <;> first | rfl | cases hsocial
  have halarms : (s.events ++ new).filterMap Event.alarm = s.events.filterMap Event.alarm := by
    rw [List.filterMap_append, List.filterMap_eq_nil_iff.mpr hquiet, List.append_nil]
  exact congrArg (fun alarms => { s.stallClock with alarms := alarms }) halarms

theorem dispatchMicroblog_stallClock {call : MicroblogCall}
    (h : s.dispatchMicroblog cfg origin call = .ok after) : after.stallClock = s.stallClock := by
  unfold dispatchMicroblog at h
  split at h
  · exact (dispatchSignedMicroblog_writes h).social.stallClock
  · rw [← Except.ok.inj h, forceSetCapacity, deposit_stallClock rfl]
    exact (LedgerWrites.onFirstBind _).stallClock
  · cases h

/-! ### Observations -/

theorem settleFrontier_stallClock (reference : CardanoRef) (pending : ℕ) :
    (s.settleFrontier reference pending).stallClock = { s.stallClock with armed := true } := by
  unfold settleFrontier
  dsimp only
  split_ifs with hdrained
  · rfl
  · rw [deposit_stallClock rfl]
    simp [stallClock, hdrained]

theorem advanceScan_stallClock (args : ObserveArgs) :
    (s.advanceScan cfg args).stallClock = s.stallClock := by
  unfold advanceScan
  split_ifs <;> rfl

theorem stampApplied_stallClock (harmed : s.stallClock.armed = true) :
    s.stampApplied.stallClock = s.stallClock.apply := by
  unfold stampApplied StallClock.apply
  cases hstalled : s.observer.stalled with
  | false =>
    have hcleared : s.stallClock.stalled = false := hstalled
    simp only [hcleared, Bool.false_eq_true, if_false, List.append_nil]
    rw [← harmed, ← hcleared]
    rfl
  | true =>
    have hlatched : s.stallClock.stalled = true := hstalled
    simp only [hlatched, if_true]
    rw [← harmed]
    simp only [stallClock, deposit, List.filterMap_append]
    rfl

theorem observe_stallClock {args : ObserveArgs} (haccepts : s.accepts cfg args.reference) :
    (s.observe cfg args).stallClock = s.stallClock.apply := by
  simp only [observe, haccepts, if_true]
  rw [deposit_stallClock rfl, deposit_stallClock rfl, deposit_stallClock rfl,
    stampApplied_stallClock, advanceScan_stallClock, settleFrontier_stallClock,
    LedgerWrites.stallClock (.applyChanges args)]
  · rfl
  · rw [advanceScan_stallClock, settleFrontier_stallClock]

def applies (cfg : Config) (s : Runtime) (op : Op) : Bool :=
  (op.observation cfg s).any (fun args => s.accepts cfg args.reference)

theorem execute_stallClock {call : RuntimeCall}
    (hobserve : ∀ args, call = .observer (.observe args) → origin ≠ .none) :
    (s.execute cfg origin call).stallClock = s.stallClock := by
  unfold execute
  split
  next after hok =>
    cases call with
    | microblog call => exact dispatchMicroblog_stallClock hok
    | profile call => exact (dispatchProfile_writes hok).stallClock
    | gate call => exact LedgerWrites.stallClock (.dispatchGate hok)
    | roles call => exact LedgerWrites.stallClock (.dispatchRoles hok)
    | observer call =>
      cases call with
      | observe args =>
        cases origin with
        | none => exact absurd rfl (hobserve args rfl)
        | signed who => cases hok
        | authority => cases hok
      | setEnforcement enabled =>
        cases origin with
        | authority =>
          rw [← Except.ok.inj hok]
          exact deposit_stallClock rfl
        | signed who => cases hok
        | none => cases hok
  next => rfl

theorem postDispatch_stallClock (pre : Pre) :
    (s.postDispatch cfg pre).stallClock = s.stallClock := by
  unfold postDispatch
  split <;> rfl

theorem step_stallClock (cfg : Config) (s : Runtime) (hop : op.isTick = false) :
    (s.step cfg op).stallClock =
      if s.applies cfg op then s.stallClock.apply else s.stallClock := by
  cases hargs : op.observation cfg s with
  | some args =>
    rw [op.step_observation hargs, applies, hargs, Option.any_some]
    cases haccepts : s.accepts cfg args.reference with
    | true => exact observe_stallClock haccepts
    | false => rw [observe_rejected haccepts]; rfl
  | none =>
    have hnone : s.applies cfg op = false := by rw [applies, hargs]; rfl
    rw [hnone]
    cases op with
    | nextBlock unixSecs => cases hop
    | inherent obs => cases hargs
    | call origin call =>
      apply execute_stallClock
      rintro args rfl rfl
      cases hargs
    | extrinsic who call len =>
      cases hcheck : s.checkCapacity cfg (.signed who) call len with
      | error e =>
        simp only [step, applyExtrinsic, hcheck]
        rfl
      | ok pre =>
        simp only [step, applyExtrinsic, hcheck]
        rw [postDispatch_stallClock]
        exact execute_stallClock (by simp)

theorem step_blockNumber (cfg : Config) (s : Runtime) (hop : op.isTick = false) :
    (s.step cfg op).blockNumber = s.blockNumber := by
  have hnow : (s.step cfg op).stallClock.now = s.stallClock.now := by
    rw [step_stallClock cfg s hop]
    split_ifs <;> rfl
  exact hnow

/-! ## Runs of blocks -/

def appliesAny (cfg : Config) : Runtime → List Op → Bool
  | _, [] => false
  | s, op :: ops => s.applies cfg op || appliesAny cfg (s.step cfg op) ops

def appliedBlock (cfg : Config) (s : Runtime) (block : Block) : Option ℕ :=
  let started := s.nextBlock cfg block.unixSecs
  if started.appliesAny cfg block.body then some started.blockNumber else none

def appliedBlocks (cfg : Config) : Runtime → List Block → List ℕ
  | _, [] => []
  | s, block :: blocks =>
      (s.appliedBlock cfg block).toList ++ appliedBlocks cfg (s.execBlock cfg block) blocks

theorem appliedBlocks_concat (blocks : List Block) (block : Block) :
    appliedBlocks cfg s (blocks ++ [block]) = appliedBlocks cfg s blocks ++
      ((s.runBlocks cfg blocks).appliedBlock cfg block).toList := by
  induction blocks generalizing s with
  | nil => simp [appliedBlocks, runBlocks]
  | cons first blocks ih =>
    rw [List.cons_append, appliedBlocks, ih, ← List.append_assoc]
    rfl

theorem chainEvents_concat (blocks : List Block) (block : Block) :
    chainEvents cfg s (blocks ++ [block]) = chainEvents cfg s blocks ++
      ((s.runBlocks cfg blocks).execBlock cfg block).events := by
  induction blocks generalizing s with
  | nil => simp [chainEvents, runBlocks]
  | cons first blocks ih =>
    rw [List.cons_append, chainEvents, ih, ← List.append_assoc]
    rfl

theorem run_stallClock {ops : List Op} (hops : ∀ op ∈ ops, op.isTick = false)
    (hnow : 0 < s.blockNumber) (htracks : s.stallClock.Tracks cfg.stallAfter last)
    (hlog : s.stallClock.Signalled log) :
    let after := s.run cfg ops
    let last' := if s.appliesAny cfg ops then some s.blockNumber else last
    after.stallClock.Tracks cfg.stallAfter last' ∧ after.stallClock.Signalled log ∧
      after.blockNumber = s.blockNumber ∧
      ∀ n blocks, Alarm.stalled n blocks ∈ after.stallClock.alarms ↔
        Alarm.stalled n blocks ∈ s.stallClock.alarms := by
  induction ops generalizing s last with
  | nil => exact ⟨htracks, hlog, rfl, fun n blocks => Iff.rfl⟩
  | cons op ops ih =>
    obtain ⟨hop, hrest⟩ := List.forall_mem_cons.mp hops
    have hstep := step_stallClock cfg s hop
    have hnumber : (s.step cfg op).blockNumber = s.blockNumber := step_blockNumber cfg s hop
    cases happlies : s.applies cfg op with
    | false =>
      have hsame : (s.step cfg op).stallClock = s.stallClock := by
        rw [hstep, happlies]
        rfl
      have hafter := ih hrest (hnumber ▸ hnow) (hsame ▸ htracks) (hsame ▸ hlog)
      simp only [hnumber, hsame] at hafter
      simp only [appliesAny, happlies, Bool.false_or]
      exact hafter
    | true =>
      have happly : (s.step cfg op).stallClock = s.stallClock.apply := by
        rw [hstep, happlies]
        rfl
      have hafter := ih hrest (hnumber ▸ hnow)
        (happly ▸ StallClock.Tracks.apply hnow) (happly ▸ hlog.apply)
      simp only [hnumber, happly] at hafter
      simp only [appliesAny, happlies, Bool.true_or, if_true]
      obtain ⟨htracks', hlog', hnumber', hmem⟩ := hafter
      refine ⟨?_, hlog', hnumber', fun n blocks => (hmem n blocks).trans ?_⟩
      · have hlast : (if (s.step cfg op).appliesAny cfg ops = true then some s.blockNumber
            else some s.stallClock.now) = some s.blockNumber := ite_self _
        exact hlast ▸ htracks'
      · rw [StallClock.mem_apply_alarms]

theorem nextBlock_blockNumber (unixSecs : ℕ) :
    (s.nextBlock cfg unixSecs).blockNumber = s.blockNumber + 1 := by
  unfold nextBlock observerOnInitialize
  dsimp only
  split_ifs <;> rfl

/-- A block announces a stall exactly when it is the first one past the limit,
and moves the block of the last applied observation when it applies one. -/
theorem execBlock_stallClock (htracks : s.stallClock.Tracks cfg.stallAfter last)
    (hlog : Signals log s.stallClock.stalled) (block : Block) :
    let after := s.execBlock cfg block
    after.stallClock.Tracks cfg.stallAfter ((s.appliedBlock cfg block).or last) ∧
      after.stallClock.Signalled log ∧
      ∀ n blocks, Alarm.stalled n blocks ∈ after.stallClock.alarms ↔
        last = some n ∧ s.blockNumber + 1 = n + blocks ∧ blocks = cfg.stallAfter + 1 := by
  have hclock : (s.nextBlock cfg block.unixSecs).stallClock = s.stallClock.tick cfg.stallAfter :=
    nextBlock_stallClock block.unixSecs
  obtain ⟨hticked, hannounced⟩ := htracks.tick
  have hnow : 0 < (s.nextBlock cfg block.unixSecs).blockNumber := by
    rw [nextBlock_blockNumber]
    exact Nat.succ_pos _
  have hstarted := run_stallClock block.inBlock hnow (hclock ▸ hticked)
    (hclock ▸ StallClock.Signalled.tick hlog cfg.stallAfter)
  obtain ⟨htracks', hlog', -, hmem⟩ := hstarted
  refine ⟨?_, hlog', fun n blocks => (hmem n blocks).trans ?_⟩
  · unfold appliedBlock
    dsimp only
    split_ifs at htracks' ⊢ <;> exact htracks'
  · rw [hclock, hannounced]
    constructor
    · rintro ⟨m, hlast, hdue, halarm⟩
      cases halarm
      exact ⟨hlast, hdue, rfl⟩
    · rintro ⟨hlast, hdue, rfl⟩
      exact ⟨n, hlast, hdue, rfl⟩

theorem runBlocks_stallClock (cfg : Config) (blocks : List Block) :
    let s := genesis.runBlocks cfg blocks
    s.stallClock.Tracks cfg.stallAfter (appliedBlocks cfg genesis blocks).getLast? ∧
      Signals (((chainEvents cfg genesis blocks).filterMap Event.alarm).map Alarm.sets)
        s.stallClock.stalled := by
  induction blocks using List.reverseRecOn with
  | nil => exact ⟨⟨rfl, rfl⟩, .nil⟩
  | append_singleton blocks block ih =>
    obtain ⟨htracks, hlog⟩ := ih
    obtain ⟨htracks', hlog', -⟩ := execBlock_stallClock htracks hlog block
    have hrun : genesis.runBlocks cfg (blocks ++ [block]) =
        (genesis.runBlocks cfg blocks).execBlock cfg block := run_concat _ blocks block
    rw [hrun, appliedBlocks_concat, chainEvents_concat, List.getLast?_append,
      List.filterMap_append, List.map_append]
    refine ⟨?_, hlog'⟩
    convert htracks' using 2
    cases (genesis.runBlocks cfg blocks).appliedBlock cfg block <;> rfl

end Runtime

theorem mem_alarms_iff {events : List Event} {n blocks : ℕ} :
    Alarm.stalled n blocks ∈ events.filterMap Event.alarm ↔
      Event.observationStalled n blocks ∈ events := by
  rw [List.mem_filterMap]
  constructor
  · rintro ⟨event, hmem, halarm⟩
    cases event <;> cases halarm
    exact hmem
  · exact fun hmem => ⟨_, hmem, rfl⟩

/-- The alarm's events over any chain of blocks.  They alternate, the first one
announcing a stall.  A block announces a stall exactly when it is the first one
more than the limit behind the last block that applied an observation.  Within
a block nothing but an applied observation moves the latch or announces
anything. -/
theorem stall_alarm_alternates (cfg : Config) (blocks : List Block) :
    let s := Runtime.genesis.runBlocks cfg blocks
    let alarms := (Runtime.chainEvents cfg .genesis blocks).filterMap Event.alarm
    (alarms.map Alarm.sets).IsChain (· ≠ ·) ∧ (alarms.map Alarm.sets).head? ≠ some false ∧
      (∀ next last gap, Event.observationStalled last gap ∈ (s.execBlock cfg next).events ↔
        (Runtime.appliedBlocks cfg .genesis blocks).getLast? = some last ∧
          s.blockNumber + 1 = last + gap ∧ gap = cfg.stallAfter + 1) ∧
      ∀ (t : Runtime) (op : Op), op.isTick = false → t.applies cfg op = false →
        (t.step cfg op).observer.stalled = t.observer.stalled ∧
          (t.step cfg op).events.filterMap Event.alarm = t.events.filterMap Event.alarm := by
  intro s alarms
  obtain ⟨htracks, hlog⟩ := Runtime.runBlocks_stallClock cfg blocks
  refine ⟨hlog.alternate, hlog.starts, fun next last gap => ?_, fun t op hop hskipped => ?_⟩
  · rw [← mem_alarms_iff]
    exact (Runtime.execBlock_stallClock htracks hlog next).2.2 last gap
  · have hsame : (t.step cfg op).stallClock = t.stallClock := by
      rw [Runtime.step_stallClock cfg t hop, hskipped]
      rfl
    exact ⟨congrArg StallClock.stalled hsame, congrArg StallClock.alarms hsame⟩

def quietChain : List Block :=
  ⟨0, [.call .none (.observer (.observe ⟨⟨100, 0⟩, 0, [], [], [], 0⟩))], by decide⟩ ::
    List.replicate 50 ⟨0, [], nofun⟩

theorem stall_alarm_alternates_quietChain :
    let s := Runtime.genesis.runBlocks Config.toy quietChain
    Event.observationStalled 1 51 ∈ (s.execBlock Config.toy ⟨0, [], nofun⟩).events := by
  obtain ⟨-, -, hannounced, -⟩ := stall_alarm_alternates Config.toy quietChain
  rw [hannounced]
  decide +kernel

end CognoChain
