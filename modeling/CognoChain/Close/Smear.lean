import CognoChain.Close.Paged
import CognoChain.Ledger.Step

/-!
# Reported and silent smears

A close that spans blocks compares the change counters of the voting power and
of the badges with the values it noted on its first page.  A counter below its
maximum moves with every change, so a close that reports no smear has read one
state.  A counter at its maximum stays there, and the comparison sees nothing.
-/

namespace CognoChain

open Substrate CognoChain.Runtime

/-! ## Writes to what a tally reads -/

def Runtime.tallyView (s : Runtime) :
    (StorageMap AccountId ℕ × ℕ) × (StorageMap AccountId (List ObservedRole) × ℕ) :=
  ((s.talkStake.votingPower, s.talkStake.votingPowerSeq),
    (s.roles.observedRoles, s.roles.observedRolesSeq))

section Views

variable {s s' : Runtime}

theorem SameLedger.tallyView (h : SameLedger s s') : s'.tallyView = s.tallyView := by
  rw [Runtime.tallyView, h.talkStake, h.roles]
  rfl

theorem Runtime.WritesFrontier.tallyView (h : s.WritesFrontier s') :
    s'.tallyView = s.tallyView := by
  obtain ⟨_, _, _, _, _, _, _, _, rfl⟩ := h
  rfl

end Views

/-! ## The counters move with every change -/

/-- The counter stands at `seq` with the given readings, or has passed it. -/
def Guarded {V : Type} (seq : ℕ) (readings : AccountId → V) (default : V)
    (ledger : StorageMap AccountId V × ℕ) : Prop :=
  (ledger.2 = seq ∧ ∀ who, ledger.1.getD who default = readings who) ∨ seq < ledger.2

section Guards

variable {V : Type} {seq : ℕ} {readings : AccountId → V} {default : V} {s start : Runtime}

theorem Guarded.bump {m m' : StorageMap AccountId V} {counter : ℕ}
    (hguarded : Guarded seq readings default (m, counter)) (hseq : seq < u64Max) :
    Guarded seq readings default (m', satAdd u64Max counter 1) := by
  right
  change seq < min (counter + 1) u64Max
  rcases hguarded with ⟨hcounter, -⟩ | hpassed
  · simp only at hcounter
    omega
  · simp only at hpassed
    omega

/-- The ledgers stand as the close found them, or their counters have moved. -/
def GuardedTally (start s : Runtime) : Prop :=
  Guarded start.talkStake.votingPowerSeq start.census.power 0 s.tallyView.1 ∧
    (start.roles.observedRolesSeq < u64Max →
      Guarded start.roles.observedRolesSeq start.observedRolesOf [] s.tallyView.2)

theorem GuardedTally.refl (start : Runtime) : GuardedTally start start :=
  ⟨Or.inl ⟨rfl, fun _ => rfl⟩, fun _ => Or.inl ⟨rfl, fun _ => rfl⟩⟩

theorem GuardedTally.of_tallyView {s' : Runtime} (hguarded : GuardedTally start s)
    (hview : s'.tallyView = s.tallyView) : GuardedTally start s' := by
  unfold GuardedTally
  rw [hview]
  exact hguarded

theorem GuardedTally.ledgerWrite {s' : Runtime} (hseq : start.talkStake.votingPowerSeq < u64Max)
    (hwrite : s.LedgerWrite s') (hguarded : GuardedTally start s) : GuardedTally start s' := by
  cases hwrite with
  | power who weight =>
    unfold setVotingPower
    split
    · exact hguarded
    next hchanged =>
      refine ⟨?_, hguarded.2⟩
      have hne : weight ≠ s.talkStake.votingPower.getD who 0 := fun heq => hchanged heq.symm
      simp only [Runtime.tallyView, applyVotingPower, deposit, if_neg hne]
      exact hguarded.1.bump hseq
  | badges who roles =>
    unfold applyRoles
    split
    · exact hguarded
    · exact ⟨hguarded.1, fun hroles => (hguarded.2 hroles).bump hroles⟩
  | drop who =>
    unfold dropObservedBadges
    split
    · exact ⟨hguarded.1, fun hroles => (hguarded.2 hroles).bump hroles⟩
    · exact hguarded
  | claims roles hbadges hcounter =>
    exact hguarded.of_tallyView (by simp only [Runtime.tallyView, hbadges, hcounter])
  | _ => exact hguarded.of_tallyView rfl

theorem GuardedTally.step {cfg : Config} (op : Op) (hseq : start.talkStake.votingPowerSeq < u64Max)
    (hguarded : GuardedTally start s) :
    GuardedTally start (s.step cfg op) := by
  have hwritten : ∀ after, s.LedgerWrites after → GuardedTally start after := by
    intro after hwrites
    exact reach_invariant (GuardedTally start)
      (fun _ _ hwrite hbefore => hbefore.ledgerWrite hseq hwrite) hwrites hguarded
  have hstep : LedgerStep cfg s op (s.step cfg op) := step_ledgerStep op
  generalize s.step cfg op = after at hstep ⊢
  rcases hstep.writes with hsame | hwrites | ⟨unixSecs, rfl⟩ | ⟨enabled, rfl⟩ | ⟨args, -, rfl⟩
  · exact hguarded.of_tallyView hsame.tallyView
  · exact hwritten after hwrites
  · exact hguarded.of_tallyView observerOnInitialize_writes.tallyView
  · exact hguarded.of_tallyView rfl
  · apply observe_invariant (GuardedTally start) args
    · exact hwritten _ (.applyChanges args)
    · exact fun _ _ hwrites hbefore => hbefore.of_tallyView hwrites.tallyView
    · exact hguarded

theorem GuardedTally.agrees {kind : PollKind} (hguarded : GuardedTally start s)
    (hstake : s.talkStake.votingPowerSeq = start.talkStake.votingPowerSeq)
    (hroles : kind.hasChambers = true → start.roles.observedRolesSeq < u64Max ∧ s.roles.observedRolesSeq = start.roles.observedRolesSeq) :
    s.census.Agrees kind start.census := by
  constructor
  · intro who
    rcases hguarded.1 with ⟨-, hreadings⟩ | hpassed
    · exact hreadings who
    · simp only [Runtime.tallyView] at hpassed
      omega
  · intro hkind who
    obtain ⟨hlow, hseq⟩ := hroles hkind
    rcases hguarded.2 hlow with ⟨-, hreadings⟩ | hpassed
    · have hbadges : s.observedRolesOf who = start.observedRolesOf who := hreadings who
      simp only [census, rolesOf, hbadges]
    · simp only [Runtime.tallyView] at hpassed
      omega

end Guards

/-! ## Closes over runs that move the weights -/

def WalksPage (cfg : Config) (host : ℕ) (poll : Poll) (s : Runtime) (op : Op) : Prop :=
  closeTarget cfg s op = some host ∧ (s.closeStateOf host poll).draining = false

/-- The counters are below their maximum when the first page of a close runs. -/
def CountersLow (cfg : Config) (host : ℕ) (poll : Poll) (s : Runtime) (op : Op) : Prop :=
  closeTarget cfg s op = some host → s.polls.pollCloseState.get host = none →
    s.talkStake.votingPowerSeq < u64Max ∧
      (poll.kind.hasChambers = true → s.roles.observedRolesSeq < u64Max)

/-- A close in flight that began in the state `start`.  Unless it is marked,
everything it has counted was read as `start` has it. -/
structure CloseSince (cfg : Config) (start : Runtime) (host deadline : ℕ) (poll : Poll)
    (s : Runtime) (state : CloseState) : Prop where
  isOpen : PollOpen (start.closePlan cfg host poll) host deadline
    (start.optionCounts host poll) s
  stored : s.polls.pollCloseState.get host = some state
  stakeSeq : state.stakeSeq = start.talkStake.votingPowerSeq
  rolesSeq : state.rolesSeq = start.roles.observedRolesSeq
  cursor : state.draining = false → state.cursor.isSome = true
  pending : state.smeared = false → ∃ work, (start.closePlan cfg host poll).Pending state
    (hostRows s.polls.pollChamberScratch host) work
  guarded : GuardedTally start s

/-- A close call that began in `start` freezes its result, as a single call
would have unless it is marked, or leaves the close in flight. -/
def ClosesSince (cfg : Config) (start : Runtime) (host deadline : ℕ) (poll : Poll) (s : Runtime)
    (op : Op) : Prop :=
  (closeFinished cfg host (s.nextPage cfg host poll) = true ∧
      ((s.nextPage cfg host poll).state.smeared = false →
        PollClosed host ((start.closePlan cfg host poll).resultAt
          (start.optionCounts host poll) s.blockNumber) (s.step cfg op).polls)) ∨
    CloseSince cfg start host deadline poll (s.step cfg op) (s.nextPage cfg host poll).state

/-- A page that walks voters reads the weights and badges of `start`. -/
def ReadsStart (cfg : Config) (start : Runtime) (host : ℕ) (poll : Poll) (s : Runtime)
    (op : Op) : Prop :=
  WalksPage cfg host poll s op → s.census.Agrees poll.kind start.census

section Smear

variable {cfg : Config} {start s : Runtime} {host deadline : ℕ} {poll : Poll} {op : Op}
  {state : CloseState} {counts : List ℕ} {hash : ℕ → ℕ} {plan : ClosePlan hash poll}

theorem PollIdle.step_other (hidle : PollIdle host deadline poll s)
    (hother : closeTarget cfg s op ≠ some host) :
    PollIdle host deadline poll (s.step cfg op) := by
  have hopen : PollOpen (s.closePlan cfg host poll) host deadline (s.optionCounts host poll) s :=
    hidle.isOpen
  obtain ⟨hopen', hsame⟩ := hopen.step_other hother
  refine ⟨hopen'.stored, hopen'.closeAt, hopen'.past, hopen'.allocated, hopen'.result,
    hsame.closeState.trans hidle.closeState, ?_⟩
  intro key
  exact (congrFun hsame.rows key).trans (hidle.rows key)

section

variable (hsince : CloseSince cfg start host deadline poll s state)
include hsince

theorem CloseSince.closeStateOf :
    s.closeStateOf host poll = state := by
  rw [Runtime.closeStateOf, hsince.stored]
  rfl

theorem CloseSince.step_other (hlow : start.talkStake.votingPowerSeq < u64Max)
    (hother : closeTarget cfg s op ≠ some host) :
    CloseSince cfg start host deadline poll (s.step cfg op) state := by
  obtain ⟨hopen, hsame⟩ := hsince.isOpen.step_other hother
  refine ⟨hopen, hsame.closeState.trans hsince.stored, hsince.stakeSeq, hsince.rolesSeq,
    hsince.cursor, ?_, hsince.guarded.step op hlow⟩
  rw [hsame.rows]
  exact hsince.pending

theorem CloseSince.agrees
    (hlow : poll.kind.hasChambers = true → start.roles.observedRolesSeq < u64Max)
    (hclear : (s.checkSmear poll state).smeared = false) (hwalks : state.draining = false) :
    s.census.Agrees poll.kind start.census := by
  have hcursor := hsince.cursor hwalks
  have hstill : s.talkStake.votingPowerSeq = state.stakeSeq ∧
      (poll.kind.hasChambers = true → s.roles.observedRolesSeq = state.rolesSeq) := by
    unfold checkSmear at hclear
    split at hclear
    · cases hclear
    next hcheck =>
      rw [hcursor, hclear] at hcheck
      simp only [true_and, not_or, not_not, not_and] at hcheck
      exact hcheck
  apply hsince.guarded.agrees (hstill.1.trans hsince.stakeSeq)
  intro hkind
  exact ⟨hlow hkind, (hstill.2 hkind).trans hsince.rolesSeq⟩

end

theorem checkSmear_of_smeared (hsmeared : state.smeared = true) :
    (s.checkSmear poll state).smeared = true := by
  unfold checkSmear
  split
  · rfl
  · exact hsmeared

theorem closePage_reports
    (hfinished : closeFinished cfg host (s.nextPage cfg host poll) = true)
    (hsmeared : (s.nextPage cfg host poll).state.smeared = true) :
    ∃ blocks, Event.pollTallySmeared host blocks ∈ (s.closePage cfg host poll).events := by
  rw [closePage_eq, if_pos hfinished]
  simp [finalizeClose, hsmeared, deposit]

theorem PollOpen.close_since
    (hopen : PollOpen (start.closePlan cfg host poll) host deadline
      (start.optionCounts host poll) s)
    (hpage : 0 < cfg.maxClosePage) (htarget : closeTarget cfg s op = some host)
    (hstake : (s.closeStateOf host poll).stakeSeq = start.talkStake.votingPowerSeq)
    (hroles : (s.closeStateOf host poll).rolesSeq = start.roles.observedRolesSeq)
    (hpending : (s.nextPage cfg host poll).state.smeared = false →
      ∃ work, (start.closePlan cfg host poll).Pending (s.closeStateOf host poll)
        (hostRows s.polls.pollChamberScratch host) work)
    (hagrees : (s.nextPage cfg host poll).state.smeared = false →
      (s.closeStateOf host poll).draining = false → s.census.Agrees poll.kind start.census)
    (hguarded : GuardedTally start (s.step cfg op)) :
    ClosesSince cfg start host deadline poll s op := by
  have hstamp := nextPage_stamp cfg s host poll
  cases hfinished : closeFinished cfg host (s.nextPage cfg host poll) with
  | true =>
    left
    refine ⟨hfinished, ?_⟩
    intro hclear
    obtain ⟨work, hwork⟩ := hpending hclear
    rcases nextPage_complete_or_pending hopen.covers hpage (hagrees hclear) hwork with
      hcomplete | ⟨hunfinished, -⟩
    · rw [(step_closePage htarget hopen.stored hopen.closeAt hopen.past hopen.result).1]
      exact closePage_complete hopen.counts hcomplete
    · rw [hfinished] at hunfinished
      cases hunfinished
  | false =>
    right
    obtain ⟨hopen', hstate, hscratch⟩ := hopen.step_unfinished htarget hfinished
    refine ⟨hopen', hstate, hstamp.1.trans hstake, hstamp.2.1.trans hroles, ?_, ?_, hguarded⟩
    · intro hwalks
      have hstart : (s.closeStateOf host poll).draining = false := by
        by_contra hdrains
        rw [nextPage_draining (by simpa using hdrains)] at hwalks
        cases hwalks
      exact nextPage_cursor hstart hwalks
    · intro hclear
      obtain ⟨work, hwork⟩ := hpending hclear
      rcases nextPage_complete_or_pending hopen.covers hpage (hagrees hclear) hwork with
        hcomplete | ⟨-, work', -, hnext⟩
      · rw [hcomplete.finished] at hfinished
        cases hfinished
      · rw [hscratch]
        exact ⟨work', hnext⟩

theorem CloseSince.smeared_of_nextPage
    (hsince : CloseSince cfg start host deadline poll s state)
    (hclear : (s.nextPage cfg host poll).state.smeared = false) :
    (s.checkSmear poll state).smeared = false ∧ state.smeared = false := by
  have hstamp := (nextPage_stamp cfg s host poll).2.2
  rw [hclear, hsince.closeStateOf] at hstamp
  refine ⟨hstamp.symm, ?_⟩
  by_contra hsmeared
  rw [checkSmear_of_smeared (by simpa using hsmeared)] at hstamp
  cases hstamp

theorem CloseSince.step_close (hsince : CloseSince cfg start host deadline poll s state)
    (hpage : 0 < cfg.maxClosePage)
    (hlow : start.talkStake.votingPowerSeq < u64Max)
    (hlowRoles : poll.kind.hasChambers = true → start.roles.observedRolesSeq < u64Max)
    (htarget : closeTarget cfg s op = some host) :
    ClosesSince cfg start host deadline poll s op := by
  have hstate := hsince.closeStateOf
  apply hsince.isOpen.close_since hpage htarget
  · rw [hstate, hsince.stakeSeq]
  · rw [hstate, hsince.rolesSeq]
  · intro hclear
    rw [hstate]
    exact hsince.pending (hsince.smeared_of_nextPage hclear).2
  · intro hclear hwalks
    rw [hstate] at hwalks
    exact hsince.agrees hlowRoles (hsince.smeared_of_nextPage hclear).1 hwalks
  · exact hsince.guarded.step op hlow

theorem PollOpen.finished_of_result {result : PollResult}
    (hopen : PollOpen plan host deadline counts s)
    (hafter : (s.step cfg op).polls.pollResults.get host = some result) :
    closeTarget cfg s op = some host ∧
      closeFinished cfg host (s.nextPage cfg host poll) = true := by
  have hstep : SocialStep cfg s op (s.step cfg op).social := step_socialStep op
  rcases hstep.samePoll hopen.stored hopen.closeAt hopen.past hopen.allocated with
    hsame | ⟨htarget, -, hpolls⟩
  · have hnone := hsame.result.trans hopen.result
    change (s.step cfg op).polls.pollResults.get host = none at hnone
    rw [hafter] at hnone
    cases hnone
  · refine ⟨htarget, ?_⟩
    by_contra hunfinished
    have hpolls' : (s.step cfg op).polls = (s.closePage cfg host poll).polls := hpolls
    rw [hpolls', closePage_polls, if_neg hunfinished] at hafter
    rw [hopen.result] at hafter
    cases hafter

theorem PollOpen.run_ne_none_of_finished (hopen : PollOpen plan host deadline counts s)
    (htarget : closeTarget cfg s op = some host)
    (hfinished : closeFinished cfg host (s.nextPage cfg host poll) = true) (ops : List Op) :
    (s.run cfg (op :: ops)).polls.pollResults.get host ≠ none := by
  have hpolls := (step_closePage htarget hopen.stored hopen.closeAt hopen.past hopen.result).1
  rw [closePage_polls, if_pos hfinished] at hpolls
  have hfrozen : (s.step cfg op).polls.pollResults.get host =
      some (s.frozenResult host poll (s.nextPage cfg host poll).state) := by
    rw [hpolls]
    exact StorageMap.get_insert_self _ _ _
  have hkept : (s.run cfg (op :: ops)).polls.pollResults.get host = some _ :=
    run_pollResults_kept ops hfrozen
  rw [hkept]
  exact Option.some_ne_none _

theorem PollOpen.nextPage_clear {result : PollResult} (hopen : PollOpen plan host deadline counts s)
    (hafter : (s.step cfg op).polls.pollResults.get host = some result)
    (hsilent : ∀ blocks, Event.pollTallySmeared host blocks ∉ (s.step cfg op).events) :
    (s.nextPage cfg host poll).state.smeared = false := by
  obtain ⟨htarget, hfinished⟩ := hopen.finished_of_result hafter
  by_contra hsmeared
  obtain ⟨blocks, hreport⟩ := closePage_reports hfinished (by simpa using hsmeared)
  rw [← (step_closePage htarget hopen.stored hopen.closeAt hopen.past hopen.result).2] at hreport
  exact hsilent blocks hreport

theorem ClosesSince.result {result : PollResult}
    (hcloses : ClosesSince cfg start host deadline poll s op)
    (hclear : (s.nextPage cfg host poll).state.smeared = false)
    (hafter : (s.step cfg op).polls.pollResults.get host = some result) :
    ∃ closedAt, result = (start.closePlan cfg host poll).resultAt
      (start.optionCounts host poll) closedAt := by
  rcases hcloses with ⟨-, hclosed⟩ | hsince
  · have hresult := (hclosed hclear).result
    rw [hafter, Option.some.injEq] at hresult
    exact ⟨s.blockNumber, hresult⟩
  · have hnone := hsince.isOpen.result
    rw [hafter] at hnone
    cases hnone

theorem ClosesSince.inFlight (hcloses : ClosesSince cfg start host deadline poll s op)
    (hopen : PollOpen plan host deadline counts s) (htarget : closeTarget cfg s op = some host)
    {ops : List Op} (hbefore : (s.run cfg (op :: ops)).polls.pollResults.get host = none) :
    CloseSince cfg start host deadline poll (s.step cfg op) (s.nextPage cfg host poll).state := by
  rcases hcloses with ⟨hfinished, -⟩ | hsince
  · exact absurd hbefore (hopen.run_ne_none_of_finished htarget hfinished ops)
  · exact hsince

theorem CloseSince.readsStart (hsince : CloseSince cfg start host deadline poll s state)
    (hlowRoles : poll.kind.hasChambers = true → start.roles.observedRolesSeq < u64Max)
    (hclear : (s.nextPage cfg host poll).state.smeared = false) :
    ReadsStart cfg start host poll s op := by
  intro hwalks
  have hdraining := hwalks.2
  rw [hsince.closeStateOf] at hdraining
  exact hsince.agrees hlowRoles (hsince.smeared_of_nextPage hclear).1 hdraining

theorem CloseSince.run_silent (hpage : 0 < cfg.maxClosePage)
    (hlow : start.talkStake.votingPowerSeq < u64Max)
    (hlowRoles : poll.kind.hasChambers = true → start.roles.observedRolesSeq < u64Max)
    (ops : List Op) {last : Op} {result : PollResult}
    (hsince : CloseSince cfg start host deadline poll s state)
    (hbefore : (s.run cfg ops).polls.pollResults.get host = none)
    (hafter : ((s.run cfg ops).step cfg last).polls.pollResults.get host = some result)
    (hsilent : ∀ blocks, Event.pollTallySmeared host blocks ∉
      ((s.run cfg ops).step cfg last).events) :
    state.smeared = false ∧
      Along (Runtime.step cfg) (ReadsStart cfg start host poll) s (ops ++ [last]) ∧
      ∃ closedAt, result = (start.closePlan cfg host poll).resultAt
        (start.optionCounts host poll) closedAt := by
  induction ops generalizing s state with
  | nil =>
    have hclear := hsince.isOpen.nextPage_clear hafter hsilent
    obtain ⟨htarget, -⟩ := hsince.isOpen.finished_of_result hafter
    exact ⟨(hsince.smeared_of_nextPage hclear).2, ⟨hsince.readsStart hlowRoles hclear, trivial⟩,
      (hsince.step_close hpage hlow hlowRoles htarget).result hclear hafter⟩
  | cons op ops ih =>
    have hnext : ∃ state', CloseSince cfg start host deadline poll (s.step cfg op) state' ∧
        (state'.smeared = false → state.smeared = false ∧ ReadsStart cfg start host poll s op) := by
      by_cases htarget : closeTarget cfg s op = some host
      · have hsince' :=
          (hsince.step_close hpage hlow hlowRoles htarget).inFlight hsince.isOpen htarget hbefore
        exact ⟨_, hsince', fun hclear =>
          ⟨(hsince.smeared_of_nextPage hclear).2, hsince.readsStart hlowRoles hclear⟩⟩
      · exact ⟨state, hsince.step_other hlow htarget, fun hclear =>
          ⟨hclear, fun hwalks => absurd hwalks.1 htarget⟩⟩
    obtain ⟨state', hsince', hhead⟩ := hnext
    obtain ⟨hclear, htail, hresult⟩ := ih hsince' hbefore hafter hsilent
    obtain ⟨hsmeared, hreads⟩ := hhead hclear
    exact ⟨hsmeared, ⟨hreads, htail⟩, hresult⟩

theorem PollIdle.step_first (hidle : PollIdle host deadline poll s)
    (hpage : 0 < cfg.maxClosePage) (htarget : closeTarget cfg s op = some host)
    (hlow : s.talkStake.votingPowerSeq < u64Max) :
    ClosesSince cfg s host deadline poll s op := by
  have hwalking := hidle.walking cfg
  have hfresh : s.closeStateOf host poll = s.freshClose poll := by
    simp [Runtime.closeStateOf, hidle.closeState]
  apply hidle.isOpen.close_since hpage htarget
  · rw [hfresh]
    rfl
  · rw [hfresh]
    rfl
  · intro _
    exact ⟨_, .walking (by rw [List.nil_append]) hwalking⟩
  · intro _ _
    exact ⟨fun _ => rfl, fun _ _ => rfl⟩
  · exact (GuardedTally.refl s).step op hlow

theorem PollIdle.run_silent (hpage : 0 < cfg.maxClosePage) (ops : List Op) {last : Op}
    {result : PollResult} (hidle : PollIdle host deadline poll s)
    (hcounters : Along (Runtime.step cfg) (CountersLow cfg host poll) s (ops ++ [last]))
    (hbefore : (s.run cfg ops).polls.pollResults.get host = none)
    (hafter : ((s.run cfg ops).step cfg last).polls.pollResults.get host = some result)
    (hsilent : ∀ blocks, Event.pollTallySmeared host blocks ∉
      ((s.run cfg ops).step cfg last).events) :
    ∃ first, first <+: ops ∧ PollIdle host deadline poll (s.run cfg first) ∧
      Along (Runtime.step cfg) (ReadsStart cfg (s.run cfg first) host poll) s (ops ++ [last]) ∧
      ∃ closedAt, result = ((s.run cfg first).closePlan cfg host poll).resultAt
        ((s.run cfg first).optionCounts host poll) closedAt := by
  have hopen : PollOpen (s.closePlan cfg host poll) host deadline (s.optionCounts host poll) s :=
    hidle.isOpen
  have hself : ∀ op, ReadsStart cfg s host poll s op :=
    fun _ _ => ⟨fun _ => rfl, fun _ _ => rfl⟩
  induction ops generalizing s with
  | nil =>
    obtain ⟨htarget, -⟩ := hopen.finished_of_result hafter
    obtain ⟨hlow, -⟩ := hcounters.1 htarget hidle.closeState
    exact ⟨[], List.prefix_rfl, hidle, ⟨hself last, trivial⟩,
      (hidle.step_first hpage htarget hlow).result (hopen.nextPage_clear hafter hsilent) hafter⟩
  | cons op ops ih =>
    obtain ⟨hhead, htail⟩ := hcounters
    by_cases htarget : closeTarget cfg s op = some host
    · obtain ⟨hlow, hlowRoles⟩ := hhead htarget hidle.closeState
      have hsince := (hidle.step_first hpage htarget hlow).inFlight hopen htarget hbefore
      obtain ⟨-, hreads, hresult⟩ :=
        hsince.run_silent hpage hlow hlowRoles ops hbefore hafter hsilent
      exact ⟨[], List.nil_prefix, hidle, ⟨hself op, hreads⟩, hresult⟩
    · have hidle' : PollIdle host deadline poll (s.step cfg op) := hidle.step_other htarget
      obtain ⟨first, hfirst, hstart, hreads, hresult⟩ :=
        ih hidle' htail hbefore hafter hsilent hidle'.isOpen
          (fun _ _ => ⟨fun _ => rfl, fun _ _ => rfl⟩)
      exact ⟨op :: first, List.cons_prefix_cons.mpr ⟨rfl, hfirst⟩, hstart,
        ⟨fun hwalks => absurd hwalks.1 htarget, hreads⟩, hresult⟩

end Smear

/-- In a run in which the counters are below their maximum whenever a close of
the poll begins, a close that finishes without a smear report has read one
state: every page that walked voters found the weights and badges of the state
the close began in, and the frozen result is the one a single call would have
frozen there. -/
theorem silentClose_reads_one_state (cfg : Config) (s : Runtime) (host deadline : ℕ)
    (poll : Poll) (hpage : 1 ≤ cfg.maxClosePage) (hidle : PollIdle host deadline poll s)
    (ops : List Op) (last : Op) (result : PollResult)
    (hcounters : Along (Runtime.step cfg) (CountersLow cfg host poll) s (ops ++ [last]))
    (hbefore : (s.run cfg ops).polls.pollResults.get host = none)
    (hafter : ((s.run cfg ops).step cfg last).polls.pollResults.get host = some result)
    (hsilent : ∀ blocks, Event.pollTallySmeared host blocks ∉
      ((s.run cfg ops).step cfg last).events) :
    ∃ first, first <+: ops ∧
      (∀ before op, before ++ [op] <+: ops ++ [last] →
        WalksPage cfg host poll (s.run cfg before) op →
          (s.run cfg before).census.Agrees poll.kind (s.run cfg first).census) ∧
      ∃ room : ℕ, ∀ size who, room ≤ size → (s.run cfg first).isAllowed who = true →
        ∃ single : PollResult,
          ((s.run cfg first).execute { cfg with maxClosePage := size } (.signed who)
            (.microblog (.closePoll host))).polls.pollResults.get host = some single ∧
          result = { single with closedAt := result.closedAt } := by
  obtain ⟨first, hfirst, hstart, hreads, closedAt, hresult⟩ :=
    hidle.run_silent hpage ops hcounters hbefore hafter hsilent
  let plan := (s.run cfg first).closePlan cfg host poll
  refine ⟨first, hfirst, hreads.reached, plan.voters.length + plan.keys.length, ?_⟩
  intro size who hroom hallowed
  rw [hresult]
  exact ⟨_, hstart.onePage cfg hroom hallowed, rfl⟩

/-! ## A smear that is not reported -/

def creditPower (cred : StakeCredential) (total : ℕ) : Op :=
  .call .none (.observer (.observe
    { reference := ⟨0, 0⟩
      inputsCommitment := 0
      changes := []
      stakeChanges := [(cred, some total)]
      roleChanges := []
      pending := 0 }))

def churnSetup : List Op :=
  [.call .none (.gate (.linkIdentitySigned ⟨[1, 1], []⟩)),
    .call .none (.gate (.linkIdentitySigned ⟨[2, 2], []⟩)),
    .call .none (.gate (.linkStakeSigned ⟨[1, 1, 0], []⟩)),
    .call .none (.gate (.linkStakeSigned ⟨[2, 2, 0], []⟩)),
    creditPower ⟨1⟩ 1, creditPower ⟨1⟩ 2]

def churnBase : Runtime := genesis.run onePerPage churnSetup

def churnRound : List Op := [creditPower ⟨1⟩ 1, creditPower ⟨1⟩ 2]

def churned (seq : ℕ) (events : List Event) : Runtime :=
  { churnBase with
    events := events
    talkStake := { churnBase.talkStake with votingPowerSeq := seq } }

theorem churned_round (seq : ℕ) (events : List Event) :
    ∃ events', (churned seq events).run onePerPage churnRound =
      churned (satAdd u64Max (satAdd u64Max seq 1) 1) events' :=
  ⟨_, rfl⟩

theorem churned_rounds (rounds : ℕ) {seq : ℕ} (hseq : seq ≤ u64Max) (events : List Event) :
    ∃ events', (churned seq events).run onePerPage
        (List.replicate rounds churnRound).flatten =
      churned (min (seq + 2 * rounds) u64Max) events' := by
  induction rounds generalizing seq events with
  | zero =>
    refine ⟨events, ?_⟩
    rw [Nat.mul_zero, Nat.add_zero, Nat.min_eq_left hseq]
    rfl
  | succ rounds ih =>
    obtain ⟨events₁, hround⟩ := churned_round seq events
    obtain ⟨events₂, hrest⟩ :=
      ih (satAdd_le u64Max (satAdd u64Max seq 1) 1) events₁
    have hcounter : min (satAdd u64Max (satAdd u64Max seq 1) 1 + 2 * rounds) u64Max =
        min (seq + 2 * (rounds + 1)) u64Max := by
      unfold satAdd
      omega
    refine ⟨events₂, ?_⟩
    rw [List.replicate_succ, List.flatten_cons, Runtime.run, run_append]
    rw [Runtime.run] at hround hrest
    rw [hround, hrest, hcounter]

/-- Both accounts weigh five and vote for the first option of a poll whose
deadline passes. -/
def smearedPollOps : List Op :=
  [.nextBlock 0, creditPower ⟨1⟩ 5, creditPower ⟨2⟩ 5,
    .call (.signed ⟨1⟩) (.microblog (.createPoll [] [[0], [1]] (some 2) .stake none)),
    .call (.signed ⟨1⟩) (.microblog (.castPollVote 0 0)),
    .call (.signed ⟨2⟩) (.microblog (.castPollVote 0 0)),
    .nextBlock 0]

/-- The poll of `smearedPollOps` on a chain whose counter is at its maximum. -/
def spentCounter : Runtime := (churned u64Max []).run onePerPage smearedPollOps

theorem spentCounter_reached :
    genesis.run onePerPage
        (churnSetup ++ (List.replicate (2 ^ 63) churnRound).flatten ++ smearedPollOps) =
      spentCounter := by
  have hseq : churnBase.talkStake.votingPowerSeq ≤ u64Max := by decide +kernel
  obtain ⟨events, hrounds⟩ := churned_rounds (2 ^ 63) hseq churnBase.events
  have hspent : min (churnBase.talkStake.votingPowerSeq + 2 * 2 ^ 63) u64Max = u64Max := by
    unfold u64Max
    omega
  have hbase : churned churnBase.talkStake.votingPowerSeq churnBase.events = churnBase := rfl
  rw [hspent, hbase] at hrounds
  have hreset : ∀ events, (churned u64Max events).run onePerPage smearedPollOps =
      spentCounter := fun _ => rfl
  rw [Runtime.run, run_append, run_append]
  exact (congrArg (fun s => run (Runtime.step onePerPage) s smearedPollOps) hrounds).trans
    (hreset events)

def closeCall : Op := .call (.signed ⟨1⟩) (.microblog (.closePoll 0))

def movingClose : List Op := [closeCall, creditPower ⟨1⟩ 2, creditPower ⟨2⟩ 1]

def Event.isSmear : Event → Bool
  | .pollTallySmeared _ _ => true
  | _ => false

def Runtime.heldWeights (cfg : Config) (s : Runtime) (host : ℕ) (poll : Poll) : List ℕ :=
  (countVoters poll (s.ballotOf host) s.census
    (s.polls.pollVotes.prefixKeys cfg.blake2 host)).weights

/-- On a chain whose counter is at its maximum the close freezes a weight of
six, five read before the changes and one after them, and reports nothing.  In
no state the close runs through do the voters weigh six together. -/
theorem silentSmear :
    genesis.run onePerPage
        (churnSetup ++ (List.replicate (2 ^ 63) churnRound).flatten ++ smearedPollOps) =
      spentCounter ∧
    spentCounter.polls.pollCloseState.get 0 = none ∧
    (spentCounter.run onePerPage movingClose).polls.pollResults.get 0 = none ∧
    (((spentCounter.run onePerPage movingClose).step onePerPage closeCall).polls.pollResults.get
      0).map PollResult.optionWeights = some [6, 0] ∧
    (∀ blocks, Event.pollTallySmeared 0 blocks ∉
      ((spentCounter.run onePerPage movingClose).step onePerPage closeCall).events) ∧
    ∀ before, before <+: movingClose →
      (spentCounter.run onePerPage before).heldWeights onePerPage 0
        ⟨[[0], [1]], some 2, .stake, none⟩ ≠ [6, 0] := by
  refine ⟨spentCounter_reached, by decide +kernel, by decide +kernel, by decide +kernel, ?_, ?_⟩
  · have hevents : ((spentCounter.run onePerPage movingClose).step onePerPage
        closeCall).events.any Event.isSmear = false := by
      decide +kernel
    intro blocks hmem
    have hno := List.any_eq_false.mp hevents _ hmem
    exact hno rfl
  · have hstates : ∀ before ∈ movingClose.inits,
        (spentCounter.run onePerPage before).heldWeights onePerPage 0
          ⟨[[0], [1]], some 2, .stake, none⟩ ≠ [6, 0] := by
      decide +kernel
    intro before hextends
    exact hstates before ((List.mem_inits before movingClose).mpr hextends)

theorem silentClose_reads_one_state_splitPoll :
    ∃ first, first <+: [closeCall] ∧
      ∃ room : ℕ, ∀ size who, room ≤ size →
        (splitPoll.run onePerPage first).isAllowed who = true →
        ∃ single : PollResult,
          ((splitPoll.run onePerPage first).execute { onePerPage with maxClosePage := size }
            (.signed who) (.microblog (.closePoll 0))).polls.pollResults.get 0 = some single ∧
          single.optionCounts = [1, 1] := by
  have hrows : splitPoll.polls.pollChamberScratch = ∅ := by decide +kernel
  have hidle : PollIdle 0 1 ⟨[[0], [1]], some 1, .governance, none⟩ splitPoll :=
    ⟨by decide +kernel, rfl, by decide +kernel, by unfold Feed.Allocated; decide +kernel,
      by decide +kernel, by decide +kernel, fun key => by rw [hrows]; rfl⟩
  have hcounters : Along (Runtime.step onePerPage)
      (CountersLow onePerPage 0 ⟨[[0], [1]], some 1, .governance, none⟩) splitPoll
      ([closeCall] ++ [closeCall]) := by
    refine ⟨fun _ _ => ⟨by decide +kernel, fun _ => by decide +kernel⟩,
      fun _ _ => ⟨by decide +kernel, fun _ => by decide +kernel⟩, trivial⟩
  have hevents : ((splitPoll.run onePerPage [closeCall]).step onePerPage
      closeCall).events.any Event.isSmear = false := by
    decide +kernel
  have hresult : ∃ result, ((splitPoll.run onePerPage [closeCall]).step onePerPage
      closeCall).polls.pollResults.get 0 = some result ∧ result.optionCounts = [1, 1] :=
    ⟨_, rfl, by decide +kernel⟩
  obtain ⟨result, hafter, hcounts⟩ := hresult
  obtain ⟨first, hfirst, -, room, hsingle⟩ := silentClose_reads_one_state onePerPage splitPoll
    0 1 _ (by decide) hidle [closeCall] closeCall result hcounters (by decide +kernel) hafter
    (fun blocks hmem => List.any_eq_false.mp hevents _ hmem rfl)
  refine ⟨first, hfirst, room, ?_⟩
  intro size who hroom hallowed
  obtain ⟨single, hget, hsame⟩ := hsingle size who hroom hallowed
  refine ⟨single, hget, ?_⟩
  rw [← hcounts, hsame]

end CognoChain
