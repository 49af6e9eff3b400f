import CognoChain.Close.Tally

/-!
# One page of a close

Where a close stands is told by how far it has walked the voters or drained
the chamber rows.  A page moves it on, and the measure of what is left falls
with every page until the result is frozen.
-/

namespace CognoChain

open Substrate CognoChain.Runtime

/-- What a close of one poll will have counted in the end: the voters in the
order they are walked and the badges in the order they are drained. -/
structure ClosePlan (hash : ℕ → ℕ) (poll : Poll) where
  vote : AccountId → Option ℕ
  census : Census
  voters : List AccountId
  voters_sorted : voters.Pairwise (HashLt hash)
  mem_voters : ∀ who, who ∈ voters ↔ (vote who).isSome
  keys : List (ℕ × Credential)
  keys_sorted : keys.Pairwise (HashLt hash)
  mem_keys : ∀ key, key ∈ keys ↔ ((countVoters poll vote census voters).rows key).isSome

namespace ClosePlan

variable {hash : ℕ → ℕ} {poll : Poll}

def counted (plan : ClosePlan hash poll) (visited : List AccountId) : Count :=
  countVoters poll plan.vote plan.census visited

def total (plan : ClosePlan hash poll) : Count := plan.counted plan.voters

def drained (plan : ClosePlan hash poll) (keys : List (ℕ × Credential)) : ChamberTotals :=
  addRows poll.options.length plan.total.rows keys

def Covers (plan : ClosePlan hash poll) (host : ℕ) (s : Runtime) : Prop :=
  ∀ who, s.ballotOf host who = plan.vote who

structure Walking (plan : ClosePlan hash poll) (visited : List AccountId)
    (state : CloseState) (rows : ChamberRows) : Prop where
  draining : state.draining = false
  cursor : state.cursor = visited.getLast?
  weights : state.optionWeights = (plan.counted visited).weights
  rows : rows = (plan.counted visited).rows
  untouched : state.spoWeights = []

/-- The close has counted every voter and drained all rows but those of
`left`. -/
structure Draining (plan : ClosePlan hash poll) (done left : List (ℕ × Credential))
    (state : CloseState) (rows : ChamberRows) : Prop where
  draining : state.draining = true
  weights : state.optionWeights = plan.total.weights
  rows : ∀ key, rows key = if key ∈ left then plan.total.rows key else none
  totals : (if state.spoWeights = [] then ChamberTotals.zero poll.options.length
    else state.chamberTotals) = plan.drained done

inductive Pending (plan : ClosePlan hash poll) (state : CloseState) (rows : ChamberRows) :
    ℕ → Prop
  | walking {visited rest : List AccountId} (hsplit : plan.voters = visited ++ rest)
      (hwalking : plan.Walking visited state rows) :
      Pending plan state rows (rest.length + plan.keys.length + 1)
  | draining {done left : List (ℕ × Credential)} (hsplit : plan.keys = done ++ left)
      (hdraining : plan.Draining done left state rows) :
      Pending plan state rows left.length

end ClosePlan

section Page

variable {cfg : Config} {host : ℕ} {poll : Poll} {s : Runtime}
  {plan : ClosePlan cfg.blake2 poll} {page : ClosePage}
  {visited rest : List AccountId} {done left : List (ℕ × Credential)} {state : CloseState}
  {α : Type} {l : List α}

theorem ClosePlan.Covers.prefixKeys (hcovers : plan.Covers host s) :
    s.polls.pollVotes.prefixKeys cfg.blake2 host = plan.voters := by
  apply eq_of_hashLt_pairwise (StorageMap.prefixKeys_pairwise _ _ _) plan.voters_sorted
  intro who
  rw [StorageMap.mem_prefixKeys, plan.mem_voters, ← hcovers who]
  rfl

theorem votersFrom_getLast? (hcovers : plan.Covers host s)
    (hsplit : plan.voters = visited ++ rest) :
    s.votersFrom cfg host visited.getLast? = rest := by
  have hsorted := plan.voters_sorted
  rw [votersFrom, hcovers.prefixKeys, hsplit]
  rw [hsplit] at hsorted
  exact walkFrom_of_getLast? hsorted

theorem ClosePlan.Walking.votersFrom {rows : ChamberRows}
    (hwalking : plan.Walking visited state rows) (hcovers : plan.Covers host s)
    (hsplit : plan.voters = visited ++ rest) : s.votersFrom cfg host state.cursor = rest := by
  rw [hwalking.cursor]
  exact votersFrom_getLast? hcovers hsplit

theorem split_take {a b : List α} (hsplit : l = a ++ b) (n : ℕ) :
    l = (a ++ b.take n) ++ b.drop n := by
  rw [hsplit, List.append_assoc, List.take_append_drop]

theorem isEmpty_drop {n : ℕ} (hmore : n < l.length) :
    (l.drop n).isEmpty = false := by
  rw [List.isEmpty_eq_false_iff, ← List.length_pos_iff, List.length_drop]
  omega

section

variable (hcovers : plan.Covers host s) (hagrees : s.census.Agrees poll.kind plan.census)
include hcovers hagrees

theorem walkPage_count (hwalking : plan.Walking visited page.state (hostRows page.scratch host))
    (next : List AccountId) :
    (next.foldl (s.walkVoter host poll) ⟨page.state.optionWeights, page.scratch⟩).count host =
      plan.counted (visited ++ next) := by
  have hstart : WalkTotals.count host ⟨page.state.optionWeights, page.scratch⟩ =
      plan.counted visited := by
    rw [WalkTotals.count, hwalking.rows, hwalking.weights]
  have hvote : s.ballotOf host = plan.vote := funext hcovers
  rw [foldl_walkVoter_count, hstart, hvote, foldl_countVoter_congr hagrees]
  exact (countVoters_append visited next).symm

theorem walkPage_last (hsplit : plan.voters = visited ++ rest)
    (hwalking : plan.Walking visited page.state (hostRows page.scratch host))
    (hfits : rest.length ≤ page.budget) :
    plan.Draining [] plan.keys (s.walkPage cfg host poll page).state
        (hostRows (s.walkPage cfg host poll page).scratch host) ∧
      (s.walkPage cfg host poll page).budget = page.budget - rest.length := by
  have hfrom := hwalking.votersFrom hcovers hsplit
  have htake : rest.take page.budget = rest := List.take_of_length_le hfits
  have hcursor : rest.getLast?.or page.state.cursor = (visited ++ rest).getLast? := by
    rw [hwalking.cursor, List.getLast?_append]
  have hend : s.votersFrom cfg host (visited ++ rest).getLast? = [] :=
    votersFrom_getLast? hcovers (by rw [hsplit, List.append_nil])
  have hcount := walkPage_count hcovers hagrees hwalking rest
  rw [← hsplit] at hcount
  have hkeys : ∀ key, plan.total.rows key =
      if key ∈ plan.keys then plan.total.rows key else none := by
    intro key
    split_ifs with hmem
    · rfl
    · rw [plan.mem_keys] at hmem
      simpa [ClosePlan.total, ClosePlan.counted] using hmem
  simp only [walkPage, hwalking.draining, Bool.false_eq_true, if_false, hfrom, htake,
    hcursor, hend, List.isEmpty_nil, Bool.or_true, if_true]
  refine ⟨⟨rfl, congrArg Count.weights hcount, ?_, ?_⟩, trivial⟩
  · intro key
    have hrow := congrFun (congrArg Count.rows hcount) key
    rw [← hkeys key]
    exact hrow
  · simp [hwalking.untouched, ClosePlan.drained, addRows]

theorem walkPage_more (hsplit : plan.voters = visited ++ rest)
    (hwalking : plan.Walking visited page.state (hostRows page.scratch host))
    (hbudget : 0 < page.budget) (hmore : page.budget < rest.length) :
    plan.Walking (visited ++ rest.take page.budget) (s.walkPage cfg host poll page).state
      (hostRows (s.walkPage cfg host poll page).scratch host) := by
  have hfrom := hwalking.votersFrom hcovers hsplit
  have hlength : (rest.take page.budget).length = page.budget := by
    rw [List.length_take]
    omega
  have hcursor : (rest.take page.budget).getLast?.or page.state.cursor =
      (visited ++ rest.take page.budget).getLast? := by
    rw [hwalking.cursor, List.getLast?_append]
  have hnext : s.votersFrom cfg host (visited ++ rest.take page.budget).getLast? =
      rest.drop page.budget := votersFrom_getLast? hcovers (split_take hsplit _)
  have hrest := isEmpty_drop hmore
  have hsome : (visited ++ rest.take page.budget).getLast?.isNone = false := by
    have hne : visited ++ rest.take page.budget ≠ [] := by
      rw [← List.length_pos_iff, List.length_append, hlength]
      omega
    rw [List.getLast?_eq_some_getLast hne]
    rfl
  have hcount := walkPage_count hcovers hagrees hwalking (rest.take page.budget)
  have hfull : ¬ (rest.take page.budget).length < page.budget := by omega
  simp only [walkPage, hwalking.draining, Bool.false_eq_true, if_false, hfrom, hcursor,
    hnext, hrest, hsome, hfull, decide_false, Bool.or_false]
  exact ⟨rfl, rfl, congrArg Count.weights hcount, congrArg Count.rows hcount,
    hwalking.untouched⟩

end

theorem ClosePlan.Draining.prefixKeys {scratch : ChamberScratch}
    (hdraining : plan.Draining done left state (hostRows scratch host))
    (hsplit : plan.keys = done ++ left) :
    scratch.prefixKeys cfg.blake2 host = left := by
  have hsorted : left.Pairwise (HashLt cfg.blake2) := by
    have hkeys := plan.keys_sorted
    rw [hsplit] at hkeys
    exact (List.pairwise_append.mp hkeys).2.1
  apply eq_of_hashLt_pairwise (StorageMap.prefixKeys_pairwise _ _ _) hsorted
  intro key
  have hrow : scratch.get (host, key) = if key ∈ left then plan.total.rows key else none :=
    hdraining.rows key
  rw [StorageMap.mem_prefixKeys, hrow]
  by_cases hmem : key ∈ left
  · have hkey : key ∈ plan.keys := by
      rw [hsplit]
      exact List.mem_append_right _ hmem
    simp only [hmem, if_true, iff_true]
    exact (plan.mem_keys key).mp hkey
  · simp [hmem]

theorem drainPage_draining (hsplit : plan.keys = done ++ left)
    (hdraining : plan.Draining done left page.state (hostRows page.scratch host)) :
    let budget := page.budget * max cfg.maxChamberBadges 1
    plan.Draining (done ++ left.take budget) (left.drop budget)
        (Runtime.drainPage cfg host poll page).state
        (hostRows (Runtime.drainPage cfg host poll page).scratch host) ∧
      (Runtime.drainPage cfg host poll page).state.chamberTotals =
        plan.drained (done ++ left.take budget) := by
  intro budget
  have hkeys : page.scratch.prefixKeys cfg.blake2 host = left :=
    hdraining.prefixKeys hsplit
  have hleft : left.Nodup := by
    rw [← hkeys]
    exact StorageMap.prefixKeys_nodup _ _ _
  have hparts : (left.take budget ++ left.drop budget).Nodup := by
    rw [List.take_append_drop]
    exact hleft
  have hrows : ∀ key ∈ left.take budget,
      hostRows page.scratch host key = plan.total.rows key := by
    intro key hmem
    rw [hdraining.rows key, if_pos (List.mem_of_mem_take hmem)]
  obtain ⟨htotals, hscratch⟩ := foldl_drainRow host poll.options.length plan.total.rows
    (left.take budget) (List.nodup_append.mp hparts).1 (plan.drained done, page.scratch) hrows
  have hsum : (left.take budget).foldl (addRow poll.options.length plan.total.rows)
      (plan.drained done) = plan.drained (done ++ left.take budget) := by
    rw [ClosePlan.drained, ClosePlan.drained, addRows, addRows, List.foldl_append]
  have hsized : (plan.drained (done ++ left.take budget)).Sized poll.options.length :=
    (ChamberTotals.zero_sized _).foldl_addRow _
  rw [hsum] at htotals
  have hpage : Runtime.drainPage cfg host poll page =
      ⟨page.state.setChamberTotals (plan.drained (done ++ left.take budget)),
        ((left.take budget).foldl (drainRow host poll.options.length)
          (plan.drained done, page.scratch)).2, budget⟩ := by
    simp only [Runtime.drainPage, hdraining.draining, if_true, hkeys, hdraining.totals]
    rw [htotals]
  rw [hpage]
  refine ⟨⟨hdraining.draining, hdraining.weights, ?_, hsized.reset⟩, rfl⟩
  intro key
  rw [hscratch key, hdraining.rows key]
  have hmem : key ∈ left ↔ key ∈ left.take budget ∨ key ∈ left.drop budget := by
    rw [← List.mem_append, List.take_append_drop]
  have hdisjoint : key ∈ left.take budget → key ∉ left.drop budget := by
    intro htaken hdropped
    exact (List.nodup_append.mp hparts).2.2 key htaken key hdropped rfl
  by_cases htaken : key ∈ left.take budget
  · simp [htaken, hdisjoint htaken]
  · simp [htaken, hmem]

end Page

/-! ## A whole close call -/

def CloseState.progress (state : CloseState) :
    Bool × Option AccountId × List ℕ × ChamberTotals :=
  (state.draining, state.cursor, state.optionWeights, state.chamberTotals)

namespace Runtime

def closeStateOf (s : Runtime) (host : ℕ) (poll : Poll) : CloseState :=
  (s.polls.pollCloseState.get host).getD (s.freshClose poll)

def nextPage (cfg : Config) (s : Runtime) (host : ℕ) (poll : Poll) : ClosePage :=
  drainPage cfg host poll
    (s.walkPage cfg host poll ⟨s.checkSmear poll (s.closeStateOf host poll),
      s.polls.pollChamberScratch, cfg.maxClosePage⟩)

theorem closePage_eq (cfg : Config) (s : Runtime) (host : ℕ) (poll : Poll) :
    s.closePage cfg host poll =
      if closeFinished cfg host (s.nextPage cfg host poll) then
        s.finalizeClose host poll (s.nextPage cfg host poll)
      else s.savePage host (s.nextPage cfg host poll) := rfl

end Runtime

section Call

variable {cfg : Config} {host : ℕ} {poll : Poll} {s : Runtime}
  {plan : ClosePlan cfg.blake2 poll} {page : ClosePage} {state : CloseState}
  {rows : ChamberRows} {work : ℕ} {state' : CloseState} {host' : ℕ}
  {done left : List (ℕ × Credential)}

theorem nextPage_of_walking {walked : ClosePage}
    (hwalk : s.walkPage cfg host poll ⟨s.checkSmear poll (s.closeStateOf host poll),
      s.polls.pollChamberScratch, cfg.maxClosePage⟩ = walked)
    (hdraining : walked.state.draining = false) : s.nextPage cfg host poll = walked := by
  rw [nextPage, hwalk]
  simp [Runtime.drainPage, hdraining]

theorem checkSmear_progress (s : Runtime) (poll : Poll) (state : CloseState) :
    (s.checkSmear poll state).progress = state.progress := by
  unfold checkSmear
  split <;> rfl

theorem ClosePlan.Walking.of_progress {visited : List AccountId}
    (hwalking : plan.Walking visited state rows) (hsame : state'.progress = state.progress) :
    plan.Walking visited state' rows := by
  simp only [CloseState.progress, Prod.mk.injEq] at hsame
  obtain ⟨hdraining, hcursor, hweights, htotals⟩ := hsame
  have hspo : state'.spoWeights = state.spoWeights :=
    congrArg ChamberTotals.spoWeights htotals
  exact ⟨hdraining.trans hwalking.draining, hcursor.trans hwalking.cursor,
    hweights.trans hwalking.weights, hwalking.rows, hspo.trans hwalking.untouched⟩

theorem ClosePlan.Draining.of_progress (hdrains : plan.Draining done left state rows)
    (hsame : state'.progress = state.progress) :
    plan.Draining done left state' rows := by
  simp only [CloseState.progress, Prod.mk.injEq] at hsame
  obtain ⟨hdraining, hcursor, hweights, htotals⟩ := hsame
  have hspo : state'.spoWeights = state.spoWeights :=
    congrArg ChamberTotals.spoWeights htotals
  refine ⟨hdraining.trans hdrains.draining, hweights.trans hdrains.weights, hdrains.rows, ?_⟩
  rw [hspo, htotals]
  exact hdrains.totals

theorem ClosePlan.Pending.of_progress (hpending : plan.Pending state rows work)
    (hsame : state'.progress = state.progress) :
    plan.Pending state' rows work := by
  cases hpending with
  | walking hsplit hwalking => exact .walking hsplit (hwalking.of_progress hsame)
  | draining hsplit hdraining => exact .draining hsplit (hdraining.of_progress hsame)

/-- The page has counted and drained everything the plan asks for. -/
structure ClosePlan.Complete (plan : ClosePlan cfg.blake2 poll) (host : ℕ)
    (page : ClosePage) : Prop where
  finished : Runtime.closeFinished cfg host page = true
  weights : page.state.optionWeights = plan.total.weights
  totals : page.state.chamberTotals = plan.drained plan.keys
  rows : ∀ key, hostRows page.scratch host key = none

theorem drainPage_complete_or_pending (hsplit : plan.keys = done ++ left)
    (hdraining : plan.Draining done left page.state (hostRows page.scratch host)) :
    let budget := page.budget * max cfg.maxChamberBadges 1
    let drained := Runtime.drainPage cfg host poll page
    (left.length ≤ budget ∧ plan.Complete host drained) ∨
      (budget < left.length ∧ Runtime.closeFinished cfg host drained = false ∧
        plan.Pending drained.state (hostRows drained.scratch host)
          (left.length - budget)) := by
  intro budget drained
  obtain ⟨hstate, htotals⟩ := drainPage_draining hsplit hdraining
  have hsplit' := split_take hsplit budget
  have hkeys : drained.scratch.prefixKeys cfg.blake2 host = left.drop budget :=
    hstate.prefixKeys hsplit'
  rcases Nat.lt_or_ge budget left.length with hmore | hfits
  · right
    refine ⟨hmore, ?_, ?_⟩
    · simp [Runtime.closeFinished, hkeys, isEmpty_drop hmore]
    · rw [← List.length_drop]
      exact .draining hsplit' hstate
  · left
    have hdrop : left.drop budget = [] := List.drop_eq_nil_of_le hfits
    have htake : left.take budget = left := List.take_of_length_le hfits
    refine ⟨hfits, ⟨?_, hstate.weights, ?_, ?_⟩⟩
    · simp [Runtime.closeFinished, hkeys, hdrop, drained, hstate.draining]
    · rw [htotals]
      change plan.drained (done ++ left.take budget) = plan.drained plan.keys
      rw [htake, hsplit]
    · intro key
      have hrow := hstate.rows key
      rw [if_neg] at hrow
      · exact hrow
      · change key ∉ left.drop budget
        rw [hdrop]
        exact List.not_mem_nil

/-- A close call finishes the close or brings it nearer to its end. -/
theorem nextPage_complete_or_pending (hcovers : plan.Covers host s)
    (hpage : 0 < cfg.maxClosePage)
    (hagrees : (s.closeStateOf host poll).draining = false →
      s.census.Agrees poll.kind plan.census)
    (hpending : plan.Pending (s.closeStateOf host poll)
      (hostRows s.polls.pollChamberScratch host) work) :
    plan.Complete host (s.nextPage cfg host poll) ∨
      (Runtime.closeFinished cfg host (s.nextPage cfg host poll) = false ∧
        ∃ work' < work, plan.Pending (s.nextPage cfg host poll).state
          (hostRows (s.nextPage cfg host poll).scratch host) work') := by
  let start : ClosePage := ⟨s.checkSmear poll (s.closeStateOf host poll),
    s.polls.pollChamberScratch, cfg.maxClosePage⟩
  cases hpending with
  | @walking visited rest hsplit hwalking =>
    have hstart : plan.Walking visited start.state (hostRows start.scratch host) :=
      hwalking.of_progress (checkSmear_progress _ _ _)
    rcases Nat.lt_or_ge cfg.maxClosePage rest.length with hmore | hfits
    · have hwalked := walkPage_more hcovers (hagrees hwalking.draining) hsplit hstart
        hpage hmore
      have hnext : s.nextPage cfg host poll = s.walkPage cfg host poll start :=
        nextPage_of_walking rfl hwalked.draining
      right
      rw [hnext]
      refine ⟨by simp [Runtime.closeFinished, hwalked.draining], _, ?_,
        .walking (split_take hsplit cfg.maxClosePage) hwalked⟩
      rw [List.length_drop]
      omega
    · obtain ⟨hdraining, -⟩ := walkPage_last hcovers (hagrees hwalking.draining) hsplit
        hstart hfits
      rcases drainPage_complete_or_pending (by simp) hdraining with
        ⟨-, hcomplete⟩ | ⟨-, hunfinished, hpending⟩
      · exact Or.inl hcomplete
      · refine Or.inr ⟨hunfinished, _, ?_, hpending⟩
        omega
  | @draining done left hsplit hdraining =>
    have hstart : plan.Draining done left start.state (hostRows start.scratch host) :=
      hdraining.of_progress (checkSmear_progress _ _ _)
    have hwalk : s.walkPage cfg host poll start = start := by
      simp [walkPage, hstart.draining]
    have hnext : s.nextPage cfg host poll = Runtime.drainPage cfg host poll start := by
      change Runtime.drainPage cfg host poll (s.walkPage cfg host poll start) = _
      rw [hwalk]
    have hbudget : 0 < start.budget * max cfg.maxChamberBadges 1 :=
      Nat.mul_pos hpage (lt_of_lt_of_le Nat.one_pos (le_max_right _ _))
    rw [hnext]
    rcases drainPage_complete_or_pending hsplit hstart with
      ⟨-, hcomplete⟩ | ⟨hmore, hunfinished, hpending⟩
    · exact Or.inl hcomplete
    · refine Or.inr ⟨hunfinished, _, ?_, hpending⟩
      omega

theorem nextPage_complete_of_room (hcovers : plan.Covers host s)
    (hroom : plan.voters.length + plan.keys.length ≤ cfg.maxClosePage)
    (hagrees : s.census.Agrees poll.kind plan.census)
    (hwalking : plan.Walking [] (s.closeStateOf host poll)
      (hostRows s.polls.pollChamberScratch host)) :
    plan.Complete host (s.nextPage cfg host poll) := by
  let start : ClosePage := ⟨s.checkSmear poll (s.closeStateOf host poll),
    s.polls.pollChamberScratch, cfg.maxClosePage⟩
  have hstart : plan.Walking [] start.state (hostRows start.scratch host) :=
    hwalking.of_progress (checkSmear_progress _ _ _)
  have hfits : plan.voters.length ≤ start.budget := by
    change _ ≤ cfg.maxClosePage
    omega
  obtain ⟨hdraining, hbudget⟩ := walkPage_last hcovers hagrees (by simp) hstart hfits
  rcases drainPage_complete_or_pending (by simp) hdraining with
    ⟨-, hcomplete⟩ | ⟨hmore, -, -⟩
  · exact hcomplete
  · have hratio : cfg.maxClosePage - plan.voters.length ≤
        (cfg.maxClosePage - plan.voters.length) * max cfg.maxChamberBadges 1 :=
      Nat.le_mul_of_pos_right _ (lt_of_lt_of_le Nat.one_pos (le_max_right _ _))
    rw [hbudget] at hmore
    simp only [start] at hmore
    omega

theorem nextPage_stamp (cfg : Config) (s : Runtime) (host : ℕ) (poll : Poll) :
    (s.nextPage cfg host poll).state.stakeSeq = (s.closeStateOf host poll).stakeSeq ∧
      (s.nextPage cfg host poll).state.rolesSeq = (s.closeStateOf host poll).rolesSeq ∧
      (s.nextPage cfg host poll).state.smeared =
        (s.checkSmear poll (s.closeStateOf host poll)).smeared := by
  have hseqs : (s.checkSmear poll (s.closeStateOf host poll)).stakeSeq =
        (s.closeStateOf host poll).stakeSeq ∧
      (s.checkSmear poll (s.closeStateOf host poll)).rolesSeq =
        (s.closeStateOf host poll).rolesSeq := by
    unfold checkSmear
    split <;> exact ⟨rfl, rfl⟩
  unfold Runtime.nextPage Runtime.drainPage walkPage
  split_ifs <;> exact ⟨hseqs.1, hseqs.2, rfl⟩

theorem walkPage_cursor (hstart : page.state.draining = false)
    (hwalks : (s.walkPage cfg host poll page).state.draining = false) :
    (s.walkPage cfg host poll page).state.cursor.isSome = true := by
  simp only [walkPage, hstart, Bool.false_eq_true, if_false] at hwalks ⊢
  rw [hwalks, if_neg Bool.false_ne_true]
  rw [Bool.or_eq_false_iff, Bool.or_eq_false_iff, Option.isNone_eq_false_iff] at hwalks
  exact hwalks.1.2

theorem nextPage_draining (hdrains : (s.closeStateOf host poll).draining = true) :
    (s.nextPage cfg host poll).state.draining = true := by
  have hprogress := checkSmear_progress s poll (s.closeStateOf host poll)
  have hchecked : (s.checkSmear poll (s.closeStateOf host poll)).draining = true := by
    rw [← hdrains]
    exact congrArg Prod.fst hprogress
  simp [Runtime.nextPage, walkPage, Runtime.drainPage, hchecked,
    CloseState.setChamberTotals]

theorem nextPage_cursor (hstart : (s.closeStateOf host poll).draining = false)
    (hwalks : (s.nextPage cfg host poll).state.draining = false) :
    (s.nextPage cfg host poll).state.cursor.isSome = true := by
  let start : ClosePage := ⟨s.checkSmear poll (s.closeStateOf host poll),
    s.polls.pollChamberScratch, cfg.maxClosePage⟩
  have hchecked : start.state.draining = false := by
    have hprogress : start.state.progress = (s.closeStateOf host poll).progress :=
      checkSmear_progress _ _ _
    exact (congrArg Prod.fst hprogress).trans hstart
  have hwalked : (s.walkPage cfg host poll start).state.draining = false := by
    unfold Runtime.nextPage Runtime.drainPage at hwalks
    split at hwalks <;> exact hwalks
  rw [nextPage_of_walking rfl hwalked]
  exact walkPage_cursor hchecked hwalked

theorem walkPage_scratch_of_ne (hne : host' ≠ host) :
    hostRows (s.walkPage cfg host poll page).scratch host' = hostRows page.scratch host' := by
  unfold walkPage
  split
  · rfl
  · exact foldl_walkVoter_scratch_of_ne hne s _ _

theorem drainPage_scratch_of_ne (hne : host' ≠ host) :
    hostRows (Runtime.drainPage cfg host poll page).scratch host' =
      hostRows page.scratch host' := by
  unfold Runtime.drainPage
  split
  · exact foldl_drainRow_scratch_of_ne hne _ _
  · rfl

theorem nextPage_scratch_of_ne (hne : host' ≠ host) :
    hostRows (s.nextPage cfg host poll).scratch host' =
      hostRows s.polls.pollChamberScratch host' := by
  rw [Runtime.nextPage, drainPage_scratch_of_ne hne, walkPage_scratch_of_ne hne]

end Call

end CognoChain
