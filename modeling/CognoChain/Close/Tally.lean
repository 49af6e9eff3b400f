import CognoChain.Model.Frames

/-!
# The tally a close computes

A close reads ballots, voting power and badges, counts voters one at a time
and then adds up the chamber rows.  Here the count is written over plain
functions: who voted what, what every account weighs, and the chamber rows of
the one poll.  The pages of the close compute it over storage.
-/

namespace CognoChain

open Substrate

structure Census where
  power : AccountId → ℕ
  roles : AccountId → List RoleTuple

def Census.Agrees (kind : PollKind) (c c' : Census) : Prop :=
  (∀ who, c.power who = c'.power who) ∧
    (kind.hasChambers = true → ∀ who, c.roles who = c'.roles who)

namespace Runtime

def census (s : Runtime) : Census :=
  ⟨fun who => s.talkStake.votingPower.getD who 0, s.rolesOf⟩

def ballotOf (s : Runtime) (host : ℕ) (who : AccountId) : Option ℕ :=
  s.polls.pollVotes.get (host, who)

end Runtime

/-! ## Sums by option -/

def slotSums (bound numOptions : ℕ) (parts : List (ℕ × ℕ)) : List ℕ :=
  parts.foldl (fun totals part => addAt bound totals part.1 part.2)
    (List.replicate numOptions 0)

def ballotParts (vote : AccountId → Option ℕ) (power : AccountId → ℕ)
    (accounts : List AccountId) : List (ℕ × ℕ) :=
  accounts.filterMap (fun who => (vote who).map (fun option => (option, power who)))

section SlotSums

variable {bound numOptions : ℕ} {parts parts' : List (ℕ × ℕ)} {vote : AccountId → Option ℕ}
  {power : AccountId → ℕ}

@[simp] theorem addAt_length (bound : ℕ) (totals : List ℕ) (i amount : ℕ) :
    (addAt bound totals i amount).length = totals.length := by
  simp [addAt]

theorem addAt_getElem? (bound : ℕ) (totals : List ℕ) (i j amount : ℕ) :
    (addAt bound totals i amount)[j]? =
      if i = j then (totals[j]?).map (fun total => satAdd bound total amount)
      else totals[j]? := by
  rw [addAt, List.getElem?_modify]
  split_ifs <;> simp

theorem addAt_of_length_le {i amount : ℕ} {totals : List ℕ} (h : totals.length ≤ i) :
    addAt bound totals i amount = totals :=
  List.modify_eq_self h

theorem slotSums_append_singleton (parts : List (ℕ × ℕ)) (part : ℕ × ℕ) :
    slotSums bound numOptions (parts ++ [part]) =
      addAt bound (slotSums bound numOptions parts) part.1 part.2 := by
  rw [slotSums, List.foldl_append]
  rfl

@[simp] theorem slotSums_length : (slotSums bound numOptions parts).length = numOptions := by
  induction parts using List.reverseRecOn with
  | nil => exact List.length_replicate
  | append_singleton parts part ih => rw [slotSums_append_singleton, addAt_length, ih]

theorem slotSums_getElem? {option : ℕ} (hoption : option < numOptions) :
    (slotSums bound numOptions parts)[option]? =
      some (min ((parts.filter (fun part => part.1 = option)).map Prod.snd).sum bound) := by
  induction parts using List.reverseRecOn with
  | nil => simp [slotSums, hoption]
  | append_singleton parts part ih =>
    rw [slotSums_append_singleton, addAt_getElem?, ih]
    by_cases hpart : part.1 = option
    · simp only [hpart, if_true, Option.map_some, List.filter_append, List.map_append,
        List.sum_append, decide_true, List.filter_cons_of_pos, List.filter_nil, List.map_cons,
        List.map_nil, List.sum_cons, List.sum_nil, Nat.add_zero, satAdd, Option.some.injEq]
      omega
    · simp [hpart, List.filter_append]

theorem slotSums_congr (hsum : ∀ option < numOptions,
      ((parts.filter (fun part => part.1 = option)).map Prod.snd).sum =
        ((parts'.filter (fun part => part.1 = option)).map Prod.snd).sum) :
    slotSums bound numOptions parts = slotSums bound numOptions parts' := by
  apply List.ext_getElem?
  intro option
  by_cases hoption : option < numOptions
  · rw [slotSums_getElem? hoption, slotSums_getElem? hoption, hsum option hoption]
  · rw [List.getElem?_eq_none (by simpa using hoption),
      List.getElem?_eq_none (by simpa using hoption)]

theorem slotSums_perm (hperm : parts.Perm parts') :
    slotSums bound numOptions parts = slotSums bound numOptions parts' :=
  slotSums_congr (fun _ _ => ((hperm.filter _).map Prod.snd).sum_eq)

theorem ballotParts_append_singleton (accounts : List AccountId) (who : AccountId) :
    ballotParts vote power (accounts ++ [who]) =
      ballotParts vote power accounts ++
        ((vote who).map (fun option => (option, power who))).toList := by
  rw [ballotParts, List.filterMap_append, ← ballotParts]
  cases hvote : vote who <;> simp [hvote]

theorem ballotParts_sum (option : ℕ) (accounts : List AccountId) :
    (((ballotParts vote power accounts).filter (fun part => part.1 = option)).map Prod.snd).sum =
      ((accounts.filter (fun who => vote who = some option)).map power).sum := by
  induction accounts with
  | nil => rfl
  | cons who accounts ih =>
    unfold ballotParts at ih ⊢
    cases hvote : vote who with
    | none => simpa [hvote] using ih
    | some choice =>
      by_cases hchoice : choice = option
      · simpa [hvote, hchoice] using ih
      · simpa [hvote, hchoice] using ih

end SlotSums

/-! ## Counting voters -/

abbrev ChamberRows := ℕ × Credential → Option ChamberEntry

def hostRows (scratch : ChamberScratch) (host : ℕ) : ChamberRows :=
  fun key => scratch.get (host, key)

def noteBadge (kind : PollKind) (option : ℕ) (rows : ChamberRows)
    (badge : RoleTuple) : ChamberRows :=
  if kind.wants badge.1 then
    let key := (badge.1, badge.2.1)
    match rows key with
    | none => Function.update rows key (some ⟨option, badge.2.2, false⟩)
    | some entry =>
        if badge.1 = 0 ∧ entry.conflict = false ∧ entry.option ≠ option then
          Function.update rows key (some { entry with conflict := true })
        else rows
  else rows

structure Count where
  weights : List ℕ
  rows : ChamberRows

def Count.zero (poll : Poll) : Count :=
  ⟨List.replicate poll.options.length 0, fun _ => none⟩

def countVoter (poll : Poll) (vote : AccountId → Option ℕ) (census : Census) (acc : Count)
    (voter : AccountId) : Count :=
  match vote voter with
  | none => acc
  | some option =>
      if poll.options.length ≤ option then acc
      else
        { weights := addAt u128Max acc.weights option (census.power voter)
          rows :=
            if poll.kind.hasChambers then
              (census.roles voter).foldl (noteBadge poll.kind option) acc.rows
            else acc.rows }

def countVoters (poll : Poll) (vote : AccountId → Option ℕ) (census : Census)
    (voters : List AccountId) : Count :=
  voters.foldl (countVoter poll vote census) (Count.zero poll)

def WalkTotals.count (host : ℕ) (acc : WalkTotals) : Count :=
  ⟨acc.weights, hostRows acc.scratch host⟩

section Counting

variable {host host' : ℕ} {poll : Poll} {vote : AccountId → Option ℕ} {census : Census}

theorem hostRows_insert (scratch : ChamberScratch) (host : ℕ) (key : ℕ × Credential)
    (entry : ChamberEntry) :
    hostRows (scratch.insert (host, key) entry) host =
      Function.update (hostRows scratch host) key (some entry) := by
  funext key'
  simp [hostRows, StorageMap.get_insert, Function.update_apply]

theorem hostRows_insert_of_ne (scratch : ChamberScratch) (hne : host' ≠ host)
    (key : ℕ × Credential) (entry : ChamberEntry) :
    hostRows (scratch.insert (host, key) entry) host' = hostRows scratch host' := by
  funext key'
  simp [hostRows, StorageMap.get_insert, hne]

theorem hostRows_recordBadge (kind : PollKind) (option : ℕ) (scratch : ChamberScratch)
    (badge : RoleTuple) :
    hostRows (recordBadge host kind option scratch badge) host =
      noteBadge kind option (hostRows scratch host) badge := by
  unfold recordBadge noteBadge
  split_ifs with hwants
  · have hread : hostRows scratch host (badge.1, badge.2.1) =
        scratch.get (host, (badge.1, badge.2.1)) := rfl
    dsimp only
    rw [hread]
    cases scratch.get (host, (badge.1, badge.2.1)) with
    | none => exact hostRows_insert _ _ _ _
    | some entry =>
      dsimp only
      split_ifs
      · exact hostRows_insert _ _ _ _
      · rfl
  · rfl

theorem hostRows_recordBadge_of_ne (hne : host' ≠ host) (kind : PollKind) (option : ℕ)
    (scratch : ChamberScratch) (badge : RoleTuple) :
    hostRows (recordBadge host kind option scratch badge) host' = hostRows scratch host' := by
  unfold recordBadge
  split_ifs
  · dsimp only
    split
    · exact hostRows_insert_of_ne _ hne _ _
    · split_ifs
      · exact hostRows_insert_of_ne _ hne _ _
      · rfl
  · rfl

theorem hostRows_foldl_recordBadge (kind : PollKind) (option : ℕ)
    (scratch : ChamberScratch) (badges : List RoleTuple) :
    hostRows (badges.foldl (recordBadge host kind option) scratch) host =
      badges.foldl (noteBadge kind option) (hostRows scratch host) :=
  (List.foldl_hom (hostRows · host)
    (fun scratch badge => (hostRows_recordBadge kind option scratch badge).symm)).symm

theorem hostRows_foldl_recordBadge_of_ne (hne : host' ≠ host) (kind : PollKind)
    (option : ℕ) (scratch : ChamberScratch) (badges : List RoleTuple) :
    hostRows (badges.foldl (recordBadge host kind option) scratch) host' =
      hostRows scratch host' := by
  induction badges generalizing scratch with
  | nil => rfl
  | cons badge badges ih =>
    rw [List.foldl_cons, ih, hostRows_recordBadge_of_ne hne]

theorem walkVoter_count (s : Runtime) (acc : WalkTotals) (voter : AccountId) :
    (s.walkVoter host poll acc voter).count host =
      countVoter poll (s.ballotOf host) s.census (acc.count host) voter := by
  unfold Runtime.walkVoter countVoter Runtime.ballotOf
  cases s.polls.pollVotes.get (host, voter) with
  | none => rfl
  | some option =>
    dsimp only
    split_ifs with hoption hkind
    · rfl
    · simp only [WalkTotals.count, hostRows_foldl_recordBadge]
      rfl
    · rfl

theorem foldl_walkVoter_count (s : Runtime) (acc : WalkTotals) (voters : List AccountId) :
    (voters.foldl (s.walkVoter host poll) acc).count host =
      voters.foldl (countVoter poll (s.ballotOf host) s.census) (acc.count host) :=
  (List.foldl_hom (WalkTotals.count host) (fun acc voter => (walkVoter_count s acc voter).symm)).symm

theorem foldl_walkVoter_scratch_of_ne (hne : host' ≠ host) (s : Runtime) (acc : WalkTotals)
    (voters : List AccountId) :
    hostRows (voters.foldl (s.walkVoter host poll) acc).scratch host' =
      hostRows acc.scratch host' := by
  induction voters generalizing acc with
  | nil => rfl
  | cons voter voters ih =>
    rw [List.foldl_cons, ih]
    unfold Runtime.walkVoter
    split
    · rfl
    · split_ifs
      · rfl
      · exact hostRows_foldl_recordBadge_of_ne hne _ _ _ _
      · rfl

theorem countVoter_congr {census' : Census} (hagrees : census.Agrees poll.kind census')
    (acc : Count) (voter : AccountId) :
    countVoter poll vote census acc voter = countVoter poll vote census' acc voter := by
  unfold countVoter
  cases vote voter with
  | none => rfl
  | some option =>
    dsimp only
    rw [hagrees.1 voter]
    split_ifs with hoption hkind
    · rfl
    · rw [hagrees.2 hkind voter]
    · rfl

theorem foldl_countVoter_congr {census' : Census}
    (hagrees : census.Agrees poll.kind census') (acc : Count) (voters : List AccountId) :
    voters.foldl (countVoter poll vote census) acc =
      voters.foldl (countVoter poll vote census') acc := by
  have hstep : countVoter poll vote census = countVoter poll vote census' := by
    funext acc voter
    exact countVoter_congr hagrees acc voter
  rw [hstep]

theorem countVoters_append (visited next : List AccountId) :
    countVoters poll vote census (visited ++ next) =
      next.foldl (countVoter poll vote census) (countVoters poll vote census visited) :=
  List.foldl_append

theorem countVoters_slotSums (poll : Poll) (census : Census) (voters : List AccountId) :
    (countVoters poll vote census voters).weights =
      slotSums u128Max poll.options.length (ballotParts vote census.power voters) := by
  induction voters using List.reverseRecOn with
  | nil => rfl
  | append_singleton voters voter ih =>
    rw [countVoters_append, List.foldl_cons, List.foldl_nil, ballotParts_append_singleton]
    unfold countVoter
    cases vote voter with
    | none => simpa using ih
    | some option =>
      rw [Option.map_some, Option.toList_some, slotSums_append_singleton, ← ih]
      dsimp only
      split_ifs with hoption
      · rw [addAt_of_length_le (by rw [ih, slotSums_length]; exact hoption)]
      · rfl
      · rfl

theorem countVoters_weights {option : ℕ} (hoption : option < poll.options.length)
    (voters : List AccountId) :
    (countVoters poll vote census voters).weights[option]? =
      some (min ((voters.filter (fun voter => vote voter = some option)).map
        census.power).sum u128Max) := by
  rw [countVoters_slotSums, slotSums_getElem? hoption, ballotParts_sum]

end Counting

/-! ## Adding up the chambers -/

def addRow (numOptions : ℕ) (rows : ChamberRows) (totals : ChamberTotals)
    (key : ℕ × Credential) : ChamberTotals :=
  match rows key with
  | none => totals
  | some entry => totals.addEntry numOptions key.1 entry

def addRows (numOptions : ℕ) (rows : ChamberRows) (keys : List (ℕ × Credential)) :
    ChamberTotals :=
  keys.foldl (addRow numOptions rows) (ChamberTotals.zero numOptions)

structure ChamberTotals.Sized (numOptions : ℕ) (totals : ChamberTotals) : Prop where
  spoWeights : totals.spoWeights.length = numOptions
  spoCounts : totals.spoCounts.length = numOptions
  drepWeights : totals.drepWeights.length = numOptions
  drepCounts : totals.drepCounts.length = numOptions

section Chambers

variable {host host' numOptions : ℕ} {rows : ChamberRows} {totals : ChamberTotals}

theorem ChamberTotals.zero_sized (numOptions : ℕ) :
    (ChamberTotals.zero numOptions).Sized numOptions := by
  constructor <;> simp [ChamberTotals.zero]

theorem ChamberTotals.Sized.addEntry (hsized : totals.Sized numOptions) (badgeKind : ℕ)
    (entry : ChamberEntry) :
    (totals.addEntry numOptions badgeKind entry).Sized numOptions := by
  unfold ChamberTotals.addEntry
  split
  · exact hsized
  · split
    · constructor <;> simp [hsized.spoWeights, hsized.spoCounts, hsized.drepWeights,
        hsized.drepCounts]
    · constructor <;> simp [hsized.spoWeights, hsized.spoCounts, hsized.drepWeights,
        hsized.drepCounts]
    · exact hsized

theorem ChamberTotals.Sized.foldl_addRow (hsized : totals.Sized numOptions)
    (keys : List (ℕ × Credential)) :
    (keys.foldl (addRow numOptions rows) totals).Sized numOptions := by
  apply foldl_invariant (addRow numOptions rows) (ChamberTotals.Sized numOptions)
  · intro totals key htotals
    unfold addRow
    split
    · exact htotals
    · exact htotals.addEntry _ _
  · exact hsized

theorem ChamberTotals.Sized.reset (hsized : totals.Sized numOptions) :
    (if totals.spoWeights = [] then ChamberTotals.zero numOptions else totals) = totals := by
  split_ifs with hempty
  · have hnone : numOptions = 0 := by
      rw [← hsized.spoWeights, hempty]
      rfl
    have hsized' := hsized
    subst hnone
    obtain ⟨spoWeights, spoCounts, drepWeights, drepCounts⟩ := totals
    obtain ⟨h₁, h₂, h₃, h₄⟩ := hsized'
    simp only [List.length_eq_zero_iff] at h₁ h₂ h₃ h₄
    simp [ChamberTotals.zero, h₁, h₂, h₃, h₄]
  · rfl

theorem hostRows_remove (scratch : ChamberScratch) (host : ℕ) (key : ℕ × Credential) :
    hostRows (scratch.remove (host, key)) host =
      Function.update (hostRows scratch host) key none := by
  funext key'
  simp [hostRows, StorageMap.get_remove, Function.update_apply]

theorem foldl_drainRow_scratch_of_ne (hne : host' ≠ host) (keys : List (ℕ × Credential))
    (acc : ChamberTotals × ChamberScratch) :
    hostRows (keys.foldl (drainRow host numOptions) acc).2 host' = hostRows acc.2 host' := by
  induction keys generalizing acc with
  | nil => rfl
  | cons key keys ih =>
    rw [List.foldl_cons, ih]
    funext key'
    simp [hostRows, drainRow, StorageMap.get_remove, hne]

theorem foldl_drainRow (host numOptions : ℕ) (rows : ChamberRows)
    (keys : List (ℕ × Credential)) (hnodup : keys.Nodup)
    (acc : ChamberTotals × ChamberScratch)
    (hrows : ∀ key ∈ keys, hostRows acc.2 host key = rows key) :
    (keys.foldl (drainRow host numOptions) acc).1 =
        keys.foldl (addRow numOptions rows) acc.1 ∧
      ∀ key, hostRows (keys.foldl (drainRow host numOptions) acc).2 host key =
        if key ∈ keys then none else hostRows acc.2 host key := by
  induction keys generalizing acc with
  | nil => exact ⟨rfl, by simp⟩
  | cons key keys ih =>
    obtain ⟨hfresh, hrest⟩ := List.nodup_cons.mp hnodup
    have hremoved : hostRows (drainRow host numOptions acc key).2 host =
        Function.update (hostRows acc.2 host) key none := hostRows_remove _ _ _
    have hkeep : ∀ key' ∈ keys,
        hostRows (drainRow host numOptions acc key).2 host key' = rows key' := by
      intro key' hmem
      have hne : key' ≠ key := fun heq => hfresh (heq ▸ hmem)
      rw [hremoved, Function.update_of_ne hne]
      exact hrows key' (List.mem_cons_of_mem _ hmem)
    obtain ⟨htotals, hscratch⟩ := ih hrest (drainRow host numOptions acc key) hkeep
    have hstep : (drainRow host numOptions acc key).1 = addRow numOptions rows acc.1 key := by
      have hread : acc.2.get (host, key) = rows key := hrows key List.mem_cons_self
      cases hrow : rows key <;> simp only [drainRow, addRow, hread, hrow]
    refine ⟨?_, ?_⟩
    · rw [List.foldl_cons, List.foldl_cons, htotals, hstep]
    · intro key'
      rw [List.foldl_cons, hscratch key', hremoved]
      by_cases hkey : key' = key
      · subst hkey
        simp
      · simp [hkey]

end Chambers

/-! ## The frozen result -/

def Runtime.optionCounts (s : Runtime) (host : ℕ) (poll : Poll) : List ℕ :=
  (List.range poll.options.length).map (fun i => s.polls.pollTally.getD (host, i % 2 ^ 8) 0)

def resultOf (poll : Poll) (counts weights : List ℕ) (totals : ChamberTotals)
    (closedAt : ℕ) : PollResult :=
  let total := counts.foldl (satAdd u32Max) 0
  let materialize := decide (0 < total) && poll.kind.hasChambers
  let spo := materialize && poll.kind.hasSpo
  let drep := materialize && poll.kind.hasDrep
  { optionWeights := weights
    optionCounts := (List.range weights.length).map (fun i => counts.getD i 0)
    optionSpoWeights := if spo then totals.spoWeights else []
    optionSpoCounts := if spo then totals.spoCounts else []
    optionDrepWeights := if drep then totals.drepWeights else []
    optionDrepCounts := if drep then totals.drepCounts else []
    closedAt := closedAt }

theorem frozenResult_eq (s : Runtime) (host : ℕ) (poll : Poll) (state : CloseState) :
    s.frozenResult host poll state =
      resultOf poll (s.optionCounts host poll) state.optionWeights state.chamberTotals
        s.blockNumber := rfl

end CognoChain
