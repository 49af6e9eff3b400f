import CognoChain.Close.Paged
import CognoChain.Model.PollView

/-!
# What the chambers add up to

A chamber sees the badges of the accounts that voted.  The paged close and the
live view collect these sightings in different orders and in differently
shaped maps; both keep one row per badge id and add the rows up.  The totals
depend on the order only where two sightings of one id disagree.
-/

namespace CognoChain

open Substrate StorageMap

/-! ## Sightings -/

structure Sighting where
  key : ℕ × Credential
  option : ℕ
  weight : ℕ

def wantsOf (wantSpo wantDrep : Bool) : ℕ → Bool
  | 0 => wantSpo
  | 1 => wantDrep
  | _ => false

def badgeSightings (wants : ℕ → Bool) (option : ℕ) (roles : List RoleTuple) : List Sighting :=
  (roles.filter (fun role => wants role.1)).map
    (fun role => ⟨(role.1, role.2.1), option, role.2.2⟩)

def voterSightings (wants : ℕ → Bool) (numOptions : ℕ) (vote : AccountId → Option ℕ)
    (roles : AccountId → List RoleTuple) (who : AccountId) : List Sighting :=
  match vote who with
  | none => []
  | some option =>
      if numOptions ≤ option then [] else badgeSightings wants option (roles who)

def sightings (wants : ℕ → Bool) (numOptions : ℕ) (vote : AccountId → Option ℕ)
    (roles : AccountId → List RoleTuple) (accounts : List AccountId) : List Sighting :=
  accounts.flatMap (voterSightings wants numOptions vote roles)

/-- The row of an id: the first sighting, and whether a pool was seen under
another option later. -/
def rowFrom : List Sighting → Option ChamberEntry
  | [] => none
  | first :: rest =>
      some ⟨first.option, first.weight,
        decide (first.key.1 = 0) && rest.any (fun x => x.option ≠ first.option)⟩

def rowsOf (xs : List Sighting) : ChamberRows :=
  fun key => rowFrom (xs.filter (fun x => x.key = key))

def joinSighting (row : Option ChamberEntry) (x : Sighting) : ChamberEntry :=
  match row with
  | none => ⟨x.option, x.weight, false⟩
  | some entry =>
      { entry with
        conflict := entry.conflict || (decide (x.key.1 = 0) && decide (x.option ≠ entry.option)) }

def noteSighting (rows : ChamberRows) (x : Sighting) : ChamberRows :=
  Function.update rows x.key (some (joinSighting (rows x.key) x))

section Rows

variable {wants : ℕ → Bool} {numOptions option : ℕ} {key : ℕ × Credential}
  {vote : AccountId → Option ℕ} {roles : AccountId → List RoleTuple} {xs ys : List Sighting}

theorem rowFrom_append_singleton {x : Sighting} (hkeys : ∀ y ∈ xs, y.key = x.key) :
    rowFrom (xs ++ [x]) = some (joinSighting (rowFrom xs) x) := by
  cases xs with
  | nil => simp [rowFrom, joinSighting]
  | cons first rest =>
    have hfirst : first.key = x.key := hkeys first List.mem_cons_self
    simp only [List.cons_append, rowFrom, joinSighting, List.any_append, List.any_cons,
      List.any_nil, Bool.or_false, hfirst, Bool.and_or_distrib_left]

theorem noteSighting_rowsOf (xs : List Sighting) (x : Sighting) :
    noteSighting (rowsOf xs) x = rowsOf (xs ++ [x]) := by
  funext key
  unfold noteSighting rowsOf
  rw [List.filter_append]
  by_cases hkey : x.key = key
  · subst hkey
    rw [Function.update_self, List.filter_cons_of_pos (by simp), List.filter_nil,
      rowFrom_append_singleton (fun y hy => by simpa using (List.mem_filter.mp hy).2)]
  · rw [Function.update_of_ne (Ne.symm hkey), List.filter_cons_of_neg (by simpa using hkey),
      List.filter_nil, List.append_nil]

theorem foldl_noteSighting (xs ys : List Sighting) :
    ys.foldl noteSighting (rowsOf xs) = rowsOf (xs ++ ys) := by
  induction ys generalizing xs with
  | nil => simp
  | cons y ys ih => rw [List.foldl_cons, noteSighting_rowsOf, ih, List.append_assoc]; rfl

theorem rowsOf_isSome_iff : (rowsOf xs key).isSome ↔ key ∈ xs.map Sighting.key := by
  unfold rowsOf
  cases hrow : xs.filter (fun x => x.key = key) with
  | nil =>
    simp only [rowFrom, Option.isSome_none, Bool.false_eq_true, false_iff, List.mem_map, not_exists,
      not_and]
    intro x hx hkey
    have hmem : x ∈ xs.filter (fun x => x.key = key) := by simp [hx, hkey]
    rw [hrow] at hmem
    cases hmem
  | cons first rest =>
    have hmem : first ∈ xs.filter (fun x => x.key = key) := by simp [hrow]
    obtain ⟨hfirst, hkey⟩ := List.mem_filter.mp hmem
    simp only [rowFrom, Option.isSome_some, true_iff, List.mem_map]
    exact ⟨first, hfirst, by simpa using hkey⟩

/-! ## Both walks collect sightings -/

theorem wants_eq_wantsOf (kind : PollKind) : kind.wants = wantsOf kind.hasSpo kind.hasDrep := by
  funext badgeKind
  match badgeKind with
  | 0 => rfl
  | 1 => rfl
  | _ + 2 => rfl

theorem noteBadge_eq (kind : PollKind) (option : ℕ) (rows : ChamberRows) (badge : RoleTuple) :
    noteBadge kind option rows badge =
      if kind.wants badge.1 then
        noteSighting rows ⟨(badge.1, badge.2.1), option, badge.2.2⟩
      else rows := by
  unfold noteBadge noteSighting joinSighting
  split_ifs with hwants
  · dsimp only
    cases hrow : rows (badge.1, badge.2.1) with
    | none => rfl
    | some entry =>
      obtain ⟨chosen, weight, conflict⟩ := entry
      dsimp only
      split_ifs with hchange
      · obtain ⟨hpool, -, hother⟩ := hchange
        simp [hpool, Ne.symm hother]
      · refine (Function.update_eq_self_iff.mpr ?_).symm
        rw [hrow]
        cases conflict with
        | true => rfl
        | false =>
          simp only [ne_eq, true_and, not_and, not_not] at hchange
          by_cases hpool : badge.1 = 0
          · simp [hchange hpool]
          · simp [hpool]
  · rfl

theorem foldl_noteBadge (kind : PollKind) (option : ℕ) (rows : ChamberRows)
    (badges : List RoleTuple) :
    badges.foldl (noteBadge kind option) rows =
      (badgeSightings kind.wants option badges).foldl noteSighting rows := by
  rw [badgeSightings, List.foldl_map, List.foldl_filter]
  exact congrArg (fun step => badges.foldl step rows) (funext₂ (noteBadge_eq kind option))

/-- A walk that notes the sightings of each account collects those of all. -/
theorem foldl_rows {β : Type} (rows : β → ChamberRows) {step : β → AccountId → β} {start : β}
    (hstart : rows start = rowsOf [])
    (hstep : ∀ b who, rows (step b who) =
      (voterSightings wants numOptions vote roles who).foldl noteSighting (rows b))
    (accounts : List AccountId) :
    rows (accounts.foldl step start) = rowsOf (sightings wants numOptions vote roles accounts) := by
  have hfold : rows (accounts.foldl step start) =
      (sightings wants numOptions vote roles accounts).foldl noteSighting (rows start) := by
    rw [sightings, List.foldl_flatMap]
    exact (List.foldl_hom rows (fun b who => (hstep b who).symm)).symm
  rw [hfold, hstart, foldl_noteSighting, List.nil_append]

theorem countVoters_rows (poll : Poll) (vote : AccountId → Option ℕ) (census : Census)
    (voters : List AccountId) :
    (countVoters poll vote census voters).rows =
      rowsOf (sightings poll.kind.wants poll.options.length vote census.roles voters) := by
  refine foldl_rows Count.rows rfl (fun tally voter => ?_) voters
  unfold countVoter voterSightings
  cases vote voter with
  | none => rfl
  | some option =>
    dsimp only
    split_ifs with hoption hkind
    · rfl
    · exact foldl_noteBadge _ _ _ _
    · have hnone : badgeSightings poll.kind.wants option (census.roles voter) = [] := by
        have hwants : ∀ badgeKind, poll.kind.wants badgeKind = false := by
          rw [PollKind.hasChambers, Bool.or_eq_true, not_or] at hkind
          intro badgeKind
          rw [wants_eq_wantsOf]
          unfold wantsOf
          split <;> simp_all
        simp [badgeSightings, hwants]
      rw [hnone]
      rfl

end Rows

def drepEntry (choice : ℕ × ℕ) : ChamberEntry := ⟨choice.1, choice.2, false⟩

def ChamberChoices.rows (choices : ChamberChoices) : ChamberRows := fun key =>
  match key.1 with
  | 0 => choices.pools.get key.2
  | 1 => (choices.dreps.get key.2).map drepEntry
  | _ => none

section Live

variable {wantSpo wantDrep : Bool} {option : ℕ} {choices : ChamberChoices}
  {entry : Option ChamberEntry} {id : Credential}

theorem choosePool_get (option : ℕ) (pools : StorageMap Credential ChamberEntry)
    (id : Credential) (weight : ℕ) :
    (choosePool option pools id weight).get =
      Function.update pools.get id
        (some (joinSighting (pools.get id) ⟨(0, id), option, weight⟩)) := by
  unfold choosePool joinSighting
  cases hrow : pools.get id with
  | none => exact get_insert_eq_update _ _ _
  | some entry =>
    obtain ⟨chosen, stored, conflict⟩ := entry
    dsimp only
    split_ifs with hoption
    · rw [get_insert_eq_update]
      simp [Ne.symm hoption]
    · refine (Function.update_eq_self_iff.mpr ?_).symm
      rw [hrow, not_not.mp hoption]
      simp

theorem chooseDrep_get (option : ℕ) (dreps : StorageMap Credential (ℕ × ℕ))
    (id : Credential) (weight : ℕ) :
    (fun other => ((chooseDrep option dreps id weight).get other).map drepEntry) =
      Function.update (fun other => (dreps.get other).map drepEntry) id
        (some (joinSighting ((dreps.get id).map drepEntry) ⟨(1, id), option, weight⟩)) := by
  unfold chooseDrep joinSighting
  funext other
  by_cases hother : other = id
  · subst hother
    rw [Function.update_self]
    cases hrow : dreps.get other with
    | none => simp [drepEntry]
    | some choice => simp [hrow, drepEntry]
  · rw [Function.update_of_ne hother]
    cases dreps.get id with
    | none => exact congrArg _ (get_insert_of_ne _ _ hother)
    | some choice => rfl

theorem ChamberChoices.rows_setPools {pools : StorageMap Credential ChamberEntry}
    (hpools : pools.get = Function.update choices.pools.get id entry) :
    ChamberChoices.rows { choices with pools := pools } =
      Function.update choices.rows (0, id) entry := by
  funext ⟨kind, other⟩
  match kind with
  | 0 => simpa [ChamberChoices.rows, Function.update_apply] using congrFun hpools other
  | 1 => exact (Function.update_of_ne (by simp) _ _).symm
  | _ + 2 => exact (Function.update_of_ne (by simp) _ _).symm

theorem ChamberChoices.rows_setDreps {dreps : StorageMap Credential (ℕ × ℕ)}
    (hdreps : (fun other => (dreps.get other).map drepEntry) = Function.update (fun other => (choices.dreps.get other).map drepEntry) id entry) :
    ChamberChoices.rows { choices with dreps := dreps } =
      Function.update choices.rows (1, id) entry := by
  funext ⟨kind, other⟩
  match kind with
  | 0 => exact (Function.update_of_ne (by simp) _ _).symm
  | 1 => simpa [ChamberChoices.rows, Function.update_apply] using congrFun hdreps other
  | _ + 2 => exact (Function.update_of_ne (by simp) _ _).symm

theorem chooseRole_rows (choices : ChamberChoices) (role : RoleTuple) :
    (chooseRole wantSpo wantDrep option choices role).rows =
      if wantsOf wantSpo wantDrep role.1 then
        noteSighting choices.rows ⟨(role.1, role.2.1), option, role.2.2⟩
      else choices.rows := by
  obtain ⟨badgeKind, id, weight⟩ := role
  match badgeKind with
  | 0 =>
    cases wantSpo with
    | false => rfl
    | true => exact ChamberChoices.rows_setPools (choosePool_get option _ id weight)
  | 1 =>
    cases wantDrep with
    | false => rfl
    | true => exact ChamberChoices.rows_setDreps (chooseDrep_get option _ id weight)
  | _ + 2 => rfl

theorem foldl_chooseRole_rows (choices : ChamberChoices) (roles : List RoleTuple) :
    (roles.foldl (chooseRole wantSpo wantDrep option) choices).rows =
      (badgeSightings (wantsOf wantSpo wantDrep) option roles).foldl noteSighting
        choices.rows := by
  rw [badgeSightings, List.foldl_map, List.foldl_filter]
  exact (List.foldl_hom ChamberChoices.rows
    (fun choices role => (chooseRole_rows choices role).symm)).symm

theorem foldl_chooseHolder_rows (s : Runtime) (host numOptions : ℕ) (wantSpo wantDrep : Bool)
    (holders : List AccountId) :
    (holders.foldl (s.chooseHolder host numOptions wantSpo wantDrep) {}).rows =
      rowsOf (sightings (wantsOf wantSpo wantDrep) numOptions (s.ballotOf host) s.rolesOf
        holders) := by
  refine foldl_rows ChamberChoices.rows ?_ (fun choices holder => ?_) holders
  · funext ⟨kind, id⟩
    match kind with
    | 0 => rfl
    | 1 => rfl
    | _ + 2 => rfl
  · unfold Runtime.chooseHolder voterSightings Runtime.ballotOf
    cases s.polls.pollVotes.get (host, holder) with
    | none => rfl
    | some option =>
      dsimp only
      split_ifs
      · rfl
      · exact foldl_chooseRole_rows _ _

end Live

/-! ## Adding up rows -/

def rowPart (numOptions : ℕ) (row : Option ChamberEntry) : Option (ℕ × ℕ) :=
  row.bind (fun entry =>
    if entry.conflict ∨ numOptions ≤ entry.option then none
    else some (entry.option, entry.weight))

def chamberParts (numOptions : ℕ) (rows : ChamberRows) (badgeKind : ℕ)
    (keys : List (ℕ × Credential)) : List (ℕ × ℕ) :=
  (keys.filter (fun key => key.1 = badgeKind)).filterMap
    (fun key => rowPart numOptions (rows key))

def partCounts (parts : List (ℕ × ℕ)) : List (ℕ × ℕ) := parts.map (fun part => (part.1, 1))

def totalsOf (numOptions : ℕ) (spo drep : List (ℕ × ℕ)) : ChamberTotals where
  spoWeights := slotSums u128Max numOptions spo
  spoCounts := slotSums u32Max numOptions (partCounts spo)
  drepWeights := slotSums u128Max numOptions drep
  drepCounts := slotSums u32Max numOptions (partCounts drep)

def chamberTotals (numOptions : ℕ) (xs : List Sighting) : ChamberTotals :=
  addRows numOptions (rowsOf xs) (xs.map Sighting.key).dedup

section Totals

variable {numOptions : ℕ} {rows rows' : ChamberRows} {keys keys' : List (ℕ × Credential)}
  {xs ys : List Sighting}

theorem chamberParts_append_singleton (badgeKind : ℕ) (keys : List (ℕ × Credential))
    (key : ℕ × Credential) :
    chamberParts numOptions rows badgeKind (keys ++ [key]) =
      chamberParts numOptions rows badgeKind keys ++
        if key.1 = badgeKind then (rowPart numOptions (rows key)).toList else [] := by
  unfold chamberParts
  rw [List.filter_append, List.filterMap_append]
  congr 1
  split_ifs with hkind
  · rw [List.filter_cons_of_pos (by simpa using hkind), List.filter_nil]
    cases hpart : rowPart numOptions (rows key) with
    | none => simp [hpart]
    | some part => simp [hpart]
  · rw [List.filter_cons_of_neg (by simpa using hkind)]
    rfl

theorem totalsOf_addEntry (spo drep : List (ℕ × ℕ)) (badgeKind : ℕ) (entry : ChamberEntry) :
    (totalsOf numOptions spo drep).addEntry numOptions badgeKind entry =
      totalsOf numOptions
        (spo ++ if badgeKind = 0 then (rowPart numOptions (some entry)).toList else [])
        (drep ++ if badgeKind = 1 then (rowPart numOptions (some entry)).toList else []) := by
  unfold ChamberTotals.addEntry
  by_cases hcounts : entry.conflict = true ∨ numOptions ≤ entry.option
  · simp [rowPart, hcounts]
  · rw [if_neg hcounts]
    have hpart : rowPart numOptions (some entry) = some (entry.option, entry.weight) := by
      simp [rowPart, hcounts]
    rw [hpart]
    match badgeKind with
    | 0 => simp [totalsOf, partCounts, slotSums_append_singleton]
    | 1 => simp [totalsOf, partCounts, slotSums_append_singleton]
    | _ + 2 => simp

theorem addRows_eq (keys : List (ℕ × Credential)) :
    addRows numOptions rows keys =
      totalsOf numOptions (chamberParts numOptions rows 0 keys)
        (chamberParts numOptions rows 1 keys) := by
  induction keys using List.reverseRecOn with
  | nil => rfl
  | append_singleton keys key ih =>
    have hstep : addRows numOptions rows (keys ++ [key]) =
        addRow numOptions rows (addRows numOptions rows keys) key := by
      rw [addRows, List.foldl_append]
      rfl
    rw [hstep, ih, chamberParts_append_singleton, chamberParts_append_singleton, addRow]
    cases rows key with
    | none => simp [rowPart]
    | some entry => exact totalsOf_addEntry _ _ _ _

theorem addRows_congr (hnodup : keys.Nodup) (hnodup' : keys'.Nodup)
    (hmem : ∀ key, key ∈ keys ↔ key ∈ keys')
    (hparts : ∀ key, rowPart numOptions (rows key) = rowPart numOptions (rows' key)) :
    addRows numOptions rows keys = addRows numOptions rows' keys' := by
  have hperm : ∀ badgeKind, (chamberParts numOptions rows badgeKind keys).Perm
      (chamberParts numOptions rows' badgeKind keys') := by
    intro badgeKind
    have hkeys : keys.Perm keys' := (List.perm_ext_iff_of_nodup hnodup hnodup').mpr hmem
    unfold chamberParts
    rw [List.filterMap_congr (fun key _ => hparts key)]
    exact (hkeys.filter _).filterMap _
  rw [addRows_eq, addRows_eq]
  unfold totalsOf partCounts
  rw [slotSums_perm (hperm 0), slotSums_perm (hperm 1), slotSums_perm ((hperm 0).map _),
    slotSums_perm ((hperm 1).map _)]

theorem addRows_rowsOf (hnodup : keys.Nodup)
    (hmem : ∀ key, key ∈ keys ↔ (rowsOf xs key).isSome) :
    addRows numOptions (rowsOf xs) keys = chamberTotals numOptions xs := by
  refine addRows_congr hnodup (List.nodup_dedup _) (fun key => ?_) (fun _ => rfl)
  rw [hmem, rowsOf_isSome_iff, List.mem_dedup]

/-- Two sightings of one id agree on its weight, and a dRep is not seen under
two options. -/
def Unambiguous (xs : List Sighting) : Prop :=
  ∀ x ∈ xs, ∀ y ∈ xs, x.key = y.key →
    x.weight = y.weight ∧ (x.key.1 ≠ 0 → x.option = y.option)

theorem rowPart_cons (x : Sighting) (rest : List Sighting) :
    rowPart numOptions (rowFrom (x :: rest)) =
      if (x.key.1 = 0 ∧ ∃ z ∈ x :: rest, z.option ≠ x.option) ∨ numOptions ≤ x.option then none
      else some (x.option, x.weight) := by
  have hconflict : (decide (x.key.1 = 0) && rest.any (fun z => z.option ≠ x.option)) = true ↔
      x.key.1 = 0 ∧ ∃ z ∈ x :: rest, z.option ≠ x.option := by
    simp
  simp only [rowPart, rowFrom, Option.bind_some, hconflict]

theorem rowPart_perm (hperm : xs.Perm ys) (hxs : Unambiguous xs) (key : ℕ × Credential) :
    rowPart numOptions (rowsOf xs key) = rowPart numOptions (rowsOf ys key) := by
  have hrows := hperm.filter (fun x => x.key = key)
  unfold rowsOf
  cases hx : xs.filter (fun x => x.key = key) with
  | nil =>
    rw [hx] at hrows
    rw [hrows.nil_eq]
  | cons x rest =>
    cases hy : ys.filter (fun x => x.key = key) with
    | nil =>
      rw [hx, hy] at hrows
      exact absurd hrows.eq_nil (by simp)
    | cons y rest' =>
      rw [hx, hy] at hrows
      have hfind : ∀ z ∈ x :: rest, z ∈ xs ∧ z.key = key := by
        intro z hz
        rw [← hx] at hz
        simpa using List.mem_filter.mp hz
      have hxmem := hfind x List.mem_cons_self
      have hymem := hfind y (hrows.mem_iff.mpr List.mem_cons_self)
      have hkeys : x.key = y.key := hxmem.2.trans hymem.2.symm
      obtain ⟨hweight, hoption⟩ := hxs x hxmem.1 y hymem.1 hkeys
      simp only [rowPart_cons, hrows.mem_iff, ← hkeys, ← hweight]
      by_cases hpool : x.key.1 = 0
      · by_cases hsplit : ∃ z ∈ y :: rest', z.option ≠ x.option
        · -- seen under two options, the pool abstains whichever came first
          have hsplit' : ∃ z ∈ y :: rest', z.option ≠ y.option := by
            by_cases hsame : x.option = y.option
            · rwa [← hsame]
            · exact ⟨x, hrows.mem_iff.mp List.mem_cons_self, hsame⟩
          rw [if_pos (Or.inl ⟨hpool, hsplit⟩), if_pos (Or.inl ⟨hpool, hsplit'⟩)]
        · have hsame : y.option = x.option := by
            by_contra hne
            exact hsplit ⟨y, List.mem_cons_self, hne⟩
          rw [hsame]
      · rw [hoption hpool]

theorem chamberTotals_perm (hperm : xs.Perm ys) (hxs : Unambiguous xs) :
    chamberTotals numOptions xs = chamberTotals numOptions ys := by
  refine addRows_congr (List.nodup_dedup _) (List.nodup_dedup _) (fun key => ?_)
    (rowPart_perm hperm hxs)
  rw [List.mem_dedup, List.mem_dedup, (hperm.map Sighting.key).mem_iff]

end Totals

/-! ## The live view -/

def ChamberChoices.keys (choices : ChamberChoices) : List (ℕ × Credential) :=
  choices.pools.keys.map (fun id => (0, id)) ++ choices.dreps.keys.map (fun id => (1, id))

section View

variable {numOptions : ℕ} {choices : ChamberChoices} {key : ℕ × Credential}
  {accounts : List AccountId} {roles : AccountId → List RoleTuple} {vote : AccountId → Option ℕ}
  {wants : ℕ → Bool}

theorem ChamberChoices.keys_nodup : choices.keys.Nodup := by
  refine List.Nodup.append ?_ ?_ ?_
  · exact choices.pools.keys_nodup.map (fun a b h => (Prod.mk.inj h).2)
  · exact choices.dreps.keys_nodup.map (fun a b h => (Prod.mk.inj h).2)
  · rintro key hpool hdrep
    obtain ⟨id, -, rfl⟩ := List.mem_map.mp hpool
    obtain ⟨id', -, heq⟩ := List.mem_map.mp hdrep
    simp at heq

theorem ChamberChoices.mem_keys :
    key ∈ choices.keys ↔ (choices.rows key).isSome := by
  obtain ⟨kind, id⟩ := key
  unfold ChamberChoices.keys ChamberChoices.rows
  rw [List.mem_append]
  match kind with
  | 0 => simp [mem_keys_iff]
  | 1 => simp [mem_keys_iff]
  | _ + 2 => simp

theorem foldl_entries {A : Type} (numOptions : ℕ) (entry : A → ChamberEntry) (rows : List A)
    (hoptions : ∀ row ∈ rows, (entry row).option < numOptions) :
    rows.foldl (fun (acc : List ℕ × List ℕ) row =>
        if (entry row).conflict then acc
        else (addAt u128Max acc.1 (entry row).option (entry row).weight,
          addAt u32Max acc.2 (entry row).option 1))
        (List.replicate numOptions 0, List.replicate numOptions 0) =
      let parts := rows.filterMap (fun row => rowPart numOptions (some (entry row)))
      (slotSums u128Max numOptions parts, slotSums u32Max numOptions (partCounts parts)) := by
  induction rows using List.reverseRecOn with
  | nil => rfl
  | append_singleton rows row ih =>
    have hrow : (entry row).option < numOptions := hoptions row (by simp)
    rw [List.foldl_append, ih (fun other hother => hoptions other (by simp [hother])),
      List.filterMap_append]
    cases hconflict : (entry row).conflict with
    | true => simp [rowPart, hconflict]
    | false =>
      simp [rowPart, hconflict, Nat.not_le.mpr hrow, slotSums_append_singleton, partCounts]

theorem filter_kind (kind badgeKind : ℕ) (ids : List Credential) :
    (ids.map (fun id => (kind, id))).filter (fun key => key.1 = badgeKind) =
      if kind = badgeKind then ids.map (fun id => (kind, id)) else [] := by
  split_ifs with hkind <;> simp [hkind, List.filter_eq_self]

theorem chamberParts_pools :
    chamberParts numOptions choices.rows 0 choices.keys =
      choices.pools.entries.filterMap (fun row => rowPart numOptions (some row.2)) := by
  rw [chamberParts, ChamberChoices.keys, List.filter_append, filter_kind, filter_kind, if_pos rfl,
    if_neg one_ne_zero, List.append_nil, StorageMap.keys, List.map_map, List.filterMap_map]
  refine List.filterMap_congr (fun row hrow => ?_)
  exact congrArg _ (get_eq_some_iff.mpr hrow)

theorem chamberParts_dreps :
    chamberParts numOptions choices.rows 1 choices.keys =
      choices.dreps.entries.filterMap (fun row => rowPart numOptions (some (drepEntry row.2))) := by
  rw [chamberParts, ChamberChoices.keys, List.filter_append, filter_kind, filter_kind, if_pos rfl,
    if_neg zero_ne_one, List.nil_append, StorageMap.keys, List.map_map, List.filterMap_map]
  refine List.filterMap_congr (fun row hrow => ?_)
  exact congrArg (fun choice => rowPart numOptions (Option.map drepEntry choice))
    (get_eq_some_iff.mpr hrow)

theorem sightings_perm {accounts' : List AccountId} (hperm : accounts.Perm accounts') :
    (sightings wants numOptions vote roles accounts).Perm
      (sightings wants numOptions vote roles accounts') :=
  hperm.flatMap_right _

theorem sightings_option_lt {x : Sighting} (hx : x ∈ sightings wants numOptions vote roles accounts)
    : x.option < numOptions := by
  obtain ⟨who, -, hwho⟩ := List.mem_flatMap.mp hx
  unfold voterSightings at hwho
  split at hwho
  · cases hwho
  · split_ifs at hwho with hoption
    · cases hwho
    · obtain ⟨role, -, rfl⟩ := List.mem_map.mp hwho
      exact Nat.not_le.mp hoption

theorem rowsOf_option_lt {xs : List Sighting} (hxs : ∀ x ∈ xs, x.option < numOptions)
    {entry : ChamberEntry} (hrow : rowsOf xs key = some entry) :
    entry.option < numOptions := by
  unfold rowsOf at hrow
  cases hkey : xs.filter (fun x => x.key = key) with
  | nil =>
    rw [hkey] at hrow
    cases hrow
  | cons x rest =>
    rw [hkey, rowFrom] at hrow
    have hmem : x ∈ xs.filter (fun x => x.key = key) := by simp [hkey]
    rw [← Option.some.inj hrow]
    exact hxs x (List.mem_of_mem_filter hmem)

def ChamberTotals.surfaced (totals : ChamberTotals) (wantSpo wantDrep : Bool) :
    ChamberTotals where
  spoWeights := if wantSpo then totals.spoWeights else []
  spoCounts := if wantSpo then totals.spoCounts else []
  drepWeights := if wantDrep then totals.drepWeights else []
  drepCounts := if wantDrep then totals.drepCounts else []

/-- The live view adds up its sightings, chamber by chamber. -/
theorem pollChamberWeights_eq (s : Runtime) (host numOptions : ℕ) (holders : List AccountId)
    (wantSpo wantDrep : Bool) :
    s.pollChamberWeights host numOptions holders wantSpo wantDrep =
      (chamberTotals numOptions (sightings (wantsOf wantSpo wantDrep) numOptions
        (s.ballotOf host) s.rolesOf holders)).surfaced wantSpo wantDrep := by
  let seen := sightings (wantsOf wantSpo wantDrep) numOptions (s.ballotOf host) s.rolesOf holders
  let choices := holders.foldl (s.chooseHolder host numOptions wantSpo wantDrep) {}
  have hrows : choices.rows = rowsOf seen :=
    foldl_chooseHolder_rows s host numOptions wantSpo wantDrep holders
  have htotals : chamberTotals numOptions seen = totalsOf numOptions
      (choices.pools.entries.filterMap (fun row => rowPart numOptions (some row.2)))
      (choices.dreps.entries.filterMap
        (fun row => rowPart numOptions (some (drepEntry row.2)))) := by
    have hmem : ∀ key, key ∈ choices.keys ↔ (rowsOf seen key).isSome := by
      intro key
      rw [← hrows]
      exact ChamberChoices.mem_keys
    rw [← addRows_rowsOf ChamberChoices.keys_nodup hmem, ← hrows, addRows_eq, chamberParts_pools,
      chamberParts_dreps]
  have hoption : ∀ key entry, choices.rows key = some entry → entry.option < numOptions := by
    intro key entry hentry
    rw [hrows] at hentry
    exact rowsOf_option_lt (fun x hx => sightings_option_lt hx) hentry
  have hspo := foldl_entries numOptions Prod.snd choices.pools.entries
    (fun row hrow => hoption (0, row.1) row.2 (get_eq_some_iff.mpr hrow))
  have hdrep := foldl_entries numOptions (fun row => drepEntry row.2) choices.dreps.entries
    (fun row hrow => hoption (1, row.1) (drepEntry row.2)
      (congrArg (Option.map drepEntry) (get_eq_some_iff.mpr hrow)))
  have hdrep' : choices.dreps.entries.foldl (fun (acc : List ℕ × List ℕ) row =>
      (addAt u128Max acc.1 row.2.1 row.2.2, addAt u32Max acc.2 row.2.1 1))
      (List.replicate numOptions 0, List.replicate numOptions 0) = _ := hdrep
  rw [htotals]
  unfold Runtime.pollChamberWeights ChamberTotals.surfaced
  dsimp only [totalsOf]
  rw [hspo, hdrep']

theorem pollChamberWeights_perm {s : Runtime} {host : ℕ} {holders holders' : List AccountId}
    {wantSpo wantDrep : Bool} (hperm : holders.Perm holders')
    (hclear : Unambiguous (sightings (wantsOf wantSpo wantDrep) numOptions (s.ballotOf host)
      s.rolesOf holders)) :
    s.pollChamberWeights host numOptions holders wantSpo wantDrep =
      s.pollChamberWeights host numOptions holders' wantSpo wantDrep := by
  rw [pollChamberWeights_eq, pollChamberWeights_eq,
    chamberTotals_perm (sightings_perm hperm) hclear]

end View

def Runtime.PoolsAgree (s : Runtime) : Prop :=
  ∀ who who' role role', role ∈ s.observedRolesOf who → role' ∈ s.observedRolesOf who' →
    role.kind = .spo → role'.kind = .spo → role.id = role'.id → role.weight = role'.weight

/-! ## The close -/

theorem ClosePlan.drained_keys {hash : ℕ → ℕ} {poll : Poll} (plan : ClosePlan hash poll) :
    plan.drained plan.keys = chamberTotals poll.options.length
      (sightings poll.kind.wants poll.options.length plan.vote plan.census.roles
        plan.voters) := by
  have hrows : plan.total.rows = rowsOf (sightings poll.kind.wants poll.options.length plan.vote
      plan.census.roles plan.voters) := countVoters_rows poll plan.vote plan.census plan.voters
  rw [ClosePlan.drained, hrows]
  refine addRows_rowsOf (nodup_of_hashLt_pairwise plan.keys_sorted) (fun key => ?_)
  rw [plan.mem_keys, ← hrows]
  rfl

/-! ## Ids seen once -/

section Once

variable {numOptions : ℕ} {xs : List Sighting}

theorem filter_key_eq_singleton {x : Sighting} (hnodup : (xs.map Sighting.key).Nodup)
    (hx : x ∈ xs) : xs.filter (fun y => y.key = x.key) = [x] := by
  have hperm : (xs.filter (fun y => y.key = x.key)).Perm [x] := by
    refine (List.perm_ext_iff_of_nodup (hnodup.of_map.filter _) (List.nodup_singleton x)).mpr ?_
    intro y
    rw [List.mem_filter, List.mem_singleton, decide_eq_true_eq]
    constructor
    · rintro ⟨hy, hkey⟩
      exact List.inj_on_of_nodup_map hnodup hy hx hkey
    · rintro rfl
      exact ⟨hx, rfl⟩
  exact List.perm_singleton.mp hperm

theorem chamberParts_of_nodup {badgeKind : ℕ} (hoptions : ∀ x ∈ xs, x.option < numOptions)
    (hnodup : ((xs.filter (fun x => x.key.1 = badgeKind)).map Sighting.key).Nodup) :
    (chamberParts numOptions (rowsOf xs) badgeKind (xs.map Sighting.key).dedup).Perm
      ((xs.filter (fun x => x.key.1 = badgeKind)).map (fun x => (x.option, x.weight))) := by
  have hkeys : ((xs.map Sighting.key).dedup.filter (fun key => key.1 = badgeKind)).Perm
      ((xs.filter (fun x => x.key.1 = badgeKind)).map Sighting.key) := by
    refine (List.perm_ext_iff_of_nodup ((List.nodup_dedup _).filter _) hnodup).mpr ?_
    intro key
    simp only [List.mem_filter, List.mem_dedup, List.mem_map, decide_eq_true_eq]
    constructor
    · rintro ⟨⟨x, hx, rfl⟩, hkind⟩
      exact ⟨x, ⟨hx, hkind⟩, rfl⟩
    · rintro ⟨x, ⟨hx, hkind⟩, rfl⟩
      exact ⟨⟨x, hx, rfl⟩, hkind⟩
  refine (hkeys.filterMap _).trans ?_
  rw [List.filterMap_map, ← List.filterMap_eq_map]
  refine List.Perm.of_eq (List.filterMap_congr (fun x hx => ?_))
  obtain ⟨hmem, hkind⟩ := List.mem_filter.mp hx
  have honly : xs.filter (fun y => y.key = x.key) = [x] := by
    rw [← filter_key_eq_singleton hnodup hx, List.filter_filter]
    refine List.filter_congr (fun y _ => ?_)
    by_cases hkey : y.key = x.key
    · simpa [hkey] using hkind
    · simp [hkey]
  have hoption := hoptions x hmem
  simp only [Function.comp_apply, rowsOf, honly, rowPart_cons]
  simp [Nat.not_le.mpr hoption]

theorem chamberTotals_drepWeights (hoptions : ∀ x ∈ xs, x.option < numOptions)
    (hnodup : ((xs.filter (fun x => x.key.1 = 1)).map Sighting.key).Nodup) :
    (chamberTotals numOptions xs).drepWeights = slotSums u128Max numOptions
      ((xs.filter (fun x => x.key.1 = 1)).map (fun x => (x.option, x.weight))) := by
  rw [chamberTotals, addRows_eq]
  exact slotSums_perm (chamberParts_of_nodup hoptions hnodup)

end Once

end CognoChain
