import CognoChain.Model.Frames

/-!
# The capacity meter is an eager per-block meter

The chain stores an account's capacity lazily and prices the blocks since at
the weight in force when it is read.  The reference meter is eager: it is
recharged at every block under the weight the previous block ended with.  The
two agree along every run, because every weight change settles the stored row
at the old weight first.
-/

namespace CognoChain

open Substrate CognoChain.Runtime

/-! ## The eager meter -/

/-- The recharge at a new block, under the weight in force at its start. -/
def eagerTick (cfg : Config) (weight charge : ℕ) : ℕ :=
  min (capacityCeiling cfg weight) (charge + regenPerBlock cfg weight)

def eagerReading (cfg : Config) (weight charge : ℕ) : ℕ :=
  min (capacityCeiling cfg weight) charge

/-- What can happen to a meter: an operation of the chain, or a weight written
by the observer outside any inherent the chain would derive. -/
inductive MeterOp
  | chain (op : Op)
  | observedWeight (who : AccountId) (weight : ℕ)

def meterStep (cfg : Config) (s : Runtime) : MeterOp → Runtime
  | .chain op => s.step cfg op
  | .observedWeight who weight => s.applyObservedWeight cfg who weight

def debitOf (cfg : Config) (account : AccountId) (s : Runtime) : MeterOp → ℕ
  | .chain (.extrinsic who call len) =>
      match s.checkCapacity cfg (.signed who) call len with
      | .ok pre => if pre.who = some account then pre.cost else 0
      | .error _ => 0
  | _ => 0

def eagerStep (cfg : Config) (account : AccountId) (s : Runtime) (charge : ℕ) :
    MeterOp → ℕ
  | .chain (.nextBlock _) => eagerTick cfg (s.weightOf account) charge
  | .chain (.extrinsic who call len) =>
      match s.checkCapacity cfg (.signed who) call len with
      | .ok pre =>
          if pre.who = some account then
            eagerReading cfg (s.weightOf account) charge - pre.cost
          else charge
      | .error _ => charge
  | .chain (.call .authority (.gate (.revoke who))) =>
      if who = account ∧ s.isAllowed account then 0 else charge
  | .chain (.call .authority (.gate (.revokeMany targets))) =>
      if account ∈ targets ∧ s.isAllowed account then 0 else charge
  | .chain (.call .authority (.microblog (.forceSetCapacity who capLast))) =>
      if who = account then s.forcedAmount cfg account capLast else charge
  | _ => charge

def pairedStep (cfg : Config) (account : AccountId) (acc : Runtime × ℕ) (op : MeterOp) :
    Runtime × ℕ :=
  (meterStep cfg acc.1 op, eagerStep cfg account acc.1 acc.2 op)

def regenOf (cfg : Config) (account : AccountId) (s : Runtime) : MeterOp → ℕ
  | .chain (.nextBlock _) => regenPerBlock cfg (s.weightOf account)
  | _ => 0

def forcedOf (cfg : Config) (account : AccountId) (s : Runtime) : MeterOp → ℕ
  | .chain (.call .authority (.microblog (.forceSetCapacity who capLast))) =>
      if who = account then
        s.forcedAmount cfg account capLast - currentCapacity cfg s account s.blockNumber
      else 0
  | _ => 0

/-! ## The stored row under the eager meter -/

def bankedCharge (cfg : Config) (weight now : ℕ) (row : CapacityState) : ℕ :=
  if row.lastBlock = now then row.capLast else accrue cfg weight now row

/-- The account's stored row and weight represent `charge`. -/
def Tracks (cfg : Config) (account : AccountId) (s : Runtime) (charge : ℕ) : Prop :=
  match s.capacity.get account with
  | none => s.weightOf account = 0 ∧ charge = 0
  | some row =>
      row.lastBlock ≤ s.blockNumber ∧
        charge = bankedCharge cfg (s.weightOf account) s.blockNumber row

section Arithmetic

variable {cfg : Config}

theorem capacityCeiling_le (weight : ℕ) : capacityCeiling cfg weight ≤ u128Max :=
  (min_le_left _ _).trans (satMul_le _ _ _)

@[simp] theorem capacityCeiling_zero : capacityCeiling cfg 0 = 0 := by
  simp [capacityCeiling]

theorem accrue_eq (weight now : ℕ) (row : CapacityState) :
    accrue cfg weight now row =
      min (capacityCeiling cfg weight)
        (row.capLast + regenPerBlock cfg weight * (now - row.lastBlock)) :=
  min_satAdd_satMul (capacityCeiling_le weight)

theorem eagerReading_bankedCharge (weight now : ℕ) (row : CapacityState) :
    eagerReading cfg weight (bankedCharge cfg weight now row) =
      accrue cfg weight now row := by
  unfold eagerReading bankedCharge
  rw [accrue_eq]
  split_ifs with hnow
  · simp [hnow]
  · omega

theorem eagerTick_bankedCharge {weight now : ℕ} {row : CapacityState}
    (hlast : row.lastBlock ≤ now) :
    eagerTick cfg weight (bankedCharge cfg weight now row) =
      bankedCharge cfg weight (now + 1) row := by
  have hlater : row.lastBlock ≠ now + 1 := by omega
  have helapsed : now + 1 - row.lastBlock = (now - row.lastBlock) + 1 := by omega
  have hregen : regenPerBlock cfg weight * (now + 1 - row.lastBlock) =
      regenPerBlock cfg weight * (now - row.lastBlock) + regenPerBlock cfg weight := by
    rw [helapsed, Nat.mul_succ]
  unfold eagerTick bankedCharge
  rw [if_neg hlater, accrue_eq, accrue_eq, hregen]
  split_ifs with hnow
  · simp [hnow]
  · omega

end Arithmetic

structure SameRow (account : AccountId) (s s' : Runtime) : Prop where
  blockNumber : s'.blockNumber = s.blockNumber
  weight : s'.weightOf account = s.weightOf account
  row : s'.capacity.get account = s.capacity.get account

section Representation

variable {cfg : Config} {account : AccountId} {s s' : Runtime} {charge : ℕ} {who : AccountId}

theorem SameRow.refl (s : Runtime) : SameRow account s s := ⟨rfl, rfl, rfl⟩

theorem SameRow.deposit (s : Runtime) (event : Event) : SameRow account s (s.deposit event) :=
  ⟨rfl, rfl, rfl⟩

theorem SameRow.trans {t : Runtime} (h : SameRow account s t) (h' : SameRow account t s') :
    SameRow account s s' :=
  ⟨h'.blockNumber.trans h.blockNumber, h'.weight.trans h.weight, h'.row.trans h.row⟩

theorem SameRow.of_ledger (h : s'.ledger = s.ledger) : SameRow account s s' := by
  have hstake : s'.talkStake = s.talkStake := congrArg Ledger.talkStake h
  have hcapacity : s'.capacity = s.capacity := congrArg Ledger.capacity h
  exact ⟨congrArg Ledger.blockNumber h, by simp [weightOf, hstake],
    by rw [hcapacity]⟩

theorem SameRow.of_writesPower (h : s.WritesPower s') : SameRow account s s' := by
  obtain ⟨power, seq, basis, events, rfl⟩ := h
  exact ⟨rfl, rfl, rfl⟩

theorem SameRow.of_writesRoles (h : s.WritesRoles s') : SameRow account s s' := by
  obtain ⟨roles, basis, events, rfl⟩ := h
  exact ⟨rfl, rfl, rfl⟩

theorem SameRow.of_writesFrontier (h : s.WritesFrontier s') : SameRow account s s' := by
  obtain ⟨reference, enforce, pending, appliedAt, stalled, cursor, sweepAt, events, rfl⟩ := h
  exact ⟨rfl, rfl, rfl⟩

section

variable (hne : who ≠ account)
include hne

theorem setCapacity_sameRow (capLast : ℕ) :
    SameRow account s (s.setCapacity who capLast) :=
  ⟨rfl, rfl, StorageMap.get_insert_of_ne _ _ hne.symm⟩

theorem onFirstBind_sameRow :
    SameRow account s (s.onFirstBind who) := by
  unfold Runtime.onFirstBind
  split
  · exact .refl s
  · exact setCapacity_sameRow hne 0

theorem zeroCapacity_sameRow :
    SameRow account s (s.zeroCapacity who) := by
  unfold Runtime.zeroCapacity
  split
  · exact setCapacity_sameRow hne 0
  · exact .refl s

theorem settleCapacityAt_sameRow (oldWeight : ℕ) :
    SameRow account s (s.settleCapacityAt cfg who oldWeight) := by
  unfold settleCapacityAt
  split
  · exact .refl s
  · split
    · exact .refl s
    · exact setCapacity_sameRow hne _

theorem applyWeight_sameRow (weight : ℕ) :
    SameRow account s (s.applyWeight who weight) := by
  refine ⟨rfl, ?_, rfl⟩
  simp [weightOf, applyWeight, Runtime.deposit,
    StorageMap.getD_insert_of_ne _ _ _ hne.symm]

theorem applyObservedWeight_sameRow (weight : ℕ) :
    SameRow account s (s.applyObservedWeight cfg who weight) := by
  unfold Runtime.applyObservedWeight
  refine SameRow.trans ?_ (onFirstBind_sameRow hne)
  split
  · exact .refl s
  · exact (settleCapacityAt_sameRow hne _).trans (applyWeight_sameRow hne weight)

end

/-! ## One write at a time -/

theorem Tracks.of_sameRow (htracks : Tracks cfg account s charge)
    (hsame : SameRow account s s') : Tracks cfg account s' charge := by
  unfold Tracks at htracks ⊢
  rw [hsame.row, hsame.weight, hsame.blockNumber]
  exact htracks

theorem tracks_of_stamped (hrow : s.capacity.get account = some ⟨charge, s.blockNumber⟩) :
    Tracks cfg account s charge := by
  simp [Tracks, hrow, bankedCharge]

theorem setCapacity_tracks (capLast : ℕ) :
    Tracks cfg account (s.setCapacity account capLast) capLast :=
  tracks_of_stamped (StorageMap.get_insert_self _ _ _)

section

variable (htracks : Tracks cfg account s charge)
include htracks

theorem Tracks.currentCapacity_eq :
    currentCapacity cfg s account s.blockNumber =
      eagerReading cfg (s.weightOf account) charge := by
  unfold Tracks at htracks
  unfold currentCapacity
  cases hrow : s.capacity.get account with
  | none =>
    rw [hrow] at htracks
    simp [eagerReading, htracks.2]
  | some row =>
    rw [hrow] at htracks
    rw [htracks.2, eagerReading_bankedCharge]

theorem Tracks.onFirstBind (who : AccountId) :
    Tracks cfg account (s.onFirstBind who) charge := by
  by_cases hwho : who = account
  · subst hwho
    unfold Runtime.onFirstBind
    split
    · exact htracks
    next habsent =>
      have hrow : s.capacity.get who = none := by simpa using habsent
      have hzero : charge = 0 := by
        simp only [Tracks, hrow] at htracks
        exact htracks.2
      rw [hzero]
      exact setCapacity_tracks 0
  · exact htracks.of_sameRow (onFirstBind_sameRow hwho)

/-- Settling at the weight in force moves the banked charge into a row that no
later weight can reprice in this block. -/
theorem Tracks.settled :
    (s.settleCapacityAt cfg account (s.weightOf account)).capacity.get account =
        some ⟨charge, s.blockNumber⟩ ∨
      ((s.settleCapacityAt cfg account (s.weightOf account)).capacity.get account = none ∧
        charge = 0) := by
  unfold Tracks at htracks
  unfold settleCapacityAt
  cases hrow : s.capacity.get account with
  | none =>
    rw [hrow] at htracks
    exact Or.inr ⟨hrow, htracks.2⟩
  | some row =>
    rw [hrow] at htracks
    have hcharge := htracks.2
    left
    dsimp only
    split_ifs with hnow
    · rw [hcharge, bankedCharge, if_pos hnow, ← hnow]
      exact hrow
    · rw [hcharge, bankedCharge, if_neg hnow]
      exact StorageMap.get_insert_self _ _ _

theorem Tracks.applyObservedWeight (who : AccountId) (weight : ℕ) :
    Tracks cfg account (s.applyObservedWeight cfg who weight) charge := by
  by_cases hwho : who = account
  · subst hwho
    unfold Runtime.applyObservedWeight
    dsimp only
    split
    · exact htracks.onFirstBind who
    next hchanged =>
      let settled := (s.settleCapacityAt cfg who (s.weightOf who)).applyWeight who weight
      have hblock : settled.blockNumber = s.blockNumber :=
        blockNumber_of_social
          (settleCapacityAt_writes who (s.weightOf who)).writesMeter.social
      rcases htracks.settled with hrow | ⟨hrow, hzero⟩
      · have hstamped : settled.capacity.get who = some ⟨charge, settled.blockNumber⟩ := by
          rw [hblock]
          exact hrow
        exact (tracks_of_stamped hstamped).onFirstBind who
      · have habsent : settled.capacity.get who = none := hrow
        have hbind : settled.onFirstBind who = settled.setCapacity who 0 := by
          simp [Runtime.onFirstBind, habsent]
        change Tracks cfg who (settled.onFirstBind who) charge
        rw [hbind, hzero]
        exact setCapacity_tracks 0
  · exact htracks.of_sameRow (applyObservedWeight_sameRow hwho weight)

theorem Tracks.zeroCapacity :
    Tracks cfg account (s.zeroCapacity account) 0 := by
  unfold Runtime.zeroCapacity
  split
  · exact setCapacity_tracks 0
  next habsent =>
    have hrow : s.capacity.get account = none := by simpa using habsent
    simp only [Tracks, hrow] at htracks ⊢
    exact ⟨htracks.1, trivial⟩

end

theorem onFirstBind_weightOf (who : AccountId) :
    (s.onFirstBind who).weightOf account = s.weightOf account := by
  obtain ⟨capacity, events, hwrites⟩ := s.onFirstBind_writes who
  rw [hwrites]
  rfl

theorem forceSetCapacity_tracks (capLast : ℕ) :
    Tracks cfg account (s.forceSetCapacity cfg account capLast)
      (s.forcedAmount cfg account capLast) := by
  have hamount : (s.onFirstBind account).forcedAmount cfg account capLast =
      s.forcedAmount cfg account capLast := by
    rw [forcedAmount, forcedAmount, onFirstBind_weightOf]
  unfold Runtime.forceSetCapacity
  dsimp only
  rw [hamount]
  exact tracks_of_stamped (StorageMap.get_insert_self _ _ _)

theorem forceSetCapacity_sameRow (hne : who ≠ account) (capLast : ℕ) :
    SameRow account s (s.forceSetCapacity cfg who capLast) := by
  have hset := setCapacity_sameRow (s := s.onFirstBind who) hne
    ((s.onFirstBind who).forcedAmount cfg who capLast)
  exact (onFirstBind_sameRow hne).trans ⟨hset.blockNumber, hset.weight, hset.row⟩

theorem Tracks.nextBlock (htracks : Tracks cfg account s charge) (unixSecs : ℕ) :
    Tracks cfg account (s.nextBlock cfg unixSecs)
      (eagerTick cfg (s.weightOf account) charge) := by
  let ticked : Runtime :=
    { s with blockNumber := s.blockNumber + 1, unixSecs := unixSecs, events := [] }
  suffices hticked : Tracks cfg account ticked (eagerTick cfg (s.weightOf account) charge) from
    hticked.of_sameRow (.of_writesFrontier observerOnInitialize_writes)
  unfold Tracks at htracks ⊢
  change match s.capacity.get account with
    | none => s.weightOf account = 0 ∧ _
    | some row => row.lastBlock ≤ s.blockNumber + 1 ∧
      _ = bankedCharge cfg (s.weightOf account) (s.blockNumber + 1) row
  cases hrow : s.capacity.get account with
  | none =>
    rw [hrow] at htracks
    exact ⟨htracks.1, by simp [eagerTick, htracks.1]⟩
  | some row =>
    rw [hrow] at htracks
    refine ⟨htracks.1.trans (Nat.le_succ _), ?_⟩
    rw [htracks.2, eagerTick_bankedCharge htracks.1]

/-! ## One operation at a time -/

theorem Tracks.observe (htracks : Tracks cfg account s charge) (args : ObserveArgs) :
    Tracks cfg account (s.observe cfg args) charge := by
  apply observe_invariant (fun after => Tracks cfg account after charge) args
  · apply applyChanges_invariant (fun after => Tracks cfg account after charge) args
    · intro acc change hacc
      rw [applyVaultChange_eq]
      rcases (vaultAxis cfg).applyChange_cases s.observer.enforceWeight acc change with
        hsame | ⟨-, who, weight, basis, hafter⟩
      · rwa [hsame]
      · rw [hafter]
        exact (hacc.applyObservedWeight who weight).of_sameRow ⟨rfl, rfl, rfl⟩
    · intro acc change hacc
      exact hacc.of_sameRow (.of_writesPower (applyStakeChange_writes _ acc change))
    · intro acc change hacc
      exact hacc.of_sameRow (.of_writesRoles
        (applyRoleChange_writes _ acc change).writesRoles)
    · exact htracks
  · intro before after hwrites hbefore
    exact hbefore.of_sameRow (.of_writesFrontier hwrites)
  · exact htracks

theorem banStake_sameRow (who : AccountId) : SameRow account s (s.banStake who) := by
  unfold banStake
  split
  · exact .refl s
  next stakeCred hstake =>
    have hreleased : SameRow account s
        ((s.releaseStake who stakeCred).tombstoneStakeCred stakeCred) := ⟨rfl, rfl, rfl⟩
    exact hreleased.trans (.of_writesPower (forgetStake_writes who stakeCred))

theorem Tracks.doRevoke (htracks : Tracks cfg account s charge) (hrevoke : s.doRevoke who = .ok s') :
    Tracks cfg account s' (if who = account then 0 else charge) := by
  obtain ⟨identity, torn, -, htorn, rfl⟩ := doRevoke_ok hrevoke
  have hreleased : SameRow account s (s.releaseIdentity who identity) := ⟨rfl, rfl, rfl⟩
  have hforgotten : SameRow account s torn := by
    rw [htorn]
    exact (hreleased.trans (banStake_sameRow who)).trans
      (.of_writesRoles (forgetAccount_writes who).writesRoles)
  have hleft : SameRow account s { torn with gate := torn.gate.leaveRotation who } :=
    ⟨hforgotten.blockNumber, hforgotten.weight, hforgotten.row⟩
  have hbefore := htracks.of_sameRow hleft
  have hpurged : ∀ zeroed : Runtime, SameRow account zeroed
      ((zeroed.purgeAccountRoles who).deposit (.revoked who identity)) := by
    intro zeroed
    have hroles : SameRow account zeroed (zeroed.purgeAccountRoles who) :=
      .of_writesRoles (zeroed.purgeAccountRoles_writes who)
    exact hroles.trans (.deposit _ _)
  rw [onRevoke]
  by_cases hwho : who = account
  · rw [if_pos hwho]
    subst hwho
    exact hbefore.zeroCapacity.of_sameRow (hpurged _)
  · rw [if_neg hwho]
    exact (hbefore.of_sameRow (zeroCapacity_sameRow hwho)).of_sameRow (hpurged _)

theorem doRevoke_ok_iff :
    (∃ after, s.doRevoke account = .ok after) ↔ s.isAllowed account = true := by
  cases hget : s.gate.pkhOf.get account <;> simp [Runtime.doRevoke, isAllowed, hget]

theorem Tracks.revokeRun (targets : List AccountId) (htracks : Tracks cfg account s charge) :
    Tracks cfg account (run (attempt Runtime.doRevoke) s targets)
      (if account ∈ targets ∧ s.isAllowed account then 0 else charge) := by
  induction targets generalizing s charge with
  | nil => simpa using htracks
  | cons who targets ih =>
    rw [run_cons]
    cases hrevoke : s.doRevoke who with
    | error e =>
      have hstay : attempt Runtime.doRevoke s who = s := by simp [attempt, hrevoke]
      have hunbound : who = account → s.isAllowed account = false := by
        rintro rfl
        rw [← Bool.not_eq_true, ← doRevoke_ok_iff, hrevoke]
        simp
      have htail := ih htracks
      rw [hstay]
      by_cases hwho : who = account
      · simpa [hunbound hwho] using htail
      · simpa [Ne.symm hwho] using htail
    | ok after =>
      rw [attempt_of_ok hrevoke]
      have htail := ih (htracks.doRevoke hrevoke)
      by_cases hwho : who = account
      · have hbound : s.isAllowed account = true :=
          doRevoke_ok_iff.mp ⟨after, hwho ▸ hrevoke⟩
        simpa [hwho, hbound] using htail
      · have hkept : after.isAllowed account = s.isAllowed account := by
          simp [isAllowed, doRevoke_pkhOf hrevoke,
            StorageMap.get_remove_of_ne _ (Ne.symm hwho)]
        simpa [hwho, Ne.symm hwho, hkept] using htail

theorem execute_signed_sameRow (who : AccountId) (call : RuntimeCall) :
    SameRow account s (s.execute cfg (.signed who) call) := by
  unfold execute
  split
  next after hok =>
    cases call with
    | microblog call => exact .of_ledger (dispatchSignedMicroblog_writes hok).social.ledger
    | profile call =>
      have hprofile : s.dispatchProfile cfg (.signed who) call = .ok after := hok
      exact .of_ledger (dispatchProfile_writes hprofile).ledger
    | gate call =>
      cases call with
      | unlinkStake =>
        obtain ⟨stakeCred, -, rfl⟩ :=
          unlinkStake_ok (mapError_eq_ok_iff.mp hok)
        have hforgotten : SameRow account (s.releaseStake who stakeCred)
            ((s.releaseStake who stakeCred).forgetStake who stakeCred) :=
          .of_writesPower (forgetStake_writes who stakeCred)
        exact ⟨hforgotten.blockNumber, hforgotten.weight, hforgotten.row⟩
      | _ => cases hok
    | roles call => exact .of_writesRoles (dispatchRoles_writes hok)
    | observer call => cases call <;> cases hok
  next => exact .refl s

section

variable (htracks : Tracks cfg account s charge) {origin : Origin}
include htracks

theorem Tracks.execute {call : RuntimeCall}
    (hcharge : eagerStep cfg account s charge (.chain (.call origin call)) = charge)
    (hok : ∀ after, s.dispatch cfg origin call = .ok after → Tracks cfg account after charge) :
    Tracks cfg account (s.execute cfg origin call)
      (eagerStep cfg account s charge (.chain (.call origin call))) := by
  rw [hcharge, Runtime.execute]
  split
  next after hafter => exact hok after hafter
  next => exact htracks

theorem Tracks.dispatchGate {call : GateCall} (hok : s.dispatchGate cfg origin call = .ok s')
    (hrevoke : ∀ who, call ≠ .revoke who) (hmany : ∀ targets, call ≠ .revokeMany targets) :
    Tracks cfg account s' charge := by
  rcases dispatchGate_ok hok with ⟨proof, who, identity, -, hbind⟩ |
    ⟨proof, who, stakeCred, nonce, -, hbind⟩ | ⟨who, -, hcall, -⟩ |
    ⟨targets, -, hcall, -⟩ | ⟨who, -, hunlink⟩ | ⟨stakeCred, -, rfl⟩
  · obtain ⟨-, -, -, rfl⟩ := doBind_ok hbind
    have hbound : Tracks cfg account { s with gate := { s.gate with
        pkhOf := s.gate.pkhOf.insert who identity
        accountOf := s.gate.accountOf.insert identity who }.joinRotation who } charge :=
      htracks.of_sameRow ⟨rfl, rfl, rfl⟩
    exact (hbound.onFirstBind who).of_sameRow ⟨rfl, rfl, rfl⟩
  · obtain ⟨-, -, -, rfl⟩ := doBindStake_ok hbind
    exact htracks.of_sameRow ⟨rfl, rfl, rfl⟩
  · exact absurd hcall (hrevoke who)
  · exact absurd hcall (hmany targets)
  · obtain ⟨stakeCred, -, rfl⟩ := unlinkStake_ok hunlink
    have hreleased : Tracks cfg account (s.releaseStake who stakeCred) charge :=
      htracks.of_sameRow ⟨rfl, rfl, rfl⟩
    have hforgotten := hreleased.of_sameRow
      (.of_writesPower (forgetStake_writes who stakeCred))
    exact hforgotten.of_sameRow ⟨rfl, rfl, rfl⟩
  · exact htracks.of_sameRow ⟨rfl, rfl, rfl⟩

theorem Tracks.gateCall (origin : Origin) (call : GateCall) :
    Tracks cfg account (s.execute cfg origin (.gate call))
      (eagerStep cfg account s charge (.chain (.call origin (.gate call)))) := by
  cases call with
  | revoke who =>
    cases origin with
    | authority =>
      have hrun : s.execute cfg .authority (.gate (.revoke who)) =
          run (attempt Runtime.doRevoke) s [who] := by
        simp only [Runtime.execute, dispatch, Runtime.dispatchGate, run_cons, run_nil, attempt]
        cases s.doRevoke who <;> rfl
      rw [hrun]
      simpa [eagerStep, eq_comm (a := account)] using htracks.revokeRun [who]
    | _ => exact htracks
  | revokeMany targets =>
    cases origin with
    | authority =>
      have hbatch := htracks.revokeRun targets
      rw [← applyAll_fst u32Max] at hbatch
      exact hbatch.of_sameRow ⟨rfl, rfl, rfl⟩
    | _ => exact htracks
  | _ =>
    exact htracks.execute (by cases origin <;> rfl)
      (fun after hok => htracks.dispatchGate hok (by simp) (by simp))

theorem Tracks.microblogCall (origin : Origin) (call : MicroblogCall) :
    Tracks cfg account (s.execute cfg origin (.microblog call))
      (eagerStep cfg account s charge (.chain (.call origin (.microblog call)))) := by
  cases origin with
  | signed who => exact htracks.of_sameRow (execute_signed_sameRow who _)
  | none => exact htracks
  | authority =>
    cases call with
    | forceSetCapacity who capLast =>
      change Tracks cfg account (s.forceSetCapacity cfg who capLast)
        (if who = account then s.forcedAmount cfg account capLast else charge)
      by_cases hwho : who = account
      · rw [if_pos hwho, hwho]
        exact forceSetCapacity_tracks capLast
      · rw [if_neg hwho]
        exact htracks.of_sameRow (forceSetCapacity_sameRow hwho capLast)
    | _ => exact htracks

theorem Tracks.chainCall (origin : Origin) (call : RuntimeCall) :
    Tracks cfg account (s.execute cfg origin call)
      (eagerStep cfg account s charge (.chain (.call origin call))) := by
  cases call with
  | microblog call => exact htracks.microblogCall origin call
  | gate call => exact htracks.gateCall origin call
  | profile call =>
    refine htracks.execute (by cases origin <;> rfl) (fun after hok => ?_)
    have hprofile : s.dispatchProfile cfg origin call = .ok after := hok
    exact htracks.of_sameRow (.of_ledger (dispatchProfile_writes hprofile).ledger)
  | roles call =>
    exact htracks.execute (by cases origin <;> rfl) (fun after hok =>
      htracks.of_sameRow (.of_writesRoles (dispatchRoles_writes hok)))
  | observer call =>
    refine htracks.execute (by cases origin <;> rfl) (fun after hok => ?_)
    rcases dispatchObserver_ok hok with ⟨args, -, rfl⟩ | ⟨enabled, -, rfl⟩
    · exact htracks.observe args
    · exact htracks.of_sameRow (.of_writesFrontier (setEnforcement_writes enabled))

end

theorem checkCapacity_ok {call : RuntimeCall} {len : ℕ} {pre : Pre}
    (hcheck : s.checkCapacity cfg (.signed who) call len = .ok pre) :
    (pre = ⟨none, 0⟩ ∧ meteredNeed cfg s who call = none) ∨
      (pre.who = some who ∧ meteredNeed cfg s who call = some pre.cost ∧
        pre.cost ≤ currentCapacity cfg s who s.blockNumber) := by
  unfold checkCapacity at hcheck
  dsimp only at hcheck
  split at hcheck
  · cases hcheck
  · split at hcheck
    next hfree =>
      left
      exact ⟨(Except.ok.inj hcheck).symm, hfree⟩
    next need hneed =>
      split_ifs at hcheck with hlen hpay hcapacity
      right
      rw [← Except.ok.inj hcheck]
      exact ⟨rfl, hneed, Nat.le_of_not_lt hcapacity⟩

theorem Tracks.extrinsic (htracks : Tracks cfg account s charge) (who : AccountId)
    (call : RuntimeCall) (len : ℕ) :
    Tracks cfg account (s.step cfg (.extrinsic who call len))
      (eagerStep cfg account s charge (.chain (.extrinsic who call len))) := by
  have hsame : SameRow account s (s.execute cfg (.signed who) call) :=
    execute_signed_sameRow who call
  cases hcheck : s.checkCapacity cfg (.signed who) call len with
  | error e =>
    simp only [Runtime.step, applyExtrinsic, eagerStep, hcheck]
    exact htracks
  | ok pre =>
    have hexecuted := htracks.of_sameRow hsame
    simp only [Runtime.step, applyExtrinsic, eagerStep, hcheck]
    rcases checkCapacity_ok hcheck with ⟨rfl, -⟩ | ⟨hwho, -, -⟩
    · exact hexecuted
    · by_cases haccount : who = account
      · subst haccount
        simp only [postDispatch, hwho, if_true, consume]
        rw [hexecuted.currentCapacity_eq, hsame.weight]
        exact setCapacity_tracks _
      · have hne : ¬ some who = some account := by simpa using haccount
        simp only [postDispatch, hwho, if_neg hne, consume]
        exact hexecuted.of_sameRow (setCapacity_sameRow haccount _)

theorem Tracks.step (htracks : Tracks cfg account s charge) (op : MeterOp) :
    Tracks cfg account (meterStep cfg s op) (eagerStep cfg account s charge op) := by
  cases op with
  | observedWeight who weight => exact htracks.applyObservedWeight who weight
  | chain op =>
    cases op with
    | nextBlock unixSecs => exact htracks.nextBlock unixSecs
    | call origin call => exact htracks.chainCall origin call
    | extrinsic who call len => exact htracks.extrinsic who call len
    | inherent obs => exact htracks.observe _

theorem Tracks.run (htracks : Tracks cfg account s charge) (ops : List MeterOp) :
    Tracks cfg account (Substrate.run (pairedStep cfg account) (s, charge) ops).1
      (Substrate.run (pairedStep cfg account) (s, charge) ops).2 := by
  apply run_invariant (fun acc : Runtime × ℕ => Tracks cfg account acc.1 acc.2) ops
  · intro acc op hacc
    exact hacc.step op
  · exact htracks

end Representation

/-! ## Spending -/

section Spending

variable {cfg : Config} {account : AccountId} {s : Runtime} {charge : ℕ} {call : RuntimeCall}
  {len : ℕ} {pre : Pre} {who : AccountId}

theorem Tracks.debit_add_eagerStep_le (htracks : Tracks cfg account s charge)
    (op : MeterOp) :
    debitOf cfg account s op + eagerStep cfg account s charge op ≤
      charge + regenOf cfg account s op + forcedOf cfg account s op := by
  have hreading : eagerReading cfg (s.weightOf account) charge ≤ charge := min_le_right _ _
  have hcurrent := htracks.currentCapacity_eq
  cases op with
  | observedWeight who weight => simp [debitOf, eagerStep, regenOf, forcedOf]
  | chain op =>
    cases op with
    | nextBlock unixSecs =>
      simp only [debitOf, eagerStep, regenOf, forcedOf, eagerTick]
      omega
    | inherent obs => simp [debitOf, eagerStep, regenOf, forcedOf]
    | extrinsic who call len =>
      simp only [debitOf, eagerStep, regenOf, forcedOf]
      split
      next pre hcheck =>
        split_ifs with hwho
        · rcases checkCapacity_ok hcheck with ⟨rfl, -⟩ | ⟨hsigner, -, hcovered⟩
          · cases hwho
          · rw [hsigner, Option.some.injEq] at hwho
            subst hwho
            omega
        · omega
      next => omega
    | call origin call =>
      have hdebit : debitOf cfg account s (.chain (.call origin call)) = 0 := rfl
      have hregen : regenOf cfg account s (.chain (.call origin call)) = 0 := rfl
      rw [hdebit, hregen]
      unfold eagerStep forcedOf
      split <;> grind

theorem Tracks.sum_debit_le (ops : List MeterOp) (htracks : Tracks cfg account s charge) :
    sumAlong (meterStep cfg) (debitOf cfg account) s ops ≤
      charge + sumAlong (meterStep cfg) (regenOf cfg account) s ops +
        sumAlong (meterStep cfg) (forcedOf cfg account) s ops := by
  induction ops generalizing s charge with
  | nil => simp [sumAlong]
  | cons op ops ih =>
    have hstep := htracks.debit_add_eagerStep_le op
    have htail := ih (htracks.step op)
    simp only [sumAlong]
    omega

theorem eagerTick_le_ceiling (weight : ℕ) :
    eagerTick cfg weight charge ≤ capacityCeiling cfg weight :=
  min_le_left _ _

theorem nextBlock_weightOf (unixSecs : ℕ) :
    (s.nextBlock cfg unixSecs).weightOf account = s.weightOf account := by
  let ticked : Runtime :=
    { s with blockNumber := s.blockNumber + 1, unixSecs := unixSecs, events := [] }
  have hwrites : ticked.WritesFrontier (ticked.observerOnInitialize cfg) :=
    observerOnInitialize_writes
  have hsame : SameRow account ticked (ticked.observerOnInitialize cfg) :=
    .of_writesFrontier hwrites
  exact hsame.weight

/-- At the start of a block the reading is the whole charge. -/
theorem Tracks.currentCapacity_nextBlock (htracks : Tracks cfg account s charge)
    (unixSecs : ℕ) :
    currentCapacity cfg (s.nextBlock cfg unixSecs) account
        (s.nextBlock cfg unixSecs).blockNumber =
      eagerTick cfg (s.weightOf account) charge := by
  rw [(htracks.nextBlock unixSecs).currentCapacity_eq, nextBlock_weightOf]
  exact min_eq_right (eagerTick_le_ceiling _)

theorem currentCapacity_le (cfg : Config) (s : Runtime) (who : AccountId) (now : ℕ) :
    currentCapacity cfg s who now ≤ capacityCeiling cfg (s.weightOf who) := by
  unfold currentCapacity
  split
  · exact Nat.zero_le _
  · exact Nat.min_le_left _ _

theorem currentCapacity_consume (cfg : Config) (s : Runtime) (who : AccountId) (cost : ℕ) :
    currentCapacity cfg (s.consume cfg who cost) who s.blockNumber =
      currentCapacity cfg s who s.blockNumber - cost := by
  have hceiling := currentCapacity_le cfg s who s.blockNumber
  have hweight : (s.consume cfg who cost).weightOf who = s.weightOf who := rfl
  have hrow : (s.consume cfg who cost).capacity.get who =
      some ⟨currentCapacity cfg s who s.blockNumber - cost, s.blockNumber⟩ :=
    StorageMap.get_insert_self _ _ _
  generalize currentCapacity cfg s who s.blockNumber = reading at hceiling hrow ⊢
  rw [currentCapacity, hrow]
  dsimp only
  rw [hweight, accrue_eq, Nat.sub_self, Nat.mul_zero, Nat.add_zero]
  exact Nat.min_eq_right (Nat.le_trans (Nat.sub_le _ _) hceiling)

theorem charged_exactly (hcheck : s.checkCapacity cfg (.signed who) call len = .ok pre)
    (hwho : pre.who = some who) :
    currentCapacity cfg ((s.execute cfg (.signed who) call).postDispatch cfg pre) who
        s.blockNumber + pre.cost = currentCapacity cfg s who s.blockNumber := by
  have hsame : SameRow who s (s.execute cfg (.signed who) call) := execute_signed_sameRow who call
  rcases checkCapacity_ok hcheck with ⟨rfl, -⟩ | ⟨-, -, hcovered⟩
  · cases hwho
  have hreading : currentCapacity cfg (s.execute cfg (.signed who) call) who s.blockNumber =
      currentCapacity cfg s who s.blockNumber := by
    rw [currentCapacity, currentCapacity, hsame.row, hsame.weight]
  rw [postDispatch, hwho]
  dsimp only
  rw [← hsame.blockNumber, currentCapacity_consume, hsame.blockNumber, hreading]
  omega

theorem currentCapacity_extrinsic (hcheck : s.checkCapacity cfg (.signed who) call len = .ok pre)
    (hpayer : pre.who = some account) :
    meteredNeed cfg s account call = some pre.cost ∧
      currentCapacity cfg (s.step cfg (.extrinsic who call len)) account s.blockNumber +
          pre.cost =
        currentCapacity cfg s account s.blockNumber := by
  rcases checkCapacity_ok hcheck with ⟨rfl, -⟩ | ⟨hwho, hneed, -⟩
  · cases hpayer
  rw [hwho, Option.some.injEq] at hpayer
  subst hpayer
  refine ⟨hneed, ?_⟩
  have hafter : s.step cfg (.extrinsic who call len) =
      (s.execute cfg (.signed who) call).postDispatch cfg pre := by
    simp only [Runtime.step, applyExtrinsic, hcheck]
  rw [hafter, charged_exactly hcheck hwho]

end Spending

/-! ## Whole runs -/

def eagerCharge (cfg : Config) (account : AccountId) (s : Runtime) (ops : List MeterOp) : ℕ :=
  (run (pairedStep cfg account) (s, 0) ops).2

theorem pairedRun_fst (cfg : Config) (account : AccountId) (acc : Runtime × ℕ)
    (ops : List MeterOp) :
    (run (pairedStep cfg account) acc ops).1 = run (meterStep cfg) acc.1 ops := by
  induction ops generalizing acc with
  | nil => rfl
  | cons op ops ih =>
    rw [run_cons, run_cons, ih]
    rfl

/-- Along every run of an account that starts without weight and without a
row, the lazy meter reads what the eager one does.  So the reading is never
above the ceiling, an admitted call is debited its whole cost, and what a
range of blocks debits is covered by the reading at its start, the recharges
inside it and the forced top-ups. -/
theorem currentCapacity_eq_eagerReading (cfg : Config) (account : AccountId) (s : Runtime)
    (hweight : s.weightOf account = 0) (hrow : s.capacity.get account = none)
    (ops : List MeterOp) :
    let after := run (meterStep cfg) s ops
    let reading := currentCapacity cfg after account after.blockNumber
    reading = eagerReading cfg (after.weightOf account) (eagerCharge cfg account s ops) ∧
      reading ≤ capacityCeiling cfg (after.weightOf account) ∧
      (∀ who call len pre,
        after.checkCapacity cfg (.signed who) call len = .ok pre → pre.who = some account →
          meteredNeed cfg after account call = some pre.cost ∧
            currentCapacity cfg (after.step cfg (.extrinsic who call len)) account
                after.blockNumber + pre.cost = reading) ∧
      (∀ unixSecs range,
        let start := after.nextBlock cfg unixSecs
        sumAlong (meterStep cfg) (debitOf cfg account) start range ≤
          currentCapacity cfg start account start.blockNumber +
            sumAlong (meterStep cfg) (regenOf cfg account) start range +
            sumAlong (meterStep cfg) (forcedOf cfg account) start range) ∧
      sumAlong (meterStep cfg) (debitOf cfg account) s ops ≤
        sumAlong (meterStep cfg) (regenOf cfg account) s ops +
          sumAlong (meterStep cfg) (forcedOf cfg account) s ops := by
  intro after reading
  have hinit : Tracks cfg account s 0 := by
    simp [Tracks, hrow, hweight]
  have htracks : Tracks cfg account after (eagerCharge cfg account s ops) := by
    have hrun := hinit.run ops
    rw [pairedRun_fst] at hrun
    exact hrun
  have hreading : reading =
      eagerReading cfg (after.weightOf account) (eagerCharge cfg account s ops) :=
    htracks.currentCapacity_eq
  refine ⟨hreading, ?_, ?_, ?_, ?_⟩
  · rw [hreading]
    exact min_le_left _ _
  · intro who call len pre hcheck hpayer
    exact currentCapacity_extrinsic hcheck hpayer
  · intro unixSecs range start
    have hspent := (htracks.nextBlock unixSecs).sum_debit_le range
    rw [htracks.currentCapacity_nextBlock unixSecs]
    exact hspent
  · simpa using hinit.sum_debit_le ops

def meterSample : List MeterOp :=
  [.observedWeight ⟨1⟩ 1000000000000, .chain (.nextBlock 0), .chain (.nextBlock 0),
    .observedWeight ⟨1⟩ 0, .observedWeight ⟨1⟩ 1000000000000,
    .chain (.extrinsic ⟨1⟩ (.microblog (.follow ⟨2⟩)) 100)]

theorem currentCapacity_eq_eagerReading_meterSample :
    (genesis.weightOf ⟨1⟩ = 0 ∧ genesis.capacity.get ⟨1⟩ = none) ∧
      eagerCharge Config.toy ⟨1⟩ .genesis meterSample = 199400000000 ∧
      currentCapacity Config.toy (run (meterStep Config.toy) .genesis meterSample) ⟨1⟩ 2 =
        199400000000 := by
  have hcharge : eagerCharge Config.toy ⟨1⟩ .genesis meterSample = 199400000000 := by
    decide +kernel
  have hweight : (run (meterStep Config.toy) .genesis meterSample).weightOf ⟨1⟩ =
      1000000000000 := by
    decide +kernel
  have hblock : (run (meterStep Config.toy) .genesis meterSample).blockNumber = 2 := by
    decide +kernel
  have heager : eagerReading Config.toy 1000000000000 199400000000 = 199400000000 := by
    decide +kernel
  have hreading :=
    (currentCapacity_eq_eagerReading Config.toy ⟨1⟩ .genesis rfl rfl meterSample).1
  rw [hblock, hweight, hcharge, heager] at hreading
  exact ⟨⟨rfl, rfl⟩, hcharge, hreading⟩

end CognoChain
