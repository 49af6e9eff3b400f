import CognoChain.Model.Authors
import CognoChain.Substrate.StorageMap

/-!
# Whom a block is credited to

A block is authored by the validator at its slot's place in the set the block
before it ended with.  The walk takes the set its own block ended with: what it
keeps for a session is what any block of that session ends with, so the cache is
exact, but the first block of a session with another set is credited to a
validator of the set it brought in.
-/

namespace CognoChain

open Substrate AuthorWalk

/-! ## Authors and sessions -/

namespace Node

variable {node : Node} {m n : ℕ} {a b : BlockRecord}

def author (node : Node) (n : ℕ) : Option AccountId := do
  let block ← node.blocks[n]?
  let slot ← auraSlot block.logs
  let parent ← node.blocks[n - 1]?
  pick (parent.validators.getD []) slot

def creditAt (node : Node) (n : ℕ) : Option AccountId := do
  let block ← node.blocks[n]?
  let slot ← auraSlot block.logs
  pick (block.validators.getD []) slot

/-- A block leaves the session and its set alone, or starts the next session. -/
def Sessions (node : Node) : Prop :=
  ∀ n a b, node.blocks[n]? = some a → node.blocks[n + 1]? = some b →
    (b.currentIndex.getD 0 = a.currentIndex.getD 0 ∧ b.validators = a.validators) ∨
      b.currentIndex.getD 0 = a.currentIndex.getD 0 + 1

theorem Sessions.of_le (hsessions : node.Sessions) (hle : m ≤ n) (ha : node.blocks[m]? = some a)
    (hb : node.blocks[n]? = some b) :
    a.currentIndex.getD 0 ≤ b.currentIndex.getD 0 ∧
      (a.currentIndex.getD 0 = b.currentIndex.getD 0 → a.validators = b.validators) := by
  induction n, hle using Nat.le_induction generalizing b with
  | base =>
    rw [Option.some.inj (ha.symm.trans hb)]
    exact ⟨le_rfl, fun _ => rfl⟩
  | succ n hle ih =>
    obtain ⟨hlt, -⟩ := List.getElem?_eq_some_iff.mp hb
    obtain ⟨mid, hmid⟩ : ∃ mid, node.blocks[n]? = some mid :=
      ⟨_, List.getElem?_eq_getElem (Nat.lt_of_succ_lt hlt)⟩
    obtain ⟨hgrows, hsame⟩ := ih hmid
    rcases hsessions n mid b hmid hb with ⟨hindex, hvalidators⟩ | hindex
    · rw [hindex, hvalidators]
      exact ⟨hgrows, hsame⟩
    · exact ⟨by omega, fun hequal => by omega⟩

theorem creditAt_eq_author (hb : node.blocks[n]? = some b)
    (hquiet : ∀ a, node.blocks[n - 1]? = some a → (auraSlot b.logs).isSome = true →
      b.validators = a.validators) :
    node.creditAt n = node.author n := by
  obtain ⟨hlt, -⟩ := List.getElem?_eq_some_iff.mp hb
  obtain ⟨a, ha⟩ : ∃ a, node.blocks[n - 1]? = some a :=
    ⟨_, List.getElem?_eq_getElem (Nat.lt_of_le_of_lt (Nat.sub_le n 1) hlt)⟩
  unfold creditAt author
  rw [hb, ha]
  cases hslot : auraSlot b.logs with
  | none => simp [hslot]
  | some slot =>
    have hvalidators := hquiet a ha (by rw [hslot]; rfl)
    simp [hslot, hvalidators]

end Node

/-! ## The cache -/

namespace AuthorWalk

variable {node : Node} {walk : AuthorWalk} {n first : ℕ} {block : BlockRecord}

section

variable (walk) (author : Option AccountId)

@[simp] theorem credit_curSession :
    (walk.credit author).curSession = walk.curSession := by
  cases author <;> rfl

@[simp] theorem credit_curValidators :
    (walk.credit author).curValidators = walk.curValidators := by
  cases author <;> rfl

@[simp] theorem credit_lastSeen :
    (walk.credit author).lastSeen = walk.lastSeen := by
  cases author <;> rfl

theorem credit_counts (account : AccountId) :
    (walk.credit author).counts.getD account 0 =
      walk.counts.getD account 0 + if author = some account then 1 else 0 := by
  cases author with
  | none => simp [credit]
  | some author =>
    rw [credit, StorageMap.getD_insert]
    by_cases hsame : account = author
    · simp [hsame]
    · simp [hsame, Ne.symm hsame]

end

@[simp] theorem refresh_lastSeen (walk : AuthorWalk) (block : BlockRecord) :
    (walk.refresh block).lastSeen = walk.lastSeen := by
  unfold refresh
  dsimp only
  split_ifs <;> rfl

@[simp] theorem refresh_counts (walk : AuthorWalk) (block : BlockRecord) :
    (walk.refresh block).counts = walk.counts := by
  unfold refresh
  dsimp only
  split_ifs <;> rfl

def Caches (node : Node) (n : ℕ) (walk : AuthorWalk) : Prop :=
  ∀ session, walk.curSession = some session → ∃ m a, m < n ∧ node.blocks[m]? = some a ∧
    session = a.currentIndex.getD 0 ∧ walk.curValidators = a.validators.getD []

theorem Caches.mono {n' : ℕ} (hcaches : Caches node n walk) (hle : n ≤ n') :
    Caches node n' walk := by
  intro session hsession
  obtain ⟨m, a, hlt, hrest⟩ := hcaches session hsession
  exact ⟨m, a, Nat.lt_of_lt_of_le hlt hle, hrest⟩

theorem refresh_curSession (walk : AuthorWalk) (block : BlockRecord) :
    (walk.refresh block).curSession = some (block.currentIndex.getD 0) := by
  unfold refresh
  dsimp only
  split_ifs with hstale
  · rfl
  · exact not_not.mp hstale

section

variable (hsessions : node.Sessions) (hcaches : Caches node n walk)
  (hblock : node.blocks[n]? = some block)
include hsessions hcaches hblock

theorem refresh_curValidators :
    (walk.refresh block).curValidators = block.validators.getD [] := by
  unfold refresh
  dsimp only
  split_ifs with hstale
  · rfl
  · obtain ⟨m, a, hlt, ha, hindex, hvalidators⟩ := hcaches _ (not_not.mp hstale)
    rw [hvalidators, (hsessions.of_le hlt.le ha hblock).2 hindex.symm]

theorem creditedTo_eq : walk.creditedTo block = node.creditAt n := by
  unfold creditedTo Node.creditAt
  rw [hblock, refresh_curValidators hsessions hcaches hblock]
  rfl

theorem visit_caches : Caches node (n + 1) (walk.visit n block) := by
  intro session hsession
  unfold visit at hsession ⊢
  cases hslot : auraSlot block.logs with
  | none =>
    rw [hslot] at hsession
    exact (hcaches.mono (Nat.le_succ n)) session hsession
  | some slot =>
    rw [hslot] at hsession
    dsimp only at hsession ⊢
    rw [credit_curSession, refresh_curSession] at hsession
    refine ⟨n, block, Nat.lt_succ_self n, hblock, (Option.some.inj hsession).symm, ?_⟩
    have hseen : Caches node n { walk with lastSeen := n } := hcaches
    rw [credit_curValidators, refresh_curValidators hsessions hseen hblock]

end

theorem walkAll_caches (hsessions : node.Sessions) (k : ℕ) (hcaches : Caches node first walk) :
    Caches node (first + k) (walkAll node (List.range' first k) walk) := by
  induction k generalizing first walk with
  | zero => exact hcaches
  | succ k ih =>
    rw [List.range'_succ, walkAll]
    cases hblock : node.blocks[first]? with
    | none => exact hcaches.mono (Nat.le_add_right first _)
    | some block =>
      have hrest := ih (visit_caches hsessions hcaches hblock)
      rw [Nat.add_right_comm] at hrest
      exact hrest

/-! ## The tally -/

theorem visit_lastSeen (walk : AuthorWalk) (n : ℕ) (block : BlockRecord) :
    (walk.visit n block).lastSeen = n := by
  unfold visit
  dsimp only
  split
  · rfl
  · rw [credit_lastSeen, refresh_lastSeen]

theorem visit_counts (walk : AuthorWalk) (n : ℕ) (block : BlockRecord) (account : AccountId) :
    (walk.visit n block).counts.getD account 0 = walk.counts.getD account 0 +
      if walk.creditedTo block = some account then 1 else 0 := by
  have hset : (({ walk with lastSeen := n } : AuthorWalk).refresh block).curValidators =
      (walk.refresh block).curValidators := by
    unfold refresh
    dsimp only
    split_ifs <;> rfl
  unfold visit creditedTo
  cases auraSlot block.logs with
  | none => exact credit_counts _ none account
  | some slot =>
    dsimp only [Option.bind_some]
    rw [credit_counts, hset, refresh_counts]

theorem walkAll_counts (hsessions : node.Sessions) (k : ℕ) (hcaches : Caches node first walk)
    (hseen : walk.lastSeen + 1 = first) (account : AccountId) :
    let after := walkAll node (List.range' first k) walk
    first ≤ after.lastSeen + 1 ∧
      after.counts.getD account 0 = walk.counts.getD account 0 +
        (List.range' first (after.lastSeen + 1 - first)).countP
          (fun n => node.creditAt n = some account) := by
  induction k generalizing first walk with
  | zero =>
    refine ⟨hseen.ge, ?_⟩
    change _ = _ + (List.range' first (walk.lastSeen + 1 - first)).countP _
    rw [hseen, Nat.sub_self]
    rfl
  | succ k ih =>
    rw [List.range'_succ, walkAll]
    cases hblock : node.blocks[first]? with
    | none =>
      refine ⟨hseen.ge, ?_⟩
      dsimp only
      rw [hseen, Nat.sub_self]
      rfl
    | some block =>
      obtain ⟨hle, hcounts⟩ := ih (visit_caches hsessions hcaches hblock)
        (congrArg Nat.succ (visit_lastSeen walk first block))
      refine ⟨Nat.le_of_succ_le hle, ?_⟩
      dsimp only at hcounts ⊢
      generalize walkAll node (List.range' (first + 1) k) (walk.visit first block) = after
        at hle hcounts ⊢
      have hspan : after.lastSeen + 1 - first = (after.lastSeen + 1 - (first + 1)) + 1 := by
        omega
      rw [hcounts, visit_counts, creditedTo_eq hsessions hcaches hblock, hspan,
        List.range'_succ, List.countP_cons]
      simp only [decide_eq_true_eq]
      omega

theorem start_caches (node : Node) (first : ℕ) : Caches node first (start first) := nofun

end AuthorWalk

theorem runAuthors_ok {node : Node} {start stop : Option ℕ} {startTime stopTime : Option ℤ}
    {report : AuthorReport} (h : runAuthors node start stop startTime stopTime = .ok report) :
    1 ≤ report.start ∧ ∃ last, report.start ≤ last ∧
      report.lastSeen = (walkAll node (heights report.start last) (.start report.start)).lastSeen ∧
      report.counts = (walkAll node (heights report.start last) (.start report.start)).counts := by
  unfold runAuthors at h
  split_ifs at h
  cases hfirst : node.resolveStart start startTime with
  | error e =>
    rw [hfirst] at h
    cases h
  | ok first =>
    cases hlast : node.resolveStop stop stopTime with
    | error e =>
      rw [hfirst, hlast] at h
      cases h
    | ok last =>
      rw [hfirst, hlast] at h
      change (if _ then _ else _) = _ at h
      split_ifs at h with hrange
      rw [← Except.ok.inj h]
      exact ⟨hrange.1, last, hrange.2, rfl, rfl⟩

/-- On any chain whose sets change with their sessions, for any range whose
blocks each leave the validators as they found them: every block is credited to
its author, and the tally counts exactly the blocks each account authored. -/
theorem runAuthors_credits (node : Node) (hsessions : node.Sessions) (start stop : Option ℕ)
    (startTime stopTime : Option ℤ) (report : AuthorReport)
    (hrun : runAuthors node start stop startTime stopTime = .ok report)
    (hquiet : ∀ n block parent, report.start ≤ n → n ≤ report.lastSeen →
      node.blocks[n]? = some block → node.blocks[n - 1]? = some parent →
      (auraSlot block.logs).isSome = true → block.validators = parent.validators) :
    (∀ n block, report.start ≤ n → n ≤ report.lastSeen → node.blocks[n]? = some block →
      (walkAll node (heights report.start (n - 1)) (.start report.start)).creditedTo block =
        node.author n) ∧
      ∀ account, report.counts.getD account 0 =
        (heights report.start report.lastSeen).countP (fun n => node.author n = some account) := by
  obtain ⟨hpos, last, -, hlastSeen, hcounts⟩ := runAuthors_ok hrun
  refine ⟨fun n block hfirst hseen hblock => ?_, fun account => ?_⟩
  · have hcaches : Caches node n
        (walkAll node (heights report.start (n - 1)) (.start report.start)) := by
      have hwalked := walkAll_caches hsessions (n - 1 + 1 - report.start)
        (start_caches node report.start)
      have hreached : report.start + (n - 1 + 1 - report.start) = n := by omega
      rw [hreached] at hwalked
      exact hwalked
    rw [creditedTo_eq hsessions hcaches hblock]
    exact Node.creditAt_eq_author hblock
      fun parent hparent => hquiet n block parent hfirst hseen hblock hparent
  · have hstart : (AuthorWalk.start report.start).lastSeen + 1 = report.start :=
      Nat.sub_add_cancel hpos
    obtain ⟨-, htally⟩ := walkAll_counts hsessions (last + 1 - report.start)
      (start_caches node report.start) hstart account
    change report.lastSeen = (walkAll node (List.range' _ _) _).lastSeen at hlastSeen
    rw [← hlastSeen] at htally
    rw [hcounts]
    refine htally.trans ?_
    change 0 + _ = _
    rw [Nat.zero_add]
    apply List.countP_congr
    intro n hn
    have hrange : report.start ≤ n ∧ n ≤ report.lastSeen := by
      rw [List.mem_range'_1] at hn
      omega
    have hsame : node.creditAt n = node.author n := by
      cases hblock : node.blocks[n]? with
      | none => simp [Node.creditAt, Node.author, hblock]
      | some block =>
          exact Node.creditAt_eq_author hblock
            fun parent hparent => hquiet n block parent hrange.1 hrange.2 hblock hparent
    rw [hsame]

def slotBlock (slot session : ℕ) (validators : List AccountId) : BlockRecord where
  logs := [[6] ++ auraEngineId ++ [0x20] ++ leBytes 8 slot]
  currentIndex := some session
  validators := some validators
  now := none

def rotatingNode : Node where
  blocks :=
    [⟨[], none, some [⟨1⟩, ⟨2⟩], none⟩, slotBlock 10 0 [⟨1⟩, ⟨2⟩], slotBlock 11 1 [⟨2⟩, ⟨1⟩],
      slotBlock 12 1 [⟨2⟩, ⟨1⟩], slotBlock 14 1 [⟨2⟩, ⟨1⟩]]
  tip := 4

theorem rotatingNode_sessions : rotatingNode.Sessions := by
  intro n a b ha hb
  obtain ⟨hlt, -⟩ := List.getElem?_eq_some_iff.mp hb
  have hn : n < 4 := by
    change n + 1 < 5 at hlt
    omega
  interval_cases n <;> cases ha <;> cases hb <;> decide

theorem runAuthors_credits_rotatingNode :
    ∃ report, runAuthors rotatingNode (some 3) none none none = .ok report ∧
      report.counts.getD ⟨2⟩ 0 = 2 ∧
      (heights 3 4).countP (fun n => rotatingNode.author n = some ⟨2⟩) = 2 := by
  refine ⟨_, rfl, by decide +kernel, ?_⟩
  have htally := (runAuthors_credits rotatingNode rotatingNode_sessions (some 3) none none none _
    rfl ?_).2 ⟨2⟩
  · exact htally.symm.trans (by decide +kernel)
  · intro n block parent hfirst hseen hblock hparent _
    change 3 ≤ n at hfirst
    change n ≤ 4 at hseen
    interval_cases n <;> cases hblock <;> cases hparent <;> rfl

/-- The second block was made by the second validator and is credited to the
first. -/
theorem rotation_credited_to_newcomer :
    rotatingNode.Sessions ∧ rotatingNode.author 2 = some ⟨2⟩ ∧
      (walkAll rotatingNode (heights 1 1) (.start 1)).creditedTo (slotBlock 11 1 [⟨2⟩, ⟨1⟩]) =
        some ⟨1⟩ ∧
      ∃ report, runAuthors rotatingNode (some 1) (some 2) none none = .ok report ∧
        report.counts.getD ⟨1⟩ 0 = 2 ∧ report.counts.getD ⟨2⟩ 0 = 0 :=
  ⟨rotatingNode_sessions, by decide +kernel, by decide +kernel, _, rfl, by decide +kernel,
    by decide +kernel⟩

/-! ## Heights by time -/

def Node.timeAt (node : Node) (n : ℕ) : ℕ := (node.blocks[n]?.bind BlockRecord.now).getD 0

/-- The blocks up to the tip are there, and their times do not go back. -/
structure Node.Timed (node : Node) : Prop where
  held : node.tip < node.blocks.length
  ordered : ∀ n m, 1 ≤ n → n ≤ m → m ≤ node.tip → node.timeAt n ≤ node.timeAt m

/-- The search keeps what it has decided: the heights below `lo` are before the
time and those from `hi` on are not. -/
theorem Node.Timed.bisectTime {node : Node} (htimed : node.Timed) {targetMs fuel lo hi : ℕ}
    (hlow : 1 ≤ lo) (hle : lo ≤ hi) (hhigh : hi ≤ node.tip + 1) (hfuel : hi - lo ≤ fuel)
    (hbefore : ∀ n, 1 ≤ n → n < lo → node.timeAt n < targetMs)
    (hafter : ∀ n, hi ≤ n → n ≤ node.tip → targetMs ≤ node.timeAt n) :
    ∃ first, node.bisectTime targetMs fuel lo hi = .ok first ∧ 1 ≤ first ∧
      ∀ n, 1 ≤ n → n ≤ node.tip → (targetMs ≤ node.timeAt n ↔ first ≤ n) := by
  induction fuel generalizing lo hi with
  | zero =>
    refine ⟨lo, rfl, hlow, fun n hn htip => ?_⟩
    have hearly := hbefore n hn
    have hlate := hafter n
    omega
  | succ fuel ih =>
    rw [Node.bisectTime]
    by_cases hopen : lo < hi
    · obtain ⟨mid, hmid⟩ : ∃ mid, mid = lo + (hi - lo) / 2 := ⟨_, rfl⟩
      have hheld := htimed.held
      obtain ⟨block, hblock⟩ : ∃ block, node.blocks[mid]? = some block :=
        ⟨_, List.getElem?_eq_getElem (by omega)⟩
      have htime : block.now.getD 0 = node.timeAt mid := by
        rw [timeAt, hblock]
        rfl
      rw [if_pos hopen, ← hmid]
      simp only [hblock, htime]
      split_ifs with hreached
      · apply ih hlow (by omega) (by omega) (by omega) hbefore
        intro n hn htip
        exact hreached.trans (htimed.ordered mid n (by omega) hn htip)
      · apply ih (by omega) (by omega) hhigh (by omega) _ hafter
        intro n hn hlt
        have hearlier := htimed.ordered n mid hn (by omega) (by omega)
        omega
    · refine ⟨lo, if_neg hopen, hlow, fun n hn htip => ?_⟩
      have hearly := hbefore n hn
      have hlate := hafter n
      omega

/-- A range given by two times is searched for and found: it holds the heights
whose block times lie between the two, both included. -/
theorem timed_range_exact (node : Node) (htimed : node.Timed) (fromTime toTime : ℤ)
    (startMs stopMs : ℕ) (hfrom : toMs fromTime = .ok startMs) (hto : toMs toTime = .ok stopMs) :
    ∃ start stop, node.resolveStart none (some fromTime) = .ok start ∧
      node.resolveStop none (some toTime) = .ok stop ∧
      ∀ n, 1 ≤ n → n ≤ node.tip →
        (start ≤ n ∧ n ≤ stop ↔ startMs ≤ node.timeAt n ∧ node.timeAt n ≤ stopMs) := by
  have hsearch : ∀ targetMs, ∃ first, node.firstBlockAtOrAfter targetMs = .ok first ∧ 1 ≤ first ∧
      ∀ n, 1 ≤ n → n ≤ node.tip → (targetMs ≤ node.timeAt n ↔ first ≤ n) := fun targetMs =>
    htimed.bisectTime (Nat.le_refl 1) (by omega) (Nat.le_refl _) (by omega) (by omega) (by omega)
  obtain ⟨start, hstart, -, hbegins⟩ := hsearch startMs
  obtain ⟨after, hafter, hlow, hends⟩ := hsearch (stopMs + 1)
  refine ⟨start, after - 1, ?_, ?_, fun n hn htip => ?_⟩
  · rw [Node.resolveStart, hfrom]
    exact hstart
  · rw [Node.resolveStop, hto]
    change (node.firstBlockAtOrAfter (stopMs + 1) >>= fun first => pure (first - 1)) = _
    rw [hafter]
    rfl
  · have hbegun := hbegins n hn htip
    have hended := hends n hn htip
    omega

def clockedNode : Node where
  blocks := [⟨[], none, none, none⟩, ⟨[], none, none, some 1000⟩, ⟨[], none, none, some 7000⟩]
  tip := 2

theorem timed_range_exact_clockedNode :
    ∃ start stop, clockedNode.resolveStart none (some 2) = .ok start ∧
      clockedNode.resolveStop none (some 7) = .ok stop ∧ (start ≤ 2 ∧ 2 ≤ stop) := by
  have htimed : clockedNode.Timed := by
    refine ⟨by decide, fun n m hn hle htip => ?_⟩
    change m ≤ 2 at htip
    interval_cases m <;> interval_cases n <;> decide
  obtain ⟨start, stop, hstart, hstop, hexact⟩ :=
    timed_range_exact clockedNode htimed 2 7 2000 7000 (by decide) (by decide)
  exact ⟨start, stop, hstart, hstop, (hexact 2 (by decide) (by decide)).mpr (by decide)⟩

end CognoChain
