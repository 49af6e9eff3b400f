import Mathlib.Algebra.Order.Floor.Div
import CognoChain.Meter
import CognoChain.Model.Client

/-!
# The client's wait estimate is exact

The capacity test of a post passes from some block on, or never, as long as the
account's weight and row stay as they are.  The client classifies a draft by one
division; what it says is when the test opens.  An account without a row has no
weight on any chain that started without weights, so the estimate for such an
account is never shown.
-/

namespace CognoChain

open Substrate

/-! ## Tests that stay open -/

inductive Verdict
  | now
  | after (blocks : ℕ)
  | never
deriving DecidableEq

/-- When a test opens, seen from block `start`. -/
def Opens (test : ℕ → Prop) (start : ℕ) : Verdict → Prop
  | .now => ∀ b, start ≤ b → test b
  | .after n => 0 < n ∧ (∀ b, start ≤ b → b < start + n → ¬ test b) ∧
      ∀ b, start + n ≤ b → test b
  | .never => ∀ b, start ≤ b → ¬ test b

section Opens

variable {test : ℕ → Prop} {start n : ℕ} {verdict : Verdict}

theorem Opens.now_iff (h : Opens test start verdict) : verdict = .now ↔ test start := by
  cases verdict with
  | now => exact iff_of_true rfl (h start le_rfl)
  | after n => exact iff_of_false nofun (h.2.1 start le_rfl (Nat.lt_add_of_pos_right h.1))
  | never => exact iff_of_false nofun (h start le_rfl)

theorem Opens.never_iff (h : Opens test start verdict) :
    verdict = .never ↔ ∀ b, start ≤ b → ¬ test b := by
  cases verdict with
  | now => exact iff_of_false nofun fun hnever => hnever start le_rfl (h start le_rfl)
  | after n =>
    refine iff_of_false nofun fun hnever => ?_
    exact hnever (start + n) (Nat.le_add_right start n) (h.2.2 (start + n) le_rfl)
  | never => exact iff_of_true rfl h

theorem Opens.after_iff (h : Opens test start verdict) :
    verdict = .after n ↔ Opens test start (.after n) := by
  refine ⟨fun hverdict => hverdict ▸ h, fun hn => ?_⟩
  obtain ⟨hpos, hclosed, hopen⟩ := hn
  cases verdict with
  | now => exact absurd (h start le_rfl) (hclosed start le_rfl (Nat.lt_add_of_pos_right hpos))
  | never =>
    exact absurd (hopen (start + n) le_rfl) (h (start + n) (Nat.le_add_right start n))
  | after m =>
    obtain ⟨-, hclosed', hopen'⟩ := h
    rcases Nat.lt_trichotomy m n with hlt | heq | hgt
    · exact absurd (hopen' (start + m) le_rfl)
        (hclosed (start + m) (Nat.le_add_right start m) (by omega))
    · rw [heq]
    · exact absurd (hopen (start + n) le_rfl)
        (hclosed' (start + n) (Nat.le_add_right start n) (by omega))

end Opens

/-! ## The replay -/

/-- The terms of the meter that a 128-bit word has to hold for a draft. -/
structure DraftFits (cfg : Config) (weight byteLen : ℕ) : Prop where
  ceiling : cfg.ceiling ≤ u128Max
  rate : capacityCeiling cfg weight * cfg.regenPerBlock ≤ u128Max
  cost : cfg.baseCost + cfg.perByteCost * byteLen ≤ u128Max

section Replay

variable {cfg : Config} {weight byteLen : ℕ}

theorem capOf_eq (hfits : DraftFits cfg weight byteLen) :
    Client.capOf weight (Client.readCapacityConsts cfg) = capacityCeiling cfg weight := by
  have hceiling := hfits.ceiling
  unfold Client.capOf Client.readCapacityConsts capacityCeiling satMul
  dsimp only
  split_ifs <;> omega

theorem ratePerBlockOf_eq (hfits : DraftFits cfg weight byteLen) :
    Client.ratePerBlockOf weight (Client.readCapacityConsts cfg) = regenPerBlock cfg weight := by
  have hrate : satMul u128Max (capacityCeiling cfg weight) cfg.regenPerBlock =
      capacityCeiling cfg weight * cfg.regenPerBlock := min_eq_left hfits.rate
  unfold Client.ratePerBlockOf regenPerBlock
  rw [capOf_eq hfits, hrate]
  rfl

theorem postCost_eq (hfits : DraftFits cfg weight byteLen) :
    Client.postCost byteLen (Client.readCapacityConsts cfg) = postCost cfg byteLen := by
  have hcost := hfits.cost
  unfold Client.postCost postCost satAdd satMul Client.readCapacityConsts
  dsimp only
  omega

theorem currentCapacity_replay {s : Runtime} {who : AccountId}
    (hfits : DraftFits cfg (s.weightOf who) byteLen) (block : ℕ) :
    Client.currentCapacity (Client.readCapacityInputs s who) block
        (Client.readCapacityConsts cfg) = currentCapacity cfg s who block := by
  unfold Client.currentCapacity currentCapacity
  have hweight : (Client.readCapacityInputs s who).weight = s.weightOf who := rfl
  have hbucket : (Client.readCapacityInputs s who).bucket = s.capacity.get who := rfl
  rw [hweight, hbucket, capOf_eq hfits, ratePerBlockOf_eq hfits]
  cases s.capacity.get who with
  | none => rfl
  | some row =>
    dsimp only
    rw [accrue_eq]
    split_ifs <;> omega

end Replay

/-! ## The classification -/

def Client.DraftStatus.verdict : Client.DraftStatus → Verdict
  | .ok _ _ => .now
  | .noWeight _ => .never
  | .tooLong _ _ => .never
  | .charging _ _ blocks => .after blocks
  | .wait _ _ blocks => .after blocks

section Verdict

variable {status : Client.DraftStatus} {n : ℕ}

theorem isOk_iff : status.isOk = true ↔ status.verdict = .now := by
  cases status <;> simp [Client.DraftStatus.isOk, Client.DraftStatus.verdict]

theorem never_iff : status.never = true ↔ status.verdict = .never := by
  cases status <;> simp [Client.DraftStatus.never, Client.DraftStatus.verdict]

theorem blocks_iff : status.blocks = some n ↔ status.verdict = .after n := by
  cases status <;> simp [Client.DraftStatus.blocks, Client.DraftStatus.verdict]

end Verdict

def draftView (cfg : Config) (s : Runtime) (who : AccountId) (block : ℕ) : Client.CapacityView :=
  Client.computeView (Client.readCapacityInputs s who) block (Client.readCapacityConsts cfg)

def PostPasses (cfg : Config) (s : Runtime) (who : AccountId) (byteLen block : ℕ) : Prop :=
  postCost cfg byteLen ≤ currentCapacity cfg s who block

section Classification

variable {cfg : Config} {s : Runtime} {who : AccountId} {start byteLen : ℕ}

theorem currentCapacity_later {row : CapacityState} (hrow : s.capacity.get who = some row)
    (hstart : row.lastBlock ≤ start) (k : ℕ) :
    currentCapacity cfg s who (start + k) =
      min (capacityCeiling cfg (s.weightOf who))
        (currentCapacity cfg s who start + regenPerBlock cfg (s.weightOf who) * k) := by
  have helapsed : start + k - row.lastBlock = (start - row.lastBlock) + k := by omega
  simp only [currentCapacity, hrow]
  rw [accrue_eq, accrue_eq, helapsed, Nat.mul_add]
  omega

theorem passes_later_iff {row : CapacityState} (hrow : s.capacity.get who = some row)
    (hstart : row.lastBlock ≤ start) {block : ℕ} (hblock : start ≤ block) :
    PostPasses cfg s who byteLen block ↔
      postCost cfg byteLen ≤ capacityCeiling cfg (s.weightOf who) ∧
        postCost cfg byteLen ≤ currentCapacity cfg s who start +
          regenPerBlock cfg (s.weightOf who) * (block - start) := by
  rw [PostPasses, ← Nat.add_sub_cancel' hblock, currentCapacity_later hrow hstart, le_min_iff,
    Nat.add_sub_cancel_left]

theorem number_of_lt {n : ℕ} (hn : n < 2 ^ 53) : Client.number n = n := if_pos hn

theorem not_passes_of_noRow (hbase : 1 ≤ cfg.baseCost) (hrow : s.capacity.get who = none)
    (block : ℕ) : ¬ PostPasses cfg s who byteLen block := by
  have hcost : 1 ≤ postCost cfg byteLen := by
    unfold postCost satAdd u128Max
    omega
  simp only [PostPasses, currentCapacity, hrow]
  omega

/-- What the composer says of a draft is when its capacity test opens. -/
theorem draftStatus_opens (hfits : DraftFits cfg (s.weightOf who) byteLen)
    (hbase : 1 ≤ cfg.baseCost) (hprimed : s.capacity.get who = none → s.weightOf who = 0)
    (hstart : ∀ row, s.capacity.get who = some row → row.lastBlock ≤ start)
    (hcount : (draftView cfg s who start).blocksUntil (postCost cfg byteLen) < 2 ^ 53) :
    Opens (PostPasses cfg s who byteLen) start
      (Client.draftStatus (draftView cfg s who start) byteLen
        (Client.readCapacityConsts cfg)).verdict := by
  have hneed := postCost_eq hfits
  have hweight : (draftView cfg s who start).weight = s.weightOf who := rfl
  have hcap : (draftView cfg s who start).cap = capacityCeiling cfg (s.weightOf who) :=
    capOf_eq hfits
  have hhave : (draftView cfg s who start).have' = currentCapacity cfg s who start :=
    currentCapacity_replay hfits start
  have hrate : (draftView cfg s who start).ratePerBlock = regenPerBlock cfg (s.weightOf who) :=
    ratePerBlockOf_eq hfits
  have hbucket : (draftView cfg s who start).bucket = s.capacity.get who := rfl
  have hblocks : (draftView cfg s who start).blocksUntil (postCost cfg byteLen) =
      (postCost cfg byteLen - currentCapacity cfg s who start) ⌈/⌉
        regenPerBlock cfg (s.weightOf who) := by
    rw [Client.CapacityView.blocksUntil, hhave, hrate, Nat.ceilDiv_eq_add_pred_div]
  rw [hblocks] at hcount
  unfold Client.draftStatus
  dsimp only
  rw [hneed, hweight, hcap, hhave, hrate, hblocks, number_of_lt hcount, hbucket]
  cases hrow : s.capacity.get who with
  | none =>
    rw [if_pos (hprimed hrow)]
    exact fun block _ => not_passes_of_noRow hbase hrow block
  | some row =>
    have hlater : ∀ {block : ℕ}, start ≤ block → (PostPasses cfg s who byteLen block ↔ _) :=
      passes_later_iff hrow (hstart row hrow)
    dsimp only
    split_ifs with hzero hlong hok hidle
    · -- without weight the bucket has no room
      intro block hblock hpasses
      have hroom := ((hlater hblock).mp hpasses).1
      have hcost : 1 ≤ postCost cfg byteLen := by
        unfold postCost satAdd u128Max
        omega
      rw [hzero, capacityCeiling_zero] at hroom
      omega
    · intro block hblock hpasses
      exact absurd ((hlater hblock).mp hpasses).1 (Nat.not_le_of_lt hlong)
    · intro block hblock
      exact (hlater hblock).mpr ⟨Nat.le_of_not_lt hlong, Nat.le_add_right_of_le hok⟩
    · intro block hblock hpasses
      have hfilled := ((hlater hblock).mp hpasses).2
      rw [hidle, Nat.zero_mul, Nat.add_zero] at hfilled
      exact hok hfilled
    · -- the test opens once the blocks since make up for what is missing
      have hpos : 0 < regenPerBlock cfg (s.weightOf who) := Nat.pos_of_ne_zero hidle
      have hopens : ∀ {block : ℕ}, start ≤ block → (PostPasses cfg s who byteLen block ↔
          (postCost cfg byteLen - currentCapacity cfg s who start) ⌈/⌉
            regenPerBlock cfg (s.weightOf who) ≤ block - start) := by
        intro block hblock
        rw [hlater hblock, ceilDiv_le_iff_le_mul hpos, tsub_le_iff_left,
          and_iff_right (Nat.le_of_not_lt hlong)]
      have hmissing : 0 < (postCost cfg byteLen - currentCapacity cfg s who start) ⌈/⌉
          regenPerBlock cfg (s.weightOf who) := by
        rw [← not_le, ceilDiv_le_iff_le_mul hpos]
        omega
      refine ⟨hmissing, fun block hblock hearly => ?_, fun block hblock => ?_⟩
      · rw [hopens hblock]
        omega
      · rw [hopens (by omega)]
        omega

/-- The test is the last thing the check asks of a post. -/
theorem checkCapacity_post_iff {s' : Runtime} {text : Bytes} {parent : Option ℕ} {len : ℕ}
    (hweight : s'.weightOf who = s.weightOf who)
    (hrow : s'.capacity.get who = s.capacity.get who) (htext : text.length ≤ cfg.maxLength)
    (hlen : len ≤ cfg.maxCallLen) (hpayable : postCost cfg text.length ≠ unpayable) :
    s'.checkCapacity cfg (.signed who) (.microblog (.postMessage text parent)) len =
        .ok ⟨some who, postCost cfg text.length⟩ ↔
      PostPasses cfg s who text.length s'.blockNumber := by
  have hreading : currentCapacity cfg s' who s'.blockNumber =
      currentCapacity cfg s who s'.blockNumber := by
    unfold currentCapacity
    rw [hweight, hrow]
  have hshort : RuntimeCall.overLen cfg (.microblog (.postMessage text parent)) = false :=
    decide_eq_false (Nat.not_lt_of_le htext)
  simp only [Runtime.checkCapacity, hshort, Bool.false_eq_true, if_false, meteredNeed,
    MicroblogCall.meteredCost, Nat.not_lt_of_le hlen, hpayable, hreading, PostPasses]
  split_ifs with hlacks
  · exact iff_of_false nofun (Nat.not_le_of_lt hlacks)
  · exact iff_of_true rfl (Nat.le_of_not_lt hlacks)

end Classification

theorem weightOf_of_noRow (cfg : Config) (who : AccountId) (ops : List MeterOp)
    (hrow : (run (meterStep cfg) Runtime.genesis ops).capacity.get who = none) :
    (run (meterStep cfg) Runtime.genesis ops).weightOf who = 0 := by
  have hinit : Tracks cfg who .genesis 0 := ⟨rfl, rfl⟩
  have htracks := hinit.run ops
  rw [pairedRun_fst] at htracks
  unfold Tracks at htracks
  rw [hrow] at htracks
  exact htracks.1

/-- For every account of a chain that started without weights, as long as its
weight and its row stay as they are: the composer says that a draft can be
posted exactly when the capacity test of the check passes, to wait for `n` blocks
exactly when the test fails until then and passes from then on, and that the
draft cannot be posted exactly when the test fails at every later block. -/
theorem draftStatus_exact (cfg : Config) (ops : List MeterOp) (who : AccountId)
    (start byteLen : ℕ) (hbase : 1 ≤ cfg.baseCost) (hlen : byteLen ≤ cfg.maxLength)
    (hfits : DraftFits cfg ((run (meterStep cfg) .genesis ops).weightOf who) byteLen)
    (hstart : ∀ row, (run (meterStep cfg) .genesis ops).capacity.get who = some row →
      row.lastBlock ≤ start)
    (hcount : (draftView cfg (run (meterStep cfg) .genesis ops) who start).blocksUntil
      (postCost cfg byteLen) < 2 ^ 53) :
    let s := run (meterStep cfg) Runtime.genesis ops
    let status := Client.draftStatus (draftView cfg s who start) byteLen
      (Client.readCapacityConsts cfg)
    let passes := PostPasses cfg s who byteLen
    (status.isOk = true ↔ passes start) ∧
      (∀ n, status.blocks = some n ↔ 0 < n ∧
        (∀ b, start ≤ b → b < start + n → ¬ passes b) ∧ ∀ b, start + n ≤ b → passes b) ∧
      (status.never = true ↔ ∀ b, start ≤ b → ¬ passes b) ∧
      ∀ (s' : Runtime) (text : Bytes) (parent : Option ℕ) (len : ℕ),
        s'.weightOf who = s.weightOf who → s'.capacity.get who = s.capacity.get who →
        text.length = byteLen → len ≤ cfg.maxCallLen → postCost cfg byteLen ≠ unpayable →
          (s'.checkCapacity cfg (.signed who) (.microblog (.postMessage text parent)) len =
              .ok ⟨some who, postCost cfg byteLen⟩ ↔ passes s'.blockNumber) := by
  intro s status passes
  have hprimed : s.capacity.get who = none → s.weightOf who = 0 := weightOf_of_noRow cfg who ops
  have hopens : Opens passes start status.verdict :=
    draftStatus_opens hfits hbase hprimed hstart hcount
  refine ⟨?_, ?_, ?_, ?_⟩
  · rw [isOk_iff]
    exact hopens.now_iff
  · intro n
    rw [blocks_iff]
    exact hopens.after_iff
  · rw [never_iff]
    exact hopens.never_iff
  · rintro s' text parent len hweight hrow rfl hcall hpayable
    exact checkCapacity_post_iff hweight hrow hlen hcall hpayable

theorem draftStatus_exact_charged :
    let s := run (meterStep Config.toy) Runtime.genesis [.observedWeight ⟨1⟩ 100000000]
    Client.draftStatus (draftView Config.toy s ⟨1⟩ 10) 10 (Client.readCapacityConsts Config.toy) =
        .wait 1000000000 3030000000 21 ∧
      (∀ b, 10 ≤ b → b < 31 → ¬ PostPasses Config.toy s ⟨1⟩ 10 b) ∧
      ∀ b, 31 ≤ b → PostPasses Config.toy s ⟨1⟩ 10 b := by
  have hstatus : Client.draftStatus
      (draftView Config.toy
        (run (meterStep Config.toy) Runtime.genesis [.observedWeight ⟨1⟩ 100000000]) ⟨1⟩ 10) 10
      (Client.readCapacityConsts Config.toy) = .wait 1000000000 3030000000 21 := by
    decide +kernel
  obtain ⟨-, hwaits, -⟩ := draftStatus_exact Config.toy [.observedWeight ⟨1⟩ 100000000] ⟨1⟩ 10 10
    (by decide +kernel) (by decide +kernel)
    ⟨by decide +kernel, by decide +kernel, by decide +kernel⟩
    (fun row hrow => by
      rw [← Option.some.inj ((show _ = some (⟨0, 0⟩ : CapacityState) by decide +kernel).symm.trans
        hrow)]
      exact Nat.zero_le 10)
    (by decide +kernel)
  obtain ⟨-, hclosed, hopen⟩ := (hwaits 21).mp (by rw [hstatus]; rfl)
  exact ⟨hstatus, hclosed, hopen⟩

end CognoChain
