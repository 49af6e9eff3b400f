import Mathlib.Data.List.Range
import Mathlib.Data.List.Basic
import Mathlib.Tactic

/-!
# Paged reads

A page lists what is found at the positions below its cursor, from the highest
down to the cursor it hands back.  A client chases the cursors while the store
moves underneath.  The chase ends because cursors fall; it lists everything
once if the positions it has still to visit do not change, and in any case
nothing twice.
-/

namespace Substrate

/-! ## Counting down -/

def countdown (lo hi : ℕ) : List ℕ := (List.range' lo (hi - lo)).reverse

section Countdown

variable {lo mid hi p : ℕ}

@[simp] theorem countdown_self (n : ℕ) : countdown n n = [] := by
  simp [countdown]

theorem mem_countdown : p ∈ countdown lo hi ↔ lo ≤ p ∧ p < hi := by
  rw [countdown, List.mem_reverse, List.mem_range'_1]
  omega

theorem countdown_pairwise (lo hi : ℕ) : (countdown lo hi).Pairwise (· > ·) :=
  List.pairwise_reverse.mpr List.pairwise_lt_range'

theorem countdown_append (hlo : lo ≤ mid) (hhi : mid ≤ hi) :
    countdown mid hi ++ countdown lo mid = countdown lo hi := by
  have hsplit : List.range' lo (hi - lo) =
      List.range' lo (mid - lo) ++ List.range' mid (hi - mid) := by
    have hmid : lo + 1 * (mid - lo) = mid := by omega
    have hlength : mid - lo + (hi - mid) = hi - lo := by omega
    rw [← hlength, ← List.range'_append, hmid]
  rw [countdown, countdown, countdown, hsplit, List.reverse_append]

theorem countdown_succ (hlo : lo ≤ hi) : countdown lo (hi + 1) = hi :: countdown lo hi := by
  rw [← countdown_append hlo (Nat.le_succ hi)]
  simp [countdown]

theorem countdown_zero (hi : ℕ) : countdown 0 hi = (List.range hi).reverse := by
  rw [countdown, Nat.sub_zero, List.range_eq_range']

end Countdown

/-! ## Pages -/

section Pages

variable {σ α β : Type*}

/-- What a page read below `hi` lists, given what is live at each position. -/
structure Reads (live : ℕ → Option β) (hi : ℕ) (listed : List β) (next : Option ℕ) : Prop where
  listed_eq : listed = (countdown (next.getD 0) hi).filterMap live
  next_lt : ∀ lo, next = some lo → lo < hi

theorem Reads.congr {live live' : ℕ → Option β} {hi : ℕ} {listed : List β} {next : Option ℕ}
    (hreads : Reads live hi listed next) (hlive : ∀ p < hi, live p = live' p) :
    Reads live' hi listed next := by
  refine ⟨?_, hreads.next_lt⟩
  rw [hreads.listed_eq]
  exact List.filterMap_congr (fun p hp => hlive p (mem_countdown.mp hp).2)

def cursorBound (top : ℕ) (cursor : Option ℕ) : ℕ := min (cursor.getD top) top

@[simp] theorem cursorBound_none (top : ℕ) : cursorBound top none = top := by
  simp [cursorBound]

theorem cursorBound_some (top b : ℕ) : cursorBound top (some b) = min b top := rfl

theorem lt_cursorBound_iff {top p : ℕ} {cursor : Option ℕ} :
    p < cursorBound top cursor ↔ p < top ∧ ∀ b ∈ cursor, p < b := by
  cases cursor with
  | none => simp
  | some b => simp [cursorBound_some, and_comm]

/-- The pages of a chase: each is read in the state of its turn, below the
cursor of the one before, until one hands back no cursor. -/
inductive Chase (read : σ → Option ℕ → α) (next : α → Option ℕ) :
    (ℕ → σ) → Option ℕ → List α → Prop
  | last {states : ℕ → σ} {cursor : Option ℕ}
      (hnext : next (read (states 0) cursor) = none) :
      Chase read next states cursor [read (states 0) cursor]
  | more {states : ℕ → σ} {cursor : Option ℕ} {lo : ℕ} {pages : List α}
      (hnext : next (read (states 0) cursor) = some lo)
      (hrest : Chase read next (fun n => states (n + 1)) (some lo) pages) :
      Chase read next states cursor (read (states 0) cursor :: pages)

section

variable {read : σ → Option ℕ → α} {next : α → Option ℕ} {states : ℕ → σ} {cursor : Option ℕ}
  {pages : List α} (hchase : Chase read next states cursor pages)
include hchase

theorem Chase.length_pos :
    0 < pages.length := by
  cases hchase <;> exact Nat.zero_lt_succ _

theorem Chase.exists_read_of_mem {page : α} (hmem : page ∈ pages) :
    ∃ n cursor, page = read (states n) cursor := by
  induction hchase with
  | @last states cursor hnext => exact ⟨0, cursor, List.mem_singleton.mp hmem⟩
  | @more states cursor lo pages hnext hrest ih =>
    rcases List.mem_cons.mp hmem with rfl | hlater
    · exact ⟨0, cursor, rfl⟩
    · obtain ⟨n, later, hpage⟩ := ih hlater
      exact ⟨n + 1, later, hpage⟩

theorem Chase.congr {read' : σ → Option ℕ → α} (seen : Option ℕ → Prop) (hcursor : seen cursor)
    (hread : ∀ s cursor, seen cursor → read s cursor = read' s cursor)
    (hnext : ∀ n cursor lo, next (read (states n) cursor) = some lo → seen (some lo)) :
    Chase read' next states cursor pages := by
  induction hchase with
  | @last states cursor hlast =>
    rw [hread _ _ hcursor] at hlast ⊢
    exact .last hlast
  | @more states cursor lo pages hmore hrest ih =>
    have hlater := ih (hnext 0 cursor lo hmore) (fun n => hnext (n + 1))
    rw [hread _ _ hcursor] at hmore ⊢
    exact .more hmore hlater

end

def PagesOf (read : σ → Option ℕ → α) (next : α → Option ℕ) (label : α → List β)
    (states : ℕ → σ) (live : ℕ → ℕ → Option β) (top : ℕ → ℕ) : Prop :=
  ∀ n cursor, Reads (live n) (cursorBound (top n) cursor) (label (read (states n) cursor))
    (next (read (states n) cursor))

variable {read : σ → Option ℕ → α} {next : α → Option ℕ} {label : α → List β}
  {states : ℕ → σ} {live : ℕ → ℕ → Option β} {top : ℕ → ℕ} {cursor : Option ℕ} {pages : List α}
  {still : ℕ → Option β}

theorem PagesOf.tail (hpages : PagesOf read next label states live top) :
    PagesOf read next label (fun n => states (n + 1)) (fun n => live (n + 1))
      (fun n => top (n + 1)) :=
  fun n cursor => hpages (n + 1) cursor

theorem PagesOf.next_lt (hpages : PagesOf read next label states live top) {n b lo : ℕ}
    (hnext : next (read (states n) (some b)) = some lo) : lo < b :=
  Nat.lt_of_lt_of_le ((hpages n (some b)).next_lt lo hnext) (Nat.min_le_left _ _)

theorem exists_chase_of_lt
    (hlt : ∀ n b lo, next (read (states n) (some b)) = some lo → lo < b)
    (cursor : Option ℕ) : ∃ pages, Chase read next states cursor pages := by
  have hbelow : ∀ b, ∀ {states : ℕ → σ},
      (∀ n b lo, next (read (states n) (some b)) = some lo → lo < b) →
      ∃ pages, Chase read next states (some b) pages := by
    intro b
    induction b using Nat.strong_induction_on with
    | h b ih =>
      intro states hlt
      cases hnext : next (read (states 0) (some b)) with
      | none => exact ⟨_, .last hnext⟩
      | some lo =>
        obtain ⟨pages, hrest⟩ := ih lo (hlt 0 b lo hnext) (fun n => hlt (n + 1))
        exact ⟨_, .more hnext hrest⟩
  cases hnext : next (read (states 0) cursor) with
  | none => exact ⟨_, .last hnext⟩
  | some lo =>
    obtain ⟨pages, hrest⟩ := hbelow lo (fun n => hlt (n + 1))
    exact ⟨_, .more hnext hrest⟩

theorem PagesOf.exists_chase (hpages : PagesOf read next label states live top)
    (cursor : Option ℕ) : ∃ pages, Chase read next states cursor pages :=
  exists_chase_of_lt (fun _ _ _ hnext => hpages.next_lt hnext) cursor

/-- Where nothing below the first bound moves, a chase lists all of it once. -/
theorem Chase.listed_eq (hchase : Chase read next states cursor pages)
    (hpages : PagesOf read next label states live top)
    (htop : ∀ n, cursorBound (top 0) cursor ≤ top n)
    (hstill : ∀ n, ∀ p < cursorBound (top 0) cursor, live n p = still p) :
    pages.flatMap label = (countdown 0 (cursorBound (top 0) cursor)).filterMap still := by
  induction hchase generalizing live top with
  | last hnext =>
    have hreads := (hpages 0 _).congr (hstill 0)
    rw [List.flatMap_singleton, hreads.listed_eq, hnext]
    rfl
  | @more states cursor lo pages hnext hrest ih =>
    have hreads := (hpages 0 cursor).congr (hstill 0)
    have hlo : lo < cursorBound (top 0) cursor := hreads.next_lt lo hnext
    have hbound : cursorBound (top (0 + 1)) (some lo) = lo :=
      Nat.min_eq_left (Nat.le_of_lt (Nat.lt_of_lt_of_le hlo (htop 1)))
    have hlater := ih hpages.tail
      (fun n => by
        rw [hbound]
        exact Nat.le_of_lt (Nat.lt_of_lt_of_le hlo (htop (n + 1))))
      (fun n p hp => hstill (n + 1) p (by
        rw [hbound] at hp
        exact Nat.lt_trans hp hlo))
    rw [hbound] at hlater
    rw [List.flatMap_cons, hlater, hreads.listed_eq, hnext, Option.getD_some,
      ← List.filterMap_append, countdown_append (Nat.zero_le lo) (Nat.le_of_lt hlo)]

theorem PagesOf.exists_listed (hpages : PagesOf read next label states live top) (cursor : Option ℕ)
    (htop : ∀ n, cursorBound (top 0) cursor ≤ top n)
    (hstill : ∀ n, ∀ p < cursorBound (top 0) cursor, live n p = still p) :
    ∃ pages, Chase read next states cursor pages ∧
      pages.flatMap label = (countdown 0 (cursorBound (top 0) cursor)).filterMap still := by
  obtain ⟨pages, hchase⟩ := hpages.exists_chase cursor
  exact ⟨pages, hchase, hchase.listed_eq hpages htop hstill⟩

end Pages

/-! ## Pages of a stream -/

section Streams

variable {σ α β γ : Type*} {left : Option ℕ → List β} {cursor next : Option ℕ} {listed : List β}

/-- A page lists a first part of what is left below its cursor, and what is left
below the cursor it hands back is the rest. -/
structure Continues (left : Option ℕ → List β) (cursor : Option ℕ) (listed : List β)
    (next : Option ℕ) : Prop where
  left_eq : left cursor = listed ++ next.elim [] (fun lo => left (some lo))
  next_lt : ∀ lo b, next = some lo → cursor = some b → lo < b

namespace Continues

theorem last (h : Continues left cursor listed none) : listed = left cursor := by
  simpa using h.left_eq.symm

variable {lo : ℕ}

theorem more (h : Continues left cursor listed (some lo)) :
    left cursor = listed ++ left (some lo) := h.left_eq

theorem trans {later : List β} (h : Continues left cursor listed (some lo))
    (hlater : Continues left (some lo) later next) :
    Continues left cursor (listed ++ later) next := by
  constructor
  · rw [h.more, hlater.left_eq, List.append_assoc]
  · intro lo' b hnext hcursor
    exact (hlater.next_lt lo' lo hnext rfl).trans (h.next_lt lo b rfl hcursor)

theorem filterMap (h : Continues left cursor listed next) (f : β → Option γ) :
    Continues (fun c => (left c).filterMap f) cursor (listed.filterMap f) next := by
  constructor
  · rw [h.left_eq, List.filterMap_append]
    cases next <;> rfl
  · exact h.next_lt

end Continues

theorem Reads.continues {live : ℕ → Option β} {top : ℕ}
    (h : Reads live (cursorBound top cursor) listed next) :
    Continues (fun c => (countdown 0 (cursorBound top c)).filterMap live) cursor listed next := by
  constructor
  · cases next with
    | none => simpa using h.listed_eq.symm
    | some lo =>
      have hlo := h.next_lt lo rfl
      have hbound : cursorBound top (some lo) = lo :=
        Nat.min_eq_left (hlo.le.trans (Nat.min_le_right _ _))
      rw [h.listed_eq, Option.getD_some, Option.elim_some, hbound, ← List.filterMap_append,
        countdown_append (Nat.zero_le lo) hlo.le]
  · rintro lo b hnext rfl
    exact (h.next_lt lo hnext).trans_le (Nat.min_le_left _ _)

theorem Chase.flatMap_eq {read : σ → Option ℕ → α} {next : α → Option ℕ} {label : α → List β}
    {states : ℕ → σ} {pages : List α} (hchase : Chase read next states cursor pages)
    (hpages : ∀ n < pages.length, ∀ cursor, read (states n) cursor ∈ pages → Continues left cursor (label (read (states n) cursor)) (next (read (states n) cursor))) :
    pages.flatMap label = left cursor := by
  induction hchase with
  | @last states cursor hnext =>
    have hpage := hpages 0 (Nat.zero_lt_succ _) cursor List.mem_cons_self
    rw [hnext] at hpage
    rw [List.flatMap_singleton, hpage.last]
  | @more states cursor lo pages hnext hrest ih =>
    have hpage := hpages 0 (Nat.zero_lt_succ _) cursor List.mem_cons_self
    rw [hnext] at hpage
    have hlater := ih (fun n hn cursor hmem =>
      hpages (n + 1) (Nat.succ_lt_succ hn) cursor (List.mem_cons_of_mem _ hmem))
    rw [List.flatMap_cons, hlater, hpage.more]

end Streams

/-! ## Positions that come and go -/

section Churn

variable {σ α : Type*} {read : σ → Option ℕ → α} {next : α → Option ℕ} {label : α → List ℕ}
  {states : ℕ → σ} {live : ℕ → ℕ → Prop} [∀ n, DecidablePred (live n)] {top : ℕ → ℕ}
  {cursor : Option ℕ} {pages : List α} {hi : ℕ} {now : ℕ → Bool} {listed : List ℕ}

/-- What a chase lists while positions come and go: nothing twice, nothing
that was not live when it was read, and whatever was live all along. -/
structure Tracks (live : ℕ → ℕ → Prop) (label : α → List ℕ) (hi : ℕ) (pages : List α) :
    Prop where
  descending : (pages.flatMap label).Pairwise (· > ·)
  below : ∀ p ∈ pages.flatMap label, p < hi
  complete : ∀ p < hi, (∀ n < pages.length, live n p) → p ∈ pages.flatMap label
  sound : ∀ n page, pages[n]? = some page → ∀ p ∈ label page, live n p

theorem Reads.mem_iff {p : ℕ} {next : Option ℕ} (hreads : Reads (Option.guard now) hi listed next) :
    p ∈ listed ↔ next.getD 0 ≤ p ∧ p < hi ∧ now p = true := by
  rw [hreads.listed_eq, List.filterMap_eq_filter, List.mem_filter, mem_countdown, and_assoc]

theorem Reads.descending {next : Option ℕ} (hreads : Reads (Option.guard now) hi listed next) :
    listed.Pairwise (· > ·) := by
  rw [hreads.listed_eq, List.filterMap_eq_filter]
  exact (countdown_pairwise _ _).filter _

/-- A walk from the highest candidate down that stops above the first one it
leaves. -/
theorem Reads.of_walk {keep : ℕ → Bool} {candidates seen rest : List ℕ}
    (hsorted : candidates.Pairwise (· > ·)) (hbelow : ∀ p ∈ candidates, p < hi)
    (hnow : ∀ p < hi, now p = true ↔ p ∈ candidates ∧ keep p = true)
    (hsplit : candidates = seen ++ rest) (hmoves : rest ≠ [] → seen ≠ []) :
    Reads (Option.guard now) hi (seen.filter keep) (rest.head?.map (· + 1)) := by
  subst hsplit
  obtain ⟨hseen, -, hapart⟩ := List.pairwise_append.mp hsorted
  have hbounds : ∀ p ∈ seen ++ rest, (rest.head?.map (· + 1)).getD 0 ≤ p ↔ p ∈ seen := by
    intro p hp
    cases rest with
    | nil => simpa using hp
    | cons head tail =>
      rw [List.head?_cons, Option.map_some, Option.getD_some]
      refine ⟨fun hle => ?_, fun hmem => hapart p hmem head List.mem_cons_self⟩
      by_contra hmem
      have htail := List.pairwise_append.mp hsorted |>.2.1
      rcases List.mem_cons.mp ((List.mem_append.mp hp).resolve_left hmem) with heq | hlater
      · omega
      · have hlt := List.rel_of_pairwise_cons htail hlater
        omega
  refine ⟨?_, ?_⟩
  · rw [List.filterMap_eq_filter]
    refine (hseen.filter _).eq_of_mem_iff ((countdown_pairwise _ _).filter _) (fun p => ?_)
    rw [List.mem_filter, List.mem_filter, mem_countdown]
    constructor
    · rintro ⟨hmem, hkeep⟩
      have hp : p ∈ seen ++ rest := List.mem_append_left _ hmem
      exact ⟨⟨(hbounds p hp).mpr hmem, hbelow p hp⟩, (hnow p (hbelow p hp)).mpr ⟨hp, hkeep⟩⟩
    · rintro ⟨⟨hlo, hhi⟩, hlive⟩
      obtain ⟨hp, hkeep⟩ := (hnow p hhi).mp hlive
      exact ⟨(hbounds p hp).mp hlo, hkeep⟩
  · intro lo hlo
    cases rest with
    | nil => simp at hlo
    | cons head tail =>
      obtain ⟨first, hfirst⟩ := List.exists_mem_of_ne_nil seen (hmoves nofun)
      have hlt : head < first := hapart first hfirst head List.mem_cons_self
      have hfirst' := hbelow first (List.mem_append_left _ hfirst)
      simp only [List.head?_cons, Option.map_some, Option.some.injEq] at hlo
      omega

theorem Chase.tracks (hchase : Chase read next states cursor pages)
    (hpages : PagesOf read next label states
      (fun n => Option.guard (fun p => live n p)) top)
    (htop : ∀ n, cursorBound (top 0) cursor ≤ top n) :
    Tracks live label (cursorBound (top 0) cursor) pages := by
  induction hchase generalizing live top with
  | @last states cursor hnext =>
    have hreads := hpages 0 cursor
    have hmem : ∀ p, p ∈ label (read (states 0) cursor) ↔
        p < cursorBound (top 0) cursor ∧ live 0 p := by
      intro p
      rw [hreads.mem_iff, hnext, decide_eq_true_eq]
      simp
    refine ⟨?_, ?_, ?_, ?_⟩
    · simpa using hreads.descending
    · simpa using fun p hp => ((hmem p).mp hp).1
    · intro p hp hlive
      simpa using (hmem p).mpr ⟨hp, hlive 0 (by simp)⟩
    · intro n page hpage p hp
      cases n with
      | zero =>
        rw [List.getElem?_cons_zero, Option.some.injEq] at hpage
        rw [← hpage] at hp
        exact ((hmem p).mp hp).2
      | succ n => simp at hpage
  | @more states cursor lo pages hnext hrest ih =>
    have hreads := hpages 0 cursor
    have hlo : lo < cursorBound (top 0) cursor := hreads.next_lt lo hnext
    have hbound : cursorBound (top (0 + 1)) (some lo) = lo :=
      Nat.min_eq_left (Nat.le_of_lt (Nat.lt_of_lt_of_le hlo (htop 1)))
    have hlater : Tracks (fun n => live (n + 1)) label
        (cursorBound (top (0 + 1)) (some lo)) pages :=
      ih hpages.tail (fun n => by
        rw [hbound]
        exact Nat.le_of_lt (Nat.lt_of_lt_of_le hlo (htop (n + 1))))
    rw [hbound] at hlater
    have hmem : ∀ p, p ∈ label (read (states 0) cursor) ↔
        lo ≤ p ∧ p < cursorBound (top 0) cursor ∧ live 0 p := by
      intro p
      rw [hreads.mem_iff, hnext, Option.getD_some, decide_eq_true_eq]
    refine ⟨?_, ?_, ?_, ?_⟩
    · rw [List.flatMap_cons]
      refine List.pairwise_append.mpr ⟨hreads.descending, hlater.descending, ?_⟩
      intro p hp later hlisted
      exact Nat.lt_of_lt_of_le (hlater.below later hlisted) ((hmem p).mp hp).1
    · intro p hp
      rw [List.flatMap_cons, List.mem_append] at hp
      rcases hp with hp | hp
      · exact ((hmem p).mp hp).2.1
      · exact Nat.lt_trans (hlater.below p hp) hlo
    · intro p hp hlive
      rw [List.flatMap_cons, List.mem_append]
      rcases Nat.lt_or_ge p lo with hlow | hhigh
      · exact Or.inr (hlater.complete p hlow
          (fun n hn => hlive (n + 1) (Nat.succ_lt_succ hn)))
      · exact Or.inl ((hmem p).mpr ⟨hhigh, hp, hlive 0 (Nat.zero_lt_succ _)⟩)
    · intro n page hpage p hp
      cases n with
      | zero =>
        rw [List.getElem?_cons_zero, Option.some.injEq] at hpage
        rw [← hpage] at hp
        exact ((hmem p).mp hp).2.2
      | succ n => exact hlater.sound n page (by simpa using hpage) p hp

end Churn

/-! ## Merging pages of several sources -/

section Merging

variable {ι : Type*} {live : ι → ℕ → Bool} {hi size : ℕ} {sources : List ι}
  {listed : ι → List ℕ} {next : ι → Option ℕ} {merged : List ℕ}

/-- The pages of several sources below one bound, merged from the highest
position down.  No position is live in two sources, and a page that hands back a
cursor is full. -/
structure MergesPages (live : ι → ℕ → Bool) (hi size : ℕ) (sources : List ι)
    (listed : ι → List ℕ) (next : ι → Option ℕ) (merged : List ℕ) : Prop where
  reads : ∀ i ∈ sources, Reads (Option.guard (live i)) hi (listed i) (next i)
  full : ∀ i ∈ sources, next i ≠ none → size ≤ (listed i).length
  apart : sources.Pairwise (fun i j => ∀ p, live i p = true → live j p = false)
  perm : merged.Perm (sources.flatMap listed)
  sorted : merged.Pairwise (· ≥ ·)

namespace MergesPages

section

variable (h : MergesPages live hi size sources listed next merged) {p c : ℕ}
include h

theorem descending :
    merged.Pairwise (· > ·) := by
  have hnodup : (sources.flatMap listed).Nodup := by
    rw [List.nodup_flatMap]
    refine ⟨fun i hsource => ((h.reads i hsource).descending).imp (fun hlt => Nat.ne_of_gt hlt), ?_⟩
    refine h.apart.imp_of_mem (fun {i j} hsource hother hapart p hpi hpj => ?_)
    have hlive := ((h.reads i hsource).mem_iff.mp hpi).2.2
    have hlive' := ((h.reads j hother).mem_iff.mp hpj).2.2
    rw [hapart p hlive] at hlive'
    cases hlive'
  exact (h.sorted.and (h.perm.nodup_iff.mpr hnodup)).imp
    (fun hboth => lt_of_le_of_ne hboth.1 hboth.2.symm)

theorem mem_iff :
    p ∈ merged ↔ ∃ i ∈ sources, (next i).getD 0 ≤ p ∧ p < hi ∧ live i p = true := by
  rw [h.perm.mem_iff, List.mem_flatMap]
  exact exists_congr (fun i => and_congr_right (fun hsource => (h.reads i hsource).mem_iff))

theorem reads_last (hlast : ∀ i ∈ sources, next i = none) :
    Reads (Option.guard (fun p => sources.any (fun i => live i p))) hi merged none := by
  refine ⟨?_, by simp⟩
  rw [List.filterMap_eq_filter]
  refine h.descending.eq_of_mem_iff ((countdown_pairwise _ _).filter _) (fun p => ?_)
  rw [h.mem_iff, List.mem_filter, mem_countdown, List.any_eq_true]
  constructor
  · rintro ⟨i, hsource, -, hlt, hlive⟩
    exact ⟨⟨Nat.zero_le p, hlt⟩, i, hsource, hlive⟩
  · rintro ⟨⟨-, hlt⟩, i, hsource, hlive⟩
    exact ⟨i, hsource, by simp [hlast i hsource], hlt, hlive⟩

theorem not_stopped_above {i : ι} (hsource : i ∈ sources) {above below : List ℕ}
    (hsplit : merged = above ++ c :: below) (hroom : above.length < size) (hc : c ≤ p) :
    (next i).getD 0 ≤ p := by
  cases hnext : next i with
  | none => exact Nat.zero_le p
  | some lo =>
    rw [Option.getD_some]
    by_contra hstopped
    have hreads := h.reads i hsource
    have hsubset : listed i ⊆ above := by
      intro q hq
      have hlo : lo ≤ q := by simpa [hnext] using (hreads.mem_iff.mp hq).1
      have hmerged : q ∈ above ++ c :: below := by
        rw [← hsplit, h.perm.mem_iff]
        exact List.mem_flatMap_of_mem hsource hq
      have hdescending := h.descending
      rw [hsplit, List.pairwise_append, List.pairwise_cons] at hdescending
      rcases List.mem_append.mp hmerged with hmem | hmem
      · exact hmem
      · rcases List.mem_cons.mp hmem with rfl | hmem
        · omega
        · have hlt := hdescending.2.1.1 q hmem
          omega
    have hnodup : (listed i).Nodup := hreads.descending.imp (fun hlt => Nat.ne_of_gt hlt)
    have hlength := (hnodup.subperm hsubset).length_le
    have hfull := h.full i hsource (by simp [hnext])
    omega

/-- The first part of a merged page can be continued below its last position. -/
theorem reads_take (hlast : (merged.take size).getLast? = some c) :
    Reads (Option.guard (fun p => sources.any (fun i => live i p))) hi (merged.take size)
      (some c) := by
  obtain ⟨above, htake⟩ := List.getLast?_eq_some_iff.mp hlast
  have hsplit : merged = above ++ c :: merged.drop size := by
    conv_lhs => rw [← List.take_append_drop size merged, htake, List.append_assoc]
    rfl
  have hroom : above.length < size := by
    have hlength := List.length_take_le size merged
    rw [htake, List.length_append, List.length_singleton] at hlength
    omega
  have hdescending := h.descending
  have hbetween := hdescending
  rw [hsplit, List.pairwise_append, List.pairwise_cons] at hbetween
  refine ⟨?_, ?_⟩
  · rw [List.filterMap_eq_filter, Option.getD_some]
    refine (hdescending.sublist (List.take_sublist _ _)).eq_of_mem_iff
      ((countdown_pairwise _ _).filter _) (fun p => ?_)
    rw [List.mem_filter, mem_countdown, List.any_eq_true, htake, List.mem_append,
      List.mem_singleton]
    constructor
    · intro hmem
      have hmerged : p ∈ merged := by
        rw [hsplit]
        rcases hmem with hmem | rfl
        · exact List.mem_append_left _ hmem
        · exact List.mem_append_right _ List.mem_cons_self
      obtain ⟨i, hsource, -, hlt, hlive⟩ := h.mem_iff.mp hmerged
      refine ⟨⟨?_, hlt⟩, i, hsource, hlive⟩
      rcases hmem with hmem | rfl
      · exact (hbetween.2.2 p hmem c List.mem_cons_self).le
      · exact le_rfl
    · rintro ⟨⟨hc, hlt⟩, i, hsource, hlive⟩
      have hmerged : p ∈ merged :=
        h.mem_iff.mpr ⟨i, hsource, h.not_stopped_above hsource hsplit hroom hc, hlt, hlive⟩
      rw [hsplit] at hmerged
      rcases List.mem_append.mp hmerged with hmem | hmem
      · exact Or.inl hmem
      · rcases List.mem_cons.mp hmem with heq | hmem
        · exact Or.inr heq
        · have hbelow := hbetween.2.1.1 p hmem
          omega
  · intro lo hlo
    obtain rfl := Option.some.inj hlo
    have hmerged : c ∈ merged := by
      rw [hsplit]
      simp
    obtain ⟨i, -, -, hlt, -⟩ := h.mem_iff.mp hmerged
    exact hlt

end

end MergesPages

end Merging

end Substrate
