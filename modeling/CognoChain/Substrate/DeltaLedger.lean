import CognoChain.Substrate.StorageMap

/-!
# Ledgers kept by paged deltas

A ledger holds one amount per account and is written through keys.  A basis
row records the account a key was last credited to, and with how much.  The
delta against a set of desired rows credits what differs and clears what
dropped out; a page of it is applied change by change.  A credit takes its
account from a resolver, a clear takes it from the basis, and clears are paged
ahead of credits.
-/

namespace Substrate

open StorageKey

variable {K A : Type*} [StorageKey K]

/-! ## The delta -/

/-- Order of a page: clears before credits, each by key. -/
def changeBefore (a b : K × Option ℕ) : Prop :=
  (a.2.isSome = false ∧ b.2.isSome = true) ∨
    (a.2.isSome = b.2.isSome ∧ enc a.1 ≤ enc b.1)

instance : DecidableRel (changeBefore (K := K)) :=
  fun _ _ => inferInstanceAs (Decidable (_ ∨ _))

/-- Credits for rows that differ from the basis, then clears for basis rows
that are neither desired nor held. -/
def axisDelta [DecidableEq A] (desired basis : StorageMap K (A × ℕ)) (clears : A → Bool) :
    List (K × Option ℕ) :=
  (desired.entries.filter (fun row => basis.get row.1 ≠ some row.2)).map
      (fun row => (row.1, some row.2.2)) ++
    (basis.entries.filter (fun row => !desired.contains row.1 && clears row.2.1)).map
      (fun row => (row.1, none))

def pagedDelta [DecidableEq A] (desired basis : StorageMap K (A × ℕ)) (clears : A → Bool) :
    List (K × Option ℕ) :=
  (axisDelta desired basis clears).insertionSort changeBefore

/-- A sorted list whose members are those of another, apart from the keys of
the other's first page, is what that page leaves. -/
theorem eq_drop_of_pairwise {α κ : Type*} {key : α → κ} {before : α → α → Prop}
    {delta delta' : List α} {n : ℕ}
    (hantisymm : ∀ a b, before a b → before b a → key a = key b)
    (hsorted : delta.Pairwise before) (hsorted' : delta'.Pairwise before)
    (hkeys : (delta.map key).Nodup) (hkeys' : (delta'.map key).Nodup)
    (hmem : ∀ change, change ∈ delta' ↔
      change ∈ delta ∧ key change ∉ (delta.take n).map key) :
    delta' = delta.drop n := by
  have hdisjoint : ∀ change ∈ delta.drop n, key change ∉ (delta.take n).map key := by
    rw [← List.take_append_drop n delta, List.map_append, List.nodup_append] at hkeys
    intro change hchange hcarried
    exact hkeys.2.2 _ hcarried _ (List.mem_map_of_mem hchange) rfl
  have hperm : delta'.Perm (delta.drop n) := by
    rw [List.perm_ext_iff_of_nodup hkeys'.of_map
      (hkeys.of_map.sublist (List.drop_sublist n delta))]
    intro change
    rw [hmem]
    constructor
    · rintro ⟨hdue, hleft⟩
      rw [← List.take_append_drop n delta, List.mem_append] at hdue
      rcases hdue with hcarried | hdropped
      · exact absurd (List.mem_map_of_mem hcarried) hleft
      · exact hdropped
    · intro hdropped
      exact ⟨List.mem_of_mem_drop hdropped, hdisjoint change hdropped⟩
  refine hperm.eq_of_pairwise ?_ hsorted' (hsorted.sublist (List.drop_sublist n delta))
  intro a b ha hb hab hba
  exact List.inj_on_of_nodup_map hkeys ((hmem a).mp ha).1 (List.mem_of_mem_drop hb)
    (hantisymm a b hab hba)

theorem changeBefore_antisymm (a b : K × Option ℕ) (hab : changeBefore a b)
    (hba : changeBefore b a) : a.1 = b.1 := by
  unfold changeBefore at hab hba
  have hle : enc a.1 ≤ enc b.1 := by
    rcases hab with ⟨hnone, hsome⟩ | ⟨-, hle⟩
    · simp [hnone, hsome] at hba
    · exact hle
  have hge : enc b.1 ≤ enc a.1 := by
    rcases hba with ⟨hnone, hsome⟩ | ⟨-, hge⟩
    · simp [hnone, hsome] at hab
    · exact hge
  exact enc_injective (hle.antisymm hge)

instance : Std.Total (changeBefore (K := K)) where
  total a b := by
    unfold changeBefore
    cases a.2.isSome <;> cases b.2.isSome <;> simp [Nat.le_total]

instance : IsTrans (K × Option ℕ) changeBefore where
  trans a b c hab hbc := by
    unfold changeBefore at *
    cases ha : a.2.isSome <;> cases hb : b.2.isSome <;> cases hc : c.2.isSome <;>
      simp_all
    all_goals exact hab.trans hbc

section Membership

variable [DecidableEq A] {desired basis basis' : StorageMap K (A × ℕ)} {clears : A → Bool}
  {change : K × Option ℕ} {k : K}

theorem mem_pagedDelta :
    change ∈ pagedDelta desired basis clears ↔ change ∈ axisDelta desired basis clears :=
  (List.perm_insertionSort _ _).mem_iff

theorem mem_pagedDelta_credit {amount : ℕ} :
    (k, some amount) ∈ pagedDelta desired basis clears ↔
      ∃ account, desired.get k = some (account, amount) ∧
        basis.get k ≠ some (account, amount) := by
  rw [mem_pagedDelta, axisDelta, List.mem_append]
  simp [StorageMap.get_eq_some_iff]

theorem mem_pagedDelta_clear :
    (k, none) ∈ pagedDelta desired basis clears ↔
      desired.get k = none ∧
        ∃ row, basis.get k = some row ∧ clears row.1 = true := by
  rw [mem_pagedDelta, axisDelta, List.mem_append]
  simp only [List.mem_map, List.mem_filter, Prod.mk.injEq, reduceCtorEq, and_false,
    exists_false, false_or, and_true, StorageMap.contains_eq_isSome, Bool.and_eq_true,
    Bool.not_eq_true', Option.isSome_eq_false_iff, Option.isNone_iff_eq_none,
    StorageMap.get_eq_some_iff, Prod.exists]
  constructor
  · rintro ⟨k', account, amount, ⟨hrow, habsent, hclears⟩, rfl⟩
    exact ⟨habsent, account, amount, hrow, hclears⟩
  · rintro ⟨habsent, account, amount, hrow, hclears⟩
    exact ⟨k, account, amount, ⟨hrow, habsent, hclears⟩, rfl⟩

theorem pagedDelta_keys_nodup :
    ((pagedDelta desired basis clears).map Prod.fst).Nodup := by
  have hperm : ((pagedDelta desired basis clears).map Prod.fst).Perm
      ((axisDelta desired basis clears).map Prod.fst) :=
    (List.perm_insertionSort _ _).map _
  rw [hperm.nodup_iff, axisDelta, List.map_append, List.map_map, List.map_map]
  refine StorageMap.filter_keys_append_nodup (fun row hclears => ?_)
  rw [Bool.and_eq_true, Bool.not_eq_true', StorageMap.contains_eq_false_iff] at hclears
  exact hclears.1

theorem pagedDelta_sorted : (pagedDelta desired basis clears).Pairwise changeBefore :=
  List.pairwise_insertionSort _ _

theorem take_pagedDelta_keys_nodup (n : ℕ) :
    (((pagedDelta desired basis clears).take n).map Prod.fst).Nodup :=
  pagedDelta_keys_nodup.sublist ((List.take_sublist n _).map _)

theorem wanted_of_mem_pagedDelta (hmem : change ∈ pagedDelta desired basis clears) :
    change.2 = (desired.get change.1).map Prod.snd := by
  obtain ⟨k, observed⟩ := change
  cases observed with
  | none =>
    obtain ⟨habsent, -⟩ := mem_pagedDelta_clear.mp hmem
    simp [habsent]
  | some amount =>
    obtain ⟨account, hdesired, -⟩ := mem_pagedDelta_credit.mp hmem
    simp [hdesired]

theorem pagedDelta_eq_nil_iff :
    pagedDelta desired basis (fun _ => true) = [] ↔ basis = desired := by
  rw [List.eq_nil_iff_forall_not_mem]
  constructor
  · intro hnone
    apply StorageMap.ext_get
    intro k
    cases hdesired : desired.get k with
    | some row =>
      by_contra hdue
      exact hnone (k, some row.2) (mem_pagedDelta_credit.mpr ⟨row.1, hdesired, hdue⟩)
    | none =>
      rw [Option.eq_none_iff_forall_ne_some]
      intro row hrow
      exact hnone (k, none) (mem_pagedDelta_clear.mpr ⟨hdesired, row, hrow, rfl⟩)
  · rintro rfl ⟨k, _ | amount⟩ hmem
    · obtain ⟨hnone, row, hrow, -⟩ := mem_pagedDelta_clear.mp hmem
      rw [hnone] at hrow
      cases hrow
    · obtain ⟨account, hrow, hdue⟩ := mem_pagedDelta_credit.mp hmem
      exact hdue hrow

theorem pagedDelta_split (desired basis : StorageMap K (A × ℕ)) (clears : A → Bool) :
    ∃ drops credits, pagedDelta desired basis clears = drops ++ credits ∧
      (∀ change ∈ drops, change.2 = none) ∧
      (∀ change ∈ credits, change.2.isSome) := by
  suffices hsplit : ∀ delta : List (K × Option ℕ), delta.Pairwise changeBefore →
      ∃ drops credits, delta = drops ++ credits ∧
        (∀ change ∈ drops, change.2 = none) ∧ (∀ change ∈ credits, change.2.isSome) from
    hsplit _ pagedDelta_sorted
  intro delta hsorted
  induction delta with
  | nil => exact ⟨[], [], rfl, by simp, by simp⟩
  | cons change delta ih =>
    obtain ⟨hhead, htail⟩ := List.pairwise_cons.mp hsorted
    obtain ⟨drops, credits, rfl, hdrops, hcredits⟩ := ih htail
    cases hchange : change.2 with
    | none => exact ⟨change :: drops, credits, rfl, by simpa [hchange] using hdrops, hcredits⟩
    | some amount =>
      -- nothing after a credit is a clear
      refine ⟨[], change :: (drops ++ credits), rfl, by simp, ?_⟩
      intro later hlater
      rcases List.mem_cons.mp hlater with rfl | hlater
      · simp [hchange]
      · rcases hhead later hlater with ⟨hclear, -⟩ | ⟨hsame, -⟩
        · simp [hchange] at hclear
        · simp [← hsame, hchange]

end Membership

/-! ## The ledger -/

structure DeltaLedger (K A : Type*) [StorageKey K] [StorageKey A] where
  basis : StorageMap K (A × ℕ)
  amounts : StorageMap A ℕ

namespace DeltaLedger

variable [StorageKey A] {l : DeltaLedger K A} {k k' : K} {account : A} {amount : ℕ}

def amountOf (l : DeltaLedger K A) (account : A) : ℕ := l.amounts.getD account 0

def assign (l : DeltaLedger K A) (account : A) (amount : ℕ) : DeltaLedger K A :=
  if l.amountOf account = amount then l
  else { l with amounts := l.amounts.insert account amount }

def credit (l : DeltaLedger K A) (k : K) (account : A) (amount : ℕ) : DeltaLedger K A :=
  { l.assign account amount with basis := l.basis.insert k (account, amount) }

def clear (l : DeltaLedger K A) (k : K) (account : A) : DeltaLedger K A :=
  { l.assign account 0 with basis := l.basis.remove k }

/-- Apply one change.  `accept` is what the ledger makes of a credited amount,
and refuses by `none`. -/
def applyChange (resolve : K → Option A) (accept : ℕ → Option ℕ) (l : DeltaLedger K A)
    (change : K × Option ℕ) : DeltaLedger K A :=
  match change.2 with
  | some amount =>
      match resolve change.1, accept amount with
      | some account, some accepted => l.credit change.1 account accepted
      | _, _ => l
  | none =>
      match l.basis.get change.1 with
      | some row => l.clear change.1 row.1
      | none => l

def Effective (resolve : K → Option A) (accept : ℕ → Option ℕ) (l : DeltaLedger K A)
    (change : K × Option ℕ) : Prop :=
  match change.2 with
  | some amount => (resolve change.1).isSome ∧ (accept amount).isSome
  | none => (l.basis.get change.1).isSome

theorem assign_amountOf_self (l : DeltaLedger K A) (account : A) (amount : ℕ) :
    (l.assign account amount).amountOf account = amount := by
  unfold assign
  split_ifs with hsame
  · exact hsame
  · simp [amountOf]

theorem assign_amountOf_of_ne (l : DeltaLedger K A) {other : A} (amount : ℕ) (hne : other ≠ account)
    : (l.assign account amount).amountOf other = l.amountOf other := by
  unfold assign
  split_ifs
  · rfl
  · exact StorageMap.getD_insert_of_ne _ _ _ hne

theorem assign_setBasis (l : DeltaLedger K A) (basis : StorageMap K (A × ℕ)) (account : A)
    (amount : ℕ) :
    DeltaLedger.assign { l with basis := basis } account amount =
      { l.assign account amount with basis := basis } := by
  unfold assign amountOf
  split_ifs <;> rfl

@[simp] theorem credit_basis : (l.credit k account amount).basis =
    l.basis.insert k (account, amount) := rfl

@[simp] theorem credit_amountOf (other : A) : (l.credit k account amount).amountOf other =
    (l.assign account amount).amountOf other := rfl

@[simp] theorem clear_basis : (l.clear k account).basis = l.basis.remove k := rfl

@[simp] theorem clear_amountOf (other : A) : (l.clear k account).amountOf other =
    (l.assign account 0).amountOf other := rfl

variable {resolve : K → Option A} {accept : ℕ → Option ℕ} {change : K × Option ℕ}
  {desired : StorageMap K (A × ℕ)} {page : List (K × Option ℕ)}

theorem applyChange_credit {accepted : ℕ} (hresolve : resolve k = some account)
    (haccept : accept amount = some accepted) :
    l.applyChange resolve accept (k, some amount) = l.credit k account accepted := by
  simp [applyChange, hresolve, haccept]

theorem applyChange_clear {row : A × ℕ} (hrow : l.basis.get k = some row) :
    l.applyChange resolve accept (k, none) = l.clear k row.1 := by
  simp [applyChange, hrow]

theorem applyChange_clear_of_none (hrow : l.basis.get k = none) :
    l.applyChange resolve accept (k, none) = l := by
  simp [applyChange, hrow]

theorem applyChange_get_of_ne (hne : k ≠ change.1) :
    (l.applyChange resolve accept change).basis.get k = l.basis.get k := by
  unfold applyChange
  split
  · split
    · exact StorageMap.get_insert_of_ne _ _ hne
    · rfl
  · split
    · exact StorageMap.get_remove_of_ne _ hne
    · rfl

theorem applyChange_get_clear :
    (l.applyChange resolve accept (k, none)).basis.get k = none := by
  cases hrow : l.basis.get k with
  | none => rw [applyChange_clear_of_none hrow, hrow]
  | some row => rw [applyChange_clear hrow, clear_basis, StorageMap.get_remove_self]

theorem foldl_applyChange_get_of_notMem (hnotMem : k ∉ page.map Prod.fst) :
    (page.foldl (applyChange resolve accept) l).basis.get k = l.basis.get k :=
  foldl_get_of_notMem (fun l : DeltaLedger K A => l.basis.get)
    (fun _ _ _ => applyChange_get_of_ne) hnotMem

/-! ## Applying a page -/

/-- The desired rows are in the terms in which changes are applied. -/
def Admissible (resolve : K → Option A) (accept : ℕ → Option ℕ)
    (desired : StorageMap K (A × ℕ)) : Prop :=
  ∀ k account amount, desired.get k = some (account, amount) →
    resolve k = some account ∧ accept amount = some amount

theorem Effective.applyChange_of_ne {change' : K × Option ℕ}
    (heffective : l.Effective resolve accept change) (hne : change.1 ≠ change'.1) :
    (l.applyChange resolve accept change').Effective resolve accept change := by
  unfold Effective at *
  rw [applyChange_get_of_ne hne]
  exact heffective

theorem applyChange_get_of_wanted (hadmissible : Admissible resolve accept desired)
    (hwanted : change.2 = (desired.get change.1).map Prod.snd) :
    (l.applyChange resolve accept change).basis.get change.1 = desired.get change.1 := by
  obtain ⟨k, observed⟩ := change
  cases hdesired : desired.get k with
  | none =>
    simp only [hdesired, Option.map_none] at hwanted
    rw [hwanted]
    exact applyChange_get_clear
  | some row =>
    obtain ⟨hresolve, haccept⟩ := hadmissible k row.1 row.2 hdesired
    simp only [hdesired, Option.map_some] at hwanted
    rw [hwanted, applyChange_credit hresolve haccept]
    exact StorageMap.get_insert_self _ _ _

section Page

variable [DecidableEq A] {desired : StorageMap K (A × ℕ)} {clears : A → Bool}

section

variable (hadmissible : Admissible resolve accept desired)
include hadmissible

theorem effective_of_mem_pagedDelta (hmem : change ∈ pagedDelta desired l.basis clears) :
    l.Effective resolve accept change := by
  obtain ⟨k, observed⟩ := change
  cases observed with
  | none =>
    obtain ⟨-, row, hrow, -⟩ := mem_pagedDelta_clear.mp hmem
    simp [Effective, hrow]
  | some amount =>
    obtain ⟨account, hdesired, -⟩ := mem_pagedDelta_credit.mp hmem
    obtain ⟨hresolve, haccept⟩ := hadmissible k account amount hdesired
    simp [Effective, hresolve, haccept]

theorem foldl_pagedDelta_get (hpage : page ⊆ pagedDelta desired l.basis clears)
    (hmem : k ∈ page.map Prod.fst) :
    (page.foldl (applyChange resolve accept) l).basis.get k = desired.get k :=
  foldl_get_of_mem (fun l : DeltaLedger K A => l.basis.get) (fun _ _ _ => applyChange_get_of_ne)
    desired.get (fun _ _ hchange =>
      applyChange_get_of_wanted hadmissible (wanted_of_mem_pagedDelta (hpage hchange))) hmem

theorem applyPage_get {n : ℕ} (hmem : change ∈ (pagedDelta desired l.basis clears).take n) :
    ((((pagedDelta desired l.basis clears).take n).foldl
      (applyChange resolve accept) l).basis.get change.1).map Prod.snd = change.2 := by
  rw [foldl_pagedDelta_get hadmissible (List.take_subset n _) (List.mem_map_of_mem hmem)]
  exact (wanted_of_mem_pagedDelta (List.mem_of_mem_take hmem)).symm

theorem applyDelta_get (k : K) :
    ((pagedDelta desired l.basis clears).foldl (applyChange resolve accept) l).basis.get k =
      match desired.get k with
      | some row => some row
      | none => (l.basis.get k).filter (fun row => !clears row.1) := by
  by_cases hmem : k ∈ (pagedDelta desired l.basis clears).map Prod.fst
  · rw [foldl_pagedDelta_get hadmissible (List.Subset.refl _) hmem]
    obtain ⟨⟨k, observed⟩, hchange, rfl⟩ := List.mem_map.mp hmem
    cases observed with
    | none =>
      obtain ⟨habsent, row, hrow, hclears⟩ := mem_pagedDelta_clear.mp hchange
      simp [habsent, hrow, Option.filter, hclears]
    | some amount =>
      obtain ⟨account, hdesired, -⟩ := mem_pagedDelta_credit.mp hchange
      simp [hdesired]
  · have hkept : ∀ observed, (k, observed) ∉ pagedDelta desired l.basis clears :=
      fun observed hchange => hmem (List.mem_map_of_mem hchange)
    rw [foldl_applyChange_get_of_notMem hmem]
    cases hdesired : desired.get k with
    | some row =>
      have hsame := mem_pagedDelta_credit.not.mp (hkept (some row.2))
      simp only [not_exists, not_and, not_not] at hsame
      exact hsame row.1 hdesired
    | none =>
      have hheld := mem_pagedDelta_clear.not.mp (hkept none)
      simp only [hdesired, true_and, not_exists, not_and, Bool.not_eq_true] at hheld
      cases hrow : l.basis.get k with
      | none => rfl
      | some row => simp [Option.filter, hheld row hrow]

/-- Applying a page of a delta leaves the rest of it as the new delta. -/
theorem pagedDelta_applyPage (n : ℕ) :
    pagedDelta desired (((pagedDelta desired l.basis clears).take n).foldl
        (applyChange resolve accept) l).basis clears =
      (pagedDelta desired l.basis clears).drop n := by
  set page := (pagedDelta desired l.basis clears).take n with hpage
  apply eq_drop_of_pairwise changeBefore_antisymm pagedDelta_sorted pagedDelta_sorted
    pagedDelta_keys_nodup pagedDelta_keys_nodup
  rintro ⟨k, observed⟩
  rw [← hpage]
  by_cases hk : k ∈ page.map Prod.fst
  · have hsettled : (page.foldl (applyChange resolve accept) l).basis.get k = desired.get k :=
      foldl_pagedDelta_get hadmissible (List.take_subset n _) hk
    cases observed with
    | none =>
      rw [mem_pagedDelta_clear, hsettled]
      constructor
      · rintro ⟨habsent, row, hrow, -⟩
        rw [habsent] at hrow
        cases hrow
      · exact fun hleft => absurd hk hleft.2
    | some amount => simp [mem_pagedDelta_credit, hsettled, hk]
  · have hkept : (page.foldl (applyChange resolve accept) l).basis.get k = l.basis.get k :=
      foldl_applyChange_get_of_notMem hk
    cases observed with
    | none => simp only [mem_pagedDelta_clear, hkept, hk, not_false_eq_true, and_true]
    | some amount => simp only [mem_pagedDelta_credit, hkept, hk, not_false_eq_true, and_true]

end

end Page

/-! ## Soundness -/

/-- No two rows name one account, an account named by a row holds the row's
amount, and an account that no row names holds nothing. -/
structure Sound (l : DeltaLedger K A) : Prop where
  unique : ∀ {k k' account amount amount'}, l.basis.get k = some (account, amount) →
    l.basis.get k' = some (account, amount') → k = k'
  backed : ∀ {k account amount}, l.basis.get k = some (account, amount) →
    l.amountOf account = amount
  unbacked : ∀ {account}, (∀ k amount, l.basis.get k ≠ some (account, amount)) →
    l.amountOf account = 0

theorem Sound.empty : Sound (⟨∅, ∅⟩ : DeltaLedger K A) := by
  constructor
  · intro k k' account amount amount' hrow
    simp at hrow
  · intro k account amount hrow
    simp at hrow
  · intro account hnone
    rfl

theorem Sound.clear (hsound : l.Sound) (hrow : l.basis.get k = some (account, amount)) :
    (l.clear k account).Sound := by
  -- a row that is left names some other account
  have hleft : ∀ {k' row}, (l.basis.remove k).get k' = some row →
      l.basis.get k' = some row ∧ row.1 ≠ account := by
    rintro k' ⟨other, amount'⟩ hget
    have hne : k' ≠ k := by
      rintro rfl
      simp at hget
    rw [StorageMap.get_remove_of_ne _ hne] at hget
    refine ⟨hget, ?_⟩
    rintro rfl
    exact hne (hsound.unique hget hrow)
  constructor
  · intro k₁ k₂ other amount₁ amount₂ h₁ h₂
    exact hsound.unique (hleft h₁).1 (hleft h₂).1
  · intro k' other amount' hget
    obtain ⟨hold, hne⟩ := hleft hget
    rw [clear_amountOf, assign_amountOf_of_ne l 0 hne]
    exact hsound.backed hold
  · intro other hnone
    by_cases hother : other = account
    · rw [hother, clear_amountOf, assign_amountOf_self]
    · rw [clear_amountOf, assign_amountOf_of_ne l 0 hother]
      apply hsound.unbacked
      intro k' amount' hget
      refine hnone k' amount' ?_
      rw [clear_basis, StorageMap.get_remove_of_ne _ ?_, hget]
      rintro rfl
      rw [hrow] at hget
      exact hother (congrArg Prod.fst (Option.some.inj hget)).symm

theorem Sound.clear_eq_self (hsound : l.Sound) (hrow : l.basis.get k = none)
    (hnone : ∀ k' amount, l.basis.get k' ≠ some (account, amount)) :
    l.clear k account = l := by
  unfold DeltaLedger.clear assign
  rw [if_pos (hsound.unbacked hnone), StorageMap.remove_of_get_none hrow]

theorem Sound.credit (hsound : l.Sound)
    (hfree : ∀ k' amount', l.basis.get k' = some (account, amount') → k' = k)
    (howned : ∀ other amount', l.basis.get k = some (other, amount') → other = account) :
    (l.credit k account amount).Sound := by
  have hleft : ∀ {k' row}, k' ≠ k → (l.basis.insert k (account, amount)).get k' = some row →
      l.basis.get k' = some row ∧ row.1 ≠ account := by
    rintro k' ⟨other, amount'⟩ hne hget
    rw [StorageMap.get_insert_of_ne _ _ hne] at hget
    refine ⟨hget, ?_⟩
    rintro rfl
    exact hne (hfree k' amount' hget)
  have hself : ∀ {row}, (l.basis.insert k (account, amount)).get k = some row →
      row = (account, amount) := by
    intro row hget
    rw [StorageMap.get_insert_self] at hget
    exact (Option.some.inj hget).symm
  constructor
  · intro k₁ k₂ other amount₁ amount₂ h₁ h₂
    by_cases hk₁ : k₁ = k <;> by_cases hk₂ : k₂ = k
    · rw [hk₁, hk₂]
    · subst hk₁
      exact absurd (congrArg Prod.fst (hself h₁)) (hleft hk₂ h₂).2
    · subst hk₂
      exact absurd (congrArg Prod.fst (hself h₂)) (hleft hk₁ h₁).2
    · exact hsound.unique (hleft hk₁ h₁).1 (hleft hk₂ h₂).1
  · intro k' other amount' hget
    by_cases hk' : k' = k
    · subst hk'
      obtain ⟨rfl, rfl⟩ := Prod.mk.inj (hself hget)
      rw [credit_amountOf, assign_amountOf_self]
    · obtain ⟨hold, hne⟩ := hleft hk' hget
      rw [credit_amountOf, assign_amountOf_of_ne l amount hne]
      exact hsound.backed hold
  · intro other hnone
    have hother : other ≠ account := by
      rintro rfl
      exact hnone k amount (StorageMap.get_insert_self _ _ _)
    rw [credit_amountOf, assign_amountOf_of_ne l amount hother]
    apply hsound.unbacked
    intro k' amount' hget
    by_cases hk' : k' = k
    · subst hk'
      exact hother (howned other amount' hget)
    · refine hnone k' amount' ?_
      rw [credit_basis, StorageMap.get_insert_of_ne _ _ hk', hget]

theorem Sound.foldl_clears {drops : List (K × Option ℕ)}
    (resolve : K → Option A) (accept : ℕ → Option ℕ) (hsound : l.Sound)
    (hdrops : ∀ change ∈ drops, change.2 = none) :
    (drops.foldl (applyChange resolve accept) l).Sound ∧
      ∀ k row, (drops.foldl (applyChange resolve accept) l).basis.get k = some row →
        l.basis.get k = some row ∧ k ∉ drops.map Prod.fst := by
  induction drops generalizing l with
  | nil => exact ⟨hsound, fun k row hget => ⟨hget, by simp⟩⟩
  | cons change drops ih =>
    obtain ⟨key, observed⟩ := change
    obtain rfl : observed = none := hdrops _ List.mem_cons_self
    have hstep : (l.applyChange resolve accept (key, none)).Sound := by
      cases hrow : l.basis.get key with
      | none =>
        rw [applyChange_clear_of_none hrow]
        exact hsound
      | some row =>
        rw [applyChange_clear hrow]
        exact hsound.clear hrow
    obtain ⟨hafter, hrows⟩ :=
      ih hstep (fun later hlater => hdrops later (List.mem_cons_of_mem _ hlater))
    refine ⟨hafter, ?_⟩
    intro k row hget
    obtain ⟨hbefore, hnotMem⟩ := hrows k row hget
    have hne : k ≠ key := by
      rintro rfl
      rw [applyChange_get_clear] at hbefore
      cases hbefore
    rw [applyChange_get_of_ne hne] at hbefore
    exact ⟨hbefore, by simpa [hne] using hnotMem⟩

def Resolved (resolve : K → Option A) (l : DeltaLedger K A) : Prop :=
  ∀ {k account amount}, l.basis.get k = some (account, amount) → resolve k = some account

theorem Sound.foldl_credits {credits : List (K × Option ℕ)}
    (hadmissible : Admissible resolve accept desired)
    (hinjective : ∀ {k k' account}, resolve k = some account → resolve k' = some account → k = k')
    (hwanted : ∀ change ∈ credits, change.2 = (desired.get change.1).map Prod.snd)
    (hcredits : ∀ change ∈ credits, change.2.isSome) (hsound : l.Sound)
    (hresolved : l.Resolved resolve) :
    (credits.foldl (applyChange resolve accept) l).Sound ∧
      (credits.foldl (applyChange resolve accept) l).Resolved resolve := by
  induction credits generalizing l with
  | nil => exact ⟨hsound, hresolved⟩
  | cons change credits ih =>
    obtain ⟨key, observed⟩ := change
    obtain ⟨amount, rfl⟩ := Option.isSome_iff_exists.mp (hcredits _ List.mem_cons_self)
    have hdesired := (hwanted _ List.mem_cons_self).symm
    rw [Option.map_eq_some_iff] at hdesired
    obtain ⟨⟨account, _⟩, hdesired, rfl⟩ := hdesired
    obtain ⟨hresolve, haccept⟩ := hadmissible _ _ _ hdesired
    have hstep := applyChange_credit (l := l) hresolve haccept
    refine ih (fun later hlater => hwanted later (List.mem_cons_of_mem _ hlater))
      (fun later hlater => hcredits later (List.mem_cons_of_mem _ hlater)) ?_ ?_
    · rw [hstep]
      apply hsound.credit
      · intro k' amount' hget
        exact hinjective (hresolved hget) hresolve
      · intro other amount' hget
        exact Option.some.inj ((hresolved hget).symm.trans hresolve)
    · rw [hstep]
      intro k account' amount' hget
      rw [credit_basis] at hget
      by_cases hk : k = key
      · subst hk
        rw [StorageMap.get_insert_self] at hget
        obtain ⟨rfl, -⟩ := Prod.mk.inj (Option.some.inj hget)
        exact hresolve
      · rw [StorageMap.get_insert_of_ne _ _ hk] at hget
        exact hresolved hget

/-- A page of a delta keeps the ledger sound.  Rows whose key no longer
resolves are cleared before anything is credited, because they are due and
clears are paged first. -/
theorem Sound.applyPage [DecidableEq A] (clears : A → Bool)
    (hadmissible : Admissible resolve accept desired)
    (hinjective : ∀ {k k' account}, resolve k = some account → resolve k' = some account → k = k')
    (hrows : ∀ {k account amount other}, l.basis.get k = some (account, amount) → resolve k = some other → other = account)
    (hstale : ∀ {k account amount}, l.basis.get k = some (account, amount) → resolve k = none → clears account = true)
    (hsound : l.Sound) (n : ℕ) :
    (((pagedDelta desired l.basis clears).take n).foldl (applyChange resolve accept) l).Sound ∧
      ∀ k account amount, (((pagedDelta desired l.basis clears).take n).foldl
          (applyChange resolve accept) l).basis.get k = some (account, amount) →
        resolve k = some account ∨ l.basis.get k = some (account, amount) := by
  obtain ⟨drops, credits, hsplit, hdrops, hcredits⟩ :=
    pagedDelta_split desired l.basis clears
  have hwanted : ∀ change ∈ drops ++ credits,
      change.2 = (desired.get change.1).map Prod.snd := by
    intro change hchange
    rw [← hsplit] at hchange
    exact wanted_of_mem_pagedDelta hchange
  rw [hsplit, List.take_append, List.foldl_append]
  have hdropped : ∀ change ∈ drops.take n, change.2 = none :=
    fun change hchange => hdrops change (List.mem_of_mem_take hchange)
  obtain ⟨hcleared, hleft⟩ := hsound.foldl_clears resolve accept hdropped
  rcases Nat.lt_or_ge drops.length n with hlong | hshort
  · -- every clear is in the page, so what is left resolves
    have hresolved : ((drops.take n).foldl (applyChange resolve accept) l).Resolved resolve := by
      intro k account amount hget
      obtain ⟨hold, hnotMem⟩ := hleft k _ hget
      cases hresolve : resolve k with
      | some other => rw [hrows hold hresolve]
      | none =>
        have habsent : desired.get k = none := by
          cases hdesired : desired.get k with
          | none => rfl
          | some row =>
            have := (hadmissible k row.1 row.2 hdesired).1
            rw [hresolve] at this
            cases this
        have hdue : (k, none) ∈ drops ++ credits := by
          rw [← hsplit, mem_pagedDelta_clear]
          exact ⟨habsent, _, hold, hstale hold hresolve⟩
        rw [List.take_of_length_le hlong.le] at hnotMem
        rcases List.mem_append.mp hdue with hdrop | hcredit
        · exact absurd (List.mem_map_of_mem hdrop) hnotMem
        · exact absurd (hcredits _ hcredit) (by simp)
    have hcredited : ∀ change ∈ credits.take (n - drops.length), change.2.isSome :=
      fun change hchange => hcredits change (List.mem_of_mem_take hchange)
    obtain ⟨hsound', hresolved'⟩ := hcleared.foldl_credits hadmissible hinjective
      (fun change hchange => hwanted change
        (List.mem_append_right _ (List.mem_of_mem_take hchange)))
      hcredited hresolved
    exact ⟨hsound', fun k account amount hget => Or.inl (hresolved' hget)⟩
  · rw [Nat.sub_eq_zero_of_le hshort, List.take_zero, List.foldl_nil]
    exact ⟨hcleared, fun k account amount hget => Or.inr (hleft k _ hget).1⟩

end DeltaLedger

end Substrate
