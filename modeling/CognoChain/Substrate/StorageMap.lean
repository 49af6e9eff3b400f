import CognoChain.Substrate.Registry
import Mathlib.Data.List.Sort
import Mathlib.Data.Nat.Pairing
import Mathlib.Tactic

/-!
# Storage maps

A storage map is a finite map over encoded keys, kept as an association list
in ascending encoding so that two maps with the same lookups are equal.
Iteration does not follow that order: the trie stores a key behind its hash,
so the iteration functions take the hash and list the keys by hash first and
by encoding second.
-/

namespace Substrate

/-- A key type with its encoding, read as a big-endian number. -/
class StorageKey (K : Type*) where
  enc : K → ℕ
  enc_injective : Function.Injective enc

namespace StorageKey

instance : StorageKey ℕ where
  enc := id
  enc_injective := Function.injective_id

instance {A B : Type*} [StorageKey A] [StorageKey B] : StorageKey (A × B) where
  enc p := Nat.pair (enc p.1) (enc p.2)
  enc_injective := by
    rintro ⟨a, b⟩ ⟨a', b'⟩ h
    obtain ⟨ha, hb⟩ := Nat.pair_eq_pair.mp h
    exact Prod.ext (enc_injective ha) (enc_injective hb)

theorem enc_inj {K : Type*} [StorageKey K] {a b : K} :
    enc a = enc b ↔ a = b :=
  enc_injective.eq_iff

theorem enc_lt_or_gt {K : Type*} [StorageKey K] {a b : K} (h : a ≠ b) :
    enc a < enc b ∨ enc b < enc a :=
  Nat.lt_or_gt_of_ne (fun heq => h (enc_injective heq))

end StorageKey

open StorageKey

structure StorageMap (K V : Type*) [StorageKey K] where
  entries : List (K × V)
  sorted : entries.Pairwise (fun a b => enc a.1 < enc b.1)

namespace StorageMap

variable {K V : Type*} [StorageKey K] {k k' : K} {m : StorageMap K V} {v d : V}

instance [DecidableEq K] [DecidableEq V] : DecidableEq (StorageMap K V) :=
  fun m m' => decidable_of_iff (m.entries = m'.entries) (by
    cases m; cases m'; simp)

def empty : StorageMap K V := ⟨[], List.Pairwise.nil⟩

instance : EmptyCollection (StorageMap K V) := ⟨empty⟩

instance : Inhabited (StorageMap K V) := ⟨∅⟩

def get (m : StorageMap K V) (k : K) : Option V :=
  (m.entries.find? (fun e => decide (enc e.1 = enc k))).map Prod.snd

def getD (m : StorageMap K V) (k : K) (default : V) : V :=
  (m.get k).getD default

def contains (m : StorageMap K V) (k : K) : Bool := (m.get k).isSome

def insert (m : StorageMap K V) (k : K) (v : V) : StorageMap K V where
  entries := m.entries.filter (fun e => enc e.1 < enc k) ++
    (k, v) :: m.entries.filter (fun e => enc k < enc e.1)
  sorted := by
    rw [List.pairwise_append, List.pairwise_cons]
    refine ⟨m.sorted.filter _, ⟨?_, m.sorted.filter _⟩, ?_⟩
    · intro e he
      simpa using (List.mem_filter.mp he).2
    · intro e he e' he'
      have hlt : enc e.1 < enc k := by simpa using (List.mem_filter.mp he).2
      rcases List.mem_cons.mp he' with rfl | hmem
      · exact hlt
      · have hgt : enc k < enc e'.1 := by simpa using (List.mem_filter.mp hmem).2
        exact hlt.trans hgt

def remove (m : StorageMap K V) (k : K) : StorageMap K V where
  entries := m.entries.filter (fun e => enc e.1 ≠ enc k)
  sorted := m.sorted.filter _

def mutate (m : StorageMap K V) (k : K) (default : V) (f : V → V) :
    StorageMap K V :=
  m.insert k (f (m.getD k default))

def keys (m : StorageMap K V) : List K := m.entries.map Prod.fst

/-! ## Lookups -/

theorem keys_nodup (m : StorageMap K V) : m.keys.Nodup := by
  unfold keys List.Nodup
  rw [List.pairwise_map]
  exact m.sorted.imp (fun hlt heq => hlt.ne (congrArg enc heq))

theorem get_eq_some_iff :
    m.get k = some v ↔ (k, v) ∈ m.entries := by
  unfold get
  constructor
  · intro h
    obtain ⟨e, he, rfl⟩ := Option.map_eq_some_iff.mp h
    have hkey : e.1 = k := by
      simpa [enc_inj] using List.find?_some he
    subst hkey
    exact List.mem_of_find?_eq_some he
  · intro hmem
    obtain ⟨e, he⟩ : ∃ e, m.entries.find?
        (fun e => decide (enc e.1 = enc k)) = some e := by
      rw [← Option.isSome_iff_exists, List.find?_isSome]
      exact ⟨(k, v), hmem, by simp⟩
    have hkey : e.1 = k := by
      simpa [enc_inj] using List.find?_some he
    have heq : e = (k, v) :=
      List.inj_on_of_nodup_map m.keys_nodup
        (List.mem_of_find?_eq_some he) hmem hkey
    simp [he, heq]

@[simp] theorem contains_eq_isSome (m : StorageMap K V) (k : K) :
    m.contains k = (m.get k).isSome := rfl

theorem contains_eq_false_iff :
    m.contains k = false ↔ m.get k = none := by
  simp

theorem mem_keys_iff :
    k ∈ m.keys ↔ (m.get k).isSome := by
  unfold keys
  rw [Option.isSome_iff_exists]
  simp only [List.mem_map, get_eq_some_iff, Prod.exists, exists_and_right,
    exists_eq_right]

theorem ext_get {m' : StorageMap K V} (h : ∀ k, m.get k = m'.get k) :
    m = m' := by
  have hmem : ∀ e, e ∈ m.entries ↔ e ∈ m'.entries := by
    rintro ⟨k, v⟩
    rw [← get_eq_some_iff, ← get_eq_some_iff, h]
  have hperm : m.entries.Perm m'.entries :=
    (List.perm_ext_iff_of_nodup m.keys_nodup.of_map m'.keys_nodup.of_map).mpr hmem
  have heq : m.entries = m'.entries :=
    hperm.eq_of_pairwise (fun a b _ _ hab hba => absurd hba hab.asymm)
      m.sorted m'.sorted
  cases m
  cases m'
  simpa using heq

theorem mem_insert_entries {v' : V} :
    (k', v') ∈ (m.insert k v).entries ↔
      (k' = k ∧ v' = v) ∨ (k' ≠ k ∧ (k', v') ∈ m.entries) := by
  unfold insert
  simp only [List.mem_append, List.mem_filter, decide_eq_true_eq,
    List.mem_cons, Prod.mk.injEq]
  constructor
  · rintro (⟨hmem, hlt⟩ | heq | ⟨hmem, hlt⟩)
    · exact Or.inr ⟨fun h => hlt.ne (congrArg enc h), hmem⟩
    · exact Or.inl heq
    · exact Or.inr ⟨fun h => hlt.ne (congrArg enc h.symm), hmem⟩
  · rintro (heq | ⟨hne, hmem⟩)
    · exact Or.inr (Or.inl heq)
    · rcases enc_lt_or_gt hne with hlt | hgt
      · exact Or.inl ⟨hmem, hlt⟩
      · exact Or.inr (Or.inr ⟨hmem, hgt⟩)

theorem mem_remove_entries {v' : V} :
    (k', v') ∈ (m.remove k).entries ↔ k' ≠ k ∧ (k', v') ∈ m.entries := by
  unfold remove
  simp [enc_inj, and_comm]

@[simp] theorem get_empty (k : K) : (∅ : StorageMap K V).get k = none := rfl

theorem get_insert [DecidableEq K] (m : StorageMap K V) (k k' : K) (v : V) :
    (m.insert k v).get k' = if k' = k then some v else m.get k' := by
  ext v'
  rw [get_eq_some_iff, mem_insert_entries]
  by_cases h : k' = k
  · simp [h, eq_comm]
  · simp [h, get_eq_some_iff]

@[simp] theorem get_insert_self (m : StorageMap K V) (k : K) (v : V) :
    (m.insert k v).get k = some v := by
  rw [get_eq_some_iff, mem_insert_entries]
  exact Or.inl ⟨rfl, rfl⟩

theorem get_insert_of_ne (m : StorageMap K V) (v : V) (h : k' ≠ k) :
    (m.insert k v).get k' = m.get k' := by
  classical
  rw [get_insert, if_neg h]

theorem get_remove [DecidableEq K] (m : StorageMap K V) (k k' : K) :
    (m.remove k).get k' = if k' = k then none else m.get k' := by
  ext v'
  rw [get_eq_some_iff, mem_remove_entries]
  by_cases h : k' = k
  · simp [h]
  · simp [h, get_eq_some_iff]

@[simp] theorem get_remove_self (m : StorageMap K V) (k : K) :
    (m.remove k).get k = none := by
  classical
  rw [get_remove, if_pos rfl]

theorem get_remove_of_ne (m : StorageMap K V) (h : k' ≠ k) :
    (m.remove k).get k' = m.get k' := by
  classical
  rw [get_remove, if_neg h]

theorem contains_insert (k : K) (v : V) (h : m.contains k') :
    (m.insert k v).contains k' := by
  by_cases hsame : k' = k
  · simp [hsame]
  · simpa [get_insert_of_ne _ _ hsame] using h

theorem get_insert_eq_update [DecidableEq K] (m : StorageMap K V) (k : K) (v : V) :
    (m.insert k v).get = Function.update m.get k (some v) := by
  funext k'
  rw [get_insert, Function.update_apply]

theorem get_remove_eq_update [DecidableEq K] (m : StorageMap K V) (k : K) :
    (m.remove k).get = Function.update m.get k none := by
  funext k'
  rw [get_remove, Function.update_apply]

@[simp] theorem getD_empty (k : K) (d : V) : (∅ : StorageMap K V).getD k d = d := rfl

theorem getD_insert [DecidableEq K] (m : StorageMap K V) (k k' : K) (v d : V) :
    (m.insert k v).getD k' d = if k' = k then v else m.getD k' d := by
  unfold getD
  rw [get_insert]
  split <;> rfl

@[simp] theorem getD_insert_self (m : StorageMap K V) (k : K) (v d : V) :
    (m.insert k v).getD k d = v := by
  simp [getD]

theorem getD_insert_of_ne (m : StorageMap K V) (v d : V) (h : k' ≠ k) :
    (m.insert k v).getD k' d = m.getD k' d := by
  simp [getD, get_insert_of_ne m v h]

theorem getD_remove [DecidableEq K] (m : StorageMap K V) (k k' : K) (d : V) :
    (m.remove k).getD k' d = if k' = k then d else m.getD k' d := by
  unfold getD
  rw [get_remove]
  split <;> rfl

theorem getD_of_get_none (h : m.get k = none) : m.getD k d = d := by
  simp [getD, h]

theorem mem_keys_of_getD_ne (h : m.getD k d ≠ d) :
    k ∈ m.keys := by
  rw [mem_keys_iff]
  by_contra hnone
  exact h (getD_of_get_none (Option.not_isSome_iff_eq_none.mp hnone))

theorem getD_of_get_some (h : m.get k = some v) : m.getD k d = v := by
  simp [getD, h]

theorem insert_comm (v v' : V) (h : k ≠ k') :
    (m.insert k v).insert k' v' = (m.insert k' v').insert k v := by
  apply ext_get
  intro other
  by_cases hk : other = k
  · rw [hk, get_insert_of_ne _ _ h, get_insert_self, get_insert_self]
  · by_cases hk' : other = k'
    · rw [hk', get_insert_self, get_insert_of_ne _ _ h.symm, get_insert_self]
    · rw [get_insert_of_ne _ _ hk', get_insert_of_ne _ _ hk, get_insert_of_ne _ _ hk,
        get_insert_of_ne _ _ hk']

theorem remove_of_get_none (h : m.get k = none) :
    m.remove k = m := by
  apply ext_get
  intro k'
  by_cases hk : k' = k
  · rw [hk, get_remove_self, h]
  · exact get_remove_of_ne m hk

/-! ## Counting rows -/

def count (m : StorageMap K V) (p : K → V → Bool) : ℕ :=
  m.entries.countP (fun e => p e.1 e.2)

def rowCount (m : StorageMap K V) (p : K → V → Bool) (k : K) : ℕ :=
  match m.get k with
  | some v => (p k v).toNat
  | none => 0

theorem entries_nodup (m : StorageMap K V) : m.entries.Nodup :=
  m.keys_nodup.of_map

theorem insert_entries_perm (m : StorageMap K V) (k : K) (v : V) :
    (m.insert k v).entries.Perm ((k, v) :: (m.remove k).entries) := by
  refine (List.perm_ext_iff_of_nodup (entries_nodup _) ?_).mpr ?_
  · rw [List.nodup_cons]
    exact ⟨fun h => (mem_remove_entries.mp h).1 rfl, entries_nodup _⟩
  · rintro ⟨k', v'⟩
    simp only [mem_insert_entries, List.mem_cons, mem_remove_entries,
      Prod.mk.injEq]

theorem entries_perm_of_get (h : m.get k = some v) :
    m.entries.Perm ((k, v) :: (m.remove k).entries) := by
  refine (List.perm_ext_iff_of_nodup (entries_nodup _) ?_).mpr ?_
  · rw [List.nodup_cons]
    exact ⟨fun h => (mem_remove_entries.mp h).1 rfl, entries_nodup _⟩
  · rintro ⟨k', v'⟩
    rw [List.mem_cons, mem_remove_entries, ← get_eq_some_iff]
    by_cases hk : k' = k
    · subst hk
      simp [h, eq_comm]
    · simp [hk]

theorem count_remove (m : StorageMap K V) (p : K → V → Bool) (k : K) :
    (m.remove k).count p + m.rowCount p k = m.count p := by
  unfold rowCount
  cases h : m.get k with
  | none => simp [remove_of_get_none h]
  | some v =>
    unfold count
    rw [(entries_perm_of_get h).countP_eq, List.countP_cons]
    cases hp : p k v <;> simp [hp]

theorem count_insert (m : StorageMap K V) (p : K → V → Bool) (k : K) (v : V) :
    (m.insert k v).count p + m.rowCount p k = m.count p + (p k v).toNat := by
  have hinsert : (m.insert k v).count p = (m.remove k).count p + (p k v).toNat := by
    unfold count
    rw [(insert_entries_perm m k v).countP_eq, List.countP_cons]
    cases p k v <;> simp
  have hremove := m.count_remove p k
  omega

theorem count_pos_of_get {p : K → V → Bool} (h : m.get k = some v) (hp : p k v) :
    0 < m.count p := by
  unfold count
  rw [List.countP_pos_iff]
  exact ⟨(k, v), get_eq_some_iff.mp h, hp⟩

/-! ## Inverse maps -/

section Inverse

variable {A : Type*} [StorageKey A] {f : StorageMap A K} {g : StorageMap K A} {a : A} {k : K}

/-- Two maps that are read in opposite directions of one 1:1 relation. -/
def Inverse (f : StorageMap A K) (g : StorageMap K A) : Prop :=
  ∀ a k, f.get a = some k ↔ g.get k = some a

theorem Inverse.empty : Inverse (∅ : StorageMap A K) ∅ := by
  intro a k
  simp

theorem Inverse.injective (hinverse : Inverse f g) (hk : g.get k = some a) (hk' : g.get k' = some a)
    : k = k' := by
  have hget := (hinverse a k).mpr hk
  rw [(hinverse a k').mpr hk'] at hget
  exact (Option.some.inj hget).symm

theorem Inverse.insert (hinverse : Inverse f g) (ha : f.get a = none) (hk : g.get k = none) :
    Inverse (f.insert a k) (g.insert k a) := by
  classical
  have hbound : OneToOne (f.insert a k).get (g.insert k a).get := by
    rw [get_insert_eq_update, get_insert_eq_update]
    exact OneToOne.bind hinverse ha hk
  exact hbound

theorem Inverse.remove (hinverse : Inverse f g) (hbound : f.get a = some k) :
    Inverse (f.remove a) (g.remove k) := by
  classical
  have hreleased : OneToOne (f.remove a).get (g.remove k).get := by
    rw [get_remove_eq_update, get_remove_eq_update]
    exact OneToOne.release hinverse hbound
  exact hreleased

end Inverse

/-! ## Sets -/

/-- The members of a list, once each and in the order of their encoding. -/
def sortedSet (l : List K) : List K :=
  (l.foldl (fun set k => set.insert k ()) (∅ : StorageMap K Unit)).keys

theorem mem_sortedSet {l : List K} : k ∈ sortedSet l ↔ k ∈ l := by
  have hfold : ∀ set : StorageMap K Unit,
      ((l.foldl (fun set k => set.insert k ()) set).get k).isSome ↔
        k ∈ l ∨ (set.get k).isSome := by
    induction l with
    | nil => simp
    | cons a l ih =>
      classical
      intro set
      rw [List.foldl_cons, ih, get_insert, List.mem_cons]
      split_ifs with hk <;> simp [hk]
  rw [sortedSet, mem_keys_iff, hfold]
  simp

/-- Rows of one map and rows of another for keys the first does not have. -/
theorem filter_keys_append_nodup {V' : Type*} {m' : StorageMap K V'} {p : K × V → Bool}
    {q : K × V' → Bool} (h : ∀ row, q row = true → m.get row.1 = none) :
    ((m.entries.filter p).map Prod.fst ++ (m'.entries.filter q).map Prod.fst).Nodup := by
  refine List.nodup_append.mpr ⟨m.keys_nodup.sublist (List.filter_sublist.map _),
    m'.keys_nodup.sublist (List.filter_sublist.map _), ?_⟩
  rintro k hk k' hk' rfl
  obtain ⟨row, hrow, rfl⟩ := List.mem_map.mp hk
  obtain ⟨row', hrow', hsame⟩ := List.mem_map.mp hk'
  have hnone := h row' (List.mem_filter.mp hrow').2
  rw [hsame, get_eq_some_iff.mpr (List.mem_filter.mp hrow).1] at hnone
  cases hnone

end StorageMap

/-! ## Folds that write one row at a time -/

section KeyedFolds

variable {σ C K V : Type*} {step : σ → C → σ} {key : C → K} {s : σ} {changes : List C} {k : K}
  (get : σ → K → Option V) (hframe : ∀ s c k, k ≠ key c → get (step s c) k = get s k)
include hframe

theorem foldl_get_of_notMem (hk : k ∉ changes.map key) :
    get (changes.foldl step s) k = get s k := by
  induction changes generalizing s with
  | nil => rfl
  | cons c changes ih =>
    rw [List.map_cons, List.mem_cons, not_or] at hk
    rw [List.foldl_cons, ih hk.2, hframe s c k hk.1]

theorem foldl_get_of_mem (want : K → Option V)
    (hself : ∀ s, ∀ c ∈ changes, get (step s c) (key c) = want (key c))
    (hk : k ∈ changes.map key) : get (changes.foldl step s) k = want k := by
  induction changes generalizing s with
  | nil => cases hk
  | cons c changes ih =>
    by_cases hlater : k ∈ changes.map key
    · exact ih (fun s c hc => hself s c (List.mem_cons_of_mem _ hc)) hlater
    · obtain rfl : k = key c := (List.mem_cons.mp hk).resolve_right hlater
      rw [List.foldl_cons, foldl_get_of_notMem get hframe hlater]
      exact hself s c List.mem_cons_self

end KeyedFolds

end Substrate
