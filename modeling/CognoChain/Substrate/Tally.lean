import CognoChain.Substrate.Saturating
import CognoChain.Substrate.StorageMap

/-!
# Counters and indexes of rows

A counter kept beside a table says how many rows of the table fall under its
key.  It stays right through every insertion of a new row and every removal of
a stored one, as long as it is not bumped at its maximum.  An index kept beside
a table has an entry for each row of one kind, under a key of its own.
-/

namespace Substrate

namespace StorageMap

variable {K V : Type*} [StorageKey K] {m : StorageMap K V} {k : K} {v : V}

theorem count_insert_new (hnew : m.get k = none) (p : K → V → Bool) :
    (m.insert k v).count p = m.count p + (p k v).toNat := by
  have hcount := m.count_insert p k v
  rwa [rowCount, hnew, Nat.add_zero] at hcount

theorem count_remove_stored (hstored : m.get k = some v) (p : K → V → Bool) :
    (m.remove k).count p + (p k v).toNat = m.count p := by
  have hcount := m.count_remove p k
  rwa [rowCount, hstored] at hcount

end StorageMap

section Degree

variable {A B : Type*} [StorageKey A] [StorageKey B] [DecidableEq A]
  {counts : StorageMap A ℕ} {rows : StorageMap (A × B) Unit} {a x : A} {y : B} {bound : ℕ}

def Degree (counts : StorageMap A ℕ) (rows : StorageMap (A × B) Unit) (a : A) : Prop :=
  counts.getD a 0 = rows.count (fun row _ => row.1 = a)

theorem Degree.empty (a : A) : Degree (∅ : StorageMap A ℕ) (∅ : StorageMap (A × B) Unit) a := rfl

theorem Degree.insert (hdegree : Degree counts rows a) (hnew : rows.get (x, y) = none)
    (hroom : counts.getD a 0 < bound) :
    Degree (counts.mutate x 0 (fun c => satAdd bound c 1)) (rows.insert (x, y) ()) a := by
  unfold Degree at *
  rw [StorageMap.count_insert_new hnew, ← hdegree, StorageMap.mutate, StorageMap.getD_insert]
  by_cases hx : a = x
  · rw [if_pos hx, ← hx, satAdd_succ_of_lt hroom]
    simp
  · rw [if_neg hx]
    simp [Ne.symm hx]

theorem Degree.remove (hdegree : Degree counts rows a) (hstored : rows.get (x, y) = some ()) :
    Degree (counts.mutate x 0 (fun c => c - 1)) (rows.remove (x, y)) a := by
  unfold Degree at *
  have hcount := StorageMap.count_remove_stored hstored (fun row _ => decide (row.1 = a))
  rw [← hdegree] at hcount
  rw [StorageMap.mutate, StorageMap.getD_insert]
  by_cases hx : a = x
  · rw [if_pos hx, ← hx]
    simp only [hx, decide_true, Bool.toNat_true] at hcount ⊢
    omega
  · rw [if_neg hx]
    simp only [Ne.symm hx, decide_false, Bool.toNat_false] at hcount
    omega

theorem Degree.get_eq_none (hdegree : Degree counts rows a) (hzero : counts.getD a 0 = 0)
    (b : B) : rows.get (a, b) = none := by
  cases hrow : rows.get (a, b) with
  | none => rfl
  | some row =>
    have hpos : 0 < rows.count (fun row _ => row.1 = a) :=
      StorageMap.count_pos_of_get hrow (by simp)
    rw [← hdegree, hzero] at hpos
    cases hpos

end Degree

section Choices

variable {A B V : Type*} [StorageKey A] [StorageKey B] [DecidableEq A] [DecidableEq V]
  {rows : StorageMap (A × B) V} {counter counter' : A → V → ℕ} {a : A} {b : B} {v : V}

/-- Rows under a key choose a value; each value has a counter of the rows that
chose it. -/
def CountsChoices (counter : A → V → ℕ) (rows : StorageMap (A × B) V) : Prop :=
  ∀ a v, counter a v = rows.count (fun key choice => key.1 = a ∧ choice = v)

theorem CountsChoices.pos (hcensus : CountsChoices counter rows) (hrow : rows.get (a, b) = some v) :
    0 < counter a v := by
  rw [hcensus a v]
  exact StorageMap.count_pos_of_get hrow (by simp)

omit [StorageKey A] in
theorem toNat_choice (a a' : A) (v v' : V) :
    (decide (a = a' ∧ v = v')).toNat = if a' = a ∧ v' = v then 1 else 0 := by
  by_cases h : a' = a ∧ v' = v
  · simp [h]
  · rw [if_neg h, decide_eq_false (fun h' => h ⟨h'.1.symm, h'.2.symm⟩)]
    rfl

/-- A new choice moves one from the counter of the old choice, if there was
one. -/
theorem CountsChoices.insert (hcensus : CountsChoices counter rows)
    (hcounter : ∀ a' v', counter' a' v' +
        (if a' = a ∧ rows.get (a, b) = some v' then 1 else 0) =
      counter a' v' + if a' = a ∧ v' = v then 1 else 0) :
    CountsChoices counter' (rows.insert (a, b) v) := by
  intro a' v'
  have hcount := rows.count_insert (fun key choice => decide (key.1 = a' ∧ choice = v')) (a, b) v
  have hold : rows.rowCount (fun key choice => decide (key.1 = a' ∧ choice = v')) (a, b) =
      if a' = a ∧ rows.get (a, b) = some v' then 1 else 0 := by
    unfold StorageMap.rowCount
    cases rows.get (a, b) with
    | none => simp
    | some old =>
      dsimp only
      rw [toNat_choice]
      exact if_congr (and_congr_right fun _ =>
        ⟨fun h => congrArg some h.symm, fun h => (Option.some.inj h).symm⟩) rfl rfl
  dsimp only at hcount
  rw [← hcensus a' v', toNat_choice, hold] at hcount
  have hmoved := hcounter a' v'
  omega

theorem CountsChoices.remove (hcensus : CountsChoices counter rows) (hrow : rows.get (a, b) = some v)
    (hcounter : ∀ a' v', counter' a' v' + (if a' = a ∧ v' = v then 1 else 0) = counter a' v') :
    CountsChoices counter' (rows.remove (a, b)) := by
  intro a' v'
  have hcount := StorageMap.count_remove_stored hrow
    (fun key choice => decide (key.1 = a' ∧ choice = v'))
  dsimp only at hcount
  rw [← hcensus a' v', toNat_choice] at hcount
  have hmoved := hcounter a' v'
  omega

end Choices

section Mirrors

variable {A B V : Type*} [StorageKey A] [StorageKey B] {rows : StorageMap A V}
  {index : StorageMap B Unit} {keep : V → Bool} {key : A → B} {valid : A → Prop} {a : A} {v : V}

/-- The index has the keys of the valid rows that are kept. -/
structure Mirrors (rows : StorageMap A V) (index : StorageMap B Unit) (keep : V → Bool)
    (key : A → B) (valid : A → Prop) : Prop where
  stored_iff : ∀ a, valid a → ((index.get (key a)).isSome = true ↔ (rows.get a).any keep = true)
  covered : ∀ b, (index.get b).isSome = true → ∃ a, valid a ∧ key a = b

theorem Mirrors.empty : Mirrors (∅ : StorageMap A V) ∅ keep key valid := ⟨fun _ _ => by simp, nofun⟩

section

variable (hmirrors : Mirrors rows index keep key valid)
  (hinj : ∀ a a', valid a → valid a' → key a = key a' → a = a') (ha : valid a)
include hmirrors hinj ha

theorem Mirrors.write {rows' : StorageMap A V} {index' : StorageMap B Unit}
    (hrows : ∀ a', a' ≠ a → rows'.get a' = rows.get a')
    (hindex : ∀ b, b ≠ key a → index'.get b = index.get b)
    (hhere : (index'.get (key a)).isSome = true ↔ (rows'.get a).any keep = true) :
    Mirrors rows' index' keep key valid := by
  refine ⟨fun a' ha' => ?_, fun b hb => ?_⟩
  · by_cases hsame : a' = a
    · rw [hsame]
      exact hhere
    · rw [hrows a' hsame, hindex _ (fun h => hsame (hinj a' a ha' ha h))]
      exact hmirrors.stored_iff a' ha'
  · by_cases hsame : b = key a
    · exact ⟨a, ha, hsame.symm⟩
    · rw [hindex b hsame] at hb
      exact hmirrors.covered b hb

theorem Mirrors.insert (hkeep : keep v = true) :
    Mirrors (rows.insert a v) (index.insert (key a) ()) keep key valid :=
  hmirrors.write hinj ha (fun _ hne => rows.get_insert_of_ne v hne)
    (fun _ hne => index.get_insert_of_ne () hne) (by simp [hkeep])

theorem Mirrors.drop (hkeep : keep v = false) :
    Mirrors (rows.insert a v) (index.remove (key a)) keep key valid :=
  hmirrors.write hinj ha (fun _ hne => rows.get_insert_of_ne v hne)
    (fun _ hne => index.get_remove_of_ne hne) (by simp [hkeep])

theorem Mirrors.remove :
    Mirrors (rows.remove a) (index.remove (key a)) keep key valid :=
  hmirrors.write hinj ha (fun _ hne => rows.get_remove_of_ne hne)
    (fun _ hne => index.get_remove_of_ne hne) (by simp)

end

end Mirrors

end Substrate
