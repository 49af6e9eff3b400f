import CognoChain.Substrate.StorageMap

/-!
# Iterating a storage map

The trie visits keys in the order of their hash, ties broken by the key
itself.  A walk can be resumed strictly after any key, stored or not.  The
lemmas of the last section are what a paged walk over a fixed map needs: the
keys after the last one visited are exactly those not visited yet.
-/

namespace Substrate

open StorageKey

section HashOrder

variable {K : Type*} [StorageKey K] {a b : K} {hash : ℕ → ℕ} {keys l : List K}

def HashLt (hash : ℕ → ℕ) (a b : K) : Prop :=
  hash (enc a) < hash (enc b) ∨
    (hash (enc a) = hash (enc b) ∧ enc a < enc b)

instance (hash : ℕ → ℕ) : DecidableRel (HashLt (K := K) hash) :=
  fun _ _ => inferInstanceAs (Decidable (_ ∨ _))

theorem HashLt.irrefl (hash : ℕ → ℕ) (a : K) : ¬ HashLt hash a a := by
  unfold HashLt
  omega

theorem HashLt.trans {c : K} (hab : HashLt hash a b) (hbc : HashLt hash b c) : HashLt hash a c := by
  unfold HashLt at *
  omega

theorem HashLt.asymm (hab : HashLt hash a b) : ¬ HashLt hash b a :=
  fun hba => HashLt.irrefl hash a (hab.trans hba)

theorem hashLt_of_not_of_ne (h : ¬ HashLt hash b a) (hne : a ≠ b) : HashLt hash a b := by
  have henc := enc_lt_or_gt hne
  unfold HashLt at *
  omega

def HashLe (hash : ℕ → ℕ) (a b : K) : Prop := ¬ HashLt hash b a

instance (hash : ℕ → ℕ) : DecidableRel (HashLe (K := K) hash) :=
  fun _ _ => inferInstanceAs (Decidable (¬ _))

instance (hash : ℕ → ℕ) : Std.Total (HashLe (K := K) hash) where
  total a b := by
    by_cases h : HashLt hash b a
    · exact Or.inr h.asymm
    · exact Or.inl h

instance (hash : ℕ → ℕ) : IsTrans K (HashLe hash) where
  trans a b c hab hbc := by
    unfold HashLe HashLt at *
    omega

def hashSort (hash : ℕ → ℕ) (keys : List K) : List K :=
  keys.insertionSort (HashLe hash)

theorem hashSort_perm (hash : ℕ → ℕ) (keys : List K) :
    (hashSort hash keys).Perm keys :=
  List.perm_insertionSort _ _

@[simp] theorem mem_hashSort {k : K} :
    k ∈ hashSort hash keys ↔ k ∈ keys :=
  (hashSort_perm hash keys).mem_iff

theorem hashSort_pairwise (hash : ℕ → ℕ) (hnodup : keys.Nodup) :
    (hashSort hash keys).Pairwise (HashLt hash) := by
  have hsorted : (hashSort hash keys).Pairwise (HashLe hash) :=
    List.pairwise_insertionSort _ _
  have hne : (hashSort hash keys).Pairwise (fun a b => a ≠ b) :=
    (hashSort_perm hash keys).nodup_iff.mpr hnodup
  exact (hsorted.and hne).imp (fun h => hashLt_of_not_of_ne h.1 h.2)

theorem nodup_of_hashLt_pairwise (hl : l.Pairwise (HashLt hash)) : l.Nodup :=
  hl.imp (fun hlt heq => by
    subst heq
    exact HashLt.irrefl hash _ hlt)

theorem eq_of_hashLt_pairwise {l' : List K} (hl : l.Pairwise (HashLt hash))
    (hl' : l'.Pairwise (HashLt hash)) (hmem : ∀ k, k ∈ l ↔ k ∈ l') : l = l' := by
  have hperm : l.Perm l' :=
    (List.perm_ext_iff_of_nodup (nodup_of_hashLt_pairwise hl)
      (nodup_of_hashLt_pairwise hl')).mpr hmem
  exact hperm.eq_of_pairwise
    (fun a b _ _ hab hba => absurd hba hab.asymm) hl hl'

end HashOrder

namespace StorageMap

variable {K A B V : Type*} [StorageKey K] [StorageKey A] [StorageKey B] {hash : ℕ → ℕ}

def iterKeys (hash : ℕ → ℕ) (m : StorageMap K V) : List K :=
  hashSort hash m.keys

def prefixKeys (hash : ℕ → ℕ) (m : StorageMap (A × B) V) (a : A) : List B :=
  hashSort hash
    ((m.keys.filter (fun k => enc k.1 = enc a)).map Prod.snd)

theorem mem_iterKeys {m : StorageMap K V} {k : K} :
    k ∈ m.iterKeys hash ↔ (m.get k).isSome := by
  unfold iterKeys
  rw [mem_hashSort, mem_keys_iff]

theorem iterKeys_pairwise (hash : ℕ → ℕ) (m : StorageMap K V) :
    (m.iterKeys hash).Pairwise (HashLt hash) :=
  hashSort_pairwise hash m.keys_nodup

theorem iterKeys_nodup (hash : ℕ → ℕ) (m : StorageMap K V) :
    (m.iterKeys hash).Nodup :=
  (hashSort_perm hash m.keys).nodup_iff.mpr m.keys_nodup

private theorem prefix_nodup (m : StorageMap (A × B) V) (a : A) :
    ((m.keys.filter (fun k => enc k.1 = enc a)).map Prod.snd).Nodup := by
  rw [List.nodup_map_iff_inj_on (m.keys_nodup.filter _)]
  rintro ⟨a₁, b₁⟩ h₁ ⟨a₂, b₂⟩ h₂ hb
  have ha₁ : a₁ = a := by simpa [enc_inj] using (List.mem_filter.mp h₁).2
  have ha₂ : a₂ = a := by simpa [enc_inj] using (List.mem_filter.mp h₂).2
  exact Prod.ext (ha₁.trans ha₂.symm) hb

theorem mem_prefixKeys {m : StorageMap (A × B) V} {a : A} {b : B} :
    b ∈ m.prefixKeys hash a ↔ (m.get (a, b)).isSome := by
  unfold prefixKeys
  rw [mem_hashSort, ← mem_keys_iff]
  simp only [List.mem_map, List.mem_filter, decide_eq_true_eq, enc_inj,
    Prod.exists, exists_eq_right]

theorem prefixKeys_pairwise (hash : ℕ → ℕ) (m : StorageMap (A × B) V) (a : A) :
    (m.prefixKeys hash a).Pairwise (HashLt hash) :=
  hashSort_pairwise hash (prefix_nodup m a)

theorem prefixKeys_nodup (hash : ℕ → ℕ) (m : StorageMap (A × B) V) (a : A) :
    (m.prefixKeys hash a).Nodup :=
  (hashSort_perm hash _).nodup_iff.mpr (prefix_nodup m a)

end StorageMap

/-! ## Resumable walks -/

section Walk

variable {K : Type*} [StorageKey K] {hash : ℕ → ℕ} {rest visited : List K} {keys : List K}

/-- The keys of a walk still to visit: all of them at the start, otherwise
those strictly after the cursor. -/
def walkFrom (hash : ℕ → ℕ) (keys : List K) : Option K → List K
  | none => keys
  | some cursor => keys.filter (fun k => HashLt hash cursor k)

theorem walkFrom_append_cons {cursor : K}
    (hsorted : (visited ++ cursor :: rest).Pairwise (HashLt hash)) :
    walkFrom hash (visited ++ cursor :: rest) (some cursor) = rest := by
  obtain ⟨-, hcons, hcross⟩ := List.pairwise_append.mp hsorted
  have hrest : ∀ k ∈ rest, HashLt hash cursor k := List.pairwise_cons.mp hcons |>.1
  have hvisited : visited.filter (fun k => HashLt hash cursor k) = [] := by
    rw [List.filter_eq_nil_iff]
    intro k hk
    have hlt : HashLt hash k cursor := hcross k hk cursor List.mem_cons_self
    simpa using hlt.asymm
  have hself : ¬ HashLt hash cursor cursor := HashLt.irrefl hash cursor
  have hall : rest.filter (fun k => HashLt hash cursor k) = rest := by
    rw [List.filter_eq_self]
    intro k hk
    simpa using hrest k hk
  simp only [walkFrom, List.filter_append, hvisited, List.nil_append]
  rw [List.filter_cons_of_neg (by simpa using hself), hall]

/-- Once the keys of `visited` have been walked and the cursor stands on the
last of them, the walk continues with the rest. -/
theorem walkFrom_of_getLast? (hsorted : (visited ++ rest).Pairwise (HashLt hash)) :
    walkFrom hash (visited ++ rest) visited.getLast? = rest := by
  rcases List.eq_nil_or_concat visited with rfl | ⟨init, last, rfl⟩
  · rfl
  · simp only [List.concat_eq_append, List.getLast?_append, List.getLast?_singleton,
      Option.some_or, List.append_assoc, List.singleton_append] at hsorted ⊢
    exact walkFrom_append_cons hsorted

theorem walkFrom_pairwise (hsorted : keys.Pairwise (HashLt hash)) (cursor : Option K) :
    (walkFrom hash keys cursor).Pairwise (HashLt hash) := by
  cases cursor with
  | none => exact hsorted
  | some last => exact hsorted.filter _

theorem walkFrom_resume {cursor : Option K} {last : K} (hsorted : keys.Pairwise (HashLt hash))
    (hwalk : walkFrom hash keys cursor = visited ++ rest) (hlast : visited.getLast? = some last) :
    walkFrom hash keys (some last) = rest := by
  have hpart := walkFrom_pairwise hsorted cursor
  rw [hwalk] at hpart
  have hrest := walkFrom_of_getLast? hpart
  rw [hlast, ← hwalk] at hrest
  rw [← hrest]
  cases cursor with
  | none => rfl
  | some start =>
    have hmem : last ∈ walkFrom hash keys (some start) := by
      rw [hwalk]
      exact List.mem_append_left _ (List.mem_of_getLast? hlast)
    have hafter : HashLt hash start last := by simpa using (List.mem_filter.mp hmem).2
    -- what lies after `last` lies after `start`
    simp only [walkFrom, List.filter_filter]
    apply List.filter_congr
    intro k _
    by_cases hk : HashLt hash last k
    · simp [hk, hafter.trans hk]
    · simp [hk]

end Walk

end Substrate
