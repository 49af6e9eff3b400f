import CognoChain.Substrate.StorageIteration

/-!
# Paged walks over a map

A page examines some of the keys after its cursor, in the order of the map,
and hands back the last of them as the next cursor if any key is left.  Over a
map that does not move, chasing the cursors examines every key once.
-/

namespace Substrate

variable {K α : Type*}

/-- The pages of a chase, until one hands back no cursor. -/
inductive KeyChase (read : Option K → α) (next : α → Option K) : Option K → List α → Prop
  | last {cursor : Option K} (hnext : next (read cursor) = none) :
      KeyChase read next cursor [read cursor]
  | more {cursor : Option K} {key : K} {pages : List α} (hnext : next (read cursor) = some key)
      (hrest : KeyChase read next (some key) pages) :
      KeyChase read next cursor (read cursor :: pages)

variable [StorageKey K]

/-- A page at this cursor examines these keys. -/
structure Examines (hash : ℕ → ℕ) (keys : List K) (cursor : Option K) (seen : List K)
    (next : Option K) : Prop where
  split : ∃ rest, walkFrom hash keys cursor = seen ++ rest ∧ (next = none → rest = [])
  more : ∀ last, next = some last →
    seen.getLast? = some last ∧ walkFrom hash keys cursor ≠ seen

variable {hash : ℕ → ℕ} {keys seen : List K} {cursor next : Option K}

theorem Examines.append (hsorted : keys.Pairwise (HashLt hash))
    (h : Examines hash keys cursor seen next) :
    walkFrom hash keys cursor =
      seen ++ (next.elim [] (fun last => walkFrom hash keys (some last))) := by
  obtain ⟨rest, hsplit, hdone⟩ := h.split
  cases hnext : next with
  | none => rw [hsplit, hdone hnext, Option.elim_none]
  | some last => rw [Option.elim_some, walkFrom_resume hsorted hsplit (h.more last hnext).1, hsplit]

theorem Examines.left (hsorted : keys.Pairwise (HashLt hash))
    (h : Examines hash keys cursor seen next) {last : K} (hnext : next = some last) :
    walkFrom hash keys (some last) ≠ [] := by
  intro hnil
  have happend := h.append hsorted
  rw [hnext, Option.elim_some, hnil, List.append_nil] at happend
  exact (h.more last hnext).2 happend

theorem exists_keyChase {read : Option K → α} {nextOf : α → Option K}
    {seenOf : Option K → List K} (hsorted : keys.Pairwise (HashLt hash))
    (hpages : ∀ cursor, Examines hash keys cursor (seenOf cursor) (nextOf (read cursor)))
    (cursor : Option K) :
    ∃ cursors : List (Option K), KeyChase read nextOf cursor (cursors.map read) ∧
      cursors.flatMap seenOf = walkFrom hash keys cursor := by
  -- each page but the last leaves fewer keys
  induction hleft : (walkFrom hash keys cursor).length using Nat.strong_induction_on
    generalizing cursor with
  | h left ih =>
    have happend := (hpages cursor).append hsorted
    cases hnext : nextOf (read cursor) with
    | none =>
      rw [hnext, Option.elim_none, List.append_nil] at happend
      exact ⟨[cursor], .last hnext, by rw [List.flatMap_singleton, happend]⟩
    | some last =>
      rw [hnext, Option.elim_some] at happend
      have hseen : seenOf cursor ≠ [] := by
        intro hnil
        have hlast := ((hpages cursor).more last hnext).1
        rw [hnil] at hlast
        cases hlast
      have hlength := congrArg List.length happend
      have hpos := List.length_pos_of_ne_nil hseen
      rw [List.length_append] at hlength
      obtain ⟨cursors, hrest, hcover⟩ := ih _ (by omega) (some last) rfl
      refine ⟨cursor :: cursors, .more hnext hrest, ?_⟩
      rw [List.flatMap_cons, hcover, ← happend]

end Substrate
