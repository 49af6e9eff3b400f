import CognoChain.Close.Paged

/-!
# The budget of one close call

A close call declares the weight of a full page of voters and reports what it
did.  The two phases share one budget: the drain gets what the walk left,
rescaled to rows, so rows priced back in voters never exceed it.  A page with
any budget moves the close forward.
-/

namespace CognoChain

open Substrate CognoChain.Runtime

section Budget

variable {cfg : Config} {s : Runtime} {host : ℕ} {poll : Poll} {page : ClosePage}

theorem walkPage_budget :
    (s.walkPage cfg host poll page).budget =
      page.budget - (s.walkedVoters cfg host page).length := by
  unfold walkPage walkedVoters
  split_ifs
  · rfl
  · rfl

theorem walkedVoters_length_le : (s.walkedVoters cfg host page).length ≤ page.budget := by
  unfold walkedVoters
  split_ifs
  · exact Nat.zero_le _
  · exact List.length_take_le _ _

theorem drainedRows_length_le :
    (drainedRows cfg host page).length ≤ page.budget * max cfg.maxChamberBadges 1 := by
  unfold drainedRows
  split_ifs
  · exact List.length_take_le _ _
  · exact Nat.zero_le _

theorem drainedRows_ceilDiv_le :
    (drainedRows cfg host page).length ⌈/⌉ max cfg.maxChamberBadges 1 ≤ page.budget := by
  have hratio : 0 < max cfg.maxChamberBadges 1 := by omega
  rw [ceilDiv_le_iff_le_mul hratio, Nat.mul_comm]
  exact drainedRows_length_le

theorem page_items_le :
    (s.walkedVoters cfg host page).length +
        (drainedRows cfg host (s.walkPage cfg host poll page)).length ⌈/⌉
          max cfg.maxChamberBadges 1 ≤ page.budget := by
  have hwalked : (s.walkedVoters cfg host page).length ≤ page.budget := walkedVoters_length_le
  have hdrained : (drainedRows cfg host (s.walkPage cfg host poll page)).length ⌈/⌉
      max cfg.maxChamberBadges 1 ≤ (s.walkPage cfg host poll page).budget :=
    drainedRows_ceilDiv_le
  rw [walkPage_budget] at hdrained
  omega

/-! ## Progress -/

theorem walkPage_draining_of_nil (poll : Poll) (hbudget : 1 ≤ page.budget)
    (hnil : s.walkedVoters cfg host page = []) :
    (s.walkPage cfg host poll page).state.draining = true := by
  unfold walkedVoters at hnil
  unfold walkPage
  split_ifs at hnil ⊢ with hdraining
  · exact hdraining
  · have hshort : 0 < page.budget := hbudget
    simp [hnil, hshort]

theorem drainPage_finished_of_nil (hbudget : 1 ≤ page.budget)
    (hdraining : page.state.draining = true)
    (hnil : drainedRows cfg host page = []) :
    closeFinished cfg host (drainPage cfg host poll page) = true := by
  have hroom : page.budget * max cfg.maxChamberBadges 1 ≠ 0 :=
    Nat.mul_ne_zero (by omega) (by omega)
  rw [drainedRows, if_pos hdraining, List.take_eq_nil_iff] at hnil
  have hempty : page.scratch.prefixKeys cfg.blake2 host = [] := hnil.resolve_left hroom
  unfold closeFinished drainPage
  rw [if_pos hdraining]
  simp [hempty, CloseState.setChamberTotals, hdraining]

/-- An unfinished page has walked a voter, drained a row or gone over to
draining. -/
theorem page_progress (hbudget : 1 ≤ page.budget)
    (hopen : closeFinished cfg host
      (drainPage cfg host poll (s.walkPage cfg host poll page)) = false) :
    s.walkedVoters cfg host page ≠ [] ∨
      drainedRows cfg host (s.walkPage cfg host poll page) ≠ [] ∨
      (page.state.draining = false ∧
        (s.walkPage cfg host poll page).state.draining = true) := by
  by_cases hwalked : s.walkedVoters cfg host page = []
  · have hdraining := walkPage_draining_of_nil poll hbudget hwalked
    cases hstart : page.state.draining with
    | false => exact Or.inr (Or.inr ⟨rfl, hdraining⟩)
    | true =>
      right; left
      intro hnil
      have hleft : 1 ≤ (s.walkPage cfg host poll page).budget := by
        rw [walkPage_budget, hwalked]
        exact hbudget
      rw [drainPage_finished_of_nil hleft hdraining hnil] at hopen
      cases hopen
  · exact Or.inl hwalked

theorem finalizeClose_result :
    (s.finalizeClose host poll page).polls.pollResults.get host =
      some (s.frozenResult host poll page.state) := by
  unfold finalizeClose
  dsimp only
  split_ifs
  · exact StorageMap.get_insert_self _ _ _
  · exact StorageMap.get_insert_self _ _ _

end Budget

end CognoChain
