import CognoChain.Substrate.Run
import Mathlib.Logic.Function.Basic

/-!
# One-to-one registers with bans

A register records who holds which key, read in both directions, and which
keys are banned.  A key is bound only while it is free and not banned.  A
revoke takes a key from its holder and bans it in one step; whether a key can
also be released without a ban, or banned while it is held, differs between
registers.
-/

namespace Substrate

variable {A K : Type*}

/-- Two lookups that read one 1:1 relation in opposite directions. -/
def OneToOne (held : A → Option K) (holder : K → Option A) : Prop :=
  ∀ a k, held a = some k ↔ holder k = some a

namespace OneToOne

variable [DecidableEq A] [DecidableEq K] {held : A → Option K} {holder : K → Option A}
  {a : A} {k : K}

theorem bind (h : OneToOne held holder) (ha : held a = none) (hk : holder k = none) :
    OneToOne (Function.update held a (some k)) (Function.update holder k (some a)) := by
  intro a' k'
  simp only [Function.update_apply]
  by_cases hsame : a' = a <;> by_cases hsame' : k' = k
  · simp [hsame, hsame']
  · subst hsame
    have hfree : holder k' ≠ some a' := by
      rw [ne_eq, ← h, ha]
      simp
    simp [hsame', hfree, Ne.symm hsame']
  · subst hsame'
    have hfree : held a' ≠ some k' := by
      rw [ne_eq, h, hk]
      simp
    simp [hsame, hfree, Ne.symm hsame]
  · simp only [hsame, hsame', if_false]
    exact h a' k'

theorem release (h : OneToOne held holder) (hheld : held a = some k) :
    OneToOne (Function.update held a none) (Function.update holder k none) := by
  intro a' k'
  simp only [Function.update_apply]
  by_cases hsame : a' = a <;> by_cases hsame' : k' = k
  · simp [hsame, hsame']
  · have hfree : holder k' ≠ some a' := by
      rw [ne_eq, ← h, hsame, hheld]
      simpa using Ne.symm hsame'
    simp [hsame, hsame', hsame ▸ hfree]
  · have hfree : held a' ≠ some k' := by
      rw [ne_eq, h, hsame', (h a k).mp hheld]
      simpa using Ne.symm hsame
    simp [hsame, hsame', hsame' ▸ hfree]
  · simp only [hsame, hsame', if_false]
    exact h a' k'

end OneToOne

structure Registry (A K : Type*) where
  held : A → Option K
  holder : K → Option A
  banned : K → Prop

namespace Registry

/-- The verbs a register has besides bind and revoke. -/
structure Verbs where
  release : Prop
  ban : Prop

variable [DecidableEq A] [DecidableEq K] {verbs : Verbs} {r r' : Registry A K} {a : A} {k : K}

inductive Step (verbs : Verbs) (r r' : Registry A K) : Prop
  | bind (a : A) (k : K) (hheld : r.held a = none) (hholder : r.holder k = none)
      (hbanned : ¬ r.banned k)
      (hafter : r' = ⟨Function.update r.held a (some k), Function.update r.holder k (some a),
        r.banned⟩)
  | release (hverb : verbs.release) (a : A) (k : K) (hheld : r.held a = some k)
      (hafter : r' = ⟨Function.update r.held a none, Function.update r.holder k none,
        r.banned⟩)
  | revoke (a : A) (k : K) (hheld : r.held a = some k)
      (hafter : r' = ⟨Function.update r.held a none, Function.update r.holder k none,
        fun other => other = k ∨ r.banned other⟩)
  | ban (hverb : verbs.ban) (k : K)
      (hafter : r' = { r with banned := fun other => other = k ∨ r.banned other })

abbrev Steps (verbs : Verbs) : Registry A K → Registry A K → Prop :=
  Relation.ReflTransGen (Step verbs)

def Sound (r : Registry A K) : Prop := OneToOne r.held r.holder

def Separated (r : Registry A K) : Prop := ∀ k, r.banned k → r.holder k = none

def Retired (r : Registry A K) (k : K) : Prop := r.banned k ∧ r.holder k = none

theorem Step.sound (hstep : Step verbs r r') (hsound : r.Sound) : r'.Sound := by
  cases hstep with
  | bind a k hheld hholder hbanned hafter =>
    rw [hafter]
    exact hsound.bind hheld hholder
  | release hverb a k hheld hafter =>
    rw [hafter]
    exact hsound.release hheld
  | revoke a k hheld hafter =>
    rw [hafter]
    exact hsound.release hheld
  | ban hverb k hafter =>
    rw [hafter]
    exact hsound

theorem Step.separated (hban : ¬ verbs.ban) (hstep : Step verbs r r')
    (hseparated : r.Separated) : r'.Separated := by
  cases hstep with
  | bind a k hheld hholder hbanned hafter =>
    subst hafter
    intro other hother
    have hne : other ≠ k := fun hsame => hbanned (hsame ▸ hother)
    simp only [Function.update_of_ne hne]
    exact hseparated other hother
  | release hverb a k hheld hafter =>
    subst hafter
    intro other hother
    simp only [Function.update_apply, ite_eq_left_iff]
    exact fun _ => hseparated other hother
  | revoke a k hheld hafter =>
    subst hafter
    intro other hother
    simp only [Function.update_apply, ite_eq_left_iff]
    exact fun hne => hseparated other (hother.resolve_left hne)
  | ban hverb => exact absurd hverb hban

/-- A banned key that is free stays so, whatever the register's verbs. -/
theorem Step.retired (hstep : Step verbs r r') (hretired : r.Retired k) : r'.Retired k := by
  obtain ⟨hbanned, hfree⟩ := hretired
  cases hstep with
  | bind a other hheld hholder hother hafter =>
    subst hafter
    have hne : k ≠ other := fun hsame => hother (hsame ▸ hbanned)
    exact ⟨hbanned, by simp only [Function.update_of_ne hne, hfree]⟩
  | release hverb a other hheld hafter =>
    subst hafter
    exact ⟨hbanned, by simp [Function.update_apply, hfree]⟩
  | revoke a other hheld hafter =>
    subst hafter
    exact ⟨Or.inr hbanned, by simp [Function.update_apply, hfree]⟩
  | ban hverb other hafter =>
    subst hafter
    exact ⟨Or.inr hbanned, hfree⟩

/-- Without a release a held key stays with its holder until it is retired. -/
theorem Step.kept_or_retired (hrelease : ¬ verbs.release) (hstep : Step verbs r r')
    (hheld : r.holder k = some a) : r'.holder k = some a ∨ r'.Retired k := by
  cases hstep with
  | bind _ other _ hholder _ hafter =>
    subst hafter
    have hne : k ≠ other := by
      rintro rfl
      rw [hholder] at hheld
      cases hheld
    exact Or.inl (by simp only [Function.update_of_ne hne, hheld])
  | release hverb => exact absurd hverb hrelease
  | revoke _ other _ hafter =>
    subst hafter
    by_cases hsame : k = other
    · right
      simp [Retired, hsame]
    · exact Or.inl (by simp only [Function.update_of_ne hsame, hheld])
  | ban _ other hafter =>
    subst hafter
    exact Or.inl hheld

theorem Steps.sound (hsteps : Steps verbs r r') (hsound : r.Sound) : r'.Sound :=
  reach_invariant Sound (fun _ _ hstep hbefore => hstep.sound hbefore) hsteps hsound

theorem Steps.separated (hban : ¬ verbs.ban) (hsteps : Steps verbs r r')
    (hseparated : r.Separated) : r'.Separated :=
  reach_invariant Separated (fun _ _ hstep hbefore => hstep.separated hban hbefore) hsteps
    hseparated

theorem Steps.retired (hsteps : Steps verbs r r') (hretired : r.Retired k) : r'.Retired k :=
  reach_invariant (Retired · k) (fun _ _ hstep hbefore => hstep.retired hbefore) hsteps hretired

theorem Steps.kept_or_retired (hrelease : ¬ verbs.release) (hsteps : Steps verbs r r')
    (hheld : r.holder k = some a) : r'.holder k = some a ∨ r'.Retired k := by
  apply reach_invariant (fun now => now.holder k = some a ∨ now.Retired k) _ hsteps
  · exact Or.inl hheld
  · rintro now after hstep (hkept | hretired)
    · exact hstep.kept_or_retired hrelease hkept
    · exact Or.inr (hstep.retired hretired)

end Registry

end Substrate
