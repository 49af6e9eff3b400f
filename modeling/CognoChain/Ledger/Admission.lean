import CognoChain.Model.PoolGate
import CognoChain.Ledger.Registers

/-!
# The pool gate and the calls it guards

An unsigned bind or claim is admitted to the pool exactly when executing it
would succeed.  Once it has, its own bind stands in the way of a repeat for as
long as the bind is held.
-/

namespace CognoChain

open Substrate CognoChain.Runtime

inductive UnsignedCall : RuntimeCall → Prop
  | linkIdentitySigned (proof : CoseProof) : UnsignedCall (.gate (.linkIdentitySigned proof))
  | linkStakeSigned (proof : CoseProof) : UnsignedCall (.gate (.linkStakeSigned proof))
  | claimRoleSigned (proof : CoseProof) : UnsignedCall (.roles (.claimRoleSigned proof))

def BindHeld (cfg : Config) (s : Runtime) : RuntimeCall → Prop
  | .gate (.linkIdentitySigned proof) =>
      ∃ account identity, cfg.verifyIdentityProof proof = .ok (account, identity) ∧
        s.gate.pkhOf.get account = some identity
  | .gate (.linkStakeSigned proof) =>
      ∃ account stakeCred nonce, cfg.verifyStakeProof proof = .ok (account, stakeCred, nonce) ∧
        s.gate.stakeCredOf.get account = some stakeCred
  | .roles (.claimRoleSigned proof) =>
      ∃ account role credential nonce,
        cfg.verifyRoleProof proof = .ok (account, role, credential, nonce) ∧
          s.roles.roleClaimOf.get (account, role) = some credential
  | _ => False

def KeepsBind (cfg : Config) (call : RuntimeCall) (s : Runtime) (op : Op) : Prop :=
  BindHeld cfg s call → BindHeld cfg (s.step cfg op) call

theorem exists_ok_guard {ε α : Type} {failed : Prop} [Decidable failed] {e : ε}
    {rest : Except ε α} :
    (∃ a, (if failed then .error e else rest) = .ok a) ↔ ¬ failed ∧ ∃ a, rest = .ok a := by
  by_cases hfailed : failed
  · simp [hfailed]
  · simp [hfailed]

section Gate

variable {cfg : Config} {s s' : Runtime} {call : RuntimeCall}

theorem validateUnsigned_isOk_iff (hunsigned : UnsignedCall call) :
    (∃ valid, s.validateUnsigned cfg call = .ok valid) ↔
      ∃ s', s.dispatch cfg .none call = .ok s' := by
  cases hunsigned with
  | linkIdentitySigned proof =>
    simp only [validateUnsigned, validateGate, dispatch,
      dispatchGate, Runtime.linkIdentitySigned, mapError_eq_ok_iff]
    cases cfg.verifyIdentityProof proof with
    | error e => simp
    | ok proved =>
      simp only [doBind, exists_ok_guard, Bool.or_eq_true, not_or, Except.ok.injEq,
        exists_eq']
      tauto
  | linkStakeSigned proof =>
    simp only [validateUnsigned, validateGate, dispatch,
      dispatchGate, Runtime.linkStakeSigned, mapError_eq_ok_iff]
    cases cfg.verifyStakeProof proof with
    | error e => simp
    | ok proved =>
      simp only [doBindStake, exists_ok_guard, Bool.or_eq_true, decide_eq_true_eq,
        not_or, Except.ok.injEq, exists_eq']
      tauto
  | claimRoleSigned proof =>
    simp only [validateUnsigned, validateRoles, dispatch,
      dispatchRoles, Runtime.claimRoleSigned, mapError_eq_ok_iff]
    cases cfg.verifyRoleProof proof with
    | error e => simp
    | ok proved =>
      simp only [doClaim, exists_ok_guard, Bool.or_eq_true, decide_eq_true_eq,
        not_or, Except.ok.injEq, exists_eq']
      tauto

theorem bindHeld_of_dispatch (hunsigned : UnsignedCall call)
    (hok : s.dispatch cfg .none call = .ok s') : BindHeld cfg s' call := by
  cases hunsigned with
  | linkIdentitySigned proof =>
    have hlink : s.linkIdentitySigned cfg proof = .ok s' := mapError_eq_ok_iff.mp hok
    unfold Runtime.linkIdentitySigned at hlink
    split at hlink
    · cases hlink
    next account identity hverified =>
      obtain ⟨-, -, -, hregister⟩ := doBind_register hlink
      have hbound : s'.gate.pkhOf = s.gate.pkhOf.insert account identity :=
        congrArg (fun r => r.binds.pkhOf) hregister
      exact ⟨account, identity, hverified, by rw [hbound, StorageMap.get_insert_self]⟩
  | linkStakeSigned proof =>
    have hlink : s.linkStakeSigned cfg proof = .ok s' := mapError_eq_ok_iff.mp hok
    unfold Runtime.linkStakeSigned at hlink
    split at hlink
    · cases hlink
    next account stakeCred nonce hverified =>
      obtain ⟨-, -, -, -, hregister⟩ := doBindStake_register hlink
      have hbound : s'.gate.stakeCredOf = s.gate.stakeCredOf.insert account stakeCred :=
        congrArg (fun r => r.binds.stakeCredOf) hregister
      exact ⟨account, stakeCred, nonce, hverified, by rw [hbound, StorageMap.get_insert_self]⟩
  | claimRoleSigned proof =>
    have hclaim : s.claimRoleSigned cfg proof = .ok s' := mapError_eq_ok_iff.mp hok
    unfold Runtime.claimRoleSigned at hclaim
    split at hclaim
    · cases hclaim
    next account role credential nonce hverified =>
      obtain ⟨-, -, -, -, hregister⟩ := doClaim_register hclaim
      have hclaimed : s'.roles.roleClaimOf =
          s.roles.roleClaimOf.insert (account, role) credential :=
        congrArg (fun r => r.roleClaimOf) hregister
      exact ⟨account, role, credential, nonce, hverified,
        by rw [hclaimed, StorageMap.get_insert_self]⟩

theorem BindHeld.rejected (hunsigned : UnsignedCall call) (hheld : BindHeld cfg s call) :
    ∃ rejection, s.validateUnsigned cfg call = .error rejection := by
  cases hunsigned with
  | linkIdentitySigned proof =>
    obtain ⟨account, identity, hverified, hbound⟩ := hheld
    refine ⟨.stale, ?_⟩
    simp [validateUnsigned, validateGate, hverified, hbound]
  | linkStakeSigned proof =>
    obtain ⟨account, stakeCred, nonce, hverified, hbound⟩ := hheld
    simp only [validateUnsigned, validateGate, hverified]
    split_ifs with hunbound hstale
    · exact ⟨_, rfl⟩
    · exact ⟨_, rfl⟩
    · simp [hbound] at hstale
  | claimRoleSigned proof =>
    obtain ⟨account, role, credential, nonce, hverified, hclaimed⟩ := hheld
    simp only [validateUnsigned, validateRoles, hverified]
    split_ifs with hunbound hstale
    · exact ⟨_, rfl⟩
    · exact ⟨_, rfl⟩
    · simp [hclaimed] at hstale

end Gate

/-- The pool admits an unsigned bind or claim exactly when executing it would
succeed, and rejects it again wherever the bind it makes is held, in particular
after any run on from it that does not release the bind. -/
theorem poolGate_mirrors_dispatch (cfg : Config) (s : Runtime) (call : RuntimeCall)
    (hunsigned : UnsignedCall call) :
    ((∃ valid, s.validateUnsigned cfg call = .ok valid) ↔
        ∃ s', s.dispatch cfg .none call = .ok s') ∧
      (∀ t, BindHeld cfg t call → ∃ rejection, t.validateUnsigned cfg call = .error rejection) ∧
      ∀ s', s.dispatch cfg .none call = .ok s' →
        ∀ ops, Along (step cfg) (KeepsBind cfg call) s' ops →
          ∃ rejection, (s'.run cfg ops).validateUnsigned cfg call = .error rejection := by
  refine ⟨validateUnsigned_isOk_iff hunsigned, fun t hheld => hheld.rejected hunsigned, ?_⟩
  intro s' hok ops hkeeps
  have hheld : BindHeld cfg (s'.run cfg ops) call :=
    hkeeps.invariant (fun t => BindHeld cfg t call)
      (fun _ _ hkept hbefore => hkept hbefore) (bindHeld_of_dispatch hunsigned hok)
  exact hheld.rejected hunsigned

theorem poolGate_mirrors_dispatch_firstBind :
    (∃ valid, genesis.validateUnsigned Config.toy
        (.gate (.linkIdentitySigned ⟨[1, 7], []⟩)) = .ok valid) ∧
      ∃ s' rejection,
        genesis.dispatch Config.toy .none (.gate (.linkIdentitySigned ⟨[1, 7], []⟩)) =
          .ok s' ∧
        s'.validateUnsigned Config.toy (.gate (.linkIdentitySigned ⟨[1, 7], []⟩)) =
          .error rejection := by
  obtain ⟨hmirrors, -, hrejected⟩ := poolGate_mirrors_dispatch Config.toy .genesis
    (.gate (.linkIdentitySigned ⟨[1, 7], []⟩)) (.linkIdentitySigned _)
  have hvalid : ∃ valid, genesis.validateUnsigned Config.toy
      (.gate (.linkIdentitySigned ⟨[1, 7], []⟩)) = .ok valid := ⟨_, rfl⟩
  obtain ⟨s', hok⟩ := hmirrors.mp hvalid
  obtain ⟨rejection, hstale⟩ := hrejected s' hok [] trivial
  exact ⟨hvalid, s', rejection, hok, hstale⟩

end CognoChain
