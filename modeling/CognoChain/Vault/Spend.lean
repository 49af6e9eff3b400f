import CognoChain.Vault.Ledger

/-!
# Vaults over their lifetime

A vault is followed from the output that opens it through every transaction
that spends it.  Each of them is signed by the owner, spends no other output of
the script, and either keeps the vault whole in one output or burns the beacon
and leaves none.  The owner can always take the second way.
-/

namespace CognoChain.TalkVault

open Substrate StorageMap

/-- The output commits to the datum, in place or by its hash. -/
def Output.HasDatum (dataHash : Data → Bytes) (output : Output) (data : Data) : Prop :=
  output.datum = .inlineDatum data ∨ output.datum = .datumHash (dataHash data)

structure VaultOf (policy : PolicyId) (dataHash : Data → Bytes) (owner : Address) (vkh : Bytes)
    (output : Output) : Prop where
  payment : output.address.paymentCredential = .script policy
  datum : output.HasDatum dataHash (.vaultDatum owner)
  key : owner.paymentCredential = .verificationKey vkh

/-- The vault goes on in one output with everything it held. -/
structure Continues (script : Script) (policy : PolicyId) (owner : Address) (vault cont : Output) :
    Prop where
  floor : script.minLock ≤ lovelaceOf cont.value
  lovelace : lovelaceOf vault.value ≤ lovelaceOf cont.value
  datum : cont.datum = vault.datum
  tokens : withoutLovelace cont.value = withoutLovelace vault.value
  beacon : quantityOf cont.value policy (script.beaconName owner) = 1
  stake : cont.address.stakeCredential = owner.stakeCredential
  referenceScript : cont.referenceScript = none

structure Exits (script : Script) (policy : PolicyId) (owner : Address) (body : Transaction) :
    Prop where
  burned : quantityOf body.mint policy (script.beaconName owner) = -1
  gone : ∀ output ∈ body.outputs, quantityOf output.value policy (script.beaconName owner) = 0

section Handler

variable {script : Script} {policy : PolicyId} {owner : Address} {vkh : Bytes} {vault : Input}
  {body : Transaction} {inputs : List Input}

theorem continuationOk_iff :
    script.continuationOk owner policy vault body = true ↔
      (findScriptOutputs body.outputs policy = [] ∧ Exits script policy owner body) ∨
        ∃ cont, findScriptOutputs body.outputs policy = [cont] ∧
          Continues script policy owner vault.output cont := by
  unfold Script.continuationOk
  constructor
  · intro h
    dsimp only at h
    split at h
    next hnone =>
      simp only [Bool.and_eq_true, decide_eq_true_eq, List.all_eq_true] at h
      exact .inl ⟨hnone, h.1, h.2⟩
    next cont hone =>
      simp only [Bool.and_eq_true, decide_eq_true_eq, Option.isNone_iff_eq_none] at h
      obtain ⟨⟨⟨⟨⟨⟨hfloor, hlovelace⟩, hbeacon⟩, htokens⟩, hstake⟩, hreference⟩, hdatum⟩ := h
      exact .inr ⟨cont, hone, hfloor, hlovelace, hdatum, htokens, hbeacon, hstake, hreference⟩
    next => cases h
  · rintro (⟨hnone, hexits⟩ | ⟨cont, hone, hcont⟩)
    · simpa [hnone, hexits.burned] using hexits.gone
    · simp [hone, hcont.floor, hcont.lovelace, hcont.beacon, hcont.tokens, hcont.stake,
        hcont.referenceScript, hcont.datum]

theorem spend_vault_iff (hfound : findInput body.inputs vault.outputReference = some vault)
    (hpayment : vault.output.address.paymentCredential = .script policy)
    (hkey : owner.paymentCredential = .verificationKey vkh) :
    script.spend (some (.vaultDatum owner)) vault.outputReference body = true ↔
      ownInputCount body.inputs policy = 1 ∧ vkh ∈ body.extraSignatories ∧
        script.continuationOk owner policy vault body = true := by
  simp only [Script.spend, hfound, hpayment, hkey, Bool.and_eq_true, decide_eq_true_eq, and_assoc]

theorem findInput_eq (hdistinct : (inputs.map Input.outputReference).Nodup) (hmem : vault ∈ inputs) :
    findInput inputs vault.outputReference = some vault := by
  induction inputs with
  | nil => cases hmem
  | cons first rest ih =>
    obtain ⟨hfresh, hrest⟩ := List.nodup_cons.mp hdistinct
    by_cases hsame : first.outputReference = vault.outputReference
    · rcases List.mem_cons.mp hmem with rfl | hlater
      · simp [findInput]
      · rw [hsame] at hfresh
        exact absurd (List.mem_map.mpr ⟨vault, hlater, rfl⟩) hfresh
    · have hlater : vault ∈ rest := by
        rcases List.mem_cons.mp hmem with rfl | hlater
        · exact absurd rfl hsame
        · exact hlater
      have hnext := ih hrest hlater
      simpa [findInput, hsame] using hnext

theorem eq_of_ownInputCount (hcount : ownInputCount inputs policy = 1) {input : Input}
    (hvault : vault ∈ inputs) (hinput : input ∈ inputs)
    (hpayment : vault.output.address.paymentCredential = .script policy)
    (hpayment' : input.output.address.paymentCredential = .script policy) : input = vault := by
  rw [ownInputCount, List.countP_eq_length_filter, List.length_eq_one_iff] at hcount
  obtain ⟨own, hown⟩ := hcount
  have hat : ∀ i ∈ inputs, i.output.address.paymentCredential = .script policy → i = own := by
    intro i hi hpay
    have hmem : i ∈ inputs.filter
        (fun input => decide (input.output.address.paymentCredential = .script policy)) :=
      List.mem_filter.mpr ⟨hi, decide_eq_true hpay⟩
    rw [hown] at hmem
    exact List.mem_singleton.mp hmem
  rw [hat input hinput hpayment', hat vault hvault hpayment]

theorem ownInputCount_eq_one (hdistinct : (inputs.map Input.outputReference).Nodup)
    (hmem : vault ∈ inputs) (hpayment : vault.output.address.paymentCredential = .script policy)
    (honly : ∀ input ∈ inputs, input.output.address.paymentCredential = .script policy → input = vault) :
    ownInputCount inputs policy = 1 := by
  have hcount : ownInputCount inputs policy = inputs.count vault := by
    unfold ownInputCount List.count
    apply List.countP_congr
    intro input hinput
    simp only [decide_eq_true_eq, beq_iff_eq]
    constructor
    · exact honly input hinput
    · rintro rfl
      exact hpayment
  rw [hcount]
  exact List.count_eq_one_of_mem hdistinct.of_map hmem

end Handler

/-! ## One step -/

structure SafeStep (script : Script) (policy : PolicyId) (owner : Address) (vkh : Bytes)
    (vault : Input) (body : Transaction) : Prop where
  signed : vkh ∈ body.extraSignatories
  alone : ∀ input ∈ body.inputs, input.output.address.paymentCredential = .script policy →
    input = vault
  outcome : (findScriptOutputs body.outputs policy = [] ∧ Exits script policy owner body) ∨
    ∃ cont, findScriptOutputs body.outputs policy = [cont] ∧
      Continues script policy owner vault.output cont

section Step

variable {script : Script} {policy : PolicyId} {dataHash : Data → Bytes} {owner : Address}
  {vkh : Bytes} {vault : Input} {tx : SignedTx} {utxo : Utxo}

section

variable (hhash : Function.Injective dataHash) (haccepts : Accepts script policy dataHash utxo tx)
  (hmem : vault ∈ tx.body.inputs) (hvault : VaultOf policy dataHash owner vkh vault.output)
include hhash haccepts hmem hvault

theorem Accepts.datumOf_eq :
    tx.datumOf vault.output.datum = some (.vaultDatum owner) := by
  rcases hvault.datum with hinline | hhashed
  · rw [hinline]
    rfl
  · obtain ⟨data, hdata⟩ :=
      Option.isSome_iff_exists.mp (haccepts.supplied vault hmem hvault.payment _ hhashed)
    have hsame : data = .vaultDatum owner := hhash (haccepts.witnessed _ _ hdata)
    subst hsame
    rw [hhashed]
    exact hdata

theorem Accepts.safeStep :
    SafeStep script policy owner vkh vault tx.body := by
  have hruns := haccepts.spendRuns vault hmem hvault.payment
  rw [haccepts.datumOf_eq hhash hmem hvault,
    spend_vault_iff (findInput_eq haccepts.distinct hmem) hvault.payment hvault.key] at hruns
  obtain ⟨hcount, hsigned, hcontinuation⟩ := hruns
  refine ⟨hsigned, ?_, continuationOk_iff.mp hcontinuation⟩
  intro input hinput hpayment
  exact eq_of_ownInputCount hcount hmem hinput hvault.payment hpayment

end

theorem SafeStep.vaultOf {body : Transaction} (hsafe : SafeStep script policy owner vkh vault body)
    (hvault : VaultOf policy dataHash owner vkh vault.output) {next : Output}
    (hnext : next ∈ findScriptOutputs body.outputs policy) :
    VaultOf policy dataHash owner vkh next := by
  rcases hsafe.outcome with ⟨hnone, -⟩ | ⟨cont, hone, hcontinues⟩
  · rw [hnone] at hnext
    cases hnext
  · have hpayment := (List.mem_filter.mp hnext).2
    rw [hone, List.mem_singleton] at hnext
    subst hnext
    refine ⟨of_decide_eq_true hpayment, ?_, hvault.key⟩
    unfold Output.HasDatum
    rw [hcontinues.datum]
    exact hvault.datum

end Step

/-! ## The whole chain -/

/-- Each transaction spends the vault next to it, and the next vault is an
output it leaves at the script. -/
structure Follows (script : Script) (policy : PolicyId) (dataHash : Data → Bytes)
    (steps : List (Input × SignedTx)) : Prop where
  accepted : ∀ step ∈ steps, (∃ utxo, Accepts script policy dataHash utxo step.2) ∧
    step.1 ∈ step.2.body.inputs
  linked : steps.IsChain (fun step next =>
    (∃ index, next.1.outputReference = (step.2.id, index) ∧
      step.2.body.outputs[index]? = some next.1.output) ∧
    next.1.output.address.paymentCredential = .script policy)

theorem Follows.vaultOf {script : Script} {policy : PolicyId} {dataHash : Data → Bytes}
    (hhash : Function.Injective dataHash) {owner : Address} {vkh : Bytes}
    {first : Input × SignedTx} {steps : List (Input × SignedTx)}
    (hfollows : Follows script policy dataHash (first :: steps))
    (hvault : VaultOf policy dataHash owner vkh first.1.output) :
    ∀ step ∈ first :: steps, VaultOf policy dataHash owner vkh step.1.output := by
  induction steps generalizing first with
  | nil =>
    intro step hstep
    rw [List.mem_singleton] at hstep
    rwa [hstep]
  | cons next steps ih =>
    obtain ⟨hlink, hlinked⟩ := List.isChain_cons_cons.mp hfollows.linked
    obtain ⟨⟨index, -, hget⟩, hpayment⟩ := hlink
    obtain ⟨⟨utxo, haccepts⟩, hspends⟩ := hfollows.accepted first List.mem_cons_self
    have hnext : next.1.output ∈ findScriptOutputs first.2.body.outputs policy :=
      List.mem_filter.mpr ⟨List.mem_of_getElem? hget, decide_eq_true hpayment⟩
    have hvault' := (haccepts.safeStep hhash hspends hvault).vaultOf hvault hnext
    intro step hstep
    rcases List.mem_cons.mp hstep with rfl | hrest
    · exact hvault
    · refine ih ⟨?_, hlinked⟩ hvault' step hrest
      intro step hstep
      exact hfollows.accepted step (List.mem_cons_of_mem _ hstep)

/-- Every step of a vault's life is safe, and the owner can end it with any
transaction that burns the beacon and keeps nothing at the script. -/
theorem vault_safe_and_reclaimable (script : Script) (policy : PolicyId)
    (dataHash : Data → Bytes) (hhash : Function.Injective dataHash) (owner : Address) (vkh : Bytes) :
    (∀ (first : Input × SignedTx) (steps : List (Input × SignedTx)),
      Follows script policy dataHash (first :: steps) →
      VaultOf policy dataHash owner vkh first.1.output →
      ∀ step ∈ first :: steps, SafeStep script policy owner vkh step.1 step.2.body) ∧
    ∀ (vault : Input) (body : Transaction), VaultOf policy dataHash owner vkh vault.output →
      quantityOf vault.output.value policy (script.beaconName owner) = 1 →
      (body.inputs.map Input.outputReference).Nodup → vault ∈ body.inputs →
      (∀ input ∈ body.inputs, input.output.address.paymentCredential = .script policy →
        input = vault) →
      vkh ∈ body.extraSignatories →
      findScriptOutputs body.outputs policy = [] →
      (∀ output ∈ body.outputs,
        quantityOf output.value policy (script.beaconName owner) = 0) →
      tokens body.mint policy = insert ∅ (script.beaconName owner) (-1) →
      script.mint [.burn (script.beaconName owner)] policy body = true ∧
        script.spend (some (.vaultDatum owner)) vault.outputReference body = true := by
  constructor
  · intro first steps hfollows hvault step hstep
    obtain ⟨⟨utxo, haccepts⟩, hspends⟩ := hfollows.accepted step hstep
    exact haccepts.safeStep hhash hspends (hfollows.vaultOf hhash hvault step hstep)
  · intro vault body hvault _ hdistinct hspends halone hsigned hnone hgone hmint
    have hburned : quantityOf body.mint policy (script.beaconName owner) = -1 := by
      rw [quantityOf, hmint, getD_insert_self]
    constructor
    · have hentries : (tokens body.mint policy).entries.length = 1 := by
        rw [hmint]
        rfl
      simp [Script.mint, Script.mintValidation, Script.validMint, Script.mintLengthAndUniqueness,
        hburned, hentries, List.eraseDups_cons]
    · rw [spend_vault_iff (findInput_eq hdistinct hspends) hvault.payment hvault.key]
      exact ⟨ownInputCount_eq_one hdistinct hspends hvault.payment halone, hsigned,
        continuationOk_iff.mpr (.inl ⟨hnone, hburned, hgone⟩)⟩

def toyTopUp : SignedTx :=
  ownerTx [2] [⟨([1], 0), toyVault 15⟩, ⟨([1], 1), wallet (ada 30)⟩]
    [toyVault 20, wallet (ada 24)] [] 0

def toyExit : SignedTx :=
  ownerTx [3] [⟨([2], 0), toyVault 20⟩] [wallet (ada 19)] [.burn toyBeacon] (-1)

theorem toyTopUp_accepted : Accepts Script.toy toyPolicy Data.spell
    (insert (insert ∅ ([1], 0) (toyVault 15)) ([1], 1) (wallet (ada 30)))
    toyTopUp := by
  refine ownerTx_accepts ?_ ?_ (by decide +kernel) (by decide +kernel) ?_ (by decide +kernel)
    (by decide +kernel) (by decide +kernel) (by decide +kernel)
  · simp [toyVault_plain, wallet_ada_plain]
  · simp [toyVault_plain, wallet_ada_plain]
  · intro index
    simp [get_insert]

theorem toyExit_accepted : Accepts Script.toy toyPolicy Data.spell
    (insert ∅ ([2], 0) (toyVault 20)) toyExit := by
  refine ownerTx_accepts ?_ ?_ (by decide +kernel) (by decide +kernel) ?_ (by decide +kernel)
    (by decide +kernel) (by decide +kernel) (by decide +kernel)
  · simp [toyVault_plain]
  · simp [wallet_ada_plain]
  · intro index
    simp [get_insert]

theorem vault_safe_and_reclaimable_toy :
    (∀ step ∈ [(⟨([1], 0), toyVault 15⟩, toyTopUp), (⟨([2], 0), toyVault 20⟩, toyExit)],
      SafeStep Script.toy toyPolicy toyOwner [1] step.1 step.2.body) ∧
    Script.toy.mint [.burn toyBeacon] toyPolicy toyExit.body = true ∧
      Script.toy.spend (some (.vaultDatum toyOwner)) ([2], 0) toyExit.body = true := by
  have hvault : ∀ lovelace, VaultOf toyPolicy Data.spell toyOwner [1] (toyVault lovelace) :=
    fun lovelace => ⟨rfl, .inl rfl, rfl⟩
  obtain ⟨hsafe, hreclaim⟩ := vault_safe_and_reclaimable Script.toy toyPolicy Data.spell
    Data.spell_injective toyOwner [1]
  constructor
  · refine hsafe _ _ ⟨?_, ?_⟩ (hvault 15)
    · intro step hstep
      simp only [List.mem_cons, List.not_mem_nil, or_false] at hstep
      rcases hstep with rfl | rfl
      · exact ⟨⟨_, toyTopUp_accepted⟩, List.mem_cons_self⟩
      · exact ⟨⟨_, toyExit_accepted⟩, List.mem_cons_self⟩
    · exact .cons_cons ⟨⟨0, rfl, rfl⟩, rfl⟩ (.singleton _)
  · exact hreclaim ⟨([2], 0), toyVault 20⟩ toyExit.body (hvault 20) (by decide +kernel)
      (by decide +kernel) List.mem_cons_self (by decide +kernel) (by decide +kernel)
      (by decide +kernel) (by decide +kernel) (by decide +kernel)

end CognoChain.TalkVault
