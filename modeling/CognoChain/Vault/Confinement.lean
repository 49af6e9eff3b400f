import CognoChain.Vault.Spend

/-!
# Where the beacons are

A beacon is confined when the output that holds it is the vault of the owner it
is named after and holds nothing else.  A transaction keeps all beacons
confined unless it mints the beacon of a vault it spends: then the output the
vault goes on in answers for the new beacon too, and the new one goes anywhere.
-/

namespace CognoChain.TalkVault

open Substrate StorageMap

/-- The only token of the value beside ADA, and one of it. -/
def HoldsOnly (value : Value) (policy : PolicyId) (name : AssetName) : Prop :=
  ∀ token ≠ adaPolicyId, ∀ other,
    quantityOf value token other = if token = policy ∧ other = name then 1 else 0

def Confined (script : Script) (policy : PolicyId) (output : Output) : Prop :=
  ∀ name, quantityOf output.value policy name ≠ 0 →
    ∃ owner, script.beaconName owner = name ∧ IsVault script policy owner output ∧
      HoldsOnly output.value policy name

def Utxo.Confined (script : Script) (policy : PolicyId) (utxo : Utxo) : Prop :=
  ∀ ref output, utxo.get ref = some output → TalkVault.Confined script policy output

/-- The transaction mints a beacon of which an input holds one. -/
def Remints (policy : PolicyId) (tx : SignedTx) : Prop :=
  ∃ name, quantityOf tx.body.mint policy name = 1 ∧
    ∃ input ∈ tx.body.inputs, quantityOf input.output.value policy name ≠ 0

section Values

variable {policy : PolicyId} {name : AssetName} {value value' : Value} {token : PolicyId}

theorem quantityOf_withoutLovelace (htoken : token ≠ adaPolicyId) :
    quantityOf (withoutLovelace value) token name = quantityOf value token name := by
  unfold quantityOf tokens withoutLovelace
  rw [getD_remove, if_neg htoken]

theorem quantityOf_congr (h : withoutLovelace value = withoutLovelace value')
    (htoken : token ≠ adaPolicyId) (name : AssetName) :
    quantityOf value token name = quantityOf value' token name := by
  rw [← quantityOf_withoutLovelace htoken, h, quantityOf_withoutLovelace htoken]

theorem HoldsOnly.congr (hholds : HoldsOnly value' policy name)
    (h : withoutLovelace value = withoutLovelace value') : HoldsOnly value policy name := by
  intro token htoken other
  rw [quantityOf_congr h htoken, hholds token htoken]

theorem mem_policies_of_ne_zero (h : quantityOf value token name ≠ 0) :
    token ∈ policies value := by
  by_contra hnone
  rw [policies, mem_keys_iff, Bool.not_eq_true, Option.isSome_eq_false_iff,
    Option.isNone_iff_eq_none] at hnone
  apply h
  rw [quantityOf, tokens, getD_of_get_none hnone, getD_empty]

theorem policies_two (hlength : (policies value).length = 2) (hada : adaPolicyId ∈ policies value)
    (hpolicy : policy ≠ adaPolicyId) (hmem : policy ∈ policies value) (htoken : token ≠ adaPolicyId)
    (hne : token ≠ policy) (other : AssetName) :
    quantityOf value token other = 0 := by
  by_contra hheld
  have htokenMem := mem_policies_of_ne_zero hheld
  have hthree : [adaPolicyId, policy, token].Nodup := by
    simp [hpolicy.symm, htoken.symm, hne.symm]
  have hsub : [adaPolicyId, policy, token] ⊆ policies value := by
    simp [hada, hmem, htokenMem]
  have hle := (hthree.subperm hsub).length_le
  simp [hlength] at hle

end Values

/-! ## One transaction -/

section Step

variable {script : Script} {policy : PolicyId} {dataHash : Data → Bytes} {utxo : Utxo}
  {tx : SignedTx} {name : AssetName} {output : Output} {vault : Input}

theorem Accepts.minted_or_spent (haccepts : Accepts script policy dataHash utxo tx)
    (hpolicy : policy ≠ adaPolicyId) (hmem : output ∈ tx.body.outputs)
    (hholds : quantityOf output.value policy name ≠ 0) :
    1 ≤ held policy name (tx.body.inputs.map Input.output) + quantityOf tx.body.mint policy name := by
  have hpositive := fun other hother => haccepts.positive other hother policy name
  have hle := quantity_le_held hpositive hmem
  have hpos := hpositive output hmem
  have hbalance := haccepts.balanced policy hpolicy name
  omega

section

variable (hinj : Function.Injective script.beaconName)
  (haccepts : Accepts script policy dataHash utxo tx)
include hinj haccepts

theorem Accepts.mintAccount (hmoved : quantityOf tx.body.mint policy name ≠ 0) :
    MintAccount script policy tx.mintRedeemer tx.body :=
  TalkVault.mintAccount hinj (haccepts.mintRuns ⟨name, hmoved⟩)

theorem Accepts.quantityOf_mint (name : AssetName) :
    quantityOf tx.body.mint policy name = 0 ∨ quantityOf tx.body.mint policy name = 1 ∨
      quantityOf tx.body.mint policy name = -1 := by
  by_cases hzero : quantityOf tx.body.mint policy name = 0
  · exact .inl hzero
  · exact (haccepts.mintAccount hinj hzero).quantityOf_cases name

/-- A beacon that no input held and no other output holds is where the mint
handler found it. -/
theorem Accepts.vault_of_minted (hpolicy : policy ≠ adaPolicyId)
    (hinputs : held policy name (tx.body.inputs.map Input.output) = 0)
    (hmem : output ∈ tx.body.outputs) (hholds : quantityOf output.value policy name ≠ 0) :
    ∃ owner, script.beaconName owner = name ∧ IsVault script policy owner output ∧
      (policies output.value).length = 2 ∧ quantityOf output.value policy name = 1 := by
  have hsome := haccepts.minted_or_spent hpolicy hmem hholds
  rw [hinputs, zero_add] at hsome
  have hone : quantityOf tx.body.mint policy name = 1 := by
    rcases haccepts.quantityOf_mint hinj name with h | h | h <;> omega
  obtain ⟨owner, vkh, found, -, hname, hmints⟩ :=
    (haccepts.mintAccount hinj (by omega : quantityOf tx.body.mint policy name ≠ 0)).minted hone
  obtain ⟨hfound, hquantity⟩ := searchForOutputByToken_spec hmints.found
  rw [hname] at hquantity
  have htotal : held policy name tx.body.outputs = 1 := by
    have hbalance := haccepts.balanced policy hpolicy name
    omega
  have hsame : output = found :=
    eq_of_held_one (fun other hother => haccepts.positive other hother policy name) htotal hmem
      hfound hholds (by omega)
  subst hsame
  exact ⟨owner, hname, hmints.vault, hmints.noTrash, hquantity⟩

theorem Accepts.confined_of_no_beacon (hpolicy : policy ≠ adaPolicyId)
    (hinputs : ∀ name, held policy name (tx.body.inputs.map Input.output) = 0)
    (hmem : output ∈ tx.body.outputs) : Confined script policy output := by
  intro name hholds
  obtain ⟨owner, hname, hvault, hpolicies, hquantity⟩ :=
    haccepts.vault_of_minted hinj hpolicy (hinputs name) hmem hholds
  refine ⟨owner, hname, hvault, ?_⟩
  have hada : adaPolicyId ∈ policies output.value := by
    have hfunded := haccepts.funded output hmem
    exact mem_policies_of_ne_zero (show quantityOf output.value adaPolicyId adaAssetName ≠ 0 from
      hfunded.ne')
  intro token htoken other
  by_cases hsame : token = policy
  · subst hsame
    by_cases hother : other = name
    · subst hother
      simpa using hquantity
    · simp only [hother, and_false, if_false]
      by_contra hheld
      -- the datum names one owner, and the owner names one token
      obtain ⟨owner', hname', hvault', -⟩ :=
        haccepts.vault_of_minted hinj hpolicy (hinputs other) hmem hheld
      have hdatum := hvault.datum.symm.trans hvault'.datum
      simp only [Datum.inlineDatum.injEq, Data.vaultDatum.injEq] at hdatum
      rw [← hname, ← hname', hdatum] at hother
      exact hother rfl
  · rw [if_neg (fun h => hsame h.1)]
    exact policies_two hpolicies hada hpolicy (mem_policies_of_ne_zero hholds) htoken hsame other

end

structure SpendsVault (script : Script) (policy : PolicyId) (tx : SignedTx) (owner : Address)
    (vault : Input) : Prop where
  mem : vault ∈ tx.body.inputs
  isVault : IsVault script policy owner vault.output
  holdsOnly : HoldsOnly vault.output.value policy (script.beaconName owner)
  spent : ∀ name, held policy name (tx.body.inputs.map Input.output) =
    if name = script.beaconName owner then 1 else 0
  outcome : (findScriptOutputs tx.body.outputs policy = [] ∧
      Exits script policy owner tx.body) ∨
    ∃ cont, findScriptOutputs tx.body.outputs policy = [cont] ∧
      Continues script policy owner vault.output cont

/-- An input that holds a beacon is a vault, spent on its own. -/
theorem Accepts.spendsVault (haccepts : Accepts script policy dataHash utxo tx)
    (hpolicy : policy ≠ adaPolicyId) (hconfined : utxo.Confined script policy)
    (hmem : vault ∈ tx.body.inputs) (hholds : quantityOf vault.output.value policy name ≠ 0) :
    ∃ owner, script.beaconName owner = name ∧ SpendsVault script policy tx owner vault := by
  obtain ⟨owner, rfl, hvault, honly⟩ :=
    hconfined _ _ (haccepts.resolved vault hmem) name hholds
  have hruns := haccepts.spendRuns vault hmem hvault.payment
  rw [hvault.datum] at hruns
  obtain ⟨vkh, hkey⟩ : ∃ vkh, owner.paymentCredential = .verificationKey vkh := by
    cases hpayment : owner.paymentCredential with
    | verificationKey vkh => exact ⟨vkh, rfl⟩
    | script hash =>
      exfalso
      simp [SignedTx.datumOf, Script.spend, findInput_eq haccepts.distinct hmem, hvault.payment,
        hpayment] at hruns
  have hruns' := (spend_vault_iff (findInput_eq haccepts.distinct hmem) hvault.payment hkey).mp hruns
  obtain ⟨hcount, -, hcontinuation⟩ := hruns'
  refine ⟨owner, rfl, hmem, hvault, honly, ?_, continuationOk_iff.mp hcontinuation⟩
  intro other
  -- only the vault is at the script, and nothing else holds tokens of the policy
  have hzero : ∀ input ∈ tx.body.inputs, input ≠ vault →
      quantityOf input.output.value policy other = 0 := by
    intro input hinput hne
    by_contra hheld
    obtain ⟨owner', -, hvault', -⟩ := hconfined _ _ (haccepts.resolved input hinput) other hheld
    exact hne (eq_of_ownInputCount hcount hmem hinput hvault.payment hvault'.payment)
  obtain ⟨before, after, hsplit⟩ := List.append_of_mem hmem
  have hnodup : (before ++ vault :: after).Nodup := by
    rw [← hsplit]
    exact haccepts.distinct.of_map
  have hrest : ∀ input ∈ before ++ after, quantityOf input.output.value policy other = 0 := by
    intro input hinput
    apply hzero input
    · rw [hsplit]
      rw [List.mem_append] at hinput
      rw [List.mem_append, List.mem_cons]
      exact hinput.imp_right .inr
    · rintro rfl
      exact (List.nodup_cons.mp (List.nodup_middle.mp hnodup)).1 hinput
  have hsum : held policy other (tx.body.inputs.map Input.output) =
      quantityOf vault.output.value policy other +
        held policy other ((before ++ after).map Input.output) := by
    rw [hsplit]
    simp only [held, List.map_append, List.map_cons, List.sum_append, List.sum_cons]
    omega
  rw [hsum, honly policy hpolicy other, held_eq_zero (List.forall_mem_map.mpr hrest),
    add_zero]
  simp

section

variable (hinj : Function.Injective script.beaconName)
  (haccepts : Accepts script policy dataHash utxo tx)
include hinj haccepts

theorem Accepts.found_of_minted (hone : quantityOf tx.body.mint policy name = 1) :
    ∃ found ∈ findScriptOutputs tx.body.outputs policy, quantityOf found.value policy name = 1 := by
  obtain ⟨owner, vkh, found, -, hname, hmints⟩ :=
    (haccepts.mintAccount hinj (by omega : quantityOf tx.body.mint policy name ≠ 0)).minted hone
  obtain ⟨hfound, hquantity⟩ := searchForOutputByToken_spec hmints.found
  rw [hname] at hquantity
  exact ⟨found, List.mem_filter.mpr ⟨hfound, decide_eq_true hmints.vault.payment⟩, hquantity⟩

/-- Minting the beacon of the vault it spends, the transaction sends a unit
away from the script. -/
theorem SpendsVault.escapes (hpolicy : policy ≠ adaPolicyId) {owner : Address}
    (hspends : SpendsVault script policy tx owner vault)
    (hminted : quantityOf tx.body.mint policy (script.beaconName owner) = 1) :
    ∃ output ∈ tx.body.outputs, output.address.paymentCredential ≠ .script policy ∧
      quantityOf output.value policy (script.beaconName owner) ≠ 0 := by
  obtain ⟨found, hfound, -⟩ := haccepts.found_of_minted hinj hminted
  rcases hspends.outcome with ⟨hnone, -⟩ | ⟨cont, hcont, hcontinues⟩
  · rw [hnone] at hfound
    cases hfound
  · have hbalance := haccepts.balanced policy hpolicy (script.beaconName owner)
    rw [hspends.spent, if_pos rfl, hminted, held_split policy, hcont] at hbalance
    have hone : held policy (script.beaconName owner) [cont] = 1 := by
      simp [held, hcontinues.beacon]
    obtain ⟨output, houtput, hholds⟩ := exists_of_held_ne_zero
      (by omega : held policy (script.beaconName owner) (tx.body.outputs.filter
        (fun output => !decide (output.address.paymentCredential = .script policy))) ≠ 0)
    obtain ⟨hmem, haway⟩ := List.mem_filter.mp houtput
    exact ⟨output, hmem, by simpa using haway, hholds⟩

theorem SpendsVault.confined (hpolicy : policy ≠ adaPolicyId) {owner : Address}
    (hspends : SpendsVault script policy tx owner vault)
    (hunminted : quantityOf tx.body.mint policy (script.beaconName owner) ≠ 1)
    (hmem : output ∈ tx.body.outputs) : Confined script policy output := by
  intro name hholds
  have hsome := haccepts.minted_or_spent hpolicy hmem hholds
  rw [hspends.spent] at hsome
  by_cases hbeacon : name = script.beaconName owner
  · subst hbeacon
    rw [if_pos rfl] at hsome
    rcases hspends.outcome with ⟨-, hexits⟩ | ⟨cont, hcont, hcontinues⟩
    · exact absurd (hexits.gone output hmem) hholds
    · have hkept : quantityOf tx.body.mint policy (script.beaconName owner) = 0 := by
        rcases haccepts.quantityOf_mint hinj (script.beaconName owner) with h | h | h <;> omega
      have htotal : held policy (script.beaconName owner) tx.body.outputs = 1 := by
        have hbalance := haccepts.balanced policy hpolicy (script.beaconName owner)
        rw [hspends.spent, if_pos rfl] at hbalance
        omega
      obtain ⟨hcontMem, hcontAt⟩ := List.mem_filter.mp
        (show cont ∈ findScriptOutputs tx.body.outputs policy by simp [hcont])
      have hbeaconOne := hcontinues.beacon
      obtain rfl : output = cont :=
        eq_of_held_one (fun other hother => haccepts.positive other hother policy _) htotal hmem
          hcontMem hholds (by omega)
      exact ⟨owner, rfl, ⟨of_decide_eq_true hcontAt, hcontinues.stake,
        hcontinues.datum.trans hspends.isVault.datum, hcontinues.referenceScript,
        hcontinues.floor⟩, hspends.holdsOnly.congr hcontinues.tokens⟩
  · -- any other beacon would have to be minted into the output the vault goes on in
    exfalso
    rw [if_neg hbeacon] at hsome
    have hminted : quantityOf tx.body.mint policy name = 1 := by
      rcases haccepts.quantityOf_mint hinj name with h | h | h <;> omega
    obtain ⟨found, hfound, hone⟩ := haccepts.found_of_minted hinj hminted
    rcases hspends.outcome with ⟨hnone, -⟩ | ⟨cont, hcont, hcontinues⟩
    · rw [hnone] at hfound
      cases hfound
    · rw [hcont, List.mem_singleton] at hfound
      subst hfound
      rw [quantityOf_congr hcontinues.tokens hpolicy, hspends.holdsOnly policy hpolicy,
        if_neg (fun h => hbeacon h.2)] at hone
      omega

theorem Accepts.confined_iff (hpolicy : policy ≠ adaPolicyId)
    (hconfined : utxo.Confined script policy) :
    (∀ output ∈ tx.body.outputs, Confined script policy output) ↔ ¬ Remints policy tx := by
  constructor
  · rintro houtputs ⟨name, hminted, vault, hmem, hholds⟩
    obtain ⟨owner, rfl, hspends⟩ := haccepts.spendsVault hpolicy hconfined hmem hholds
    obtain ⟨output, houtput, haway, hescaped⟩ := hspends.escapes hinj haccepts hpolicy hminted
    obtain ⟨owner', -, hvault, -⟩ := houtputs output houtput _ hescaped
    exact haway hvault.payment
  · intro hremints output hmem
    by_cases hsome : ∃ name, ∃ input ∈ tx.body.inputs, quantityOf input.output.value policy name ≠ 0
    · obtain ⟨name, vault, hvault, hholds⟩ := hsome
      obtain ⟨owner, rfl, hspends⟩ := haccepts.spendsVault hpolicy hconfined hvault hholds
      refine hspends.confined hinj haccepts hpolicy ?_ hmem
      intro hminted
      exact hremints ⟨_, hminted, vault, hvault, hholds⟩
    · push Not at hsome
      refine haccepts.confined_of_no_beacon hinj hpolicy ?_ hmem
      intro name
      exact held_eq_zero (List.forall_mem_map.mpr (hsome name))

theorem Accepts.apply_confined_iff (hpolicy : policy ≠ adaPolicyId)
    (hconfined : utxo.Confined script policy) :
    (utxo.apply tx).Confined script policy ↔ ¬ Remints policy tx := by
  rw [← haccepts.confined_iff hinj hpolicy hconfined]
  constructor
  · intro hafter output hmem
    obtain ⟨ref, hget⟩ := Utxo.exists_get_apply utxo hmem
    exact hafter ref output hget
  · intro houtputs ref output hget
    rcases Utxo.get_apply hget with hmem | hbefore
    · exact houtputs output hmem
    · exact hconfined ref output hbefore

end

end Step

/-! ## Whole chains -/

/-- From a state without beacons, the beacons stay confined through every chain
of transactions none of which mints a beacon it spends; and the first one that
does lets a beacon out. -/
theorem beacons_confined (script : Script) (policy : PolicyId) (dataHash : Data → Bytes)
    (hinj : Function.Injective script.beaconName) (hpolicy : policy ≠ adaPolicyId) (start : Utxo)
    (hstart : ∀ ref output, start.get ref = some output →
      ∀ name, quantityOf output.value policy name = 0)
    (txs : List SignedTx) (haccepts : Along Utxo.apply (Accepts script policy dataHash) start txs)
    (hremints : ∀ tx ∈ txs, ¬ Remints policy tx) :
    (run Utxo.apply start txs).Confined script policy ∧
      ∀ tx, Accepts script policy dataHash (run Utxo.apply start txs) tx →
        (((run Utxo.apply start txs).apply tx).Confined script policy ↔ ¬ Remints policy tx) := by
  have hconfined : (run Utxo.apply start txs).Confined script policy := by
    induction txs using List.reverseRecOn with
    | nil =>
        intro ref output hget name hholds
        exact absurd (hstart ref output hget name) hholds
    | append_singleton txs tx ih =>
        obtain ⟨hbefore, hlast⟩ := Along.append_iff.mp haccepts
        have hstate := ih hbefore (fun tx htx => hremints tx (List.mem_append_left _ htx))
        rw [run_concat]
        exact (hlast.1.apply_confined_iff hinj hpolicy hstate).mpr
          (hremints tx (List.mem_append_right _ (List.mem_singleton.mpr rfl)))
  exact ⟨hconfined, fun tx htx => htx.apply_confined_iff hinj hpolicy hconfined⟩

def toyStart : Utxo := insert ∅ ([0], 0) (wallet (ada 40))

def toyParks : SignedTx :=
  ownerTx [1] [⟨([0], 0), wallet (ada 40)⟩] [toyVault 15, wallet (ada 24)] [.mint toyOwner] 1

def toyRemints : SignedTx :=
  ownerTx [2] [⟨([1], 0), toyVault 15⟩, ⟨([1], 1), wallet (ada 24)⟩]
    [toyVault 15, wallet (pouch 23 1)] [.mint toyOwner] 1

theorem toyParks_accepted : Accepts Script.toy toyPolicy Data.spell toyStart toyParks := by
  refine ownerTx_accepts ?_ ?_ (by decide +kernel) (by decide +kernel) ?_ (by decide +kernel)
    (by decide +kernel) (by decide +kernel) (by decide +kernel)
  · simp [wallet_ada_plain]
  · simp [toyVault_plain, wallet_ada_plain]
  · intro index
    simp [toyStart, get_insert]

theorem toyRemints_accepted :
    Accepts Script.toy toyPolicy Data.spell (toyStart.apply toyParks) toyRemints := by
  refine ownerTx_accepts ?_ ?_ (by decide +kernel) (by decide +kernel) ?_ (by decide +kernel)
    (by decide +kernel) (by decide +kernel) (by decide +kernel)
  · simp [toyVault_plain, wallet_ada_plain]
  · simp [toyVault_plain, wallet_pouch_plain]
  · intro index
    simp [Utxo.apply, Utxo.spend, Utxo.create, toyParks, ownerTx, toyStart, get_insert,
      get_remove]

theorem toyStart_empty (ref : OutputReference) (output : Output)
    (h : toyStart.get ref = some output) (name : AssetName) :
    quantityOf output.value toyPolicy name = 0 := by
  rw [toyStart, get_insert] at h
  split_ifs at h with href
  · rw [← Option.some.inj h]
    exact quantityOf_ada (by decide) 40 name
  · cases h

theorem beacons_confined_toyParks :
    (run Utxo.apply toyStart [toyParks]).Confined Script.toy toyPolicy ∧
      ((toyStart.apply toyParks).get ([1], 0)).map Output.value = some (pouch 15 1) := by
  refine ⟨(beacons_confined Script.toy toyPolicy Data.spell Address.spell_injective (by decide)
    toyStart toyStart_empty [toyParks] ⟨toyParks_accepted, trivial⟩ ?_).1, by decide +kernel⟩
  intro tx htx
  rw [List.mem_singleton] at htx
  subst htx
  rintro ⟨name, -, input, hinput, hholds⟩
  have hwallet : input = ⟨([0], 0), wallet (ada 40)⟩ := List.mem_singleton.mp hinput
  subst hwallet
  exact hholds (quantityOf_ada (by decide) 40 name)

/-- The second unit of the beacon sits in the owner's wallet. -/
theorem beacon_escapes :
    Function.Injective Script.toy.beaconName ∧
      (∀ ref output, toyStart.get ref = some output →
        ∀ name, quantityOf output.value toyPolicy name = 0) ∧
      Along Utxo.apply (Accepts Script.toy toyPolicy Data.spell) toyStart [toyParks, toyRemints] ∧
      ∃ output, (run Utxo.apply toyStart [toyParks, toyRemints]).get ([2], 1) = some output ∧
        quantityOf output.value toyPolicy toyBeacon = 1 ∧
        output.address.paymentCredential = .verificationKey [1] ∧ output.datum = .noDatum := by
  refine ⟨Address.spell_injective, toyStart_empty, ⟨toyParks_accepted, toyRemints_accepted, trivial⟩,
    wallet (pouch 23 1), by decide +kernel, by decide +kernel, rfl, rfl⟩

end CognoChain.TalkVault
