import CognoChain.Vault.Mint
import CognoChain.Substrate.Run

/-!
# The ledger around the script

What the Cardano ledger does with a transaction, as far as the script relies on
it: inputs are spent once, tokens balance, every output carries some ADA, the
mint handler runs when a token of the policy moves and the spend handler runs
for every input at the script.
-/

namespace CognoChain.TalkVault

open Substrate StorageMap

abbrev Utxo := StorageMap OutputReference Output

/-- A transaction with its id, the datums it supplies and the redeemer of its
mint. -/
structure SignedTx where
  id : Bytes
  body : Transaction
  datums : StorageMap Bytes Data
  mintRedeemer : MintRedeemer

def SignedTx.datumOf (tx : SignedTx) : Datum → Option Data
  | .noDatum => none
  | .datumHash hash => tx.datums.get hash
  | .inlineDatum data => some data

namespace Utxo

def spend (utxo : Utxo) (inputs : List Input) : Utxo :=
  inputs.foldl (fun utxo input => utxo.remove input.outputReference) utxo

def create (utxo : Utxo) (id : Bytes) (first : ℕ) : List Output → Utxo
  | [] => utxo
  | output :: rest => create (utxo.insert (id, first) output) id (first + 1) rest

def apply (utxo : Utxo) (tx : SignedTx) : Utxo :=
  (utxo.spend tx.body.inputs).create tx.id 0 tx.body.outputs

variable {output : Output} {ref : OutputReference} {utxo : Utxo} {outputs : List Output} {first : ℕ}
  {id : Bytes} {tx : SignedTx}

theorem get_spend {inputs : List Input} (h : (utxo.spend inputs).get ref = some output) :
    utxo.get ref = some output := by
  induction inputs generalizing utxo with
  | nil => exact h
  | cons input inputs ih =>
    have hremoved := ih h
    rw [get_remove] at hremoved
    split_ifs at hremoved
    exact hremoved

theorem get_create (h : (utxo.create id first outputs).get ref = some output) :
    output ∈ outputs ∨ utxo.get ref = some output := by
  induction outputs generalizing utxo first with
  | nil => exact .inr h
  | cons next rest ih =>
    rcases ih h with hmem | hget
    · exact .inl (List.mem_cons_of_mem _ hmem)
    · rw [get_insert] at hget
      split_ifs at hget
      · rw [← Option.some.inj hget]
        exact .inl List.mem_cons_self
      · exact .inr hget

theorem get_create_of_lt {index : ℕ} (hindex : index < first) :
    (utxo.create id first outputs).get (id, index) = utxo.get (id, index) := by
  induction outputs generalizing utxo first with
  | nil => rfl
  | cons next rest ih =>
    have hne : (id, index) ≠ (id, first) := by
      simp only [ne_eq, Prod.mk.injEq, true_and]
      omega
    rw [create, ih (by omega), get_insert_of_ne _ _ hne]

theorem exists_get_create (utxo : Utxo) (id : Bytes) (first : ℕ) (hmem : output ∈ outputs) :
    ∃ index, (utxo.create id first outputs).get (id, index) = some output := by
  induction outputs generalizing utxo first with
  | nil => cases hmem
  | cons next rest ih =>
    rcases List.mem_cons.mp hmem with rfl | hrest
    · refine ⟨first, ?_⟩
      rw [create, get_create_of_lt (Nat.lt_succ_self first), get_insert_self]
    · exact ih _ _ hrest

theorem get_apply (h : (utxo.apply tx).get ref = some output) :
    output ∈ tx.body.outputs ∨ utxo.get ref = some output :=
  (get_create h).imp_right get_spend

theorem exists_get_apply (utxo : Utxo) (hmem : output ∈ tx.body.outputs) :
    ∃ ref, (utxo.apply tx).get ref = some output := by
  obtain ⟨index, hget⟩ := exists_get_create (utxo.spend tx.body.inputs) tx.id 0 hmem
  exact ⟨_, hget⟩

end Utxo

def held (policy : PolicyId) (name : AssetName) (outputs : List Output) : ℤ :=
  (outputs.map (fun output => quantityOf output.value policy name)).sum

structure Accepts (script : Script) (policy : PolicyId) (dataHash : Data → Bytes) (utxo : Utxo)
    (tx : SignedTx) : Prop where
  resolved : ∀ input ∈ tx.body.inputs, utxo.get input.outputReference = some input.output
  distinct : (tx.body.inputs.map Input.outputReference).Nodup
  fresh : ∀ index, utxo.get (tx.id, index) = none
  balanced : ∀ token ≠ adaPolicyId, ∀ name,
    held token name (tx.body.inputs.map Input.output) + quantityOf tx.body.mint token name =
      held token name tx.body.outputs
  positive : ∀ output ∈ tx.body.outputs, ∀ token name, 0 ≤ quantityOf output.value token name
  funded : ∀ output ∈ tx.body.outputs, 0 < lovelaceOf output.value
  witnessed : ∀ hash data, tx.datums.get hash = some data → dataHash data = hash
  supplied : ∀ input ∈ tx.body.inputs,
    input.output.address.paymentCredential = .script policy →
    ∀ hash, input.output.datum = .datumHash hash → (tx.datums.get hash).isSome
  mintRuns : (∃ name, quantityOf tx.body.mint policy name ≠ 0) →
    script.mint tx.mintRedeemer policy tx.body = true
  spendRuns : ∀ input ∈ tx.body.inputs,
    input.output.address.paymentCredential = .script policy →
    script.spend (tx.datumOf input.output.datum) input.outputReference tx.body = true

/-! ## Counting tokens -/

section Held

variable {policy : PolicyId} {name : AssetName} {outputs : List Output} {output : Output}

theorem held_eq_zero (hzero : ∀ output ∈ outputs, quantityOf output.value policy name = 0) :
    held policy name outputs = 0 := by
  unfold held
  rw [List.map_congr_left (g := fun _ => 0) hzero]
  simp

theorem exists_of_held_ne_zero (h : held policy name outputs ≠ 0) :
    ∃ output ∈ outputs, quantityOf output.value policy name ≠ 0 := by
  by_contra hnone
  push Not at hnone
  exact h (held_eq_zero hnone)

theorem held_split (hash : Bytes) (outputs : List Output) :
    held policy name outputs =
      held policy name (findScriptOutputs outputs hash) +
        held policy name (outputs.filter
          (fun output => !decide (output.address.paymentCredential = .script hash))) := by
  induction outputs with
  | nil => rfl
  | cons output rest ih =>
    by_cases hat : output.address.paymentCredential = .script hash
    · simp only [held, findScriptOutputs, hat, List.map_cons, List.sum_cons, List.filter_cons,
        decide_true, if_true, Bool.not_true, Bool.false_eq_true, if_false] at ih ⊢
      omega
    · simp only [held, findScriptOutputs, hat, List.map_cons, List.sum_cons, List.filter_cons,
        decide_false, if_true, Bool.not_false, Bool.false_eq_true, if_false] at ih ⊢
      omega

section

variable (hpositive : ∀ output ∈ outputs, 0 ≤ quantityOf output.value policy name)
  {output' : Output}
include hpositive

theorem quantity_le_held (hmem : output ∈ outputs) :
    quantityOf output.value policy name ≤ held policy name outputs := by
  apply List.single_le_sum
  · intro quantity hquantity
    obtain ⟨other, hother, rfl⟩ := List.mem_map.mp hquantity
    exact hpositive other hother
  · exact List.mem_map.mpr ⟨output, hmem, rfl⟩

theorem add_quantity_le_held (hmem : output ∈ outputs) (hmem' : output' ∈ outputs)
    (hne : output ≠ output') :
    quantityOf output.value policy name + quantityOf output'.value policy name ≤
      held policy name outputs := by
  obtain ⟨before, after, rfl⟩ := List.append_of_mem hmem
  have hrest : output' ∈ before ++ after := by
    simpa [hne.symm] using hmem'
  have hsum : held policy name (before ++ output :: after) =
      quantityOf output.value policy name + held policy name (before ++ after) := by
    simp only [held, List.map_append, List.map_cons, List.sum_append, List.sum_cons]
    omega
  have hle := quantity_le_held (fun other hother => hpositive other (by
    rw [List.mem_append] at hother
    rw [List.mem_append, List.mem_cons]
    exact hother.imp_right .inr)) hrest
  omega

theorem eq_of_held_one (hone : held policy name outputs = 1) (hmem : output ∈ outputs)
    (hmem' : output' ∈ outputs) (hholds : quantityOf output.value policy name ≠ 0)
    (hholds' : quantityOf output'.value policy name ≠ 0) : output = output' := by
  by_contra hne
  have hsum := add_quantity_le_held hpositive hmem hmem' hne
  have hpos := hpositive output hmem
  have hpos' := hpositive output' hmem'
  omega

end

end Held

/-! ## Transactions to run examples on -/

section Toy

theorem quantityOf_insert (value : Value) (policy token : PolicyId) (held : StorageMap AssetName ℤ)
    (name : AssetName) :
    quantityOf (value.insert policy held) token name =
      if token = policy then held.getD name 0 else quantityOf value token name := by
  unfold quantityOf tokens
  rw [getD_insert]
  split_ifs <;> rfl

@[simp] theorem quantityOf_empty (token : PolicyId) (name : AssetName) :
    quantityOf ∅ token name = 0 := rfl

def Data.spell : Data → Bytes
  | .vaultDatum owner => 0 :: owner.spell
  | .other raw => 1 :: raw

theorem Data.spell_injective : Function.Injective Data.spell := by
  intro data data' h
  match data, data' with
  | .vaultDatum owner, .vaultDatum owner' =>
    rw [Address.spell_injective (List.cons.inj h).2]
  | .other raw, .other raw' => rw [(List.cons.inj h).2]
  | .vaultDatum owner, .other raw => exact absurd (List.cons.inj h).1 (by decide)
  | .other raw, .vaultDatum owner => exact absurd (List.cons.inj h).1 (by decide)

def wallet (value : Value) : Output := ⟨toyOwner, value, .noDatum, none⟩

def ownerTx (id : Bytes) (inputs : List Input) (outputs : List Output)
    (mintRedeemer : MintRedeemer) (minted : ℤ) : SignedTx where
  id := id
  body :=
    { inputs := inputs
      outputs := outputs
      mint := if mintRedeemer = [] then ∅ else insert ∅ toyPolicy (beacons minted)
      extraSignatories := [[1]] }
  datums := ∅
  mintRedeemer := mintRedeemer

def pouch (lovelace quantity : ℤ) : Value := (ada lovelace).insert toyPolicy (beacons quantity)

variable {token : PolicyId} {lovelace : ℤ} {output : Output}

theorem quantityOf_ada (htoken : token ≠ adaPolicyId) (lovelace : ℤ) (name : AssetName) :
    quantityOf (ada lovelace) token name = 0 := by
  rw [ada, quantityOf_insert, if_neg htoken, quantityOf_empty]

theorem quantityOf_pouch (htoken : token ≠ adaPolicyId) (lovelace quantity : ℤ) (name : AssetName) :
    quantityOf (pouch lovelace quantity) token name =
      if token = toyPolicy ∧ name = toyBeacon then quantity else 0 := by
  rw [pouch, quantityOf_insert, quantityOf_ada htoken]
  by_cases hpolicy : token = toyPolicy
  · simp [hpolicy, beacons, getD_insert]
  · simp [hpolicy]

/-- The output holds ADA, or ADA and beacons, and no datum by hash. -/
structure Plain (output : Output) : Prop where
  value : ∃ lovelace quantity : ℤ, 0 ≤ lovelace ∧ 0 ≤ quantity ∧
    (output.value = ada lovelace ∨ output.value = pouch lovelace quantity)
  datum : ∀ hash, output.datum ≠ .datumHash hash

theorem toyVault_plain (h : 0 ≤ lovelace) : Plain (toyVault lovelace) :=
  ⟨⟨lovelace, 1, h, by norm_num, .inr rfl⟩, fun _ hdatum => by cases hdatum⟩

theorem wallet_ada_plain (h : 0 ≤ lovelace) : Plain (wallet (ada lovelace)) :=
  ⟨⟨lovelace, 0, h, le_refl 0, .inl rfl⟩, fun _ hdatum => by cases hdatum⟩

theorem wallet_pouch_plain {quantity : ℤ} (h : 0 ≤ lovelace) (h' : 0 ≤ quantity) :
    Plain (wallet (pouch lovelace quantity)) :=
  ⟨⟨lovelace, quantity, h, h', .inr rfl⟩, fun _ hdatum => by cases hdatum⟩

theorem Plain.nonneg (h : Plain output) (token : PolicyId) (name : AssetName) :
    0 ≤ quantityOf output.value token name := by
  obtain ⟨lovelace, quantity, hlovelace, hquantity, hvalue | hvalue⟩ := h.value
  · rw [hvalue, ada, quantityOf_insert, getD_insert]
    split_ifs <;> simp [hlovelace]
  · rw [hvalue, pouch, ada, beacons, quantityOf_insert, quantityOf_insert, getD_insert,
      getD_insert]
    split_ifs <;> simp [hlovelace, hquantity]

theorem Plain.quantityOf_of_ne (h : Plain output) (htoken : token ≠ adaPolicyId) {name : AssetName}
    (hne : ¬(token = toyPolicy ∧ name = toyBeacon)) :
    quantityOf output.value token name = 0 := by
  obtain ⟨lovelace, quantity, -, -, hvalue | hvalue⟩ := h.value
  · rw [hvalue, quantityOf_ada htoken]
  · rw [hvalue, quantityOf_pouch htoken, if_neg hne]

theorem quantityOf_ownerTx (id : Bytes) (inputs : List Input) (outputs : List Output)
    (redeemer : MintRedeemer) (minted : ℤ) (token : PolicyId) (name : AssetName) :
    quantityOf (ownerTx id inputs outputs redeemer minted).body.mint token name =
      if redeemer ≠ [] ∧ token = toyPolicy ∧ name = toyBeacon then minted else 0 := by
  by_cases hnone : redeemer = []
  · simp [ownerTx, hnone]
  · simp only [ownerTx, if_neg hnone, quantityOf_insert, beacons, getD_insert,
      getD_empty, quantityOf_empty]
    split_ifs <;> simp_all

theorem ownerTx_accepts {utxo : Utxo} {id : Bytes} {inputs : List Input} {outputs : List Output}
    {redeemer : MintRedeemer} {minted : ℤ} (hinputs : ∀ input ∈ inputs, Plain input.output)
    (houtputs : ∀ output ∈ outputs, Plain output)
    (hresolved : ∀ input ∈ inputs, utxo.get input.outputReference = some input.output)
    (hdistinct : (inputs.map Input.outputReference).Nodup)
    (hfresh : ∀ index, utxo.get (id, index) = none)
    (hbalance : held toyPolicy toyBeacon (inputs.map Input.output) +
      (if redeemer = [] then 0 else minted) = held toyPolicy toyBeacon outputs)
    (hfunded : ∀ output ∈ outputs, 0 < lovelaceOf output.value)
    (hmint : redeemer ≠ [] →
      Script.toy.mint redeemer toyPolicy (ownerTx id inputs outputs redeemer minted).body = true)
    (hspend : ∀ input ∈ inputs, input.output.address.paymentCredential = .script toyPolicy →
      Script.toy.spend ((ownerTx id inputs outputs redeemer minted).datumOf input.output.datum)
        input.outputReference (ownerTx id inputs outputs redeemer minted).body = true) :
    Accepts Script.toy toyPolicy Data.spell utxo (ownerTx id inputs outputs redeemer minted) where
  resolved := hresolved
  distinct := hdistinct
  fresh := hfresh
  balanced := by
    intro token htoken name
    rw [quantityOf_ownerTx]
    by_cases hbeacon : token = toyPolicy ∧ name = toyBeacon
    · obtain ⟨rfl, rfl⟩ := hbeacon
      simpa [ite_not, ownerTx] using hbalance
    · have hin : held token name (inputs.map Input.output) = 0 := by
        apply held_eq_zero
        intro output houtput
        obtain ⟨input, hinput, rfl⟩ := List.mem_map.mp houtput
        exact (hinputs input hinput).quantityOf_of_ne htoken hbeacon
      have hout : held token name outputs = 0 :=
        held_eq_zero (fun output houtput => (houtputs output houtput).quantityOf_of_ne htoken hbeacon)
      have hnone : ¬(redeemer ≠ [] ∧ token = toyPolicy ∧ name = toyBeacon) := fun h => hbeacon h.2
      rw [if_neg hnone]
      exact (congrArg (· + 0) hin).trans hout.symm
  positive := fun output houtput => (houtputs output houtput).nonneg
  funded := hfunded
  witnessed := by
    intro hash data h
    cases h
  supplied := by
    intro input hinput _ hash hdatum
    exact absurd hdatum ((hinputs input hinput).datum hash)
  mintRuns := by
    rintro ⟨name, hname⟩
    apply hmint
    rintro rfl
    exact hname rfl
  spendRuns := hspend

end Toy

end CognoChain.TalkVault
