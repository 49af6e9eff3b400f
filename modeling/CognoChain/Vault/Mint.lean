import CognoChain.Model.TalkVault

/-!
# What a mint may do

Every entry of the redeemer accounts for one unit of one name, entries are
distinct and there are as many of them as names moved.  So the entries and the
names correspond, and a name no entry lists is not moved at all.
-/

namespace CognoChain.TalkVault

open Substrate StorageMap

/-- An output at the script's own hash that is the owner's vault. -/
structure IsVault (script : Script) (policy : PolicyId) (owner : Address) (output : Output) :
    Prop where
  payment : output.address.paymentCredential = .script policy
  stake : output.address.stakeCredential = owner.stakeCredential
  datum : output.datum = .inlineDatum (.vaultDatum owner)
  referenceScript : output.referenceScript = none
  floor : script.minLock ≤ lovelaceOf output.value

def Script.entryName (script : Script) : MintTypeRedeemer → AssetName
  | .mint owner => script.beaconName owner
  | .burn name => name

section Search

variable {policy : PolicyId} {name : AssetName} {outputs : List Output} {output : Output}

theorem searchForOutputByToken_spec
    (h : searchForOutputByToken policy name outputs = some output) :
    output ∈ outputs ∧ quantityOf output.value policy name = 1 := by
  induction outputs with
  | nil => cases h
  | cons first rest ih =>
    rw [searchForOutputByToken] at h
    split_ifs at h with hfirst
    · rw [← Option.some.inj h]
      exact ⟨List.mem_cons_self, hfirst⟩
    · obtain ⟨hmem, hone⟩ := ih h
      exact ⟨List.mem_cons_of_mem _ hmem, hone⟩

end Search

section Entries

variable {script : Script} {mint : Value} {policy : PolicyId} {outputs : List Output}
  {signatories : List Bytes} {redeemer : MintRedeemer}

theorem mintedInto_iff {owner : Address} {output : Output} :
    script.mintedInto owner policy output = true ↔
      IsVault script policy owner output ∧ (policies output.value).length = 2 := by
  constructor
  · intro h
    unfold Script.mintedInto at h
    split at h
    next outputHash datumOwner hpayment hdatum =>
      simp only [Bool.and_eq_true, decide_eq_true_eq, Option.isNone_iff_eq_none] at h
      obtain ⟨⟨⟨⟨⟨hhash, hstake⟩, hreference⟩, hpolicies⟩, hfloor⟩, howner⟩ := h
      subst hhash howner
      exact ⟨⟨hpayment, hstake, hdatum, hreference, hfloor⟩, hpolicies⟩
    next => cases h
  · rintro ⟨hvault, hpolicies⟩
    simp [Script.mintedInto, hvault.payment, hvault.stake, hvault.datum, hvault.referenceScript,
      hvault.floor, hpolicies]

structure MintsInto (script : Script) (mint : Value) (policy : PolicyId) (outputs : List Output)
    (signatories : List Bytes) (owner : Address) (vkh : Bytes) (output : Output) : Prop where
  key : owner.paymentCredential = .verificationKey vkh
  signed : vkh ∈ signatories
  found : searchForOutputByToken policy (script.beaconName owner) outputs = some output
  vault : IsVault script policy owner output
  noTrash : (policies output.value).length = 2
  minted : quantityOf mint policy (script.beaconName owner) = 1

theorem validMint_mint_iff {owner : Address} :
    script.validMint mint policy outputs signatories (.mint owner) = true ↔
      ∃ vkh output, MintsInto script mint policy outputs signatories owner vkh output := by
  constructor
  · intro h
    simp only [Script.validMint] at h
    split at h
    next vkh output hkey hfound =>
      simp only [Bool.and_eq_true, decide_eq_true_eq, mintedInto_iff] at h
      obtain ⟨⟨⟨hvault, hpolicies⟩, hsigned⟩, hminted⟩ := h
      exact ⟨vkh, output, hkey, hsigned, hfound, hvault, hpolicies, hminted⟩
    next => cases h
  · rintro ⟨vkh, output, h⟩
    simp [Script.validMint, h.key, h.found, h.signed, h.minted,
      mintedInto_iff.mpr ⟨h.vault, h.noTrash⟩]

theorem mintValidation_iff :
    script.mintValidation mint policy outputs signatories redeemer = true ↔
      ∀ entry ∈ redeemer, script.validMint mint policy outputs signatories entry = true := by
  induction redeemer with
  | nil => simp [Script.mintValidation]
  | cons entry rest ih => simp [Script.mintValidation, ih]

theorem nodup_eraseDups (entries : MintRedeemer) : entries.eraseDups.Nodup := by
  match entries with
  | [] => simp
  | entry :: rest =>
    rw [List.eraseDups_cons, List.nodup_cons]
    constructor
    · simp
    · exact nodup_eraseDups (rest.filter (fun other => !other == entry))
termination_by entries.length
decreasing_by
  exact Nat.lt_succ_of_le (List.length_filter_le _ _)

theorem validMint_quantity {entry : MintTypeRedeemer}
    (h : script.validMint mint policy outputs signatories entry = true) :
    (quantityOf mint policy (script.entryName entry) = 1 ∧ ∃ owner, entry = .mint owner) ∨
      (quantityOf mint policy (script.entryName entry) = -1 ∧ ∃ name, entry = .burn name) := by
  cases entry with
  | mint owner =>
    obtain ⟨vkh, output, hmints⟩ := validMint_mint_iff.mp h
    exact .inl ⟨hmints.minted, owner, rfl⟩
  | burn name => exact .inr ⟨of_decide_eq_true h, name, rfl⟩

theorem entryName_injOn (hinj : Function.Injective script.beaconName) {entry entry' : MintTypeRedeemer}
    (h : script.validMint mint policy outputs signatories entry = true)
    (h' : script.validMint mint policy outputs signatories entry' = true)
    (hname : script.entryName entry = script.entryName entry') : entry = entry' := by
  have hquantity := validMint_quantity h
  have hquantity' := validMint_quantity h'
  rw [hname] at hquantity
  rcases hquantity with ⟨hup, owner, rfl⟩ | ⟨hdown, name, rfl⟩ <;>
    rcases hquantity' with ⟨hup', owner', rfl⟩ | ⟨hdown', name', rfl⟩
  · rw [hinj hname]
  · omega
  · omega
  · rw [show name = name' from hname]

theorem mem_keys_of_quantityOf_ne_zero {value : Value} {name : AssetName}
    (h : quantityOf value policy name ≠ 0) : name ∈ (tokens value policy).keys := by
  rw [mem_keys_iff]
  by_contra hnone
  rw [Bool.not_eq_true, Option.isSome_eq_false_iff, Option.isNone_iff_eq_none] at hnone
  exact h (getD_of_get_none hnone)

end Entries

/-- What an accepted mint did to the names of the policy. -/
structure MintAccount (script : Script) (policy : PolicyId) (redeemer : MintRedeemer)
    (tx : Transaction) : Prop where
  nodup : redeemer.Nodup
  names : (redeemer.map script.entryName).Perm (tokens tx.mint policy).keys
  valid : ∀ entry ∈ redeemer,
    script.validMint tx.mint policy tx.outputs tx.extraSignatories entry = true

theorem mintAccount {script : Script} (hinj : Function.Injective script.beaconName)
    {policy : PolicyId} {redeemer : MintRedeemer} {tx : Transaction}
    (hmint : script.mint redeemer policy tx = true) :
    MintAccount script policy redeemer tx := by
  simp only [Script.mint, Script.mintLengthAndUniqueness, Bool.and_eq_true, decide_eq_true_eq,
    mintValidation_iff] at hmint
  obtain ⟨hvalid, hlength, hunique⟩ := hmint
  have hnodup : redeemer.Nodup := by
    rw [← hunique]
    exact nodup_eraseDups redeemer
  have hnames : (redeemer.map script.entryName).Nodup := by
    apply List.Nodup.map_on _ hnodup
    intro entry hentry entry' hentry' hname
    exact entryName_injOn hinj (hvalid entry hentry) (hvalid entry' hentry') hname
  have hsub : redeemer.map script.entryName ⊆ (tokens tx.mint policy).keys := by
    intro name hname
    obtain ⟨entry, hentry, rfl⟩ := List.mem_map.mp hname
    apply mem_keys_of_quantityOf_ne_zero
    rcases validMint_quantity (hvalid entry hentry) with ⟨hup, -⟩ | ⟨hdown, -⟩
    · omega
    · omega
  -- as many distinct names as the policy has entries: there is no other
  have hcount : (tokens tx.mint policy).keys.length ≤ (redeemer.map script.entryName).length := by
    simp [keys, hlength]
  exact ⟨hnodup, (hnames.subperm hsub).perm_of_length_le hcount, hvalid⟩

namespace MintAccount

variable {script : Script} {policy : PolicyId} {redeemer : MintRedeemer} {tx : Transaction}
  {name : AssetName}

section

variable (haccount : MintAccount script policy redeemer tx)
include haccount

theorem quantityOf_eq_zero (hname : name ∉ redeemer.map script.entryName) :
    quantityOf tx.mint policy name = 0 := by
  by_contra hne
  exact hname (haccount.names.mem_iff.mpr (mem_keys_of_quantityOf_ne_zero hne))

theorem entry_of_ne_zero (hne : quantityOf tx.mint policy name ≠ 0) :
    ∃ entry ∈ redeemer, script.entryName entry = name ∧
      ((quantityOf tx.mint policy name = 1 ∧ ∃ owner, entry = .mint owner) ∨
        (quantityOf tx.mint policy name = -1 ∧ ∃ burned, entry = .burn burned)) := by
  obtain ⟨entry, hentry, rfl⟩ := List.mem_map.mp
    (haccount.names.mem_iff.mpr (mem_keys_of_quantityOf_ne_zero hne))
  exact ⟨entry, hentry, rfl, validMint_quantity (haccount.valid entry hentry)⟩

theorem quantityOf_cases (name : AssetName) :
    quantityOf tx.mint policy name = 0 ∨ quantityOf tx.mint policy name = 1 ∨
      quantityOf tx.mint policy name = -1 := by
  by_cases hzero : quantityOf tx.mint policy name = 0
  · exact .inl hzero
  · obtain ⟨entry, -, -, ⟨hup, -⟩ | ⟨hdown, -⟩⟩ := haccount.entry_of_ne_zero hzero
    · exact .inr (.inl hup)
    · exact .inr (.inr hdown)

theorem minted (hone : quantityOf tx.mint policy name = 1) :
    ∃ owner vkh output, .mint owner ∈ redeemer ∧ script.beaconName owner = name ∧
      MintsInto script tx.mint policy tx.outputs tx.extraSignatories owner vkh output := by
  obtain ⟨entry, hentry, hname, ⟨-, owner, rfl⟩ | ⟨hdown, -⟩⟩ :=
    haccount.entry_of_ne_zero (by omega : quantityOf tx.mint policy name ≠ 0)
  · obtain ⟨vkh, output, hmints⟩ := validMint_mint_iff.mp (haccount.valid _ hentry)
    exact ⟨owner, vkh, output, hentry, hname, hmints⟩
  · omega

end

end MintAccount

theorem mint_sound (script : Script) (hinj : Function.Injective script.beaconName)
    (policy : PolicyId) (redeemer : MintRedeemer) (tx : Transaction)
    (hmint : script.mint redeemer policy tx = true) :
    redeemer.Nodup ∧
    (redeemer.map script.entryName).Perm (tokens tx.mint policy).keys ∧
    (∀ name ∈ (tokens tx.mint policy).keys,
      quantityOf tx.mint policy name = 1 ∨ quantityOf tx.mint policy name = -1) ∧
    (∀ name, quantityOf tx.mint policy name = 1 →
      ∃ owner vkh, .mint owner ∈ redeemer ∧ name = script.beaconName owner ∧
        owner.paymentCredential = .verificationKey vkh ∧ vkh ∈ tx.extraSignatories ∧
        ∃ output ∈ tx.outputs, quantityOf output.value policy name = 1 ∧
          IsVault script policy owner output) ∧
    (∀ name, name ∉ redeemer.map script.entryName → quantityOf tx.mint policy name = 0) ∧
    (∀ owner, .mint owner ∈ redeemer → .burn (script.beaconName owner) ∉ redeemer) ∧
    (∀ name, quantityOf tx.mint policy name ≠ 2) := by
  have haccount := mintAccount hinj hmint
  refine ⟨haccount.nodup, haccount.names, ?_, ?_, fun name => haccount.quantityOf_eq_zero, ?_, ?_⟩
  · intro name hname
    obtain ⟨entry, hentry, rfl⟩ := List.mem_map.mp (haccount.names.mem_iff.mpr hname)
    rcases validMint_quantity (haccount.valid entry hentry) with ⟨hup, -⟩ | ⟨hdown, -⟩
    · exact .inl hup
    · exact .inr hdown
  · intro name hone
    obtain ⟨owner, vkh, output, hentry, rfl, hmints⟩ := haccount.minted hone
    obtain ⟨hmem, hquantity⟩ := searchForOutputByToken_spec hmints.found
    exact ⟨owner, vkh, hentry, rfl, hmints.key, hmints.signed, output, hmem, hquantity,
      hmints.vault⟩
  · intro owner hmints hburns
    have hsame := entryName_injOn hinj (haccount.valid _ hmints) (haccount.valid _ hburns) rfl
    cases hsame
  · intro name htwo
    rcases haccount.quantityOf_cases name with hzero | hup | hdown <;> omega

/-! ## A script to run examples on -/

section Toy

def spellBytes : Bytes → Bytes
  | [] => [0]
  | b :: bytes => 1 :: b :: spellBytes bytes

def spellNat : ℕ → Bytes
  | 0 => [0]
  | n + 1 => 1 :: spellNat n

def Credential.spell : Credential → Bytes
  | .verificationKey hash => 0 :: spellBytes hash
  | .script hash => 1 :: spellBytes hash

def spellStake : Option Referenced → Bytes
  | none => [0]
  | some (.inline credential) => 1 :: credential.spell
  | some (.pointer slot tx cert) => 2 :: (spellNat slot ++ (spellNat tx ++ spellNat cert))

def Address.spell (address : Address) : Bytes :=
  address.paymentCredential.spell ++ spellStake address.stakeCredential

variable {rest rest' : Bytes}

theorem spellBytes_delimits {bytes bytes' : Bytes}
    (h : spellBytes bytes ++ rest = spellBytes bytes' ++ rest') :
    bytes = bytes' ∧ rest = rest' := by
  induction bytes generalizing bytes' with
  | nil =>
    cases bytes' with
    | nil => exact ⟨rfl, by simpa [spellBytes] using h⟩
    | cons b' bytes' => simp [spellBytes] at h
  | cons b bytes ih =>
    cases bytes' with
    | nil => simp [spellBytes] at h
    | cons b' bytes' =>
      simp only [spellBytes, List.cons_append, List.cons.injEq, true_and] at h
      obtain ⟨hrest, hsame⟩ := ih h.2
      rw [h.1, hrest]
      exact ⟨rfl, hsame⟩

theorem spellNat_delimits {n n' : ℕ} (h : spellNat n ++ rest = spellNat n' ++ rest') :
    n = n' ∧ rest = rest' := by
  induction n generalizing n' with
  | zero =>
    cases n' with
    | zero => exact ⟨rfl, by simpa [spellNat] using h⟩
    | succ n' => simp [spellNat] at h
  | succ n ih =>
    cases n' with
    | zero => simp [spellNat] at h
    | succ n' =>
      obtain ⟨hsame, hrest⟩ := ih (List.cons.inj h).2
      exact ⟨congrArg Nat.succ hsame, hrest⟩

theorem Credential.spell_delimits {c c' : Credential} (h : c.spell ++ rest = c'.spell ++ rest') :
    c = c' ∧ rest = rest' := by
  match c, c' with
  | .verificationKey hash, .verificationKey hash' =>
    obtain ⟨hsame, hrest⟩ := spellBytes_delimits (List.cons.inj h).2
    exact ⟨by rw [hsame], hrest⟩
  | .script hash, .script hash' =>
    obtain ⟨hsame, hrest⟩ := spellBytes_delimits (List.cons.inj h).2
    exact ⟨by rw [hsame], hrest⟩
  | .verificationKey hash, .script hash' => exact absurd (List.cons.inj h).1 (by decide)
  | .script hash, .verificationKey hash' => exact absurd (List.cons.inj h).1 (by decide)

theorem spellStake_injective : Function.Injective spellStake := by
  intro stake stake' h
  match stake, stake' with
  | none, none => rfl
  | none, some (.inline _) => simp [spellStake] at h
  | none, some (.pointer _ _ _) => simp [spellStake] at h
  | some (.inline _), none => simp [spellStake] at h
  | some (.pointer _ _ _), none => simp [spellStake] at h
  | some (.inline _), some (.pointer _ _ _) => exact absurd (List.cons.inj h).1 (by decide)
  | some (.pointer _ _ _), some (.inline _) => exact absurd (List.cons.inj h).1 (by decide)
  | some (.inline c), some (.inline c') =>
    have hspell : c.spell ++ [] = c'.spell ++ [] := by rw [(List.cons.inj h).2]
    rw [(Credential.spell_delimits hspell).1]
  | some (.pointer slot tx cert), some (.pointer slot' tx' cert') =>
    obtain ⟨rfl, hrest⟩ := spellNat_delimits (List.cons.inj h).2
    obtain ⟨rfl, hlast⟩ := spellNat_delimits hrest
    have hcert : spellNat cert ++ [] = spellNat cert' ++ [] := by rw [hlast]
    rw [(spellNat_delimits hcert).1]

theorem Address.spell_injective : Function.Injective Address.spell := by
  intro address address' h
  obtain ⟨hpayment, hstake⟩ := Credential.spell_delimits h
  cases address
  cases address'
  exact congrArg₂ Address.mk hpayment (spellStake_injective hstake)

def Script.toy : Script := ⟨10, Address.spell⟩

def toyPolicy : PolicyId := [7]

def toyOwner : Address := ⟨.verificationKey [1], none⟩

def toyBeacon : AssetName := toyOwner.spell

def ada (lovelace : ℤ) : Value :=
  insert ∅ adaPolicyId (insert ∅ adaAssetName lovelace)

def beacons (quantity : ℤ) : StorageMap AssetName ℤ := insert ∅ toyBeacon quantity

def toyVault (lovelace : ℤ) : Output where
  address := ⟨.script toyPolicy, none⟩
  value := (ada lovelace).insert toyPolicy (beacons 1)
  datum := .inlineDatum (.vaultDatum toyOwner)
  referenceScript := none

def toyOpen : Transaction where
  inputs := [⟨([0], 0), ⟨toyOwner, ada 20, .noDatum, none⟩⟩]
  outputs := [toyVault 15]
  mint := insert ∅ toyPolicy (beacons 1)
  extraSignatories := [[1]]

end Toy

theorem mint_sound_toyOpen :
    Script.toy.mint [.mint toyOwner] toyPolicy toyOpen = true ∧
      ∃ owner vkh, .mint owner ∈ [MintTypeRedeemer.mint toyOwner] ∧
        toyBeacon = Script.toy.beaconName owner ∧
        owner.paymentCredential = .verificationKey vkh ∧ vkh ∈ toyOpen.extraSignatories ∧
        ∃ output ∈ toyOpen.outputs, quantityOf output.value toyPolicy toyBeacon = 1 ∧
          IsVault Script.toy toyPolicy owner output := by
  have haccepted : Script.toy.mint [.mint toyOwner] toyPolicy toyOpen = true := by decide +kernel
  obtain ⟨-, -, -, hminted, -⟩ :=
    mint_sound Script.toy Address.spell_injective toyPolicy _ toyOpen haccepted
  exact ⟨haccepted, hminted toyBeacon (by decide +kernel)⟩

end CognoChain.TalkVault
