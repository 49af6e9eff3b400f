import Mathlib.Algebra.Order.Group.Nat
import Mathlib.Tactic

/-!
# Numbers as byte strings

Fixed-width little- and big-endian numbers, and what it means that the values
of an encoding can be told apart with anything following them.
-/

namespace Substrate

def ascii (text : String) : List UInt8 :=
  text.toList.map (fun c => UInt8.ofNat c.toNat)

def leBytes : ℕ → ℕ → List UInt8
  | 0, _ => []
  | width + 1, value => UInt8.ofNat value :: leBytes width (value / 256)

def leVal : List UInt8 → ℕ
  | [] => 0
  | byte :: bytes => byte.toNat + 256 * leVal bytes

def beBytes (width value : ℕ) : List UInt8 := (leBytes width value).reverse

def beVal (bytes : List UInt8) : ℕ := leVal bytes.reverse

section RoundTrip

variable {width value : ℕ} {bytes bytes' : List UInt8}

@[simp] theorem leBytes_length (width value : ℕ) : (leBytes width value).length = width := by
  induction width generalizing value with
  | zero => rfl
  | succ width ih => rw [leBytes, List.length_cons, ih]

@[simp] theorem beBytes_length (width value : ℕ) : (beBytes width value).length = width := by
  rw [beBytes, List.length_reverse, leBytes_length]

theorem leVal_lt (bytes : List UInt8) : leVal bytes < 256 ^ bytes.length := by
  induction bytes with
  | nil => simp [leVal]
  | cons byte bytes ih =>
    have hbyte := byte.toNat_lt
    rw [leVal, List.length_cons, pow_succ]
    omega

theorem beVal_lt (bytes : List UInt8) : beVal bytes < 256 ^ bytes.length := by
  simpa [beVal] using leVal_lt bytes.reverse

theorem leVal_leBytes (hvalue : value < 256 ^ width) : leVal (leBytes width value) = value := by
  induction width generalizing value with
  | zero => rw [leBytes, leVal]; rw [pow_zero] at hvalue; omega
  | succ width ih =>
    have hdiv : value / 256 < 256 ^ width := by
      rw [pow_succ] at hvalue
      exact Nat.div_lt_of_lt_mul (by rwa [Nat.mul_comm])
    rw [leBytes, leVal, ih hdiv, UInt8.toNat_ofNat']
    exact Nat.mod_add_div value 256

theorem leBytes_leVal (bytes : List UInt8) : leBytes bytes.length (leVal bytes) = bytes := by
  induction bytes with
  | nil => rfl
  | cons byte bytes ih =>
    have hbyte := byte.toNat_lt
    have hdiv : (byte.toNat + 256 * leVal bytes) / 256 = leVal bytes := by omega
    have hhead : UInt8.ofNat (byte.toNat + 256 * leVal bytes) = byte := by
      apply UInt8.toNat_inj.mp
      rw [UInt8.toNat_ofNat']
      omega
    rw [List.length_cons, leVal, leBytes, hdiv, ih, hhead]

theorem beVal_beBytes (hvalue : value < 256 ^ width) : beVal (beBytes width value) = value := by
  rw [beVal, beBytes, List.reverse_reverse, leVal_leBytes hvalue]

theorem beBytes_beVal (bytes : List UInt8) : beBytes bytes.length (beVal bytes) = bytes := by
  have hle := leBytes_leVal bytes.reverse
  rw [List.length_reverse] at hle
  rw [beVal, beBytes, hle, List.reverse_reverse]

theorem beVal_inj (hlength : bytes.length = bytes'.length) (h : beVal bytes = beVal bytes') :
    bytes = bytes' := by
  rw [← beBytes_beVal bytes, ← beBytes_beVal bytes', hlength, h]

theorem leVal_concat (low : List UInt8) (byte : UInt8) :
    leVal (low ++ [byte]) = leVal low + 256 ^ low.length * byte.toNat := by
  induction low with
  | nil => simp [leVal]
  | cons least low ih =>
    rw [List.cons_append, leVal, leVal, ih, List.length_cons, pow_succ]
    ring

theorem beVal_cons (byte : UInt8) (rest : List UInt8) :
    beVal (byte :: rest) = beVal rest + 256 ^ rest.length * byte.toNat := by
  rw [beVal, beVal, List.reverse_cons, leVal_concat, List.length_reverse]

theorem leading_lt_iff {base x y : ℕ} (hx : x < base) (hy : y < base) (a b : ℕ) :
    x + base * a < y + base * b ↔ a < b ∨ a = b ∧ x < y := by
  rcases Nat.lt_trichotomy a b with hlt | rfl | hgt
  · have hstep : base * a + base ≤ base * b := by
      rw [← Nat.mul_succ]
      exact Nat.mul_le_mul_left base hlt
    simp only [hlt, true_or, iff_true]
    omega
  · simp
  · have hstep : base * b + base ≤ base * a := by
      rw [← Nat.mul_succ]
      exact Nat.mul_le_mul_left base hgt
    constructor
    · omega
    · rintro (hlt | ⟨rfl, -⟩) <;> omega

theorem lt_iff_beVal_lt (hlength : bytes.length = bytes'.length) :
    bytes < bytes' ↔ beVal bytes < beVal bytes' := by
  induction bytes generalizing bytes' with
  | nil =>
    cases bytes' with
    | nil => simp
    | cons byte' rest' => cases hlength
  | cons byte rest ih =>
    cases bytes' with
    | nil => cases hlength
    | cons byte' rest' =>
      have hrest : rest.length = rest'.length := Nat.succ.inj hlength
      have hlt := beVal_lt rest
      rw [hrest] at hlt
      rw [beVal_cons, beVal_cons, hrest, leading_lt_iff hlt (beVal_lt rest'),
        List.cons_lt_cons_iff, UInt8.lt_iff_toNat_lt, UInt8.toNat_inj]
      exact or_congr_right (and_congr_right (fun _ => ih hrest))

end RoundTrip

/-! ## Self-delimiting encodings -/

/-- Whatever follows, the encoding of one valid value is not the start of the
encoding of another. -/
def Delimits {A : Type*} (valid : A → Prop) (enc : A → List UInt8) : Prop :=
  ∀ ⦃a b rest rest'⦄, valid a → valid b → enc a ++ rest = enc b ++ rest' →
    a = b ∧ rest = rest'

namespace Delimits

variable {A B : Type*} {valid : A → Prop} {enc : A → List UInt8}
  {valid' : B → Prop} {enc' : B → List UInt8}

theorem of_length {width : ℕ} (hlength : ∀ a, valid a → (enc a).length = width)
    (hinj : ∀ a b, valid a → valid b → enc a = enc b → a = b) : Delimits valid enc := by
  intro a b rest rest' ha hb heq
  have hboth := List.append_inj heq ((hlength a ha).trans (hlength b hb).symm)
  exact ⟨hinj a b ha hb hboth.1, hboth.2⟩

theorem leBytes (width : ℕ) : Delimits (fun value => value < 256 ^ width) (leBytes width) :=
  of_length (fun value _ => leBytes_length width value) (fun a b ha hb heq => by
    rw [← leVal_leBytes ha, ← leVal_leBytes hb, heq])

theorem beBytes (width : ℕ) : Delimits (fun value => value < 256 ^ width) (beBytes width) :=
  of_length (fun value _ => beBytes_length width value) (fun a b ha hb heq => by
    rw [← beVal_beBytes ha, ← beVal_beBytes hb, heq])

theorem prod (h : Delimits valid enc) (h' : Delimits valid' enc') :
    Delimits (fun pair : A × B => valid pair.1 ∧ valid' pair.2)
      (fun pair => enc pair.1 ++ enc' pair.2) := by
  rintro ⟨a, b⟩ ⟨c, d⟩ rest rest' hab hcd heq
  rw [List.append_assoc, List.append_assoc] at heq
  obtain ⟨hfirst, hrest⟩ := h hab.1 hcd.1 heq
  obtain ⟨hsecond, hrest⟩ := h' hab.2 hcd.2 hrest
  exact ⟨Prod.ext hfirst hsecond, hrest⟩

theorem flatMap (h : Delimits valid enc) :
    ∀ {l l' : List A} {rest rest' : List UInt8}, (∀ a ∈ l, valid a) → (∀ a ∈ l', valid a) →
      l.length = l'.length → l.flatMap enc ++ rest = l'.flatMap enc ++ rest' →
      l = l' ∧ rest = rest'
  | [], [], rest, rest', _, _, _, heq => ⟨rfl, by simpa using heq⟩
  | a :: l, b :: l', rest, rest', hl, hl', hlength, heq => by
    rw [List.flatMap_cons, List.flatMap_cons, List.append_assoc, List.append_assoc] at heq
    obtain ⟨hhead, htail⟩ := h (hl a (List.mem_cons_self ..)) (hl' b (List.mem_cons_self ..)) heq
    obtain ⟨hsame, hrest⟩ := flatMap h
      (fun x hx => hl x (List.mem_cons_of_mem a hx))
      (fun x hx => hl' x (List.mem_cons_of_mem b hx)) (by simpa using hlength) htail
    exact ⟨by rw [hhead, hsame], hrest⟩

end Delimits

end Substrate
