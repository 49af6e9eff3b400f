import CognoChain.Substrate.Bytes

/-!
# SCALE encodings

The fixed-width, optional and vector parts of the SCALE codec.  A vector is
preceded by its length in compact form, whose two low bits tell the width it is
written in.
-/

namespace Substrate.Scale

/-- The width of a compact number and the number its bytes spell, which carries
the width in its two low bits. -/
def compactForm (n : ℕ) : ℕ × ℕ :=
  if n < 2 ^ 6 then (1, 4 * n)
  else if n < 2 ^ 14 then (2, 4 * n + 1)
  else if n < 2 ^ 30 then (4, 4 * n + 2)
  else (5, 256 * n + 3)

def compact (n : ℕ) : List UInt8 := leBytes (compactForm n).1 (compactForm n).2

def option {A : Type*} (enc : A → List UInt8) : Option A → List UInt8
  | none => [0]
  | some a => 1 :: enc a

/-- A vector; the codec does not write one longer than a 32-bit length. -/
def vec {A : Type*} (enc : A → List UInt8) (l : List A) : Option (List UInt8) :=
  if l.length < 2 ^ 32 then some (compact l.length ++ l.flatMap enc) else none

/-! ## Nothing encodes two ways -/

theorem leBytes_append_mod {width width' value value' : ℕ} {rest rest' : List UInt8}
    (hwidth : 0 < width) (hwidth' : 0 < width')
    (h : leBytes width value ++ rest = leBytes width' value' ++ rest') :
    value % 256 = value' % 256 := by
  obtain ⟨w, rfl⟩ := Nat.exists_eq_succ_of_ne_zero hwidth.ne'
  obtain ⟨w', rfl⟩ := Nat.exists_eq_succ_of_ne_zero hwidth'.ne'
  have hhead : UInt8.ofNat value = UInt8.ofNat value' := (List.cons.inj h).1
  simpa [UInt8.toNat_ofNat'] using congrArg UInt8.toNat hhead

theorem compactForm_width_pos (n : ℕ) : 0 < (compactForm n).1 := by
  unfold compactForm
  split_ifs <;> simp

theorem compactForm_value_lt {n : ℕ} (hn : n < 2 ^ 32) :
    (compactForm n).2 < 256 ^ (compactForm n).1 := by
  unfold compactForm
  split_ifs <;> simp only <;> omega

/-- The low bits decide the width, and within a width the number. -/
theorem compactForm_inj (n n' : ℕ) (hlow : (compactForm n).2 % 4 = (compactForm n').2 % 4) :
    (compactForm n).1 = (compactForm n').1 ∧ ((compactForm n).2 = (compactForm n').2 → n = n') := by
  unfold compactForm at hlow ⊢
  split_ifs at hlow ⊢
  all_goals
    simp only at hlow ⊢
    first
      | omega
      | exact ⟨trivial, fun hvalue => by omega⟩

theorem compact_delimits : Delimits (fun n => n < 2 ^ 32) compact := by
  intro n n' rest rest' hn hn' heq
  have hlow := leBytes_append_mod (compactForm_width_pos n) (compactForm_width_pos n') heq
  obtain ⟨hwidth, hsame⟩ := compactForm_inj n n' (by omega)
  have hbound := compactForm_value_lt hn'
  unfold compact at heq
  rw [← hwidth] at heq hbound
  obtain ⟨hvalue, hrest⟩ := Delimits.leBytes _ (compactForm_value_lt hn) hbound heq
  exact ⟨hsame hvalue, hrest⟩

variable {A : Type*} {valid : A → Prop} {enc : A → List UInt8}

theorem option_delimits (h : Delimits valid enc) :
    Delimits (fun value : Option A => ∀ a ∈ value, valid a) (option enc) := by
  intro value value' rest rest' hvalid hvalid' heq
  cases value with
  | none =>
    cases value' with
    | none => exact ⟨rfl, (List.cons.inj heq).2⟩
    | some a' => exact absurd (List.cons.inj heq).1 (by decide)
  | some a =>
    cases value' with
    | none => exact absurd (List.cons.inj heq).1 (by decide)
    | some a' =>
      obtain ⟨hsame, hrest⟩ := h (hvalid a rfl) (hvalid' a' rfl) (List.cons.inj heq).2
      exact ⟨by rw [hsame], hrest⟩

theorem vec_inj (h : Delimits valid enc) {l l' : List A} {bytes : List UInt8}
    (hl : ∀ a ∈ l, valid a) (hl' : ∀ a ∈ l', valid a)
    (henc : vec enc l = some bytes) (henc' : vec enc l' = some bytes) : l = l' := by
  unfold vec at henc henc'
  split_ifs at henc henc' with hlength hlength'
  have heq : compact l.length ++ l.flatMap enc = compact l'.length ++ l'.flatMap enc :=
    (Option.some.inj henc).trans (Option.some.inj henc').symm
  obtain ⟨hsame, hitems⟩ := compact_delimits hlength hlength' heq
  have hnothing : l.flatMap enc ++ [] = l'.flatMap enc ++ [] := by rw [hitems]
  exact (h.flatMap hl hl' hsame hnothing).1

end Substrate.Scale
