import CognoChain.Substrate.Reader

/-!
# A strict reader of CBOR

Every length is definite, and a head spends no more bytes on its argument than
it needs.  Which heads count as short enough is a parameter, so that the same
grammar also states well-formedness without that rule.
-/

namespace Substrate.Cbor

open Reader

class ReadError (ε : Type) where
  truncated : ε
  nonCanonical : ε

/-! ## Heads -/

def wideWidth : ℕ → Option ℕ
  | 24 => some 1
  | 25 => some 2
  | 26 => some 4
  | 27 => some 8
  | _ => none

def shortest : ℕ → ℕ
  | 1 => 24
  | 2 => 256
  | 4 => 256 ^ 2
  | _ => 256 ^ 4

/-- How a head may be spelled when an argument of some width has a least value. -/
inductive HeadSpelling (floor : ℕ → ℕ) : ℕ → ℕ → List UInt8 → Prop
  | direct {mt arg : ℕ} (hmt : mt < 8) (harg : arg ≤ 23) :
      HeadSpelling floor mt arg [UInt8.ofNat (32 * mt + arg)]
  | wide {mt arg ai width : ℕ} (hmt : mt < 8) (hform : wideWidth ai = some width)
      (hfloor : floor width ≤ arg) (harg : arg < 256 ^ width) :
      HeadSpelling floor mt arg (UInt8.ofNat (32 * mt + ai) :: beBytes width arg)

def headForm (arg : ℕ) : ℕ × ℕ :=
  if arg ≤ 23 then (arg, 0)
  else if arg < 256 ^ 1 then (24, 1)
  else if arg < 256 ^ 2 then (25, 2)
  else if arg < 256 ^ 4 then (26, 4)
  else (27, 8)

def encodeHead (mt arg : ℕ) : List UInt8 :=
  UInt8.ofNat (32 * mt + (headForm arg).1) :: beBytes (headForm arg).2 arg

section Reads

variable {ε : Type} [ReadError ε]

def take (n : ℕ) : Reader ε (List UInt8) := fun input =>
  if n ≤ input.length then .ok (input.take n, input.drop n) else .error ReadError.truncated

def byte : Reader ε UInt8 := fun input =>
  match input with
  | b :: rest => .ok (b, rest)
  | [] => .error ReadError.truncated

def wide (floor : ℕ → ℕ) (width : ℕ) : Reader ε ℕ := do
  let b ← take width
  require (floor width ≤ beVal b) ReadError.nonCanonical
  pure (beVal b)

def argument (floor : ℕ → ℕ) (ai : ℕ) : Reader ε ℕ :=
  if ai ≤ 23 then pure ai
  else
    match wideWidth ai with
    | some width => wide floor width
    | none => fail ReadError.nonCanonical

def headWith (floor : ℕ → ℕ) : Reader ε (ℕ × ℕ) := do
  let ib ← byte
  let arg ← argument floor (ib.toNat % 32)
  pure (ib.toNat / 32, arg)

def head : Reader ε (ℕ × ℕ) := headWith shortest

def typedHead (want : ℕ) : Reader ε ℕ := do
  let (mt, arg) ← head
  require (mt = want) ReadError.nonCanonical
  pure arg

def uint : Reader ε ℕ := typedHead 0

def arrayLen : Reader ε ℕ := typedHead 4

def mapLen : Reader ε ℕ := typedHead 5

def stringOf (mt max : ℕ) : Reader ε (List UInt8) := do
  let len ← typedHead mt
  require (len ≤ max) ReadError.truncated
  take len

def bytes (max : ℕ) : Reader ε (List UInt8) := stringOf 2 max

def text (max : ℕ) : Reader ε (List UInt8) := stringOf 3 max

def bytesRaw (max : ℕ) : Reader ε (List UInt8 × List UInt8) := spanned (bytes max)

/-- What follows a head, given how to skip an item inside.  A simple value is
all in its head, and which ones there are is a parameter. -/
def skipBody (simple : List UInt8 → Bool) (inner : Reader ε Unit) (h : List UInt8) (mt arg : ℕ) :
    Reader ε Unit :=
  if mt ≤ 1 then pure ()
  else if mt ≤ 3 then do
    let _ ← take arg
    pure ()
  else if mt = 4 then loop (fun _ => inner) arg ()
  else if mt = 5 then loop (fun _ => do inner; inner) arg ()
  else if mt = 6 then inner
  else require (simple h = true) ReadError.nonCanonical

def skip (floor : ℕ → ℕ) (simple : List UInt8 → Bool) : ℕ → Reader ε Unit
  | 0 => fail ReadError.truncated
  | fuel + 1 => do
      let (h, mt, arg) ← spanned (headWith floor)
      skipBody simple (skip floor simple fuel) h mt arg

/-- The fuel is the bytes left: every item takes one at least. -/
def skipItem (floor : ℕ → ℕ) (simple : List UInt8 → Bool) : Reader ε Unit := fun input =>
  skip floor simple input.length input

variable {input rest : List UInt8} {floor : ℕ → ℕ} {ai arg mt : ℕ}

theorem take_ok {n : ℕ} {p : List UInt8} :
    (take n : Reader ε _) input = .ok (p, rest) ↔ p.length = n ∧ input = p ++ rest := by
  unfold take
  split_ifs with hn
  · simp only [Except.ok.injEq, Prod.mk.injEq]
    constructor
    · rintro ⟨rfl, rfl⟩
      exact ⟨List.length_take_of_le hn, (List.take_append_drop n input).symm⟩
    · rintro ⟨rfl, rfl⟩
      exact ⟨List.take_left, List.drop_left⟩
  · simp only [false_iff, not_and]
    rintro rfl rfl
    simp at hn

theorem byte_ok {b : UInt8} :
    (byte : Reader ε _) input = .ok (b, rest) ↔ input = b :: rest := by
  cases input <;> simp [byte]

theorem wide_ok {width v : ℕ} :
    (wide floor width : Reader ε _) input = .ok (v, rest) ↔
      floor width ≤ v ∧ v < 256 ^ width ∧ input = beBytes width v ++ rest := by
  simp only [wide, bind_ok, take_ok, require_ok, pure_ok]
  constructor
  · rintro ⟨p, _, ⟨rfl, rfl⟩, _, _, ⟨hfloor, rfl⟩, rfl, rfl⟩
    exact ⟨hfloor, beVal_lt p, by rw [beBytes_beVal]⟩
  · rintro ⟨hfloor, hwidth, rfl⟩
    have hval := beVal_beBytes hwidth
    exact ⟨_, _, ⟨beBytes_length _ _, rfl⟩, (), rest, ⟨by rwa [hval], rfl⟩, hval, rfl⟩

theorem wideWidth_cases {width : ℕ} (h : wideWidth ai = some width) :
    (ai = 24 ∧ width = 1) ∨ (ai = 25 ∧ width = 2) ∨ (ai = 26 ∧ width = 4) ∨
      (ai = 27 ∧ width = 8) := by
  unfold wideWidth at h
  split at h <;> simp_all

theorem argument_ok :
    (argument floor ai : Reader ε _) input = .ok (arg, rest) ↔
      (ai = arg ∧ arg ≤ 23 ∧ input = rest) ∨
        ∃ width, wideWidth ai = some width ∧ floor width ≤ arg ∧ arg < 256 ^ width ∧
          input = beBytes width arg ++ rest := by
  unfold argument
  split_ifs with hdirect
  · rw [pure_ok]
    constructor
    · rintro ⟨rfl, rfl⟩
      exact .inl ⟨rfl, hdirect, rfl⟩
    · rintro (⟨rfl, -, rfl⟩ | ⟨width, hform, -⟩)
      · exact ⟨rfl, rfl⟩
      · have hcases := wideWidth_cases hform
        omega
  · cases wideWidth ai with
    | none =>
      simp only [fail_ok, false_iff]
      rintro (⟨rfl, hle, -⟩ | ⟨width, hnone, -⟩)
      · exact hdirect hle
      · cases hnone
    | some width =>
      simp only [wide_ok, Option.some.injEq]
      constructor
      · intro hread
        exact .inr ⟨width, rfl, hread⟩
      · rintro (⟨rfl, hle, -⟩ | ⟨_, rfl, hread⟩)
        · exact absurd hle hdirect
        · exact hread

theorem ofNat_major (hmt : mt < 8) (hai : ai < 32) :
    (UInt8.ofNat (32 * mt + ai)).toNat % 32 = ai ∧ (UInt8.ofNat (32 * mt + ai)).toNat / 32 = mt := by
  rw [UInt8.toNat_ofNat']
  omega

theorem headWith_ok :
    (headWith floor : Reader ε _) input = .ok ((mt, arg), rest) ↔
      ∃ h, HeadSpelling floor mt arg h ∧ input = h ++ rest := by
  simp only [headWith, bind_ok, byte_ok, pure_ok, Prod.mk.injEq, argument_ok]
  constructor
  · rintro ⟨ib, _, rfl, _, _, harg, ⟨rfl, rfl⟩, rfl⟩
    have hmt : ib.toNat / 32 < 8 := by
      have hib := ib.toNat_lt
      omega
    have hbyte : UInt8.ofNat (32 * (ib.toNat / 32) + ib.toNat % 32) = ib := by
      rw [Nat.div_add_mod, UInt8.ofNat_toNat]
    rcases harg with ⟨rfl, hle, rfl⟩ | ⟨width, hform, hfloor, hwidth, rfl⟩
    · exact ⟨_, .direct hmt hle, by rw [hbyte]; rfl⟩
    · exact ⟨_, .wide hmt hform hfloor hwidth, by rw [hbyte]; rfl⟩
  · rintro ⟨h, hspells, rfl⟩
    cases hspells with
    | direct hmt harg =>
      obtain ⟨hai, hmajor⟩ := ofNat_major hmt (show arg < 32 by omega)
      exact ⟨_, _, rfl, arg, rest, .inl ⟨hai, harg, rfl⟩, ⟨hmajor, rfl⟩, rfl⟩
    | @wide ai width hmt hform hfloor harg =>
      have hcases := wideWidth_cases hform
      obtain ⟨hai, hmajor⟩ := ofNat_major hmt (show ai < 32 by omega)
      exact ⟨_, _, rfl, arg, rest, .inr ⟨width, by rwa [hai], hfloor, harg, rfl⟩,
        ⟨hmajor, rfl⟩, rfl⟩

/-- Without longer heads than needed there is one head for each argument. -/
theorem headSpelling_shortest {h : List UInt8} :
    HeadSpelling shortest mt arg h ↔ mt < 8 ∧ arg < 2 ^ 64 ∧ h = encodeHead mt arg := by
  constructor
  · intro hspells
    cases hspells with
    | direct hmt harg =>
      refine ⟨hmt, by omega, ?_⟩
      rw [encodeHead, headForm, if_pos harg]
      rfl
    | @wide ai width hmt hform hfloor harg =>
      rcases wideWidth_cases hform with ⟨rfl, rfl⟩ | ⟨rfl, rfl⟩ | ⟨rfl, rfl⟩ | ⟨rfl, rfl⟩
      all_goals
        simp only [shortest] at hfloor
        refine ⟨hmt, by omega, ?_⟩
        unfold encodeHead headForm
        split_ifs <;> first | rfl | omega
  · rintro ⟨hmt, harg, rfl⟩
    unfold encodeHead headForm
    split_ifs
    · exact .direct hmt (by assumption)
    all_goals exact .wide hmt rfl (by simp only [shortest]; omega) (by omega)

theorem head_ok :
    (head : Reader ε _) input = .ok ((mt, arg), rest) ↔
      mt < 8 ∧ arg < 2 ^ 64 ∧ input = encodeHead mt arg ++ rest := by
  simp only [head, headWith_ok, headSpelling_shortest]
  constructor
  · rintro ⟨h, ⟨hmt, harg, rfl⟩, rfl⟩
    exact ⟨hmt, harg, rfl⟩
  · rintro ⟨hmt, harg, rfl⟩
    exact ⟨_, ⟨hmt, harg, rfl⟩, rfl⟩

theorem typedHead_ok {want : ℕ} :
    (typedHead want : Reader ε _) input = .ok (arg, rest) ↔
      want < 8 ∧ arg < 2 ^ 64 ∧ input = encodeHead want arg ++ rest := by
  simp only [typedHead, bind_ok, Prod.exists, head_ok, require_ok, pure_ok]
  constructor
  · rintro ⟨mt, arg', _, hhead, _, _, ⟨rfl, rfl⟩, rfl, rfl⟩
    exact hhead
  · intro hhead
    exact ⟨want, arg, rest, hhead, (), rest, ⟨rfl, rfl⟩, rfl, rfl⟩

@[simp] theorem uint_ok : (uint : Reader ε _) input = .ok (arg, rest) ↔
    arg < 2 ^ 64 ∧ input = encodeHead 0 arg ++ rest := by
  simp [uint, typedHead_ok]

@[simp] theorem arrayLen_ok : (arrayLen : Reader ε _) input = .ok (arg, rest) ↔
    arg < 2 ^ 64 ∧ input = encodeHead 4 arg ++ rest := by
  simp [arrayLen, typedHead_ok]

@[simp] theorem mapLen_ok : (mapLen : Reader ε _) input = .ok (arg, rest) ↔
    arg < 2 ^ 64 ∧ input = encodeHead 5 arg ++ rest := by
  simp [mapLen, typedHead_ok]

end Reads

/-! ## Items -/

def encodeString (mt : ℕ) (content : List UInt8) : List UInt8 :=
  encodeHead mt content.length ++ content

/-- The spellings of an item of definite length. -/
inductive Item (floor : ℕ → ℕ) (simple : List UInt8 → Bool) : List UInt8 → Prop
  | int {mt arg : ℕ} {h : List UInt8} (hmt : mt ≤ 1) (hhead : HeadSpelling floor mt arg h) :
      Item floor simple h
  | string {mt : ℕ} {h content : List UInt8} (hmt : mt = 2 ∨ mt = 3)
      (hhead : HeadSpelling floor mt content.length h) : Item floor simple (h ++ content)
  | array {h : List UInt8} {items : List (List UInt8)}
      (hhead : HeadSpelling floor 4 items.length h)
      (hitems : ∀ item ∈ items, Item floor simple item) : Item floor simple (h ++ items.flatten)
  | map {h : List UInt8} {pairs : List (List UInt8 × List UInt8)}
      (hhead : HeadSpelling floor 5 pairs.length h)
      (hkeys : ∀ pair ∈ pairs, Item floor simple pair.1)
      (hvalues : ∀ pair ∈ pairs, Item floor simple pair.2) :
      Item floor simple (h ++ pairs.flatMap (fun pair => pair.1 ++ pair.2))
  | tag {arg : ℕ} {h item : List UInt8} (hhead : HeadSpelling floor 6 arg h)
      (hitem : Item floor simple item) : Item floor simple (h ++ item)
  | simple {arg : ℕ} {h : List UInt8} (hhead : HeadSpelling floor 7 arg h)
      (hsimple : simple h = true) : Item floor simple h

section Strings

variable {ε : Type} [ReadError ε] {input rest p content : List UInt8} {mt max : ℕ}

theorem stringOf_ok (hmt : mt < 8) (hmax : max < 2 ^ 64) :
    (stringOf mt max : Reader ε _) input = .ok (content, rest) ↔
      content.length ≤ max ∧ input = encodeString mt content ++ rest := by
  simp only [stringOf, bind_ok, typedHead_ok, require_ok, take_ok]
  constructor
  · rintro ⟨len, _, ⟨_, _, rfl⟩, _, _, ⟨hlen, rfl⟩, rfl, rfl⟩
    exact ⟨hlen, by rw [encodeString, List.append_assoc]⟩
  · rintro ⟨hlen, rfl⟩
    exact ⟨content.length, content ++ rest, ⟨hmt, by omega, by rw [encodeString, List.append_assoc]⟩,
      (), _, ⟨hlen, rfl⟩, rfl, rfl⟩

theorem bytes_ok (hmax : max < 2 ^ 64) :
    (bytes max : Reader ε _) input = .ok (content, rest) ↔
      content.length ≤ max ∧ input = encodeString 2 content ++ rest :=
  stringOf_ok (by norm_num) hmax

theorem text_ok (hmax : max < 2 ^ 64) :
    (text max : Reader ε _) input = .ok (content, rest) ↔
      content.length ≤ max ∧ input = encodeString 3 content ++ rest :=
  stringOf_ok (by norm_num) hmax

theorem bytesRaw_ok (hmax : max < 2 ^ 64) :
    (bytesRaw max : Reader ε _) input = .ok ((p, content), rest) ↔
      (content.length ≤ max ∧ p = encodeString 2 content) ∧ input = p ++ rest := by
  refine spanned_ok_of (P := fun content p => content.length ≤ max ∧ p = encodeString 2 content) ?_
  intro content rest
  rw [bytes_ok hmax]
  constructor
  · rintro ⟨hlen, rfl⟩
    exact ⟨_, ⟨hlen, rfl⟩, rfl⟩
  · rintro ⟨_, ⟨hlen, rfl⟩, rfl⟩
    exact ⟨hlen, rfl⟩

end Strings

section Skip

variable {ε : Type} [ReadError ε] {floor : ℕ → ℕ} {simple : List UInt8 → Bool}
  {input rest p : List UInt8} {arg mt fuel : ℕ} {h : List UInt8}

theorem spanned_headWith_ok :
    (spanned (headWith floor) : Reader ε _) input = .ok ((h, mt, arg), rest) ↔
      HeadSpelling floor mt arg h ∧ input = h ++ rest :=
  spanned_ok_of (P := fun (form : ℕ × ℕ) h => HeadSpelling floor form.1 form.2 h) (fun _ _ => headWith_ok)

theorem skip_sound (h : (skip floor simple fuel : Reader ε _) input = .ok ((), rest)) :
    ∃ p, Item floor simple p ∧ input = p ++ rest := by
  induction fuel generalizing input rest with
  | zero => exact absurd h (by simp [skip])
  | succ fuel ih =>
    simp only [skip, bind_ok, Prod.exists, spanned_headWith_ok, skipBody] at h
    obtain ⟨bytes, mt, arg, mid, ⟨hhead, rfl⟩, h⟩ := h
    split_ifs at h with hint hstring harray hmap htag
    · obtain ⟨-, rfl⟩ := pure_ok.mp h
      exact ⟨_, .int hint hhead, rfl⟩
    · simp only [bind_ok, take_ok, pure_ok, true_and] at h
      obtain ⟨content, _, ⟨rfl, rfl⟩, rfl⟩ := h
      exact ⟨_, .string (by omega) hhead, by rw [List.append_assoc]⟩
    · subst harray
      obtain ⟨items, rfl, hitems, -, rfl⟩ := loop_sound id (Item floor simple)
        (fun _ _ => some ())
        (fun _ _ _ _ hread => (ih hread).imp (fun _ hp => ⟨hp.1, rfl, hp.2⟩)) h
      exact ⟨_, .array hhead hitems, by rw [List.flatMap_id, List.append_assoc]⟩
    · subst hmap
      obtain ⟨pairs, rfl, hpairs, -, rfl⟩ := loop_sound
        (fun pair : List UInt8 × List UInt8 => pair.1 ++ pair.2)
        (fun pair => Item floor simple pair.1 ∧ Item floor simple pair.2) (fun _ _ => some ())
        (fun _ _ _ _ hread => by
          obtain ⟨_, _, hfirst, hsecond⟩ := bind_ok.mp hread
          obtain ⟨key, hkey, rfl⟩ := ih hfirst
          obtain ⟨value, hvalue, rfl⟩ := ih hsecond
          exact ⟨(key, value), ⟨hkey, hvalue⟩, rfl, by rw [List.append_assoc]⟩) h
      exact ⟨_, .map hhead (fun pair hpair => (hpairs pair hpair).1)
        (fun pair hpair => (hpairs pair hpair).2), by rw [List.append_assoc]⟩
    · subst htag
      obtain ⟨item, hitem, rfl⟩ := ih h
      exact ⟨_, .tag hhead hitem, by rw [List.append_assoc]⟩
    · obtain ⟨hsimple, rfl⟩ := require_ok.mp h
      obtain rfl : mt = 7 := by
        have hmt : mt < 8 := by cases hhead <;> assumption
        omega
      exact ⟨_, .simple hhead hsimple, rfl⟩

theorem HeadSpelling.length_pos (hh : HeadSpelling floor mt arg h) :
    0 < h.length := by
  cases hh <;> simp

theorem skip_of_body (hhead : HeadSpelling floor mt arg h) (hfuel : 0 < fuel)
    (hbody : (skipBody simple (skip floor simple (fuel - 1)) h mt arg : Reader ε _) input = .ok ((), rest)) :
    (skip floor simple fuel : Reader ε _) (h ++ input) = .ok ((), rest) := by
  cases fuel with
  | zero => omega
  | succ fuel =>
    exact bind_ok.mpr ⟨(h, mt, arg), input, spanned_headWith_ok.mpr ⟨hhead, rfl⟩, hbody⟩

theorem length_le_of_mem {E : Type} (enc : E → List UInt8) {es : List E} {e : E}
    (he : e ∈ es) : (enc e).length ≤ (es.flatMap enc).length :=
  (List.sublist_flatten_of_mem (List.mem_map_of_mem he)).length_le

/-- Inside an item there is at least the byte of its head less to skip. -/
theorem skip_complete (hp : Item floor simple p) (hfuel : p.length ≤ fuel) :
    (skip floor simple fuel : Reader ε _) (p ++ rest) = .ok ((), rest) := by
  induction hp generalizing fuel rest with
  | int hmt hhead =>
    apply skip_of_body hhead (hhead.length_pos.trans_le hfuel)
    rw [skipBody, if_pos hmt, pure_ok]
    exact ⟨rfl, rfl⟩
  | @string mt h content hmt hhead =>
    have hpos := hhead.length_pos
    rw [List.length_append] at hfuel
    rw [List.append_assoc]
    apply skip_of_body hhead (by omega)
    rw [skipBody, if_neg (by omega), if_pos (by omega), bind_ok]
    exact ⟨content, rest, take_ok.mpr ⟨rfl, rfl⟩, pure_ok.mpr ⟨rfl, rfl⟩⟩
  | @array h items hhead hitems ih =>
    have hpos := hhead.length_pos
    rw [← List.flatMap_id, List.length_append] at hfuel
    rw [← List.flatMap_id, List.append_assoc]
    apply skip_of_body hhead (by omega)
    apply loop_complete id (fun _ _ => some ()) _ (foldlM_some (fun _ _ => ()) items ())
    intro item hitem _ _ rest _
    have hlong := length_le_of_mem id hitem
    exact ih item hitem (by rw [id] at hlong; omega)
  | @map h pairs hhead hkeys hvalues ihkeys ihvalues =>
    have hpos := hhead.length_pos
    rw [List.length_append] at hfuel
    rw [List.append_assoc]
    apply skip_of_body hhead (by omega)
    apply loop_complete (fun pair : List UInt8 × List UInt8 => pair.1 ++ pair.2)
      (fun _ _ => some ()) _ (foldlM_some (fun _ _ => ()) pairs ())
    intro pair hpair _ _ rest _
    have hlong := length_le_of_mem (fun pair : List UInt8 × List UInt8 => pair.1 ++ pair.2) hpair
    rw [List.length_append] at hlong
    rw [List.append_assoc]
    exact bind_ok.mpr ⟨(), _, ihkeys pair hpair (by omega), ihvalues pair hpair (by omega)⟩
  | tag hhead hitem ih =>
    have hpos := hhead.length_pos
    rw [List.length_append] at hfuel
    rw [List.append_assoc]
    apply skip_of_body hhead (by omega)
    exact ih (by omega)
  | simple hhead hsimple =>
    apply skip_of_body hhead (hhead.length_pos.trans_le hfuel)
    exact require_ok.mpr ⟨hsimple, rfl⟩

theorem skipItem_ok : (skipItem floor simple : Reader ε _) input = .ok ((), rest) ↔
    ∃ p, Item floor simple p ∧ input = p ++ rest := by
  constructor
  · exact skip_sound
  · rintro ⟨p, hp, rfl⟩
    exact skip_complete hp (by simp)

theorem skipItem_spanned :
    (spanned (skipItem floor simple) : Reader ε _) input = .ok ((p, ()), rest) ↔
      Item floor simple p ∧ input = p ++ rest :=
  spanned_ok_of (P := fun _ p => Item floor simple p) (fun _ _ => skipItem_ok)

end Skip

/-! ## One reading only -/

section Unique

variable {floor : ℕ → ℕ} {simple : List UInt8 → Bool} {mt mt' arg arg' : ℕ}
  {h h' p p' rest rest' : List UInt8}

instance : ReadError Unit := ⟨(), ()⟩

theorem Item.prefix_unique (hp : Item floor simple p) (hp' : Item floor simple p')
    (heq : p ++ rest = p' ++ rest') : p = p' ∧ rest = rest' := by
  have hread : (skipItem floor simple : Reader Unit _) (p ++ rest) = .ok ((), rest) :=
    skipItem_ok.mpr ⟨p, hp, rfl⟩
  have hread' : (skipItem floor simple : Reader Unit _) (p' ++ rest') = .ok ((), rest') :=
    skipItem_ok.mpr ⟨p', hp', rfl⟩
  rw [heq, hread'] at hread
  have hrest : rest = rest' := (congrArg Prod.snd (Except.ok.inj hread)).symm
  subst hrest
  exact ⟨List.append_cancel_right heq, rfl⟩

theorem HeadSpelling.unique (hh : HeadSpelling floor mt arg h) (hh' : HeadSpelling floor mt' arg' h')
    (heq : h ++ rest = h' ++ rest') : mt = mt' ∧ arg = arg' ∧ rest = rest' := by
  have hread : (headWith floor : Reader Unit _) (h ++ rest) = .ok ((mt, arg), rest) :=
    headWith_ok.mpr ⟨h, hh, rfl⟩
  have hread' : (headWith floor : Reader Unit _) (h' ++ rest') = .ok ((mt', arg'), rest') :=
    headWith_ok.mpr ⟨h', hh', rfl⟩
  rw [heq, hread'] at hread
  simpa [eq_comm, and_assoc] using Except.ok.inj hread

theorem Item.array_inv {n : ℕ} (hhead : HeadSpelling floor 4 n h)
    (hitem : Item floor simple (h ++ rest)) :
    ∃ items : List (List UInt8), items.length = n ∧ (∀ item ∈ items, Item floor simple item) ∧
      rest = items.flatten := by
  generalize hp : h ++ rest = p at hitem
  -- only one constructor spells its head with this major type
  cases hitem with
  | int hmt hh =>
    rw [← List.append_nil p] at hp
    have hsame := (hhead.unique hh hp).1
    omega
  | string hmt hh =>
    have hsame := (hhead.unique hh hp).1
    omega
  | @array _ items hh hitems =>
    obtain ⟨-, hsame, rfl⟩ := hhead.unique hh hp
    exact ⟨items, hsame.symm, hitems, rfl⟩
  | map hh => exact absurd (hhead.unique hh hp).1 (by norm_num)
  | tag hh => exact absurd (hhead.unique hh hp).1 (by norm_num)
  | simple hh =>
    rw [← List.append_nil p] at hp
    exact absurd (hhead.unique hh hp).1 (by norm_num)

/-- Items read one after another off an array are the array's first items. -/
theorem Item.prefix_of_flatten {ps items : List (List UInt8)} (hps : ∀ q ∈ ps, Item floor simple q)
    (hitems : ∀ item ∈ items, Item floor simple item) (hlength : ps.length ≤ items.length)
    (heq : ps.flatten ++ rest = items.flatten) : ps <+: items := by
  induction ps generalizing items with
  | nil => exact List.nil_prefix
  | cons q ps ih =>
    cases items with
    | nil => exact absurd hlength (by simp)
    | cons item items =>
      rw [List.flatten_cons, List.flatten_cons, List.append_assoc] at heq
      obtain ⟨rfl, hrest⟩ := Item.prefix_unique (hps q (List.mem_cons_self ..))
        (hitems item (List.mem_cons_self ..)) heq
      refine (List.prefix_cons_inj q).mpr (ih ?_ ?_ (by simpa using hlength) hrest)
      · exact fun p hp => hps p (List.mem_cons_of_mem q hp)
      · exact fun p hp => hitems p (List.mem_cons_of_mem q hp)

end Unique

/-! ## Arrays and maps as data -/

/-- The byte string is one item, whatever simple values it holds. -/
abbrev IsItem (p : List UInt8) : Prop := Item shortest (fun _ => true) p

structure IsArray (p : List UInt8) (items : List (List UInt8)) : Prop where
  length : items.length < 2 ^ 64
  isItem : ∀ item ∈ items, IsItem item
  bytes : p = encodeHead 4 items.length ++ items.flatten

structure IsMap (p : List UInt8) (pairs : List (List UInt8 × List UInt8)) : Prop where
  length : pairs.length < 2 ^ 64
  keys : ∀ pair ∈ pairs, IsItem pair.1
  values : ∀ pair ∈ pairs, IsItem pair.2
  bytes : p = encodeHead 5 pairs.length ++ pairs.flatMap (fun pair => pair.1 ++ pair.2)

section Data

variable {mt arg arg' : ℕ} {p rest rest' content content' : List UInt8}
  {items items' : List (List UInt8)} {pairs pairs' : List (List UInt8 × List UInt8)}

theorem encodeHead_unique (hmt : mt < 8) (harg : arg < 2 ^ 64) (harg' : arg' < 2 ^ 64)
    (heq : encodeHead mt arg ++ rest = encodeHead mt arg' ++ rest') :
    arg = arg' ∧ rest = rest' :=
  (HeadSpelling.unique (headSpelling_shortest.mpr ⟨hmt, harg, rfl⟩)
    (headSpelling_shortest.mpr ⟨hmt, harg', rfl⟩) heq).2

theorem isItem_encodeString (hmt : mt = 2 ∨ mt = 3) (hlength : content.length < 2 ^ 64) :
    IsItem (encodeString mt content) :=
  .string hmt (headSpelling_shortest.mpr ⟨by omega, hlength, rfl⟩)

theorem isItem_encodeHead (hmt : mt ≤ 1) (harg : arg < 2 ^ 64) : IsItem (encodeHead mt arg) :=
  .int hmt (headSpelling_shortest.mpr ⟨by omega, harg, rfl⟩)

theorem encodeString_inj (hmt : mt < 8) (hlength : content.length < 2 ^ 64)
    (hlength' : content'.length < 2 ^ 64) (heq : encodeString mt content = encodeString mt content') :
    content = content' :=
  (encodeHead_unique hmt hlength hlength' heq).2

theorem eq_of_flatten_eq (hitems : ∀ item ∈ items, IsItem item)
    (hitems' : ∀ item ∈ items', IsItem item) (hlength : items.length = items'.length)
    (heq : items.flatten = items'.flatten) : items = items' :=
  (Item.prefix_of_flatten hitems hitems' hlength.le
    (by rw [heq, List.append_nil])).eq_of_length hlength

theorem IsArray.unique (h : IsArray p items) (h' : IsArray p items') : items = items' := by
  obtain ⟨hlength, hflatten⟩ :=
    encodeHead_unique (show 4 < 8 by norm_num) h.length h'.length (h.bytes.symm.trans h'.bytes)
  exact eq_of_flatten_eq h.isItem h'.isItem hlength hflatten

theorem IsMap.isItem (h : IsMap p pairs) : IsItem p := by
  rw [h.bytes]
  exact .map (headSpelling_shortest.mpr ⟨by norm_num, h.length, rfl⟩) h.keys h.values

theorem flatMap_pair_inj
    (heq : pairs.flatMap (fun pair => [pair.1, pair.2]) =
      pairs'.flatMap (fun pair => [pair.1, pair.2])) : pairs = pairs' := by
  induction pairs generalizing pairs' with
  | nil =>
    cases pairs' with
    | nil => rfl
    | cons pair' pairs' => simp at heq
  | cons pair pairs ih =>
    cases pairs' with
    | nil => simp at heq
    | cons pair' pairs' =>
      simp only [List.flatMap_cons, List.cons_append, List.nil_append, List.cons.injEq] at heq
      obtain ⟨hkey, hvalue, hrest⟩ := heq
      rw [ih hrest, Prod.ext hkey hvalue]

theorem IsMap.unique (h : IsMap p pairs) (h' : IsMap p pairs') : pairs = pairs' := by
  obtain ⟨hlength, hbytes⟩ :=
    encodeHead_unique (show 5 < 8 by norm_num) h.length h'.length (h.bytes.symm.trans h'.bytes)
  have hflat : ∀ pairs : List (List UInt8 × List UInt8),
      (pairs.flatMap (fun pair => [pair.1, pair.2])).flatten =
        pairs.flatMap (fun pair => pair.1 ++ pair.2) := by
    intro pairs
    induction pairs with
    | nil => rfl
    | cons pair pairs ih => simp [ih]
  have hitems : ∀ {q : List UInt8} {pairs : List (List UInt8 × List UInt8)}, IsMap q pairs →
      ∀ item ∈ pairs.flatMap (fun pair => [pair.1, pair.2]), IsItem item := by
    intro q pairs hmap item hitem
    obtain ⟨pair, hpair, hmem⟩ := List.mem_flatMap.mp hitem
    rcases List.mem_pair.mp hmem with rfl | rfl
    · exact hmap.keys pair hpair
    · exact hmap.values pair hpair
  apply flatMap_pair_inj
  apply eq_of_flatten_eq (hitems h) (hitems h')
  · simp [hlength]
  · rw [hflat, hflat, hbytes]

end Data

/-! ## Maps with typed entries -/

structure Spelling (E : Type) where
  key : E → List UInt8
  value : E → List UInt8
  valid : E → Prop

namespace Spelling

variable {E β ε : Type} [ReadError ε]

def entry (spelling : Spelling E) (e : E) : List UInt8 := spelling.key e ++ spelling.value e

structure Spells (spelling : Spelling E) (es : List E) (p : List UInt8) : Prop where
  length : es.length < 2 ^ 64
  valid : ∀ e ∈ es, spelling.valid e
  bytes : p = encodeHead 5 es.length ++ es.flatMap spelling.entry

variable {spelling : Spelling E} {es : List E} {p input rest : List UInt8}

def pairs (spelling : Spelling E) (es : List E) : List (List UInt8 × List UInt8) :=
  es.map (fun e => (spelling.key e, spelling.value e))

section

variable (h : spelling.Spells es p)
  (hitems : ∀ e, spelling.valid e → IsItem (spelling.key e) ∧ IsItem (spelling.value e))
include h hitems

theorem Spells.isMap :
    IsMap p (spelling.pairs es) where
  length := by simpa [pairs] using h.length
  keys := by
    intro pair hpair
    obtain ⟨e, he, rfl⟩ := List.mem_map.mp hpair
    exact (hitems e (h.valid e he)).1
  values := by
    intro pair hpair
    obtain ⟨e, he, rfl⟩ := List.mem_map.mp hpair
    exact (hitems e (h.valid e he)).2
  bytes := by
    rw [h.bytes, pairs, List.length_map, List.flatMap_map]
    rfl

theorem Spells.item :
    IsItem p :=
  (h.isMap hitems).isItem

end

theorem pairs_keys (spelling : Spelling E) (es : List E) :
    (spelling.pairs es).map Prod.fst = es.map spelling.key := by
  simp [pairs]

theorem count_key {V : Type} (f : E → Option V) (label : List UInt8)
    (hf : ∀ e, spelling.key e = label ↔ (f e).isSome) (es : List E) :
    (es.map spelling.key).count label = (es.filterMap f).length := by
  induction es with
  | nil => rfl
  | cons e es ih =>
    rw [List.map_cons, List.count_cons, ih]
    cases hread : f e with
    | none =>
      have hne : spelling.key e ≠ label := by simp [hf e, hread]
      simp [hread, hne]
    | some v =>
      have heq : spelling.key e = label := by simp [hf e, hread]
      simp [hread, heq]

/-- A successful step takes the spelling of an entry and updates by the entry. -/
def Reads (spelling : Spelling E) (upd : β → E → Option β) (step : β → Reader ε β) : Prop :=
  ∀ acc input acc' rest, step acc input = .ok (acc', rest) →
    ∃ e, spelling.valid e ∧ upd acc e = some acc' ∧ input = spelling.entry e ++ rest

section Loop

variable {step : β → Reader ε β} {acc acc' : β} {n : ℕ} {mid : List UInt8}

theorem map_sound {upd : β → E → Option β} (hstep : spelling.Reads upd step)
    (hlen : (mapLen : Reader ε _) input = .ok (n, mid))
    (hloop : loop step n acc mid = .ok (acc', rest)) :
    ∃ es p, spelling.Spells es p ∧ es.foldlM upd acc = some acc' ∧ input = p ++ rest := by
  obtain ⟨hn, rfl⟩ := mapLen_ok.mp hlen
  obtain ⟨es, rfl, hvalid, hfold, rfl⟩ := loop_sound spelling.entry spelling.valid upd hstep hloop
  exact ⟨es, _, ⟨hn, hvalid, rfl⟩, hfold, by rw [List.append_assoc]⟩

theorem map_foldl {upd : β → E → β} (hstep : spelling.Reads (fun acc e => some (upd acc e)) step)
    (hlen : (mapLen : Reader ε _) input = .ok (n, mid))
    (hloop : loop step n acc mid = .ok (acc', rest)) :
    ∃ es p, spelling.Spells es p ∧ acc' = es.foldl upd acc ∧ input = p ++ rest := by
  obtain ⟨es, p, hspells, hfold, hinput⟩ := map_sound hstep hlen hloop
  rw [foldlM_some, Option.some.injEq] at hfold
  exact ⟨es, p, hspells, hfold.symm, hinput⟩

end Loop

theorem map_complete {upd : β → E → Option β} {step : β → Reader ε β} {acc acc' : β}
    (hstep : ∀ acc acc' rest e, spelling.valid e → upd acc e = some acc' →
      step acc (spelling.entry e ++ rest) = .ok (acc', rest))
    (hspells : spelling.Spells es p) (hfold : es.foldlM upd acc = some acc') :
    (mapLen : Reader ε _) (p ++ rest) = .ok (es.length, es.flatMap spelling.entry ++ rest) ∧
      loop step es.length acc (es.flatMap spelling.entry ++ rest) = .ok (acc', rest) := by
  constructor
  · rw [mapLen_ok, hspells.bytes, List.append_assoc]
    exact ⟨hspells.length, rfl⟩
  · apply loop_complete spelling.entry upd _ hfold
    intro e he acc acc' rest hupd
    exact hstep acc acc' rest e (hspells.valid e he) hupd

end Spelling

/-! ## Items of any length -/

/-- The well-formed items: a length may be left open, and the content is then
closed by a break. -/
inductive WellFormedItem : List UInt8 → Prop
  | int {mt arg : ℕ} {h : List UInt8} (hmt : mt ≤ 1) (hhead : HeadSpelling (fun _ => 0) mt arg h) :
      WellFormedItem h
  | string {mt : ℕ} {h content : List UInt8} (hmt : mt = 2 ∨ mt = 3)
      (hhead : HeadSpelling (fun _ => 0) mt content.length h) : WellFormedItem (h ++ content)
  | chunks {mt : ℕ} {chunks : List (List UInt8 × List UInt8)} (hmt : mt = 2 ∨ mt = 3)
      (hchunks : ∀ chunk ∈ chunks, HeadSpelling (fun _ => 0) mt chunk.2.length chunk.1) :
      WellFormedItem ([UInt8.ofNat (32 * mt + 31)] ++
        chunks.flatMap (fun chunk => chunk.1 ++ chunk.2) ++ [0xff])
  | array {h : List UInt8} {items : List (List UInt8)}
      (hhead : HeadSpelling (fun _ => 0) 4 items.length h)
      (hitems : ∀ item ∈ items, WellFormedItem item) : WellFormedItem (h ++ items.flatten)
  | stream {items : List (List UInt8)} (hitems : ∀ item ∈ items, WellFormedItem item) :
      WellFormedItem ([0x9f] ++ items.flatten ++ [0xff])
  | map {h : List UInt8} {pairs : List (List UInt8 × List UInt8)}
      (hhead : HeadSpelling (fun _ => 0) 5 pairs.length h)
      (hkeys : ∀ pair ∈ pairs, WellFormedItem pair.1) (hvalues : ∀ pair ∈ pairs, WellFormedItem pair.2) :
      WellFormedItem (h ++ pairs.flatMap (fun pair => pair.1 ++ pair.2))
  | mapStream {pairs : List (List UInt8 × List UInt8)}
      (hkeys : ∀ pair ∈ pairs, WellFormedItem pair.1) (hvalues : ∀ pair ∈ pairs, WellFormedItem pair.2) :
      WellFormedItem ([0xbf] ++ pairs.flatMap (fun pair => pair.1 ++ pair.2) ++ [0xff])
  | tag {arg : ℕ} {h item : List UInt8} (hhead : HeadSpelling (fun _ => 0) 6 arg h)
      (hitem : WellFormedItem item) : WellFormedItem (h ++ item)
  | simple {arg : ℕ} {h : List UInt8} (hhead : HeadSpelling (fun _ => 0) 7 arg h)
      (hsimple : h.length ≠ 2 ∨ 32 ≤ arg) : WellFormedItem h

theorem HeadSpelling.mono {floor floor' : ℕ → ℕ} (hle : ∀ width, floor' width ≤ floor width)
    {mt arg : ℕ} {h : List UInt8} (hhead : HeadSpelling floor mt arg h) :
    HeadSpelling floor' mt arg h := by
  cases hhead with
  | direct hmt harg => exact .direct hmt harg
  | wide hmt hform hfloor harg => exact .wide hmt hform ((hle _).trans hfloor) harg

theorem headSpelling_encodeHead {mt arg : ℕ} (hmt : mt < 8) (harg : arg < 2 ^ 64) :
    HeadSpelling (fun _ => 0) mt arg (encodeHead mt arg) :=
  (headSpelling_shortest.mpr ⟨hmt, harg, rfl⟩).mono (fun _ => Nat.zero_le _)

end Substrate.Cbor
