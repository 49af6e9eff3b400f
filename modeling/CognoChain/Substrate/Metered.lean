import CognoChain.Substrate.Cbor

/-!
# Readers that count heads

A metered reader is a reader together with the number of heads it begins on
each input, whether or not the read succeeds in the end.  Its fields say that
every head it begins takes a byte of its own: the heads and the bytes left
together are at most the bytes given.  The combinators keep that, so a reader
put together from them reads no more heads than there are bytes, however large
the counts it finds in its input are.
-/

namespace Substrate

open Cbor

structure Metered (ε α : Type) where
  read : Reader ε α
  heads : List UInt8 → ℕ
  heads_le : ∀ input, heads input ≤ input.length
  heads_add_rest_le : ∀ {input rest a}, read input = .ok (a, rest) →
    heads input + rest.length ≤ input.length

namespace Metered

variable {ε α β : Type}

theorem rest_le (x : Metered ε α) {input rest : List UInt8} {a : α}
    (h : x.read input = .ok (a, rest)) : rest.length ≤ input.length :=
  (Nat.le_add_left _ _).trans (x.heads_add_rest_le h)

def headless (x : Reader ε α)
    (hrest : ∀ {input rest a}, x input = .ok (a, rest) → rest.length ≤ input.length) :
    Metered ε α where
  read := x
  heads _ := 0
  heads_le _ := Nat.zero_le _
  heads_add_rest_le h := by rw [Nat.zero_add]; exact hrest h

def headsAfter (f : α → Metered ε β) : Except ε (α × List UInt8) → ℕ
  | .ok (a, rest) => (f a).heads rest
  | .error _ => 0

theorem heads_add_headsAfter_le (x : Metered ε α) (f : α → Metered ε β) (input : List UInt8) :
    x.heads input + headsAfter f (x.read input) ≤ input.length := by
  cases h : x.read input with
  | error error => exact x.heads_le input
  | ok result =>
    obtain ⟨a, rest⟩ := result
    have hfirst := x.heads_add_rest_le h
    have hsecond := (f a).heads_le rest
    simp only [headsAfter]
    omega

instance : Monad (Metered ε) where
  pure a := headless (pure a) (fun h => by
    simp only [Reader.pure_ok] at h
    rw [h.2])
  bind x f :=
    { read := x.read >>= fun a => (f a).read
      heads := fun input => x.heads input + headsAfter f (x.read input)
      heads_le := x.heads_add_headsAfter_le f
      heads_add_rest_le := fun {input rest b} h => by
        obtain ⟨a, mid, hfirst, hsecond⟩ := Reader.bind_ok.mp h
        have hx := x.heads_add_rest_le hfirst
        have hf := (f a).heads_add_rest_le hsecond
        simp only [hfirst, headsAfter]
        omega }

/-! ## Combinators -/

def fail (error : ε) : Metered ε α :=
  headless (Reader.fail error) (fun h => absurd h (by simp))

def require (c : Prop) [Decidable c] (error : ε) : Metered ε Unit :=
  headless (Reader.require c error) (fun h => by rw [(Reader.require_ok.mp h).2])

def okOr (error : ε) (value : Option α) : Metered ε α :=
  headless (Reader.okOr error value) (fun h => by rw [(Reader.okOr_ok.mp h).2])

def done (error : ε) : Metered ε Unit :=
  headless (Reader.done error) (fun h => by
    obtain ⟨rfl, rfl⟩ := Reader.done_ok.mp h
    exact le_rfl)

def mapErr (error : ε) (x : Metered ε α) : Metered ε α where
  read := Reader.mapErr error x.read
  heads := x.heads
  heads_le := x.heads_le
  heads_add_rest_le h := x.heads_add_rest_le (Reader.mapErr_ok.mp h)

def spanned (x : Metered ε α) : Metered ε (List UInt8 × α) where
  read := Reader.spanned x.read
  heads := x.heads
  heads_le := x.heads_le
  heads_add_rest_le h := by
    unfold Reader.spanned at h
    split at h
    · next hread =>
        obtain ⟨-, rfl⟩ := Prod.mk.inj (Except.ok.inj h)
        exact x.heads_add_rest_le hread
    · cases h

def loop (step : β → Metered ε β) : ℕ → β → Metered ε β
  | 0, acc => pure acc
  | n + 1, acc => do
      let acc ← step acc
      loop step n acc

def anyOf (test : Metered ε Bool) : ℕ → Metered ε Bool
  | 0 => pure false
  | n + 1 => do
      let found ← test
      if found then pure true else anyOf test n

section Erasure

variable {x : Metered ε α} {y : Reader ε α}

theorem read_bind {f : α → Metered ε β} {g : α → Reader ε β} (hx : x.read = y)
    (hf : ∀ a, (f a).read = g a) : (x >>= f).read = y >>= g := by
  rw [← hx, ← funext hf]
  rfl

theorem read_mapErr {error : ε} (hx : x.read = y) :
    (mapErr error x).read = Reader.mapErr error y := by
  rw [← hx]
  rfl

theorem read_spanned (hx : x.read = y) : (spanned x).read = Reader.spanned y := by
  rw [← hx]
  rfl

theorem read_ite {c : Prop} [Decidable c] {x' : Metered ε α} {y' : Reader ε α} (hx : x.read = y)
    (hx' : x'.read = y') : (if c then x else x').read = if c then y else y' := by
  rw [apply_ite Metered.read, hx, hx']

theorem read_loop {step : β → Metered ε β} {step' : β → Reader ε β}
    (hstep : ∀ acc, (step acc).read = step' acc) (n : ℕ) (acc : β) :
    (loop step n acc).read = Reader.loop step' n acc := by
  induction n generalizing acc with
  | zero => rfl
  | succ n ih => exact read_bind (hstep acc) ih

theorem read_anyOf {test : Metered ε Bool} {test' : Reader ε Bool} (htest : test.read = test')
    (n : ℕ) : (anyOf test n).read = Reader.anyOf test' n := by
  induction n with
  | zero => rfl
  | succ n ih => exact read_bind htest (fun _ => read_ite rfl ih)

end Erasure

/-! ## Items -/

section Items

variable [ReadError ε]

def take (n : ℕ) : Metered ε (List UInt8) :=
  headless (Cbor.take n) (fun h => by
    rw [(take_ok.mp h).2, List.length_append]
    exact Nat.le_add_left _ _)

/-- A head is begun as soon as there is a byte. -/
def headWith (floor : ℕ → ℕ) : Metered ε (ℕ × ℕ) where
  read := Cbor.headWith floor
  heads input := min 1 input.length
  heads_le input := min_le_right _ _
  heads_add_rest_le {input rest form} h := by
    obtain ⟨head, hhead, rfl⟩ := headWith_ok.mp h
    have hpos := hhead.length_pos
    rw [List.length_append]
    omega

def head : Metered ε (ℕ × ℕ) := headWith shortest

def typedHead (want : ℕ) : Metered ε ℕ := do
  let (mt, arg) ← head
  require (mt = want) ReadError.nonCanonical
  pure arg

def uint : Metered ε ℕ := typedHead 0

def arrayLen : Metered ε ℕ := typedHead 4

def mapLen : Metered ε ℕ := typedHead 5

def bytes (max : ℕ) : Metered ε (List UInt8) := do
  let len ← typedHead 2
  require (len ≤ max) ReadError.truncated
  take len

def bytesRaw (max : ℕ) : Metered ε (List UInt8 × List UInt8) := spanned (bytes max)

def skipBody (simple : List UInt8 → Bool) (inner : Metered ε Unit) (h : List UInt8) (mt arg : ℕ) :
    Metered ε Unit :=
  if mt ≤ 1 then pure ()
  else if mt ≤ 3 then do
    let _ ← take arg
    pure ()
  else if mt = 4 then loop (fun _ => inner) arg ()
  else if mt = 5 then loop (fun _ => do inner; inner) arg ()
  else if mt = 6 then inner
  else require (simple h = true) ReadError.nonCanonical

def skip (floor : ℕ → ℕ) (simple : List UInt8 → Bool) : ℕ → Metered ε Unit
  | 0 => fail ReadError.truncated
  | fuel + 1 => do
      let (h, mt, arg) ← spanned (headWith floor)
      skipBody simple (skip floor simple fuel) h mt arg

def skipItem (floor : ℕ → ℕ) (simple : List UInt8 → Bool) : Metered ε Unit where
  read input := (skip floor simple input.length).read input
  heads input := (skip floor simple input.length).heads input
  heads_le input := (skip floor simple input.length).heads_le input
  heads_add_rest_le {input _ _} h := (skip floor simple input.length).heads_add_rest_le h

theorem read_typedHead (want : ℕ) : (typedHead want : Metered ε ℕ).read = Cbor.typedHead want :=
  read_bind rfl (fun _ => read_bind rfl (fun _ => rfl))

theorem read_bytes (max : ℕ) : (bytes max : Metered ε _).read = Cbor.bytes max :=
  read_bind (read_typedHead 2) (fun _ => read_bind rfl (fun _ => rfl))

theorem read_skipBody {simple : List UInt8 → Bool} {inner : Metered ε Unit}
    {inner' : Reader ε Unit} (hinner : inner.read = inner') (h : List UInt8) (mt arg : ℕ) :
    (skipBody simple inner h mt arg).read = Cbor.skipBody simple inner' h mt arg := by
  refine read_ite rfl (read_ite (read_bind rfl fun _ => rfl) (read_ite ?_ (read_ite ?_
    (read_ite hinner rfl))))
  · exact read_loop (fun _ => hinner) arg ()
  · exact read_loop (fun _ => read_bind hinner (fun _ => hinner)) arg ()

theorem read_skip (floor : ℕ → ℕ) (simple : List UInt8 → Bool) (fuel : ℕ) :
    (skip floor simple fuel : Metered ε Unit).read = Cbor.skip floor simple fuel := by
  induction fuel with
  | zero => rfl
  | succ fuel ih => exact read_bind rfl (fun (h, mt, arg) => read_skipBody ih h mt arg)

theorem read_skipItem (floor : ℕ → ℕ) (simple : List UInt8 → Bool) :
    (skipItem floor simple : Metered ε Unit).read = Cbor.skipItem floor simple :=
  funext fun input => congrFun (read_skip floor simple input.length) input

end Items

/-! ## Depth -/

section Depth

def AgreeTo (n : ℕ) (x y : Reader ε α) : Prop := ∀ input, input.length ≤ n → x input = y input

theorem AgreeTo.bind {n : ℕ} {x : Metered ε α} {y : Reader ε α} {f g : α → Reader ε β}
    (hxy : AgreeTo n x.read y) (hfg : ∀ a, AgreeTo n (f a) (g a)) :
    AgreeTo n (x.read >>= f) (y >>= g) := by
  intro input hinput
  have hfirst := hxy input hinput
  cases hread : x.read input with
  | error error =>
    rw [hread] at hfirst
    change (x.read input >>= fun p => f p.1 p.2) = (y input >>= fun p => g p.1 p.2)
    rw [hread, ← hfirst]
    rfl
  | ok result =>
    obtain ⟨a, rest⟩ := result
    have hrest := (x.rest_le hread).trans hinput
    rw [hread] at hfirst
    change (x.read input >>= fun p => f p.1 p.2) = (y input >>= fun p => g p.1 p.2)
    rw [hread, ← hfirst]
    exact hfg a rest hrest

theorem AgreeTo.loop {n : ℕ} {step : β → Metered ε β} {step' : β → Reader ε β}
    (hstep : ∀ acc, AgreeTo n (step acc).read (step' acc)) (count : ℕ) (acc : β) :
    AgreeTo n (Reader.loop (fun acc => (step acc).read) count acc)
      (Reader.loop step' count acc) := by
  induction count generalizing acc with
  | zero => exact fun _ _ => rfl
  | succ count ih => exact (hstep acc).bind ih

variable [ReadError ε]

theorem agreeTo_skipBody {n : ℕ} (simple : List UInt8 → Bool) (inner : Metered ε Unit)
    {inner' : Reader ε Unit} (hinner : AgreeTo n inner.read inner') (h : List UInt8)
    (mt arg : ℕ) :
    AgreeTo n (Cbor.skipBody simple inner.read h mt arg) (Cbor.skipBody simple inner' h mt arg) := by
  unfold Cbor.skipBody
  split_ifs
  · exact fun _ _ => rfl
  · exact fun _ _ => rfl
  · exact AgreeTo.loop (fun _ => hinner) arg ()
  · have htwice : AgreeTo n (inner >>= fun _ => inner).read (inner' >>= fun _ => inner') :=
      hinner.bind (fun _ => hinner)
    exact AgreeTo.loop (fun _ => htwice) arg ()
  · exact hinner
  · exact fun _ _ => rfl

/-- An item inside another starts at least a byte later, so that a depth beyond
the bytes given is never reached. -/
theorem skip_agreeTo (floor : ℕ → ℕ) (simple : List UInt8 → Bool) {n fuel : ℕ} (hn : n ≤ fuel) :
    AgreeTo n (Cbor.skip floor simple fuel : Reader ε Unit) (Cbor.skip floor simple n) := by
  induction n generalizing fuel with
  | zero =>
    intro input hinput
    rw [List.length_eq_zero_iff.mp (Nat.le_zero.mp hinput)]
    cases fuel <;> rfl
  | succ n ih =>
    obtain ⟨fuel, rfl⟩ := Nat.exists_eq_add_of_lt hn
    intro input hinput
    have hbody : ∀ result : Except ε ((List UInt8 × ℕ × ℕ) × List UInt8),
        (spanned (headWith floor) : Metered ε _).read input = result →
        (result >>= fun p => Cbor.skipBody simple (Cbor.skip floor simple (n + fuel))
          p.1.1 p.1.2.1 p.1.2.2 p.2) =
        result >>= fun p => Cbor.skipBody simple (Cbor.skip floor simple n)
          p.1.1 p.1.2.1 p.1.2.2 p.2 := by
      intro result hread
      cases result with
      | error error => rfl
      | ok result =>
        obtain ⟨⟨h, mt, arg⟩, rest⟩ := result
        have hrest : rest.length ≤ n := by
          have hle := (spanned (headWith floor) : Metered ε _).heads_add_rest_le hread
          have hsome : (spanned (headWith floor) : Metered ε (List UInt8 × ℕ × ℕ)).heads input =
              min 1 input.length := rfl
          omega
        have hinner : AgreeTo n (skip floor simple (n + fuel) : Metered ε Unit).read
            (Cbor.skip floor simple n) := by
          rw [read_skip]
          exact ih (Nat.le_add_right n fuel)
        have hbody := agreeTo_skipBody simple _ hinner h mt arg rest hrest
        rw [read_skip] at hbody
        exact hbody
    exact hbody _ rfl

theorem skip_of_length_le (floor : ℕ → ℕ) (simple : List UInt8 → Bool) {fuel : ℕ}
    {input : List UInt8} (h : input.length ≤ fuel) :
    (Cbor.skip floor simple fuel : Reader ε Unit) input = Cbor.skipItem floor simple input :=
  skip_agreeTo floor simple h input le_rfl

end Depth

end Metered

end Substrate
