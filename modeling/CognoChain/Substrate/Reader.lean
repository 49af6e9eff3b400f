import CognoChain.Substrate.Bytes

/-!
# Readers

A reader consumes a byte string from the front and may fail.  What a reader
does is said by what a successful read took off its input.
-/

namespace Substrate

abbrev Reader (ε α : Type) := StateT (List UInt8) (Except ε) α

namespace Reader

variable {ε α β : Type}

def fail (error : ε) : Reader ε α := fun _ => .error error

def mapErr (error : ε) (x : Reader ε α) : Reader ε α := fun input =>
  match x input with
  | .ok result => .ok result
  | .error _ => .error error

def require (c : Prop) [Decidable c] (error : ε) : Reader ε Unit :=
  if c then pure () else fail error

def okOr (error : ε) : Option α → Reader ε α
  | some a => pure a
  | none => fail error

def done (error : ε) : Reader ε Unit := fun input =>
  if input = [] then .ok ((), []) else .error error

def remainder : Reader ε (List UInt8) := fun input => .ok (input, [])

def loop (step : β → Reader ε β) : ℕ → β → Reader ε β
  | 0, acc => pure acc
  | n + 1, acc => do
      let acc ← step acc
      loop step n acc

/-- A counted loop that stops at the first success. -/
def anyOf (test : Reader ε Bool) : ℕ → Reader ε Bool
  | 0 => pure false
  | n + 1 => do
      let found ← test
      if found then pure true else anyOf test n

def spanned (x : Reader ε α) : Reader ε (List UInt8 × α) := fun input =>
  match x input with
  | .ok (a, rest) => .ok ((input.take (input.length - rest.length), a), rest)
  | .error error => .error error

def parse (x : Reader ε α) (input : List UInt8) : Except ε α :=
  match x input with
  | .ok (a, _) => .ok a
  | .error error => .error error

/-! ## What a successful read says -/

variable {x : Reader ε α} {input rest : List UInt8} {error : ε} {a : α}

@[simp] theorem bind_ok {f : α → Reader ε β} {b : β} :
    (x >>= f) input = .ok (b, rest) ↔
      ∃ a mid, x input = .ok (a, mid) ∧ f a mid = .ok (b, rest) := by
  show (x input >>= fun p => f p.1 p.2) = .ok (b, rest) ↔ _
  cases hx : x input with
  | error e => simp [bind, Except.bind]
  | ok p =>
    obtain ⟨a, mid⟩ := p
    simp [bind, Except.bind]

@[simp] theorem pure_ok {b : α} :
    (pure a : Reader ε α) input = .ok (b, rest) ↔ a = b ∧ input = rest := by
  show Except.ok (a, input) = .ok (b, rest) ↔ _
  simp

@[simp] theorem fail_ok : (fail error : Reader ε α) input = .ok (a, rest) ↔ False := by
  simp [fail]

@[simp] theorem mapErr_ok : mapErr error x input = .ok (a, rest) ↔ x input = .ok (a, rest) := by
  unfold mapErr
  cases x input <;> simp

@[simp] theorem require_ok {c : Prop} [Decidable c] {u : Unit} :
    require c error input = .ok (u, rest) ↔ c ∧ input = rest := by
  unfold require
  split_ifs with hc <;> simp [hc]

@[simp] theorem okOr_ok {value : Option α} :
    okOr error value input = .ok (a, rest) ↔ value = some a ∧ input = rest := by
  cases value <;> simp [okOr]

@[simp] theorem done_ok {u : Unit} :
    done error input = .ok (u, rest) ↔ input = [] ∧ rest = [] := by
  unfold done
  split_ifs with hend <;> simp [hend, eq_comm]

theorem parse_ok : parse x input = .ok a ↔ ∃ rest, x input = .ok (a, rest) := by
  unfold parse
  cases x input with
  | error e => simp
  | ok result => simp [Prod.ext_iff]

theorem except_bind_ok {y : Except ε α} {f : α → Except ε β} {b : β} :
    (y >>= f) = .ok b ↔ ∃ a, y = .ok a ∧ f a = .ok b := by
  cases y <;> simp [bind, Except.bind]

theorem spanned_ok {p : List UInt8} :
    spanned x input = .ok ((p, a), rest) ↔
      x input = .ok (a, rest) ∧ p = input.take (input.length - rest.length) := by
  unfold spanned
  cases hx : x input with
  | error e => simp
  | ok r =>
    obtain ⟨b, rest'⟩ := r
    simp only [Except.ok.injEq, Prod.mk.injEq]
    constructor
    · rintro ⟨⟨rfl, rfl⟩, rfl⟩
      exact ⟨⟨rfl, rfl⟩, rfl⟩
    · rintro ⟨⟨rfl, rfl⟩, rfl⟩
      exact ⟨⟨rfl, rfl⟩, rfl⟩

theorem spanned_ok_of {P : α → List UInt8 → Prop}
    (hx : ∀ a rest, x input = .ok (a, rest) ↔ ∃ q, P a q ∧ input = q ++ rest) {p : List UInt8} :
    spanned x input = .ok ((p, a), rest) ↔ P a p ∧ input = p ++ rest := by
  rw [spanned_ok, hx]
  constructor
  · rintro ⟨⟨q, hq, rfl⟩, rfl⟩
    simpa using hq
  · rintro ⟨hp, rfl⟩
    exact ⟨⟨p, hp, rfl⟩, by simp⟩

theorem foldlM_some {E : Type} (upd : β → E → β) (es : List E) (acc : β) :
    es.foldlM (fun acc e => some (upd acc e)) acc = some (es.foldl upd acc) :=
  List.foldlM_pure

section Loop

variable {E : Type} (enc : E → List UInt8) (valid : E → Prop) (upd : β → E → Option β)
  {step : β → Reader ε β} {n : ℕ} {acc acc' : β}

theorem loop_sound
    (hstep : ∀ acc input acc' rest, step acc input = .ok (acc', rest) →
      ∃ e, valid e ∧ upd acc e = some acc' ∧ input = enc e ++ rest)
    (h : loop step n acc input = .ok (acc', rest)) :
    ∃ es : List E, es.length = n ∧ (∀ e ∈ es, valid e) ∧ es.foldlM upd acc = some acc' ∧
      input = es.flatMap enc ++ rest := by
  induction n generalizing acc input with
  | zero =>
    obtain ⟨rfl, rfl⟩ := pure_ok.mp h
    exact ⟨[], rfl, by simp, rfl, rfl⟩
  | succ n ih =>
    obtain ⟨next, mid, hfirst, hrest⟩ := bind_ok.mp h
    obtain ⟨e, he, hupd, rfl⟩ := hstep _ _ _ _ hfirst
    obtain ⟨es, hlength, hes, hfold, rfl⟩ := ih hrest
    refine ⟨e :: es, by rw [List.length_cons, hlength], ?_, ?_, ?_⟩
    · exact List.forall_mem_cons.mpr ⟨he, hes⟩
    · rw [List.foldlM_cons, hupd]
      exact hfold
    · rw [List.flatMap_cons, List.append_assoc]

theorem loop_complete {es : List E}
    (hstep : ∀ e ∈ es, ∀ acc acc' rest, upd acc e = some acc' →
      step acc (enc e ++ rest) = .ok (acc', rest))
    (hfold : es.foldlM upd acc = some acc') :
    loop step es.length acc (es.flatMap enc ++ rest) = .ok (acc', rest) := by
  induction es generalizing acc with
  | nil => exact pure_ok.mpr ⟨Option.some.inj hfold, rfl⟩
  | cons e es ih =>
    rw [List.foldlM_cons] at hfold
    obtain ⟨next, hnext, hfold⟩ := Option.bind_eq_some_iff.mp hfold
    rw [List.flatMap_cons, List.append_assoc]
    refine bind_ok.mpr ⟨next, _, hstep e (List.mem_cons_self ..) acc next _ hnext, ?_⟩
    exact ih (fun e' he' => hstep e' (List.mem_cons_of_mem e he')) hfold

theorem anyOf_sound {test : Reader ε Bool} {P Q : List UInt8 → Prop}
    (htest : ∀ input found rest, test input = .ok (found, rest) →
      ∃ p, P p ∧ (found = true → Q p) ∧ input = p ++ rest)
    (h : anyOf test n input = .ok (true, rest)) :
    ∃ (ps : List (List UInt8)) (p : List UInt8), ps.length < n ∧ (∀ q ∈ ps, P q) ∧ P p ∧ Q p ∧
      input = ps.flatten ++ (p ++ rest) := by
  induction n generalizing input with
  | zero => exact absurd (pure_ok.mp h).1 (by decide)
  | succ n ih =>
    obtain ⟨found, mid, hfirst, hrest⟩ := bind_ok.mp h
    obtain ⟨p, hp, hq, rfl⟩ := htest _ _ _ hfirst
    cases found with
    | true =>
      obtain ⟨-, rfl⟩ := pure_ok.mp hrest
      exact ⟨[], p, Nat.succ_pos n, by simp, hp, hq rfl, rfl⟩
    | false =>
      obtain ⟨ps, q, hlength, hps, hq, hfound, rfl⟩ := ih hrest
      refine ⟨p :: ps, q, Nat.succ_lt_succ hlength, ?_, hq, hfound, ?_⟩
      · exact List.forall_mem_cons.mpr ⟨hp, hps⟩
      · rw [List.flatten_cons, List.append_assoc]

end Loop

end Reader

/-! ## The last entry of a kind -/

def lastOf {E V : Type} (f : E → Option V) (es : List E) : Option V := (es.filterMap f).getLast?

theorem lastOf_cons {E V : Type} (f : E → Option V) (e : E) (es : List E) :
    lastOf f (e :: es) = (lastOf f es).or (f e) := by
  unfold lastOf
  cases he : f e with
  | none => simp [he]
  | some v =>
    rw [List.filterMap_cons, he, List.getLast?_cons]
    cases (es.filterMap f).getLast? <;> rfl

theorem lastOf_map {E V W : Type} (g : V → W) (f : E → Option V) (es : List E) :
    lastOf (fun e => (f e).map g) es = (lastOf f es).map g := by
  unfold lastOf
  rw [← List.getLast?_map, List.map_filterMap]

theorem mem_of_lastOf {E V : Type} {f : E → Option V} {es : List E} {v : V}
    (h : lastOf f es = some v) : ∃ e ∈ es, f e = some v :=
  List.mem_filterMap.mp (List.mem_of_getLast? h)

/-- A field that each entry either sets or keeps ends as the last entry set it. -/
theorem foldl_field {β E V : Type} {upd : β → E → β} (field : β → Option V) (f : E → Option V)
    (hupd : ∀ acc e, field (upd acc e) = (f e).or (field acc)) (es : List E) (acc : β) :
    field (es.foldl upd acc) = (lastOf f es).or (field acc) := by
  induction es generalizing acc with
  | nil => rfl
  | cons e es ih =>
    rw [List.foldl_cons, ih, hupd, lastOf_cons, Option.or_assoc]

end Substrate
