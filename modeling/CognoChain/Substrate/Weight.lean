import CognoChain.Substrate.Saturating

/-!
# Weights

The two-dimensional cost of work in a block, in saturating 64-bit arithmetic,
and what storage accesses cost.  Storage prices carry no proof size.
-/

namespace Substrate

structure Weight where
  refTime : ℕ
  proofSize : ℕ
deriving DecidableEq

namespace Weight

instance : LE Weight where
  le w w' := w.refTime ≤ w'.refTime ∧ w.proofSize ≤ w'.proofSize

instance : DecidableLE Weight :=
  fun _ _ => inferInstanceAs (Decidable (_ ∧ _))

def isZero (w : Weight) : Bool := w.refTime == 0 && w.proofSize == 0

def saturatingAdd (w w' : Weight) : Weight :=
  ⟨satAdd u64Max w.refTime w'.refTime, satAdd u64Max w.proofSize w'.proofSize⟩

def saturatingSub (w w' : Weight) : Weight :=
  ⟨w.refTime - w'.refTime, w.proofSize - w'.proofSize⟩

def saturatingMul (w : Weight) (n : ℕ) : Weight :=
  ⟨satMul u64Max w.refTime n, satMul u64Max w.proofSize n⟩

def checkedDiv (n d : ℕ) : Option ℕ := if d = 0 then none else some (n / d)

/-- How often `w'` fits into `w`.  A dimension that `w'` does not use does not
limit it. -/
def checkedDivPerComponent (w w' : Weight) : Option ℕ :=
  match checkedDiv w.refTime w'.refTime, checkedDiv w.proofSize w'.proofSize with
  | none, none => none
  | refTime, proofSize => some (min (refTime.getD u64Max) (proofSize.getD u64Max))

end Weight

/-- The price of one storage read and of one storage write. -/
structure DbWeight where
  read : ℕ
  write : ℕ
deriving DecidableEq

namespace DbWeight

variable (db : DbWeight)

def reads (n : ℕ) : Weight := ⟨satMul u64Max db.read n, 0⟩

def writes (n : ℕ) : Weight := ⟨satMul u64Max db.write n, 0⟩

def readsWrites (r w : ℕ) : Weight :=
  ⟨satAdd u64Max (satMul u64Max db.read r) (satMul u64Max db.write w), 0⟩

theorem checkedDivPerComponent_readsWrites (remaining : Weight) {r w : ℕ}
    (hpriced : (db.readsWrites r w).isZero = false) :
    remaining.checkedDivPerComponent (db.readsWrites r w) =
      some (min (remaining.refTime / (db.readsWrites r w).refTime) u64Max) := by
  have hpos : (db.readsWrites r w).refTime ≠ 0 := by
    simpa [Weight.isZero, readsWrites] using hpriced
  have hproof : (db.readsWrites r w).proofSize = 0 := rfl
  simp [Weight.checkedDivPerComponent, Weight.checkedDiv, hpos, hproof]

end DbWeight

end Substrate
