import UsbDevice.Bytes

namespace UsbDevice

/-- A run of `width` bits of a `w`-bit register, from bit `shift` upwards. -/
structure BitField (w : Nat) where
  name : String
  shift : Nat
  width : Nat := 1
  fits : shift + width ≤ w := by decide

/-- Which bits of a register a write names, and what it puts there. -/
structure FieldValue (w : Nat) where
  mask : BitVec w
  value : BitVec w
deriving DecidableEq, Repr

namespace FieldValue

variable {w : Nat}

/-- The write that names no bit. -/
def noBits : FieldValue w := ⟨0, 0⟩

/-- Both writes in one. Where both name the same bit it gets the or of the two values. -/
def add (v u : FieldValue w) : FieldValue w := ⟨v.mask ||| u.mask, v.value ||| u.value⟩

instance : Add (FieldValue w) := ⟨add⟩

/-- All of `vs` in one write, summed from the left. -/
def sum (vs : List (FieldValue w)) : FieldValue w := vs.foldl (· + ·) noBits

/-- `r` with the named bits replaced. -/
def modify (v : FieldValue w) (r : BitVec w) : BitVec w := (r &&& ~~~v.mask) ||| v.value

/-- Every named bit is what the write would make it. -/
def MatchesAll (v : FieldValue w) (r : BitVec w) : Prop := r &&& v.mask = v.value

/-- Some bit that the write would set is one already. -/
def MatchesAny (v : FieldValue w) (r : BitVec w) : Prop := r &&& v.mask &&& v.value ≠ 0

instance (v : FieldValue w) (r : BitVec w) : Decidable (v.MatchesAll r) := inferInstanceAs (Decidable (_ = _))

instance (v : FieldValue w) (r : BitVec w) : Decidable (v.MatchesAny r) := inferInstanceAs (Decidable (_ ≠ _))

@[simp] theorem mask_add (v u : FieldValue w) : (v + u).mask = v.mask ||| u.mask := rfl

@[simp] theorem value_add (v u : FieldValue w) : (v + u).value = v.value ||| u.value := rfl

end FieldValue

namespace BitField

variable {w : Nat}

/-- As many low ones as the field has bits. -/
def ones (f : BitField w) : BitVec w := (BitVec.allOnes f.width).setWidth w

/-- The bits of the register that belong to the field. -/
def mask (f : BitField w) : BitVec w := f.ones <<< f.shift

/-- The write that puts `v` into the field. Bits of `v` beyond the field's width are dropped. -/
def val (f : BitField w) (v : BitVec w) : FieldValue w := ⟨f.mask, (v &&& f.ones) <<< f.shift⟩

def set (f : BitField w) : FieldValue w := f.val 1

def clear (f : BitField w) : FieldValue w := f.val 0

def read (f : BitField w) (r : BitVec w) : BitVec w := (r >>> f.shift) &&& f.ones

/-- Some bit of the field is one. -/
def IsSet (f : BitField w) (r : BitVec w) : Prop := r &&& f.mask ≠ 0

instance (f : BitField w) (r : BitVec w) : Decidable (f.IsSet r) := inferInstanceAs (Decidable (_ ≠ _))

/-- The fields share no bit. -/
def Disjoint (f g : BitField w) : Prop := f.shift + f.width ≤ g.shift ∨ g.shift + g.width ≤ f.shift

instance (f g : BitField w) : Decidable (f.Disjoint g) := inferInstanceAs (Decidable (_ ∨ _))

end BitField

/-- The fields of one register. -/
structure Layout (w : Nat) where
  name : String
  fields : List (BitField w)
  disjoint : fields.Pairwise BitField.Disjoint := by decide

end UsbDevice
