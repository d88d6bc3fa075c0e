import UsbDevice.Register.Layout

namespace UsbDevice

variable {w : Nat}

/-! Bit by bit, a write to a field is the value inside the field and the register outside. -/

theorem BitField.getLsbD_ones (f : BitField w) (i : Nat) : f.ones.getLsbD i = decide (i < f.width) := by
  have fits := f.fits
  simp only [ones, BitVec.getLsbD_setWidth, BitVec.getLsbD_allOnes]
  by_cases inside : i < f.width
  · simp [inside, show i < w by omega]
  · simp [inside]

theorem BitField.getLsbD_mask (f : BitField w) (i : Nat) :
    f.mask.getLsbD i = decide (f.shift ≤ i ∧ i < f.shift + f.width) := by
  have fits := f.fits
  simp only [mask, BitVec.getLsbD_shiftLeft, getLsbD_ones]
  by_cases above : f.shift ≤ i
  · by_cases below : i < f.shift + f.width
    · simp [above, below, show i < w by omega, show i - f.shift < f.width by omega]
    · simp [below, show ¬ i - f.shift < f.width by omega]
  · simp [above]

theorem BitField.getLsbD_val_value (f : BitField w) (v : BitVec w) (i : Nat) :
    (f.val v).value.getLsbD i = (decide (f.shift ≤ i ∧ i < f.shift + f.width) && v.getLsbD (i - f.shift)) := by
  have fits := f.fits
  simp only [val, BitVec.getLsbD_shiftLeft, BitVec.getLsbD_and, getLsbD_ones]
  by_cases above : f.shift ≤ i
  · by_cases below : i < f.shift + f.width
    · simp [above, below, show i < w by omega, show i - f.shift < f.width by omega,
        show ¬ i < f.shift by omega]
    · simp [below, show ¬ i - f.shift < f.width by omega]
  · simp [above, show i < f.shift by omega]

theorem BitField.getLsbD_modify_val (f : BitField w) (v r : BitVec w) (i : Nat) :
    ((f.val v).modify r).getLsbD i
      = if f.shift ≤ i ∧ i < f.shift + f.width then v.getLsbD (i - f.shift) else r.getLsbD i := by
  have fits := f.fits
  have mask := f.getLsbD_mask i
  simp only [FieldValue.modify, BitVec.getLsbD_or, BitVec.getLsbD_and, BitVec.getLsbD_not, getLsbD_val_value]
  rw [show (f.val v).mask = f.mask from rfl, mask]
  by_cases inside : f.shift ≤ i ∧ i < f.shift + f.width
  · simp [inside]
  · by_cases bounded : i < w
    · simp [inside, bounded]
    · simp [inside, bounded, BitVec.getLsbD_of_ge r i (by omega)]

theorem BitField.getLsbD_read (f : BitField w) (r : BitVec w) (i : Nat) :
    (f.read r).getLsbD i = (decide (i < f.width) && r.getLsbD (f.shift + i)) := by
  simp only [read, BitVec.getLsbD_and, BitVec.getLsbD_ushiftRight, getLsbD_ones, Bool.and_comm]

/-- A field reads back what was written to it, as far as it has room. -/
theorem BitField.read_modify_val (f : BitField w) (v r : BitVec w) :
    f.read ((f.val v).modify r) = v &&& f.ones := by
  apply BitVec.eq_of_getLsbD_eq
  intro i _
  simp only [getLsbD_read, getLsbD_modify_val, BitVec.getLsbD_and, getLsbD_ones]
  by_cases inside : i < f.width
  · simp [inside]
  · simp [inside]

theorem BitField.read_modify_val_of_disjoint {f g : BitField w} (apart : f.Disjoint g) (v r : BitVec w) :
    f.read ((g.val v).modify r) = f.read r := by
  apply BitVec.eq_of_getLsbD_eq
  intro i _
  simp only [getLsbD_read, getLsbD_modify_val]
  by_cases inside : i < f.width
  · have outside : ¬ (g.shift ≤ f.shift + i ∧ f.shift + i < g.shift + g.width) := by
      rcases apart with below | above <;> omega
    simp only [outside, if_false]
  · simp only [inside, decide_false, Bool.false_and]

/-- A write keeps the bits of any mask that shares none with it. -/
theorem FieldValue.modify_and_of_disjoint {v : FieldValue w} {m : BitVec w} (mask : v.mask &&& m = 0)
    (value : v.value &&& m = 0) (r : BitVec w) : v.modify r &&& m = r &&& m := by
  apply BitVec.eq_of_getLsbD_eq
  intro i bounded
  have maskBit := congrArg (BitVec.getLsbD · i) mask
  have valueBit := congrArg (BitVec.getLsbD · i) value
  simp only [BitVec.getLsbD_and, BitVec.ofNat_eq_ofNat, BitVec.getLsbD_zero] at maskBit valueBit
  simp only [modify, BitVec.getLsbD_and, BitVec.getLsbD_or, BitVec.getLsbD_not, bounded, decide_true, Bool.true_and]
  generalize m.getLsbD i = kept, v.mask.getLsbD i = named, v.value.getLsbD i = put at maskBit valueBit ⊢
  cases kept
  · simp only [Bool.and_false]
  · simp only [Bool.and_true] at maskBit valueBit
    simp only [maskBit, valueBit, Bool.not_false, Bool.and_true, Bool.or_false]

/-- Where a register holds what a write would put there, the write changes nothing. -/
theorem FieldValue.modify_eq_self {v : FieldValue w} {r : BitVec w} (holds : v.MatchesAll r) : v.modify r = r := by
  apply BitVec.eq_of_getLsbD_eq
  intro i bounded
  have bit := congrArg (BitVec.getLsbD · i) (show r &&& v.mask = v.value from holds)
  simp only [BitVec.getLsbD_and] at bit
  simp only [modify, BitVec.getLsbD_and, BitVec.getLsbD_or, BitVec.getLsbD_not, bounded, decide_true, Bool.true_and,
    ← bit]
  cases r.getLsbD i <;> cases v.mask.getLsbD i <;> rfl

/-- A write that only clears leaves nothing of what it names, and the rest can be put back. -/
theorem FieldValue.modify_and_mask {v : FieldValue w} (clears : v.value = 0) (r : BitVec w) :
    v.modify r &&& v.mask = 0 ∧ v.modify r ||| (r &&& v.mask) = r := by
  constructor <;> apply BitVec.eq_of_getLsbD_eq <;> intro i bounded <;>
    simp only [modify, clears, BitVec.getLsbD_and, BitVec.getLsbD_or, BitVec.getLsbD_not, BitVec.ofNat_eq_ofNat,
      BitVec.getLsbD_zero, bounded, decide_true, Bool.true_and, Bool.or_false] <;>
    cases r.getLsbD i <;> cases v.mask.getLsbD i <;> rfl

/-- A write that sets all it names adds it to the register. -/
theorem FieldValue.modify_eq_or {v : FieldValue w} (sets : v.value = v.mask) (r : BitVec w) :
    v.modify r = r ||| v.mask := by
  apply BitVec.eq_of_getLsbD_eq
  intro i bounded
  simp only [modify, sets, BitVec.getLsbD_and, BitVec.getLsbD_or, BitVec.getLsbD_not, bounded, decide_true,
    Bool.true_and]
  cases r.getLsbD i <;> cases v.mask.getLsbD i <;> rfl

/-- A write leaves nothing in a mask of bits that it names and clears. -/
theorem FieldValue.modify_and_eq_zero {v : FieldValue w} {m : BitVec w} (names : v.mask &&& m = m)
    (clears : v.value &&& m = 0) (r : BitVec w) : v.modify r &&& m = 0 := by
  apply BitVec.eq_of_getLsbD_eq
  intro i bounded
  have maskBit := congrArg (BitVec.getLsbD · i) names
  have valueBit := congrArg (BitVec.getLsbD · i) clears
  simp only [BitVec.getLsbD_and, BitVec.ofNat_eq_ofNat, BitVec.getLsbD_zero] at maskBit valueBit
  simp only [modify, BitVec.getLsbD_and, BitVec.getLsbD_or, BitVec.getLsbD_not, BitVec.ofNat_eq_ofNat,
    BitVec.getLsbD_zero, bounded, decide_true, Bool.true_and]
  generalize m.getLsbD i = kept, v.mask.getLsbD i = named, v.value.getLsbD i = put at maskBit valueBit ⊢
  cases kept
  · simp only [Bool.and_false]
  · simp only [Bool.and_true] at maskBit valueBit
    simp only [maskBit, valueBit, Bool.not_true, Bool.and_false, Bool.or_false, Bool.false_and]

/-- Bits of a mask that are put where the mask has none stand alone in it. -/
theorem or_and_of_apart {r bits m : BitVec w} (free : r &&& m = 0) (within : bits &&& m = bits) :
    (r ||| bits) &&& m = bits := by
  apply BitVec.eq_of_getLsbD_eq
  intro i _
  have freeBit := congrArg (BitVec.getLsbD · i) free
  have withinBit := congrArg (BitVec.getLsbD · i) within
  simp only [BitVec.getLsbD_and, BitVec.ofNat_eq_ofNat, BitVec.getLsbD_zero] at freeBit withinBit
  rw [BitVec.getLsbD_and, BitVec.getLsbD_or, Bool.and_or_distrib_right, freeBit, withinBit, Bool.false_or]

/-- The write puts nothing where it names nothing. -/
def FieldValue.Within (v : FieldValue w) : Prop := v.value &&& ~~~v.mask = 0

/-- After such a write the register holds what has been put. -/
theorem FieldValue.Within.matchesAll {v : FieldValue w} (within : v.Within) (r : BitVec w) : v.MatchesAll (v.modify r) := by
  apply BitVec.eq_of_getLsbD_eq
  intro i bounded
  have bit := congrArg (BitVec.getLsbD · i) within
  simp only [BitVec.getLsbD_and, BitVec.getLsbD_not, bounded, decide_true, Bool.true_and, BitVec.ofNat_eq_ofNat,
    BitVec.getLsbD_zero] at bit
  simp only [modify, BitVec.getLsbD_or, BitVec.getLsbD_and, BitVec.getLsbD_not, bounded, decide_true, Bool.true_and]
  grind

theorem BitField.within_val (f : BitField w) (v : BitVec w) : (f.val v).Within := by
  apply BitVec.eq_of_getLsbD_eq
  intro i bounded
  rw [BitVec.getLsbD_and, BitVec.getLsbD_not, show (f.val v).mask = f.mask from rfl, getLsbD_mask, getLsbD_val_value]
  by_cases covers : f.shift ≤ i ∧ i < f.shift + f.width <;> simp [covers]

theorem BitField.matchesAll_modify_val (f : BitField w) (v r : BitVec w) :
    (f.val v).MatchesAll ((f.val v).modify r) :=
  (f.within_val v).matchesAll r

theorem BitField.not_isSet_modify_clear (f : BitField w) (r : BitVec w) : ¬ f.IsSet (f.clear.modify r) := by
  have cleared : f.clear.modify r &&& f.mask = f.clear.value := f.matchesAll_modify_val 0 r
  have nothing : f.clear.value = 0 := by simp [clear, val]
  exact fun set => set (cleared.trans nothing)

end UsbDevice
