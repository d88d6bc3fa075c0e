import Mathlib.Algebra.Group.Nat.Defs
import Mathlib.Data.List.Induction
import Mathlib.Data.List.Pairwise
import UsbDevice.Proofs.FieldWrites

namespace UsbDevice

variable {w : Nat}

namespace BitField

/-- The bit belongs to the field. -/
def Covers (f : BitField w) (i : Nat) : Prop := f.shift ≤ i ∧ i < f.shift + f.width

instance : Std.Symm (Disjoint (w := w)) := ⟨fun _ _ => Or.symm⟩

theorem Disjoint.not_covers {f g : BitField w} (apart : f.Disjoint g) {i : Nat} (covers : f.Covers i) :
    ¬ g.Covers i := by
  unfold Disjoint at apart
  unfold Covers at covers ⊢
  omega

/-- What is put into a field stays out of the fields apart from it. -/
theorem Disjoint.mask_and_value {f g : BitField w} (apart : f.Disjoint g) (v : BitVec w) :
    f.mask &&& (g.val v).value = 0 := by
  apply BitVec.eq_of_getLsbD_eq
  intro i _
  rw [BitVec.getLsbD_and, getLsbD_mask, getLsbD_val_value, BitVec.ofNat_eq_ofNat, BitVec.getLsbD_zero]
  by_cases covers : f.Covers i
  · have outside : ¬ (g.shift ≤ i ∧ i < g.shift + g.width) := apart.not_covers covers
    simp [outside]
  · have outside : ¬ (f.shift ≤ i ∧ i < f.shift + f.width) := covers
    simp [outside]

/-- A field has room for the low bits of a value. -/
theorem toNat_and_ones (f : BitField w) (v : BitVec w) : (v &&& f.ones).toNat = v.toNat % 2 ^ f.width := by
  have fits : f.width ≤ w := Nat.le_trans (Nat.le_add_left _ _) f.fits
  have room : 2 ^ f.width ≤ 2 ^ w := Nat.pow_le_pow_right Nat.two_pos fits
  have some : 0 < 2 ^ f.width := Nat.two_pow_pos f.width
  have ones : f.ones.toNat = 2 ^ f.width - 1 := by
    rw [BitField.ones, BitVec.toNat_setWidth, BitVec.toNat_allOnes]
    exact Nat.mod_eq_of_lt (by omega)
  rw [BitVec.toNat_and, ones, Nat.and_two_pow_sub_one_eq_mod]

end BitField

/-- Two fields of one register share no bit. -/
theorem Layout.disjoint_of_ne (layout : Layout w) {f g : BitField w} (first : f ∈ layout.fields)
    (second : g ∈ layout.fields) (different : f ≠ g) : f.Disjoint g :=
  layout.disjoint.forall first second different

namespace FieldValue

/-- Two writes in one are as good as one after the other, if the second does not name what the first has put. -/
theorem modify_add {v u : FieldValue w} (apart : u.mask &&& v.value = 0) (r : BitVec w) :
    (v + u).modify r = u.modify (v.modify r) := by
  apply BitVec.eq_of_getLsbD_eq
  intro i bounded
  have bit := congrArg (BitVec.getLsbD · i) apart
  simp only [BitVec.getLsbD_and, BitVec.ofNat_eq_ofNat, BitVec.getLsbD_zero] at bit
  simp only [modify, mask_add, value_add, BitVec.getLsbD_or, BitVec.getLsbD_and, BitVec.getLsbD_not, bounded,
    decide_true, Bool.true_and]
  generalize u.mask.getLsbD i = named, v.value.getLsbD i = put at bit ⊢
  cases named
  · simp only [Bool.or_false, Bool.not_false, Bool.and_true, Bool.or_assoc]
  · simp only [Bool.true_and] at bit
    simp only [bit, Bool.or_true, Bool.not_true, Bool.and_false, Bool.false_or]

theorem sum_concat (vs : List (FieldValue w)) (u : FieldValue w) : sum (vs ++ [u]) = sum vs + u := by
  simp only [sum, List.foldl_append, List.foldl_cons, List.foldl_nil]

theorem and_value_sum {m : BitVec w} {vs : List (FieldValue w)} (apart : ∀ v ∈ vs, m &&& v.value = 0) :
    m &&& (sum vs).value = 0 := by
  induction vs using List.reverseRecOn with
  | nil => exact BitVec.and_zero
  | append_singleton vs u ih =>
    rw [List.forall_mem_append, List.forall_mem_singleton] at apart
    rw [sum_concat, value_add, BitVec.and_or_distrib_left, ih apart.1, apart.2]
    exact BitVec.or_zero

theorem Within.add {v u : FieldValue w} (first : v.Within) (second : u.Within) : (v + u).Within := by
  apply BitVec.eq_of_getLsbD_eq
  intro i bounded
  have firstBit := congrArg (BitVec.getLsbD · i) first
  have secondBit := congrArg (BitVec.getLsbD · i) second
  simp only [BitVec.getLsbD_and, BitVec.getLsbD_not, bounded, decide_true, Bool.true_and, BitVec.ofNat_eq_ofNat,
    BitVec.getLsbD_zero] at firstBit secondBit
  simp only [mask_add, value_add, BitVec.getLsbD_or, BitVec.getLsbD_and, BitVec.getLsbD_not, bounded, decide_true,
    Bool.true_and, BitVec.ofNat_eq_ofNat, BitVec.getLsbD_zero]
  grind

theorem within_sum {vs : List (FieldValue w)} (within : ∀ v ∈ vs, v.Within) : (sum vs).Within := by
  induction vs using List.reverseRecOn with
  | nil => exact BitVec.zero_and
  | append_singleton vs u ih =>
    rw [List.forall_mem_append, List.forall_mem_singleton] at within
    rw [sum_concat]
    exact (ih within.1).add within.2

end FieldValue

/-- Fields, and what is to be put into each. -/
abbrev FieldItems (w : Nat) := List (BitField w × BitVec w)

namespace FieldItems

/-- All of it in one write. -/
def sum (items : FieldItems w) : FieldValue w := .sum (items.map fun item => item.1.val item.2)

/-- The register after one write for each field. -/
def writeEach (items : FieldItems w) (base : BitVec w) : BitVec w :=
  items.foldl (fun r item => (item.1.val item.2).modify r) base

/-- No two of the fields share a bit. -/
def Apart (items : FieldItems w) : Prop := items.Pairwise fun item other => item.1.Disjoint other.1

/-- The register holds in each of the fields what is put there, and is as `base` everywhere else. -/
structure Filled (items : FieldItems w) (base r : BitVec w) : Prop where
  inside : ∀ item ∈ items, ∀ i, item.1.Covers i → r.getLsbD i = item.2.getLsbD (i - item.1.shift)
  outside : ∀ i, (∀ item ∈ items, ¬ item.1.Covers i) → r.getLsbD i = base.getLsbD i

variable {items : FieldItems w} {base r r' : BitVec w}

/-- One write for all fields does what one write for each does. -/
theorem Apart.modify_sum (apart : items.Apart) (base : BitVec w) : items.sum.modify base = items.writeEach base := by
  -- The sum grows at its end, and the write added last must not name what was put before.
  induction items using List.reverseRecOn with
  | nil => simp [sum, writeEach, FieldValue.sum, FieldValue.noBits, FieldValue.modify]
  | append_singleton items last ih =>
    rw [Apart, List.pairwise_append] at apart
    obtain ⟨earlier, _, before⟩ := apart
    have free : (last.1.val last.2).mask &&& (sum items).value = 0 := by
      refine FieldValue.and_value_sum fun v put => ?_
      obtain ⟨item, member, rfl⟩ := List.mem_map.mp put
      have apart : last.1.Disjoint item.1 := Or.symm (before item member last List.mem_cons_self)
      exact apart.mask_and_value item.2
    have summed : sum (items ++ [last]) = sum items + last.1.val last.2 := by
      rw [sum, List.map_append]
      exact FieldValue.sum_concat _ _
    rw [summed, FieldValue.modify_add free, ih earlier, writeEach, writeEach, List.foldl_append]
    rfl

/-- Each field keeps what is put there, since the later writes do not touch it. -/
theorem Apart.filled (apart : items.Apart) (base : BitVec w) : items.Filled base (items.writeEach base) := by
  induction items generalizing base with
  | nil => exact ⟨by simp, fun _ _ => rfl⟩
  | cons first items ih =>
    obtain ⟨others, rest⟩ := List.pairwise_cons.mp apart
    obtain ⟨inside, outside⟩ := ih rest ((first.1.val first.2).modify base)
    have now (i : Nat) := first.1.getLsbD_modify_val first.2 base i
    constructor
    · intro item member i covers
      rcases List.mem_cons.mp member with rfl | later
      · have kept := outside i fun other later => (others other later).not_covers covers
        exact kept.trans ((now i).trans (if_pos covers))
      · exact inside item later i covers
    · intro i free
      rw [List.forall_mem_cons] at free
      exact (outside i free.2).trans ((now i).trans (if_neg free.1))

theorem Filled.unique (filled : items.Filled base r) (filled' : items.Filled base r') : r = r' := by
  apply BitVec.eq_of_getLsbD_eq
  intro i _
  by_cases covered : ∃ item ∈ items, item.1.Covers i
  · obtain ⟨item, member, covers⟩ := covered
    rw [filled.inside item member i covers, filled'.inside item member i covers]
  · have free : ∀ item ∈ items, ¬ item.1.Covers i := fun item member covers => covered ⟨item, member, covers⟩
    rw [filled.outside i free, filled'.outside i free]

theorem Filled.perm {order : FieldItems w} (filled : items.Filled base r) (same : order.Perm items) :
    order.Filled base r where
  inside item member := filled.inside item (same.mem_iff.mp member)
  outside i free := filled.outside i fun item member => free item (same.mem_iff.mpr member)

theorem Filled.read (filled : items.Filled base r) {item : BitField w × BitVec w} (member : item ∈ items) :
    item.1.read r = item.2 &&& item.1.ones := by
  apply BitVec.eq_of_getLsbD_eq
  intro i _
  rw [BitField.getLsbD_read, BitVec.getLsbD_and, BitField.getLsbD_ones]
  by_cases inside : i < item.1.width
  · have bit := filled.inside item member (item.1.shift + i) ⟨Nat.le_add_right _ _, by omega⟩
    rw [bit, Nat.add_sub_cancel_left, Bool.and_comm]
  · simp [inside]

/-- Different fields of one register share no bit, in whatever order they come. -/
theorem apart_of_layout {layout : Layout w} (named : ∀ item ∈ items, item.1 ∈ layout.fields)
    (different : (items.map Prod.fst).Nodup) : items.Apart :=
  (List.pairwise_map.mp different).imp_of_mem fun first second apart =>
    layout.disjoint_of_ne (named _ first) (named _ second) apart

/-- Different fields of one register can be written in one write or one after the other, in any order. Each then reads
as what was put there, cut to its width, and no other bit changes. -/
theorem writes_independent {layout : Layout w} (named : ∀ item ∈ items, item.1 ∈ layout.fields)
    (different : (items.map Prod.fst).Nodup) (base : BitVec w) :
    let written := items.sum.modify base
    (∀ order : FieldItems w, order.Perm items → order.writeEach base = written ∧ order.sum.modify base = written) ∧
      (∀ item ∈ items, (item.1.read written).toNat = item.2.toNat % 2 ^ item.1.width) ∧
      (∀ i, (∀ item ∈ items, ¬ item.1.Covers i) → written.getLsbD i = base.getLsbD i) ∧
      items.sum.MatchesAll written := by
  intro written
  have apart := apart_of_layout named different
  have filled : items.Filled base written := by
    rw [show written = items.writeEach base from apart.modify_sum base]
    exact apart.filled base
  refine ⟨fun order same => ?_, fun item member => ?_, filled.outside, ?_⟩
  · have reordered : order.Apart := apart_of_layout (fun item member => named item (same.mem_iff.mp member))
      ((same.map Prod.fst).nodup_iff.mpr different)
    have each : order.writeEach base = written := (reordered.filled base).unique (filled.perm same)
    exact ⟨each, (reordered.modify_sum base).trans each⟩
  · rw [filled.read member, BitField.toNat_and_ones]
  · refine FieldValue.Within.matchesAll (FieldValue.within_sum fun v put => ?_) base
    obtain ⟨item, _, rfl⟩ := List.mem_map.mp put
    exact item.1.within_val item.2

/-- Both fields of a byte count get more than they have room for. The bits between them stay. -/
theorem writes_independent_of_count :
    let items : FieldItems 8 := [(EndpointCount.count, 0x19), (EndpointCount.nak, 0xff)]
    let written := items.sum.modify 0x56
    ⟨8, EndpointCount.layout⟩ ∈ layouts ∧ written = 0xd9 ∧
      writeEach [(EndpointCount.nak, 0xff), (EndpointCount.count, 0x19)] 0x56 = written ∧
      (EndpointCount.count.read written).toNat = 0x19 % 2 ^ 4 ∧ (EndpointCount.nak.read written).toNat = 0xff % 2 ∧
      written.getLsbD 6 = true ∧ items.sum.MatchesAll written := by
  intro items written
  have named : ∀ item ∈ items, item.1 ∈ EndpointCount.layout.fields := by simp [items, EndpointCount.layout]
  have different : (items.map Prod.fst).Nodup := by
    have apart : EndpointCount.count ≠ EndpointCount.nak := fun same => by cases congrArg BitField.shift same
    simp [items, apart]
  obtain ⟨orders, reads, others, matchesAll⟩ := writes_independent named different 0x56
  refine ⟨by simp [layouts], by decide, (orders _ (.swap ..)).1, reads (EndpointCount.count, 0x19) (by simp [items]),
    reads (EndpointCount.nak, 0xff) (by simp [items]), (others 6 ?_).trans (by decide), matchesAll⟩
  simp [items, BitField.Covers, EndpointCount.count, EndpointCount.nak]

end FieldItems

end UsbDevice
