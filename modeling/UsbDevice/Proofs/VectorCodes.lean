import UsbDevice.Source

namespace UsbDevice

namespace Source

/-- A source that the module has: the endpoints besides endpoint zero are numbered from one to seven. -/
def Proper : Source → Prop
  | inputEndpoint n | outputEndpoint n => 1 ≤ n.toNat ∧ n.toNat ≤ 7
  | _ => True

/-- The codes of the numbered endpoints stand two apart. -/
theorem numbered_eq_some_iff {base code : Word} {n : Byte} (first : 1 ≤ n.toNat)
    (room : base.toNat + 2 * (n.toNat - 1) < 0x10000) :
    (if n = 0 then Option.none else some (base + 2 * (n.setWidth 16 - 1))) = some code ↔
      code.toNat = base.toNat + 2 * (n.toNat - 1) := by
  have other : n ≠ 0 := by
    rintro rfl
    exact absurd first (by decide)
  have wide : (n.setWidth 16).toNat = n.toNat := by
    rw [BitVec.toNat_setWidth]
    omega
  rw [if_neg other, Option.some.injEq]
  constructor
  · rintro rfl
    bv_omega
  · intro same
    bv_omega

/-- The number of an endpoint is counted from the base of its range. -/
theorem code?_of_range (base : Word) {code : Word} (range : base.toNat ≤ code.toNat ∧ code.toNat ≤ base.toNat + 12 ∧
    code.toNat % 2 = base.toNat % 2) :
    let n : Byte := BitVec.ofNat 8 ((code.toNat - base.toNat) / 2 + 1)
    (1 ≤ n.toNat ∧ n.toNat ≤ 7) ∧
      (if n = 0 then Option.none else some (base + 2 * (n.setWidth 16 - 1))) = some code := by
  intro n
  have number : n.toNat = (code.toNat - base.toNat) / 2 + 1 := by
    rw [BitVec.toNat_ofNat]
    omega
  exact ⟨by omega, (numbered_eq_some_iff (by omega) (by omega)).mpr (by omega)⟩

/-- What is read from a code is a source of the module, and it has this code. -/
theorem code?_of_ofCode? {code : Word} {source : Source} (read : ofCode? code = some source) :
    source.Proper ∧ source.code? = some code := by
  unfold ofCode? at read
  split at read
  case h_16 =>
    split at read
    · next range =>
      obtain rfl := Option.some.inj read
      exact code?_of_range 0x24 range
    · split at read
      · next range =>
        obtain rfl := Option.some.inj read
        exact code?_of_range 0x32 range
      · cases read
  all_goals
    next same =>
      obtain rfl := Option.some.inj read
      exact ⟨trivial, congrArg some (BitVec.eq_of_toNat_eq same.symm)⟩

theorem ofCode?_numbered : ∀ k < 7,
    ofCode? (BitVec.ofNat 16 (0x24 + 2 * k)) = some (inputEndpoint (BitVec.ofNat 8 (k + 1))) ∧
      ofCode? (BitVec.ofNat 16 (0x32 + 2 * k)) = some (outputEndpoint (BitVec.ofNat 8 (k + 1))) := by
  decide

/-- A source of the module is read back from its code. -/
theorem ofCode?_of_code? {code : Word} {source : Source} (proper : source.Proper) (coded : source.code? = some code) :
    ofCode? code = some source := by
  have counted {base : Word} {n : Byte} (room : base.toNat + 14 < 0x10000) (number : 1 ≤ n.toNat ∧ n.toNat ≤ 7)
      (coded : (if n = 0 then Option.none else some (base + 2 * (n.setWidth 16 - 1))) = some code) :
      ∃ k < 7, code = BitVec.ofNat 16 (base.toNat + 2 * k) ∧ n = BitVec.ofNat 8 (k + 1) := by
    have place := (numbered_eq_some_iff number.1 (by omega)).mp coded
    exact ⟨n.toNat - 1, by omega, by bv_omega, by bv_omega⟩
  cases source with
  | inputEndpoint n =>
    obtain ⟨k, inside, rfl, rfl⟩ := counted (by decide) proper coded
    exact (ofCode?_numbered k inside).1
  | outputEndpoint n =>
    obtain ⟨k, inside, rfl, rfl⟩ := counted (by decide) proper coded
    exact (ofCode?_numbered k inside).2
  | _ =>
    obtain rfl := Option.some.inj coded
    rfl

/-- Reading a code and giving one are inverse, for the sources of the module. -/
theorem ofCode?_eq_some_iff {code : Word} {source : Source} :
    ofCode? code = some source ↔ source.Proper ∧ source.code? = some code :=
  ⟨code?_of_ofCode?, fun coded => ofCode?_of_code? coded.1 coded.2⟩

end Source

end UsbDevice
