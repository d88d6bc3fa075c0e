import UsbDevice.Proofs.ControllerAction

namespace UsbDevice

/-- Some byte of `r` is among the `size` bytes from `offset` of `w` upwards. -/
def Register.Within (r : Register) (w : Window) (offset size : Nat) : Prop :=
  ∃ i < size, (Register.locate? w (offset + i)).map Prod.fst = some r

instance (r : Register) (w : Window) (offset size : Nat) : Decidable (r.Within w offset size) :=
  inferInstanceAs (Decidable (∃ i < size, _))

namespace Registers

theorem bytes_setByte_of_ne (regs : Registers) {r other : Register} (different : other ≠ r) (i : Nat) (b : Byte) :
    (regs.setByte r i b).bytes other = regs.bytes other := by
  cases r <;> cases other <;> first | rfl | exact absurd rfl different

/-- What holds between two contents of the registers, and between them after the same write to a register that a poke
reaches, holds after the poke. -/
theorem poke_related {R : Registers → Registers → Prop} {w : Window} {offset : Nat} {bytes : List Byte}
    (kept : ∀ regs regs' r i b, Register.Within r w offset bytes.length → R regs regs' →
      R (regs.setByte r i b) (regs'.setByte r i b))
    {regs regs' : Registers} (first : R regs regs') : R (regs.poke w offset bytes) (regs'.poke w offset bytes) := by
  induction bytes generalizing regs regs' offset with
  | nil => exact first
  | cons b bytes ih =>
    -- The rest of the poke begins one byte further up, and reaches nothing that the whole does not reach.
    have rest : ∀ regs regs' r i b, Register.Within r w (offset + 1) bytes.length → R regs regs' →
        R (regs.setByte r i b) (regs'.setByte r i b) := by
      rintro regs regs' r i b ⟨j, inside, found⟩
      refine kept regs regs' r i b ⟨j + 1, Nat.succ_lt_succ inside, ?_⟩
      rwa [show offset + (j + 1) = offset + 1 + j by omega]
    unfold poke
    cases located : Register.locate? w offset with
    | none => exact ih rest first
    | some place =>
      have reached : place.1.Within w offset (bytes.length + 1) :=
        ⟨0, Nat.succ_pos _, by rw [Nat.add_zero, located]; rfl⟩
      exact ih rest (kept regs regs' place.1 place.2 b reached first)

/-- A poke leaves the registers alone that it does not reach. -/
theorem bytes_poke (regs : Registers) {r : Register} {w : Window} {offset : Nat} {bytes : List Byte}
    (outside : ¬ r.Within w offset bytes.length) : (regs.poke w offset bytes).bytes r = regs.bytes r := by
  refine @poke_related (fun poked _ => poked.bytes r = regs.bytes r) w offset bytes ?_ regs regs rfl
  intro poked _ other i b within same
  have different : r ≠ other := by
    rintro rfl
    exact outside within
  rw [bytes_setByte_of_ne poked different, same]

theorem poke_keypid (regs : Registers) {w : Window} {offset : Nat} {bytes : List Byte}
    (outside : ¬ Register.keypid.Within w offset bytes.length) :
    (regs.poke w offset bytes).keypid = regs.keypid := by
  refine @poke_related (fun poked _ => poked.keypid = regs.keypid) w offset bytes ?_ regs regs rfl
  intro poked _ r i b within same
  cases r with
  | keypid => exact absurd within outside
  | _ => exact same

/-- A poke that reaches no register changes nothing. -/
theorem poke_of_outside (regs : Registers) {w : Window} {offset : Nat} {bytes : List Byte}
    (outside : ∀ r : Register, ¬ r.Within w offset bytes.length) : regs.poke w offset bytes = regs := by
  refine @poke_related (fun poked _ => poked = regs) w offset bytes ?_ regs regs rfl
  intro _ _ r _ _ within _
  exact absurd within (outside r)

theorem poke_iepcnt0 (regs : Registers) {w : Window} {offset : Nat} {bytes : List Byte}
    (outside : ¬ Register.iepcnt0.Within w offset bytes.length) :
    (regs.poke w offset bytes).iepcnt0 = regs.iepcnt0 :=
  List.singleton_inj.mp (bytes_poke regs outside)

theorem poke_oepcnt0 (regs : Registers) {w : Window} {offset : Nat} {bytes : List Byte}
    (outside : ¬ Register.oepcnt0.Within w offset bytes.length) :
    (regs.poke w offset bytes).oepcnt0 = regs.oepcnt0 :=
  List.singleton_inj.mp (bytes_poke regs outside)

theorem poke_iep0Buf (regs : Registers) {w : Window} {offset : Nat} {bytes : List Byte}
    (outside : ¬ Register.iep0Buf.Within w offset bytes.length) :
    (regs.poke w offset bytes).iep0Buf = regs.iep0Buf :=
  Vector.toList_inj.mp (bytes_poke regs outside)

end Registers

/-! Opening and closing sections writes to the enables, and locks the configuration. -/

namespace Controller

theorem maskInterrupts_registers (c : Controller) :
    ∃ oepie iepie ie pwrctl,
      c.maskInterrupts.registers = { c.registers with keypid := 0, oepie, iepie, ie, pwrctl } := by
  unfold maskInterrupts Masking.enter
  split <;> exact ⟨_, _, _, _, rfl⟩

theorem unmaskInterrupts_registers (c : Controller) :
    ∃ oepie iepie ie pwrctl,
      c.unmaskInterrupts.registers = { c.registers with keypid := 0, oepie, iepie, ie, pwrctl } := by
  unfold unmaskInterrupts Masking.leave
  split <;> exact ⟨_, _, _, _, rfl⟩

theorem startControl_iep0Buf (regs : Registers) (d : Direction) : (startControl regs d).iep0Buf = regs.iep0Buf := by
  cases d <;> rfl

theorem startControl_iepcnt0 (regs : Registers) (d : Direction) : (startControl regs d).iepcnt0 = regs.iepcnt0 := by
  cases d <;> rfl

end Controller

def ControllerAction.Pokes (a : ControllerAction) (r : Register) : Prop :=
  match a with
  | .poke window offset bytes => r.Within window offset bytes.length
  | _ => False

instance (a : ControllerAction) (r : Register) : Decidable (a.Pokes r) := by
  unfold ControllerAction.Pokes
  split <;> infer_instance

namespace Session

def Pokes {σ : Type} (s : Session σ) (r : Register) : Prop := s.action.Pokes r

instance {σ : Type} (s : Session σ) (r : Register) : Decidable (s.Pokes r) :=
  inferInstanceAs (Decidable (s.action.Pokes r))

end Session

end UsbDevice
