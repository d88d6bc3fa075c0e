import UsbDevice.Proofs.FieldWrites
import UsbDevice.Proofs.RegisterFrame

namespace UsbDevice

/-- The registers that a section takes enables out of. -/
def Register.enables : List Register := [ie, iepie, oepie, pwrctl]

namespace Registers

/-- The registers inside a section. -/
def masked (regs : Registers) : Registers :=
  { regs with oepie := 0, iepie := 0, ie := 0, pwrctl := PowerControl.clearEnables.modify regs.pwrctl }

theorem masked_pwrctl (regs : Registers) : regs.masked.pwrctl &&& PowerControl.enables = 0 :=
  (FieldValue.modify_and_mask (v := PowerControl.clearEnables) (by decide) regs.pwrctl).1

/-- The enables that a section has taken out can be put back. -/
theorem masked_pwrctl_or (regs : Registers) :
    regs.masked.pwrctl ||| (Enables.ofRegisters regs).pwrctl = regs.pwrctl :=
  (FieldValue.modify_and_mask (v := PowerControl.clearEnables) (by decide) regs.pwrctl).2

theorem setByte_masked (regs : Registers) {r : Register} (other : r ∉ Register.enables) (i : Nat) (b : Byte) :
    regs.masked.setByte r i b = (regs.setByte r i b).masked ∧
      Enables.ofRegisters (regs.setByte r i b) = .ofRegisters regs := by
  cases r <;> first | exact ⟨rfl, rfl⟩ | exact absurd (by decide) other

/-- A poke that reaches none of the enables does the same inside a section as outside. -/
theorem poke_masked (regs : Registers) {w : Window} {offset : Nat} {bytes : List Byte}
    (outside : ∀ r ∈ Register.enables, ¬ r.Within w offset bytes.length) :
    regs.masked.poke w offset bytes = (regs.poke w offset bytes).masked ∧
      Enables.ofRegisters (regs.poke w offset bytes) = .ofRegisters regs := by
  refine poke_related (R := fun poked masked => masked = poked.masked ∧ Enables.ofRegisters poked = .ofRegisters regs)
    ?_ ⟨rfl, rfl⟩
  rintro poked _ r i b within ⟨rfl, saved⟩
  obtain ⟨byte, same⟩ := setByte_masked poked (fun member => outside r member within) i b
  exact ⟨byte, same.trans saved⟩

end Registers

namespace Masking

variable {m : Masking} {regs : Registers}

theorem enter_of_closed (closed : m.depth = 0) : m.enter regs = ⟨⟨.ofRegisters regs, 1⟩, regs.masked⟩ := if_pos closed

theorem enter_of_opened (opened : m.depth ≠ 0) : m.enter regs = ⟨{ m with depth := m.depth + 1 }, regs⟩ :=
  if_neg opened

/-- A section that is not the outermost one only comes off the count. -/
theorem leave_of_ne_one (other : m.depth ≠ 1) : m.leave regs = ⟨{ m with depth := m.depth - 1 }, regs⟩ := by
  obtain ⟨saved, depth⟩ := m
  rcases depth with _ | _ | depth
  · rfl
  · exact absurd rfl other
  · rfl

theorem leave_of_last (last : m.depth = 1) :
    m.leave regs =
      ⟨{ m with depth := 0 },
        { regs with
          oepie := m.saved.oepie, iepie := m.saved.iepie, ie := m.saved.ie
          pwrctl := regs.pwrctl ||| m.saved.pwrctl }⟩ := by
  unfold leave
  split
  · next none => cases last.symm.trans none
  · rfl
  · next more => cases last.symm.trans more

/-- The end of the outermost section brings back the registers from before it. -/
theorem leave_masked (last : m.depth = 1) (saved : m.saved = .ofRegisters regs) :
    m.leave regs.masked = ⟨{ m with depth := 0 }, regs⟩ := by
  have pwrctl := regs.masked_pwrctl_or
  rw [leave_of_last last, saved, pwrctl]
  rfl

end Masking

/-- The action sets enables without regard to open sections. -/
def ControllerAction.SetsEnables (a : ControllerAction) : Prop :=
  a = .bringUp ∨ a = .reset ∨ ∃ r ∈ Register.enables, a.Pokes r

instance (a : ControllerAction) : Decidable a.SetsEnables := inferInstanceAs (Decidable (_ ∨ _ ∨ _))

/-- The configuration is unlocked for the action. -/
def ControllerAction.Unlocks : ControllerAction → Prop
  | bringUp | connect | disconnect | mask | unmask | reset => True
  | _ => False

instance (a : ControllerAction) : Decidable a.Unlocks := by
  unfold ControllerAction.Unlocks
  split <;> infer_instance

namespace Controller

/-- `c'` stands as `c` does, but for the sections that have been opened in it alone. -/
inductive Masked (c : Controller) : Controller → Prop
  | outside (masking : Masking) (closed : masking.depth = 0) : Masked c { c with masking }
  | inside (masking : Masking) (opened : masking.depth ≠ 0) (saved : masking.saved = .ofRegisters c.registers) :
    Masked c { c with masking, registers := c.registers.masked }

variable {c c' : Controller} {buffers : Buffers} {a : ControllerAction}

theorem lock_eq {regs : Registers} (locked : regs.keypid = 0) : { regs with keypid := 0 } = regs := by
  cases regs
  cases locked
  rfl

def lockBank (c : Controller) (bank : MaskedBank) : Controller :=
  { c with masking := bank.masking, registers := { bank.registers with keypid := 0 } }

theorem maskInterrupts_of_closed (closed : c.masking.depth = 0) :
    c.maskInterrupts = c.lockBank ⟨⟨.ofRegisters c.registers, 1⟩, c.registers.masked⟩ :=
  (congrArg c.lockBank (Masking.enter_of_closed closed)).trans rfl

theorem maskInterrupts_of_opened (opened : c.masking.depth ≠ 0) :
    c.maskInterrupts = c.lockBank ⟨{ c.masking with depth := c.masking.depth + 1 }, c.registers⟩ :=
  (congrArg c.lockBank (Masking.enter_of_opened opened)).trans rfl

theorem unmaskInterrupts_of_last (last : c.masking.depth = 1) :
    c.unmaskInterrupts =
      c.lockBank
        ⟨{ c.masking with depth := 0 },
          { c.registers with
            oepie := c.masking.saved.oepie, iepie := c.masking.saved.iepie, ie := c.masking.saved.ie
            pwrctl := c.registers.pwrctl ||| c.masking.saved.pwrctl }⟩ :=
  (congrArg c.lockBank (Masking.leave_of_last last)).trans rfl

theorem unmaskInterrupts_of_ne_one (other : c.masking.depth ≠ 1) :
    c.unmaskInterrupts = c.lockBank ⟨{ c.masking with depth := c.masking.depth - 1 }, c.registers⟩ :=
  (congrArg c.lockBank (Masking.leave_of_ne_one other)).trans rfl

/-- Opening a section in `c'` alone changes nothing but what a section changes. -/
theorem Masked.mask (masked : c.Masked c') (locked : c.registers.keypid = 0) : c.Masked c'.maskInterrupts := by
  have lock : { c.registers.masked with keypid := 0 } = c.registers.masked := lock_eq locked
  cases masked with
  | outside masking closed =>
    rw [maskInterrupts_of_closed closed, lockBank, lock]
    exact .inside _ (Nat.succ_ne_zero 0) rfl
  | inside masking opened saved =>
    rw [maskInterrupts_of_opened opened, lockBank, lock]
    exact .inside _ (Nat.succ_ne_zero _) saved

/-- Closing a section in `c'` alone, or none, changes nothing but what a section changes. -/
theorem Masked.unmask (masked : c.Masked c') (locked : c.registers.keypid = 0) : c.Masked c'.unmaskInterrupts := by
  have lock : { c.registers.masked with keypid := 0 } = c.registers.masked := lock_eq locked
  cases masked with
  | outside masking closed =>
    rw [unmaskInterrupts_of_ne_one (by simp [closed]), lockBank, lock_eq locked]
    exact .outside _ (by simp [closed])
  | inside masking opened saved =>
    by_cases last : masking.depth = 1
    · have left : unmaskInterrupts { c with masking, registers := c.registers.masked } =
          { c with
            masking := { masking with depth := 0 }
            registers := { c.registers with keypid := 0 } } := by
        have unlocked : masking.saved = .ofRegisters { c.registers with keypid := unlockKey } := saved
        exact congrArg c.lockBank (Masking.leave_masked last unlocked)
      rw [left, lock_eq locked]
      exact .outside _ rfl
    · rw [unmaskInterrupts_of_ne_one last, lockBank, lock]
      exact .inside _ (by simp only; omega) saved

theorem raise_masking (c : Controller) (masking : Masking) (vector : Option Word) :
    raise { c with masking } vector = { c.raise vector with masking } := by
  cases vector <;> rfl

theorem copySetup_masking (c : Controller) (masking : Masking) :
    copySetup { c with masking } = { c.copySetup with masking } := by
  simp only [copySetup]
  split <;> rfl

/-- No other action but bringing up works on the sections. -/
theorem act_masking (c : Controller) (buffers : Buffers) (neither : a ≠ .mask ∧ a ≠ .unmask) (masking : Masking) :
    ∃ after : Masking, after.depth = masking.depth ∧ (a ≠ .bringUp → after = masking) ∧
      act buffers { c with masking } a = { c.act buffers a with masking := after } := by
  cases a with
  | mask => exact absurd rfl neither.1
  | unmask => exact absurd rfl neither.2
  | bringUp => exact ⟨masking.forget, rfl, fun other => absurd rfl other, rfl⟩
  | raise vector => exact ⟨masking, rfl, fun _ => rfl, raise_masking c masking vector⟩
  | interrupt vector =>
    refine ⟨masking, rfl, fun _ => rfl, ?_⟩
    simp only [act, raise_masking, copySetup_masking]
    split <;> rfl
  | _ => exact ⟨masking, rfl, fun _ => rfl, rfl⟩

theorem masking_act (c : Controller) (buffers : Buffers) (neither : a ≠ .mask ∧ a ≠ .unmask) (other : a ≠ .bringUp) :
    (c.act buffers a).masking = c.masking := by
  obtain ⟨after, _, kept, acted⟩ := act_masking c buffers neither c.masking
  obtain rfl := kept other
  have same : (act buffers { c with masking := c.masking } a).masking = c.masking := by rw [acted]
  exact same

/-- What is saved is nothing, or the enables as they were when the outermost section was opened. -/
theorem saved_act (c : Controller) (buffers : Buffers) {P : Enables → Prop} (none : P {})
    (taken : P (.ofRegisters c.registers)) (saved : P c.masking.saved) : P (c.act buffers a).masking.saved := by
  by_cases opens : a = .mask
  · subst opens
    simp only [act]
    by_cases closed : c.masking.depth = 0
    · rw [maskInterrupts_of_closed closed]
      exact taken
    · rw [maskInterrupts_of_opened closed]
      exact saved
  by_cases closes : a = .unmask
  · subst closes
    simp only [act]
    by_cases last : c.masking.depth = 1
    · rw [unmaskInterrupts_of_last last]
      exact saved
    · rw [unmaskInterrupts_of_ne_one last]
      exact saved
  by_cases brings : a = .bringUp
  · subst brings
    exact none
  · rw [c.masking_act buffers ⟨opens, closes⟩ brings]
    exact saved

theorem startControl_masked (regs : Registers) (d : Direction) :
    startControl regs.masked d = (startControl regs d).masked ∧
      Enables.ofRegisters (startControl regs d) = .ofRegisters regs := by
  cases d <;> exact ⟨rfl, rfl⟩

theorem lend_masked (c : Controller) (id : SlotId) (buffer : Slice) :
    lend { c with registers := c.registers.masked } id buffer
        = { c.lend id buffer with registers := (c.lend id buffer).registers.masked } ∧
      Enables.ofRegisters (c.lend id buffer).registers = .ofRegisters c.registers := by
  obtain ⟨started, saved⟩ := startControl_masked c.registers id.direction
  unfold lend
  split
  · exact ⟨by rw [started], saved⟩
  · exact ⟨rfl, rfl⟩

theorem raise_masked (c : Controller) (vector : Option Word) :
    raise { c with registers := c.registers.masked } vector
        = { c.raise vector with registers := (c.raise vector).registers.masked } ∧
      Enables.ofRegisters (c.raise vector).registers = .ofRegisters c.registers := by
  cases vector <;> exact ⟨rfl, rfl⟩

theorem copySetup_masked (c : Controller) :
    copySetup { c with registers := c.registers.masked }
        = { c.copySetup with registers := c.copySetup.registers.masked } ∧
      c.copySetup.registers = c.registers := by
  have flag : c.registers.masked.ifg = c.registers.ifg := rfl
  simp only [copySetup, flag]
  split <;> exact ⟨rfl, rfl⟩

/-- An action that neither opens nor closes sections is the same inside a section and outside, unless it sets
enables. -/
theorem act_masked (c : Controller) (buffers : Buffers) (neither : a ≠ .mask ∧ a ≠ .unmask) (sets : ¬ a.SetsEnables) :
    act buffers { c with registers := c.registers.masked } a
        = { c.act buffers a with registers := (c.act buffers a).registers.masked } ∧
      Enables.ofRegisters (c.act buffers a).registers = .ofRegisters c.registers := by
  cases a with
  | mask => exact absurd rfl neither.1
  | unmask => exact absurd rfl neither.2
  | bringUp => exact absurd (Or.inl rfl) sets
  | reset => exact absurd (Or.inr (Or.inl rfl)) sets
  | poke window offset bytes =>
    have outside : ∀ r ∈ Register.enables, ¬ r.Within window offset bytes.length := fun r member within =>
      sets (Or.inr (Or.inr ⟨r, member, within⟩))
    obtain ⟨poked, saved⟩ := c.registers.poke_masked outside
    exact ⟨congrArg (fun regs => { c with registers := regs }) poked, saved⟩
  | lend id buffer => exact c.lend_masked id buffer
  | setAddress address =>
    exact lend_masked
      { c with registers := { c.registers with funadr := (FunctionAddress.address.val address).modify 0 } }
      .controlIn .empty
  | raise vector => exact c.raise_masked vector
  | interrupt vector =>
    obtain ⟨raised, saved⟩ := c.raise_masked vector
    obtain ⟨copied, same⟩ := (c.raise vector).copySetup_masked
    simp only [act, raised, copied]
    split
    · exact ⟨rfl, saved⟩
    · exact ⟨rfl, same ▸ saved⟩
  | transmit =>
    simp only [act]
    split <;> exact ⟨rfl, rfl⟩
  | _ => exact ⟨rfl, rfl⟩

/-- What is done to both controllers alike, and sets no enables inside a section, leaves no other difference. -/
theorem Masked.act (masked : c.Masked c') (neither : a ≠ .mask ∧ a ≠ .unmask)
    (sets : a.SetsEnables → c'.masking.depth = 0) : (c.act buffers a).Masked (c'.act buffers a) := by
  cases masked with
  | outside masking closed =>
    obtain ⟨after, depth, _, acted⟩ := act_masking c buffers neither masking
    rw [acted]
    exact .outside after (depth.trans closed)
  | inside masking opened saved =>
    -- Inside a section the masking stays as it is, since bringing up would set enables.
    have quiet : ¬ a.SetsEnables := mt sets opened
    obtain ⟨after, depth, same, acted⟩ :=
      act_masking { c with registers := c.registers.masked } buffers neither masking
    obtain ⟨hidden, kept⟩ := act_masked c buffers neither quiet
    obtain rfl := same fun brings => quiet (Or.inl brings)
    rw [acted, hidden]
    exact .inside _ opened (saved.trans kept.symm)

theorem lend_keypid (c : Controller) (id : SlotId) (buffer : Slice) :
    (c.lend id buffer).registers.keypid = c.registers.keypid := by
  unfold lend
  split
  · unfold startControl
    cases id.direction <;> rfl
  · rfl

/-- What works on locked registers leaves them locked, and nothing else has to do with the lock. -/
theorem keypid_act (c : Controller) (buffers : Buffers) (pokes : ¬ a.Pokes .keypid) :
    (c.act buffers a).registers.keypid = if a.Unlocks then 0 else c.registers.keypid := by
  cases a with
  | poke window offset bytes => exact c.registers.poke_keypid pokes
  | lend id buffer => exact c.lend_keypid id buffer
  | setAddress address => exact lend_keypid _ .controlIn .empty
  | raise vector => cases vector <;> rfl
  | interrupt vector =>
    obtain ⟨_, _, begun⟩ := c.act_interrupt buffers vector
    rw [begun]
    rfl
  | transmit =>
    simp only [act]
    split <;> rfl
  | _ => rfl

theorem act_keypid (locked : c.registers.keypid = 0) (pokes : ¬ a.Pokes .keypid) :
    (c.act buffers a).registers.keypid = 0 := by
  rw [c.keypid_act buffers pokes, locked, ite_self]

theorem Masked.registers (masked : c.Masked c') :
    (c'.masking.depth = 0 → c'.registers = c.registers) ∧
      (c'.masking.depth ≠ 0 → c'.registers = c.registers.masked) := by
  cases masked with
  | outside masking closed => exact ⟨fun _ => rfl, fun opened => absurd closed opened⟩
  | inside masking opened saved => exact ⟨fun closed => absurd closed opened, fun _ => rfl⟩

theorem Masked.others (masked : c.Masked c') :
    c'.slots = c.slots ∧ c'.setupPacket = c.setupPacket ∧ c'.halted = c.halted ∧ c'.client = c.client ∧
      c'.registers.vecint = c.registers.vecint ∧ c'.registers.ifg = c.registers.ifg ∧
      c'.registers.sublk = c.registers.sublk := by
  cases masked <;> exact ⟨rfl, rfl, rfl, rfl, rfl, rfl, rfl⟩

theorem Masked.served (masked : c.Masked c') : c'.served = c.served := by
  obtain ⟨_, _, _, _, vecint, _, _⟩ := masked.others
  unfold Controller.served
  rw [vecint]

theorem Masked.verdict (masked : c.Masked c') : c'.verdict = c.verdict := by
  obtain ⟨_, _, _, _, vecint, _, _⟩ := masked.others
  unfold Controller.verdict
  rw [vecint]

theorem Masked.told (masked : c.Masked c') (a : ControllerAction) : c'.told? a = c.told? a := by
  obtain ⟨slots, _, halted, _, _, ifg, sublk⟩ := masked.others
  cases a with
  | interrupt => simp only [told?, halted, ifg, sublk]
  | transmit => simp only [told?, slots]
  | _ => rfl

end Controller

end UsbDevice
