import UsbDevice.Register.Bank
import UsbDevice.Register.Layout

namespace UsbDevice

/-- The interrupt enables of the module. The module has no single switch for its interrupts. -/
structure Enables where
  oepie : Byte := 0
  iepie : Byte := 0
  ie : Byte := 0
  /-- Only the three supply enables. -/
  pwrctl : Word := 0
deriving DecidableEq, Repr

/-- The enables as the registers hold them. -/
def Enables.ofRegisters (regs : Registers) : Enables :=
  ⟨regs.oepie, regs.iepie, regs.ie, regs.pwrctl &&& PowerControl.enables⟩

/-- Sections in which every interrupt of the module is off. They nest, and the outermost one remembers the
enables. -/
structure Masking where
  saved : Enables := {}
  /-- How many sections are open. It is assumed that a machine word can count them. -/
  depth : Nat := 0
deriving DecidableEq, Repr

/-- A masking with the registers it works on. -/
structure MaskedBank where
  masking : Masking := {}
  registers : Registers := {}
deriving DecidableEq

namespace Masking

/-- Opens a section. The outermost one takes the enables out of the registers. -/
def enter (m : Masking) (regs : Registers) : MaskedBank :=
  if m.depth = 0 then
    { masking := { saved := .ofRegisters regs, depth := 1 }
      registers :=
        { regs with oepie := 0, iepie := 0, ie := 0, pwrctl := PowerControl.clearEnables.modify regs.pwrctl } }
  else { masking := { m with depth := m.depth + 1 }, registers := regs }

/-- Closes a section. The outermost one puts the enables back, and without an open section nothing happens. -/
def leave (m : Masking) (regs : Registers) : MaskedBank :=
  match m.depth with
  | 0 => { masking := m, registers := regs }
  | 1 =>
    { masking := { m with depth := 0 }
      registers :=
        { regs with
          oepie := m.saved.oepie, iepie := m.saved.iepie, ie := m.saved.ie
          pwrctl := regs.pwrctl ||| m.saved.pwrctl } }
  | depth + 2 => { masking := { m with depth := depth + 1 }, registers := regs }

/-- Forgets the enables. An open section stays open. -/
def forget (m : Masking) : Masking := { m with saved := {} }

end Masking

/-- What can happen to a masking and its registers. -/
inductive MaskingAction
  | enter
  | leave
  | forget
  | poke (change : Registers → Registers)

namespace MaskedBank

def act (b : MaskedBank) : MaskingAction → MaskedBank
  | .enter => b.masking.enter b.registers
  | .leave => b.masking.leave b.registers
  | .forget => { b with masking := b.masking.forget }
  | .poke change => { b with registers := change b.registers }

/-- How things stand after each action. -/
def run (b : MaskedBank) : List MaskingAction → List MaskedBank
  | [] => []
  | a :: as => b.act a :: (b.act a).run as

end MaskedBank

end UsbDevice
