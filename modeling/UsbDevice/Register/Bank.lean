import UsbDevice.Bytes

namespace UsbDevice

/-- The three blocks of addresses in which the module can be reached. -/
inductive Window
  | config
  | operation
  | buffer
deriving DecidableEq, Repr

namespace Window

def all : List Window := [config, operation, buffer]

def name : Window → String
  | config => "config"
  | operation => "operation"
  | buffer => "buffer"

/-- Address of the first byte. -/
def base : Window → Nat
  | config => 0x0900
  | operation => 0x0920
  | buffer => 0x2370

/-- Bytes from the first register to the end of the last. -/
def size : Window → Nat
  | config => 0x16
  | operation => 0x20
  | buffer => 0x18

end Window

/-- The registers of the module that the driver uses. -/
inductive Register
  | keypid
  | cnf
  | pwrctl
  | iepcnf0
  | iepcnt0
  | oepcnf0
  | oepcnt0
  | iepie
  | oepie
  | iepifg
  | oepifg
  | vecint
  | ctl
  | ie
  | ifg
  | funadr
  | iep0Buf
  | sublk
deriving DecidableEq, Repr

namespace Register

def all : List Register :=
  [keypid, cnf, pwrctl, iepcnf0, iepcnt0, oepcnf0, oepcnt0, iepie, oepie, iepifg, oepifg, vecint, ctl, ie, ifg,
    funadr, iep0Buf, sublk]

def name : Register → String
  | keypid => "keypid"
  | cnf => "cnf"
  | pwrctl => "pwrctl"
  | iepcnf0 => "iepcnf_0"
  | iepcnt0 => "iepcnt_0"
  | oepcnf0 => "oepcnf_0"
  | oepcnt0 => "oepcnt_0"
  | iepie => "iepie"
  | oepie => "oepie"
  | iepifg => "iepifg"
  | oepifg => "oepifg"
  | vecint => "vecint"
  | ctl => "ctl"
  | ie => "ie"
  | ifg => "ifg"
  | funadr => "funadr"
  | iep0Buf => "iep0_buf"
  | sublk => "sublk"

def window : Register → Window
  | keypid | cnf | pwrctl => .config
  | iep0Buf | sublk => .buffer
  | _ => .operation

/-- Place of the register in its window. -/
def offset : Register → Nat
  | keypid => 0x00
  | cnf => 0x02
  | pwrctl => 0x08
  | iepcnf0 => 0x00
  | iepcnt0 => 0x01
  | oepcnf0 => 0x02
  | oepcnt0 => 0x03
  | iepie => 0x0e
  | oepie => 0x0f
  | iepifg => 0x10
  | oepifg => 0x11
  | vecint => 0x12
  | ctl => 0x1c
  | ie => 0x1d
  | ifg => 0x1e
  | funadr => 0x1f
  | iep0Buf => 0x08
  | sublk => 0x10

/-- Bytes of the register. -/
def size : Register → Nat
  | keypid | cnf | pwrctl | vecint => 2
  | iep0Buf | sublk => 8
  | _ => 1

/-- The register that owns the byte at `offset` of `w`, and which of its bytes that is. -/
def locate? (w : Window) (offset : Nat) : Option (Register × Nat) :=
  (all.find? fun r => r.window = w ∧ r.offset ≤ offset ∧ offset < r.offset + r.size).map
    fun r => (r, offset - r.offset)

end Register

/-- The contents of the registers. They are memory: a read changes nothing. -/
structure Registers where
  keypid : Word := 0
  cnf : Word := 0
  pwrctl : Word := 0
  iepcnf0 : Byte := 0
  iepcnt0 : Byte := 0
  oepcnf0 : Byte := 0
  oepcnt0 : Byte := 0
  iepie : Byte := 0
  oepie : Byte := 0
  iepifg : Byte := 0
  oepifg : Byte := 0
  vecint : Word := 0
  ctl : Byte := 0
  ie : Byte := 0
  ifg : Byte := 0
  funadr : Byte := 0
  iep0Buf : Packet := .zero
  sublk : Packet := .zero
deriving DecidableEq

namespace Registers

/-- The bytes of `r`, at rising addresses. -/
def bytes (regs : Registers) : Register → List Byte
  | .keypid => [regs.keypid.byte 0, regs.keypid.byte 1]
  | .cnf => [regs.cnf.byte 0, regs.cnf.byte 1]
  | .pwrctl => [regs.pwrctl.byte 0, regs.pwrctl.byte 1]
  | .iepcnf0 => [regs.iepcnf0]
  | .iepcnt0 => [regs.iepcnt0]
  | .oepcnf0 => [regs.oepcnf0]
  | .oepcnt0 => [regs.oepcnt0]
  | .iepie => [regs.iepie]
  | .oepie => [regs.oepie]
  | .iepifg => [regs.iepifg]
  | .oepifg => [regs.oepifg]
  | .vecint => [regs.vecint.byte 0, regs.vecint.byte 1]
  | .ctl => [regs.ctl]
  | .ie => [regs.ie]
  | .ifg => [regs.ifg]
  | .funadr => [regs.funadr]
  | .iep0Buf => regs.iep0Buf.toList
  | .sublk => regs.sublk.toList

/-- Replaces the byte at `i` of `r`. -/
def setByte (regs : Registers) (r : Register) (i : Nat) (b : Byte) : Registers :=
  match r with
  | .keypid => { regs with keypid := regs.keypid.setByte i b }
  | .cnf => { regs with cnf := regs.cnf.setByte i b }
  | .pwrctl => { regs with pwrctl := regs.pwrctl.setByte i b }
  | .iepcnf0 => { regs with iepcnf0 := b }
  | .iepcnt0 => { regs with iepcnt0 := b }
  | .oepcnf0 => { regs with oepcnf0 := b }
  | .oepcnt0 => { regs with oepcnt0 := b }
  | .iepie => { regs with iepie := b }
  | .oepie => { regs with oepie := b }
  | .iepifg => { regs with iepifg := b }
  | .oepifg => { regs with oepifg := b }
  | .vecint => { regs with vecint := regs.vecint.setByte i b }
  | .ctl => { regs with ctl := b }
  | .ie => { regs with ie := b }
  | .ifg => { regs with ifg := b }
  | .funadr => { regs with funadr := b }
  | .iep0Buf => { regs with iep0Buf := regs.iep0Buf.setIfInBounds i b }
  | .sublk => { regs with sublk := regs.sublk.setIfInBounds i b }

/-- Writes `bytes` from `offset` of `w` upwards. Bytes that belong to no register are lost. -/
def poke (regs : Registers) (w : Window) (offset : Nat) : List Byte → Registers
  | [] => regs
  | b :: bytes =>
    match Register.locate? w offset with
    | some (r, i) => (regs.setByte r i b).poke w (offset + 1) bytes
    | none => regs.poke w (offset + 1) bytes

/-- Writes `bytes` over the start of `r`. -/
def pokeRegister (regs : Registers) (r : Register) (bytes : List Byte) : Registers :=
  regs.poke r.window r.offset (bytes.take r.size)

end Registers

end UsbDevice
