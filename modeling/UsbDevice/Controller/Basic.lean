import UsbDevice.Config
import UsbDevice.Debug.Message
import UsbDevice.Masking
import UsbDevice.Slots

namespace UsbDevice

/-- The USB device controller as its driver sees it. -/
structure Controller where
  registers : Registers := {}
  masking : Masking := {}
  slots : Slots := .initial
  /-- The last SETUP packet. -/
  setupPacket : Packet := .zero
  /-- A fault has stopped the driver. -/
  halted : Bool := false
  /-- Who is told of bus events. -/
  client : Option Nat := none
deriving DecidableEq

/-- What an operation leaves: the controller, what it prints, and its answer. -/
structure Outcome (α : Type) where
  controller : Controller
  said : List Message := []
  answer : α

namespace Controller

/-- The value that unlocks the configuration registers. -/
def unlockKey : Word := 0x9628

/-- Works on the registers with the configuration unlocked, and locks it again. -/
def withUnlocked (c : Controller) (f : Registers → Registers) : Controller :=
  { c with registers := { f { c.registers with keypid := unlockKey } with keypid := 0 } }

def progress? (c : Controller) (e : Endpoint) : Option Progress :=
  (SlotId.ofEndpoint? e).map fun id => (c.slots.get id).progress

def setClient (c : Controller) (client : Nat) : Controller := { c with client := some client }

/-- Opens a section without interrupts of the module. -/
def maskInterrupts (c : Controller) : Controller :=
  let entered := c.masking.enter { c.registers with keypid := unlockKey }
  { c with masking := entered.masking, registers := { entered.registers with keypid := 0 } }

/-- Closes a section without interrupts of the module. -/
def unmaskInterrupts (c : Controller) : Controller :=
  let left := c.masking.leave { c.registers with keypid := unlockKey }
  { c with masking := left.masking, registers := { left.registers with keypid := 0 } }

/-- Switches the module on with nothing armed but the bus reset, and shows the device to the host. -/
def bringUp (c : Controller) : Outcome Unit where
  controller :=
    { c.withUnlocked fun regs =>
        { regs with
          cnf := ModuleConfig.pullUpEnable.set.modify (ModuleConfig.moduleEnable.set.modify regs.cnf)
          oepie := 0, iepie := 0, oepifg := 0, iepifg := 0, ifg := 0, vecint := 0
          ie := BusEnable.reset.set.modify 0
          pwrctl := (PowerControl.clearEnables + PowerControl.clearFlags).modify regs.pwrctl }
      with masking := c.masking.forget }
  said := [.literal "msp430x5xx usb: initialized, waiting for bus reset"]
  answer := ()

/-- Switches the pull-up on, so that the host sees the device. -/
def connect (c : Controller) : Outcome Unit where
  controller := c.withUnlocked fun regs => { regs with cnf := ModuleConfig.pullUpEnable.set.modify regs.cnf }
  said := [.literal "msp430x5xx usb: pull-up enabled"]
  answer := ()

/-- Switches the pull-up off, so that the host sees the device leave. -/
def disconnect (c : Controller) : Outcome Unit where
  controller := c.withUnlocked fun regs => { regs with cnf := ModuleConfig.pullUpEnable.clear.modify regs.cnf }
  said := [.literal "msp430x5xx usb: pull-up released"]
  answer := ()

/-- A message that is printed only if the firmware traces packets. -/
def traced (config : Config) (pieces : Pieces) : List Message := if config.traceUsb then [.line pieces] else []

/-- Readies endpoint 0 for a transfer. Towards the host the interrupt is raised by hand, since it comes by itself
only after a packet has gone out. -/
def startControl (regs : Registers) (d : Direction) : Registers :=
  let regs := { regs with ctl := (BusControl.toward d).modify regs.ctl }
  match d with
  | .toDevice => { regs with oepcnt0 := EndpointCount.nak.clear.modify regs.oepcnt0 }
  | .toHost => { regs with iepifg := EndpointBits.endpointZero.set.modify regs.iepifg }

/-- Lends `buffer` for a transfer on `e`. Only endpoint 0 is started. -/
def queueTransfer (config : Config) (c : Controller) (e : Endpoint) (buffer : Slice) :
    Outcome (Except ErrorCode Unit) :=
  match SlotId.ofEndpoint? e with
  | none => { controller := c, answer := .error .inval }
  | some id =>
    { controller :=
        { c with
          slots := c.slots.modify id (·.start buffer)
          registers := if e.number = 0 then startControl c.registers e.direction else c.registers }
      said := traced config <|
        ["msp430x5xx usb: queue "] ++ Pieces.prefixedHex 2 e.address.toNat ++ [", "] ++ Pieces.decimal buffer.length
          ++ [" bytes"]
      answer := .ok () }

/-- Sets the device address, which has seven bits, and acknowledges it with an empty packet. -/
def setDeviceAddress (config : Config) (c : Controller) (address : Byte) : Outcome Unit :=
  let addressed := { c with
    registers := { c.registers with funadr := (FunctionAddress.address.val address).modify 0 } }
  let status := addressed.queueTransfer config .controlIn .empty
  { controller := status.controller
    said := .line (["msp430x5xx usb: address "] ++ Pieces.decimal (address &&& 0x7f).toNat) :: status.said
    answer := () }

def setConfiguration (config : Config) (c : Controller) (configuration : Byte) : Outcome Unit where
  controller := c
  said := traced config (["msp430x5xx usb: configuration "] ++ Pieces.decimal configuration.toNat)
  answer := ()

def remoteWakeup (c : Controller) : Outcome Unit where
  controller := c
  said := [.literal "msp430x5xx usb: remote wakeup not supported"]
  answer := ()

/-- What an endpoint descriptor says. -/
structure EndpointDescriptor where
  endpoint : Endpoint
  transferType : TransferType
  maxPacketSize : Word
  interval : Byte
deriving DecidableEq, Repr

def openEndpoint (c : Controller) (d : EndpointDescriptor) : Outcome (Except ErrorCode Unit) where
  controller := c
  said := [.line (["msp430x5xx usb: cannot open endpoint "] ++ Pieces.prefixedHex 2 d.endpoint.address.toNat)]
  answer := .error .nosupport

def stall (c : Controller) (e : Endpoint) : Outcome Unit where
  controller := c
  said := [.line (["msp430x5xx usb: stall of "] ++ Pieces.prefixedHex 2 e.address.toNat ++ [" not supported"])]
  answer := ()

def clearStall (c : Controller) (e : Endpoint) : Outcome Unit where
  controller := c
  said := [.line (["msp430x5xx usb: clear stall of "] ++ Pieces.prefixedHex 2 e.address.toNat ++ [" not supported"])]
  answer := ()

/-- The registers and the transfers of endpoint 0, as messages. -/
def stateReport (c : Controller) : List Message :=
  let regs := c.registers
  [.line <|
      ["msp430x5xx usb: state=", if c.halted then "Halted" else "Running"]
        ++ [" cnf="] ++ Pieces.prefixedHex 4 regs.cnf.toNat ++ [" pwrctl="] ++ Pieces.prefixedHex 4 regs.pwrctl.toNat
        ++ [" ctl="] ++ Pieces.prefixedHex 2 regs.ctl.toNat ++ [" ie="] ++ Pieces.prefixedHex 2 regs.ie.toNat
        ++ [" ifg="] ++ Pieces.prefixedHex 2 regs.ifg.toNat,
    .line <|
      ["msp430x5xx usb: iepie="] ++ Pieces.prefixedHex 2 regs.iepie.toNat
        ++ [" oepie="] ++ Pieces.prefixedHex 2 regs.oepie.toNat
        ++ [" iepcnt0="] ++ Pieces.prefixedHex 2 regs.iepcnt0.toNat
        ++ [" oepcnt0="] ++ Pieces.prefixedHex 2 regs.oepcnt0.toNat
        ++ [" mask depth="] ++ Pieces.decimal c.masking.depth,
    .line ("msp430x5xx usb: ep0 in " :: (c.slots.get .controlIn).progress.pieces),
    .line ("msp430x5xx usb: ep0 out " :: (c.slots.get .controlOut).progress.pieces)]

end Controller

end UsbDevice
