import UsbDevice.Controller.Basic
import UsbDevice.Fault
import UsbDevice.InterruptLine

namespace UsbDevice

/-- How a transfer ended. -/
inductive TransferStatus
  | success
  /-- The transfer was given up after a bus error. -/
  | failed
  /-- The endpoint answered with a STALL handshake. -/
  | stalled
deriving DecidableEq, Repr

def TransferStatus.name : TransferStatus → String
  | success => "Success"
  | failed => "Failed"
  | stalled => "Stalled"

/-- What a client is told of. -/
inductive Notice
  | busReset
  | setupReceived (setup : Packet)
  | transferComplete (endpoint : Endpoint) (bytes : Nat) (status : TransferStatus)
deriving DecidableEq

namespace Controller

/-- Copies a pending SETUP packet out of its buffer, of which the client is to be told. -/
def captureSetup (config : Config) (c : Controller) : Outcome (Option Notice) :=
  if BusFlag.setup.IsSet c.registers.ifg then
    let setup := c.registers.sublk
    { controller := { c with setupPacket := setup }
      said := traced config ("msp430x5xx usb: SETUP " :: Pieces.bytes setup.toList)
      answer := some (.setupReceived setup) }
  else { controller := c, answer := none }

/-- Drops what is in flight on endpoint 0 and readies it for a SETUP packet: it answers NAK until one has come. -/
def busReset (c : Controller) : Outcome Unit where
  controller :=
    { c.withUnlocked fun regs =>
        { regs with
          oepcnf0 := (EndpointConfig.bufferEnable.set + EndpointConfig.interruptIndication.set).modify regs.oepcnf0
          iepcnf0 := (EndpointConfig.bufferEnable.set + EndpointConfig.interruptIndication.set).modify regs.iepcnf0
          oepie := EndpointBits.endpointZero.set.modify regs.oepie
          iepie := EndpointBits.endpointZero.set.modify regs.iepie
          oepcnt0 := EndpointCount.nak.set.modify regs.oepcnt0
          iepcnt0 := EndpointCount.nak.set.modify regs.iepcnt0
          ctl := BusControl.functionEnable.set.modify regs.ctl
          ie := BusEnable.setup.set.modify regs.ie }
      with
      slots := (c.slots.modify .controlOut fun t => (t.setMaxSize Slots.controlSize).abort).modify .controlIn
        fun t => (t.setMaxSize Slots.controlSize).abort }
  said := [.literal "msp430x5xx usb: bus reset"]
  answer := ()

/-- Puts `bytes` into the packet buffer of endpoint 0 and lets the host fetch it. -/
def loadPacket (regs : Registers) (bytes : List Byte) : Registers :=
  { regs with
    iep0Buf := regs.iep0Buf.overwrite bytes
    iepcnt0 := EndpointCount.nak.clear.modify
      ((EndpointCount.count.val (BitVec.ofNat 8 bytes.length)).modify regs.iepcnt0) }

/-- Advances the transfer of endpoint 0 towards the host by one packet. -/
def transmit (config : Config) (buffers : Buffers) (c : Controller) : Outcome (Option Notice) :=
  let next := (c.slots.get .controlIn).next
  let advanced := { c with slots := c.slots.set .controlIn next.transfer }
  match next.step with
  | .idle =>
    { controller := advanced
      said := traced config ["msp430x5xx usb: IN0 interrupt with nothing queued"]
      answer := none }
  | .complete bytes =>
    { controller := advanced
      said := traced config (["msp430x5xx usb: IN0 complete, "] ++ Pieces.decimal bytes ++ [" bytes"])
      answer := some (.transferComplete .controlIn bytes .success) }
  | .packet chunk =>
    { controller := { advanced with registers := loadPacket c.registers (chunk.read buffers) }
      said := traced config (["msp430x5xx usb: IN0 packet, "] ++ Pieces.decimal chunk.length ++ [" bytes"])
      answer := none }

/-- Stops the driver for good. -/
def halt (c : Controller) (fault : Fault) : Outcome (Except Fault (Option Notice)) where
  controller := { c with halted := true }
  said := [.line (["msp430x5xx usb: "] ++ fault.pieces ++ [", halting"])]
  answer := .error fault

/-- Reads the vector and serves its source. A source that is neither a bus reset nor traffic of endpoint 0 is a
fault. -/
def dispatch (config : Config) (buffers : Buffers) (c : Controller) : Outcome (Except Fault (Option Notice)) :=
  match Source.ofCode? c.registers.vecint with
  | none => c.halt (.invalidVector c.registers.vecint)
  | some .reset =>
    let reset := c.busReset
    { controller := reset.controller, said := reset.said, answer := .ok (some .busReset) }
  -- The packet has been copied before the vector was read.
  | some .setupPacketReceived => { controller := c, answer := .ok none }
  | some .inputEndpoint0 =>
    let sent := c.transmit config buffers
    { controller := sent.controller, said := sent.said, answer := .ok sent.answer }
  | some .outputEndpoint0 =>
    { controller := c
      said := traced config (["msp430x5xx usb: OUT"] ++ Pieces.decimal 0 ++ [" interrupt ignored"])
      answer := .ok none }
  | some source => c.halt (.unexpectedVector source)

end Controller

end UsbDevice
