import UsbDevice.Bytes
import UsbDevice.Text

namespace UsbDevice

/-- What can raise the interrupt of the module. -/
inductive Source
  | none
  | powerDrop
  | pllLock
  | pllSignal
  | pllRange
  | vbusOn
  | vbusOff
  | timestamp
  | inputEndpoint0
  | outputEndpoint0
  | reset
  | suspend
  | resume
  | setupPacketReceived
  | setupOverwrite
  | inputEndpoint (number : Byte)
  | outputEndpoint (number : Byte)
deriving DecidableEq, Repr

namespace Source

/-- The code of the source in the interrupt vector register.
Endpoint number zero has a source of its own, and no code as a numbered endpoint. -/
def code? : Source → Option Word
  | none => some 0x00
  | powerDrop => some 0x02
  | pllLock => some 0x04
  | pllSignal => some 0x06
  | pllRange => some 0x08
  | vbusOn => some 0x0a
  | vbusOff => some 0x0c
  | timestamp => some 0x10
  | inputEndpoint0 => some 0x12
  | outputEndpoint0 => some 0x14
  | reset => some 0x16
  | suspend => some 0x18
  | resume => some 0x1a
  | setupPacketReceived => some 0x20
  | setupOverwrite => some 0x22
  | inputEndpoint n => if n = 0 then .none else some (0x24 + 2 * (n.setWidth 16 - 1))
  | outputEndpoint n => if n = 0 then .none else some (0x32 + 2 * (n.setWidth 16 - 1))

/-- The source with this code. The codes of the seven numbered endpoints of each direction are the even
numbers from their base upwards. -/
def ofCode? (code : Word) : Option Source :=
  match code.toNat with
  | 0x00 => some none
  | 0x02 => some powerDrop
  | 0x04 => some pllLock
  | 0x06 => some pllSignal
  | 0x08 => some pllRange
  | 0x0a => some vbusOn
  | 0x0c => some vbusOff
  | 0x10 => some timestamp
  | 0x12 => some inputEndpoint0
  | 0x14 => some outputEndpoint0
  | 0x16 => some reset
  | 0x18 => some suspend
  | 0x1a => some resume
  | 0x20 => some setupPacketReceived
  | 0x22 => some setupOverwrite
  | n =>
    if 0x24 ≤ n ∧ n ≤ 0x30 ∧ n % 2 = 0 then some (inputEndpoint (BitVec.ofNat 8 ((n - 0x24) / 2 + 1)))
    else if 0x32 ≤ n ∧ n ≤ 0x3e ∧ n % 2 = 0 then some (outputEndpoint (BitVec.ofNat 8 ((n - 0x32) / 2 + 1)))
    else .none

def pieces : Source → Pieces
  | none => ["None"]
  | powerDrop => ["PowerDrop"]
  | pllLock => ["PllLock"]
  | pllSignal => ["PllSignal"]
  | pllRange => ["PllRange"]
  | vbusOn => ["VbusOn"]
  | vbusOff => ["VbusOff"]
  | timestamp => ["Timestamp"]
  | inputEndpoint0 => ["InputEndpoint0"]
  | outputEndpoint0 => ["OutputEndpoint0"]
  | reset => ["Reset"]
  | suspend => ["Suspend"]
  | resume => ["Resume"]
  | setupPacketReceived => ["SetupPacketReceived"]
  | setupOverwrite => ["SetupOverwrite"]
  | inputEndpoint n => Pieces.tagged "InputEndpoint" (Pieces.decimal n.toNat)
  | outputEndpoint n => Pieces.tagged "OutputEndpoint" (Pieces.decimal n.toNat)

/-- The sources that carry no number. -/
def plain : List Source :=
  [none, powerDrop, pllLock, pllSignal, pllRange, vbusOn, vbusOff, timestamp, inputEndpoint0, outputEndpoint0,
    reset, suspend, resume, setupPacketReceived, setupOverwrite]

end Source

end UsbDevice
