import UsbDevice.Bytes
import UsbDevice.ErrorCode
import UsbDevice.Text

namespace UsbDevice

/-- Direction of a transfer, seen from the host: out of the host to the device, or in to the host. -/
inductive Direction
  | toDevice
  | toHost
deriving DecidableEq, Repr

namespace Direction

def all : List Direction := [toDevice, toHost]

def name : Direction → String
  | toDevice => "Out"
  | toHost => "In"

def value : Direction → Nat
  | toDevice => 0
  | toHost => 1

end Direction

inductive TransferType
  | control
  | isochronous
  | bulk
  | interrupt
deriving DecidableEq, Repr

namespace TransferType

def all : List TransferType := [control, isochronous, bulk, interrupt]

def name : TransferType → String
  | control => "Control"
  | isochronous => "Isochronous"
  | bulk => "Bulk"
  | interrupt => "Interrupt"

def value : TransferType → Nat
  | control => 0
  | isochronous => 1
  | bulk => 2
  | interrupt => 3

end TransferType

/-- An endpoint as the host addresses it. -/
structure Endpoint where
  number : BitVec 4
  direction : Direction
deriving DecidableEq, Repr

namespace Endpoint

/-- Only the low four bits of `number` count. -/
def ofNumber (number : Byte) (direction : Direction) : Endpoint := ⟨number.setWidth 4, direction⟩

/-- The number in bits 0 to 3 and the direction in bit 7. -/
def address (e : Endpoint) : Byte :=
  match e.direction with
  | .toDevice => e.number.setWidth 8
  | .toHost => e.number.setWidth 8 ||| 0x80

/-- The endpoint with this address. Bits 4 to 6 are reserved and must be zero. -/
def ofAddress (address : Byte) : Except ErrorCode Endpoint :=
  if address &&& 0x70 ≠ 0 then .error .inval
  else .ok ⟨address.setWidth 4, if address &&& 0x80 ≠ 0 then .toHost else .toDevice⟩

def pieces (e : Endpoint) : Pieces := Pieces.tagged "EndpointAddress" (Pieces.decimal e.address.toNat)

/-- Endpoint 0 towards the host. -/
def controlIn : Endpoint := ⟨0, .toHost⟩

/-- Endpoint 0 towards the device. -/
def controlOut : Endpoint := ⟨0, .toDevice⟩

end Endpoint

end UsbDevice
