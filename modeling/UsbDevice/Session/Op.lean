import UsbDevice.Controller.Interrupt

namespace UsbDevice

/-- An endpoint by its address, or by number and direction. -/
inductive EndpointRef
  | address (raw : Byte)
  | numbered (number : Byte) (direction : Direction)
deriving DecidableEq, Repr

def EndpointRef.resolve : EndpointRef → Except ErrorCode Endpoint
  | address raw => Endpoint.ofAddress raw
  | numbered number direction => .ok (Endpoint.ofNumber number direction)

/-- What can happen to a controller. -/
inductive Op
  | bringUp
  | enableInterrupts
  | disableInterrupts
  | connect
  | disconnect
  | remoteWakeup
  | debugState
  | setDeviceAddress (address : Byte)
  | setConfiguration (configuration : Byte)
  | setClient (client : Nat)
  | queueTransfer (endpoint : EndpointRef) (region : Option Region)
  | openEndpoint (endpoint : EndpointRef) (transferType : TransferType) (maxPacketSize : Word) (interval : Byte)
  | stall (endpoint : EndpointRef)
  | clearStall (endpoint : EndpointRef)
  | transferProgress (endpoint : EndpointRef)
  /-- Opens a section without interrupts that lasts until its guard is dropped. -/
  | mask
  | unmask (guard : Nat)
  /-- Serves the interrupt of the module, with `vector` written to the vector register before. -/
  | handleInterrupt (vector : Option Word)
  /-- Serves a line of the chip. -/
  | serviceInterrupt (line : BitVec 32) (vector : Option Word)
  /-- The bus, or the hardware, changes registers. -/
  | poke (window : Window) (offset : Nat) (bytes : List Byte)
  | pokeRegister (register : Register) (bytes : List Byte)
  /-- The owner of a buffer writes to it. -/
  | writeBuffer (region : Option Region) (data : List Byte)
  | readBuffer (region : Option Region)
deriving DecidableEq, Repr

/-- What an operation answers. -/
inductive Answer
  | done
  | refused (error : ErrorCode)
  | guard (number : Nat)
  | noGuard
  | progress (progress : Option Progress)
  | fault (fault : Fault)
  /-- Whether the chip has served the line. -/
  | served (yes : Bool)
  | aborted (abort : Abort)
  | bytes (bytes : List Byte)
deriving DecidableEq, Repr

def Answer.ofExcept : Except ErrorCode Unit → Answer
  | .ok () => done
  | .error error => refused error

/-- Who serves the interrupt: the driver itself is asked, or the chip. -/
inductive Caller
  | driver
  | chip
deriving DecidableEq, Repr

namespace Caller

/-- What is said when the interrupt has been served, or not. -/
def report (config : Config) (c : Controller) : Caller → Except Fault Unit → List Message
  | chip, .error _ =>
    (if config.debugPanics then c.stateReport else []) ++ [.literal "msp430x5xx: unrecoverable USB fault"]
  | _, _ => []

/-- What is answered when the interrupt has been served, or not. The chip does not survive a fault. -/
def answer : Caller → Except Fault Unit → Answer
  | driver, .ok () => .done
  | driver, .error fault => .fault fault
  | chip, .ok () => .served true
  | chip, .error fault => .aborted (.usbFault fault)

end Caller

end UsbDevice
