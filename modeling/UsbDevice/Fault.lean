import UsbDevice.Source

namespace UsbDevice

/-- Conditions that the driver cannot recover from. -/
inductive Fault
  /-- The vector register held a value that is no source. -/
  | invalidVector (raw : Word)
  /-- A source that the driver never enables. -/
  | unexpectedVector (source : Source)
  /-- An earlier fault has stopped the driver. -/
  | halted
deriving DecidableEq, Repr

namespace Fault

def name : Fault → String
  | invalidVector _ => "InvalidVector"
  | unexpectedVector _ => "UnexpectedVector"
  | halted => "Halted"

def pieces (f : Fault) : Pieces :=
  match f with
  | invalidVector raw => Pieces.tagged f.name (Pieces.decimal raw.toNat)
  | unexpectedVector source => Pieces.tagged f.name source.pieces
  | halted => [f.name]

end Fault

/-- What stops the program. -/
inductive Abort
  | usbFault (fault : Fault)
  | overflow
deriving DecidableEq, Repr

namespace Abort

def message : Abort → String
  | usbFault fault => Pieces.text ("USB fault: " :: fault.pieces)
  | overflow => "attempt to subtract with overflow"

end Abort

/-- The code of the source. Counting down from a numbered endpoint 0 stops the program. -/
def Source.encode (s : Source) : Except Abort Word :=
  match s.code? with
  | some code => .ok code
  | .none => .error .overflow

end UsbDevice
