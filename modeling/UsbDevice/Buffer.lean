import UsbDevice.Bytes

namespace UsbDevice

/-- The buffers that their owners lend to the driver. -/
abbrev Buffers := List (List Byte)

/-- A lent run of bytes. It is read and written in place, so a later change of the buffer shows through it. -/
structure Slice where
  buffer : Nat
  start : Nat
  length : Nat
deriving DecidableEq, Repr

namespace Slice

/-- The slice without bytes. -/
def empty : Slice := ⟨0, 0, 0⟩

/-- The `length` bytes of the slice from `start` upwards. -/
def part (s : Slice) (start length : Nat) : Slice := ⟨s.buffer, s.start + start, length⟩

def read (s : Slice) (buffers : Buffers) : List Byte :=
  ((buffers.getD s.buffer []).drop s.start).take s.length

/-- Writes `data` over the start of the slice. What does not fit is left out. -/
def write (s : Slice) (buffers : Buffers) (data : List Byte) : Buffers :=
  let data := data.take s.length
  buffers.modify s.buffer fun buffer =>
    (buffer.take s.start ++ data ++ buffer.drop (s.start + data.length)).take buffer.length

end Slice

/-- Which part of the buffers is meant: from `start` of one buffer, to its end if no length is given. -/
structure Region where
  buffer : Nat
  start : Nat := 0
  length : Option Nat := none
deriving DecidableEq, Repr

/-- The slice of the region. It never reaches past the end of its buffer. -/
def Region.slice (r : Region) (buffers : Buffers) : Slice :=
  let room := (buffers.getD r.buffer []).length - r.start
  ⟨r.buffer, r.start, min (r.length.getD room) room⟩

/-- The slice of a region, or the empty slice where none is named. -/
def Buffers.slice (buffers : Buffers) : Option Region → Slice
  | some r => r.slice buffers
  | none => .empty

end UsbDevice
