namespace UsbDevice

abbrev Byte := BitVec 8

abbrev Word := BitVec 16

/-- The eight bytes of a SETUP packet, or of the packet buffer of endpoint 0. -/
abbrev Packet := Vector Byte 8

def Packet.zero : Packet := Vector.replicate 8 0

/-- Writes `bytes` over the start of the packet. The rest of the packet stays, and bytes that do not fit are left
out. -/
def Packet.overwrite (p : Packet) (bytes : List Byte) : Packet :=
  Vector.ofFn fun i => bytes.getD i p[i]

theorem Packet.getElem_overwrite (p : Packet) (bytes : List Byte) {i : Nat} (inside : i < 8) :
    (p.overwrite bytes)[i] = bytes.getD i p[i] := by
  simp only [Packet.overwrite, Vector.getElem_ofFn]
  rfl

/-- The byte of `w` at address `i`, counted from its low end. -/
def Word.byte (w : Word) (i : Nat) : Byte := w.extractLsb' (8 * i) 8

/-- `w` with its byte at address `i` replaced by `b`. -/
def Word.setByte (w : Word) (i : Nat) (b : Byte) : Word :=
  (w &&& ~~~((0xff : Word) <<< (8 * i))) ||| (b.setWidth 16 <<< (8 * i))

/-- The `size` low bytes of `n`, the lowest first. -/
def littleEndian (size n : Nat) : List Byte := (List.range size).map fun i => BitVec.ofNat 8 (n >>> (8 * i))

end UsbDevice
