import UsbDevice.Text

namespace UsbDevice

/-- A message for the debug output. -/
inductive Message
  | line (pieces : Pieces)
  /-- A message that shows its number and where in the program it comes from. -/
  | located (file : String) (lineNumber : Nat) (pieces : Pieces)
deriving DecidableEq, Repr

namespace Message

/-- What is printed of the message when it is the `number`-th, piece by piece. -/
def pieces (number : Nat) : Message → Pieces
  | line pieces => pieces ++ ["\r\n"]
  | located file lineNumber pieces =>
    ["TOCK_DEBUG("] ++ Pieces.decimal number ++ ["): ", file, ":"] ++ Pieces.decimal lineNumber ++ [": "] ++ pieces
      ++ ["\r\n"]

/-- A message that is one literal. -/
def literal (text : String) : Message := line [text]

/-- Bytes in brackets. -/
def bytes (bs : List Byte) : Message := line (Pieces.bytes bs)

end Message

/-- The bytes of a text as they go to a sink. -/
def utf8 (text : String) : List Byte := text.toUTF8.toList.map UInt8.toBitVec

end UsbDevice
