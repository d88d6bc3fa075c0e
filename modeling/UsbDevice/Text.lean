import UsbDevice.Bytes

namespace UsbDevice

/-- A text in the pieces in which it is handed on, one after the other. -/
abbrev Pieces := List String

namespace Pieces

def text (p : Pieces) : String := String.join p

def decimal (n : Nat) : Pieces := [Nat.repr n]

/-- Lower-case hexadecimal with at least `width` digits. Each leading zero is a piece of its own. -/
def hex (width n : Nat) : Pieces :=
  let digits := Nat.toDigits 16 n
  List.replicate (width - digits.length) "0" ++ [String.ofList digits]

/-- As `hex`, after `0x`. -/
def prefixedHex (width n : Nat) : Pieces := "0x" :: hex width n

def bool (b : Bool) : Pieces := [if b then "true" else "false"]

/-- A constructor with one argument: `Name(value)`. -/
def tagged (name : String) (value : Pieces) : Pieces := [name, "("] ++ value ++ [")"]

/-- A record with its fields, in braces. -/
def record (name : String) (fields : List (String × Pieces)) : Pieces :=
  [name]
    ++ (fields.zipIdx.flatMap fun ((field, value), i) =>
      [if i = 0 then " \x7b " else ", ", field, ": "] ++ value)
    ++ [" \x7d"]

/-- Bytes in brackets, two hexadecimal digits each, with a space between neighbours. -/
def bytes (bs : List Byte) : Pieces :=
  ["["] ++ (bs.zipIdx.flatMap fun (b, i) => (if i = 0 then [] else [" "]) ++ hex 2 b.toNat) ++ ["]"]

end Pieces

end UsbDevice
