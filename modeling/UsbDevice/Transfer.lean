import UsbDevice.Buffer
import UsbDevice.Text

namespace UsbDevice

inductive TransferState
  /-- No transfer is queued, or the last one has been completed. -/
  | idle
  /-- A transfer is queued, and the next interrupt of its endpoint continues it. -/
  | armed
deriving DecidableEq, Repr

def TransferState.name : TransferState → String
  | idle => "Idle"
  | armed => "Armed"

/-- The transfer of one endpoint in one direction: the slice lent for it, and how much has been handed out. -/
structure Transfer where
  /-- Largest packet. A slot of size zero sends nothing. -/
  maxSize : Nat
  buffer : Option Slice := none
  totalLen : Nat := 0
  queuedLen : Nat := 0
  /-- A packet below `maxSize` has been handed out. -/
  shortPacket : Bool := false
  /-- The one packet of an empty transfer has been handed out. -/
  zlpSent : Bool := false
  state : TransferState := .idle
deriving DecidableEq, Repr

/-- What an interrupt of the endpoint has to do next. -/
inductive TransferStep
  /-- Send these bytes as the next packet. -/
  | packet (chunk : Slice)
  /-- Everything has been acknowledged: report this many bytes. -/
  | complete (bytes : Nat)
  /-- Nothing is in flight, or there is no packet size. -/
  | idle
deriving DecidableEq, Repr

/-- A slot that has moved on, and what is to be done about it. -/
structure Advance where
  transfer : Transfer
  step : TransferStep

/-- The visible part of a slot. -/
structure Progress where
  state : TransferState
  totalLen : Nat
  queuedLen : Nat
  shortPacket : Bool
  zlpSent : Bool
deriving DecidableEq, Repr

def Progress.pieces (p : Progress) : Pieces :=
  Pieces.record "TransferProgress"
    [("state", [p.state.name]), ("total_len", Pieces.decimal p.totalLen),
      ("queued_len", Pieces.decimal p.queuedLen), ("short_packet", Pieces.bool p.shortPacket), ("zlp_sent", Pieces.bool p.zlpSent)]

namespace Transfer

def setMaxSize (t : Transfer) (size : Nat) : Transfer := { t with maxSize := size }

/-- Arms the slot for all of `buffer`. What was in flight is forgotten. -/
def start (t : Transfer) (buffer : Slice) : Transfer :=
  { maxSize := t.maxSize, buffer := some buffer, totalLen := buffer.length, state := .armed }

/-- Drops what is in flight. The counts stay as they are. -/
def abort (t : Transfer) : Transfer := { t with buffer := none, state := .idle }

/-- Everything has been handed out, for an empty transfer its one empty packet. -/
def Exhausted (t : Transfer) : Prop := (t.totalLen ≠ 0 ∧ t.queuedLen = t.totalLen) ∨ t.zlpSent

instance (t : Transfer) : Decidable t.Exhausted := inferInstanceAs (Decidable (_ ∨ _))

/-- Bytes of the next packet. -/
def nextSize (t : Transfer) : Nat := min t.maxSize (t.totalLen - t.queuedLen)

/-- What the next packet holds. -/
def nextChunk (t : Transfer) : Slice :=
  match t.buffer with
  | some buffer => buffer.part t.queuedLen t.nextSize
  | none => .empty

/-- Advances the transfer by one packet. An empty transfer sends one empty packet, and a transfer of full
packets ends without one. -/
def next (t : Transfer) : Advance :=
  if t.state = .idle ∨ t.maxSize = 0 then { transfer := t, step := .idle }
  else if t.Exhausted then { transfer := t.abort, step := .complete t.queuedLen }
  else
    { transfer :=
        { t with
          queuedLen := t.queuedLen + t.nextSize
          shortPacket := t.shortPacket || t.nextSize < t.maxSize
          zlpSent := t.zlpSent || t.totalLen = 0 }
      step := .packet t.nextChunk }

def progress (t : Transfer) : Progress := ⟨t.state, t.totalLen, t.queuedLen, t.shortPacket, t.zlpSent⟩

end Transfer

/-- What can be done to a slot on its own, and to the buffers its owner lends. -/
inductive TransferAction
  | start (region : Region)
  | abort
  | setMaxSize (size : Nat)
  | next
  | write (region : Region) (data : List Byte)
deriving DecidableEq, Repr

/-- What an action makes visible. The bytes of a packet are those of the buffer at that moment. -/
inductive TransferAnswer
  | done
  | packet (bytes : List Byte)
  | complete (bytes : Nat)
  | idle
deriving DecidableEq, Repr

/-- A slot together with the buffers it reads from. -/
structure LentTransfer where
  transfer : Transfer
  buffers : Buffers
deriving DecidableEq

namespace LentTransfer

def act (l : LentTransfer) : TransferAction → LentTransfer
  | .start region => { l with transfer := l.transfer.start (region.slice l.buffers) }
  | .abort => { l with transfer := l.transfer.abort }
  | .setMaxSize size => { l with transfer := l.transfer.setMaxSize size }
  | .write region data => { l with buffers := (region.slice l.buffers).write l.buffers data }
  | .next => { l with transfer := l.transfer.next.transfer }

/-- What the action answers when it is taken now. -/
def answer (l : LentTransfer) : TransferAction → TransferAnswer
  | .next =>
    match l.transfer.next.step with
    | .packet chunk => .packet (chunk.read l.buffers)
    | .complete bytes => .complete bytes
    | .idle => .idle
  | _ => .done

/-- What each action answers, and how the slot stands after it. -/
def run (l : LentTransfer) : List TransferAction → List (TransferAnswer × Progress)
  | [] => []
  | a :: as => (l.answer a, (l.act a).transfer.progress) :: (l.act a).run as

end LentTransfer

end UsbDevice
