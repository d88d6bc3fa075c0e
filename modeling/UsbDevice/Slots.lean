import UsbDevice.Endpoint
import UsbDevice.Transfer

namespace UsbDevice

/-- Endpoint numbers that the controller has. -/
abbrev endpointCount : Nat := 8

/-- An endpoint that the controller has. -/
structure SlotId where
  number : Fin endpointCount
  direction : Direction
deriving DecidableEq, Repr

namespace SlotId

def controlIn : SlotId := ⟨0, .toHost⟩

def controlOut : SlotId := ⟨0, .toDevice⟩

def ofEndpoint? (e : Endpoint) : Option SlotId :=
  if h : e.number.toNat < endpointCount then some ⟨⟨e.number.toNat, h⟩, e.direction⟩ else none

def all : List SlotId := (List.finRange endpointCount).flatMap fun n => Direction.all.map fun d => ⟨n, d⟩

theorem number_lt (id : SlotId) : (id.number : Nat) < 8 := id.number.isLt

theorem even_lt (id : SlotId) : 2 * (id.number : Nat) < 16 := by
  have := id.number_lt
  omega

theorem odd_lt (id : SlotId) : 2 * (id.number : Nat) + 1 < 16 := by
  have := id.number_lt
  omega

def index (id : SlotId) : Fin 16 :=
  match id.direction with
  | .toDevice => ⟨2 * id.number, id.even_lt⟩
  | .toHost => ⟨2 * id.number + 1, id.odd_lt⟩

theorem index_inj {a b : SlotId} : a.index = b.index ↔ a = b := by
  obtain ⟨m, d⟩ := a
  obtain ⟨n, e⟩ := b
  cases d <;> cases e <;> simp [index, Fin.ext_iff] <;> omega

end SlotId

/-- The transfers of all endpoints of the controller. -/
structure Slots where
  transfers : Vector Transfer 16
deriving DecidableEq

namespace Slots

def get (s : Slots) (id : SlotId) : Transfer := s.transfers[id.index]

def set (s : Slots) (id : SlotId) (t : Transfer) : Slots := ⟨s.transfers.set id.index t⟩

def modify (s : Slots) (id : SlotId) (f : Transfer → Transfer) : Slots := s.set id (f (s.get id))

/-- Packet size of endpoint 0, fixed by its buffers. -/
def controlSize : Nat := 8

/-- Nothing queued. The other endpoints have no packet size. -/
def initial : Slots := ⟨Vector.ofFn fun i => { maxSize := if i.val < 2 then controlSize else 0 }⟩

@[simp] theorem get_set_self (s : Slots) (id : SlotId) (t : Transfer) : (s.set id t).get id = t := by
  simp [get, set]

@[simp] theorem get_set_of_ne (s : Slots) {id other : SlotId} (t : Transfer) (different : other ≠ id) :
    (s.set id t).get other = s.get other := by
  have apart : (id.index : Nat) ≠ other.index := fun same =>
    different (SlotId.index_inj.mp (Fin.ext same.symm))
  simp [get, set, Vector.getElem_set_ne, apart]

end Slots

end UsbDevice
