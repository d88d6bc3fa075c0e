import UsbDevice.Debug.Channel

namespace UsbDevice

/-- A sink of limited size and speed that may print while it is written to. -/
structure MeteredSink where
  /-- Messages still to be started from inside, one at each call. -/
  nested : List Message := []
  /-- What the next calls claim, whatever they are offered. -/
  script : List Nat := []
  /-- The most that one call takes. -/
  chunk : Option Nat := none
  /-- The room that is left. -/
  capacity : Option Nat := none
  /-- How much more is claimed than was taken. -/
  extra : Nat := 0

namespace MeteredSink

/-- Bytes that a call takes when `offered` are offered. -/
def taken (s : MeteredSink) (offered : Nat) : Nat :=
  min (min offered (s.chunk.getD offered)) (s.capacity.getD offered)

def write (s : MeteredSink) (bytes : List Byte) : Reply MeteredSink :=
  let started := s.nested.take 1
  let s := { s with nested := s.nested.drop 1 }
  match s.script with
  | claimed :: script => { sink := { s with script }, started, claimed }
  | [] =>
    let n := s.taken bytes.length
    { sink := { s with capacity := s.capacity.map (· - n) }
      started
      claimed := if n = 0 then 0 else n + s.extra }

instance : Sink MeteredSink := ⟨write⟩

end MeteredSink

end UsbDevice
