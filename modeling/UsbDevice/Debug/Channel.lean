import UsbDevice.Debug.Message

namespace UsbDevice

/-- What a sink does when it is offered bytes. -/
structure Reply (σ : Type) where
  /-- The sink afterwards. -/
  sink : σ
  /-- Messages that the sink itself starts while it is being written to. -/
  started : List Message := []
  /-- How many of the bytes the sink claims to have taken. It keeps that many, or all if it claims more. -/
  claimed : Nat

/-- Where debug output goes. -/
class Sink (σ : Type) where
  write : σ → List Byte → Reply σ

/-- A place for a sink. While there is none, nothing is claimed of the bytes and they are lost. -/
instance {σ : Type} [Sink σ] : Sink (Option σ) where
  write
    | none, _ => { sink := none, claimed := 0 }
    | some sink, bytes =>
      let reply := Sink.write sink bytes
      { sink := some reply.sink, started := reply.started, claimed := reply.claimed }

/-- The debug output with its sink. As long as a sink may not have been registered yet, it is an
`Output (Option σ)`. -/
structure Output (σ : Type) where
  sink : σ
  /-- Messages since the sink was registered. It is assumed that a machine word can count them. -/
  count : Nat := 0
  /-- What the sink has kept and nobody has collected yet. -/
  stored : List Byte := []

/-- The output after a call of its sink, and how many bytes the sink claims to have taken. -/
structure Offered (σ : Type) where
  output : Output σ
  claimed : Nat

/-- The debug output, and whether a message is being written to it. -/
inductive Channel (σ : Type)
  | free (output : Output σ)
  | busy (output : Output σ)

namespace Channel

variable {σ : Type}

def output : Channel σ → Output σ
  | free o => o
  | busy o => o

/-- Starts `m`. A message that finds the channel busy is dropped. -/
def start (deliver : Output σ → Message → Output σ) : Channel σ → Message → Channel σ
  | free o, m => free (deliver o m)
  | busy o, _ => busy o

@[simp] theorem foldl_start_busy (deliver : Output σ → Message → Output σ) (o : Output σ)
    (ms : List Message) : ms.foldl (start deliver) (busy o) = busy o := by
  induction ms with
  | nil => rfl
  | cons m ms ih => exact ih

end Channel

namespace Output

variable {σ : Type} [Sink σ]

/-- One call of the sink. Messages that the sink starts go through `deliver` if they go through at all, and the
channel is busy until the message that is being written has ended. -/
def offer (deliver : Output σ → Message → Output σ) (o : Output σ) (bytes : List Byte) : Offered σ :=
  let reply := Sink.write o.sink bytes
  let after := (reply.started.foldl (Channel.start deliver) (.busy { o with sink := reply.sink })).output
  { output := { after with stored := after.stored ++ bytes.take reply.claimed }, claimed := reply.claimed }

/-- Writes one piece. The bytes that the sink claimed are skipped, the others are offered again, and a sink that
claims nothing loses the rest of the piece. -/
def send (deliver : Output σ → Message → Output σ) (o : Output σ) (skip : Nat) : List Byte → Output σ
  | [] => o
  | b :: bytes =>
    match skip with
    | skip + 1 => o.send deliver skip bytes
    | 0 =>
      let offered := o.offer deliver (b :: bytes)
      match offered.claimed with
      | 0 => offered.output
      | claimed + 1 => offered.output.send deliver claimed bytes

/-- Counts and writes the message. -/
def deliver (nested : Output σ → Message → Output σ) (o : Output σ) (m : Message) : Output σ :=
  let o := { o with count := o.count + 1 }
  (m.pieces o.count).foldl (fun o piece => o.send nested 0 (utf8 piece)) o

/-- Nothing depends on how a message would be delivered that the sink starts: it finds the channel busy. -/
theorem offer_congr (f g : Output σ → Message → Output σ) : offer f = offer g := by
  funext o bytes
  simp only [offer, Channel.foldl_start_busy]

theorem send_congr (f g : Output σ → Message → Output σ) : send f = send g := by
  funext o skip bytes
  induction bytes generalizing o skip with
  | nil => rfl
  | cons b bytes ih =>
    cases skip with
    | succ skip => exact ih o skip
    | zero =>
      simp only [send, offer_congr f g]
      split
      · rfl
      · exact ih _ _

theorem deliver_congr (f g : Output σ → Message → Output σ) : deliver f = deliver g := by
  funext o m
  simp only [deliver, send_congr f g]

/-- Writes the message to the output, which is free. What the sink starts meanwhile finds it busy, so that nothing
has to be said here of how it would be written: see `eq_print`. -/
def print (o : Output σ) (m : Message) : Output σ := deliver (fun o _ => o) o m

/-- A message that the sink starts is printed like any other. -/
theorem print_eq_deliver_print : (print : Output σ → Message → Output σ) = deliver print :=
  deliver_congr _ _

/-- There is no other way to print in which the messages of the sink are treated like any other. -/
theorem eq_print {f : Output σ → Message → Output σ} (recursive : f = deliver f) : f = print :=
  recursive.trans (deliver_congr f _)

/-- Prints the messages in their order. -/
def printAll (o : Output σ) (ms : List Message) : Output σ := ms.foldl print o

/-- A new sink. The count starts again. -/
def register (o : Output σ) (sink : σ) : Output σ := { o with sink, count := 0 }

/-- What the sink has kept is taken away. -/
def emptied (o : Output σ) : Output σ := { o with stored := [] }

end Output

/-- What can be done to the debug output. -/
inductive OutputAction (σ : Type)
  | print (m : Message)
  | register (sink : σ)

/-- What an action does to the channel, if `print` writes the messages. A sink can be registered at any time, which
does not end the message that is being written. -/
def Channel.act {σ : Type} (print : Output (Option σ) → Message → Output (Option σ)) (c : Channel (Option σ)) :
    OutputAction σ → Channel (Option σ)
  | .print m => c.start print m
  | .register sink =>
    match c with
    | free o => free (o.register (some sink))
    | busy o => busy (o.register (some sink))

namespace Output

variable {σ : Type} [Sink σ]

def act (o : Output σ) : OutputAction σ → Output σ
  | .print m => o.print m
  | .register sink => o.register sink

/-- What the sinks keep during each action. -/
def run (o : Output σ) : List (OutputAction σ) → List (List Byte)
  | [] => []
  | a :: as =>
    let after := o.act a
    after.stored :: after.emptied.run as

end Output

end UsbDevice
