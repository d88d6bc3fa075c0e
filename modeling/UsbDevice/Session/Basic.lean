import UsbDevice.Debug.Channel
import UsbDevice.Session.Op

namespace UsbDevice

/-- What a client does when it is told something: at the first notice of a kind the first list of that kind, at the
second the second. -/
structure Client where
  onBusReset : List (List Op) := []
  onSetupReceived : List (List Op) := []
  onTransferComplete : List (List Op) := []
deriving DecidableEq

namespace Client

/-- The operations with which the client answers the notice. -/
def reaction (c : Client) : Notice → List Op
  | .busReset => c.onBusReset.headD []
  | .setupReceived _ => c.onSetupReceived.headD []
  | .transferComplete .. => c.onTransferComplete.headD []

/-- The client once it has begun to answer the notice. The next notice finds the next list. -/
def reacting (c : Client) : Notice → Client
  | .busReset => { c with onBusReset := c.onBusReset.tail }
  | .setupReceived _ => { c with onSetupReceived := c.onSetupReceived.tail }
  | .transferComplete .. => { c with onTransferComplete := c.onTransferComplete.tail }

end Client

/-- A visible part of the controller, with a new value. -/
inductive Change
  | register (register : Register) (bytes : List Byte)
  | slot (id : SlotId) (progress : Progress)
  | setupPacket (packet : Packet)
  | halted (halted : Bool)
deriving DecidableEq

/-- The parts in which `after` differs from `before`. -/
def Controller.changes (before after : Controller) : List Change :=
  (Register.all.filter fun r => before.registers.bytes r ≠ after.registers.bytes r).map
      (fun r => .register r (after.registers.bytes r))
    ++ (SlotId.all.filter fun id => (before.slots.get id).progress ≠ (after.slots.get id).progress).map
      (fun id => .slot id (after.slots.get id).progress)
    ++ (if before.setupPacket = after.setupPacket then [] else [.setupPacket after.setupPacket])
    ++ (if before.halted = after.halted then [] else [.halted after.halted])

/-- What has been printed and what has changed since the last look. -/
structure Closing where
  log : List Byte
  changes : List Change
deriving DecidableEq

/-- What is left to do. A client's answer to a notice stands before the rest of the interrupt. -/
inductive Task
  | call (op : Op)
  /-- Read the vector, now that a SETUP packet has been reported. -/
  | dispatch (caller : Caller)
  /-- The client has answered. -/
  | endNotice
  | conclude (caller : Caller) (result : Except Fault Unit)

/-- What a session shows while it runs. -/
inductive Mark
  | call (op : Op)
  | notice (client : Nat) (notice : Notice) (closing : Closing)
  | endNotice
  | answer (answer : Answer) (closing : Closing)

/-- A controller with its clients, the buffers lent to it and its debug output. -/
structure Session (σ : Type) where
  config : Config := {}
  controller : Controller := {}
  output : Output σ
  buffers : Buffers := []
  clients : List Client := []
  /-- The guards handed out, and which of them are still held. -/
  guards : List Bool := []
  /-- The controller at the last look. -/
  shown : Controller := {}
  todo : List Task := []

/-- What a step leaves: the session, and what it has shown. -/
structure Turn (σ : Type) where
  session : Session σ
  marks : List Mark := []

namespace Session

variable {σ : Type} [Sink σ]

/-- Sets the session to make `ops` one after the other. -/
def plan (s : Session σ) (ops : List Op) : Session σ := { s with todo := ops.map .call }

def withRegisters (s : Session σ) (f : Registers → Registers) : Session σ :=
  { s with controller := { s.controller with registers := f s.controller.registers } }

def say (s : Session σ) (ms : List Message) : Session σ := { s with output := s.output.printAll ms }

/-- Takes over what an operation of the controller leaves. -/
def adopt {α : Type} (s : Session σ) (o : Outcome α) : Session σ :=
  { s with controller := o.controller }.say o.said

/-- What a look at the session shows now. -/
def closing (s : Session σ) : Closing := ⟨s.output.stored, s.shown.changes s.controller⟩

/-- The session after a look: the next look starts from here. -/
def looked (s : Session σ) : Session σ := { s with output := s.output.emptied, shown := s.controller }

/-- Ends an operation. -/
def answer (s : Session σ) (a : Answer) : Turn σ := { session := s.looked, marks := [.answer a s.closing] }

/-- Tells the client of the moment, whose answer comes before everything else that is left to do. -/
def notify (s : Session σ) : Option Notice → Turn σ
  | none => { session := s }
  | some notice =>
    match s.controller.client with
    | none => { session := s }
    | some i =>
      let client := s.clients.getD i {}
      { session := { s.looked with
          clients := s.clients.set i (client.reacting notice)
          todo := (client.reaction notice).map .call ++ .endNotice :: s.todo }
        marks := [.notice i notice s.closing] }

/-- The hardware, or who asks for the interrupt, writes the vector register. -/
def raise (s : Session σ) : Option Word → Session σ
  | some vector => s.withRegisters fun regs => { regs with vecint := vector }
  | none => s

/-- Starts to serve the interrupt of the module. A pending SETUP packet is reported before the vector is read. -/
def interrupt (s : Session σ) (caller : Caller) : Turn σ :=
  if s.controller.halted then { session := { s with todo := .conclude caller (.error .halted) :: s.todo } }
  else
    let captured := s.controller.captureSetup s.config
    { s with todo := .dispatch caller :: s.todo }.adopt captured |>.notify captured.answer

/-- Reads the vector, serves its source, and tells the client. -/
def dispatch (s : Session σ) (caller : Caller) : Turn σ :=
  let served := s.controller.dispatch s.config s.buffers
  match served.answer with
  | .error fault => { session := { s with todo := .conclude caller (.error fault) :: s.todo }.adopt served }
  | .ok notice => { s with todo := .conclude caller (.ok ()) :: s.todo }.adopt served |>.notify notice

/-- An operation of the controller that answers nothing. -/
def perform (s : Session σ) (o : Outcome Unit) : Turn σ := (s.adopt o).answer .done

/-- An operation of the controller that can be refused. -/
def request (s : Session σ) (o : Outcome (Except ErrorCode Unit)) : Turn σ :=
  (s.adopt o).answer (.ofExcept o.answer)

/-- An operation on an endpoint, which is not made if there is no such endpoint. -/
def onEndpoint (s : Session σ) (e : EndpointRef) (f : Endpoint → Turn σ) : Turn σ :=
  match e.resolve with
  | .ok e => f e
  | .error error => s.answer (.refused error)

/-- Starts an operation. All but interrupts end at once. -/
def call (s : Session σ) : Op → Turn σ
  | .bringUp => s.perform s.controller.bringUp
  | .enableInterrupts => { s with controller := s.controller.unmaskInterrupts }.answer .done
  | .disableInterrupts => { s with controller := s.controller.maskInterrupts }.answer .done
  | .connect => s.perform s.controller.connect
  | .disconnect => s.perform s.controller.disconnect
  | .remoteWakeup => s.perform s.controller.remoteWakeup
  | .debugState => (s.say s.controller.stateReport).answer .done
  | .setDeviceAddress address => s.perform (s.controller.setDeviceAddress s.config address)
  | .setConfiguration configuration => s.perform (s.controller.setConfiguration s.config configuration)
  | .setClient client => { s with controller := s.controller.setClient client }.answer .done
  | .queueTransfer e region =>
    s.onEndpoint e fun e => s.request (s.controller.queueTransfer s.config e (s.buffers.slice region))
  | .openEndpoint e transferType maxPacketSize interval =>
    s.onEndpoint e fun endpoint =>
      s.request (s.controller.openEndpoint { endpoint, transferType, maxPacketSize, interval })
  | .stall e => s.onEndpoint e fun e => s.perform (s.controller.stall e)
  | .clearStall e => s.onEndpoint e fun e => s.perform (s.controller.clearStall e)
  | .transferProgress e => s.onEndpoint e fun e => s.answer (.progress (s.controller.progress? e))
  | .mask =>
    { s with controller := s.controller.maskInterrupts, guards := s.guards ++ [true] }.answer
      (.guard s.guards.length)
  | .unmask guard =>
    if s.guards.getD guard false then
      { s with controller := s.controller.unmaskInterrupts, guards := s.guards.set guard false }.answer .done
    else s.answer .noGuard
  | .handleInterrupt vector => (s.raise vector).interrupt .driver
  | .serviceInterrupt line vector =>
    if line = InterruptLine.usb.number then (s.raise vector).interrupt .chip
    else (s.raise vector).answer (.served false)
  | .poke window offset bytes => (s.withRegisters fun regs => regs.poke window offset bytes).answer .done
  | .pokeRegister register bytes => (s.withRegisters fun regs => regs.pokeRegister register bytes).answer .done
  | .writeBuffer region data => { s with buffers := (s.buffers.slice region).write s.buffers data }.answer .done
  | .readBuffer region => s.answer (.bytes ((s.buffers.slice region).read s.buffers))

/-- Does one task. -/
def work (s : Session σ) : Task → Turn σ
  | .call op =>
    let begun := s.call op
    { begun with marks := .call op :: begun.marks }
  | .dispatch caller => s.dispatch caller
  | .endNotice => { session := s, marks := [.endNotice] }
  | .conclude caller result =>
    (s.say (caller.report s.config s.controller result)).answer (caller.answer result)

/-- Does the first of what is left to do. -/
def step (s : Session σ) : Option (Turn σ) :=
  match s.todo with
  | [] => none
  | task :: todo => some ({ s with todo }.work task)

end Session

end UsbDevice
