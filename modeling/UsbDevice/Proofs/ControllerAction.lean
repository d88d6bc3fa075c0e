import UsbDevice.Session.Run

namespace UsbDevice

/-- What one step of a session does to the controller. Every operation and every part of an interrupt is one of
these, whoever asks for it and whatever it prints. -/
inductive ControllerAction
  | rest
  | bringUp
  | connect
  | disconnect
  | mask
  | unmask
  | setClient (client : Nat)
  | setAddress (address : Byte)
  | lend (id : SlotId) (buffer : Slice)
  | poke (window : Window) (offset : Nat) (bytes : List Byte)
  | raise (vector : Option Word)
  /-- The interrupt begins: a pending SETUP packet is copied before the vector is read. -/
  | interrupt (vector : Option Word)
  | reset
  | transmit
  | halt
deriving DecidableEq

namespace Controller

def lend (c : Controller) (id : SlotId) (buffer : Slice) : Controller :=
  { c with
    slots := c.slots.modify id (·.start buffer)
    registers := if id.number.val = 0 then startControl c.registers id.direction else c.registers }

def raise (c : Controller) : Option Word → Controller
  | some vector => { c with registers := { c.registers with vecint := vector } }
  | none => c

def copySetup (c : Controller) : Controller :=
  if BusFlag.setup.IsSet c.registers.ifg then { c with setupPacket := c.registers.sublk } else c

def act (buffers : Buffers) (c : Controller) : ControllerAction → Controller
  | .rest => c
  | .bringUp => c.bringUp.controller
  | .connect => c.connect.controller
  | .disconnect => c.disconnect.controller
  | .mask => c.maskInterrupts
  | .unmask => c.unmaskInterrupts
  | .setClient client => c.setClient client
  | .setAddress address =>
    { c with registers := { c.registers with funadr := (FunctionAddress.address.val address).modify 0 } }.lend
      .controlIn .empty
  | .lend id buffer => c.lend id buffer
  | .poke window offset bytes => { c with registers := c.registers.poke window offset bytes }
  | .raise vector => c.raise vector
  | .interrupt vector => if c.halted then c.raise vector else (c.raise vector).copySetup
  | .reset => c.busReset.controller
  | .transmit =>
    let next := (c.slots.get .controlIn).next
    { c with
      slots := c.slots.set .controlIn next.transfer
      registers := match next.step with
        | .packet chunk => loadPacket c.registers (chunk.read buffers)
        | _ => c.registers }
  | .halt => { c with halted := true }

/-- What the client is to be told of the action. -/
def told? (c : Controller) : ControllerAction → Option Notice
  | .interrupt _ =>
    if ¬ c.halted ∧ BusFlag.setup.IsSet c.registers.ifg then some (.setupReceived c.registers.sublk) else none
  | .reset => some .busReset
  | .transmit =>
    match (c.slots.get .controlIn).next.step with
    | .complete bytes => some (.transferComplete .controlIn bytes .success)
    | _ => none
  | .rest | .bringUp | .connect | .disconnect | .mask | .unmask | .setClient _ | .setAddress _ | .lend .. | .poke ..
  | .raise _ | .halt => none

def served (c : Controller) : ControllerAction :=
  match Source.ofCode? c.registers.vecint with
  | some .reset => .reset
  | some .setupPacketReceived => .rest
  | some .inputEndpoint0 => .transmit
  | some .outputEndpoint0 => .rest
  | _ => .halt

/-- Whether the source that the vector register names is served. -/
def verdict (c : Controller) : Except Fault Unit :=
  match Source.ofCode? c.registers.vecint with
  | some .reset | some .setupPacketReceived | some .inputEndpoint0 | some .outputEndpoint0 => .ok ()
  | some source => .error (.unexpectedVector source)
  | none => .error (.invalidVector c.registers.vecint)

end Controller

/-- What the operation does at once. For an interrupt this is only its beginning. -/
def Op.action (buffers : Buffers) (guards : List Bool) : Op → ControllerAction
  | .bringUp => .bringUp
  | .enableInterrupts => .unmask
  | .disableInterrupts => .mask
  | .connect => .connect
  | .disconnect => .disconnect
  | .setDeviceAddress address => .setAddress address
  | .setClient client => .setClient client
  | .queueTransfer e region =>
    match e.resolve with
    | .ok e =>
      match SlotId.ofEndpoint? e with
      | some id => .lend id (buffers.slice region)
      | none => .rest
    | .error _ => .rest
  | .mask => .mask
  | .unmask guard => if guards.getD guard false then .unmask else .rest
  | .handleInterrupt vector => .interrupt vector
  | .serviceInterrupt line vector => if line = InterruptLine.usb.number then .interrupt vector else .raise vector
  | .poke window offset bytes => .poke window offset bytes
  | .pokeRegister register bytes => .poke register.window register.offset (bytes.take register.size)
  | .remoteWakeup | .debugState | .setConfiguration _ | .openEndpoint .. | .stall _ | .clearStall _
  | .transferProgress _ | .writeBuffer .. | .readBuffer _ => .rest

/-- No operation resets, transmits or stops the driver at once: that is done in the middle of an interrupt. -/
theorem Op.action_ne_served (op : Op) (buffers : Buffers) (guards : List Bool) :
    op.action buffers guards ≠ .reset ∧ op.action buffers guards ≠ .transmit ∧ op.action buffers guards ≠ .halt := by
  cases op with
  | queueTransfer e region =>
    simp only [Op.action]
    split
    · split <;> simp
    · simp
  | unmask guard => simp only [Op.action]; split <;> simp
  | serviceInterrupt line vector => simp only [Op.action]; split <;> simp
  | _ => simp [Op.action]

def Session.action {σ : Type} (s : Session σ) : ControllerAction :=
  match s.todo with
  | .call op :: _ => op.action s.buffers s.guards
  | .dispatch _ :: _ => s.controller.served
  | _ => .rest

/-- The client that a mark tells of something, and of what. -/
def Mark.notice? : Mark → Option (Nat × Notice)
  | notice client content _ => some (client, content)
  | _ => none

def Turn.notices {σ : Type} (turn : Turn σ) : List (Nat × Notice) := turn.marks.filterMap Mark.notice?

/-! What the operations of the controller do, said by actions. -/

namespace Controller

theorem queueTransfer_controller (config : Config) (c : Controller) (e : Endpoint) (buffer : Slice) :
    (c.queueTransfer config e buffer).controller =
      match SlotId.ofEndpoint? e with
      | some id => c.lend id buffer
      | none => c := by
  unfold queueTransfer
  cases found : SlotId.ofEndpoint? e with
  | none => rfl
  | some id =>
    obtain ⟨inside, rfl⟩ : ∃ inside : e.number.toNat < endpointCount, ⟨⟨e.number.toNat, inside⟩, e.direction⟩ = id := by
      simpa [SlotId.ofEndpoint?] using found
    have zero : e.number = 0 ↔ e.number.toNat = 0 := by
      rw [← BitVec.toNat_inj]
      rfl
    simp only [lend, zero]

theorem setDeviceAddress_controller (config : Config) (c : Controller) (address : Byte) :
    (c.setDeviceAddress config address).controller = c.act [] (.setAddress address) :=
  queueTransfer_controller config _ .controlIn .empty

theorem captureSetup_controller (config : Config) (c : Controller) :
    (c.captureSetup config).controller = c.copySetup := by
  unfold captureSetup copySetup
  split <;> rfl

theorem transmit_controller (config : Config) (buffers : Buffers) (c : Controller) :
    (c.transmit config buffers).controller = c.act buffers .transmit := by
  unfold transmit
  simp only [act]
  cases (c.slots.get .controlIn).next.step <;> rfl

theorem transmit_answer (config : Config) (buffers : Buffers) (c : Controller) :
    (c.transmit config buffers).answer = c.told? .transmit := by
  unfold transmit
  simp only [told?]
  cases (c.slots.get .controlIn).next.step <;> rfl

theorem dispatch_controller (config : Config) (buffers : Buffers) (c : Controller) :
    (c.dispatch config buffers).controller = c.act buffers c.served := by
  unfold dispatch served
  cases read : Source.ofCode? c.registers.vecint with
  | none => rfl
  | some source =>
    cases source with
    | inputEndpoint0 => exact transmit_controller config buffers c
    | _ => rfl

theorem dispatch_verdict (config : Config) (buffers : Buffers) (c : Controller) :
    (c.dispatch config buffers).answer = c.verdict.map fun _ => c.told? c.served := by
  unfold dispatch verdict served
  cases Source.ofCode? c.registers.vecint with
  | none => rfl
  | some source =>
    cases source with
    | inputEndpoint0 => exact congrArg Except.ok (transmit_answer config buffers c)
    | _ => rfl

/-- A vector that is not served stops the driver. -/
theorem served_of_verdict {c : Controller} {fault : Fault} (failed : c.verdict = .error fault) : c.served = .halt := by
  unfold verdict at failed
  unfold served
  cases read : Source.ofCode? c.registers.vecint with
  | none => rfl
  | some source =>
    rw [read] at failed
    cases source <;> first | rfl | cases failed

theorem served_ne_halt {c : Controller} (served : c.verdict = .ok ()) : c.served ≠ .halt := by
  unfold verdict at served
  unfold Controller.served
  split at served <;> simp_all

/-- The vector has no part in what is copied of a SETUP packet, and told. -/
theorem captureSetup_raise {c : Controller} (running : c.halted = false) (config : Config) (vector : Option Word) :
    ((c.raise vector).captureSetup config).said = (c.captureSetup config).said ∧
      ((c.raise vector).captureSetup config).answer = c.told? (.interrupt vector) := by
  have same : (c.raise vector).registers.ifg = c.registers.ifg ∧
      (c.raise vector).registers.sublk = c.registers.sublk := by
    cases vector <;> exact ⟨rfl, rfl⟩
  unfold captureSetup told?
  rw [same.1, same.2]
  by_cases pending : BusFlag.setup.IsSet c.registers.ifg <;> simp [pending, running]

theorem captureSetup_client (config : Config) (c : Controller) : (c.captureSetup config).controller.client = c.client := by
  unfold captureSetup
  split <;> rfl

theorem dispatch_client (config : Config) (buffers : Buffers) (c : Controller) :
    (c.dispatch config buffers).controller.client = c.client := by
  rw [dispatch_controller]
  unfold served
  split <;> rfl

/-- Of the registers an interrupt writes only the vector when it begins. -/
theorem act_interrupt (c : Controller) (buffers : Buffers) (vector : Option Word) :
    ∃ vecint setupPacket,
      c.act buffers (.interrupt vector) = { c with registers := { c.registers with vecint }, setupPacket } := by
  simp only [act, copySetup]
  cases vector <;> split <;> first | exact ⟨_, _, rfl⟩ | (split <;> exact ⟨_, _, rfl⟩)

/-- Only a fault stops the driver. -/
theorem act_halted (c : Controller) (buffers : Buffers) {a : ControllerAction} (other : a ≠ .halt) :
    (c.act buffers a).halted = c.halted := by
  cases a with
  | raise vector => cases vector <;> rfl
  | interrupt vector =>
    obtain ⟨_, _, begun⟩ := c.act_interrupt buffers vector
    rw [begun]
  | halt => exact absurd rfl other
  | _ => rfl

/-- No action starts a driver again that has stopped. -/
theorem halted_act (c : Controller) (buffers : Buffers) (a : ControllerAction) (halted : c.halted) :
    (c.act buffers a).halted := by
  by_cases stops : a = .halt
  · rw [stops]
    rfl
  · rwa [act_halted c buffers stops]

end Controller

end UsbDevice
