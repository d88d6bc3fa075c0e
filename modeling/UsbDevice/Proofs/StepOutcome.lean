import UsbDevice.Proofs.ControllerAction

namespace UsbDevice

/-- By whom the operation asks for the interrupt of the module, and the vector it writes before. -/
def Op.asks? : Op → Option (Caller × Option Word)
  | .handleInterrupt vector => some (.driver, vector)
  | .serviceInterrupt line vector => if line = InterruptLine.usb.number then some (.chip, vector) else none
  | _ => none

namespace Client

/-- What clients do when one of them is told of something. -/
def replies (clients : List Client) : Option (Nat × Notice) → List Task
  | some (i, notice) => ((clients.getD i {}).reaction notice).map .call ++ [.endNotice]
  | none => []

/-- The clients once they have begun to do so. -/
def replied (clients : List Client) : Option (Nat × Notice) → List Client
  | some (i, notice) => clients.set i ((clients.getD i {}).reacting notice)
  | none => clients

end Client

namespace Op

/-- What an operation answers that does not ask for the interrupt. -/
def answer (c : Controller) (buffers : Buffers) (guards : List Bool) : Op → Answer
  | .queueTransfer e _ =>
    match e.resolve with
    | .ok e => if (SlotId.ofEndpoint? e).isSome then .done else .refused .inval
    | .error error => .refused error
  | .openEndpoint e _ _ _ =>
    match e.resolve with
    | .ok _ => .refused .nosupport
    | .error error => .refused error
  | .stall e | .clearStall e =>
    match e.resolve with
    | .ok _ => .done
    | .error error => .refused error
  | .transferProgress e =>
    match e.resolve with
    | .ok e => .progress (c.progress? e)
    | .error error => .refused error
  | .mask => .guard guards.length
  | .unmask guard => if guards.getD guard false then .done else .noGuard
  | .serviceInterrupt _ _ => .served false
  | .readBuffer region => .bytes ((buffers.slice region).read buffers)
  | .bringUp | .enableInterrupts | .disableInterrupts | .connect | .disconnect | .remoteWakeup | .debugState
  | .setDeviceAddress _ | .setConfiguration _ | .setClient _ | .handleInterrupt _ | .poke .. | .pokeRegister ..
  | .writeBuffer .. => .done

/-- What is printed when the operation begins, which for most is all that they do. -/
def said (config : Config) (c : Controller) (buffers : Buffers) : Op → List Message
  | .bringUp => c.bringUp.said
  | .connect => c.connect.said
  | .disconnect => c.disconnect.said
  | .remoteWakeup => c.remoteWakeup.said
  | .debugState => c.stateReport
  | .setDeviceAddress address => (c.setDeviceAddress config address).said
  | .setConfiguration configuration => (c.setConfiguration config configuration).said
  | .queueTransfer e region =>
    match e.resolve with
    | .ok e => (c.queueTransfer config e (buffers.slice region)).said
    | .error _ => []
  | .openEndpoint e transferType maxPacketSize interval =>
    match e.resolve with
    | .ok endpoint => (c.openEndpoint { endpoint, transferType, maxPacketSize, interval }).said
    | .error _ => []
  | .stall e =>
    match e.resolve with
    | .ok e => (c.stall e).said
    | .error _ => []
  | .clearStall e =>
    match e.resolve with
    | .ok e => (c.clearStall e).said
    | .error _ => []
  | .handleInterrupt _ => if c.halted then [] else (c.captureSetup config).said
  | .serviceInterrupt line _ =>
    if line = InterruptLine.usb.number ∧ ¬ c.halted then (c.captureSetup config).said else []
  | .enableInterrupts | .disableInterrupts | .setClient _ | .transferProgress _ | .mask | .unmask _ | .poke ..
  | .pokeRegister .. | .writeBuffer .. | .readBuffer _ => []

theorem told_of_plain {op : Op} (plain : op.asks? = none) (c : Controller) (buffers : Buffers) (guards : List Bool) :
    c.told? (op.action buffers guards) = none := by
  cases op with
  | handleInterrupt => cases plain
  | serviceInterrupt line vector =>
    simp only [Op.action]
    split
    · next ours => simp only [Op.asks?, ours, if_true, reduceCtorEq] at plain
    · rfl
  | queueTransfer e region =>
    simp only [Op.action]
    split
    · split <;> rfl
    · rfl
  | unmask guard =>
    simp only [Op.action]
    split <;> rfl
  | _ => rfl

/-- An operation that asks for the interrupt begins it. -/
theorem action_of_asks {op : Op} {caller : Caller} {vector : Option Word} (asks : op.asks? = some (caller, vector))
    (buffers : Buffers) (guards : List Bool) : op.action buffers guards = .interrupt vector := by
  cases op with
  | handleInterrupt =>
    obtain ⟨rfl, rfl⟩ := Prod.mk.inj (Option.some.inj asks)
    rfl
  | serviceInterrupt line =>
    simp only [Op.asks?] at asks
    split at asks
    · next ours =>
      obtain ⟨rfl, rfl⟩ := Prod.mk.inj (Option.some.inj asks)
      simp only [Op.action, ours, if_true]
    · cases asks
  | _ => cases asks

theorem said_of_asks {op : Op} {asked : Caller × Option Word} (asks : op.asks? = some asked) (config : Config)
    (c : Controller) (buffers : Buffers) :
    op.said config c buffers = if c.halted then [] else (c.captureSetup config).said := by
  cases op with
  | handleInterrupt => rfl
  | serviceInterrupt line =>
    simp only [Op.asks?] at asks
    split at asks
    · next ours => cases halted : c.halted <;> simp [Op.said, ours, halted]
    · cases asks
  | _ => cases asks

/-- The guards after the operation. -/
def guards (held : List Bool) : Op → List Bool
  | .mask => held ++ [true]
  | .unmask guard => if held.getD guard false then held.set guard false else held
  | _ => held

/-- The buffers after the operation: only their owners write to them. -/
def written (buffers : Buffers) : Op → Buffers
  | .writeBuffer region data => (buffers.slice region).write buffers data
  | _ => buffers

theorem frame_of_asks {op : Op} {asked : Caller × Option Word} (asks : op.asks? = some asked) :
    (∀ buffers, op.written buffers = buffers) ∧ ∀ held, op.guards held = held := by
  cases op with
  | handleInterrupt => exact ⟨fun _ => rfl, fun _ => rfl⟩
  | serviceInterrupt => exact ⟨fun _ => rfl, fun _ => rfl⟩
  | _ => cases asks

end Op

namespace Task

def action (c : Controller) (buffers : Buffers) (guards : List Bool) : Task → ControllerAction
  | call op => op.action buffers guards
  | dispatch _ => c.served
  | endNotice => .rest
  | conclude _ _ => .rest

def said (config : Config) (c : Controller) (buffers : Buffers) : Task → List Message
  | call op => op.said config c buffers
  | dispatch _ => (c.dispatch config buffers).said
  | endNotice => []
  | conclude caller result => caller.report config c result

/-- What is answered to who has asked for something. -/
def answer? (c : Controller) (buffers : Buffers) (guards : List Bool) : Task → Option Answer
  | call op => if op.asks?.isNone then some (op.answer c buffers guards) else none
  | dispatch _ => none
  | endNotice => none
  | conclude caller result => some (caller.answer result)

/-- What is left to do of an interrupt after the task. -/
def resumed (c : Controller) : Task → List Task
  | call op =>
    match op.asks? with
    | some (caller, _) => [if c.halted then .conclude caller (.error .halted) else .dispatch caller]
    | none => []
  | dispatch caller => [.conclude caller c.verdict]
  | endNotice => []
  | conclude _ _ => []

def written (buffers : Buffers) : Task → Buffers
  | call op => op.written buffers
  | dispatch _ => buffers
  | endNotice => buffers
  | conclude _ _ => buffers

def guards (held : List Bool) : Task → List Bool
  | call op => op.guards held
  | dispatch _ => held
  | endNotice => held
  | conclude _ _ => held

/-- What shows of the task by itself. -/
def place : Task → List Mark
  | call op => [.call op]
  | dispatch _ => []
  | endNotice => [.endNotice]
  | conclude _ _ => []

end Task

namespace Session

variable {σ : Type} [Sink σ]

/-- Whom the task tells of something, and of what. -/
def told? (s : Session σ) (task : Task) : Option (Nat × Notice) :=
  (s.controller.told? (task.action s.controller s.buffers s.guards)).bind fun notice =>
    s.controller.client.map fun client => (client, notice)

/-- Somebody looks at the session: a client that is told of something, or who gets an answer. -/
def looks (s : Session σ) (task : Task) : Bool :=
  (s.told? task).isSome || (task.answer? s.controller s.buffers s.guards).isSome

/-- A task that is done, part by part. -/
def outcome (s : Session σ) (task : Task) : Turn σ :=
  let controller := s.controller.act s.buffers (task.action s.controller s.buffers s.guards)
  let output := s.output.printAll (task.said s.config s.controller s.buffers)
  let look : Closing := ⟨output.stored, s.shown.changes controller⟩
  { session :=
      { config := s.config
        controller
        output := if s.looks task then output.emptied else output
        buffers := task.written s.buffers
        clients := Client.replied s.clients (s.told? task)
        guards := task.guards s.guards
        shown := if s.looks task then controller else s.shown
        todo := Client.replies s.clients (s.told? task) ++ (task.resumed s.controller ++ s.todo) }
    marks :=
      task.place ++ ((s.told? task).map fun told => .notice told.1 told.2 look).toList
        ++ ((task.answer? s.controller s.buffers s.guards).map fun answer => .answer answer look).toList }

omit [Sink σ] in
theorem notify_eq (s : Session σ) (notice : Option Notice) (told : Option (Nat × Notice))
    (same : told = notice.bind fun notice => s.controller.client.map fun client => (client, notice)) :
    s.notify notice =
      { session :=
          { s with
            output := if told.isSome then s.output.emptied else s.output
            clients := Client.replied s.clients told
            shown := if told.isSome then s.controller else s.shown
            todo := Client.replies s.clients told ++ s.todo }
        marks := (told.map fun told => .notice told.1 told.2 s.closing).toList } := by
  subst same
  cases notice with
  | none => rfl
  | some notice =>
    cases set : s.controller.client with
    | none => simp only [notify, set]; rfl
    | some client => simp [notify, set, looked, Client.replies, Client.replied]

omit [Sink σ] in
/-- Nobody is told anything by an operation that does not ask for the interrupt. -/
theorem told_of_plain (s : Session σ) {op : Op} (plain : op.asks? = none) : s.told? (.call op) = none := by
  simp only [told?, Task.action, Op.told_of_plain plain, Option.bind_none]

/-- An operation that does not ask for the interrupt does one thing and is answered. -/
theorem call_of_plain (s : Session σ) {op : Op} (plain : op.asks? = none) :
    s.call op =
      { s with
        controller := s.controller.act s.buffers (op.action s.buffers s.guards)
        output := s.output.printAll (op.said s.config s.controller s.buffers)
        buffers := op.written s.buffers
        guards := op.guards s.guards }.answer (op.answer s.controller s.buffers s.guards) := by
  cases op with
  | handleInterrupt => cases plain
  | serviceInterrupt line vector =>
    have other : line ≠ InterruptLine.usb.number := by
      rintro rfl
      cases plain
    simp only [call, Op.action, Op.said, Op.written, Op.guards, Op.answer, other, if_false, false_and]
    cases vector <;> rfl
  | setDeviceAddress address =>
    have controller := Controller.setDeviceAddress_controller s.config s.controller address
    simp only [call, perform, adopt, controller]
    rfl
  | queueTransfer e region =>
    simp only [call, onEndpoint, Op.action, Op.said, Op.written, Op.guards, Op.answer]
    cases e.resolve with
    | error error => rfl
    | ok e =>
      have controller := Controller.queueTransfer_controller s.config s.controller e (s.buffers.slice region)
      simp only [request, adopt, controller]
      cases found : SlotId.ofEndpoint? e <;> simp only [Controller.queueTransfer, found] <;> rfl
  | unmask guard =>
    simp only [call, Op.action, Op.said, Op.written, Op.guards, Op.answer]
    split <;> rfl
  | openEndpoint e => simp only [call, onEndpoint, Op.action, Op.said, Op.answer]; cases e.resolve <;> rfl
  | stall e => simp only [call, onEndpoint, Op.action, Op.said, Op.answer]; cases e.resolve <;> rfl
  | clearStall e => simp only [call, onEndpoint, Op.action, Op.said, Op.answer]; cases e.resolve <;> rfl
  | transferProgress e => simp only [call, onEndpoint, Op.action, Op.said, Op.answer]; cases e.resolve <;> rfl
  | _ => rfl

omit [Sink σ] in
theorem raise_eq (s : Session σ) (vector : Option Word) :
    s.raise vector = { s with controller := s.controller.raise vector } := by
  cases vector <;> rfl

theorem call_of_asks (s : Session σ) {op : Op} {caller : Caller} {vector : Option Word}
    (asks : op.asks? = some (caller, vector)) : s.call op = (s.raise vector).interrupt caller := by
  cases op with
  | handleInterrupt =>
    obtain ⟨rfl, rfl⟩ := Prod.mk.inj (Option.some.inj asks)
    rfl
  | serviceInterrupt line =>
    simp only [Op.asks?] at asks
    split at asks
    · next ours =>
      obtain ⟨rfl, rfl⟩ := Prod.mk.inj (Option.some.inj asks)
      simp only [call, ours, if_true]
    · cases asks
  | _ => cases asks

/-- The interrupt is refused, or begins with the SETUP packet. -/
theorem work_of_asks (s : Session σ) {op : Op} {caller : Caller} {vector : Option Word}
    (asks : op.asks? = some (caller, vector)) : s.work (.call op) = s.outcome (.call op) := by
  obtain ⟨written, guards⟩ := Op.frame_of_asks asks
  have acts : (Task.call op).action s.controller s.buffers s.guards = .interrupt vector := Op.action_of_asks asks _ _
  have still : (s.controller.raise vector).halted = s.controller.halted := by cases vector <;> rfl
  have client : (s.controller.raise vector).client = s.controller.client := by cases vector <;> rfl
  simp only [work, call_of_asks _ asks, raise_eq, interrupt, still, outcome, looks, Task.answer?, Task.resumed,
    Task.said, Task.written, Task.guards, Op.said_of_asks asks, written, guards, asks]
  cases halted : s.controller.halted with
  | true =>
    have silent : s.told? (.call op) = none := by
      rw [told?, acts]
      simp only [Controller.told?, halted, not_true, false_and, if_false, Option.bind_none]
    simp only [silent, acts, Controller.act, halted, if_true]
    rfl
  | false =>
    obtain ⟨said, answered⟩ := Controller.captureSetup_raise halted s.config vector
    have captured := (s.controller.raise vector).captureSetup_controller s.config
    have begins : s.told? (.call op) = ((s.controller.raise vector).captureSetup s.config).answer.bind fun notice =>
        (s.controller.raise vector).copySetup.client.map fun client => (client, notice) := by
      rw [told?, acts, answered, ← captured, Controller.captureSetup_client, client]
    simp only [Bool.false_eq_true, if_false, adopt, captured, said, acts, Controller.act, halted]
    rw [notify_eq _ _ _ begins]
    simp only [Option.isNone_some, Bool.false_eq_true, if_false, Option.isSome_none, Bool.or_false, Option.map_none,
      Option.toList_none, List.append_nil]
    rfl

/-- A task is done so, whatever it is. -/
theorem work_eq_outcome (s : Session σ) (task : Task) : s.work task = s.outcome task := by
  cases task with
  | endNotice => rfl
  | conclude caller result => rfl
  | dispatch caller =>
    have acted := s.controller.dispatch_controller s.config s.buffers
    have answered := s.controller.dispatch_verdict s.config s.buffers
    have client := acted ▸ s.controller.dispatch_client s.config s.buffers
    cases verdict : s.controller.verdict with
    | error fault =>
      have silent : s.told? (.dispatch caller) = none := by
        simp only [told?, Task.action, Controller.served_of_verdict verdict, Controller.told?, Option.bind_none]
      rw [verdict] at answered
      simp only [work, dispatch, answered, adopt, acted, outcome, looks, silent, Task.resumed, verdict]
      rfl
    | ok =>
      rw [verdict] at answered
      simp only [work, dispatch, answered, Except.map, adopt, acted]
      rw [notify_eq _ _ (s.told? (.dispatch caller)) (by simp only [told?, Task.action, say, client])]
      simp only [outcome, looks, Task.answer?, Option.isSome_none, Bool.or_false, Option.map_none, Option.toList_none,
        List.append_nil, Task.resumed, verdict]
      rfl
  | call op =>
    cases asks : op.asks? with
    | none =>
      simp only [work, call_of_plain _ asks, outcome, looks, s.told_of_plain asks, Task.answer?, Task.resumed, asks]
      rfl
    | some asked => exact s.work_of_asks asks

theorem step_of_todo {s : Session σ} {task : Task} {todo : List Task} (pending : s.todo = task :: todo) :
    s.step = some ({ s with todo }.work task) := by
  unfold step
  rw [pending]

theorem todo_of_step {s : Session σ} {turn : Turn σ} (stepped : s.step = some turn) :
    ∃ task todo, s.todo = task :: todo ∧ turn = { s with todo }.work task := by
  unfold step at stepped
  split at stepped
  · cases stepped
  · next task todo pending => exact ⟨task, todo, pending, (Option.some.inj stepped).symm⟩

theorem step_eq_outcome {s : Session σ} {task : Task} {todo : List Task} (pending : s.todo = task :: todo) :
    s.step = some ({ s with todo }.outcome task) := by
  rw [step_of_todo pending, work_eq_outcome]

theorem outcome_of_step {s : Session σ} {turn : Turn σ} (stepped : s.step = some turn) :
    ∃ task todo, s.todo = task :: todo ∧ turn = { s with todo }.outcome task := by
  obtain ⟨task, todo, pending, rfl⟩ := todo_of_step stepped
  exact ⟨task, todo, pending, work_eq_outcome _ task⟩

omit [Sink σ] in
theorem action_of_todo {s : Session σ} {task : Task} {todo : List Task} (pending : s.todo = task :: todo) :
    s.action = task.action s.controller s.buffers s.guards := by
  unfold action
  rw [pending]
  cases task <;> rfl

/-! What follows for one step. -/

/-- A step changes the controller by its action, and in no other way. -/
theorem step_controller {s : Session σ} {turn : Turn σ} (stepped : s.step = some turn) :
    turn.session.controller = s.controller.act s.buffers s.action := by
  obtain ⟨task, todo, pending, rfl⟩ := outcome_of_step stepped
  rw [action_of_todo pending]
  rfl

theorem outcome_notices (s : Session σ) (task : Task) : (s.outcome task).notices = (s.told? task).toList := by
  have place : task.place.filterMap Mark.notice? = [] := by cases task <;> rfl
  simp only [Turn.notices, outcome, List.filterMap_append, place, List.nil_append]
  cases s.told? task <;> cases task.answer? s.controller s.buffers s.guards <;> rfl

theorem step_notices {s : Session σ} {turn : Turn σ} (stepped : s.step = some turn) :
    turn.notices
      = ((s.controller.told? s.action).bind fun notice =>
          s.controller.client.map fun client => (client, notice)).toList := by
  obtain ⟨task, todo, pending, rfl⟩ := outcome_of_step stepped
  rw [outcome_notices, action_of_todo pending]
  rfl

end Session

end UsbDevice
