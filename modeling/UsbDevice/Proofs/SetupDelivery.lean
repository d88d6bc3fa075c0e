import UsbDevice.Debug.MeteredSink
import UsbDevice.Proofs.FieldWrites
import UsbDevice.Proofs.PlanFrame
import UsbDevice.Proofs.RegisterFrame
import UsbDevice.Proofs.RunHistory

namespace UsbDevice

/-- What the firmware asks the driver for outside of interrupts. The registers are left to the driver. -/
def Op.isPlain : Op → Bool
  | .handleInterrupt _ | .serviceInterrupt .. | .poke .. | .pokeRegister .. => false
  | _ => true

/-- The client answers all notices with plain operations. -/
def Client.Plain (c : Client) : Prop := ∀ notice, ∀ ops ∈ c.plans notice, ∀ op ∈ ops, op.isPlain

def ControllerAction.isPlain : ControllerAction → Bool
  | .interrupt _ | .poke .. => false
  | _ => true

def Notice.isSetup : Notice → Bool
  | .setupReceived _ => true
  | .busReset | .transferComplete .. => false

/-- How often the marks tell a client of a SETUP packet. -/
def setups (marks : List Mark) : Nat := (marks.filterMap Mark.notice?).countP fun told => told.2.isSetup

theorem setups_append (marks later : List Mark) : setups (marks ++ later) = setups marks + setups later := by
  simp only [setups, List.filterMap_append, List.countP_append]

theorem Op.isPlain_action {op : Op} (plain : op.isPlain) (buffers : Buffers) (guards : List Bool) :
    (op.action buffers guards).isPlain := by
  cases op with
  | handleInterrupt => cases plain
  | serviceInterrupt => cases plain
  | poke => cases plain
  | pokeRegister => cases plain
  | queueTransfer e region =>
    simp only [Op.action]
    split
    · split <;> rfl
    · rfl
  | unmask guard => simp only [Op.action]; split <;> rfl
  | _ => rfl

theorem ControllerAction.not_pokes_of_isPlain {a : ControllerAction} (plain : a.isPlain) (r : Register) :
    ¬ a.Pokes r := by
  cases a with
  | poke => cases plain
  | _ => exact not_false

namespace Controller

variable {c : Controller} {a : ControllerAction}

theorem isPlain_served (c : Controller) : c.served.isPlain := by
  unfold served
  split <;> rfl

/-- Only a poke sets the flag of the SETUP packet. -/
theorem isSet_setup_of_act {buffers : Buffers} (pokes : ¬ a.Pokes .ifg)
    (set : BusFlag.setup.IsSet (c.act buffers a).registers.ifg) : BusFlag.setup.IsSet c.registers.ifg := by
  cases a with
  | poke window offset bytes =>
    have same : (c.registers.poke window offset bytes).ifg = c.registers.ifg :=
      List.singleton_inj.mp (Registers.bytes_poke c.registers (r := .ifg) pokes)
    exact same ▸ set
  | bringUp => exact absurd (show BusFlag.setup.IsSet (0 : Byte) from set) (by decide)
  | mask =>
    obtain ⟨_, _, _, _, masked⟩ := c.maskInterrupts_registers
    simpa only [act, masked] using set
  | unmask =>
    obtain ⟨_, _, _, _, unmasked⟩ := c.unmaskInterrupts_registers
    simpa only [act, unmasked] using set
  | lend id buffer =>
    simp only [act, lend] at set
    split at set
    · cases direction : id.direction <;> simpa only [startControl, direction] using set
    · exact set
  | raise vector => cases vector <;> exact set
  | interrupt vector =>
    obtain ⟨_, _, begun⟩ := c.act_interrupt buffers vector
    simpa only [begun] using set
  | transmit =>
    simp only [act] at set
    split at set <;> exact set
  | _ => exact set

/-- Clients are told of a SETUP packet at the beginning of an interrupt, while its flag is set. -/
theorem isSetup_of_told {notice : Notice} (told : c.told? a = some notice) (setup : notice.isSetup) :
    a.isPlain = false ∧ BusFlag.setup.IsSet c.registers.ifg := by
  cases a with
  | interrupt vector =>
    simp only [told?] at told
    split at told
    · next pending => exact ⟨rfl, pending.2⟩
    · cases told
  | reset =>
    cases told
    cases setup
  | transmit =>
    simp only [told?] at told
    split at told
    · cases told
      cases setup
    · cases told
  | _ => cases told

end Controller

namespace Session

variable {σ : Type} [Sink σ]

theorem setups_of_step {s : Session σ} {turn : Turn σ} (stepped : s.step = some turn) :
    setups turn.marks ≤ (if BusFlag.setup.IsSet s.controller.registers.ifg then 1 else 0) ∧
      (s.action.isPlain → setups turn.marks = 0) := by
  have told : setups turn.marks = turn.notices.countP fun told => told.2.isSetup := rfl
  rw [told, step_notices stepped]
  cases content : s.controller.told? s.action with
  | none => exact ⟨Nat.zero_le _, fun _ => rfl⟩
  | some notice =>
    cases s.controller.client with
    | none => exact ⟨Nat.zero_le _, fun _ => rfl⟩
    | some client =>
      cases setup : notice.isSetup with
      | false => simp [setup]
      | true =>
        obtain ⟨interrupts, set⟩ := Controller.isSetup_of_told content setup
        simp [setup, set, interrupts]

/-- Neither the session nor a client has anything but plain operations to make. -/
structure Quiet (s : Session σ) : Prop where
  todo : ∀ op, .call op ∈ s.todo → op.isPlain
  clients : ∀ i, (s.clients.getD i {}).Plain

theorem quiet_of_step {s : Session σ} {turn : Turn σ} (stepped : s.step = some turn)
    (later : ∀ op, .call op ∈ s.todo.tail → op.isPlain) (clients : ∀ i, (s.clients.getD i {}).Plain) :
    turn.session.Quiet := by
  obtain ⟨task, todo, pending, rfl⟩ := todo_of_step stepped
  obtain ⟨told, pushed, resumes, todos, replied⟩ := { s with todo }.work_pushes task
  constructor
  · intro op member
    rw [todos, List.mem_append, List.mem_append] at member
    rcases member with reply | new | old
    · cases told with
      | none => cases reply
      | some told =>
        obtain ⟨i, notice⟩ := told
        have reacts : op ∈ (s.clients.getD i {}).reaction notice := by simpa [Client.replies] using reply
        rcases Client.reaction_mem (s.clients.getD i {}) notice with nothing | plan
        · rw [nothing] at reacts
          cases reacts
        · exact clients i notice _ plan op reacts
    · exact absurd (resumes _ new) not_false
    · exact later op (by rwa [pending])
  · intro i notice ops plan
    rw [replied] at plan
    cases told with
    | none => exact clients i notice ops plan
    | some told =>
      obtain ⟨j, content⟩ := told
      rw [Client.replied, Client.getD_set_reacting] at plan
      split at plan
      · exact clients j notice ops (Client.mem_plans_reacting plan)
      · exact clients i notice ops plan

omit [Sink σ] in
theorem quiet_of_idle {s : Session σ} (todo : s.todo = []) (clients : ∀ i, s.clients.getD i {} = {}) : s.Quiet := by
  have nothing (notice : Notice) : (({} : Client).plans notice) = [] := by cases notice <;> rfl
  refine ⟨by simp [todo], fun i notice ops plan => ?_⟩
  rw [clients, nothing] at plan
  cases plan

/-- Nobody is told of a SETUP packet before the next interrupt. -/
theorem Quiet.after {s : Session σ} (quiet : s.Quiet) (count : Nat) :
    (s.after count).Quiet ∧ setups ((s.path count).flatMap marks) = 0 ∧
      (BusFlag.setup.IsSet (s.after count).controller.registers.ifg →
        BusFlag.setup.IsSet s.controller.registers.ifg) := by
  induction count generalizing s with
  | zero => exact ⟨quiet, rfl, id⟩
  | succ count ih =>
    cases stepped : s.step with
    | none =>
      simp only [path, Session.after, stepped]
      exact ⟨quiet, rfl, id⟩
    | some turn =>
      have plain : s.action.isPlain := by
        obtain ⟨task, todo, pending, _⟩ := todo_of_step stepped
        unfold action
        rw [pending]
        cases task with
        | call op => exact Op.isPlain_action (quiet.todo op (pending ▸ List.mem_cons_self)) s.buffers s.guards
        | dispatch => exact s.controller.isPlain_served
        | endNotice => rfl
        | conclude => rfl
      have next := quiet_of_step stepped (fun op later => quiet.todo op (List.mem_of_mem_tail later)) quiet.clients
      obtain ⟨last, silent, set⟩ := ih next
      have here := (setups_of_step stepped).2 plain
      simp only [path, Session.after, stepped, List.flatMap_cons, setups_append, marks_of_step stepped, silent, here]
      refine ⟨last, trivial, fun flag => ?_⟩
      have acted := set flag
      rw [step_controller stepped] at acted
      exact Controller.isSet_setup_of_act (ControllerAction.not_pokes_of_isPlain plain .ifg) acted

/-- A client is told of a SETUP packet at most once in an interrupt, and only while the flag of the packet is set. -/
theorem setups_of_interrupt {s : Session σ} (quiet : s.Quiet) (vector : Option Word) :
    let planned := s.plan [.handleInterrupt vector]
    (planned.after planned.weight).Quiet ∧
      setups (planned.history.flatMap marks) ≤ (if BusFlag.setup.IsSet s.controller.registers.ifg then 1 else 0) ∧
      (BusFlag.setup.IsSet (planned.after planned.weight).controller.registers.ifg →
        BusFlag.setup.IsSet s.controller.registers.ifg) := by
  intro planned
  have stepped : planned.step = some ({ planned with todo := [] }.work (.call (.handleInterrupt vector))) :=
    step_of_todo rfl
  obtain ⟨count, more⟩ : ∃ count, planned.weight = count + 1 :=
    ⟨planned.weight - 1, by have lighter := weight_step_lt stepped; omega⟩
  obtain ⟨last, silent, set⟩ := (quiet_of_step stepped (by simp [planned, plan]) quiet.clients).after count
  have here := (setups_of_step stepped).1
  simp only [history, more, path, Session.after, stepped, List.flatMap_cons, setups_append, marks_of_step stepped, silent]
  refine ⟨last, here, fun flag => ?_⟩
  have acted := set flag
  rw [step_controller stepped] at acted
  exact Controller.isSet_setup_of_act (a := .interrupt vector) not_false acted

/-- The hardware changes a register. -/
def poked (s : Session σ) (r : Register) (bytes : List Byte) : Session σ := (s.call (.pokeRegister r bytes)).session

end Session

/-- The module on its bus, with the sources that wait to be served. -/
structure Bus (σ : Type) where
  session : Session σ
  pending : List Source := []

/-- What happens to the module between interrupts, and the interrupt. -/
inductive BusEvent
  /-- A SETUP packet comes in. -/
  | arrive (packet : Packet)
  /-- Something else asks for service. -/
  | request (source : Source)
  | serve (source : Source)
  /-- The firmware uses the driver. -/
  | use (op : Op)

def BusEvent.arrives : BusEvent → Bool
  | .arrive _ => true
  | .request _ | .serve _ | .use _ => false

namespace Bus

variable {σ : Type} [Sink σ]

/-- A SETUP packet only comes in once the one before it has been served. The source with the lowest code is served
first. -/
def Allows (b : Bus σ) : BusEvent → Prop
  | .arrive _ => .setupPacketReceived ∉ b.pending
  | .request source => source = .inputEndpoint0 ∨ source = .outputEndpoint0 ∨ source = .reset
  | .serve source => source ∈ b.pending ∧ ∀ other ∈ b.pending, source.code?.getD 0 ≤ other.code?.getD 0
  | .use op => op.isPlain

instance (b : Bus σ) (event : BusEvent) : Decidable (b.Allows event) :=
  match event with
  | .arrive _ => inferInstanceAs (Decidable (¬ _ ∈ _))
  | .request _ => inferInstanceAs (Decidable (_ ∨ _ ∨ _))
  | .serve _ => inferInstanceAs (Decidable (_ ∧ _))
  | .use _ => inferInstanceAs (Decidable (_ = true))

def ops : BusEvent → List Op
  | .serve source => [.handleInterrupt source.code?]
  | .use op => [op]
  | .arrive _ | .request _ => []

/-- The session, set to do its part in the event. Its weight is steps enough for that. -/
def planned (b : Bus σ) (event : BusEvent) : Session σ := b.session.plan (ops event)

def marks (b : Bus σ) (event : BusEvent) : List Mark := (b.planned event).history.flatMap Session.marks

/-- The flag of a SETUP packet is set as it comes in, and cleared once its own source has been served. -/
def after (b : Bus σ) (event : BusEvent) : Bus σ :=
  let done := (b.planned event).after (b.planned event).weight
  match event with
  | .arrive packet =>
    { session := (done.poked .sublk packet.toList).poked .ifg [BusFlag.setup.set.modify done.controller.registers.ifg]
      pending := .setupPacketReceived :: b.pending }
  | .request source => { session := done, pending := source :: b.pending }
  | .serve source =>
    { session :=
        if source = .setupPacketReceived then
          done.poked .ifg [BusFlag.setup.clear.modify done.controller.registers.ifg]
        else done
      pending := b.pending.filter (· ≠ source) }
  | .use _ => { session := done, pending := b.pending }

/-- The events, each with the bus as it stands before. -/
def trace (b : Bus σ) : List BusEvent → List (Bus σ × BusEvent)
  | [] => []
  | event :: events => (b, event) :: (b.after event).trace events

/-- What the clients are told of while the events happen. -/
def told (b : Bus σ) (events : List BusEvent) : List Mark := (b.trace events).flatMap fun p => p.1.marks p.2

def waiting (b : Bus σ) : Nat := if .setupPacketReceived ∈ b.pending then 1 else 0

/-- Another source is served while a SETUP packet waits. -/
def overtakes (b : Bus σ) : BusEvent → Bool
  | .serve source => source ≠ .setupPacketReceived ∧ .setupPacketReceived ∈ b.pending
  | .arrive _ | .request _ | .use _ => false

/-- The flag of the SETUP packet is only set while one waits, and neither firmware nor clients do the work of the
hardware. -/
structure Orderly (b : Bus σ) : Prop where
  quiet : b.session.Quiet
  flag : BusFlag.setup.IsSet b.session.controller.registers.ifg → .setupPacketReceived ∈ b.pending

/-- Its own source ends the wait of a packet. Another one leaves it waiting, and may tell a client of it before. -/
theorem Orderly.serve {b : Bus σ} (orderly : b.Orderly) {source : Source} (pending : source ∈ b.pending) :
    (b.after (.serve source)).Orderly ∧
      setups (b.marks (.serve source)) + (b.after (.serve source)).waiting
        ≤ (b.overtakes (.serve source)).toNat + b.waiting := by
  obtain ⟨quiet, told, flag⟩ := Session.setups_of_interrupt orderly.quiet source.code?
  have told : setups (b.marks (.serve source)) ≤ _ := told
  by_cases setup : source = .setupPacketReceived
  · subst setup
    have once : setups (b.marks (.serve .setupPacketReceived)) ≤ 1 := by split at told <;> omega
    refine ⟨⟨⟨quiet.todo, quiet.clients⟩, fun set => ?_⟩, ?_⟩
    · exact absurd set (BitField.not_isSet_modify_clear _ _)
    · simpa [Bus.after, waiting, pending, overtakes] using once
  · have stays : (b.after (.serve source)).waiting = b.waiting := by simp [Bus.after, waiting, Ne.symm setup]
    refine ⟨⟨?_, fun set => ?_⟩, ?_⟩
    · simpa only [Bus.after, planned, ops, setup, if_false] using quiet
    · simp only [Bus.after, setup, if_false] at set
      simpa [Bus.after, Ne.symm setup] using orderly.flag (flag set)
    · by_cases waits : Source.setupPacketReceived ∈ b.pending
      · have overtaken : b.overtakes (.serve source) = true := by simp [overtakes, setup, waits]
        rw [overtaken, stays]
        split at told <;> simp only [Bool.toNat_true] <;> omega
      · rw [if_neg fun set => waits (orderly.flag set)] at told
        omega

/-- Each time a client is told, a packet has come in, or something else has been served before the one that waits. -/
theorem Orderly.after {b : Bus σ} (orderly : b.Orderly) {event : BusEvent} (allowed : b.Allows event) :
    (b.after event).Orderly ∧
      setups (b.marks event) + (b.after event).waiting
        ≤ event.arrives.toNat + (b.overtakes event).toNat + b.waiting := by
  have undisturbed (ops : List Op) (plain : ∀ op ∈ ops, op.isPlain) :=
    Session.Quiet.after (s := b.session.plan ops) ⟨by simpa [Session.plan] using plain, orderly.quiet.clients⟩
      (b.session.plan ops).weight
  cases event with
  | arrive packet =>
    obtain ⟨quiet, silent, _⟩ := undisturbed [] (by simp)
    have nobody : setups (b.marks (.arrive packet)) = 0 := silent
    refine ⟨⟨⟨quiet.todo, quiet.clients⟩, fun _ => List.mem_cons_self⟩, ?_⟩
    simp [nobody, Bus.after, waiting, BusEvent.arrives, overtakes]
  | request source =>
    obtain ⟨quiet, silent, flag⟩ := undisturbed [] (by simp)
    have nobody : setups (b.marks (.request source)) = 0 := silent
    have other : Source.setupPacketReceived ≠ source := by
      rintro rfl
      simp [Allows] at allowed
    have stays : (b.after (.request source)).waiting = b.waiting := by simp [Bus.after, waiting, other]
    refine ⟨⟨quiet, fun set => List.mem_cons_of_mem _ (orderly.flag (flag set))⟩, ?_⟩
    rw [nobody, stays, Nat.zero_add]
    exact Nat.le_add_left _ _
  | serve source =>
    obtain ⟨next, step⟩ := orderly.serve allowed.1
    exact ⟨next, Nat.le_trans step (Nat.add_le_add_right (Nat.le_add_left _ _) _)⟩
  | use op =>
    obtain ⟨quiet, silent, flag⟩ := undisturbed [op] (by simpa [Allows] using allowed)
    have nobody : setups (b.marks (.use op)) = 0 := silent
    have stays : (b.after (.use op)).waiting = b.waiting := rfl
    refine ⟨⟨quiet, fun set => orderly.flag (flag set)⟩, ?_⟩
    rw [nobody, stays, Nat.zero_add]
    exact Nat.le_add_left _ _

theorem Orderly.setups_le {b : Bus σ} (orderly : b.Orderly) {events : List BusEvent}
    (allowed : ∀ p ∈ b.trace events, p.1.Allows p.2) :
    setups (b.told events)
      ≤ events.countP BusEvent.arrives + ((b.trace events).countP fun p => p.1.overtakes p.2) + b.waiting := by
  induction events generalizing b with
  | nil => exact Nat.zero_le _
  | cons event events ih =>
    have here : b.Allows event := allowed (b, event) List.mem_cons_self
    obtain ⟨next, step⟩ := orderly.after here
    have rest := ih next fun p later => allowed p (List.mem_cons_of_mem _ later)
    have first : setups (b.told (event :: events)) = setups (b.marks event) + setups ((b.after event).told events) :=
      setups_append _ _
    have arrivals : (event :: events).countP BusEvent.arrives = events.countP BusEvent.arrives + event.arrives.toNat := by
      rw [List.countP_cons]
      cases event.arrives <;> rfl
    have overtaken : ((b.trace (event :: events)).countP fun p => p.1.overtakes p.2)
        = (((b.after event).trace events).countP fun p => p.1.overtakes p.2) + (b.overtakes event).toNat := by
      rw [trace, List.countP_cons]
      cases b.overtakes event <;> rfl
    rw [first, arrivals, overtaken]
    omega

/-- Clients are told of no more SETUP packets than come in, but for those times that another source is served while one
waits. -/
theorem setups_le_arrivals {b : Bus σ} (quiet : b.session.Quiet) (idle : b.pending = [])
    (clear : ¬ BusFlag.setup.IsSet b.session.controller.registers.ifg) {events : List BusEvent}
    (allowed : ∀ p ∈ b.trace events, p.1.Allows p.2) :
    setups (b.told events)
      ≤ events.countP BusEvent.arrives + (b.trace events).countP fun p => p.1.overtakes p.2 := by
  have orderly : b.Orderly := ⟨quiet, fun set => absurd set clear⟩
  have nobody : b.waiting = 0 := by simp [waiting, idle]
  have bound := orderly.setups_le allowed
  rwa [nobody] at bound

/-- A packet that is served before anything else asks for service is told once. -/
theorem setups_le_arrivals_of_one :
    let start : Bus MeteredSink := { session := { output := { sink := {} }, clients := [{}] } }
    setups (start.told
      [.use (.setClient 0), .arrive (.replicate 8 0x80), .serve .setupPacketReceived, .request .inputEndpoint0,
        .serve .inputEndpoint0]) ≤ 1 := by
  intro start
  have quiet : start.session.Quiet := Session.quiet_of_idle rfl fun i => by cases i <;> rfl
  exact setups_le_arrivals quiet rfl (by decide) (by decide +kernel)

/-- A client is told twice of a packet that another source goes before. -/
theorem setup_told_twice :
    let start : Bus MeteredSink := { session := { output := { sink := {} }, clients := [{}] } }
    let events : List BusEvent :=
      [.use (.setClient 0), .arrive (.replicate 8 0x80), .request .inputEndpoint0, .serve .inputEndpoint0,
        .serve .setupPacketReceived]
    (∀ p ∈ start.trace events, p.1.Allows p.2) ∧ start.session.Quiet ∧ events.countP BusEvent.arrives = 1 ∧
      setups (start.told events) = 2 := by
  intro start events
  exact ⟨by decide +kernel, Session.quiet_of_idle rfl fun i => by cases i <;> rfl, rfl, by decide +kernel⟩

end Bus

end UsbDevice
