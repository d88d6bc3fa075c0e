import UsbDevice.Proofs.RegisterFrame
import UsbDevice.Proofs.RunHistory
import UsbDevice.Proofs.StepOutcome

namespace UsbDevice

/-! What is left of a session for somebody who sees no byte of a lent buffer: neither what the buffers hold, nor what
their owners write to them or read from them, nor the packet buffer towards the host. -/

namespace Buffers

/-- Only how long the buffers are. -/
def blind (buffers : Buffers) : Buffers := buffers.map fun buffer => List.replicate buffer.length 0

theorem length_getD_blind (buffers : Buffers) (i : Nat) :
    (buffers.blind.getD i []).length = (buffers.getD i []).length := by
  simp only [blind, List.getD_eq_getElem?_getD, List.getElem?_map]
  cases buffers[i]? with
  | none => rfl
  | some buffer => exact List.length_replicate

theorem slice_blind (buffers : Buffers) (region : Option Region) :
    buffers.blind.slice region = buffers.slice region := by
  cases region with
  | none => rfl
  | some region => simp only [slice, Region.slice, length_getD_blind]

theorem length_read_blind (buffers : Buffers) (slice : Slice) :
    (slice.read buffers.blind).length = (slice.read buffers).length := by
  simp only [Slice.read, List.length_take, List.length_drop, length_getD_blind]

/-- A write does not make a buffer longer or shorter. -/
theorem blind_write (slice : Slice) (buffers : Buffers) (data : List Byte) :
    Buffers.blind (slice.write buffers data) = buffers.blind := by
  apply List.ext_getElem?
  intro i
  have length := Slice.length_getD_write slice buffers data i
  have outside : (slice.write buffers data)[i]? = none ↔ buffers[i]? = none := by
    simp only [Slice.write, List.getElem?_eq_none_iff, List.length_modify]
  simp only [List.getD_eq_getElem?_getD] at length
  simp only [blind, List.getElem?_map]
  cases before : buffers[i]? with
  | none => rw [outside.mpr before]
  | some buffer =>
    obtain ⟨written, after⟩ : ∃ written, (slice.write buffers data)[i]? = some written :=
      Option.ne_none_iff_exists'.mp fun none => by simp [outside.mp none] at before
    simp only [before, after, Option.getD_some] at length
    simp only [after, Option.map_some, length]

end Buffers

/-- The change is one that somebody sees who does not see the packet buffer. -/
def Change.isSeen : Change → Bool
  | register .iep0Buf _ => false
  | _ => true

namespace Registers

def blind (regs : Registers) : Registers := { regs with iep0Buf := .zero }

/-- What is written to the other registers does not depend on the packet buffer. -/
theorem setByte_blind {regs regs' : Registers} (same : regs'.blind = regs.blind) (r : Register) (i : Nat) (b : Byte) :
    (regs'.setByte r i b).blind = (regs.setByte r i b).blind := by
  obtain ⟨packet, rfl⟩ : ∃ packet, regs' = { regs with iep0Buf := packet } :=
    ⟨regs'.iep0Buf, congrArg (fun others : Registers => { others with iep0Buf := regs'.iep0Buf }) same⟩
  cases r <;> rfl

theorem bytes_blind (regs : Registers) {r : Register} (other : r ≠ .iep0Buf) : regs.blind.bytes r = regs.bytes r := by
  cases r <;> first | rfl | exact absurd rfl other

end Registers

namespace Controller

def blind (c : Controller) : Controller := { c with registers := c.registers.blind }

/-- No action looks at the packet buffer, and none at the bytes of a buffer but to fill it. -/
theorem act_blind (c : Controller) (buffers : Buffers) (a : ControllerAction) :
    (c.blind.act buffers.blind a).blind = (c.act buffers a).blind := by
  cases a with
  | mask =>
    obtain ⟨registers, ⟨saved, depth⟩, _⟩ := c
    cases depth <;> rfl
  | unmask =>
    obtain ⟨registers, ⟨saved, depth⟩, _⟩ := c
    rcases depth with _ | _ | depth <;> rfl
  | lend id buffer =>
    simp only [act, lend, blind, Registers.blind]
    by_cases control : id.number.val = 0
    · simp only [control, if_true]
      cases id.direction <;> rfl
    · simp only [control, if_false]
  | poke window offset bytes =>
    have poked := @Registers.poke_related (fun regs regs' => regs'.blind = regs.blind) window offset bytes
      (fun _ _ r i b _ same => Registers.setByte_blind same r i b) c.registers c.registers.blind rfl
    exact congrArg (fun registers : Registers => { c with registers }) poked
  | raise vector => cases vector <;> rfl
  | interrupt vector =>
    obtain ⟨registers, masking, slots, setupPacket, halted, client⟩ := c
    cases halted with
    | true => cases vector <;> rfl
    | false =>
      by_cases pending : BusFlag.setup.IsSet registers.ifg <;> cases vector <;>
        simp only [act, copySetup, raise, blind, Registers.blind, pending, if_true, if_false, Bool.false_eq_true]
  | transmit =>
    simp only [act, blind, Registers.blind]
    cases (c.slots.get .controlIn).next.step with
    | packet chunk => simp only [loadPacket, Buffers.length_read_blind]
    | _ => rfl
  | _ => rfl

theorem registerChanges_blind (before after : Registers) :
    (Register.all.filter fun r => before.blind.bytes r ≠ after.blind.bytes r).map
        (fun r => Change.register r (after.blind.bytes r))
      = ((Register.all.filter fun r => before.bytes r ≠ after.bytes r).map
        fun r => Change.register r (after.bytes r)).filter (·.isSeen) := by
  rw [List.filter_map, List.filter_filter]
  have kept : ∀ r ∈ Register.all, decide (before.blind.bytes r ≠ after.blind.bytes r)
      = (((·.isSeen) ∘ fun r => Change.register r (after.bytes r)) r && decide (before.bytes r ≠ after.bytes r)) := by
    intro r _
    by_cases packet : r = .iep0Buf
    · subst packet
      simp [Registers.blind, Registers.bytes, Change.isSeen]
    · have seen : (Change.register r (after.bytes r)).isSeen = true := by
        cases r <;> first | rfl | exact absurd rfl packet
      simp only [Registers.bytes_blind _ packet, Function.comp_apply, seen, Bool.true_and]
  rw [List.filter_congr kept]
  refine List.map_congr_left fun r member => ?_
  have other : r ≠ .iep0Buf := by
    rintro rfl
    simp [Change.isSeen] at member
  rw [Registers.bytes_blind after other]

/-- The changes that are left are all but those of the packet buffer. -/
theorem changes_blind (before after : Controller) :
    before.blind.changes after.blind = (before.changes after).filter (·.isSeen) := by
  have slots (ids : List SlotId) : (ids.map fun id => Change.slot id (after.slots.get id).progress).filter (·.isSeen)
      = ids.map fun id => Change.slot id (after.slots.get id).progress :=
    List.filter_eq_self.mpr fun change member => by
      obtain ⟨id, _, rfl⟩ := List.mem_map.mp member
      rfl
  have packet : (if before.setupPacket = after.setupPacket then [] else [Change.setupPacket after.setupPacket]).filter
      (·.isSeen) = if before.setupPacket = after.setupPacket then [] else [Change.setupPacket after.setupPacket] := by
    split <;> rfl
  have halted : (if before.halted = after.halted then [] else [Change.halted after.halted]).filter (·.isSeen)
      = if before.halted = after.halted then [] else [Change.halted after.halted] := by
    split <;> rfl
  simp only [changes, List.filter_append, ← registerChanges_blind, slots, packet, halted]
  rfl

theorem dispatch_said_blind (config : Config) (c : Controller) (buffers : Buffers) :
    (c.blind.dispatch config buffers.blind).said = (c.dispatch config buffers).said := by
  simp only [dispatch, blind, Registers.blind]
  cases Source.ofCode? c.registers.vecint with
  | none => rfl
  | some source =>
    cases source with
    | inputEndpoint0 =>
      simp only [transmit]
      cases (c.slots.get .controlIn).next.step <;> rfl
    | _ => rfl

end Controller

namespace Op

/-- The operation without the data that it writes. -/
def blind : Op → Op
  | .writeBuffer region _ => .writeBuffer region []
  | op => op

theorem blind_blind (op : Op) : op.blind.blind = op.blind := by cases op <;> rfl

theorem asks_blind (op : Op) : op.blind.asks? = op.asks? := by cases op <;> rfl

theorem action_blind (op : Op) (buffers : Buffers) (guards : List Bool) :
    op.blind.action buffers.blind guards = op.action buffers guards := by
  cases op with
  | queueTransfer e region => simp only [blind, action, Buffers.slice_blind]
  | _ => rfl

theorem said_blind (config : Config) (c : Controller) (buffers : Buffers) (op : Op) :
    op.blind.said config c.blind buffers.blind = op.said config c buffers := by
  cases op with
  | queueTransfer e region =>
    simp only [blind, said, Buffers.slice_blind]
    cases e.resolve with
    | error => rfl
    | ok e =>
      simp only [Controller.queueTransfer]
      cases SlotId.ofEndpoint? e <;> rfl
  | handleInterrupt vector =>
    simp only [blind, said, Controller.captureSetup, Controller.blind, Registers.blind]
    by_cases pending : BusFlag.setup.IsSet c.registers.ifg <;> simp only [pending, if_true, if_false]
  | serviceInterrupt line vector =>
    simp only [blind, said, Controller.captureSetup, Controller.blind, Registers.blind]
    by_cases pending : BusFlag.setup.IsSet c.registers.ifg <;> simp only [pending, if_true, if_false]
  | _ => rfl

end Op

/-- The answer, and of bytes that are read only how many they are. -/
def Answer.blind : Answer → Answer
  | bytes data => .bytes (List.replicate data.length 0)
  | answer => answer

theorem Op.answer_blind (c : Controller) (buffers : Buffers) (guards : List Bool) (op : Op) :
    (op.blind.answer c.blind buffers.blind guards).blind = (op.answer c buffers guards).blind := by
  cases op with
  | readBuffer region => simp only [Op.blind, answer, Answer.blind, Buffers.slice_blind, Buffers.length_read_blind]
  | _ => rfl

def Closing.blind (closing : Closing) : Closing := { closing with changes := closing.changes.filter (·.isSeen) }

theorem Closing.blind_changes {before before' now now' : Controller} (shown : before'.blind = before.blind)
    (same : now'.blind = now.blind) (log : List Byte) :
    Closing.blind ⟨log, before'.changes now'⟩ = Closing.blind ⟨log, before.changes now⟩ := by
  simp only [blind, ← Controller.changes_blind, shown, same]

def Mark.blind : Mark → Mark
  | call op => .call op.blind
  | notice client content closing => .notice client content closing.blind
  | endNotice => .endNotice
  | answer given closing => .answer given.blind closing.blind

namespace Mark

variable {closing closing' : Closing}

theorem map_notice_blind (same : closing'.blind = closing.blind) (told : Option (Nat × Notice)) :
    (told.map fun told => notice told.1 told.2 closing').toList.map blind
      = (told.map fun told => notice told.1 told.2 closing).toList.map blind := by
  cases told with
  | none => rfl
  | some told => simp only [Option.map_some, Option.toList_some, List.map_cons, blind, same]

theorem map_answer_blind (same : closing'.blind = closing.blind) {given given' : Option Answer}
    (alike : given'.map (·.blind) = given.map (·.blind)) :
    (given'.map fun given => answer given closing').toList.map blind
      = (given.map fun given => answer given closing).toList.map blind := by
  cases given <;> cases given' <;> simp_all [blind]

end Mark

namespace Task

def blind : Task → Task
  | call op => .call op.blind
  | dispatch caller => .dispatch caller
  | endNotice => .endNotice
  | conclude caller result => .conclude caller result

theorem blind_comp_blind : blind ∘ blind = blind := by
  funext task
  cases task with
  | call op => exact congrArg call op.blind_blind
  | _ => rfl

theorem answer_blind (c : Controller) (buffers : Buffers) (guards : List Bool) (task : Task) :
    (task.blind.answer? c.blind buffers.blind guards).map (·.blind)
      = (task.answer? c buffers guards).map (·.blind) := by
  cases task with
  | call op =>
    simp only [blind, answer?, Op.asks_blind]
    cases op.asks? with
    | none => exact congrArg some (op.answer_blind c buffers guards)
    | some asked => rfl
  | _ => rfl

theorem said_blind (config : Config) (c : Controller) (buffers : Buffers) (task : Task) :
    task.blind.said config c.blind buffers.blind = task.said config c buffers := by
  cases task with
  | call op => exact op.said_blind config c buffers
  | dispatch caller => exact c.dispatch_said_blind config buffers
  | endNotice => rfl
  | conclude caller result => rfl

theorem action_blind (c : Controller) (buffers : Buffers) (guards : List Bool) (task : Task) :
    task.blind.action c.blind buffers.blind guards = task.action c buffers guards := by
  cases task with
  | call op => exact op.action_blind buffers guards
  | _ => rfl

theorem resumed_blind (c : Controller) (task : Task) :
    (task.blind.resumed c.blind).map blind = (task.resumed c).map blind := by
  cases task with
  | call op =>
    simp only [blind, resumed, Op.asks_blind]
    rfl
  | _ => rfl

theorem written_blind (buffers : Buffers) (task : Task) :
    Buffers.blind (task.blind.written buffers.blind) = Buffers.blind (task.written buffers) := by
  have twice : buffers.blind.blind = buffers.blind := by
    simp only [Buffers.blind, List.map_map, Function.comp_def, List.length_replicate]
  cases task with
  | call op =>
    cases op with
    | writeBuffer region data => simp only [blind, Op.blind, written, Op.written, Buffers.blind_write, twice]
    | _ => exact twice
  | _ => exact twice

theorem guards_blind (held : List Bool) (task : Task) : task.blind.guards held = task.guards held := by
  cases task with
  | call op => cases op <;> rfl
  | _ => rfl

theorem place_blind (task : Task) : task.blind.place.map Mark.blind = task.place.map Mark.blind := by
  cases task with
  | call op => cases op <;> rfl
  | _ => rfl

end Task

namespace Client

def blind (c : Client) : Client where
  onBusReset := c.onBusReset.map (·.map Op.blind)
  onSetupReceived := c.onSetupReceived.map (·.map Op.blind)
  onTransferComplete := c.onTransferComplete.map (·.map Op.blind)

theorem blind_blind (c : Client) : c.blind.blind = c.blind := by
  simp only [blind, List.map_map, Function.comp_def, Op.blind_blind]

theorem reaction_blind (c : Client) (notice : Notice) : c.blind.reaction notice = (c.reaction notice).map Op.blind := by
  have head (plans : List (List Op)) : (plans.map (·.map Op.blind)).headD [] = (plans.headD []).map Op.blind := by
    cases plans <;> rfl
  cases notice <;> exact head _

theorem reacting_blind (c : Client) (notice : Notice) : c.blind.reacting notice = (c.reacting notice).blind := by
  cases notice <;> simp only [reacting, blind, List.map_tail]

theorem getD_map_blind (clients : List Client) (i : Nat) :
    (clients.map blind).getD i {} = (clients.getD i {}).blind := by
  simp only [List.getD_eq_getElem?_getD, List.getElem?_map]
  cases clients[i]? <;> rfl

theorem replies_blind (clients : List Client) (told : Option (Nat × Notice)) :
    replies (clients.map blind) told = (replies clients told).map Task.blind := by
  cases told with
  | none => rfl
  | some told =>
    simp only [replies, getD_map_blind, reaction_blind, List.map_append, List.map_map]
    rfl

theorem replied_blind (clients : List Client) (told : Option (Nat × Notice)) :
    replied (clients.map blind) told = (replied clients told).map blind := by
  cases told with
  | none => rfl
  | some told => simp only [replied, getD_map_blind, reacting_blind, List.map_set]

end Client

namespace Session

variable {σ : Type} [Sink σ]

/-- What is left of the session. -/
def blind (s : Session σ) : Session σ :=
  { s with
    controller := s.controller.blind
    buffers := s.buffers.blind
    clients := s.clients.map Client.blind
    shown := s.shown.blind
    todo := s.todo.map Task.blind }

omit [Sink σ] in
theorem blind_eq {s s' : Session σ} (config : s'.config = s.config)
    (controller : s'.controller.blind = s.controller.blind) (output : s'.output = s.output)
    (buffers : s'.buffers.blind = s.buffers.blind)
    (clients : s'.clients.map Client.blind = s.clients.map Client.blind) (guards : s'.guards = s.guards)
    (shown : s'.shown.blind = s.shown.blind) (todo : s'.todo.map Task.blind = s.todo.map Task.blind) :
    s'.blind = s.blind := by
  simp only [blind, config, controller, output, buffers, clients, guards, shown, todo]

end Session

/-- What is left of a turn. -/
def Turn.blind {σ : Type} (turn : Turn σ) : Turn σ where
  session := turn.session.blind
  marks := turn.marks.map Mark.blind

namespace Session

variable {σ : Type} [Sink σ]

omit [Sink σ] in
theorem told_blind (s : Session σ) (task : Task) : s.blind.told? task.blind = s.told? task := by
  have action : task.blind.action s.blind.controller s.blind.buffers s.blind.guards
      = task.action s.controller s.buffers s.guards := task.action_blind s.controller s.buffers s.guards
  simp only [told?, action]
  cases task.action s.controller s.buffers s.guards <;> rfl

omit [Sink σ] in
theorem looks_blind (s : Session σ) (task : Task) : s.blind.looks task.blind = s.looks task := by
  have answered := congrArg Option.isSome (task.answer_blind s.controller s.buffers s.guards)
  simp only [Option.isSome_map] at answered
  simp only [looks, told_blind]
  exact congrArg _ answered

omit [Sink σ] in
theorem acted_blind (s : Session σ) (task : Task) :
    (s.blind.controller.act s.blind.buffers
        (task.blind.action s.blind.controller s.blind.buffers s.blind.guards)).blind
      = (s.controller.act s.buffers (task.action s.controller s.buffers s.guards)).blind := by
  rw [← s.controller.act_blind s.buffers, ← task.action_blind]
  rfl

theorem printed_blind (s : Session σ) (task : Task) :
    s.blind.output.printAll (task.blind.said s.blind.config s.blind.controller s.blind.buffers)
      = s.output.printAll (task.said s.config s.controller s.buffers) :=
  congrArg s.output.printAll (task.said_blind s.config s.controller s.buffers)

theorem outcome_session_blind (s : Session σ) (task : Task) :
    (s.blind.outcome task.blind).session.blind = (s.outcome task).session.blind := by
  have clients : s.blind.clients = s.clients.map Client.blind := rfl
  have todo : s.blind.todo = s.todo.map Task.blind := rfl
  refine blind_eq rfl (s.acted_blind task) ?_ (task.written_blind s.buffers) ?_ (task.guards_blind s.guards) ?_ ?_
  · simp only [outcome, looks_blind, printed_blind]
  · simp only [outcome, told_blind]
    rw [clients, Client.replied_blind, List.map_map]
    exact List.map_congr_left fun client _ => client.blind_blind
  · simp only [outcome, looks_blind]
    split
    · exact s.acted_blind task
    · rfl
  · simp only [outcome, told_blind]
    rw [clients, todo, Client.replies_blind]
    simp only [List.map_append, List.map_map, Task.blind_comp_blind]
    exact congrArg _ (congrArg (· ++ _) (task.resumed_blind s.controller))

theorem outcome_marks_blind (s : Session σ) (task : Task) :
    (s.blind.outcome task.blind).marks.map Mark.blind = (s.outcome task).marks.map Mark.blind := by
  have answers : (task.blind.answer? s.blind.controller s.blind.buffers s.blind.guards).map (·.blind)
      = (task.answer? s.controller s.buffers s.guards).map (·.blind) :=
    task.answer_blind s.controller s.buffers s.guards
  have shown : s.blind.shown.blind = s.shown.blind := rfl
  have look := Closing.blind_changes shown (s.acted_blind task)
  simp only [outcome, List.map_append, told_blind, task.place_blind, printed_blind]
  rw [Mark.map_notice_blind (look _), Mark.map_answer_blind (look _) answers]

/-- Nothing that is left out has a part in what is left of a step. -/
theorem step_blind (s : Session σ) : s.blind.step.map Turn.blind = s.step.map Turn.blind := by
  cases pending : s.todo with
  | nil =>
    have stopped : s.blind.step = none := (step_eq_none_iff _).mpr (by simp only [blind, pending, List.map_nil])
    rw [stopped, (step_eq_none_iff s).mpr pending]
  | cons task todo =>
    have blinded : s.blind.todo = task.blind :: todo.map Task.blind := by simp only [blind, pending, List.map_cons]
    rw [step_eq_outcome pending, step_eq_outcome blinded]
    exact congrArg some (congrArg₂ Turn.mk ({ s with todo }.outcome_session_blind task)
      ({ s with todo }.outcome_marks_blind task))

/-- Two sessions of which the same is left go on so that always the same is left of them. -/
theorem after_blind {s s' : Session σ} (same : s'.blind = s.blind) (n : Nat) :
    (s'.after n).blind = (s.after n).blind ∧
      (s'.path n).map (fun p => p.marks.map Mark.blind) = (s.path n).map fun p => p.marks.map Mark.blind := by
  refine after_alike (R := fun p p' => p'.blind = p.blind) (Q := fun _ => True) (·.map Mark.blind) ?_ ?_ same n
    fun _ _ => trivial
  · intro p p' same done
    have plans : p'.todo.map Task.blind = p.todo.map Task.blind := congrArg todo same
    rw [done] at plans
    exact List.map_eq_nil_iff.mp plans
  · intro p p' turn same _ stepped
    have steps : p'.step.map Turn.blind = some turn.blind := by
      rw [← step_blind, same, step_blind, stepped]
      rfl
    obtain ⟨turn', stepped', alike⟩ := Option.map_eq_some_iff.mp steps
    exact ⟨turn', stepped', congrArg Turn.session alike, congrArg Turn.marks alike⟩

end Session

end UsbDevice
