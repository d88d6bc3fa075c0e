import UsbDevice.Proofs.HaltLatch
import UsbDevice.Proofs.ReportOrigin
import UsbDevice.Proofs.StepOutcome

namespace UsbDevice

/-- The task reads the vector, for an interrupt that has begun before. -/
def Task.reads : Task → Bool
  | dispatch _ => true
  | call _ => false
  | endNotice => false
  | conclude _ _ => false

theorem Client.countP_replies (clients : List Client) (told : Option (Nat × Notice)) :
    (replies clients told).countP Task.reads = 0 := by
  rw [List.countP_eq_zero]
  intro task reply
  cases told with
  | none => cases reply
  | some told =>
    rcases List.mem_append.mp reply with call | ending
    · obtain ⟨op, _, rfl⟩ := List.mem_map.mp call
      simp [Task.reads]
    · rw [List.mem_singleton.mp ending]
      simp [Task.reads]

/-- A driver that has stopped begins no interrupt. -/
theorem Task.countP_resumed {c : Controller} (halted : c.halted) (task : Task) :
    (task.resumed c).countP Task.reads = 0 := by
  cases task with
  | call op =>
    simp only [resumed, halted, if_true]
    cases op.asks? <;> rfl
  | _ => rfl

namespace Session

variable {σ : Type} [Sink σ]

/-- How many interrupts have begun and have not read the vector yet. -/
def unread (s : Session σ) : Nat := s.todo.countP Task.reads

/-- The next step reads the vector. -/
def reads (s : Session σ) : Bool := s.todo.head?.any Task.reads

theorem unread_of_step {s : Session σ} {turn : Turn σ} (halted : s.controller.halted) (stepped : s.step = some turn) :
    s.reads.toNat + turn.session.unread = s.unread := by
  obtain ⟨task, todo, pending, rfl⟩ := outcome_of_step stepped
  have resumed := task.countP_resumed halted
  simp only [reads, unread, pending, outcome, List.countP_append, Client.countP_replies, resumed, List.countP_cons,
    List.head?_cons, Option.any_some, Nat.zero_add]
  cases task.reads <;> simp [Nat.add_comm]

/-- What else is done of an interrupt tells nobody anything, and writes to no register but the vector. -/
theorem quiet_of_step_unless_reads {s : Session σ} {turn : Turn σ} (halted : s.controller.halted)
    (stepped : s.step = some turn) (other : s.reads = false) :
    s.notices = [] ∧ ((∃ op rest, s.todo = .call op :: rest ∧ op.asks? = none) ∨
      ∃ vector, turn.session.controller = s.controller.raise vector) := by
  obtain ⟨task, todo, pending, _⟩ := todo_of_step stepped
  rw [step_controller stepped, notices_eq, action_of_todo pending]
  simp only [reads, pending, List.head?_cons, Option.any_some] at other
  cases task with
  | call op =>
    cases asks : op.asks? with
    | none =>
      have silent := Op.told_of_plain asks s.controller s.buffers s.guards
      simp only [Task.action, silent]
      exact ⟨rfl, Or.inl ⟨op, todo, pending, asks⟩⟩
    | some asked =>
      obtain ⟨caller, vector⟩ := asked
      simp only [Task.action, Op.action_of_asks asks, Controller.told?, Controller.act, halted, not_true, false_and,
        if_false, if_true]
      exact ⟨rfl, Or.inr ⟨vector, rfl⟩⟩
  | dispatch caller => cases other
  | endNotice => exact ⟨rfl, Or.inr ⟨none, rfl⟩⟩
  | conclude caller result => exact ⟨rfl, Or.inr ⟨none, rfl⟩⟩

/-- A step that reads the vector serves what it names, also if the driver has stopped since the interrupt began. -/
theorem controller_of_reads {s : Session σ} {turn : Turn σ} (stepped : s.step = some turn) (reads : s.reads = true) :
    turn.session.controller = s.controller.act s.buffers s.controller.served := by
  obtain ⟨task, todo, pending, _⟩ := todo_of_step stepped
  rw [step_controller stepped, action_of_todo pending]
  simp only [Session.reads, pending, List.head?_cons, Option.any_some] at reads
  cases task with
  | dispatch caller => rfl
  | _ => cases reads

/-- Once a fault has been recorded no interrupt begins any more. What was in a callback and has still to read the vector
reads it once, serves what it names and tells that, as if nothing had happened. All else is silent, and of the
interrupts only the vector is written. -/
theorem interrupts_after_fault {p t : Session σ} {since : List (Session σ)} (halted : p.controller.halted)
    (later : p.Reach since t) :
    since.countP (·.reads) + t.unread = p.unread ∧ (since.flatMap notices).length + t.unread ≤ p.unread ∧
      ∀ q ∈ since, ∀ turn, q.step = some turn →
        (q.reads = true → turn.session.controller = q.controller.act q.buffers q.controller.served) ∧
        (q.reads = false → q.notices = [] ∧ ((∃ op rest, q.todo = .call op :: rest ∧ op.asks? = none) ∨
          ∃ vector, turn.session.controller = q.controller.raise vector)) := by
  induction later with
  | start => simp
  | @next before last turn previous stepped ih =>
    obtain ⟨counted, told, each⟩ := ih
    have stopped := previous.halted halted
    have unread := unread_of_step stopped stepped
    refine ⟨?_, ?_, ?_⟩
    · rw [List.countP_append, List.countP_singleton]
      cases reads : last.reads <;> simp only [reads, Bool.toNat_true, Bool.toNat_false] at unread <;> simp <;> omega
    · rw [List.flatMap_append, List.flatMap_singleton, List.length_append]
      have one := last.notices_length_le
      cases reads : last.reads with
      | true =>
        simp only [reads, Bool.toNat_true] at unread
        omega
      | false =>
        obtain ⟨silent, _⟩ := quiet_of_step_unless_reads stopped stepped reads
        simp only [reads, Bool.toNat_false] at unread
        simp only [silent, List.length_nil]
        omega
    · intro q member turn' stepped'
      rcases List.mem_append.mp member with earlier | here
      · exact each q earlier turn' stepped'
      · obtain rfl := List.mem_singleton.mp here
        exact ⟨controller_of_reads stepped', quiet_of_step_unless_reads stopped stepped'⟩

/-- A fault at the top of the session, where no interrupt is in a callback, and one inside a callback, after which the
interrupt that told the client reads its vector and serves it. -/
theorem interrupts_after_fault_of_invalid_vector :
    let top : Session MeteredSink :=
      Session.plan { output := { sink := {} } }
        [.setClient 0, .handleInterrupt (some 0x0e), .pokeRegister .ifg [0x40], .handleInterrupt (some 0x16)]
    let within : Session MeteredSink :=
      Session.plan
        { output := { sink := {} }
          clients := [{ onSetupReceived := [[.handleInterrupt (some 0x0e), .pokeRegister .vecint [0x16, 0]]] }] }
        [.setClient 0, .pokeRegister .ifg [0x40], .handleInterrupt (some 0x20), .handleInterrupt (some 0x16)]
    let fault := within.after 6
    ((top.after 3).controller.halted ∧ ((top.after 3).path 4).flatMap notices = []) ∧
      fault.controller.halted ∧ fault.unread = 1 ∧ (fault.path 8).countP (·.reads) = 1 ∧
      ((fault.path 8).flatMap notices).length ≤ 1 ∧
      (fault.after 4).controller
        = (fault.after 3).controller.act (fault.after 3).buffers (fault.after 3).controller.served := by
  intro top within fault
  have halted : (top.after 3).controller.halted := by decide +kernel
  have unread : (top.after 3).unread = 0 := by decide +kernel
  obtain ⟨_, told, _⟩ := interrupts_after_fault halted ((top.after 3).reach_after 4)
  have haltedWithin : fault.controller.halted := by decide +kernel
  have begun : fault.unread = 1 := by decide +kernel
  have ended : (fault.after 8).unread = 0 := by decide +kernel
  obtain ⟨counted, toldWithin, each⟩ := interrupts_after_fault haltedWithin (fault.reach_after 8)
  have member : fault.after 3 ∈ fault.path 8 := List.mem_of_getElem? (getElem?_path (by decide +kernel))
  obtain ⟨turn, stepped⟩ : ∃ turn, (fault.after 3).step = some turn :=
    Option.isSome_iff_exists.mp (by decide +kernel)
  have served := (each _ member turn stepped).1 (by decide +kernel)
  rw [session_of_step_after (by decide +kernel) stepped] at served
  exact ⟨⟨halted, List.eq_nil_of_length_eq_zero (by omega)⟩, haltedWithin, begun, by omega, by omega, served⟩

/-- A client is told of a SETUP packet, and asks for an interrupt whose vector is no source. The driver has stopped, and
still the interrupt that told the client resets the bus and tells of it. -/
theorem reset_after_fault :
    let start : Session MeteredSink :=
      Session.plan
        { output := { sink := {} }
          clients := [{ onSetupReceived := [[.handleInterrupt (some 0x0e), .pokeRegister .vecint [0x16, 0]]] }] }
        [.setClient 0, .pokeRegister .ifg [0x40], .handleInterrupt (some 0x20), .handleInterrupt (some 0x16)]
    start.Fresh ∧ (start.after 6).controller.halted ∧ (start.after 9).notices = [(0, .busReset)] ∧
      (start.after 10).controller.registers.ie ≠ (start.after 9).controller.registers.ie := by
  intro start
  exact ⟨⟨rfl, rfl, _, rfl⟩, by decide +kernel⟩

end Session

end UsbDevice
