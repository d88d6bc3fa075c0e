import Mathlib.Data.List.Basic
import UsbDevice.Proofs.ControlPackets
import UsbDevice.Proofs.RegisterFrame
import UsbDevice.Proofs.ReportOrigin

namespace UsbDevice

/-- The task begins to serve an interrupt, or goes on with it. -/
def Task.Interrupts : Task → Prop
  | call op => op.Interrupts
  | dispatch _ => True
  | _ => False

/-- The client answers the last notice of an interrupt, and the interrupt returns to who has asked for it. -/
def Client.untilReturn (c : Client) (notice : Notice) (caller : Caller) : List Task :=
  (c.reaction notice).map .call ++ [.endNotice, .conclude caller (.ok ())]

theorem EndpointCount.isSet_nak {r : Byte} (holds : EndpointCount.nak.set.MatchesAll r) :
    EndpointCount.nak.IsSet r := by
  have bit : r &&& EndpointCount.nak.mask = EndpointCount.nak.set.value := holds
  have nonzero : EndpointCount.nak.set.value ≠ 0 := by decide
  exact fun clear => nonzero (bit.symm.trans clear)

namespace Session

variable {σ : Type} [Sink σ]

/-- The next step lends something for endpoint 0 out of the host. -/
def LendsOut (s : Session σ) : Prop :=
  match s.action with
  | .lend id _ => id = .controlOut
  | _ => False

instance (s : Session σ) : Decidable s.LendsOut := by
  unfold LendsOut
  split <;> infer_instance

/-- Nothing is in flight towards the host, and its packet buffer and count are as given. -/
structure Blocked (packet : Packet) (count : Byte) (s : Session σ) : Prop where
  idle : s.controlIn.state = .idle
  packet : s.controller.registers.iep0Buf = packet
  count : s.controller.registers.iepcnt0 = count

/-- Only what is lent or poked ends the block: another reset sets the NAK that is set already. -/
theorem Blocked.step {packet : Packet} {count : Byte} {s : Session σ} {turn : Turn σ}
    (nak : EndpointCount.nak.set.MatchesAll count) (stepped : s.step = some turn)
    (quiet : s.lent? = none ∧ ¬ s.Pokes .iepcnt0 ∧ ¬ s.Pokes .iep0Buf) (blocked : s.Blocked packet count) :
    turn.session.Blocked packet count := by
  obtain ⟨lent, count_, packet_⟩ := quiet
  have idle := (Reach.single stepped).controlIn_idle (by simpa using lent) blocked.idle
  have same : turn.session.controller.registers.iep0Buf = s.controller.registers.iep0Buf ∧
      turn.session.controller.registers.iepcnt0 = s.controller.registers.iepcnt0 := by
    rw [step_controller stepped]
    cases found : s.action with
    | poke window offset bytes =>
      simp only [Pokes, ControllerAction.Pokes, found] at count_ packet_
      exact ⟨Registers.poke_iep0Buf _ packet_, Registers.poke_iepcnt0 _ count_⟩
    | transmit =>
      rw [← found, ← step_controller stepped, (step_of_transmits_idle stepped found blocked.idle).1]
      exact ⟨rfl, rfl⟩
    | reset => exact ⟨rfl, FieldValue.modify_eq_self (blocked.count ▸ nak)⟩
    | lend id buffer =>
      simp only [Controller.act, Controller.lend]
      split
      · exact ⟨Controller.startControl_iep0Buf _ _, Controller.startControl_iepcnt0 _ _⟩
      · exact ⟨rfl, rfl⟩
    | mask =>
      obtain ⟨_, _, _, _, registers⟩ := s.controller.maskInterrupts_registers
      simp only [Controller.act, registers, and_self]
    | unmask =>
      obtain ⟨_, _, _, _, registers⟩ := s.controller.unmaskInterrupts_registers
      simp only [Controller.act, registers, and_self]
    | raise vector => cases vector <;> exact ⟨rfl, rfl⟩
    | interrupt vector =>
      obtain ⟨_, _, begun⟩ := s.controller.act_interrupt s.buffers vector
      simp only [begun, and_self]
    | _ => exact ⟨rfl, rfl⟩
  exact ⟨idle, same.1.trans blocked.packet, same.2.trans blocked.count⟩

/-- The NAK of endpoint 0 out of the host goes away only when something is lent for it, or by a poke. -/
theorem step_nak_out {s : Session σ} {turn : Turn σ} (stepped : s.step = some turn)
    (quiet : ¬ s.LendsOut ∧ ¬ s.Pokes .oepcnt0)
    (nak : EndpointCount.nak.set.MatchesAll s.controller.registers.oepcnt0) :
    EndpointCount.nak.set.MatchesAll turn.session.controller.registers.oepcnt0 := by
  obtain ⟨lends, poked⟩ := quiet
  rw [step_controller stepped]
  cases found : s.action with
  | poke window offset bytes =>
    simp only [Pokes, ControllerAction.Pokes, found] at poked
    simpa only [Controller.act, Registers.poke_oepcnt0 _ poked] using nak
  | transmit =>
    simp only [Controller.act]
    split <;> exact nak
  | reset => exact BitField.matchesAll_modify_val _ _ _
  | lend id buffer =>
    simp only [LendsOut, found] at lends
    simp only [Controller.act, Controller.lend]
    split
    · next zero =>
      have toHost : id.direction = .toHost := by
        cases direction : id.direction with
        | toHost => rfl
        | toDevice =>
          refine absurd ?_ lends
          obtain ⟨number, _⟩ := id
          cases direction
          exact congrArg (SlotId.mk · .toDevice) (Fin.ext zero)
      rw [toHost]
      exact nak
    · exact nak
  | mask =>
    obtain ⟨_, _, _, _, registers⟩ := s.controller.maskInterrupts_registers
    simpa only [Controller.act, registers] using nak
  | unmask =>
    obtain ⟨_, _, _, _, registers⟩ := s.controller.unmaskInterrupts_registers
    simpa only [Controller.act, registers] using nak
  | raise vector => cases vector <;> exact nak
  | interrupt vector =>
    obtain ⟨_, _, begun⟩ := s.controller.act_interrupt s.buffers vector
    simpa only [begun] using nak
  | _ => exact nak

/-! What a client does in answer, as long as it asks for no interrupt. -/

theorem work_todo (s : Session σ) {task : Task} (plain : ¬ task.Interrupts) :
    (s.work task).session.todo = s.todo := by
  cases task with
  | dispatch => exact absurd trivial plain
  | endNotice => rfl
  | conclude => rfl
  | call op =>
    have asks := Op.asks_of_not_interrupts plain
    rw [work_eq_outcome]
    simp only [outcome, told_of_plain s asks, Client.replies, Task.resumed, asks, List.nil_append]

omit [Sink σ] in
/-- Only the middle of an interrupt resets or transmits. -/
theorem dispatches_of_serves {s : Session σ} (serves : s.Resets ∨ s.Transmits) :
    ∃ caller todo, s.todo = .dispatch caller :: todo ∧ s.action = s.controller.served := by
  unfold Resets Transmits action at *
  cases pending : s.todo with
  | nil => simp [pending] at serves
  | cons task todo =>
    rw [pending] at serves
    cases task with
    | dispatch caller => exact ⟨caller, todo, rfl, rfl⟩
    | call op =>
      obtain ⟨resets, transmits, _⟩ := op.action_ne_served s.buffers s.guards
      exact (serves.elim resets transmits).elim
    | endNotice => simp at serves
    | conclude => simp at serves

theorem reach_of_tasks {tasks rest : List Task} {s : Session σ} (plain : ∀ task ∈ tasks, ¬ task.Interrupts)
    (pending : s.todo = tasks ++ rest) :
    ∃ during back, s.Reach during back ∧ back.todo = rest ∧ during.map (·.todo.head?) = tasks.map some ∧
      ∀ p ∈ during, ¬ p.Resets ∧ ¬ p.Transmits := by
  induction tasks generalizing s with
  | nil => exact ⟨[], s, .start, pending, rfl, by simp⟩
  | cons task tasks ih =>
    have stepped : s.step = some ({ s with todo := tasks ++ rest }.work task) := step_of_todo pending
    have first := plain task (by simp)
    obtain ⟨during, back, reach, todo, done, quiet⟩ :=
      ih (fun task member => plain task (by simp [member])) (work_todo { s with todo := tasks ++ rest } first)
    have outside : ¬ (s.Resets ∨ s.Transmits) := by
      intro serves
      obtain ⟨caller, todo, found, _⟩ := dispatches_of_serves serves
      obtain ⟨rfl, _⟩ := List.cons.inj (pending.symm.trans found)
      exact first trivial
    refine ⟨s :: during, back, (Reach.single stepped).append reach, todo, ?_, ?_⟩
    · simp only [List.map_cons, done, pending, List.cons_append, List.head?_cons]
    · intro p member
      rcases List.mem_cons.mp member with rfl | later
      · exact not_or.mp outside
      · exact quiet p later

/-- A bus reset tells the client at once, whose answer comes before the interrupt returns. -/
theorem todo_of_resets {s : Session σ} {turn : Turn σ} {client : Nat} (stepped : s.step = some turn)
    (resets : s.Resets) (set : s.controller.client = some client) :
    ∃ caller rest, s.todo = .dispatch caller :: rest ∧
      turn.session.todo = (s.clients.getD client {}).untilReturn .busReset caller ++ rest := by
  obtain ⟨caller, rest, pending, action⟩ := dispatches_of_serves (Or.inl resets)
  refine ⟨caller, rest, pending, ?_⟩
  have served : s.controller.served = .reset := action.symm.trans resets
  have source : Source.ofCode? s.controller.registers.vecint = some .reset := by
    unfold Controller.served at served
    split at served <;> first | assumption | cases served
  obtain rfl := Option.some.inj ((step_eq_outcome pending).symm.trans stepped)
  have told : ({ s with todo := rest } : Session σ).told? (.dispatch caller) = some (client, .busReset) := by
    simp only [told?, Task.action, served, Controller.told?, set, Option.bind_some, Option.map_some]
  have verdict : s.controller.verdict = .ok () := by simp only [Controller.verdict, source]
  simp only [outcome, told, Client.replies, Task.resumed, verdict, Client.untilReturn, List.append_assoc,
    List.cons_append, List.nil_append]

/-- How a bus reset bears on `t`, where `reset` is the session just after it and `since` are the steps from there. -/
structure Barrier (reset : Session σ) (since : List (Session σ)) (t : Session σ) : Prop where
  /-- Until something is lent towards the host, its packet buffer and count stand still, with the NAK set, and nothing
  is reported. -/
  toHost : (∀ p ∈ since, p.lent? = none ∧ ¬ p.Pokes .iepcnt0 ∧ ¬ p.Pokes .iep0Buf) →
    EndpointCount.nak.IsSet t.controller.registers.iepcnt0 ∧
      t.controller.registers.iepcnt0 = reset.controller.registers.iepcnt0 ∧
      t.controller.registers.iep0Buf = reset.controller.registers.iep0Buf ∧
      (t.Transmits → ∃ sent, t.step = some sent ∧ sent.session.controller = t.controller) ∧
      ∀ e bytes status, ¬ t.Reports e bytes status
  toDevice : (∀ p ∈ since, ¬ p.LendsOut ∧ ¬ p.Pokes .oepcnt0) →
    EndpointCount.nak.IsSet t.controller.registers.oepcnt0
  /-- What is served after the reset has been lent after it. -/
  forgets : t.Transmits → ∃ sent, t.step = some sent ∧
    (sent.session.controller = t.controller ∧ t.notices = [] ∨
      ∃ earlier q later buffer, since = earlier ++ q :: later ∧ q.lent? = some buffer ∧
        (∀ p ∈ later, p.lent? = none ∧ ¬ p.Resets) ∧ t.Serves buffer (later.countP (·.Transmits)) sent)
  /-- What is reported after the reset has been lent after it. -/
  reports : ∀ e bytes status, t.Reports e bytes status → ∃ m, OwedTo since since.length m bytes

/-- What is in flight was lent after the last reset. -/
theorem Reach.armed_since {start r t : Session σ} {past since : List (Session σ)} {turn : Turn σ}
    (fresh : start.Fresh) (reach : start.Reach past r) (resets : r.Resets) (stepped : r.step = some turn)
    (later : turn.session.Reach since t) (armed : t.controlIn.state = .armed) :
    ∃ earlier q after buffer, since = earlier ++ q :: after ∧ q.lent? = some buffer ∧
      (∀ p ∈ after, p.lent? = none ∧ ¬ p.Resets) ∧
      t.controlIn = .afterInterrupts Slots.controlSize buffer (after.countP (·.Transmits)) := by
  have whole := (reach.next stepped).append later
  obtain ⟨before, q, after, buffer, split, lent, quiet, slot⟩ := whole.armed_origin fresh armed
  rw [List.append_assoc, List.singleton_append] at split
  -- The reset is not among the undisturbed steps, so all of them come after it.
  rcases List.append_eq_append_iff.mp split with ⟨between, rfl, rest⟩ | ⟨between, rfl, rest⟩
  · cases between with
    | nil =>
      obtain ⟨rfl, rfl⟩ := List.cons.inj rest
      simp [lent?, show r.action = .reset from resets] at lent
    | cons first between =>
      obtain ⟨rfl, rfl⟩ := List.cons.inj rest
      exact ⟨between, q, after, buffer, rfl, lent, quiet, slot⟩
  · cases between with
    | nil =>
      obtain ⟨rfl, rfl⟩ := List.cons.inj rest
      simp [lent?, show q.action = .reset from resets] at lent
    | cons first between =>
      obtain ⟨rfl, rfl⟩ := List.cons.inj rest
      exact absurd resets (quiet r (by simp)).2

theorem matchesAll_nak_of_resets {s : Session σ} {turn : Turn σ} (stepped : s.step = some turn)
    (resets : s.Resets) :
    EndpointCount.nak.set.MatchesAll turn.session.controller.registers.iepcnt0 ∧
      EndpointCount.nak.set.MatchesAll turn.session.controller.registers.oepcnt0 := by
  rw [step_controller stepped, show s.action = .reset from resets]
  exact ⟨BitField.matchesAll_modify_val _ _ _, BitField.matchesAll_modify_val _ _ _⟩

theorem Reach.barrier {start r t : Session σ} {past since : List (Session σ)} {turn : Turn σ} (fresh : start.Fresh)
    (reach : start.Reach past r) (resets : r.Resets) (stepped : r.step = some turn)
    (later : turn.session.Reach since t) : turn.session.Barrier since t where
  toHost quiet := by
    obtain ⟨nak, _⟩ := matchesAll_nak_of_resets stepped resets
    have idle : turn.session.controlIn.state = .idle := by
      rw [step_controlIn_of_resets stepped resets]
      rfl
    have blocked : t.Blocked turn.session.controller.registers.iep0Buf turn.session.controller.registers.iepcnt0 :=
      later.keeps (fun p next stepped quiet blocked => blocked.step nak stepped quiet) quiet ⟨idle, rfl, rfl⟩
    refine ⟨EndpointCount.isSet_nak (blocked.count ▸ nak), blocked.count, blocked.packet, ?_, ?_⟩
    · intro transmits
      obtain ⟨sent, step⟩ := step_of_action (s := t) (by simp [show t.action = .transmit from transmits])
      exact ⟨sent, step, (step_of_transmits_idle step transmits blocked.idle).1⟩
    · intro e bytes status reports
      have armed := (Transfer.state_of_complete reports.ends.2.1).1
      rw [blocked.idle] at armed
      cases armed
  toDevice quiet := by
    obtain ⟨_, nak⟩ := matchesAll_nak_of_resets stepped resets
    have kept := later.keeps (fun p next stepped quiet nak => step_nak_out stepped quiet nak) quiet nak
    exact EndpointCount.isSet_nak kept
  forgets transmits := by
    obtain ⟨sent, step⟩ := step_of_action (s := t) (by simp [show t.action = .transmit from transmits])
    refine ⟨sent, step, ?_⟩
    cases state : t.controlIn.state with
    | idle => exact Or.inl (step_of_transmits_idle step transmits state)
    | armed =>
      obtain ⟨earlier, q, after, buffer, rfl, lent, quiet, slot⟩ :=
        reach.armed_since fresh resets stepped later state
      obtain ⟨lending, _, lends, rest⟩ := later.at_point
      have fits := ((Reach.single lends).append rest).fits (lent_fits lent)
      exact Or.inr ⟨earlier, q, after, buffer, rfl, lent, quiet, serves_of_afterInterrupts step transmits fits slot⟩
  reports e bytes status reports := by
    obtain ⟨_, complete, _, _⟩ := reports.ends
    obtain ⟨earlier, q, after, buffer, rfl, lent, quiet, slot⟩ :=
      reach.armed_since fresh resets stepped later (Transfer.state_of_complete complete).1
    have whole : bytes = buffer.length := Transfer.length_of_complete (by decide) (slot ▸ complete)
    exact ⟨earlier.length, whole ▸ OwedTo.of_split List.take_length lent quiet⟩

/-- What the client lends in answer to the reset is armed from its start when the interrupt returns. -/
theorem Reach.armed_in_answer {start r : Session σ} {past : List (Session σ)} {turn : Turn σ} {client : Nat}
    (fresh : start.Fresh) (reach : start.Reach past r) (resets : r.Resets) (stepped : r.step = some turn)
    (set : r.controller.client = some client)
    (plain : ∀ op ∈ (r.clients.getD client {}).reaction .busReset, ¬ op.Interrupts) :
    ∃ caller during back, turn.session.Reach during back ∧ back.todo = r.todo.tail ∧
      during.map (·.todo.head?) = ((r.clients.getD client {}).untilReturn .busReset caller).map some ∧
      ∀ earlier q after buffer, during = earlier ++ q :: after → q.lent? = some buffer →
        (∀ p ∈ after, p.lent? = none) →
        back.controlIn = { maxSize := 8, buffer := some buffer, totalLen := buffer.length, state := .armed } := by
  obtain ⟨caller, rest, pending, answering⟩ := todo_of_resets stepped resets set
  have ends : ∀ task ∈ (r.clients.getD client {}).untilReturn .busReset caller, ¬ task.Interrupts := by
    intro task member
    rcases List.mem_append.mp member with called | closing
    · obtain ⟨op, listed, rfl⟩ := List.mem_map.mp called
      exact plain op listed
    · have either : task = .endNotice ∨ task = .conclude caller (.ok ()) := by simpa using closing
      rcases either with rfl | rfl <;> exact not_false
  obtain ⟨during, back, returns, left, done, quiet⟩ := reach_of_tasks ends answering
  refine ⟨caller, during, back, returns, by rw [left, pending, List.tail_cons], done, ?_⟩
  rintro earlier q after buffer rfl lent last
  obtain ⟨lending, before, lends, later⟩ := returns.at_point
  have size := ((reach.next stepped).append before).controlIn_maxSize fresh
  have first : lending.session.controlIn = .afterInterrupts 8 buffer 0 := by
    rw [step_controlIn_of_lent lends lent, Transfer.start_eq_afterInterrupts, size]
    rfl
  have undisturbed : ∀ p ∈ after, p.lent? = none ∧ ¬ p.Resets := fun p member =>
    ⟨last p member, (quiet p (by simp [member])).1⟩
  have silent : after.countP (·.Transmits) = 0 := by
    rw [List.countP_eq_zero]
    intro p member
    simpa using (quiet p (by simp [member])).2
  have slot := later.controlIn_afterInterrupts (by decide) undisturbed first
  rw [silent, ← Transfer.start_eq_afterInterrupts { maxSize := 8 } buffer] at slot
  exact slot

/-- Nothing from before a bus reset survives it, and what the client lends in answer to it does. -/
theorem bus_reset_barrier {start r : Session σ} {past : List (Session σ)} {turn : Turn σ} (fresh : start.Fresh)
    (reach : start.Reach past r) (resets : r.Resets) (stepped : r.step = some turn) :
    (∀ since t, turn.session.Reach since t → turn.session.Barrier since t) ∧
      ∀ client, r.controller.client = some client →
        (∀ op ∈ (r.clients.getD client {}).reaction .busReset, ¬ op.Interrupts) →
        ∃ caller during back, turn.session.Reach during back ∧ back.todo = r.todo.tail ∧
          during.map (·.todo.head?) = ((r.clients.getD client {}).untilReturn .busReset caller).map some ∧
          ∀ earlier q after buffer, during = earlier ++ q :: after → q.lent? = some buffer →
            (∀ p ∈ after, p.lent? = none) →
            back.controlIn = { maxSize := 8, buffer := some buffer, totalLen := buffer.length, state := .armed } :=
  ⟨fun _ _ later => reach.barrier fresh resets stepped later,
    fun _ set plain => reach.armed_in_answer fresh resets stepped set plain⟩

/-- The client lends ten bytes when the SETUP packet comes, and in answer to the reset three others. -/
theorem bus_reset_barrier_of_answer :
    let start : Session MeteredSink :=
      Session.plan
        { output := { sink := {} }, buffers := [[1, 2, 3, 4, 5, 6, 7, 8, 9, 10], [11, 12, 13]]
          clients := [{ onSetupReceived := [[.queueTransfer (.address 0x80) (some { buffer := 0 })]]
                        onBusReset := [[.queueTransfer (.address 0x80) (some { buffer := 1 })]] }] }
        [.setClient 0, .pokeRegister .ifg [0x40], .handleInterrupt (some 0x16), .handleInterrupt (some 0x12)]
    (start.after 6).Barrier ((start.after 6).path 5) ((start.after 6).after 5) ∧
      (start.after 5).controlIn.buffer = some ⟨0, 0, 10⟩ ∧
      ((start.after 6).after 3).controlIn =
        { maxSize := 8, buffer := some ⟨1, 0, 3⟩, totalLen := 3, state := .armed } := by
  intro start
  have fresh : start.Fresh := ⟨rfl, rfl, _, rfl⟩
  have resets : (start.after 5).Resets := by decide +kernel
  have set : (start.after 5).controller.client = some 0 := by decide +kernel
  have plain : ∀ op ∈ ((start.after 5).clients.getD 0 {}).reaction .busReset, ¬ op.Interrupts := by decide +kernel
  have lent : (start.after 6).lent? = some ⟨1, 0, 3⟩ := by decide +kernel
  have last : ∀ p ∈ ((start.after 6).path 3).tail, p.lent? = none := by decide +kernel
  have first : ((start.after 6).path 3).head? = some (start.after 6) := by
    rw [List.head?_eq_getElem?, getElem?_path (by decide +kernel)]
    rfl
  have answers : (((start.after 5).clients.getD 0 {}).reaction .busReset).length = 1 := by decide +kernel
  obtain ⟨turn, stepped⟩ : ∃ turn, (start.after 5).step = some turn :=
    step_of_action (by simp [show (start.after 5).action = .reset from resets])
  have begun : turn.session = start.after 6 := session_of_step_after (by decide +kernel) stepped
  obtain ⟨barrier, answer⟩ := bus_reset_barrier fresh (start.reach_after 5) resets stepped
  rw [begun] at barrier answer
  obtain ⟨caller, during, back, returns, _, done, armed⟩ := answer 0 set plain
  have count : during.length = 3 := by
    have same := congrArg List.length done
    simp only [List.length_map, Client.untilReturn, List.length_append, answers] at same
    exact same
  obtain ⟨path, rfl⟩ := returns.eq_path
  rw [count] at path
  refine ⟨barrier _ _ (reach_after _ 5), by decide +kernel, ?_⟩
  rw [count] at armed
  exact armed [] (start.after 6) _ ⟨1, 0, 3⟩ (path.trans (List.eq_cons_of_mem_head? first)) lent last

end Session

end UsbDevice
