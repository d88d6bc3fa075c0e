import UsbDevice.Debug.MeteredSink
import UsbDevice.Proofs.MaskedSections
import UsbDevice.Proofs.RunHistory

namespace UsbDevice

/-- The operation opens or closes a section without interrupts. -/
def Op.Masks : Op → Prop
  | .enableInterrupts | .disableInterrupts | .mask | .unmask _ => True
  | _ => False

instance : DecidablePred Op.Masks := fun op => by
  unfold Op.Masks
  split <;> infer_instance

theorem Op.asks_of_masks {op : Op} (masks : op.Masks) : op.asks? = none := by
  cases op <;> first | rfl | exact absurd masks not_false

theorem Op.action_guards {op : Op} (other : ¬ op.Masks) (buffers : Buffers) (guards guards' : List Bool) :
    op.action buffers guards = op.action buffers guards' := by
  cases op with
  | unmask => exact absurd trivial other
  | _ => rfl

theorem Op.action_ne_mask {op : Op} (other : ¬ op.Masks) (buffers : Buffers) (guards : List Bool) :
    op.action buffers guards ≠ .mask ∧ op.action buffers guards ≠ .unmask := by
  cases op with
  | enableInterrupts => exact absurd trivial other
  | disableInterrupts => exact absurd trivial other
  | mask => exact absurd trivial other
  | unmask => exact absurd trivial other
  | queueTransfer e region =>
    simp only [Op.action]
    split
    · split <;> simp
    · simp
  | serviceInterrupt line vector => simp only [Op.action]; split <;> simp
  | _ => simp [Op.action]

theorem Controller.Masked.of_masks {c c' : Controller} {op : Op} {buffers : Buffers} {guards : List Bool}
    (masked : c.Masked c') (locked : c.registers.keypid = 0) (masks : op.Masks) :
    c.Masked (c'.act buffers (op.action buffers guards)) := by
  cases op with
  | enableInterrupts => exact masked.unmask locked
  | disableInterrupts => exact masked.mask locked
  | mask => exact masked.mask locked
  | unmask guard =>
    simp only [Op.action]
    split
    · exact masked.unmask locked
    · exact masked
  | _ => exact absurd masks not_false

def Task.Masks : Task → Prop
  | call op => op.Masks
  | _ => False

instance : DecidablePred Task.Masks := fun task => by
  unfold Task.Masks
  split <;> infer_instance

namespace Task

variable {c c' : Controller}

theorem action_masked (task : Task) (masked : c.Masked c') (other : ¬ task.Masks) (buffers : Buffers)
    (guards guards' : List Bool) : task.action c' buffers guards' = task.action c buffers guards := by
  cases task with
  | call op => exact Op.action_guards other buffers guards' guards
  | dispatch => exact masked.served
  | endNotice => rfl
  | conclude => rfl

theorem answer_masked (task : Task) (masked : c.Masked c') (other : ¬ task.Masks) (buffers : Buffers)
    (guards guards' : List Bool) : task.answer? c' buffers guards' = task.answer? c buffers guards := by
  obtain ⟨slots, _⟩ := masked.others
  cases task with
  | call op =>
    cases op with
    | transferProgress e => simp only [answer?, Op.answer, Controller.progress?, slots]
    | mask => exact absurd trivial other
    | unmask => exact absurd trivial other
    | _ => rfl
  | _ => rfl

theorem resumed_masked (task : Task) (masked : c.Masked c') : task.resumed c' = task.resumed c := by
  obtain ⟨_, _, halted, _⟩ := masked.others
  cases task with
  | call op => simp only [resumed, halted]
  | dispatch => simp only [resumed, masked.verdict]
  | endNotice => rfl
  | conclude => rfl

/-- What is left of an interrupt opens and closes no section. -/
theorem filter_resumed (task : Task) (c : Controller) :
    (task.resumed c).filter (fun task => ¬ task.Masks) = task.resumed c := by
  refine List.filter_eq_self.mpr fun later member => ?_
  cases task with
  | call op =>
    cases asks : op.asks? with
    | none => simp [resumed, asks] at member
    | some asked =>
      simp only [resumed, asks, List.mem_singleton] at member
      subst member
      split <;> rfl
  | dispatch =>
    obtain rfl := List.mem_singleton.mp member
    rfl
  | endNotice => cases member
  | conclude => cases member

end Task

/-- The second has at each place the operations of the first, with others put in that open and close sections. -/
def Op.WithMasking (plans plans' : List (List Op)) : Prop :=
  ∀ n, plans.getD n [] = (plans'.getD n []).filter fun op => ¬ op.Masks

theorem Op.WithMasking.headD {plans plans' : List (List Op)} (same : Op.WithMasking plans plans') :
    plans.headD [] = (plans'.headD []).filter fun op => ¬ op.Masks := by
  simpa only [List.headD_eq_head?_getD, List.head?_eq_getElem?, List.getD_eq_getElem?_getD] using same 0

theorem Op.WithMasking.tail {plans plans' : List (List Op)} (same : Op.WithMasking plans plans') :
    Op.WithMasking plans.tail plans'.tail := by
  intro n
  simpa only [List.getD_eq_getElem?_getD, List.getElem?_tail] using same (n + 1)

structure Client.WithMasking (c c' : Client) : Prop where
  onBusReset : Op.WithMasking c.onBusReset c'.onBusReset
  onSetupReceived : Op.WithMasking c.onSetupReceived c'.onSetupReceived
  onTransferComplete : Op.WithMasking c.onTransferComplete c'.onTransferComplete

theorem Client.WithMasking.reaction {c c' : Client} (same : c.WithMasking c') (notice : Notice) :
    c.reaction notice = (c'.reaction notice).filter fun op => ¬ op.Masks := by
  cases notice with
  | busReset => exact same.onBusReset.headD
  | setupReceived => exact same.onSetupReceived.headD
  | transferComplete => exact same.onTransferComplete.headD

theorem Client.WithMasking.reacting {c c' : Client} (same : c.WithMasking c') (notice : Notice) :
    (c.reacting notice).WithMasking (c'.reacting notice) := by
  cases notice with
  | busReset => exact { same with onBusReset := same.onBusReset.tail }
  | setupReceived => exact { same with onSetupReceived := same.onSetupReceived.tail }
  | transferComplete => exact { same with onTransferComplete := same.onTransferComplete.tail }

theorem Client.replies_withMasking {clients clients' : List Client}
    (same : ∀ i, (clients.getD i {}).WithMasking (clients'.getD i {})) (told : Option (Nat × Notice)) :
    (replies clients' told).filter (fun task => ¬ task.Masks) = replies clients told := by
  cases told with
  | none => rfl
  | some told =>
    obtain ⟨i, notice⟩ := told
    have calls : (fun task : Task => decide (¬ task.Masks)) ∘ Task.call = fun op => decide (¬ op.Masks) := rfl
    simp only [replies, (same i).reaction notice, List.filter_append, List.filter_map, calls]
    rfl

/-- A mark without the look at the session that goes with it. -/
def Mark.bare : Mark → Mark
  | notice client content _ => .notice client content ⟨[], []⟩
  | answer given _ => .answer given ⟨[], []⟩
  | mark => mark

namespace Session

variable {σ : Type} [Sink σ]

/-- `s'` is set to do what `s` does, and to open and close sections in between. -/
structure WithMasking (s s' : Session σ) : Prop where
  config : s'.config = s.config
  buffers : s'.buffers = s.buffers
  clients : ∀ i, (s.clients.getD i {}).WithMasking (s'.clients.getD i {})
  todo : s.todo = s'.todo.filter fun task => ¬ task.Masks

omit [Sink σ] in
theorem WithMasking.told {s s' : Session σ} (same : s.WithMasking s') (masked : s.controller.Masked s'.controller)
    {task : Task} (other : ¬ task.Masks) : s'.told? task = s.told? task := by
  obtain ⟨_, _, _, client, _⟩ := masked.others
  have action := task.action_masked masked other s.buffers s.guards s'.guards
  simp only [told?, same.buffers, action, masked.told, client]

/-- A task that opens and closes no section is done in both sessions, and shows the same. -/
theorem WithMasking.work {s s' : Session σ} (same : s.WithMasking s')
    (masked : s.controller.Masked s'.controller) {task : Task} (other : ¬ task.Masks) :
    (s.work task).session.WithMasking (s'.work task).session ∧
      (s.work task).marks.map Mark.bare = (s'.work task).marks.map Mark.bare := by
  have told := same.told masked other
  have answered := task.answer_masked masked other s.buffers s.guards s'.guards
  rw [work_eq_outcome, work_eq_outcome]
  refine ⟨⟨same.config, congrArg task.written same.buffers, fun i => ?_, ?_⟩, ?_⟩
  · simp only [outcome, told]
    exact Client.replied_alike (fun _ _ same => same.reacting) same.clients (s.told? task) i
  · simp only [outcome, told, List.filter_append, ← same.todo, task.resumed_masked masked]
    rw [Client.replies_withMasking same.clients, task.filter_resumed]
  · simp only [outcome, List.map_append, told, same.buffers, answered]
    congr 1
    · cases s.told? task <;> rfl
    · cases task.answer? s.controller s.buffers s.guards <;> rfl

def Masks (s : Session σ) : Prop :=
  match s.todo with
  | task :: _ => task.Masks
  | [] => False

instance (s : Session σ) : Decidable s.Masks := by
  unfold Masks
  split <;> infer_instance

/-- The runs of `s` and `s'` have come to the same place, and `s'` may be inside a section. -/
structure InStep (s s' : Session σ) : Prop extends s.WithMasking s' where
  controller : s.controller.Masked s'.controller
  locked : s.controller.registers.keypid = 0

omit [Sink σ] in
theorem exists_of_masks {s : Session σ} (masks : s.Masks) : ∃ op rest, s.todo = .call op :: rest ∧ op.Masks := by
  unfold Masks at masks
  cases pending : s.todo with
  | nil => simp [pending] at masks
  | cons task rest =>
    rw [pending] at masks
    cases task with
    | call op => exact ⟨op, rest, rfl, masks⟩
    | _ => exact absurd masks not_false

/-- Opening and closing sections is no step of the run without them. -/
theorem InStep.masks {s s' : Session σ} {turn' : Turn σ} (together : s.InStep s') (stepped : s'.step = some turn')
    (masks : s'.Masks) : s.InStep turn'.session := by
  obtain ⟨same, masked, locked⟩ := together
  obtain ⟨op, rest, pending, opens⟩ := exists_of_masks masks
  have acted := step_controller stepped
  obtain rfl := Option.some.inj ((step_eq_outcome pending).symm.trans stepped)
  have asks := Op.asks_of_masks opens
  have silent := { s' with todo := rest }.told_of_plain asks
  have hidden : (Task.call op).Masks := opens
  have left := same.todo
  rw [pending, List.filter_cons_of_neg (by simpa using hidden)] at left
  refine ⟨⟨same.config, ?_, ?_, ?_⟩, ?_, locked⟩
  · cases op <;> first | exact same.buffers | exact absurd opens not_false
  · simp only [outcome, silent]
    exact same.clients
  · simp only [outcome, silent, Client.replies, Task.resumed, asks, List.nil_append]
    exact left
  · rw [acted, Session.action, pending]
    exact masked.of_masks locked opens

omit [Sink σ] in
theorem action_ne_mask {s : Session σ} (other : ¬ s.Masks) : s.action ≠ .mask ∧ s.action ≠ .unmask := by
  unfold Masks at other
  unfold action
  cases pending : s.todo with
  | nil => simp
  | cons task rest =>
    rw [pending] at other
    cases task with
    | call op => exact Op.action_ne_mask other s.buffers s.guards
    | dispatch =>
      simp only [Controller.served]
      split <;> simp
    | endNotice => simp
    | conclude => simp

omit [Sink σ] in
/-- Where no section is opened or closed, both runs have the same to do next. -/
theorem InStep.action {s s' : Session σ} (together : s.InStep s') (other : ¬ s'.Masks) : s.action = s'.action := by
  obtain ⟨same, masked, _⟩ := together
  have todo := same.todo
  cases pending : s'.todo with
  | nil =>
    rw [pending] at todo
    simp only [Session.action, pending, todo, List.filter_nil]
  | cons task rest =>
    have kept : ¬ task.Masks := by simpa only [Masks, pending] using other
    rw [pending, List.filter_cons_of_pos (by simpa using kept)] at todo
    rw [action_of_todo pending, action_of_todo todo, same.buffers]
    exact (task.action_masked masked kept s.buffers s.guards s'.guards).symm

/-- Any other step is made in both runs, and shows the same. -/
theorem InStep.step {s s' : Session σ} {turn' : Turn σ} (together : s.InStep s') (stepped : s'.step = some turn')
    (other : ¬ s'.Masks) (sets : s'.action.SetsEnables → s'.controller.masking.depth = 0)
    (pokes : ¬ s'.Pokes .keypid) :
    ∃ turn, s.step = some turn ∧ turn.session.InStep turn'.session ∧
      turn.marks.map Mark.bare = turn'.marks.map Mark.bare := by
  have action := together.action other
  have neither := action_ne_mask other
  obtain ⟨same, masked, locked⟩ := together
  have acted' := step_controller stepped
  obtain ⟨task, rest, pending, rfl⟩ := todo_of_step stepped
  have kept : ¬ task.Masks := by simpa only [Masks, pending] using other
  have todo : s.todo = task :: rest.filter fun task => ¬ task.Masks := by
    rw [same.todo, pending, List.filter_cons_of_pos (by simpa using kept)]
  have step : s.step = some ({ s with todo := rest.filter fun task => ¬ task.Masks }.work task) := step_of_todo todo
  have popped : { s with todo := rest.filter fun task => ¬ task.Masks }.WithMasking { s' with todo := rest } :=
    ⟨same.config, same.buffers, same.clients, rfl⟩
  obtain ⟨left, shown⟩ := popped.work masked kept
  refine ⟨_, step, ⟨left, ?_, ?_⟩, shown⟩
  · rw [acted', step_controller step, action, same.buffers]
    exact masked.act neither sets
  · rw [step_controller step, action]
    exact Controller.act_keypid locked pokes

/-- Whatever sections are opened and closed in a run, the run without them gets to the same place and shows the
same. -/
theorem InStep.reach {s s' t' : Session σ} {past' : List (Session σ)} (together : s.InStep s')
    (reach : s'.Reach past' t')
    (sets : ∀ p ∈ past', p.action.SetsEnables → p.controller.masking.depth = 0)
    (pokes : ∀ p ∈ past', ¬ p.Pokes .keypid) :
    ∃ past t, s.Reach past t ∧ t.InStep t' ∧
      past.flatMap (fun p => p.marks.map Mark.bare)
        = (past'.filter fun p => ¬ p.Masks).flatMap fun p => p.marks.map Mark.bare := by
  induction reach with
  | start => exact ⟨[], s, .start, together, rfl⟩
  | @next before last turn' previous stepped ih =>
    obtain ⟨past, t, reach, near, shown⟩ := ih (fun p member => sets p (List.mem_append_left _ member))
      fun p member => pokes p (List.mem_append_left _ member)
    rw [List.filter_append, List.flatMap_append]
    -- A step on a section is none of the run without sections, which stays where it is.
    by_cases masks : last.Masks
    · refine ⟨past, t, reach, near.masks stepped masks, ?_⟩
      rw [List.filter_cons_of_neg (by simpa using masks)]
      simpa using shown
    · obtain ⟨turn, step, nearby, same⟩ :=
        near.step stepped masks (sets last (by simp)) (pokes last (by simp))
      refine ⟨past ++ [t], turn.session, reach.next step, nearby, ?_⟩
      rw [List.filter_cons_of_pos (by simpa using masks), List.flatMap_append, shown]
      simp only [List.filter_nil, List.flatMap_singleton, marks, step, stepped, same]

/-- Sections that are closed when enables are set, and at the end, leave no trace in what a run leaves and shows. -/
theorem masked_sections_transparent {s s' : Session σ} (same : s.WithMasking s') (start : s'.controller = s.controller)
    (outside : s'.controller.masking.depth = 0) (locked : s'.controller.registers.keypid = 0)
    (closed : s'.run.session.controller.masking.depth = 0)
    (sets : ∀ p ∈ s'.history, p.action.SetsEnables → p.controller.masking.depth = 0)
    (pokes : ∀ p ∈ s'.history, ¬ p.Pokes .keypid) :
    (s'.run.session.controller.registers = s.run.session.controller.registers ∧
        s'.run.session.controller.slots = s.run.session.controller.slots ∧
        s'.run.session.controller.setupPacket = s.run.session.controller.setupPacket ∧
        s'.run.session.controller.halted = s.run.session.controller.halted ∧
        s'.run.session.controller.client = s.run.session.controller.client) ∧
      s.run.marks.map Mark.bare = (s'.history.filter fun p => ¬ p.Masks).flatMap (fun p => p.marks.map Mark.bare) ∧
      ∀ p ∈ s'.history, p.controller.masking.depth ≠ 0 →
        p.controller.registers.oepie = 0 ∧ p.controller.registers.iepie = 0 ∧ p.controller.registers.ie = 0 ∧
          p.controller.registers.pwrctl &&& PowerControl.enables = 0 := by
  have masked : s.controller.Masked s'.controller := by
    rw [start] at outside ⊢
    exact .outside s.controller.masking outside
  have together : s.InStep s' := { same with controller := masked, locked := start ▸ locked }
  obtain ⟨past, t, reach, ⟨left, near, _⟩, shown⟩ := together.reach s'.reach_run sets pokes
  have done : t.todo = [] := by rw [left.todo, todo_run, List.filter_nil]
  obtain ⟨rfl, rfl⟩ := reach.finished done
  obtain ⟨slots, setupPacket, halted, client, _⟩ := near.others
  refine ⟨⟨near.registers.1 closed, slots, setupPacket, halted, client⟩, ?_, ?_⟩
  · rw [← shown, (run_eq_after s _ (Nat.le_refl _)).2, List.map_flatMap]
    rfl
  · intro p member opened
    obtain ⟨before, later, split⟩ := List.append_of_mem member
    have reach := s'.reach_run
    rw [split] at reach sets pokes
    obtain ⟨_, first, _, _⟩ := reach.at_point
    obtain ⟨_, _, _, ⟨_, near, _⟩, _⟩ := together.reach first
      (fun q earlier => sets q (List.mem_append_left _ earlier))
      fun q earlier => pokes q (List.mem_append_left _ earlier)
    rw [near.registers.2 opened]
    exact ⟨rfl, rfl, rfl, Registers.masked_pwrctl _⟩

/-- A section opened twice around a packet, one in the client's answer, and one closed that nobody has opened. -/
theorem masked_sections_transparent_nested :
    let plain : Session MeteredSink :=
      Session.plan
        { output := { sink := {} }, buffers := [[1, 2, 3]], clients := [{ onTransferComplete := [[.debugState]] }] }
        [.setClient 0, .bringUp, .handleInterrupt (some 0x16), .queueTransfer (.address 0x80) (some { buffer := 0 }),
          .handleInterrupt (some 0x12), .handleInterrupt (some 0x12)]
    let sections : Session MeteredSink :=
      Session.plan
        { output := { sink := {} }, buffers := [[1, 2, 3]]
          clients := [{ onTransferComplete := [[.disableInterrupts, .debugState, .enableInterrupts]] }] }
        [.setClient 0, .bringUp, .handleInterrupt (some 0x16), .mask,
          .queueTransfer (.address 0x80) (some { buffer := 0 }), .disableInterrupts, .handleInterrupt (some 0x12),
          .unmask 0, .enableInterrupts, .handleInterrupt (some 0x12), .enableInterrupts]
    sections.run.session.controller.registers = plain.run.session.controller.registers ∧
      ∃ p ∈ sections.history, p.controller.masking.depth = 2 ∧ p.controller.registers.ie = 0 := by
  intro plain sections
  have answers : Client.WithMasking { onTransferComplete := [[.debugState]] }
      { onTransferComplete := [[.disableInterrupts, .debugState, .enableInterrupts]] } := by
    refine ⟨fun n => rfl, fun n => rfl, fun n => ?_⟩
    rcases n with _ | n <;> rfl
  have same : plain.WithMasking sections := by
    refine ⟨rfl, rfl, fun i => ?_, rfl⟩
    rcases i with _ | i
    · exact answers
    · exact ⟨fun n => rfl, fun n => rfl, fun n => rfl⟩
  have closed : sections.run.session.controller.masking.depth = 0 := by
    rw [(run_eq_after sections _ (Nat.le_refl _)).1]
    decide +kernel
  have sets : ∀ p ∈ sections.history, p.action.SetsEnables → p.controller.masking.depth = 0 := by decide +kernel
  have pokes : ∀ p ∈ sections.history, ¬ p.Pokes .keypid := by decide +kernel
  obtain ⟨⟨registers, _⟩, _, inside⟩ := masked_sections_transparent same rfl rfl rfl closed sets pokes
  have nested : ∃ p ∈ sections.history, p.controller.masking.depth = 2 := by decide +kernel
  obtain ⟨p, member, depth⟩ := nested
  exact ⟨registers, p, member, depth, (inside p member (by rw [depth]; decide)).2.2.1⟩

end Session

end UsbDevice
