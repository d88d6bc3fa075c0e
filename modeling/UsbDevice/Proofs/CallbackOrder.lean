import UsbDevice.Proofs.HaltLatch
import UsbDevice.Proofs.StepOutcome

namespace UsbDevice

/-- The source that the vector names is one of which the client is told: a bus reset, or the last packet of a
transfer. -/
inductive Controller.Reports (c : Controller) : Notice → Prop
  | reset (source : Source.ofCode? c.registers.vecint = some .reset) : c.Reports .busReset
  | complete {bytes : Nat} (source : Source.ofCode? c.registers.vecint = some .inputEndpoint0)
      (last : (c.slots.get .controlIn).next.step = .complete bytes) :
      c.Reports (.transferComplete .controlIn bytes .success)

theorem Controller.Reports.told {c : Controller} {notice : Notice} (reports : c.Reports notice) :
    c.told? c.served = some notice ∧ c.verdict = .ok () := by
  cases reports with
  | reset source => simp only [served, verdict, source, told?, and_self]
  | complete source last => simp only [served, verdict, source, told?, last, and_self]

/-- One turn after the other. -/
def Turn.andThen {σ : Type} (turn : Turn σ) (next : Session σ → Turn σ) : Turn σ where
  session := (next turn.session).session
  marks := turn.marks ++ (next turn.session).marks

theorem Turn.andThen_run {σ : Type} {turn next : Turn σ} {f g : Session σ → Turn σ}
    (same : f turn.session = next.andThen g) :
    turn.andThen f = { next with marks := turn.marks ++ next.marks }.andThen g := by
  simp only [andThen, same, List.append_assoc]

namespace Session

variable {σ : Type} [Sink σ]

/-- Makes `ops` from here, one after the other. -/
def runs (s : Session σ) (ops : List Op) : Turn σ := (s.plan ops).run

theorem run_of_nil {s : Session σ} (done : s.todo = []) : s.run = { session := s } := by
  have stopped := (step_eq_none_iff s).mpr done
  unfold run
  split
  · rfl
  · next turn stepped => cases stopped.symm.trans stepped

theorem runs_nil (s : Session σ) : s.runs [] = { session := s.plan [] } := run_of_nil rfl

theorem run_of_step {s : Session σ} {turn : Turn σ} (stepped : s.step = some turn) : s.run = turn.andThen run := by
  rw [run]
  split
  · next stopped => cases stepped.symm.trans stopped
  · next other stepped' =>
    obtain rfl := Option.some.inj (stepped.symm.trans stepped')
    rfl

theorem run_of_task (s : Session σ) (task : Task) (todo : List Task) :
    { s with todo := task :: todo }.run = ({ s with todo }.outcome task).andThen run :=
  run_of_step (step_eq_outcome rfl)

/-- A step does not look at what is left to do after it. -/
theorem step_append {s : Session σ} {turn : Turn σ} (stepped : s.step = some turn) (rest : List Task) :
    { s with todo := s.todo ++ rest }.step
      = some { turn with session := { turn.session with todo := turn.session.todo ++ rest } } := by
  obtain ⟨task, todo, pending, rfl⟩ := outcome_of_step stepped
  have longer : s.todo ++ rest = task :: (todo ++ rest) := by rw [pending, List.cons_append]
  rw [step_eq_outcome (s := { s with todo := s.todo ++ rest }) longer]
  simp only [outcome, List.append_assoc]
  rfl

theorem run_append (s : Session σ) (rest : List Task) :
    { s with todo := s.todo ++ rest }.run = s.run.andThen fun t => { t with todo := rest }.run := by
  fun_induction run s with
  | case1 s stopped =>
    rw [(step_eq_none_iff s).mp stopped]
    rfl
  | case2 s turn stepped later ih =>
    rw [run_of_step (step_append stepped rest)]
    simp only [Turn.andThen, ih, List.append_assoc, later]

theorem runs_append (s : Session σ) (first rest : List Op) :
    s.runs (first ++ rest) = (s.runs first).andThen fun t => t.runs rest := by
  have tasks := (s.plan first).run_append (rest.map .call)
  simp only [runs, plan, List.map_append] at tasks ⊢
  exact tasks

theorem run_of_split {s : Session σ} {first rest : List Task} (split : s.todo = first ++ rest) :
    s.run = { s with todo := first }.run.andThen fun t => { t with todo := rest }.run := by
  have whole := { s with todo := first }.run_append rest
  rwa [← split] at whole

/-! An operation ends with a look at the session. -/

theorem settled_of_conclude {s : Session σ} {first : List Task} {caller : Caller} {result : Except Fault Unit}
    (ends : s.todo = first ++ [.conclude caller result]) : s.run.session.Settled := by
  simp only [run_of_split ends, Turn.andThen, run_of_task]
  rw [run_of_nil (by rfl)]
  exact ⟨rfl, rfl⟩

theorem settled_of_dispatch {s : Session σ} {first : List Task} {caller : Caller}
    (ends : s.todo = first ++ [.dispatch caller]) : s.run.session.Settled := by
  simp only [run_of_split ends, Turn.andThen, run_of_task]
  exact settled_of_conclude rfl

/-- An operation that does not ask for the interrupt is one step. -/
theorem runs_of_plain (s : Session σ) {op : Op} (plain : op.asks? = none) :
    s.runs [op] = { s with todo := [] }.outcome (.call op) := by
  have silent := { s with todo := [] }.told_of_plain plain
  have done : ({ s with todo := [] }.outcome (.call op)).session.todo = [] := by
    simp [outcome, silent, Client.replies, Task.resumed, plain]
  have begun : s.runs [op] = ({ s with todo := [] }.outcome (.call op)).andThen run := s.run_of_task (.call op) []
  rw [begun]
  simp only [Turn.andThen, run_of_nil done, List.append_nil]

theorem settled_of_call (s : Session σ) (op : Op) : (s.runs [op]).session.Settled := by
  cases asks : op.asks? with
  | none =>
    rw [runs_of_plain s asks]
    exact settled_of_looks (by simp [looks, Task.answer?, asks])
  | some asked =>
    obtain ⟨caller, vector⟩ := asked
    let begun := ({ s with todo := [] }.outcome (.call op)).session
    have whole : s.runs [op] = ({ s with todo := [] }.outcome (.call op)).andThen run := s.run_of_task (.call op) []
    have todo : begun.todo = Client.replies s.clients ({ s with todo := [] }.told? (.call op)) ++
        [if s.controller.halted then .conclude caller (.error .halted) else .dispatch caller] := by
      simp only [begun, outcome, Task.resumed, asks, List.append_nil]
    rw [whole]
    split at todo
    · exact settled_of_conclude (s := begun) todo
    · exact settled_of_dispatch (s := begun) todo

theorem Settled.runs {s : Session σ} (settled : s.Settled) (ops : List Op) : (s.runs ops).session.Settled := by
  rcases List.eq_nil_or_concat ops with rfl | ⟨first, last, rfl⟩
  · rw [runs_nil]
    exact settled
  · rw [List.concat_eq_append, runs_append]
    exact settled_of_call _ last

/-- After the callback of an interrupt that has been served nothing is done, and nothing is left to be seen. -/
theorem run_after_callback {s : Session σ} (settled : s.Settled) (done : s.todo = []) (caller : Caller) :
    { s with todo := [.endNotice, .conclude caller (.ok ())] }.run =
      { session := s, marks := [.endNotice, .answer (caller.answer (.ok ())) ⟨[], []⟩] } := by
  have same : { s with todo := [] } = s := by rw [← done]
  have silent : s.say (caller.report s.config s.controller (.ok ())) = s := by cases caller <;> rfl
  have closing : s.closing = ⟨[], []⟩ := by
    simp only [Session.closing, settled.1, settled.2, Controller.changes_self]
  have looked : s.looked = s := by
    have shown : s.looked = { s with shown := s.controller } := by simp only [Session.looked, settled.emptied]
    exact shown.trans (congrArg (fun shown => { s with shown }) settled.2.symm)
  have ending : { s with todo := [.endNotice, .conclude caller (.ok ())] }.run =
      Turn.andThen { session := { s with todo := [.conclude caller (.ok ())] }, marks := [.endNotice] } run :=
    run_of_step ((step_of_todo rfl).trans rfl)
  have concluding : { s with todo := [.conclude caller (.ok ())] }.run =
      Turn.andThen { session := s, marks := [.answer (caller.answer (.ok ())) ⟨[], []⟩] } run := by
    refine run_of_step ((step_of_todo rfl).trans ?_)
    simp only [same, work, silent, answer, closing, looked]
  simp only [ending, Turn.andThen, concluding, run_of_nil done, List.append_nil, List.singleton_append]

/-! A call with a client that is going to answer. -/

/-- The client answers the next notice of this kind with `ops`. -/
def replying (s : Session σ) (client : Nat) (notice : Notice) (ops : List Op) : Session σ :=
  { s with clients := s.clients.set client ((s.clients.getD client {}).expecting ops notice) }

omit [Sink σ] in
theorem replies_replying {s : Session σ} {client : Nat} (registered : client < s.clients.length) (notice : Notice)
    (ops : List Op) :
    Client.replies (s.replying client notice ops).clients (some (client, notice)) = ops.map .call ++ [.endNotice] ∧
      Client.replied (s.replying client notice ops).clients (some (client, notice)) = s.clients := by
  have first : (s.replying client notice ops).clients.getD client {}
      = (s.clients.getD client {}).expecting ops notice := by
    rw [replying, Client.getD_set _ (fun outside => absurd registered (Nat.not_lt.mpr outside)), if_pos rfl]
  constructor
  · simp only [Client.replies, first, Client.reaction_expecting]
  · simp only [Client.replied, first, Client.reacting_expecting]
    rw [replying, List.set_set, set_getD_client s.clients registered]

/-- The vector is written. -/
def withVector (s : Session σ) (vector : Option Word) : Session σ :=
  { s with controller := s.controller.raise vector }

/-- The source that the vector names is served, which nobody has seen yet. -/
def serving (s : Session σ) (vector : Option Word) : Session σ :=
  (s.withVector vector).adopt ((s.controller.raise vector).dispatch s.config s.buffers)

/-- The SETUP packet is stored, which nobody has seen yet. -/
def capturing (s : Session σ) (vector : Option Word) : Session σ :=
  (s.withVector vector).adopt ((s.controller.raise vector).captureSetup s.config)

/-- The interrupt begins, and the client is told of the SETUP packet before the vector is read. -/
theorem step_of_asks {s : Session σ} {op : Op} {caller : Caller} {vector : Option Word}
    (asks : op.asks? = some (caller, vector)) (running : s.controller.halted = false) :
    let captured := (s.controller.raise vector).captureSetup s.config
    let begun := { s.capturing vector with todo := [.dispatch caller] }.notify captured.answer
    (s.plan [op]).step = some { begun with marks := .call op :: begun.marks } := by
  have halted : (s.controller.raise vector).halted = false := by cases vector <;> exact running
  refine (step_of_todo rfl).trans ?_
  simp only [work, call_of_asks _ asks, raise_eq, interrupt, plan, halted, Bool.false_eq_true, if_false]
  rfl

/-- The source is served, and the client is told of it before the interrupt returns. -/
theorem step_of_served {s : Session σ} (served : s.controller.verdict = .ok ()) (caller : Caller) :
    { s with todo := [.dispatch caller] }.step = some
      ({ s.serving none with todo := [.conclude caller (.ok ())] }.notify (s.controller.told? s.controller.served)) := by
  have answered := s.controller.dispatch_verdict s.config s.buffers
  rw [served] at answered
  refine (step_of_todo rfl).trans ?_
  simp only [work, dispatch, answered, Except.map]
  rfl

theorem run_of_clear {s : Session σ} {op : Op} {caller : Caller} {vector : Option Word}
    (asks : op.asks? = some (caller, vector)) (running : s.controller.halted = false)
    (clear : ¬ BusFlag.setup.IsSet s.controller.registers.ifg) :
    s.runs [op] = Turn.andThen
      { session := { s.withVector vector with todo := [.dispatch caller] }, marks := [.call op] } run := by
  have still : ¬ BusFlag.setup.IsSet (s.controller.raise vector).registers.ifg := by cases vector <;> exact clear
  refine run_of_step ((step_of_asks asks running).trans ?_)
  simp only [capturing, Controller.captureSetup, still, if_false, notify]
  rfl

theorem run_of_setup {s : Session σ} {op : Op} {caller : Caller} {vector : Option Word} {client : Nat} {setup : Packet}
    (asks : op.asks? = some (caller, vector)) (running : s.controller.halted = false)
    (set : s.controller.client = some client) (pending : BusFlag.setup.IsSet s.controller.registers.ifg)
    (packet : s.controller.registers.sublk = setup) :
    s.runs [op] = Turn.andThen
      { session :=
          { (s.capturing vector).looked with
            clients := Client.replied s.clients (some (client, .setupReceived setup))
            todo := Client.replies s.clients (some (client, .setupReceived setup)) ++ [.dispatch caller] }
        marks := [.call op, .notice client (.setupReceived setup) (s.capturing vector).closing] }
      run := by
  have waiting : BusFlag.setup.IsSet (s.controller.raise vector).registers.ifg := by cases vector <;> exact pending
  have stored : (s.controller.raise vector).registers.sublk = setup := by cases vector <;> exact packet
  have client : (s.controller.raise vector).client = some client := by cases vector <;> exact set
  refine run_of_step ((step_of_asks asks running).trans ?_)
  simp only [capturing, Controller.captureSetup, waiting, if_true, stored, adopt, say, withVector, notify, client,
    Client.replied, Client.replies, List.append_assoc]
  rfl

theorem run_of_reports {s : Session σ} {notice : Notice} {client : Nat} (vector : Option Word)
    (set : s.controller.client = some client) (reports : (s.controller.raise vector).Reports notice) (caller : Caller) :
    { s.withVector vector with todo := [.dispatch caller] }.run = Turn.andThen
      { session :=
          { (s.serving vector).looked with
            clients := Client.replied s.clients (some (client, notice))
            todo := Client.replies s.clients (some (client, notice)) ++ [.conclude caller (.ok ())] }
        marks := [.notice client notice (s.serving vector).closing] }
      run := by
  obtain ⟨told, served⟩ := reports.told
  have client : (s.serving vector).controller.client = some client := by
    rw [serving, adopt, say, Controller.dispatch_client]
    cases vector <;> exact set
  have stepped : { s.withVector vector with todo := [.dispatch caller] }.step = some
      ({ s.serving vector with todo := [.conclude caller (.ok ())] }.notify
        ((s.controller.raise vector).told? (s.controller.raise vector).served)) :=
    step_of_served (s := s.withVector vector) served caller
  rw [told] at stepped
  refine run_of_step (stepped.trans ?_)
  simp only [notify, client, Client.replied, Client.replies, List.append_assoc]
  rfl

/-- The callback, and then the rest of the interrupt. -/
theorem run_callback (s : Session σ) (ops : List Op) (rest : List Task) :
    { s with todo := ops.map Task.call ++ rest }.run = (s.runs ops).andThen fun t => { t with todo := rest }.run :=
  (s.plan ops).run_append rest

/-- The callback is the last thing that is done: what it does is done as if it were done after the interrupt. -/
theorem runs_of_reports {s : Session σ} {op : Op} {caller : Caller} {vector : Option Word} {client : Nat}
    {notice : Notice} (asks : op.asks? = some (caller, vector)) (running : s.controller.halted = false)
    (set : s.controller.client = some client) (registered : client < s.clients.length)
    (clear : ¬ BusFlag.setup.IsSet s.controller.registers.ifg) (reports : (s.controller.raise vector).Reports notice)
    (ops : List Op) :
    let after := (s.serving vector).looked.runs ops
    (s.replying client notice ops).runs [op] =
      { session := after.session
        marks := [.call op, .notice client notice (s.serving vector).closing] ++ after.marks
          ++ [.endNotice, .answer (caller.answer (.ok ())) ⟨[], []⟩] } := by
  intro after
  let rest : List Task := [.endNotice, .conclude caller (.ok ())]
  let told : Turn σ :=
    { session := { (s.serving vector).looked with todo := ops.map .call ++ rest }
      marks := [.call op, .notice client notice (s.serving vector).closing] }
  have tells : (s.replying client notice ops).runs [op] = told.andThen run := by
    obtain ⟨replies, replied⟩ := replies_replying (s := s) registered notice ops
    have begun := run_of_clear (s := s.replying client notice ops) asks running clear
    have reported := run_of_reports (s := s.replying client notice ops) vector set reports caller
    rw [replies, replied, List.append_assoc] at reported
    rw [begun, Turn.andThen_run reported]
    rfl
  have settled : after.session.Settled := Settled.runs ⟨rfl, rfl⟩ ops
  have ended := run_after_callback settled (todo_run _) caller
  rw [tells, Turn.andThen_run (run_callback (s.serving vector).looked ops rest)]
  simp only [Turn.andThen, told, rest, after] at ended ⊢
  rw [ended]

/-- The vector is read only after the callback, and so is the client that is told of what it names. -/
theorem runs_of_setup {s : Session σ} {op : Op} {caller : Caller} {vector : Option Word} {client : Nat} {setup : Packet}
    (asks : op.asks? = some (caller, vector)) (running : s.controller.halted = false)
    (set : s.controller.client = some client) (registered : client < s.clients.length)
    (pending : BusFlag.setup.IsSet s.controller.registers.ifg) (packet : s.controller.registers.sublk = setup)
    (ops : List Op) :
    let answered := (s.capturing vector).looked.runs ops
    let dispatched := { answered.session with todo := [.dispatch caller] }.run
    (s.replying client (.setupReceived setup) ops).runs [op] =
      { session := dispatched.session
        marks := [.call op, .notice client (.setupReceived setup) (s.capturing vector).closing] ++ answered.marks
          ++ .endNotice :: dispatched.marks } := by
  intro answered dispatched
  let rest : List Task := [.endNotice, .dispatch caller]
  let told : Turn σ :=
    { session := { (s.capturing vector).looked with todo := ops.map .call ++ rest }
      marks := [.call op, .notice client (.setupReceived setup) (s.capturing vector).closing] }
  have tells : (s.replying client (.setupReceived setup) ops).runs [op] = told.andThen run := by
    obtain ⟨replies, replied⟩ := replies_replying (s := s) registered (.setupReceived setup) ops
    have begun := run_of_setup (s := s.replying client (.setupReceived setup) ops) asks running set pending packet
    rw [replies, replied, List.append_assoc] at begun
    rw [begun]
    rfl
  have ended : { answered.session with todo := rest }.run =
      Turn.andThen { session := { answered.session with todo := [.dispatch caller] }, marks := [.endNotice] } run :=
    run_of_step ((step_of_todo rfl).trans rfl)
  rw [tells, Turn.andThen_run (run_callback (s.capturing vector).looked ops rest)]
  simp only [Turn.andThen, told, rest, answered, List.singleton_append] at ended ⊢
  rw [ended]

/-- The last of the operations queues a transfer, whose slot is armed afterwards. -/
theorem armed_of_queued (s : Session σ) (first : List Op) {e : EndpointRef} {endpoint : Endpoint} {id : SlotId}
    (region : Option Region) (resolved : e.resolve = .ok endpoint) (found : SlotId.ofEndpoint? endpoint = some id) :
    ((s.runs (first ++ [.queueTransfer e region])).session.controller.slots.get id).state = .armed := by
  let before := (s.runs first).session
  have acts : (Op.queueTransfer e region).action before.buffers before.guards
      = .lend id (before.buffers.slice region) := by
    simp only [Op.action, resolved, found]
  rw [runs_append]
  simp only [Turn.andThen]
  rw [runs_of_plain before rfl]
  simp only [outcome, Task.action, acts, Controller.act, Controller.lend, Slots.modify, Slots.get_set_self]
  rfl

/-- An interrupt with a callback is done as its parts are done one after the other. Without a SETUP packet the callback
comes last: all is as if its operations were made after the interrupt. With one it comes first, and what the vector
names is read and told as things stand after it. -/
theorem callbacks_linearise (s : Session σ) (op : Op) {caller : Caller} {vector : Option Word} {client : Nat}
    (asks : op.asks? = some (caller, vector)) (running : s.controller.halted = false)
    (set : s.controller.client = some client) (registered : client < s.clients.length) (ops : List Op) :
    (¬ BusFlag.setup.IsSet s.controller.registers.ifg → ∀ notice, (s.controller.raise vector).Reports notice →
      let quiet := (s.replying client notice []).runs [op]
      let after := quiet.session.runs ops
      let whole := (s.replying client notice ops).runs [op]
      let ending : List Mark := [.endNotice, .answer (caller.answer (.ok ())) ⟨[], []⟩]
      whole.session = after.session ∧
        (∃ look, quiet.marks = [.call op, .notice client notice look] ++ ending ∧
          whole.marks = [.call op, .notice client notice look] ++ after.marks ++ ending) ∧
        ∀ first e endpoint region id, ops = first ++ [.queueTransfer e region] → e.resolve = .ok endpoint →
          SlotId.ofEndpoint? endpoint = some id → (whole.session.controller.slots.get id).state = .armed) ∧
    (BusFlag.setup.IsSet s.controller.registers.ifg →
      let setup := s.controller.registers.sublk
      let told := (s.capturing vector).looked
      let answered := told.runs ops
      let rest := { answered.session with todo := [.dispatch caller] }
      let whole := (s.replying client (.setupReceived setup) ops).runs [op]
      told.controller = { s.controller.raise vector with setupPacket := setup } ∧
        whole.session = rest.run.session ∧
        (∃ look, whole.marks =
          [.call op, .notice client (.setupReceived setup) look] ++ answered.marks ++ .endNotice :: rest.run.marks) ∧
        rest.action = answered.session.controller.served ∧
        ∀ notice, answered.session.controller.Reports notice →
          rest.notices = (answered.session.controller.client.map fun client => (client, notice)).toList) := by
  constructor
  · intro clear notice reports quiet after whole ending
    have quietly : quiet = _ := runs_of_reports asks running set registered clear reports []
    have same : after = (s.serving vector).looked.runs ops := by
      simp only [after, quietly, runs_nil]
      rfl
    have parts : whole = _ := runs_of_reports asks running set registered clear reports ops
    rw [← same] at parts
    refine ⟨by rw [parts], ⟨(s.serving vector).closing, ?_, by rw [parts]⟩, ?_⟩
    · rw [quietly, runs_nil]
      rfl
    · rintro first e endpoint region id rfl resolved found
      rw [parts]
      exact armed_of_queued quiet.session first region resolved found
  · intro pending setup told answered rest whole
    have stored : told.controller = { s.controller.raise vector with setupPacket := setup } := by
      have waiting : BusFlag.setup.IsSet (s.controller.raise vector).registers.ifg := by
        cases vector <;> exact pending
      have packet : (s.controller.raise vector).registers.sublk = setup := by cases vector <;> rfl
      simp only [told, capturing, looked, adopt, say, Controller.captureSetup, waiting, if_true, packet]
    have parts : whole = _ := runs_of_setup asks running set registered pending rfl ops
    refine ⟨stored, by rw [parts], ⟨(s.capturing vector).closing, by rw [parts]⟩, rfl, fun notice reports => ?_⟩
    have acts : rest.action = answered.session.controller.served := rfl
    have told : answered.session.controller.told? answered.session.controller.served = some notice := reports.told.1
    rw [notices_eq, acts]
    exact congrArg (fun told => (Option.bind told _).toList) told

/-- At a bus reset the client acknowledges an address. At a SETUP packet the vector is overwritten. -/
theorem callbacks_linearise_of_reset :
    let s : Session MeteredSink := { controller := { client := some 0 }, output := { sink := {} }, clients := [{}] }
    let reset := s.replying 0 .busReset [.setDeviceAddress 5, .queueTransfer (.address 0x80) none]
    let waiting : Session MeteredSink := { s with controller := { client := some 0, registers := { ifg := 0x40 } } }
    let answered := (waiting.capturing (some 0x20)).looked.runs [.pokeRegister .vecint [0x16, 0]]
    ((reset.runs [.handleInterrupt (some 0x16)]).session.controller.slots.get .controlIn).state = .armed ∧
      ((waiting.replying 0 (.setupReceived .zero) [.pokeRegister .vecint [0x16, 0]]).runs
          [.handleInterrupt (some 0x20)]).session
        = { answered.session with todo := [.dispatch .driver] }.run.session ∧
      { answered.session with todo := [.dispatch .driver] }.notices = [(0, .busReset)] := by
  intro s reset waiting answered
  have clear : ¬ BusFlag.setup.IsSet s.controller.registers.ifg := by decide
  have pending : BusFlag.setup.IsSet waiting.controller.registers.ifg := by decide
  have reports : (s.controller.raise (some 0x16)).Reports .busReset := .reset (by decide)
  have answers : answered = _ := runs_of_plain _ rfl
  have overwritten : answered.session.controller.Reports .busReset := .reset (by rw [answers]; decide +kernel)
  have client : answered.session.controller.client = some 0 := by rw [answers]; decide +kernel
  obtain ⟨quiet, _⟩ := callbacks_linearise s (.handleInterrupt (some 0x16)) rfl rfl rfl (by decide)
    [.setDeviceAddress 5, .queueTransfer (.address 0x80) none]
  obtain ⟨_, _, armed⟩ := quiet clear .busReset reports
  obtain ⟨_, setup⟩ := callbacks_linearise waiting (.handleInterrupt (some 0x20)) rfl rfl rfl (by decide)
    [.pokeRegister .vecint [0x16, 0]]
  obtain ⟨_, session, _, _, told⟩ := setup pending
  refine ⟨armed [.setDeviceAddress 5] _ _ _ _ rfl rfl rfl, session, ?_⟩
  have notices := told .busReset overwritten
  rwa [client] at notices

end Session

end UsbDevice
