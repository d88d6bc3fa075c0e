import UsbDevice.Debug.MeteredSink
import UsbDevice.Proofs.CallbackOrder
import UsbDevice.Proofs.EnabledSources
import UsbDevice.Proofs.VectorCodes

namespace UsbDevice

namespace Controller

variable {c : Controller}

/-- A source of the module is served or unexpected. -/
theorem verdict_of_code {source : Source} (proper : source.Proper) (coded : source.code? = some c.registers.vecint) :
    c.verdict = if source ∈ Source.served then .ok () else .error (.unexpectedVector source) := by
  have read := Source.ofCode?_eq_some_iff.mpr ⟨proper, coded⟩
  simp only [verdict, read]
  cases source <;> rfl

theorem verdict_of_no_code (invalid : ∀ source : Source, source.Proper → source.code? ≠ some c.registers.vecint) :
    c.verdict = .error (.invalidVector c.registers.vecint) := by
  have read : Source.ofCode? c.registers.vecint = none := Option.eq_none_iff_forall_ne_some.mpr fun source read => by
    obtain ⟨proper, coded⟩ := Source.ofCode?_eq_some_iff.mp read
    exact invalid source proper coded
  simp only [verdict, read]

theorem verdict_eq_ok_iff : c.verdict = .ok () ↔ ∃ source ∈ Source.served, source.code? = some c.registers.vecint := by
  constructor
  · intro served
    by_cases coded : ∃ source : Source, source.Proper ∧ source.code? = some c.registers.vecint
    · obtain ⟨source, proper, coded⟩ := coded
      rw [verdict_of_code proper coded] at served
      split at served
      · next member => exact ⟨source, member, coded⟩
      · cases served
    · rw [verdict_of_no_code fun source proper found => coded ⟨source, proper, found⟩] at served
      cases served
  · rintro ⟨source, member, coded⟩
    exact verdict_of_served member coded

/-- A fault stops the driver and does nothing else. -/
theorem dispatch_of_error {fault : Fault} (failed : c.verdict = .error fault) (config : Config) (buffers : Buffers) :
    c.dispatch config buffers = c.halt fault := by
  unfold verdict at failed
  unfold dispatch
  cases read : Source.ofCode? c.registers.vecint with
  | none =>
    rw [read] at failed
    exact congrArg c.halt (Except.error.inj failed)
  | some source =>
    rw [read] at failed
    cases source <;> cases failed <;> rfl

end Controller

/-- The last thing that shows is this answer. -/
def Turn.Ends {σ : Type} (turn : Turn σ) (answer : Answer) : Prop :=
  ∃ shown look, turn.marks = shown ++ [.answer answer look]

theorem Turn.Ends.unique {σ : Type} {turn : Turn σ} {answer other : Answer} (ends : turn.Ends answer)
    (ends' : turn.Ends other) : answer = other := by
  obtain ⟨shown, look, marks⟩ := ends
  obtain ⟨shown', look', marks'⟩ := ends'
  have last := (List.append_inj' (marks.symm.trans marks') rfl).2
  cases last
  rfl

/-- The driver answers each verdict differently. -/
theorem Caller.answer_driver_inj {result other : Except Fault Unit}
    (same : driver.answer result = driver.answer other) : result = other := by
  cases result <;> cases other <;> cases same <;> rfl

namespace Session

variable {σ : Type} [Sink σ]

/-- The client is told, and answers. -/
def telling (s : Session σ) (notice : Option Notice) : Turn σ := ({ s with todo := [] }.notify notice).andThen run

/-- What is left to do waits until the client has answered. -/
theorem telling_resumed (s : Session σ) (notice : Option Notice) (rest : List Task) :
    ({ s with todo := rest }.notify notice).andThen run
      = (s.telling notice).andThen fun t => { t with todo := rest }.run := by
  let told := { s with todo := [] }.notify notice
  have before : { s with todo := rest }.notify notice =
      { told with session := { told.session with todo := told.session.todo ++ rest } } := by
    simp only [told, notify_eq _ notice _ rfl, List.append_nil]
    rfl
  rw [before]
  exact Turn.andThen_run (run_append told.session rest)

/-- The interrupt until it reads the vector: a pending SETUP packet is stored, and the client that is told of it has
answered. -/
def untilVector (s : Session σ) (vector : Option Word) : Turn σ :=
  (s.capturing vector).telling ((s.controller.raise vector).captureSetup s.config).answer

theorem runs_of_asks {s : Session σ} {op : Op} {caller : Caller} {vector : Option Word}
    (asks : op.asks? = some (caller, vector)) (running : s.controller.halted = false) :
    let read := s.untilVector vector
    s.runs [op] = Turn.andThen { read with marks := .call op :: read.marks }
      fun t => { t with todo := [.dispatch caller] }.run := by
  intro read
  let notice := ((s.controller.raise vector).captureSetup s.config).answer
  have resumed := (s.capturing vector).telling_resumed notice [.dispatch caller]
  exact (run_of_step (step_of_asks asks running)).trans
    (congrArg (fun turn => { turn with marks := .call op :: turn.marks }) resumed)

theorem run_of_conclude {s : Session σ} (done : s.todo = []) (caller : Caller) (result : Except Fault Unit) :
    { s with todo := [.conclude caller result] }.run = s.work (.conclude caller result) := by
  have same : { s with todo := [] } = s := by rw [← done]
  have stepped : { s with todo := [.conclude caller result] }.step = some (s.work (.conclude caller result)) :=
    (step_of_todo rfl).trans (by rw [same])
  have ended : (s.work (.conclude caller result)).session.todo = [] := done
  rw [run_of_step stepped, Turn.andThen, run_of_nil ended, List.append_nil]

theorem run_of_fault {s : Session σ} {fault : Fault} (done : s.todo = []) (failed : s.controller.verdict = .error fault)
    (caller : Caller) :
    { s with todo := [.dispatch caller] }.run
      = (s.adopt (s.controller.halt fault)).work (.conclude caller (.error fault)) := by
  have stepped : { s with todo := [.dispatch caller] }.step
      = some { session := { s.adopt (s.controller.halt fault) with todo := [.conclude caller (.error fault)] } } := by
    refine (step_of_todo rfl).trans ?_
    simp only [work, dispatch, Controller.dispatch_of_error failed, Controller.halt]
    rfl
  have ended := run_of_conclude (s := s.adopt (s.controller.halt fault)) done caller (.error fault)
  exact (run_of_step stepped).trans ended

theorem run_of_served {s : Session σ} (served : s.controller.verdict = .ok ()) (caller : Caller) :
    { s with todo := [.dispatch caller] }.run
      = ((s.serving none).telling (s.controller.told? s.controller.served)).andThen
          fun t => t.work (.conclude caller (.ok ())) := by
  let notice := s.controller.told? s.controller.served
  have done : ((s.serving none).telling notice).session.todo = [] := todo_run _
  have resumed := (s.serving none).telling_resumed notice [.conclude caller (.ok ())]
  simp only [Turn.andThen, run_of_conclude done] at resumed
  exact (run_of_step (step_of_served served caller)).trans resumed

section

variable {s : Session σ} {op : Op} {caller : Caller} {vector : Option Word}

/-- After a fault the client is not told of anything. -/
theorem runs_of_fault {fault : Fault} (asks : op.asks? = some (caller, vector)) (running : s.controller.halted = false)
    (failed : (s.untilVector vector).session.controller.verdict = .error fault) :
    let read := s.untilVector vector
    let ended := (read.session.adopt (read.session.controller.halt fault)).work (.conclude caller (.error fault))
    s.runs [op] = { ended with marks := .call op :: read.marks ++ ended.marks } := by
  have done : (s.untilVector vector).session.todo = [] := todo_run _
  have whole := runs_of_asks asks running
  simp only [Turn.andThen, run_of_fault done failed] at whole
  exact whole

theorem runs_of_served (asks : op.asks? = some (caller, vector)) (running : s.controller.halted = false)
    (served : (s.untilVector vector).session.controller.verdict = .ok ()) :
    let read := s.untilVector vector
    let after := (read.session.serving none).telling (read.session.controller.told? read.session.controller.served)
    let ended := after.session.work (.conclude caller (.ok ()))
    s.runs [op] = { ended with marks := .call op :: read.marks ++ after.marks ++ ended.marks } := by
  have whole := runs_of_asks asks running
  simp only [Turn.andThen, run_of_served served, ← List.append_assoc] at whole
  exact whole

/-- The answer is the verdict on the vector that is read. -/
theorem ends_verdict (asks : op.asks? = some (caller, vector)) (running : s.controller.halted = false) :
    (s.runs [op]).Ends (caller.answer (s.untilVector vector).session.controller.verdict) := by
  cases verdict : (s.untilVector vector).session.controller.verdict with
  | error fault =>
    rw [runs_of_fault asks running verdict]
    exact ⟨_, _, rfl⟩
  | ok =>
    rw [runs_of_served asks running verdict]
    exact ⟨_, _, rfl⟩

end

/-- An interrupt succeeds exactly if the vector that it reads is the code of a source that is served. Any other is a
fault, which names the source if the module has one with this code. Besides what happened before the vector was read, a
fault prints a line and stops the driver, and changes nothing else. Serving a source does not stop it. All this holds as
well where clients ask for the interrupt in their answers. -/
theorem faults_classified (s : Session σ) (vector : Option Word) (running : s.controller.halted = false) :
    let op : Op := .handleInterrupt vector
    let read := s.untilVector vector
    let raw := read.session.controller.registers.vecint
    let whole := s.runs [op]
    (∀ rest, { s with todo := .call op :: rest }.run = whole.andThen fun t => { t with todo := rest }.run) ∧
    (¬ BusFlag.setup.IsSet s.controller.registers.ifg →
      read = { session := { s.withVector vector with todo := [] } }) ∧
    (whole.Ends .done ↔ ∃ source ∈ Source.served, source.code? = some raw) ∧
    (∀ source : Source, source.Proper → source.code? = some raw → source ∉ Source.served →
      whole.Ends (.fault (.unexpectedVector source))) ∧
    ((∀ source : Source, source.Proper → source.code? ≠ some raw) → whole.Ends (.fault (.invalidVector raw))) ∧
    (∀ fault, whole.Ends (.fault fault) →
      let line : Message := .line (["msp430x5xx usb: "] ++ fault.pieces ++ [", halting"])
      let stopped := { read.session with
        controller := { read.session.controller with halted := true }, output := read.session.output.printAll [line] }
      whole = {
        session := stopped.looked
        marks := .call op :: read.marks ++ [.answer (.fault fault) stopped.closing] }) ∧
    (whole.Ends .done →
      let served := read.session.serving none
      let after := served.telling (read.session.controller.told? read.session.controller.served)
      served.controller.halted = read.session.controller.halted ∧
      whole = {
        session := after.session.looked
        marks := .call op :: read.marks ++ after.marks ++ [.answer .done after.session.closing] }) := by
  intro op read raw whole
  have asks : op.asks? = some (.driver, vector) := rfl
  have ends : whole.Ends (Caller.driver.answer read.session.controller.verdict) := ends_verdict asks running
  have verdict {result : Except Fault Unit} (answered : whole.Ends (Caller.driver.answer result)) :
      read.session.controller.verdict = result := Caller.answer_driver_inj (ends.unique answered)
  refine ⟨fun rest => ?_, fun clear => ?_, ⟨fun done => ?_, fun coded => ?_⟩, fun source proper coded other => ?_,
    fun invalid => ?_, fun fault failed => ?_, fun done => ?_⟩
  · exact { s with todo := [.call op] }.run_append rest
  · have still : ¬ BusFlag.setup.IsSet (s.controller.raise vector).registers.ifg := by cases vector <;> exact clear
    simp only [read, untilVector, telling, capturing, Controller.captureSetup, still, if_false, notify, Turn.andThen]
    rw [run_of_nil rfl]
    rfl
  · exact Controller.verdict_eq_ok_iff.mp (verdict done)
  · rwa [Controller.verdict_eq_ok_iff.mpr coded] at ends
  · rwa [Controller.verdict_of_code proper coded, if_neg other] at ends
  · rwa [Controller.verdict_of_no_code invalid] at ends
  · exact runs_of_fault asks running (verdict failed)
  · intro served after
    have succeeded : read.session.controller.verdict = .ok () := verdict done
    have acts : served.controller = read.session.controller.act read.session.buffers read.session.controller.served :=
      read.session.controller.dispatch_controller read.session.config read.session.buffers
    refine ⟨?_, runs_of_served asks running succeeded⟩
    rw [acts, read.session.controller.act_halted _ (Controller.served_ne_halt succeeded)]

/-- The client answers a SETUP packet by writing a vector that is not served. Without it the packet would be. -/
theorem faults_classified_of_suspend :
    let s : Session MeteredSink :=
      { controller := { client := some 0, registers := { ifg := 0x40 } }
        output := { sink := {} }
        clients := [{ onSetupReceived := [[.pokeRegister .vecint [0x18, 0]]] }] }
    let read := (s.untilVector (some 0x20)).session
    let whole := s.runs [.handleInterrupt (some 0x20)]
    let alone := { s with clients := [] }.runs [.handleInterrupt (some 0x20)]
    whole.Ends (.fault (.unexpectedVector .suspend)) ∧
      whole.session.controller = { read.controller with halted := true } ∧ alone.Ends .done := by
  intro s read whole alone
  -- What the client does is run step by step.
  let begun (s : Session MeteredSink) : Session MeteredSink :=
    let notice := ((s.controller.raise (some 0x20)).captureSetup s.config).answer
    ({ s.capturing (some 0x20) with todo := [] }.notify notice).session
  have answered : read = (begun s).after 8 := (run_eq_after (begun s) 8 (by decide +kernel)).1
  have silent : ({ s with clients := [] }.untilVector (some 0x20)).session = (begun { s with clients := [] }).after 3 :=
    (run_eq_after (begun { s with clients := [] }) 3 (by decide +kernel)).1
  obtain ⟨_, _, _, unexpected, _, stops, _⟩ := faults_classified s (some 0x20) rfl
  obtain ⟨_, _, succeeds, _⟩ := faults_classified { s with clients := [] } (some 0x20) rfl
  have suspended : read.controller.registers.vecint = 0x18 := by
    rw [answered]
    decide +kernel
  have failed := unexpected .suspend trivial (congrArg some suspended.symm) (by decide)
  refine ⟨failed, ?_, succeeds.mpr ⟨.setupPacketReceived, by decide, ?_⟩⟩
  · exact congrArg (fun turn => turn.session.controller) (stops _ failed)
  · rw [silent]
    decide +kernel

end Session

end UsbDevice
