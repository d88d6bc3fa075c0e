import Mathlib.Data.List.Forall2
import UsbDevice.Proofs.VectorVerdict

namespace UsbDevice

open List (Forall₂)

/-! The second asks the chip in some places where the first asks the driver. Everywhere else they are the same. -/

inductive Op.ByChip : Op → Op → Prop
  | same (op : Op) : ByChip op op
  | chip (vector : Option Word) : ByChip (.handleInterrupt vector) (.serviceInterrupt InterruptLine.usb.number vector)

inductive Caller.ByChip : Caller → Caller → Prop
  | same (caller : Caller) : ByChip caller caller
  | chip : ByChip .driver .chip

inductive Task.ByChip : Task → Task → Prop
  | call {op op'} : op.ByChip op' → ByChip (.call op) (.call op')
  | dispatch {caller caller'} : caller.ByChip caller' → ByChip (.dispatch caller) (.dispatch caller')
  | endNotice : ByChip .endNotice .endNotice
  | conclude {caller caller'} (result : Except Fault Unit) : caller.ByChip caller' →
    ByChip (.conclude caller result) (.conclude caller' result)

/-- The chip says yes where the driver has succeeded, and does not survive its faults. -/
inductive Answer.ByChip : Answer → Answer → Prop
  | same (answer : Answer) : ByChip answer answer
  | served : ByChip .done (.served true)
  | fault (fault : Fault) : ByChip (.fault fault) (.aborted (.usbFault fault))

/-- What shows is the same, but for what the chip answers and for what is printed. -/
inductive Mark.ByChip : Mark → Mark → Prop
  | call {op op'} : op.ByChip op' → ByChip (.call op) (.call op')
  | notice {look look'} (client : Nat) (notice : Notice) : look'.changes = look.changes →
    ByChip (.notice client notice look) (.notice client notice look')
  | endNotice : ByChip .endNotice .endNotice
  | answer {answer answer' look look'} : answer.ByChip answer' → look'.changes = look.changes →
    ByChip (.answer answer look) (.answer answer' look')

theorem Answer.ByChip.rel_same (given : Option Answer) : Option.Rel ByChip given given := by
  cases given with
  | none => exact .none
  | some answer => exact .some (.same answer)

theorem Op.ByChip.action {op op' : Op} (byChip : op.ByChip op') (buffers : Buffers) (guards : List Bool) :
    op'.action buffers guards = op.action buffers guards := by
  cases byChip with
  | same => rfl
  | chip vector => simp only [Op.action, if_true]

theorem Caller.ByChip.answer {caller caller' : Caller} (byChip : caller.ByChip caller') (result : Except Fault Unit) :
    (caller.answer result).ByChip (caller'.answer result) := by
  cases byChip with
  | same => exact .same _
  | chip =>
    cases result with
    | ok => exact .served
    | error fault => exact .fault fault

/-- The last marks of runs that show alike are alike. -/
theorem Turn.Ends.byChip {σ τ : Type} {turn : Turn σ} {turn' : Turn τ} {answer answer' : Answer}
    (ends : turn.Ends answer) (marks : Forall₂ Mark.ByChip turn.marks turn'.marks) (ends' : turn'.Ends answer') :
    answer.ByChip answer' := by
  obtain ⟨shown, look, whole⟩ := ends
  obtain ⟨shown', look', whole'⟩ := ends'
  rw [whole, whole', ← List.forall₂_reverse_iff, List.reverse_append, List.reverse_append] at marks
  cases marks with
  | cons last =>
    cases last with
    | answer answers => exact answers

namespace Task.ByChip

variable {task task' : Task}

theorem refl (task : Task) : task.ByChip task := by
  cases task with
  | call op => exact .call (.same op)
  | dispatch caller => exact .dispatch (.same caller)
  | endNotice => exact .endNotice
  | conclude caller result => exact .conclude result (.same caller)

theorem action (byChip : task.ByChip task') (c : Controller) (buffers : Buffers) (guards : List Bool) :
    task'.action c buffers guards = task.action c buffers guards := by
  cases byChip with
  | call calls => exact calls.action buffers guards
  | _ => rfl

theorem frame (byChip : task.ByChip task') (buffers : Buffers) (guards : List Bool) :
    task'.written buffers = task.written buffers ∧ task'.guards guards = task.guards guards := by
  cases byChip with
  | call calls => cases calls <;> exact ⟨rfl, rfl⟩
  | _ => exact ⟨rfl, rfl⟩

/-- The chip does what the driver does, and concludes it. -/
theorem resumed (byChip : task.ByChip task') (c : Controller) :
    Forall₂ ByChip (task.resumed c) (task'.resumed c) := by
  cases byChip with
  | call calls =>
    cases calls with
    | same => exact List.forall₂_same.mpr fun later _ => .refl later
    | chip vector =>
      refine .cons ?_ .nil
      split
      · exact .conclude _ .chip
      · exact .dispatch .chip
  | dispatch asked => exact .cons (.conclude _ asked) .nil
  | endNotice => exact .nil
  | conclude => exact .nil

theorem answer (byChip : task.ByChip task') (c : Controller) (buffers : Buffers) (guards : List Bool) :
    Option.Rel Answer.ByChip (task.answer? c buffers guards) (task'.answer? c buffers guards) := by
  cases byChip with
  | call calls =>
    cases calls with
    | same => exact Answer.ByChip.rel_same _
    | chip vector => exact .none
  | dispatch => exact .none
  | endNotice => exact .none
  | conclude result asked => exact .some (asked.answer result)

theorem place (byChip : task.ByChip task') : Forall₂ Mark.ByChip task.place task'.place := by
  cases byChip with
  | call calls => exact .cons (.call calls) .nil
  | dispatch => exact .nil
  | endNotice => exact .cons .endNotice .nil
  | conclude => exact .nil

/-- A list of operations stays one. -/
theorem exists_calls {ops : List Op} {todo' : List Task} (tasks : Forall₂ ByChip (ops.map .call) todo') :
    ∃ ops' : List Op, todo' = ops'.map .call := by
  rw [List.forall₂_map_left_iff] at tasks
  induction tasks with
  | nil => exact ⟨[], rfl⟩
  | cons first _ ih =>
    obtain ⟨ops', rfl⟩ := ih
    cases first with
    | @call _ op' => exact ⟨op' :: ops', rfl⟩

end Task.ByChip

namespace Client

/-- The second client asks the chip at some of the calls with which the first one answers. -/
def ByChip (c c' : Client) : Prop :=
  ∀ notice n, Forall₂ Op.ByChip ((c.plans notice).getD n []) ((c'.plans notice).getD n [])

theorem ByChip.refl (c : Client) : c.ByChip c := fun _ _ => List.forall₂_same.mpr fun op _ => .same op

theorem ByChip.reacting {c c' : Client} (byChip : c.ByChip c') (notice : Notice) :
    (c.reacting notice).ByChip (c'.reacting notice) := by
  intro other n
  obtain ⟨ahead, later⟩ := plans_reacting notice other
  rw [later, later]
  exact byChip other (n + ahead)

theorem replies_byChip {clients clients' : List Client}
    (byChip : ∀ i, (clients.getD i {}).ByChip (clients'.getD i {})) (told : Option (Nat × Notice)) :
    Forall₂ Task.ByChip (replies clients told) (replies clients' told) := by
  cases told with
  | none => exact .nil
  | some told =>
    obtain ⟨i, notice⟩ := told
    have now := byChip i notice 0
    rw [← reaction_eq, ← reaction_eq] at now
    have calls : Forall₂ Task.ByChip (((clients.getD i {}).reaction notice).map .call)
        (((clients'.getD i {}).reaction notice).map .call) := List.rel_map (fun _ _ => .call) now
    exact List.rel_append calls (.cons .endNotice .nil)

end Client

namespace Session

variable {σ τ : Type} {s : Session σ} {s' : Session τ}

/-- The sessions stand alike. The second has asked the chip at some of the calls, and still will. What is printed may
differ, and where it goes. -/
structure ByChip (s : Session σ) (s' : Session τ) : Prop where
  controller : s'.controller = s.controller
  buffers : s'.buffers = s.buffers
  guards : s'.guards = s.guards
  shown : s'.shown = s.shown
  clients : ∀ i, (s.clients.getD i {}).ByChip (s'.clients.getD i {})
  todo : Forall₂ Task.ByChip s.todo s'.todo

theorem ByChip.told (byChip : s.ByChip s') {task task' : Task} (tasks : task.ByChip task') :
    s'.told? task' = s.told? task := by
  simp only [told?, byChip.controller, byChip.buffers, byChip.guards, tasks.action]

theorem ByChip.looks (byChip : s.ByChip s') {task task' : Task} (tasks : task.ByChip task') :
    s'.looks task' = s.looks task := by
  have answers := tasks.answer s.controller s.buffers s.guards
  simp only [Session.looks, byChip.told tasks, byChip.controller, byChip.buffers, byChip.guards]
  generalize task.answer? s.controller s.buffers s.guards = given,
    task'.answer? s.controller s.buffers s.guards = given' at answers ⊢
  cases answers <;> rfl

variable [Sink σ] [Sink τ]

/-- A task is done alike, whoever is asked. -/
theorem ByChip.outcome (byChip : s.ByChip s') {task task' : Task} (tasks : task.ByChip task') :
    (s.outcome task).session.ByChip (s'.outcome task').session := by
  obtain ⟨written, guards⟩ := tasks.frame s.buffers s.guards
  constructor
  · simp only [Session.outcome, byChip.controller, byChip.buffers, byChip.guards, tasks.action]
  · simp only [Session.outcome, byChip.buffers, written]
  · simp only [Session.outcome, byChip.guards, guards]
  · simp only [Session.outcome, byChip.looks tasks, byChip.controller, byChip.buffers, byChip.guards, byChip.shown,
      tasks.action]
  · simp only [Session.outcome, byChip.told tasks]
    exact Client.replied_alike (fun _ _ clients => clients.reacting) byChip.clients (s.told? task)
  · simp only [Session.outcome, byChip.told tasks, byChip.controller]
    exact List.rel_append (Client.replies_byChip byChip.clients (s.told? task))
      (List.rel_append (tasks.resumed s.controller) byChip.todo)

theorem ByChip.marks (byChip : s.ByChip s') {task task' : Task} (tasks : task.ByChip task') :
    Forall₂ Mark.ByChip (s.outcome task).marks (s'.outcome task').marks := by
  have answers := tasks.answer s.controller s.buffers s.guards
  simp only [Session.outcome, byChip.told tasks, byChip.controller, byChip.buffers, byChip.guards, byChip.shown,
    tasks.action]
  generalize task.answer? s.controller s.buffers s.guards = given,
    task'.answer? s.controller s.buffers s.guards = given' at answers ⊢
  refine List.rel_append (List.rel_append tasks.place ?_) ?_
  · cases s.told? task with
    | none => exact .nil
    | some told => exact .cons (.notice told.1 told.2 rfl) .nil
  · cases answers with
    | none => exact .nil
    | some answer => exact .cons (.answer answer rfl) .nil

/-- The next step is the same in both sessions but for whom it asks. -/
structure StepByChip (s : Session σ) (s' : Session τ) : Prop where
  before : s.ByChip s'
  after : ∃ turn turn', s.step = some turn ∧ s'.step = some turn' ∧ turn.session.ByChip turn'.session
  notices : s'.notices = s.notices
  marks : Forall₂ Mark.ByChip s.marks s'.marks

theorem ByChip.step {turn : Turn σ} (byChip : s.ByChip s') (stepped : s.step = some turn) :
    ∃ turn', s'.step = some turn' ∧ turn.session.ByChip turn'.session ∧ s.StepByChip s' := by
  obtain ⟨task, rest, pending, rfl⟩ := outcome_of_step stepped
  have todo := byChip.todo
  rw [pending, List.forall₂_cons_left_iff] at todo
  obtain ⟨task', rest', tasks, later, pending'⟩ := todo
  have popped : { s with todo := rest }.ByChip { s' with todo := rest' } := { byChip with todo := later }
  have stepped' := step_eq_outcome pending'
  refine ⟨_, stepped', popped.outcome tasks, byChip, ⟨_, _, stepped, stepped', popped.outcome tasks⟩, ?_, ?_⟩
  · rw [notices_of_step stepped, notices_of_step stepped', outcome_notices, outcome_notices, popped.told tasks]
  · rw [marks_of_step stepped, marks_of_step stepped']
    exact popped.marks tasks

/-- However far the first session goes, the second goes along. -/
theorem ByChip.reach {t : Session σ} {past : List (Session σ)} (byChip : s.ByChip s') (reach : s.Reach past t) :
    ∃ past' t', s'.Reach past' t' ∧ t.ByChip t' ∧ Forall₂ StepByChip past past' := by
  induction reach with
  | start => exact ⟨[], s', .start, byChip, .nil⟩
  | @next before last turn previous stepped ih =>
    obtain ⟨past', t', reach', near, steps⟩ := ih
    obtain ⟨turn', stepped', nearby, step⟩ := near.step stepped
    exact ⟨past' ++ [t'], turn'.session, reach'.next stepped', nearby, List.rel_append steps (.cons step .nil)⟩

theorem ByChip.run (byChip : s.ByChip s') :
    Forall₂ StepByChip s.history s'.history ∧ s.run.session.ByChip s'.run.session := by
  obtain ⟨past', t', reach', near, steps⟩ := byChip.reach s.reach_run
  have todo := near.todo
  rw [todo_run, List.forall₂_nil_left_iff] at todo
  obtain ⟨rfl, rfl⟩ := reach'.finished todo
  exact ⟨steps, near⟩

theorem ByChip.run_marks (byChip : s.ByChip s') : Forall₂ Mark.ByChip s.run.marks s'.run.marks := by
  rw [(run_eq_after s _ (Nat.le_refl _)).2, (run_eq_after s' _ (Nat.le_refl _)).2]
  exact List.rel_flatMap byChip.run.1 fun _ _ step => step.marks

/-! What a call of the chip answers. -/

theorem ends_of_halted {op : Op} {caller : Caller} {vector : Option Word} (halted : s.controller.halted)
    (asks : op.asks? = some (caller, vector)) : (s.runs [op]).Ends (caller.answer (.error .halted)) := by
  let called := (s.plan [op]).refusing caller vector []
  have stepped : (s.plan [op]).step = some { session := called, marks := [.call op] } := step_of_halted halted rfl asks
  have whole : s.runs [op] = Turn.andThen { session := called, marks := [.call op] } run := run_of_step stepped
  have ended : called.run = ({ called with todo := [] }).work (.conclude caller (.error .halted)) :=
    run_of_conclude (s := { called with todo := [] }) rfl caller (.error .halted)
  rw [whole, Turn.andThen, ended]
  exact ⟨_, _, rfl⟩

theorem ends_of_asks {op : Op} {caller : Caller} {vector : Option Word} (asks : op.asks? = some (caller, vector)) :
    ∃ result, (s.runs [op]).Ends (caller.answer result) := by
  cases halted : s.controller.halted with
  | true => exact ⟨_, ends_of_halted halted asks⟩
  | false => exact ⟨_, ends_verdict asks halted⟩

/-- The chip answers a call as the driver does, and leaves the same. -/
theorem ByChip.runs (byChip : s.ByChip s') (vector : Option Word) :
    let whole := s.runs [.handleInterrupt vector]
    let whole' := s'.runs [.serviceInterrupt InterruptLine.usb.number vector]
    whole.session.ByChip whole'.session ∧
      ((whole.Ends .done ∧ whole'.Ends (.served true)) ∨
        ∃ fault, whole.Ends (.fault fault) ∧ whole'.Ends (.aborted (.usbFault fault))) := by
  intro whole whole'
  have planned : (s.plan [.handleInterrupt vector]).ByChip
      (s'.plan [.serviceInterrupt InterruptLine.usb.number vector]) :=
    { byChip with todo := .cons (.call (.chip vector)) .nil }
  obtain ⟨result, ends⟩ : ∃ result, whole.Ends (Caller.driver.answer result) := ends_of_asks rfl
  obtain ⟨result', ends'⟩ : ∃ result, whole'.Ends (Caller.chip.answer result) := ends_of_asks rfl
  have answers := ends.byChip planned.run_marks ends'
  refine ⟨planned.run.2, ?_⟩
  -- No answer of the driver is one of the chip, so the answers are related by what they say.
  cases result with
  | ok =>
    cases result' with
    | ok => exact Or.inl ⟨ends, ends'⟩
    | error => cases answers
  | error fault =>
    cases result' with
    | ok => cases answers
    | error fault' =>
      cases answers
      exact Or.inr ⟨fault, ends, ends'⟩

/-- Once a fault has been returned, the driver has stopped, also where it had stopped before. -/
theorem Reach.halted_of_fails {t : Session σ} {past : List (Session σ)} (reach : s.Reach past t) {ops : List Op}
    (planned : s.todo = ops.map .call) (fails : ∃ q ∈ past, q.Fails) : t.controller.halted := by
  obtain ⟨q, member, fails⟩ := fails
  cases halted : s.controller.halted with
  | true => exact reach.halted halted
  | false =>
    obtain ⟨before, later, rfl⟩ := List.append_of_mem member
    obtain ⟨turn, first, stepped, rest⟩ := reach.at_point
    obtain ⟨caller, fault, todo, pending⟩ := conclude_of_fails fails
    have latched := first.latched (latched_of_planned halted planned)
    exact rest.halted (halted_step stepped (latched.faults caller fault (pending ▸ List.mem_cons_self)))

/-- A line of which the chip knows nothing is not served. Only the vector is written that comes with the call. -/
theorem step_of_foreign {line : BitVec 32} {vector : Option Word} {rest : List Task}
    (foreign : line ≠ InterruptLine.usb.number) (pending : s.todo = .call (.serviceInterrupt line vector) :: rest) :
    let after := { s.withVector vector with todo := rest }
    s.step = some
      { session := after.looked
        marks := [.call (.serviceInterrupt line vector), .answer (.served false) after.closing] } := by
  rw [step_of_todo pending]
  simp only [work, call, foreign, if_false, raise_eq]
  rfl

/-- The driver can be asked through the chip, at any of the calls. After every step the session stands the same, and
the client has been told the same. The chip says yes exactly where the driver succeeds, and does not survive its faults:
not the first, which it names, nor the refusals that follow. Another line is not served, and nothing comes of it. -/
theorem chip_refines_driver (byChip : s.ByChip s') (planned : ∃ ops : List Op, s.todo = ops.map .call) :
    let usb := InterruptLine.usb.number
    (Forall₂ StepByChip s.history s'.history ∧ s.run.session.ByChip s'.run.session) ∧
      (∀ (p : Session σ) (p' : Session τ) vector rest rest', p.ByChip p' →
        p.todo = .call (.handleInterrupt vector) :: rest → p'.todo = .call (.serviceInterrupt usb vector) :: rest' →
        let whole := p.runs [.handleInterrupt vector]
        let whole' := p'.runs [.serviceInterrupt usb vector]
        p.run = whole.andThen (fun t => { t with todo := rest }.run) ∧
          p'.run = whole'.andThen (fun t => { t with todo := rest' }.run) ∧ whole.session.ByChip whole'.session ∧
          ((whole.Ends .done ∧ whole'.Ends (.served true)) ∨
            ∃ fault, whole.Ends (.fault fault) ∧ whole'.Ends (.aborted (.usbFault fault)))) ∧
      (∀ past t', s'.Reach past t' → (∃ q ∈ past, q.Fails) →
        ∀ vector, (t'.runs [.serviceInterrupt usb vector]).Ends (.aborted (.usbFault .halted))) ∧
      ∀ (p : Session τ) line vector rest, line ≠ usb → p.todo = .call (.serviceInterrupt line vector) :: rest →
        let after := { p.withVector vector with todo := rest }
        p.step = some
          { session := after.looked
            marks := [.call (.serviceInterrupt line vector), .answer (.served false) after.closing] } := by
  intro usb
  refine ⟨byChip.run, ?_, fun past t' reach fails vector => ?_, fun p line vector rest => step_of_foreign⟩
  · intro p p' vector rest rest' near pending pending'
    have split : p.todo = [.call (.handleInterrupt vector)] ++ rest := pending
    have split' : p'.todo = [.call (.serviceInterrupt usb vector)] ++ rest' := pending'
    exact ⟨run_of_split split, run_of_split split', near.runs vector⟩
  · obtain ⟨ops, todo⟩ := planned
    have tasks := byChip.todo
    rw [todo] at tasks
    obtain ⟨ops', todo'⟩ := Task.ByChip.exists_calls tasks
    have asks : (Op.serviceInterrupt usb vector).asks? = some (.chip, vector) := rfl
    exact ends_of_halted (reach.halted_of_fails todo' fails) asks

/-- The client asks for the interrupt again when it is told of a bus reset. A suspend is a fault, after which the driver
refuses. The firmware of the second prints no state there. -/
theorem chip_refines_driver_of_suspend :
    let usb := InterruptLine.usb.number
    let ops (asks : Option Word → Op) : List Op :=
      [.setClient 0, asks (some 0x16), asks (some 0x18), asks none,
        .serviceInterrupt InterruptLine.watchdog.number none]
    let s : Session MeteredSink :=
      Session.plan { output := { sink := {} }, clients := [{ onBusReset := [[.handleInterrupt (some 0x14)]] }] }
        (ops .handleInterrupt)
    let s' : Session MeteredSink :=
      Session.plan
        { s with
          config := { debugPanics := false }
          clients := [{ onBusReset := [[.serviceInterrupt usb (some 0x14)]] }] }
        (ops (.serviceInterrupt usb))
    s.ByChip s' ∧ Forall₂ StepByChip s.history s'.history ∧ s.history.length = 14 ∧ (s'.after 10).Fails ∧
      ((s.after 11).runs [.handleInterrupt none]).Ends (.fault .halted) ∧
      ((s'.after 11).runs [.serviceInterrupt usb none]).Ends (.aborted (.usbFault .halted)) ∧
      ∃ turn, (s'.after 13).step = some turn ∧ turn.session.controller = (s'.after 13).controller := by
  intro usb ops s s'
  have answers : ∀ i, (s.clients.getD i {}).ByChip (s'.clients.getD i {}) := by
    intro i notice n
    rcases i with _ | i
    · cases notice with
      | busReset =>
        rcases n with _ | n
        · exact .cons (.chip (some 0x14)) .nil
        · exact .nil
      | _ => exact .nil
    · exact Client.ByChip.refl {} notice n
  have byChip : s.ByChip s' :=
    { controller := rfl, buffers := rfl, guards := rfl, shown := rfl, clients := answers
      todo := .cons (.refl _) (.cons (.call (.chip _)) (.cons (.call (.chip _)) (.cons (.call (.chip _))
        (.cons (.refl _) .nil)))) }
  have planned : ∃ ops : List Op, s.todo = ops.map .call := ⟨_, rfl⟩
  obtain ⟨⟨steps, _⟩, calls, halts, foreign⟩ := chip_refines_driver byChip planned
  have fails : (s'.after 10).Fails := by decide +kernel
  have member : s'.after 10 ∈ s'.path 11 := List.mem_of_getElem? (getElem?_path (by decide +kernel))
  have refused := halts _ _ (s'.reach_after 11) ⟨_, member, fails⟩ none
  obtain ⟨past', _, reach', near, along⟩ := byChip.reach (s.reach_after 11)
  obtain ⟨_, rfl⟩ := reach'.eq_path
  rw [← along.length_eq, show (s.path 11).length = 11 by decide +kernel] at near
  let rest : List Task := [.call (.serviceInterrupt InterruptLine.watchdog.number none)]
  have pending : (s.after 11).todo = .call (.handleInterrupt none) :: rest := by decide +kernel
  have pending' : (s'.after 11).todo = .call (.serviceInterrupt usb none) :: rest := by decide +kernel
  obtain ⟨_, _, _, answered⟩ := calls _ _ none _ _ near pending pending'
  have last : (s'.after 13).todo = rest := by decide +kernel
  refine ⟨byChip, steps, by decide +kernel, fails, ?_, refused, _, foreign _ _ none _ (by decide) last, rfl⟩
  rcases answered with ⟨_, served⟩ | ⟨fault, failed, aborted⟩
  · cases refused.unique served
  · cases refused.unique aborted
    exact failed

end Session

end UsbDevice
