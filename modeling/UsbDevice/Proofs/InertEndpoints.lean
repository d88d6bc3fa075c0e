import UsbDevice.Proofs.InterruptReturn
import UsbDevice.Proofs.MaskedRuns
import UsbDevice.Proofs.SlotAgreement

namespace UsbDevice

/-- The second list goes along with the first, member by member, but for some that may be left out. -/
inductive Skipping {α β : Type} (may : α → Prop) (same : α → β → Prop) : List α → List β → Prop
  | done : Skipping may same [] []
  | keep {a b as bs} : same a b → Skipping may same as bs → Skipping may same (a :: as) (b :: bs)
  | leave {a as bs} : may a → Skipping may same as bs → Skipping may same (a :: as) bs

namespace Skipping

variable {α β : Type} {may : α → Prop} {same : α → β → Prop} {as as' : List α} {bs bs' : List β}

theorem refl (as : List α) : Skipping may Eq as as := by
  induction as with
  | nil => exact .done
  | cons a as ih => exact .keep rfl ih

theorem append (first : Skipping may same as bs) (rest : Skipping may same as' bs') :
    Skipping may same (as ++ as') (bs ++ bs') := by
  induction first with
  | done => exact rest
  | keep pair _ ih => exact .keep pair ih
  | leave left _ ih => exact .leave left ih

theorem map {γ : Type} {may' : γ → Prop} {f : α → γ} (kept : ∀ a, may a → may' (f a)) {as bs : List α}
    (skipping : Skipping may Eq as bs) : Skipping may' Eq (as.map f) (bs.map f) := by
  induction skipping with
  | done => exact .done
  | keep pair _ ih => exact .keep (congrArg f pair) ih
  | leave left _ ih => exact .leave (kept _ left) ih

theorem flatMap {γ : Type} {f : α → List γ} {g : β → List γ} (skipping : Skipping may same as bs)
    (left : ∀ a, may a → f a = []) (pairs : ∀ a b, same a b → g b = f a) : bs.flatMap g = as.flatMap f := by
  induction skipping with
  | done => rfl
  | keep pair _ ih => rw [List.flatMap_cons, List.flatMap_cons, ih, pairs _ _ pair]
  | leave gone _ ih => rw [List.flatMap_cons, ih, left _ gone, List.nil_append]

end Skipping

/-- The operation does nothing but print, or lends a buffer to one of the endpoints. -/
def Op.Inert (es : List Endpoint) : Op → Prop
  | .queueTransfer e _ => ∃ endpoint ∈ es, e.resolve = .ok endpoint
  | .openEndpoint .. | .stall _ | .clearStall _ | .setConfiguration _ | .remoteWakeup | .debugState => True
  | _ => False

/-- The operation asks how the transfer of one of the endpoints stands. -/
def Op.AsksAfter (es : List Endpoint) : Op → Prop
  | .transferProgress e => ∃ endpoint ∈ es, e.resolve = .ok endpoint
  | _ => False

def Task.Inert (es : List Endpoint) : Task → Prop
  | call op => op.Inert es
  | _ => False

variable {es : List Endpoint}

namespace Op

variable {op : Op}

theorem asks_of_inert (inert : op.Inert es) : op.asks? = none := by
  cases op <;> first | rfl | exact absurd inert not_false

theorem frame_of_inert (inert : op.Inert es) (buffers : Buffers) (guards : List Bool) :
    op.written buffers = buffers ∧ op.guards guards = guards := by
  cases op <;> first | exact ⟨rfl, rfl⟩ | exact absurd inert not_false

/-- Only the slots of the endpoints can be changed. -/
theorem Inert.act (inert : op.Inert es) (others : ∀ e ∈ es, e.number ≠ 0) {c c' : Controller}
    (agree : c.AgreeBut es c') (buffers : Buffers) (guards : List Bool) :
    (c.act buffers (op.action buffers guards)).AgreeBut es c' := by
  cases op with
  | queueTransfer e region =>
    obtain ⟨endpoint, member, resolved⟩ := inert
    simp only [Op.action, resolved]
    cases found : SlotId.ofEndpoint? endpoint with
    | none => exact agree
    | some id => exact agree.lend_of_mem others (SlotId.endpoint_eq found ▸ member) _
  | openEndpoint => exact agree
  | stall => exact agree
  | clearStall => exact agree
  | setConfiguration => exact agree
  | remoteWakeup => exact agree
  | debugState => exact agree
  | _ => exact absurd inert not_false

end Op

namespace Task

variable {c c' : Controller} (task : Task) (buffers : Buffers) (guards : List Bool)

theorem action_agree (agree : c.AgreeBut es c') : task.action c' buffers guards = task.action c buffers guards := by
  obtain ⟨slots, rfl, _⟩ := agree
  cases task <;> rfl

theorem resumed_agree (agree : c.AgreeBut es c') : task.resumed c' = task.resumed c := by
  obtain ⟨slots, rfl, _⟩ := agree
  cases task <;> rfl

theorem answer_agree (agree : c.AgreeBut es c') (other : ∀ op, task = .call op → ¬ op.AsksAfter es) :
    task.answer? c' buffers guards = task.answer? c buffers guards := by
  cases task with
  | call op =>
    cases op with
    | transferProgress e =>
      simp only [answer?, Op.answer]
      cases resolved : e.resolve with
      | error => rfl
      | ok endpoint =>
        have outside : endpoint ∉ es := fun member => other _ rfl ⟨endpoint, member, resolved⟩
        simp only [agree.progress outside]
    | _ => rfl
  | _ => rfl

/-- Whether there is an answer depends on the task alone. -/
theorem isSome_answer (c c' : Controller) :
    (task.answer? c' buffers guards).isSome = (task.answer? c buffers guards).isSome := by
  cases task with
  | call op => cases asks : op.asks? <;> simp [answer?, asks]
  | _ => rfl

end Task

/-- The second client does at each notice what the first one does, without some of the inert operations. -/
def Client.Sparing (es : List Endpoint) (c c' : Client) : Prop :=
  ∀ notice n, Skipping (Op.Inert es) Eq ((c.plans notice).getD n []) ((c'.plans notice).getD n [])

namespace Client

theorem Sparing.reacting {c c' : Client} (sparing : c.Sparing es c') (notice : Notice) :
    (c.reacting notice).Sparing es (c'.reacting notice) := by
  intro other n
  obtain ⟨ahead, later⟩ := plans_reacting notice other
  rw [later, later]
  exact sparing other (n + ahead)

variable {clients clients' : List Client}

theorem replies_sparing (sparing : ∀ i, (clients.getD i {}).Sparing es (clients'.getD i {}))
    (told : Option (Nat × Notice)) : Skipping (Task.Inert es) Eq (replies clients told) (replies clients' told) := by
  cases told with
  | none => exact .done
  | some told =>
    obtain ⟨i, notice⟩ := told
    have now := sparing i notice 0
    rw [← reaction_eq, ← reaction_eq] at now
    have calls : Skipping (Task.Inert es) Eq (((clients.getD i {}).reaction notice).map .call)
        (((clients'.getD i {}).reaction notice).map .call) := now.map (f := Task.call) fun _ inert => inert
    exact calls.append (.refl [Task.endNotice])

end Client

/-- A mark of which the look at the session is seen through `f`. -/
def Mark.through (f : Closing → Closing) : Mark → Mark
  | notice client content look => .notice client content (f look)
  | answer given look => .answer given (f look)
  | mark => mark

theorem Mark.bare_eq_through : Mark.bare = Mark.through fun _ => ⟨[], []⟩ := by
  funext mark
  cases mark <;> rfl

/-- A look at the session without what has been printed, and without the changes in the slots of the endpoints. -/
def Closing.beside (es : List Endpoint) (look : Closing) : Closing := ⟨[], look.changes.filter (Change.isBeside es)⟩

namespace Session

variable {σ : Type} [Sink σ]

/-- The next step is an inert operation. -/
def Inert (es : List Endpoint) (s : Session σ) : Prop := ∃ op rest, s.todo = .call op :: rest ∧ op.Inert es

/-- The next step asks how the transfer of one of the endpoints stands. -/
def AsksAfter (es : List Endpoint) (s : Session σ) : Prop := ∃ op rest, s.todo = .call op :: rest ∧ op.AsksAfter es

/-- The sessions have come to the same place, the second without some of the inert operations. -/
structure Abreast (es : List Endpoint) (s s' : Session σ) : Prop where
  config : s'.config = s.config
  buffers : s'.buffers = s.buffers
  guards : s'.guards = s.guards
  controller : s.controller.AgreeBut es s'.controller
  clients : ∀ i, (s.clients.getD i {}).Sparing es (s'.clients.getD i {})
  todo : Skipping (Task.Inert es) Eq s.todo s'.todo

/-- Both sessions were last seen in the same state, which is that of the first now, unless an interrupt goes on. -/
structure SeenAlike (es : List Endpoint) (s s' : Session σ) : Prop where
  shown : s.shown.AgreeBut es s'.shown
  looked : (∀ task ∈ s.todo.head?, task.Replies) → s.shown = s.controller

omit [Sink σ] in
theorem Abreast.told {s s' : Session σ} (others : ∀ e ∈ es, e.number ≠ 0) (abreast : s.Abreast es s') (task : Task) :
    s'.told? task = s.told? task := by
  have agree := abreast.controller
  have content := agree.told others (task.action s.controller s.buffers s.guards)
  obtain ⟨slots, same, _⟩ := agree
  have client : s'.controller.client = s.controller.client := by rw [same]
  simp only [told?, abreast.buffers, abreast.guards, task.action_agree s.buffers s.guards abreast.controller, content,
    client]

omit [Sink σ] in
theorem Abreast.looks {s s' : Session σ} (others : ∀ e ∈ es, e.number ≠ 0) (abreast : s.Abreast es s')
    (task : Task) : s'.looks task = s.looks task := by
  simp only [Session.looks, abreast.told others, abreast.buffers, abreast.guards,
    task.isSome_answer s.buffers s.guards s.controller s'.controller]

omit [Sink σ] in
theorem Abreast.acted {s s' : Session σ} (others : ∀ e ∈ es, e.number ≠ 0) (abreast : s.Abreast es s') (task : Task) :
    (s.controller.act s.buffers (task.action s.controller s.buffers s.guards)).AgreeBut es
      (s'.controller.act s'.buffers (task.action s'.controller s'.buffers s'.guards)) := by
  rw [abreast.buffers, abreast.guards, task.action_agree s.buffers s.guards abreast.controller]
  exact abreast.controller.act others s.buffers _

/-- A task is done in both sessions. -/
theorem Abreast.outcome {s s' : Session σ} (others : ∀ e ∈ es, e.number ≠ 0) (abreast : s.Abreast es s')
    (task : Task) : (s.outcome task).session.Abreast es (s'.outcome task).session where
  config := abreast.config
  buffers := congrArg task.written abreast.buffers
  guards := congrArg task.guards abreast.guards
  controller := abreast.acted others task
  clients := by
    simp only [Session.outcome, abreast.told others]
    exact Client.replied_alike (fun _ _ sparing => sparing.reacting) abreast.clients (s.told? task)
  todo := by
    simp only [Session.outcome, abreast.told others, task.resumed_agree abreast.controller]
    exact (Client.replies_sparing abreast.clients (s.told? task)).append ((Skipping.refl _).append abreast.todo)

/-- What the next look shows if the next step is the task. -/
def look (s : Session σ) (task : Task) : Closing :=
  ⟨(s.output.printAll (task.said s.config s.controller s.buffers)).stored,
    s.shown.changes (s.controller.act s.buffers (task.action s.controller s.buffers s.guards))⟩

theorem Abreast.marks {s s' : Session σ} (others : ∀ e ∈ es, e.number ≠ 0) (abreast : s.Abreast es s') {task : Task}
    (other : ∀ op, task = .call op → ¬ op.AsksAfter es) {f : Closing → Closing}
    (alike : f (s'.look task) = f (s.look task)) :
    (s'.outcome task).marks.map (Mark.through f) = (s.outcome task).marks.map (Mark.through f) := by
  have told := abreast.told others task
  have answered := task.answer_agree s.buffers s.guards abreast.controller other
  simp only [look, abreast.buffers, abreast.guards] at alike
  simp only [Session.outcome, List.map_append, told, abreast.buffers, abreast.guards, answered]
  congr 1
  · cases s.told? task <;> simp [Mark.through, alike]
  · cases task.answer? s.controller s.buffers s.guards <;> simp [Mark.through, alike]

/-- Where nobody looks, a notice ends, or an interrupt goes on. -/
theorem goes_on_of_not_looks {s : Session σ} {task : Task} (unseen : s.looks task = false) :
    (s.outcome task).session.todo = task.resumed s.controller ++ s.todo ∧
      (task = .endNotice ∨ ∃ next, task.resumed s.controller = [next] ∧ ¬ next.Replies) := by
  obtain ⟨untold, unanswered⟩ := Bool.or_eq_false_iff.mp unseen
  have silent := Option.not_isSome_iff_eq_none.mp (Bool.eq_false_iff.mp untold)
  refine ⟨by simp only [outcome, silent, Client.replies, List.nil_append], ?_⟩
  cases task with
  | call op =>
    cases asks : op.asks? with
    | none => simp [Task.answer?, asks] at unanswered
    | some asked =>
      refine Or.inr ⟨if s.controller.halted then .conclude asked.1 (.error .halted) else .dispatch asked.1, ?_, ?_⟩
      · simp only [Task.resumed, asks]
      · split <;> exact not_false
  | dispatch caller => exact Or.inr ⟨_, rfl, not_false⟩
  | endNotice => exact Or.inl rfl
  | conclude => cases unanswered

theorem SeenAlike.outcome {s s' : Session σ} {task : Task} {rest : List Task} (pending : s.todo = task :: rest)
    (others : ∀ e ∈ es, e.number ≠ 0) (seen : s.SeenAlike es s') {later : List Task}
    (abreast : { s with todo := rest }.Abreast es { s' with todo := later }) :
    ({ s with todo := rest }.outcome task).session.SeenAlike es ({ s' with todo := later }.outcome task).session := by
  constructor
  · simp only [Session.outcome, abreast.looks others task]
    split
    · exact abreast.acted others task
    · exact seen.shown
  · intro replies
    cases looks : ({ s with todo := rest } : Session σ).looks task with
    | true => exact (settled_of_looks looks).2
    | false =>
      obtain ⟨todo, rfl | ⟨next, resumed, part⟩⟩ := goes_on_of_not_looks looks
      · -- The end of a notice does nothing, and what was seen before it still stands.
        have same : s.shown = s.controller := seen.looked (by simp [pending, Task.Replies])
        simp only [Session.outcome, looks, Bool.false_eq_true, if_false]
        exact same
      · rw [todo, resumed] at replies
        exact absurd (replies next rfl) part

/-- An inert operation is a step of the first session alone. -/
theorem Abreast.alone {s s' : Session σ} (others : ∀ e ∈ es, e.number ≠ 0) (abreast : s.Abreast es s') {op : Op}
    {rest : List Task} (inert : op.Inert es) (skips : Skipping (Task.Inert es) Eq rest s'.todo) :
    ({ s with todo := rest }.outcome (.call op)).session.Abreast es s' := by
  have asks := Op.asks_of_inert inert
  have silent := { s with todo := rest }.told_of_plain asks
  obtain ⟨written, guards⟩ := Op.frame_of_inert inert s.buffers s.guards
  constructor
  · exact abreast.config
  · exact abreast.buffers.trans written.symm
  · exact abreast.guards.trans guards.symm
  · exact inert.act others abreast.controller s.buffers s.guards
  · simp only [Session.outcome, silent]
    exact abreast.clients
  · simp only [Session.outcome, silent, Client.replies, Task.resumed, asks, List.nil_append]
    exact skips

theorem SeenAlike.alone {s s' : Session σ} (others : ∀ e ∈ es, e.number ≠ 0) (seen : s.SeenAlike es s') {op : Op}
    {rest : List Task} (pending : s.todo = .call op :: rest) (inert : op.Inert es) :
    ({ s with todo := rest }.outcome (.call op)).session.SeenAlike es s' := by
  have looks : ({ s with todo := rest } : Session σ).looks (.call op) = true := by
    simp [Session.looks, Task.answer?, Op.asks_of_inert inert]
  have same : s.shown = s.controller := seen.looked (by simp [pending, Task.Replies])
  have shown := seen.shown
  rw [same] at shown
  constructor
  · simp only [Session.outcome, looks, if_true]
    exact inert.act others shown s.buffers s.guards
  · intro _
    simp only [Session.outcome, looks, if_true]

/-- The next step is the same in both sessions: it begins and ends with controllers that agree, tells the same clients
of the same, and answers the same, unless it asks after one of the endpoints. With `settled` all changes show alike
besides. -/
structure SameStep (es : List Endpoint) (settled : Prop) (s s' : Session σ) : Prop where
  task : s'.todo.head? = s.todo.head?
  before : s.controller.AgreeBut es s'.controller
  after : ∃ turn turn', s.step = some turn ∧ s'.step = some turn' ∧
    turn.session.controller.AgreeBut es turn'.session.controller
  notices : s'.notices = s.notices
  marks : ¬ s.AsksAfter es → s'.marks.map Mark.bare = s.marks.map Mark.bare
  seen : settled → ¬ s.AsksAfter es →
    s'.marks.map (Mark.through (Closing.beside es)) = s.marks.map (Mark.through (Closing.beside es))

/-- A step of the first session is one of both, or one that is left out in the second. -/
theorem Abreast.step {s s' : Session σ} {turn : Turn σ} {settled : Prop} (others : ∀ e ∈ es, e.number ≠ 0)
    (abreast : s.Abreast es s') (seen : settled → s.SeenAlike es s') (stepped : s.step = some turn) :
    (s.Inert es ∧ turn.session.Abreast es s' ∧ (settled → turn.session.SeenAlike es s')) ∨
      ∃ turn', s'.step = some turn' ∧ turn.session.Abreast es turn'.session ∧
        (settled → turn.session.SeenAlike es turn'.session) ∧ s.SameStep es settled s' := by
  obtain ⟨task, rest, pending, rfl⟩ := outcome_of_step stepped
  have todo := abreast.todo
  rw [pending] at todo
  generalize plan : s'.todo = todo' at todo
  -- What is left to do says whether the second session makes the step as well.
  cases todo with
  | @leave _ _ _ inert skips =>
    cases task with
    | call op =>
      subst plan
      exact Or.inl ⟨⟨op, rest, pending, inert⟩, abreast.alone others inert skips,
        fun settled => (seen settled).alone others pending inert⟩
    | _ => exact absurd inert not_false
  | @keep _ task' _ later same skips =>
    subst same
    have popped : { s with todo := rest }.Abreast es { s' with todo := later } := { abreast with todo := skips }
    have stepped' := step_eq_outcome plan
    have other (quiet : ¬ s.AsksAfter es) (op : Op) (call : task = .call op) : ¬ op.AsksAfter es :=
      fun asks => quiet ⟨op, rest, call ▸ pending, asks⟩
    refine Or.inr ⟨_, stepped', popped.outcome others task,
      fun settled => (seen settled).outcome pending others popped, ?_⟩
    refine ⟨by rw [plan, pending]; rfl, abreast.controller, ⟨_, _, stepped, stepped', popped.acted others task⟩,
      ?_, ?_, ?_⟩
    · rw [notices_of_step stepped, notices_of_step stepped', outcome_notices, outcome_notices, popped.told others]
    · intro quiet
      rw [marks_of_step stepped, marks_of_step stepped', Mark.bare_eq_through]
      exact popped.marks others (other quiet) rfl
    · intro settled quiet
      have changes := (seen settled).shown.changes (popped.acted others task)
      rw [marks_of_step stepped, marks_of_step stepped']
      exact popped.marks others (other quiet) (congrArg (Closing.mk []) changes)

/-- However far the first session goes, the second goes along. -/
theorem Abreast.reach {s s' t : Session σ} {past : List (Session σ)} {settled : Prop}
    (others : ∀ e ∈ es, e.number ≠ 0) (abreast : s.Abreast es s') (seen : settled → s.SeenAlike es s')
    (reach : s.Reach past t) :
    ∃ past' t', s'.Reach past' t' ∧ t.Abreast es t' ∧ (settled → t.SeenAlike es t') ∧
      Skipping (Inert es) (SameStep es settled) past past' := by
  induction reach with
  | start => exact ⟨[], s', .start, abreast, seen, .done⟩
  | @next before last turn previous stepped ih =>
    obtain ⟨past', t', reach', near, alike, skipping⟩ := ih
    rcases near.step others alike stepped with ⟨inert, nearby, seen⟩ | ⟨turn', stepped', nearby, seen, same⟩
    · exact ⟨past', t', reach', nearby, seen, by simpa using skipping.append (.leave inert .done)⟩
    · exact ⟨past' ++ [t'], turn'.session, reach'.next stepped', nearby, seen, skipping.append (.keep same .done)⟩

/-- `s'` is `s` without some of the inert operations, its own and those of its clients. -/
structure Sparing (es : List Endpoint) (s s' : Session σ) : Prop where
  rest : s' = { s with todo := s'.todo, clients := s'.clients }
  clients : ∀ i, (s.clients.getD i {}).Sparing es (s'.clients.getD i {})
  todo : Skipping (Task.Inert es) Eq s.todo s'.todo

omit [Sink σ] in
theorem Sparing.abreast {s s' : Session σ} (sparing : s.Sparing es s') : s.Abreast es s' := by
  obtain ⟨rest, clients, todo⟩ := sparing
  refine ⟨by rw [rest], by rw [rest], by rw [rest], ?_, clients, todo⟩
  rw [rest]
  exact .refl _

omit [Sink σ] in
theorem Sparing.seen {s s' : Session σ} (sparing : s.Sparing es s') (settled : s.shown = s.controller) :
    s.SeenAlike es s' := by
  refine ⟨?_, fun _ => settled⟩
  rw [sparing.rest]
  exact .refl _

theorem notices_of_inert {s : Session σ} (inert : s.Inert es) : s.notices = [] := by
  obtain ⟨op, rest, pending, inert⟩ := inert
  rw [notices_of_step (step_eq_outcome pending), outcome_notices, told_of_plain _ (Op.asks_of_inert inert)]
  rfl

/-- Operations on other endpoints than endpoint 0, and those that do nothing, can be left out of any session. Each step
that stays is the same, and so is the end. Only what is printed differs, and how the transfers stand of the endpoints in
question. -/
theorem inert_endpoints_apart (others : ∀ e ∈ es, e.number ≠ 0) {s s' : Session σ} (sparing : s.Sparing es s') :
    Skipping (Inert es) (SameStep es (s.shown = s.controller)) s.history s'.history ∧
      s'.history.flatMap notices = s.history.flatMap notices ∧
      s.run.session.Abreast es s'.run.session := by
  obtain ⟨past', t', reach', near, _, skipping⟩ := sparing.abreast.reach others sparing.seen s.reach_run
  have done : t'.todo = [] := by
    have todo := near.todo
    rw [todo_run] at todo
    generalize t'.todo = left at todo
    cases todo
    rfl
  obtain ⟨rfl, rfl⟩ := reach'.finished done
  exact ⟨skipping, skipping.flatMap (fun _ => notices_of_inert) fun _ _ same => same.notices, near⟩

/-- Transfers are queued on endpoint 1 by the firmware and by the client, in between what is done on endpoint 0. -/
theorem inert_endpoints_apart_of_bus_reset :
    let es : List Endpoint := [⟨1, .toDevice⟩, ⟨1, .toHost⟩]
    let answer : List Op := [.setDeviceAddress 5, .queueTransfer (.address 0x80) (some { buffer := 0 })]
    let whole : Session MeteredSink :=
      Session.plan
        { output := { sink := {} }
          buffers := [[1, 2, 3]]
          clients := [{ onBusReset := [.queueTransfer (.address 0x01) none :: .debugState :: answer] }] }
        [.setClient 0, .openEndpoint (.address 0x81) .bulk 64 0, .queueTransfer (.address 0x81) (some { buffer := 0 }),
          .handleInterrupt (some 0x16), .stall (.address 0x80), .handleInterrupt (some 0x12),
          .transferProgress (.address 0x80), .transferProgress (.address 0x81)]
    let spared : Session MeteredSink :=
      Session.plan { whole with clients := [{ onBusReset := [answer] }] }
        [.setClient 0, .handleInterrupt (some 0x16), .handleInterrupt (some 0x12), .transferProgress (.address 0x80),
          .transferProgress (.address 0x81)]
    whole.Sparing es spared ∧
      Skipping (Inert es) (SameStep es (whole.shown = whole.controller)) whole.history spared.history ∧
      whole.history.length = 17 ∧ spared.history.length = 12 ∧
      spared.run.session.controller.registers = whole.run.session.controller.registers ∧
      (whole.run.session.controller.slots.get ⟨1, .toHost⟩).state = .armed ∧
      (spared.run.session.controller.slots.get ⟨1, .toHost⟩).state = .idle := by
  intro es answer whole spared
  have others : ∀ e ∈ es, e.number ≠ 0 := by decide
  have answers : ∀ i, (whole.clients.getD i {}).Sparing es (spared.clients.getD i {}) := by
    intro i notice n
    rcases i with _ | i
    · cases notice with
      | busReset =>
        rcases n with _ | n
        · exact .leave ⟨⟨1, .toDevice⟩, by decide, rfl⟩ (.leave trivial (.refl answer))
        · exact .refl _
      | _ => exact .refl _
    · exact .refl _
  have sparing : whole.Sparing es spared :=
    { rest := rfl
      clients := answers
      todo := .keep rfl (.leave trivial (.leave ⟨⟨1, .toHost⟩, by decide, rfl⟩
        (.keep rfl (.leave trivial (.keep rfl (.keep rfl (.keep rfl .done))))))) }
  obtain ⟨skipping, _, ⟨_, _, _, ⟨_, same, _⟩, _, _⟩⟩ := inert_endpoints_apart others sparing
  have ends (s : Session MeteredSink) : s.run.session = s.after s.weight := (run_eq_after s _ (Nat.le_refl _)).1
  refine ⟨sparing, skipping, by decide +kernel, by decide +kernel, by rw [same], ?_, ?_⟩
  · rw [ends]
    decide +kernel
  · rw [ends]
    decide +kernel

end Session

end UsbDevice
