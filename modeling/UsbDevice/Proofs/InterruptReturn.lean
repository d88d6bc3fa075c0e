import UsbDevice.Proofs.HaltLatch

namespace UsbDevice

/-- The task belongs to what a client does when it is told of something. -/
def Task.Replies : Task → Prop
  | call _ | endNotice => True
  | dispatch _ | conclude .. => False

theorem Client.replies_of_mem {clients : List Client} {told : Option (Nat × Notice)} {task : Task}
    (member : task ∈ replies clients told) : task.Replies := by
  cases told with
  | none => cases member
  | some told =>
    rcases List.mem_append.mp member with call | ending
    · obtain ⟨op, _, rfl⟩ := List.mem_map.mp call
      trivial
    · rw [List.mem_singleton.mp ending]
      trivial

namespace Session

variable {σ : Type} [Sink σ]

/-- The next step is an operation that asks for the interrupt, or changes the vector. -/
def Meddles (s : Session σ) : Prop :=
  match s.todo with
  | .call op :: _ =>
    op.asks?.isSome ∨ (s.controller.act s.buffers s.action).registers.vecint ≠ s.controller.registers.vecint
  | _ => False

instance : DecidablePred (Meddles : Session σ → Prop)
  | { todo := .call _ :: _, .. } => inferInstanceAs (Decidable (_ ∨ _))
  | { todo := [], .. } | { todo := .dispatch _ :: _, .. } | { todo := .endNotice :: _, .. }
  | { todo := .conclude .. :: _, .. } => inferInstanceAs (Decidable False)

/-- The interrupt of the caller has begun, and no fault has come of it. What clients have to do comes before the rest of
it. -/
structure Underway (s : Session σ) (caller : Caller) : Prop where
  running : s.controller.halted = false
  todo : ∃ replies last, s.todo = replies ++ [last] ∧ (∀ task ∈ replies, task.Replies) ∧
    (last = .dispatch caller ∧ s.controller.verdict = .ok () ∨ last = .conclude caller (.ok ()))

/-- The interrupt of the caller has returned without a fault. -/
structure Returned (s : Session σ) (caller : Caller) (last : List Mark) : Prop where
  running : s.controller.halted = false
  todo : s.todo = []
  answer : ∃ look, last = [.answer (caller.answer (.ok ())) look]

theorem Underway.not_fails {s : Session σ} {caller : Caller} (underway : s.Underway caller) : ¬ s.Fails := by
  intro fails
  obtain ⟨other, fault, rest, pending⟩ := conclude_of_fails fails
  obtain ⟨_, replies, last, todo, each, ends⟩ := underway
  rw [todo] at pending
  cases replies with
  | nil =>
    obtain rfl := (List.cons.inj pending).1
    rcases ends with ⟨ends, _⟩ | ends <;> cases ends
  | cons first replies =>
    obtain rfl := (List.cons.inj pending).1
    exact each _ List.mem_cons_self

theorem Underway.reply {s : Session σ} {caller : Caller} {first last : Task} {replies todo : List Task}
    (running : s.controller.halted = false) (each : ∀ task ∈ replies, task.Replies)
    (ends : last = .dispatch caller ∧ s.controller.verdict = .ok () ∨ last = .conclude caller (.ok ()))
    (pending : s.todo = first :: todo) (rest : todo = replies ++ [last]) (reply : first.Replies) (quiet : ¬ s.Meddles) :
    ({ s with todo }.outcome first).session.Underway caller := by
  subst rest
  cases first with
  | call op =>
    simp only [Meddles, pending, not_or, Option.not_isSome_iff_eq_none, not_not] at quiet
    obtain ⟨plain, vecint⟩ := quiet
    have acts : s.action = op.action s.buffers s.guards := action_of_todo pending
    rw [acts] at vecint
    have verdict : (s.controller.act s.buffers (op.action s.buffers s.guards)).verdict = s.controller.verdict := by
      simp only [Controller.verdict, vecint]
    obtain ⟨_, _, other⟩ := op.action_ne_served s.buffers s.guards
    have silent := { s with todo := replies ++ [last] }.told_of_plain plain
    refine ⟨(s.controller.act_halted s.buffers other).trans running, replies, last, ?_, each, ?_⟩
    · simp only [outcome, silent, Client.replies, Task.resumed, plain, List.nil_append]
    · simpa only [outcome, Task.action, verdict] using ends
  | endNotice => exact ⟨running, replies, last, rfl, each, ends⟩
  | dispatch => exact absurd reply not_false
  | conclude => exact absurd reply not_false

/-- Nobody meddles with the interrupt: it goes on, or returns. -/
theorem Underway.step {s : Session σ} {turn : Turn σ} {caller : Caller} (underway : s.Underway caller)
    (stepped : s.step = some turn) (quiet : ¬ s.Meddles) :
    turn.session.Underway caller ∨ turn.session.Returned caller s.marks := by
  have acted := step_controller stepped
  have shown := marks_of_step stepped
  obtain ⟨running, replies, last, todo, each, ends⟩ := underway
  cases replies with
  | nil =>
    obtain rfl := Option.some.inj ((step_eq_outcome todo).symm.trans stepped)
    rcases ends with ⟨rfl, verdict⟩ | rfl
    · have serves := Controller.served_ne_halt verdict
      refine Or.inl ⟨?_, _, _, rfl, fun task => Client.replies_of_mem, Or.inr (congrArg _ verdict)⟩
      rw [acted, action_of_todo todo]
      exact (s.controller.act_halted s.buffers serves).trans running
    · exact Or.inr ⟨running, rfl, _, shown⟩
  | cons first replies =>
    obtain rfl := Option.some.inj ((step_eq_outcome todo).symm.trans stepped)
    have rest := fun task member => each task (List.mem_cons_of_mem first member)
    exact Or.inl (Underway.reply running rest ends todo rfl (each first List.mem_cons_self) quiet)

/-- An interrupt that is left alone returns without a fault, and none is returned before. -/
theorem Underway.reach {s t : Session σ} {past : List (Session σ)} {caller : Caller} (underway : s.Underway caller)
    (reach : s.Reach past t) (quiet : ∀ p ∈ past, ¬ p.Meddles) :
    (∀ p ∈ past, ¬ p.Fails) ∧
      (t.Underway caller ∨ ∃ before last, past = before ++ [last] ∧ t.Returned caller last.marks) := by
  induction reach with
  | start => exact ⟨by simp, Or.inl underway⟩
  | @next before last turn previous stepped ih =>
    obtain ⟨faultless, state⟩ := ih fun p member => quiet p (List.mem_append_left _ member)
    rcases state with still | ⟨_, _, _, returned⟩
    · refine ⟨?_, (still.step stepped (quiet last (by simp))).imp_right fun returned => ⟨before, last, rfl, returned⟩⟩
      simpa only [List.mem_append, List.mem_singleton, or_imp, forall_and, forall_eq] using ⟨faultless, still.not_fails⟩
    · cases (step_eq_none_iff last).mpr returned.todo ▸ stepped

/-- The call returns at its end without a fault, and no fault is returned before, nor recorded. -/
structure Succeeds (s : Session σ) (op : Op) (caller : Caller) : Prop where
  answered : ∃ shown look, (s.plan [op]).run.marks = shown ++ [.answer (caller.answer (.ok ())) look]
  faultless : ∀ p ∈ (s.plan [op]).history, ¬ p.Fails
  running : (s.plan [op]).run.session.controller.halted = false

theorem underway_of_call {s : Session σ} {op : Op} {caller : Caller} {vector : Option Word} {turn : Turn σ}
    (asks : op.asks? = some (caller, vector)) (running : s.controller.halted = false)
    (verdict : (s.controller.raise vector).verdict = .ok ()) (stepped : (s.plan [op]).step = some turn) :
    turn.session.Underway caller := by
  have begun : (s.plan [op]).todo = .call op :: [] := rfl
  obtain rfl := Option.some.inj ((step_eq_outcome begun).symm.trans stepped)
  have acts : op.action s.buffers s.guards = .interrupt vector := Op.action_of_asks asks _ _
  have after : s.controller.act s.buffers (.interrupt vector) = (s.controller.raise vector).copySetup := by
    simp only [Controller.act, running, Bool.false_eq_true, if_false]
  have vecint : (s.controller.raise vector).copySetup.registers.vecint = (s.controller.raise vector).registers.vecint := by
    unfold Controller.copySetup
    split <;> rfl
  obtain ⟨_, _, other⟩ := op.action_ne_served s.buffers s.guards
  refine ⟨(s.controller.act_halted s.buffers other).trans running,
    Client.replies s.clients ((s.plan [op]).told? (.call op)), .dispatch caller, ?_,
    fun task => Client.replies_of_mem, Or.inl ⟨rfl, ?_⟩⟩
  · simp only [outcome, plan, Task.resumed, asks, running]
    rfl
  · have same : ({ s.plan [op] with todo := [] }.outcome (.call op)).session.controller
        = s.controller.act s.buffers (op.action s.buffers s.guards) := rfl
    rw [same, acts, after, ← verdict]
    simp only [Controller.verdict, vecint]

theorem succeeds_of_verdict {s : Session σ} {op : Op} {caller : Caller} {vector : Option Word}
    (asks : op.asks? = some (caller, vector)) (running : s.controller.halted = false)
    (verdict : (s.controller.raise vector).verdict = .ok ()) (quiet : ∀ p ∈ (s.plan [op]).history.tail, ¬ p.Meddles) :
    s.Succeeds op caller := by
  have reach := (s.plan [op]).reach_run
  have marks := (run_eq_after (s.plan [op]) _ (Nat.le_refl _)).2
  have done := todo_run (s.plan [op])
  change _ = (s.plan [op]).history.flatMap Session.marks at marks
  cases steps : (s.plan [op]).history with
  | nil =>
    rw [steps] at reach
    rw [reach.of_nil] at done
    cases done
  | cons p past =>
    rw [steps] at reach quiet marks
    obtain ⟨rfl, turn, stepped, rest⟩ := reach.of_cons
    obtain ⟨faultless, state⟩ := (underway_of_call asks running verdict stepped).reach rest quiet
    rcases state with ⟨_, replies, last, todo, _⟩ | ⟨before, last, rfl, ended⟩
    · simp [done] at todo
    · obtain ⟨look, answer⟩ := ended.answer
      refine ⟨⟨(s.plan [op] :: before).flatMap Session.marks, look, ?_⟩, ?_, ended.running⟩
      · rw [marks, ← List.cons_append, List.flatMap_append, List.flatMap_singleton, answer]
      · rw [steps, List.forall_mem_cons]
        refine ⟨fun fails => ?_, faultless⟩
        obtain ⟨_, _, _, pending⟩ := conclude_of_fails fails
        cases pending

end Session

end UsbDevice
