import UsbDevice.Debug.MeteredSink
import UsbDevice.Proofs.OmittedCalls
import UsbDevice.Proofs.RegisterFrame
import UsbDevice.Proofs.RunHistory

namespace UsbDevice

/-- A word is put together from its two bytes. -/
theorem Word.setByte_bytes (w v : Word) : (w.setByte 0 (v.byte 0)).setByte 1 (v.byte 1) = v := by
  apply BitVec.eq_of_getLsbD_eq
  intro i bounded
  have ones : ∀ j < 16, (0xff : Word).getLsbD j = decide (j < 8) := by decide
  have here := ones i bounded
  have above := ones (i - 8) (by omega)
  simp only [setByte, byte, BitVec.getLsbD_or, BitVec.getLsbD_and, BitVec.getLsbD_not, BitVec.getLsbD_shiftLeft,
    BitVec.getLsbD_setWidth, BitVec.getLsbD_extractLsb', Nat.mul_zero, Nat.mul_one, Nat.sub_zero, Nat.zero_add, here,
    above]
  by_cases low : i < 8
  · simp [low, bounded]
  · simp [low, bounded, show i - 8 < 8 by omega, show i - 8 < 16 by omega, show 8 + (i - 8) = i by omega]

theorem Registers.pokeRegister_vecint (regs : Registers) (vector : Word) :
    regs.pokeRegister .vecint [vector.byte 0, vector.byte 1] = { regs with vecint := vector } := by
  have written : regs.pokeRegister .vecint [vector.byte 0, vector.byte 1]
      = { regs with vecint := (regs.vecint.setByte 0 (vector.byte 0)).setByte 1 (vector.byte 1) } := rfl
  rw [written, Word.setByte_bytes]

/-- No operation returns a fault at once. -/
theorem Op.fault_of_answer (c : Controller) (buffers : Buffers) (guards : List Bool) (op : Op) :
    (op.answer c buffers guards).fault? = none := by
  cases op with
  | queueTransfer e region =>
    simp only [answer]
    cases e.resolve with
    | error => rfl
    | ok e =>
      simp only
      split <;> rfl
  | unmask guard =>
    simp only [answer]
    split <;> rfl
  | openEndpoint e => simp only [answer]; cases e.resolve <;> rfl
  | stall e => simp only [answer]; cases e.resolve <;> rfl
  | clearStall e => simp only [answer]; cases e.resolve <;> rfl
  | transferProgress e => simp only [answer]; cases e.resolve <;> rfl
  | _ => rfl

theorem Controller.changes_self (c : Controller) : c.changes c = [] := by
  simp [changes]

/-- The fault that the mark returns. -/
def Mark.fault? : Mark → Option Fault
  | answer given _ => given.fault?
  | _ => none

namespace Session

variable {σ : Type} [Sink σ]

/-- The next step returns a fault. -/
def Fails (s : Session σ) : Prop := ∃ answer closing, .answer answer closing ∈ s.marks ∧ answer.fault?.isSome

theorem fails_iff {s : Session σ} : s.Fails ↔ ∃ mark ∈ s.marks, mark.fault?.isSome := by
  constructor
  · rintro ⟨answer, closing, shown, failed⟩
    exact ⟨_, shown, failed⟩
  · rintro ⟨mark, shown, failed⟩
    cases mark with
    | answer answer closing => exact ⟨answer, closing, shown, failed⟩
    | _ => cases failed

instance (s : Session σ) : Decidable s.Fails := decidable_of_iff _ fails_iff.symm

/-- Nothing has been printed and nothing has changed since the last look. -/
def Settled (s : Session σ) : Prop := s.output.stored = [] ∧ s.shown = s.controller

/-- A driver that returns a fault has stopped, and one that has stopped has shown everything before it is called. -/
structure Latched (s : Session σ) : Prop where
  faults : ∀ caller fault, .conclude caller (.error fault) ∈ s.todo → s.controller.halted
  settled : s.controller.halted → s.Settled ∨ ∃ caller result rest, s.todo = .conclude caller result :: rest

theorem answer_of_outcome {s : Session σ} {task : Task} {answer : Answer} {closing : Closing}
    (answered : .answer answer closing ∈ (s.outcome task).marks) :
    task.answer? s.controller s.buffers s.guards = some answer := by
  have place : .answer answer closing ∉ task.place := by cases task <;> simp [Task.place]
  simp only [outcome, List.mem_append, place, false_or, Option.mem_toList, Option.map_eq_some_iff] at answered
  rcases answered with ⟨_, _, notice⟩ | ⟨given, shown, same⟩
  · cases notice
  · obtain ⟨rfl, _⟩ := Mark.answer.inj same
    exact shown

/-- Faults come from interrupts that end. -/
theorem conclude_of_fault {s : Session σ} {answer : Answer} {closing : Closing} {fault : Fault}
    (shown : .answer answer closing ∈ s.marks) (failed : answer.fault? = some fault) :
    ∃ caller rest, s.todo = .conclude caller (.error fault) :: rest := by
  unfold marks at shown
  split at shown
  · next turn stepped =>
    obtain ⟨task, todo, pending, rfl⟩ := outcome_of_step stepped
    have answered := answer_of_outcome shown
    cases task with
    | call op =>
      simp only [Task.answer?] at answered
      split at answered
      · obtain rfl := Option.some.inj answered
        simp [Op.fault_of_answer] at failed
      · cases answered
    | dispatch caller => cases answered
    | endNotice => cases answered
    | conclude caller result =>
      obtain rfl := Option.some.inj answered
      cases result with
      | ok => cases caller <;> cases failed
      | error error => cases caller <;> cases failed <;> exact ⟨_, todo, pending⟩
  · simp at shown

theorem conclude_of_fails {s : Session σ} (fails : s.Fails) :
    ∃ caller fault rest, s.todo = .conclude caller (.error fault) :: rest := by
  obtain ⟨answer, closing, shown, failed⟩ := fails
  obtain ⟨fault, failed⟩ := Option.isSome_iff_exists.mp failed
  obtain ⟨caller, rest, pending⟩ := conclude_of_fault shown failed
  exact ⟨caller, fault, rest, pending⟩

/-! What a driver that has stopped does. -/

theorem halted_step {s : Session σ} {turn : Turn σ} (stepped : s.step = some turn) (halted : s.controller.halted) :
    turn.session.controller.halted := by
  rw [step_controller stepped]
  exact s.controller.halted_act s.buffers s.action halted

theorem Reach.halted {s t : Session σ} {past : List (Session σ)} (reach : s.Reach past t)
    (halted : s.controller.halted) : t.controller.halted :=
  reach.keeps (P := fun s => s.controller.halted) (Q := fun _ => True) (fun _ _ stepped _ => halted_step stepped)
    (fun _ _ => trivial) halted

/-- A look shows everything. -/
theorem settled_of_looks {s : Session σ} {task : Task} (looks : s.looks task = true) :
    (s.outcome task).session.Settled := by
  simp only [outcome, looks, if_true]
  exact ⟨rfl, rfl⟩

theorem Latched.step {s : Session σ} {turn : Turn σ} (latched : s.Latched) (stepped : s.step = some turn) :
    turn.session.Latched := by
  have still := halted_step stepped
  obtain ⟨task, todo, pending, rfl⟩ := outcome_of_step stepped
  constructor
  · intro caller fault returned
    rcases List.mem_append.mp returned with reply | later
    · cases told : ({ s with todo } : Session σ).told? task <;> simp [told, Client.replies] at reply
    · rcases List.mem_append.mp later with new | old
      · exact { s with todo }.resumes_of_resumed task _ new
      · exact still (latched.faults caller fault (pending ▸ List.mem_cons_of_mem _ old))
  · intro halted
    cases looks : ({ s with todo } : Session σ).looks task with
    | true => exact Or.inl (settled_of_looks looks)
    | false =>
      obtain ⟨untold, unanswered⟩ := Bool.or_eq_false_iff.mp looks
      have silent := Option.not_isSome_iff_eq_none.mp (Bool.eq_false_iff.mp untold)
      cases task with
      | call op =>
        cases asks : op.asks? with
        | none => simp [Task.answer?, asks] at unanswered
        | some asked =>
          obtain ⟨caller, vector⟩ := asked
          have acts : (Task.call op).action s.controller s.buffers s.guards = .interrupt vector :=
            Op.action_of_asks asks _ _
          have before : s.controller.halted = true := by
            rwa [← s.controller.act_halted s.buffers (a := .interrupt vector) (by simp), ← acts]
          refine Or.inr ⟨caller, .error .halted, todo, ?_⟩
          simp only [outcome, silent, Client.replies, Task.resumed, asks, before, if_true]
          rfl
      | dispatch caller =>
        refine Or.inr ⟨caller, s.controller.verdict, todo, ?_⟩
        simp only [outcome, silent]
        rfl
      | endNotice =>
        rcases latched.settled halted with settled | ⟨caller, result, rest, ends⟩
        · exact Or.inl settled
        · cases pending.symm.trans ends
      | conclude => cases unanswered

omit [Sink σ] in
theorem Latched.settled_of_call {s : Session σ} (latched : s.Latched) (halted : s.controller.halted) {op : Op}
    {rest : List Task} (pending : s.todo = .call op :: rest) : s.Settled := by
  rcases latched.settled halted with settled | ⟨_, _, _, ends⟩
  · exact settled
  · cases pending.symm.trans ends

omit [Sink σ] in
/-- A session that has only operations to make returns no fault yet. -/
theorem latched_of_planned {s : Session σ} {ops : List Op} (running : s.controller.halted = false)
    (planned : s.todo = ops.map .call) : s.Latched := by
  refine ⟨fun caller fault returned => ?_, fun halted => absurd halted (by simp [running])⟩
  simp [planned] at returned

omit [Sink σ] in
theorem Fresh.latched {s : Session σ} (fresh : s.Fresh) : s.Latched := by
  obtain ⟨controller, _, ops, planned⟩ := fresh
  exact latched_of_planned (by rw [controller]) planned

theorem Reach.latched {s t : Session σ} {past : List (Session σ)} (reach : s.Reach past t) (latched : s.Latched) :
    t.Latched :=
  reach.keeps (P := Latched) (Q := fun _ => True) (fun _ _ stepped _ latched => latched.step stepped)
    (fun _ _ => trivial) latched

omit [Sink σ] in
theorem Settled.emptied {s : Session σ} (settled : s.Settled) : s.output.emptied = s.output := by
  unfold Output.emptied
  rw [← settled.1]

/-- The session once a call has been refused, with the refusal to be returned. -/
def refusing (s : Session σ) (caller : Caller) (vector : Option Word) (rest : List Task) : Session σ :=
  { s.raise vector with todo := .conclude caller (.error .halted) :: rest }

/-- The session with the vector written, once that has been seen. -/
def raised (s : Session σ) (vector : Option Word) (rest : List Task) : Session σ :=
  { s.raise vector with todo := rest, shown := s.controller.raise vector }

/-- A call of a driver that has stopped is refused at once. -/
theorem step_of_halted {s : Session σ} {op : Op} {rest : List Task} {caller : Caller} {vector : Option Word}
    (halted : s.controller.halted) (pending : s.todo = .call op :: rest) (asks : op.asks? = some (caller, vector)) :
    s.step = some { session := s.refusing caller vector rest, marks := [.call op] } := by
  rw [step_of_todo pending]
  have still : (s.controller.raise vector).halted = true := by cases vector <;> exact halted
  simp only [work, call_of_asks _ asks, raise_eq, interrupt, still, if_true, refusing]

/-- All that is seen of the call is the vector. -/
theorem step_refusing {s : Session σ} (settled : s.Settled) (vector : Option Word) (rest : List Task) :
    (s.refusing .driver vector rest).step = some
      { session := s.raised vector rest
        marks := [.answer (.fault .halted) ⟨[], s.controller.changes (s.controller.raise vector)⟩] } := by
  obtain ⟨output, shown, controller⟩ : (s.refusing .driver vector rest).output = s.output ∧
      (s.refusing .driver vector rest).shown = s.shown ∧
      (s.refusing .driver vector rest).controller = s.controller.raise vector := by
    cases vector <;> exact ⟨rfl, rfl, rfl⟩
  rw [step_of_todo rfl]
  simp only [work, answer, looked, closing, Caller.report, say, Output.printAll, List.foldl_nil, output, shown,
    controller, settled.1, settled.2, settled.emptied]
  cases vector <;> rfl

/-- The hardware can write the vector without a call. -/
theorem step_of_vectorWrite {s : Session σ} (settled : s.Settled) (vector : Word) (rest : List Task) :
    { s with todo := .call (.pokeRegister .vecint [vector.byte 0, vector.byte 1]) :: rest }.step = some
      { session := s.raised (some vector) rest
        marks := [.call (.pokeRegister .vecint [vector.byte 0, vector.byte 1]),
          .answer .done ⟨[], s.controller.changes (s.controller.raise (some vector))⟩] } := by
  rw [step_of_todo rfl]
  simp only [work, call, withRegisters, Registers.pokeRegister_vecint, answer, looked, closing, settled.1, settled.2,
    settled.emptied]
  rfl

/-- The next step begins an interrupt call that is refused. -/
def Refuses (s : Session σ) : Prop :=
  s.controller.halted ∧ ∃ vector rest, s.todo = .call (.handleInterrupt vector) :: rest

/-- The second run makes the steps of the first but for the refused calls that begin at `left`, of which only the write
of the vector stays. A step that stays does and shows the same. What is left out has shown nothing, or what the write
shows. -/
inductive StepsWithout (left : Session σ → Prop) : List (Session σ) → List (Session σ) → Prop
  | done : StepsWithout left [] []
  | keep {p p' past past'} : ¬ left p → p.WithoutCalls p' → p'.todo.head? = p.todo.head? → p'.marks = p.marks →
    StepsWithout left past past' → StepsWithout left (p :: past) (p' :: past')
  | leave {p returning past past'} : left p → p.marks = [.call (.handleInterrupt none)] →
    returning.marks = [.answer (.fault .halted) ⟨[], []⟩] →
    StepsWithout left past past' → StepsWithout left (p :: returning :: past) past'
  | write {p returning write past past'} (vector : Word) (closing : Closing) : left p →
    p.marks = [.call (.handleInterrupt (some vector))] → returning.marks = [.answer (.fault .halted) closing] →
    write.marks = [.call (.pokeRegister .vecint [vector.byte 0, vector.byte 1]), .answer .done closing] →
    StepsWithout left past past' → StepsWithout left (p :: returning :: past) (write :: past')

/-- A refused call can be left out before what is left out later. -/
theorem StepsWithout.exists_left {left : Session σ → Prop} {p s' t : Session σ} {past past' : List (Session σ)}
    {vector : Option Word} {rest : List Task} (steps : StepsWithout left past past') (leaves : left p)
    (halted : p.controller.halted) (settled : p.Settled) (pending : p.todo = .call (.handleInterrupt vector) :: rest)
    (without : (p.raised vector rest).WithoutCalls s') (reach : s'.Reach past' t) :
    ∃ p' steps', p.WithoutCalls p' ∧ p'.Reach steps' t ∧
      StepsWithout left (p :: p.refusing .driver vector rest :: past) steps' := by
  have begun := marks_of_step (step_of_halted halted pending rfl)
  have ended := marks_of_step (step_refusing settled vector rest)
  obtain ⟨same, plan, length, clients⟩ := without
  cases vector with
  | none =>
    -- Nothing has happened, and there is nothing to be seen that has not been seen before.
    have shown := congrArg (fun shown => { p with shown, todo := s'.todo, clients := s'.clients }) settled.2.symm
    rw [show p.controller.changes (p.controller.raise none) = [] from p.controller.changes_self] at ended
    exact ⟨s', past', ⟨same.trans shown, pending ▸ .leave none plan, length, clients⟩, reach,
      .leave leaves begun ended steps⟩
  | some vector =>
    let write : Session σ := { p with
      todo := .call (.pokeRegister .vecint [vector.byte 0, vector.byte 1]) :: s'.todo
      clients := s'.clients }
    have written := step_of_vectorWrite (s := { p with clients := s'.clients }) settled vector s'.todo
    rw [same] at reach
    exact ⟨write, write :: past', ⟨rfl, pending ▸ .leave (some vector) plan, length, clients⟩, .cons written reach,
      .write vector _ leaves begun ended (marks_of_step written) steps⟩

/-- Refused calls can be left out of a run. -/
theorem exists_without (left : Session σ → Prop) {s t : Session σ} {past : List (Session σ)} (latched : s.Latched)
    (reach : s.Reach past t) (done : t.todo = []) (refused : ∀ p ∈ past, left p → p.Refuses) :
    ∃ s' past', s.WithoutCalls s' ∧ s'.Reach past' t ∧ StepsWithout left past past' := by
  -- A refused call takes two steps, so the induction is on the length of the run.
  induction length : past.length using Nat.strongRecOn generalizing s past with
  | ind n ih =>
    subst length
    cases past with
    | nil =>
      obtain rfl := reach.of_nil
      exact ⟨t, [], .refl t, .start, .done⟩
    | cons p past =>
      obtain ⟨rfl, turn, stepped, after⟩ := reach.of_cons
      by_cases leaves : left p
      · obtain ⟨halted, vector, rest, pending⟩ := refused p List.mem_cons_self leaves
        have settled := latched.settled_of_call halted pending
        have begun := step_of_halted halted pending rfl
        have ended := step_refusing settled vector rest
        obtain rfl := Option.some.inj (begun.symm.trans stepped)
        cases past with
        | nil =>
          obtain rfl := after.of_nil
          cases done
        | cons returning past =>
          obtain ⟨rfl, turn, returned, later⟩ := after.of_cons
          obtain rfl := Option.some.inj (ended.symm.trans returned)
          obtain ⟨s', past', without, reach', steps⟩ := ih past.length (by simp only [List.length_cons]; omega)
            ((latched.step begun).step ended) later (fun p member => refused p (by simp [member])) rfl
          exact steps.exists_left leaves halted settled pending without reach'
      · obtain ⟨next', past', without, reach', steps⟩ := ih past.length (by simp only [List.length_cons]; omega)
          (latched.step stepped) after (fun p member => refused p (List.mem_cons_of_mem _ member)) rfl
        obtain ⟨s', same, stepped', head⟩ := without.step_back stepped
        exact ⟨s', s' :: past', same, .cons stepped' reach',
          .keep leaves same head ((marks_of_step stepped').trans (marks_of_step stepped).symm) steps⟩

/-- Once a fault has been returned, the driver has stopped for good. It refuses its interrupt, of which nothing is left
but the vector that has been written, and whoever does not ask for it sees the same. -/
theorem halt_latch {start t : Session σ} {past : List (Session σ)} (fresh : start.Fresh) (reach : start.Reach past t) :
    ((∃ p ∈ past, p.controller.halted ∨ p.Fails) → t.controller.halted) ∧
      (t.controller.halted → ∀ op rest caller vector, t.todo = .call op :: rest → op.asks? = some (caller, vector) →
        t.step = some { session := t.refusing caller vector rest, marks := [.call op] } ∧
          (t.refusing .driver vector rest).step = some
            { session := t.raised vector rest
              marks := [.answer (.fault .halted) ⟨[], t.controller.changes (t.controller.raise vector)⟩] }) ∧
      (t.todo = [] → ∀ left : Session σ → Prop, (∀ p ∈ past, left p → p.Refuses) →
        ∃ s' past', start.WithoutCalls s' ∧ s'.Reach past' t ∧ StepsWithout left past past') := by
  have latched := reach.latched fresh.latched
  refine ⟨?_, fun halted op rest caller vector pending asks => ?_, fun done left refused => ?_⟩
  · rintro ⟨p, member, stops⟩
    obtain ⟨before, later, rfl⟩ := List.append_of_mem member
    obtain ⟨turn, first, stepped, rest⟩ := reach.at_point
    have halted : p.controller.halted := by
      rcases stops with halted | fails
      · exact halted
      · obtain ⟨caller, fault, todo, pending⟩ := conclude_of_fails fails
        exact (first.latched fresh.latched).faults caller fault (pending ▸ List.mem_cons_self)
    exact rest.halted (halted_step stepped halted)
  · exact ⟨step_of_halted halted pending asks, step_refusing (latched.settled_of_call halted pending) vector rest⟩
  · exact exists_without left fresh.latched reach done refused

/-- A vector that is no source stops the driver. The later calls can all be left out, though a SETUP packet is
pending. -/
theorem halt_latch_of_invalid_vector :
    let start : Session MeteredSink :=
      Session.plan { output := { sink := {} } }
        [.setClient 0, .handleInterrupt (some 0x0e), .pokeRegister .ifg [0x40], .handleInterrupt (some 0x16), .bringUp,
          .handleInterrupt none]
    (start.after 10).controller.halted ∧
      ∃ s' past', start.WithoutCalls s' ∧ s'.Reach past' (start.after 10) ∧
        StepsWithout Refuses (start.path 10) past' := by
  intro start
  have fresh : start.Fresh := ⟨rfl, rfl, _, rfl⟩
  have returning : start.after 3 ∈ start.path 10 := List.mem_of_getElem? (getElem?_path (by decide +kernel))
  have done : (start.after 10).todo = [] := List.isEmpty_iff.mp (by decide +kernel)
  obtain ⟨halts, _, without⟩ := halt_latch fresh (start.reach_after 10)
  exact ⟨halts ⟨_, returning, Or.inl (by decide +kernel)⟩, without done Refuses fun _ _ refused => refused⟩

end Session

end UsbDevice
