import UsbDevice.Proofs.PlanFrame

namespace UsbDevice

/-- What writes the vector register as the interrupt call does. -/
def Op.vectorWrites : Option Word → List Op
  | some vector => [.pokeRegister .vecint [vector.byte 0, vector.byte 1]]
  | none => []

/-- The second list is the first without some of the interrupt calls. The writes of the vector stay. -/
inductive Task.WithoutCalls : List Task → List Task → Prop
  | done : WithoutCalls [] []
  | keep {todo todo'} (task : Task) : WithoutCalls todo todo' → WithoutCalls (task :: todo) (task :: todo')
  | leave {todo todo'} (vector : Option Word) : WithoutCalls todo todo' →
    WithoutCalls (.call (.handleInterrupt vector) :: todo) ((Op.vectorWrites vector).map .call ++ todo')

namespace Task.WithoutCalls

theorem refl (todo : List Task) : WithoutCalls todo todo := by
  induction todo with
  | nil => exact .done
  | cons task todo ih => exact .keep task ih

theorem split {first rest whole : List Task} (without : WithoutCalls (first ++ rest) whole) :
    ∃ first' rest', whole = first' ++ rest' ∧ WithoutCalls first first' ∧ WithoutCalls rest rest' := by
  induction first generalizing whole with
  | nil => exact ⟨[], whole, rfl, .done, without⟩
  | cons task first ih =>
    cases without with
    | keep _ without =>
      obtain ⟨first', rest', rfl, left, right⟩ := ih without
      exact ⟨task :: first', rest', rfl, .keep task left, right⟩
    | leave vector without =>
      obtain ⟨first', rest', rfl, left, right⟩ := ih without
      exact ⟨(Op.vectorWrites vector).map .call ++ first', rest', by rw [List.append_assoc], .leave vector left, right⟩

/-- Where there are no calls, none is left out. -/
theorem eq_of_resumes {c : Controller} {todo todo' : List Task} (without : WithoutCalls todo todo')
    (resumes : ∀ task ∈ todo, task.Resumes c) : todo' = todo := by
  induction without with
  | done => rfl
  | keep task _ ih => rw [ih fun later member => resumes later (List.mem_cons_of_mem _ member)]
  | leave vector => exact absurd (resumes _ List.mem_cons_self) not_false

/-- A list of operations stays one. -/
theorem exists_calls {ops : List Op} {todo' : List Task} (without : WithoutCalls (ops.map .call) todo') :
    ∃ ops' : List Op, todo' = ops'.map .call := by
  induction ops generalizing todo' with
  | nil =>
    cases without
    exact ⟨[], rfl⟩
  | cons op ops ih =>
    cases without with
    | keep _ without =>
      obtain ⟨ops', rfl⟩ := ih without
      exact ⟨op :: ops', rfl⟩
    | leave vector without =>
      obtain ⟨ops', rfl⟩ := ih without
      exact ⟨Op.vectorWrites vector ++ ops', by rw [List.map_append]⟩

end Task.WithoutCalls

namespace Client

/-- The client that answers the next notice of this kind with `ops`, and then goes on as `c`. -/
def expecting (c : Client) (ops : List Op) : Notice → Client
  | .busReset => { c with onBusReset := ops :: c.onBusReset }
  | .setupReceived _ => { c with onSetupReceived := ops :: c.onSetupReceived }
  | .transferComplete .. => { c with onTransferComplete := ops :: c.onTransferComplete }

theorem reaction_expecting (c : Client) (ops : List Op) (notice : Notice) :
    (c.expecting ops notice).reaction notice = ops := by
  cases notice <;> rfl

theorem reacting_expecting (c : Client) (ops : List Op) (notice : Notice) :
    (c.expecting ops notice).reacting notice = c := by
  cases notice <;> rfl

/-- The second client does at each notice what the first one does, without some of its interrupt calls. -/
def WithoutCalls (c c' : Client) : Prop :=
  ∀ notice n, Task.WithoutCalls (((c.plans notice).getD n []).map .call) (((c'.plans notice).getD n []).map .call)

theorem WithoutCalls.refl (c : Client) : c.WithoutCalls c := fun _ _ => .refl _

theorem WithoutCalls.cons {plans plans' : List (List Op)} {ops : List Op}
    (now : Task.WithoutCalls ((plans.headD []).map .call) (ops.map .call))
    (later : ∀ n, Task.WithoutCalls ((plans.tail.getD n []).map .call) ((plans'.getD n []).map .call)) (n : Nat) :
    Task.WithoutCalls ((plans.getD n []).map .call) (((ops :: plans').getD n []).map .call) := by
  cases n with
  | zero => cases plans <;> exact now
  | succ n => cases plans <;> exact later n

theorem WithoutCalls.expecting {c c' : Client} {ops : List Op} {notice : Notice}
    (later : (c.reacting notice).WithoutCalls c')
    (now : Task.WithoutCalls ((c.reaction notice).map .call) (ops.map .call)) :
    c.WithoutCalls (c'.expecting ops notice) := by
  intro other
  have rest := later other
  cases notice <;> cases other <;> first | exact rest | exact cons now rest

end Client

namespace Session

variable {σ : Type} [Sink σ]

/-- The sessions differ in their plans alone, and those of the second are without some of the interrupt calls. -/
structure WithoutCalls (s s' : Session σ) : Prop where
  rest : s' = { s with todo := s'.todo, clients := s'.clients }
  todo : Task.WithoutCalls s.todo s'.todo
  length : s'.clients.length = s.clients.length
  clients : ∀ i, (s.clients.getD i {}).WithoutCalls (s'.clients.getD i {})

omit [Sink σ] in
theorem WithoutCalls.refl (s : Session σ) : s.WithoutCalls s := ⟨rfl, .refl _, rfl, fun _ => .refl _⟩

theorem set_getD_client (clients : List Client) {i : Nat} (inside : i < clients.length) :
    clients.set i (clients.getD i {}) = clients := by
  rw [List.getD_eq_getElem?_getD, List.getElem?_eq_getElem inside, Option.getD_some, List.set_getElem_self]

/-- What is left of the plans after a reply goes back to plans that reply so. -/
theorem exists_replied {clients clients' : List Client} {told : Option (Nat × Notice)} {todo : List Task}
    (length : clients'.length = (Client.replied clients told).length)
    (later : ∀ i, ((Client.replied clients told).getD i {}).WithoutCalls (clients'.getD i {}))
    (now : Task.WithoutCalls (Client.replies clients told) todo) :
    ∃ before, before.length = clients.length ∧ (∀ i, (clients.getD i {}).WithoutCalls (before.getD i {})) ∧
      Client.replies before told = todo ∧ Client.replied before told = clients' := by
  cases told with
  | none =>
    cases now
    exact ⟨clients', length, later, rfl, rfl⟩
  | some told =>
    obtain ⟨i, notice⟩ := told
    obtain ⟨calls, ending, rfl, reply, ends⟩ := now.split
    obtain rfl := ends.eq_of_resumes (c := {}) (by simp [Task.Resumes])
    obtain ⟨ops, rfl⟩ := reply.exists_calls
    have same : clients'.length = clients.length := length.trans List.length_set
    have set (clients : List Client) (inside : i < clients.length) {c : Client} (j : Nat) :
        (clients.set i c).getD j {} = if i = j then c else clients.getD j {} :=
      Client.getD_set clients (fun outside => absurd inside (Nat.not_lt.mpr outside)) j
    by_cases inside : i < clients.length
    · have inside' : i < clients'.length := same.symm ▸ inside
      have first : (clients'.set i ((clients'.getD i {}).expecting ops notice)).getD i {}
          = (clients'.getD i {}).expecting ops notice := by rw [set clients' inside', if_pos rfl]
      refine ⟨clients'.set i ((clients'.getD i {}).expecting ops notice), List.length_set.trans same, fun j => ?_, ?_, ?_⟩
      · have rest := later j
        rw [Client.replied, set clients inside] at rest
        rw [set clients' inside']
        split
        · next here =>
          subst here
          rw [if_pos rfl] at rest
          exact rest.expecting reply
        · next other => rwa [if_neg other] at rest
      · simp only [Client.replies, first, Client.reaction_expecting]
      · simp only [Client.replied, first, Client.reacting_expecting, List.set_set, set_getD_client clients' inside']
    · -- A client that is not there replies nothing.
      have outside : clients.length ≤ i := Nat.le_of_not_lt inside
      have silent : (({} : Client).reaction notice) = [] := by cases notice <;> rfl
      rw [Client.getD_of_le outside, silent] at reply
      have nothing : ops.map Task.call = [] := reply.eq_of_resumes (c := {}) (by simp)
      rw [Client.replied, List.set_eq_of_length_le outside] at later
      have outside' : clients'.length ≤ i := same.symm ▸ outside
      refine ⟨clients', same, later, ?_, ?_⟩
      · rw [Client.replies, Client.getD_of_le outside', silent, nothing]
        rfl
      · rw [Client.replied, List.set_eq_of_length_le outside']

/-- A step is the same without the calls that the plans are without afterwards. -/
theorem WithoutCalls.step_back {s t' : Session σ} {turn : Turn σ} (stepped : s.step = some turn)
    (without : turn.session.WithoutCalls t') :
    ∃ s', s.WithoutCalls s' ∧ s'.step = some { session := t', marks := turn.marks } ∧
      s'.todo.head? = s.todo.head? := by
  obtain ⟨task, todo, pending, rfl⟩ := todo_of_step stepped
  obtain ⟨told, pushed, resumes, frame⟩ := { s with todo }.work_framesPlan task
  have todos : ({ s with todo }.work task).session.todo = Client.replies s.clients told ++ (pushed ++ todo) :=
    congrArg (fun turn : Turn σ => turn.session.todo) (frame todo s.clients)
  have told' : ({ s with todo }.work task).session.clients = Client.replied s.clients told :=
    congrArg (fun turn : Turn σ => turn.session.clients) (frame todo s.clients)
  obtain ⟨rest, plan, length, clients⟩ := without
  rw [todos] at plan
  rw [told'] at length clients
  obtain ⟨replies, resumed, whole, now, later⟩ := plan.split
  obtain ⟨same, todo', rfl, going, later⟩ := later.split
  rw [going.eq_of_resumes resumes] at whole
  obtain ⟨before, sameLength, without, replying, replied⟩ := exists_replied length clients now
  refine ⟨{ s with todo := task :: todo', clients := before }, ⟨rfl, ?_, sameLength, without⟩, ?_, ?_⟩
  · rw [pending]
    exact .keep task later
  · have turn := frame todo' before
    rw [replying, replied, ← whole] at turn
    rw [step_of_todo rfl]
    exact congrArg some (turn.trans (congrArg (Turn.mk · _) rest.symm))
  · rw [pending]
    rfl

end Session

end UsbDevice
