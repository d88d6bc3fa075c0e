import UsbDevice.Proofs.SessionReach

namespace UsbDevice

/-- The task is what an interrupt has left to do, and it returns a fault only if the driver has stopped. Plans hold no
such tasks. -/
def Task.Resumes (c : Controller) : Task → Prop
  | call _ => False
  | conclude _ (.error _) => c.halted
  | _ => True

namespace Client

/-- What the client does at the notices of one kind. -/
def plans (c : Client) : Notice → List (List Op)
  | .busReset => c.onBusReset
  | .setupReceived _ => c.onSetupReceived
  | .transferComplete .. => c.onTransferComplete

theorem reaction_mem (c : Client) (notice : Notice) : c.reaction notice = [] ∨ c.reaction notice ∈ c.plans notice := by
  have head (plans : List (List Op)) : plans.headD [] = [] ∨ plans.headD [] ∈ plans := by cases plans <;> simp
  cases notice <;> exact head _

theorem reaction_eq (c : Client) (notice : Notice) : c.reaction notice = (c.plans notice).getD 0 [] := by
  cases notice <;> simp [reaction, plans, List.headD_eq_head?_getD, List.head?_eq_getElem?]

/-- A client that has begun to answer is ahead by one notice, or by none of another kind. -/
theorem plans_reacting (notice other : Notice) :
    ∃ ahead, ∀ (c : Client) n, ((c.reacting notice).plans other).getD n [] = (c.plans other).getD (n + ahead) [] := by
  have next (plans : List (List Op)) (n : Nat) : plans.tail.getD n [] = plans.getD (n + 1) [] := by
    simp only [List.getD_eq_getElem?_getD, List.getElem?_tail]
  cases notice <;> cases other <;> first | exact ⟨0, fun _ _ => rfl⟩ | exact ⟨1, fun _ => next _⟩

theorem mem_plans_reacting {c : Client} {notice other : Notice} {ops : List Op}
    (left : ops ∈ (c.reacting notice).plans other) : ops ∈ c.plans other := by
  cases notice <;> cases other <;> first | exact left | exact List.mem_of_mem_tail left

end Client

namespace Session

variable {σ : Type} [Sink σ]

/-- With other plans, the turn leaves and shows the same but for the plans. Those who are told reply at once, and the
interrupt goes on before all that was left to do. -/
def FramesPlan (s : Session σ) (turn : Session σ → Turn σ) : Prop :=
  ∃ told pushed, (∀ task ∈ pushed, task.Resumes (turn s).session.controller) ∧ ∀ todo clients,
    turn { s with todo, clients } =
      { session :=
          { (turn s).session with
            todo := Client.replies clients told ++ (pushed ++ todo)
            clients := Client.replied clients told }
        marks := (turn s).marks }

/-- What an interrupt has still to do when the driver has stopped, or when it has not. -/
theorem resumes_of_resumed (s : Session σ) (task : Task) :
    ∀ later ∈ task.resumed s.controller, later.Resumes (s.outcome task).session.controller := by
  intro later member
  cases task with
  | call op =>
    cases asks : op.asks? with
    | none => simp [Task.resumed, asks] at member
    | some asked =>
      obtain ⟨caller, vector⟩ := asked
      simp only [Task.resumed, asks, List.mem_singleton] at member
      subst member
      split
      · next halted => exact s.controller.halted_act s.buffers _ halted
      · trivial
  | dispatch caller =>
    simp only [Task.resumed, List.mem_singleton] at member
    subst member
    cases verdict : s.controller.verdict with
    | ok => trivial
    | error fault =>
      have halts : s.controller.served = .halt := Controller.served_of_verdict verdict
      simp only [Task.Resumes, outcome, Task.action, halts, Controller.act]
  | endNotice => cases member
  | conclude => cases member

/-- A step does not look at what is left to do after it, nor at what clients will do that it does not tell. -/
theorem work_framesPlan (s : Session σ) (task : Task) : s.FramesPlan fun s => s.work task := by
  simp only [FramesPlan, work_eq_outcome]
  exact ⟨s.told? task, task.resumed s.controller, s.resumes_of_resumed task, fun _ _ => rfl⟩

/-- What a step leaves to do. -/
theorem work_pushes (s : Session σ) (task : Task) :
    ∃ told pushed, (∀ later ∈ pushed, later.Resumes (s.work task).session.controller) ∧
      (s.work task).session.todo = Client.replies s.clients told ++ (pushed ++ s.todo) ∧
      (s.work task).session.clients = Client.replied s.clients told := by
  obtain ⟨told, pushed, resumes, frame⟩ := s.work_framesPlan task
  have here := frame s.todo s.clients
  exact ⟨told, pushed, resumes, congrArg (fun turn : Turn σ => turn.session.todo) here,
    congrArg (fun turn : Turn σ => turn.session.clients) here⟩

end Session

end UsbDevice
