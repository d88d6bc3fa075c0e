import UsbDevice.Session.Basic

namespace UsbDevice

/-- How many steps a task can cost, the operations of clients aside: an interrupt has at most two notices. -/
def Task.weight : Task → Nat
  | call _ => 5
  | dispatch _ => 3
  | endNotice => 1
  | conclude .. => 1

def total : List Nat → Nat
  | [] => 0
  | n :: ns => n + total ns

theorem total_cons (n : Nat) (ns : List Nat) : total (n :: ns) = n + total ns := rfl

theorem total_append (ns ms : List Nat) : total (ns ++ ms) = total ns + total ms := by
  induction ns with
  | nil => exact (Nat.zero_add _).symm
  | cons n ns ih => simp only [List.cons_append, total_cons, ih, Nat.add_assoc]

/-- How many steps the operations can cost that the client has not begun yet. -/
def Client.weight (c : Client) : Nat :=
  total ((c.onBusReset ++ c.onSetupReceived ++ c.onTransferComplete).map fun ops => 5 * ops.length)

/-- What a client does is taken out of what it has not begun yet. -/
theorem Client.weight_reacting (c : Client) (notice : Notice) :
    5 * (c.reaction notice).length + (c.reacting notice).weight = c.weight := by
  have taken (plans : List (List Op)) :
      5 * (plans.headD []).length + total (plans.tail.map fun ops => 5 * ops.length)
        = total (plans.map fun ops => 5 * ops.length) := by
    cases plans with
    | nil => rfl
    | cons ops plans => rfl
  cases notice with
  | busReset =>
    have first := taken c.onBusReset
    simp only [reaction, reacting, weight, List.map_append, total_append]
    omega
  | setupReceived =>
    have first := taken c.onSetupReceived
    simp only [reaction, reacting, weight, List.map_append, total_append]
    omega
  | transferComplete =>
    have first := taken c.onTransferComplete
    simp only [reaction, reacting, weight, List.map_append, total_append]
    omega

theorem Client.weight_set (clients : List Client) (i : Nat) (client : Client) (inside : i < clients.length) :
    total ((clients.set i client).map weight) + (clients.getD i {}).weight
      = total (clients.map weight) + client.weight := by
  induction clients generalizing i with
  | nil => simp at inside
  | cons first clients ih =>
    cases i with
    | zero =>
      simp only [List.set_cons_zero, List.map_cons, total_cons, List.getD_cons_zero]
      omega
    | succ i =>
      have rest := ih i (by simpa using inside)
      simp only [List.set_cons_succ, List.map_cons, total_cons, List.getD_cons_succ]
      omega

theorem Task.weight_calls (ops : List Op) : total ((ops.map call).map weight) = 5 * ops.length := by
  induction ops with
  | nil => rfl
  | cons op ops ih =>
    simp only [List.map_cons, total_cons, List.length_cons, ih, weight]
    omega

namespace Session

/-- A bound on the steps that are left. -/
def weight {σ : Type} (s : Session σ) : Nat :=
  total (s.todo.map Task.weight) + total (s.clients.map Client.weight)

theorem weight_cons {σ : Type} (s : Session σ) (task : Task) (todo : List Task) :
    { s with todo := task :: todo }.weight = task.weight + { s with todo }.weight := by
  simp only [weight, List.map_cons, total_cons, Nat.add_assoc]

theorem weight_push {σ : Type} (s : Session σ) (task : Task) :
    { s with todo := task :: s.todo }.weight = s.weight + task.weight :=
  (weight_cons s task s.todo).trans (Nat.add_comm _ _)

theorem weight_onEndpoint_le {σ : Type} [Sink σ] (s : Session σ) (e : EndpointRef) (f : Endpoint → Turn σ)
    (bound : ∀ e, (f e).session.weight ≤ s.weight) : (s.onEndpoint e f).session.weight ≤ s.weight := by
  unfold onEndpoint
  split
  · exact bound _
  · exact Nat.le_refl _

variable {σ : Type} [Sink σ]

omit [Sink σ] in
theorem weight_notify_le (s : Session σ) (notice : Option Notice) :
    (s.notify notice).session.weight ≤ s.weight + 1 := by
  unfold notify
  split
  · exact Nat.le_succ _
  · next notice =>
    split
    · exact Nat.le_succ _
    · next i _ =>
      have begun := Client.weight_reacting (s.clients.getD i {}) notice
      simp only [weight, List.map_append, total_append, Task.weight_calls, List.map_cons, total_cons,
        Task.weight]
      by_cases inside : i < s.clients.length
      · have moved := Client.weight_set s.clients i ((s.clients.getD i {}).reacting notice) inside
        omega
      · have missing : s.clients.getD i {} = {} := by simp [List.getD_eq_getElem?_getD, Nat.le_of_not_lt inside]
        have nothing : Client.weight {} = 0 := rfl
        rw [missing, nothing] at begun
        rw [missing, List.set_eq_of_length_le (Nat.le_of_not_lt inside)]
        omega

theorem weight_interrupt_le (s : Session σ) (caller : Caller) :
    (s.interrupt caller).session.weight ≤ s.weight + 4 := by
  unfold interrupt
  split
  · exact Nat.le_trans (Nat.le_of_eq (weight_push s _)) (Nat.add_le_add_left (Nat.le_add_right 1 3) _)
  · exact Nat.le_trans (weight_notify_le _ _) (Nat.succ_le_succ (Nat.le_of_eq (weight_push s _)))

omit [Sink σ] in
theorem weight_raise (s : Session σ) (vector : Option Word) : (s.raise vector).weight = s.weight := by
  cases vector <;> rfl

theorem weight_call_le (s : Session σ) (op : Op) : (s.call op).session.weight ≤ s.weight + 4 := by
  have at_once {n : Nat} (same : n ≤ s.weight) : n ≤ s.weight + 4 := Nat.le_add_right_of_le same
  cases op with
  | handleInterrupt vector =>
    rw [← weight_raise s vector]
    exact weight_interrupt_le (s.raise vector) .driver
  | serviceInterrupt line vector =>
    simp only [call]
    rw [← weight_raise s vector]
    split
    · exact weight_interrupt_le (s.raise vector) .chip
    · exact Nat.le_add_right _ _
  | unmask guard =>
    simp only [call]
    split <;> exact Nat.le_add_right _ _
  | queueTransfer e region => exact at_once (weight_onEndpoint_le s e _ fun _ => Nat.le_refl _)
  | openEndpoint e => exact at_once (weight_onEndpoint_le s e _ fun _ => Nat.le_refl _)
  | stall e => exact at_once (weight_onEndpoint_le s e _ fun _ => Nat.le_refl _)
  | clearStall e => exact at_once (weight_onEndpoint_le s e _ fun _ => Nat.le_refl _)
  | transferProgress e => exact at_once (weight_onEndpoint_le s e _ fun _ => Nat.le_refl _)
  | _ => exact Nat.le_add_right _ _

theorem weight_dispatch_le (s : Session σ) (caller : Caller) :
    (s.dispatch caller).session.weight ≤ s.weight + 2 := by
  simp only [dispatch]
  split
  · exact Nat.le_trans (Nat.le_of_eq (weight_push s _)) (Nat.add_le_add_left (Nat.le_add_right 1 1) _)
  · exact Nat.le_trans (weight_notify_le _ _) (Nat.succ_le_succ (Nat.le_of_eq (weight_push s _)))

theorem weight_work_lt (s : Session σ) (task : Task) : (s.work task).session.weight < task.weight + s.weight := by
  cases task with
  | call op =>
    have bound := weight_call_le s op
    simp only [work, Task.weight]
    omega
  | dispatch caller =>
    have bound := weight_dispatch_le s caller
    simp only [work, Task.weight]
    omega
  | endNotice => exact Nat.lt_add_of_pos_left Nat.one_pos
  | conclude caller result => exact Nat.lt_add_of_pos_left Nat.one_pos

theorem weight_step_lt {s : Session σ} {turn : Turn σ} (stepped : s.step = some turn) :
    turn.session.weight < s.weight := by
  unfold step at stepped
  split at stepped
  · cases stepped
  · next task todo pending =>
    cases stepped
    have front := weight_cons s task todo
    rw [← pending] at front
    exact front ▸ weight_work_lt { s with todo } task

/-- Does everything that is left to do. -/
def run (s : Session σ) : Turn σ :=
  match _stepped : s.step with
  | none => { session := s }
  | some turn =>
    let rest := turn.session.run
    { rest with marks := turn.marks ++ rest.marks }
termination_by s.weight
decreasing_by exact weight_step_lt _stepped

theorem step_eq_none_iff (s : Session σ) : s.step = none ↔ s.todo = [] := by
  unfold step
  split <;> simp_all

/-- A run leaves nothing to do. -/
theorem todo_run (s : Session σ) : s.run.session.todo = [] := by
  fun_induction run s with
  | case1 s stopped => exact (step_eq_none_iff s).mp stopped
  | case2 s turn stepped rest ih => exact ih

end Session

end UsbDevice
