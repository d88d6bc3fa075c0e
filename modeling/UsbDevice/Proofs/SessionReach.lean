import Mathlib.Data.List.Induction
import UsbDevice.Proofs.StepOutcome
import UsbDevice.Proofs.TransferPackets

namespace UsbDevice

def Op.Interrupts : Op → Prop
  | .handleInterrupt _ | .serviceInterrupt .. => True
  | _ => False

instance : DecidablePred Op.Interrupts := fun op => by
  unfold Op.Interrupts
  split <;> infer_instance

theorem Op.asks_of_not_interrupts {op : Op} (plain : ¬ op.Interrupts) : op.asks? = none := by
  cases op <;> first | rfl | exact absurd trivial plain

/-- The fault that is returned, to the one who has asked the driver or to the chip. -/
def Answer.fault? : Answer → Option Fault
  | .fault cause | .aborted (.usbFault cause) => some cause
  | _ => none

namespace Client

theorem getD_of_le {clients : List Client} {i : Nat} (outside : clients.length ≤ i) : clients.getD i {} = {} := by
  rw [List.getD_eq_getElem?_getD, List.getElem?_eq_none outside, Option.getD_none]

/-- A client that is not there does nothing, and cannot be given anything to do. -/
theorem getD_set (clients : List Client) {i : Nat} {c : Client} (empty : clients.length ≤ i → c = {}) (j : Nat) :
    (clients.set i c).getD j {} = if i = j then c else clients.getD j {} := by
  by_cases here : i = j
  · subst here
    by_cases inside : i < clients.length
    · simp only [List.getD_eq_getElem?_getD, List.getElem?_set, inside, if_true, Option.getD_some]
    · have outside := Nat.le_of_not_lt inside
      rw [List.set_eq_of_length_le outside, getD_of_le outside, if_pos rfl, empty outside]
  · simp only [List.getD_eq_getElem?_getD, List.getElem?_set, here, if_false]

/-- A client that is not there does nothing, also after a notice. -/
theorem getD_set_reacting (clients : List Client) (i j : Nat) (notice : Notice) :
    (clients.set i ((clients.getD i {}).reacting notice)).getD j {}
      = if i = j then (clients.getD i {}).reacting notice else clients.getD j {} := by
  refine getD_set clients (fun outside => ?_) j
  rw [getD_of_le outside]
  cases notice <;> rfl

/-- What holds of the clients of two sessions, and is kept when one begins to answer, holds after all are told. -/
theorem replied_alike {R : Client → Client → Prop}
    (kept : ∀ c c', R c c' → ∀ notice, R (c.reacting notice) (c'.reacting notice)) {clients clients' : List Client}
    (alike : ∀ i, R (clients.getD i {}) (clients'.getD i {})) (told : Option (Nat × Notice)) (i : Nat) :
    R ((replied clients told).getD i {}) ((replied clients' told).getD i {}) := by
  cases told with
  | none => exact alike i
  | some told =>
    obtain ⟨j, notice⟩ := told
    simp only [replied, getD_set_reacting]
    split
    · exact kept _ _ (alike j) notice
    · exact alike i

end Client

namespace Session

variable {σ : Type} [Sink σ]

/-- The session comes from `s` to `t`, one step after the other. `past` holds it as it stood before each of the
steps. Clients act in the middle of an interrupt, so the points inside an interrupt are among them. -/
inductive Reach (s : Session σ) : List (Session σ) → Session σ → Prop
  | start : Reach s [] s
  | next {past t turn} : Reach s past t → t.step = some turn → Reach s (past ++ [t]) turn.session

/-- Nothing has happened yet. The registers hold what the hardware has put there. -/
structure Fresh (s : Session σ) : Prop where
  controller : s.controller = { registers := s.controller.registers }
  guards : s.guards = []
  todo : ∃ ops : List Op, s.todo = ops.map .call

/-- The slice that the next step lends for endpoint 0 towards the host. An address is acknowledged with the empty
one. -/
def lent? (s : Session σ) : Option Slice :=
  match s.action with
  | .lend id buffer => if id = .controlIn then some buffer else none
  | .setAddress _ => some .empty
  | _ => none

def Resets (s : Session σ) : Prop := s.action = .reset

/-- The next step serves endpoint 0 towards the host. -/
def Transmits (s : Session σ) : Prop := s.action = .transmit

instance (s : Session σ) : Decidable s.Resets := inferInstanceAs (Decidable (_ = _))

instance (s : Session σ) : Decidable s.Transmits := inferInstanceAs (Decidable (_ = _))

theorem Reach.single {s : Session σ} {turn : Turn σ} (stepped : s.step = some turn) : s.Reach [s] turn.session :=
  .next .start stepped

theorem Reach.append {s t u : Session σ} {past later : List (Session σ)} (reach : s.Reach past t)
    (rest : t.Reach later u) : s.Reach (past ++ later) u := by
  induction rest with
  | start => simpa only [List.append_nil] using reach
  | next _ stepped ih => simpa only [List.append_assoc] using ih.next stepped

theorem Reach.of_nil {s t : Session σ} (reach : s.Reach [] t) : t = s := by
  generalize none : [] = past at reach
  cases reach with
  | start => rfl
  | next => simp at none

theorem Reach.of_concat {s p t : Session σ} {past : List (Session σ)} (reach : s.Reach (past ++ [p]) t) :
    ∃ turn, s.Reach past p ∧ p.step = some turn ∧ t = turn.session := by
  generalize whole : past ++ [p] = steps at reach
  cases reach with
  | start => simp at whole
  | @next _ _ turn previous stepped =>
    obtain ⟨rfl, last⟩ := List.append_inj' whole rfl
    obtain rfl := List.singleton_inj.mp last
    exact ⟨turn, previous, stepped, rfl⟩

/-- At each point of the past a step was made, which led on to all that follows. -/
theorem Reach.at_point {s p t : Session σ} {past later : List (Session σ)} (reach : s.Reach (past ++ p :: later) t) :
    ∃ turn, s.Reach past p ∧ p.step = some turn ∧ turn.session.Reach later t := by
  induction later using List.reverseRecOn generalizing t with
  | nil =>
    obtain ⟨turn, first, stepped, rfl⟩ := reach.of_concat
    exact ⟨turn, first, stepped, .start⟩
  | append_singleton later last ih =>
    have whole : past ++ p :: (later ++ [last]) = (past ++ p :: later) ++ [last] := by
      simp only [List.append_assoc, List.cons_append]
    rw [whole] at reach
    obtain ⟨turn, previous, stepped, rfl⟩ := reach.of_concat
    obtain ⟨begun, first, start, rest⟩ := ih previous
    exact ⟨begun, first, start, rest.next stepped⟩

theorem Reach.cons {s t : Session σ} {turn : Turn σ} {past : List (Session σ)} (stepped : s.step = some turn)
    (rest : turn.session.Reach past t) : s.Reach (s :: past) t :=
  (Reach.single stepped).append rest

theorem Reach.of_cons {s p t : Session σ} {past : List (Session σ)} (reach : s.Reach (p :: past) t) :
    p = s ∧ ∃ turn, s.step = some turn ∧ turn.session.Reach past t := by
  have whole : s.Reach ([] ++ p :: past) t := reach
  obtain ⟨turn, nothing, stepped, rest⟩ := whole.at_point
  obtain rfl := nothing.of_nil
  exact ⟨rfl, turn, stepped, rest⟩

/-- The session after `count` steps, or at its end if it has fewer left. -/
def after (s : Session σ) : Nat → Session σ
  | 0 => s
  | count + 1 =>
    match s.step with
    | some turn => turn.session.after count
    | none => s

/-- The session before each of its next `count` steps. -/
def path (s : Session σ) : Nat → List (Session σ)
  | 0 => []
  | count + 1 =>
    match s.step with
    | some turn => s :: turn.session.path count
    | none => []

theorem reach_after (s : Session σ) (count : Nat) : s.Reach (s.path count) (s.after count) := by
  induction count generalizing s with
  | zero => exact .start
  | succ count ih =>
    cases stepped : s.step with
    | none =>
      simp only [path, after, stepped]
      exact .start
    | some turn =>
      simp only [path, after, stepped]
      exact .cons stepped (ih turn.session)

theorem getElem?_path {s : Session σ} {count i : Nat} (inside : i < (s.path count).length) :
    (s.path count)[i]? = some (s.after i) := by
  induction count generalizing s i with
  | zero => simp [path] at inside
  | succ count ih =>
    cases stepped : s.step with
    | none => simp [path, stepped] at inside
    | some turn =>
      simp only [path, stepped] at inside ⊢
      cases i with
      | zero => rfl
      | succ i =>
        rw [List.getElem?_cons_succ, ih (by simpa using inside)]
        simp only [after, stepped]

/-- There is only one way for a session to go on. -/
theorem Reach.eq_path {s t : Session σ} {past : List (Session σ)} (reach : s.Reach past t) :
    past = s.path past.length ∧ t = s.after past.length := by
  induction past generalizing s with
  | nil => exact ⟨rfl, reach.of_nil⟩
  | cons p past ih =>
    obtain ⟨rfl, turn, stepped, rest⟩ := reach.of_cons
    obtain ⟨path, last⟩ := ih rest
    simp only [List.length_cons, Session.path, after, stepped]
    exact ⟨congrArg (p :: ·) path, last⟩

theorem session_of_step_after {s : Session σ} {count : Nat} {turn : Turn σ} (length : (s.path count).length = count)
    (stepped : (s.after count).step = some turn) : turn.session = s.after (count + 1) := by
  have last := ((s.reach_after count).next stepped).eq_path.2
  rwa [List.length_append, List.length_singleton, length] at last

/-- What every step keeps that is made under `Q` holds at the end if each step was made under `Q`. -/
theorem Reach.keeps {P Q : Session σ → Prop} {s t : Session σ} {past : List (Session σ)} (reach : s.Reach past t)
    (kept : ∀ p turn, p.step = some turn → Q p → P p → P turn.session) (under : ∀ p ∈ past, Q p) (first : P s) :
    P t := by
  induction reach with
  | start => exact first
  | @next before last turn previous stepped ih =>
    have earlier := ih fun p member => under p (List.mem_append_left _ member)
    exact kept last turn stepped (under last (by simp)) earlier

def notices (s : Session σ) : List (Nat × Notice) :=
  match s.step with
  | some turn => turn.notices
  | none => []

theorem notices_of_step {s : Session σ} {turn : Turn σ} (stepped : s.step = some turn) : s.notices = turn.notices := by
  simp only [notices, stepped]

theorem notices_eq (s : Session σ) :
    s.notices
      = ((s.controller.told? s.action).bind fun notice =>
          s.controller.client.map fun client => (client, notice)).toList := by
  cases stepped : s.step with
  | some turn => rw [notices_of_step stepped, step_notices stepped]
  | none =>
    have nothing := (step_eq_none_iff s).mp stepped
    simp [notices, stepped, action, nothing, Controller.told?]

theorem step_buffers_length {s : Session σ} {turn : Turn σ} (stepped : s.step = some turn) (i : Nat) :
    (turn.session.buffers.getD i []).length = (s.buffers.getD i []).length := by
  obtain ⟨task, todo, _, rfl⟩ := outcome_of_step stepped
  cases task with
  | call op =>
    cases op with
    | writeBuffer region data => exact Slice.length_getD_write _ _ _ i
    | _ => rfl
  | _ => rfl

end Session

end UsbDevice
