import UsbDevice.Proofs.SessionReach

namespace UsbDevice

deriving instance DecidableEq for Task, Mark

namespace Session

variable {σ : Type} [Sink σ]

/-- The session before each step of its run. -/
def history (s : Session σ) : List (Session σ) := s.path s.weight

def marks (s : Session σ) : List Mark :=
  match s.step with
  | some turn => turn.marks
  | none => []

theorem marks_of_step {s : Session σ} {turn : Turn σ} (stepped : s.step = some turn) : s.marks = turn.marks := by
  simp only [marks, stepped]

/-- Where a session has stopped, more steps change nothing. -/
theorem after_of_stopped {s : Session σ} {m n : Nat} (stopped : (s.after m).step = none) (later : m ≤ n) :
    s.path n = s.path m ∧ s.after n = s.after m := by
  induction m generalizing s n with
  | zero =>
    have here : s.step = none := stopped
    cases n with
    | zero => exact ⟨rfl, rfl⟩
    | succ n => simp only [path, after, here, and_self]
  | succ m ih =>
    obtain ⟨n, rfl⟩ : ∃ k, n = k + 1 := ⟨n - 1, by omega⟩
    cases stepped : s.step with
    | none => simp only [path, after, stepped, and_self]
    | some turn =>
      simp only [after, stepped] at stopped
      obtain ⟨path, last⟩ := ih stopped (Nat.le_of_succ_le_succ later)
      simp only [Session.path, after, stepped, path, last, and_self]

/-- A run takes no more steps than the weight allows. -/
theorem run_eq_after (s : Session σ) :
    ∀ n, s.weight ≤ n → s.run.session = s.after n ∧ s.run.marks = (s.path n).flatMap marks := by
  fun_induction run s with
  | case1 s stopped =>
    intro n _
    have here : (s.after 0).step = none := stopped
    obtain ⟨path, last⟩ := after_of_stopped here (Nat.zero_le n)
    rw [path, last]
    exact ⟨rfl, rfl⟩
  | case2 s turn stepped rest ih =>
    intro n enough
    have lighter := weight_step_lt stepped
    obtain ⟨n, rfl⟩ : ∃ k, n = k + 1 := ⟨n - 1, by omega⟩
    obtain ⟨last, shown⟩ := ih n (by omega)
    simp only [path, after, stepped, List.flatMap_cons, marks]
    exact ⟨last, congrArg (turn.marks ++ ·) shown⟩

theorem reach_run (s : Session σ) : s.Reach s.history s.run.session := by
  rw [(run_eq_after s _ (Nat.le_refl _)).1]
  exact s.reach_after s.weight

/-- A session that comes to an end has gone through its run. -/
theorem Reach.finished {s t : Session σ} {past : List (Session σ)} (reach : s.Reach past t) (done : t.todo = []) :
    past = s.history ∧ t = s.run.session := by
  have stopped : s.run.session.step = none := (step_eq_none_iff _).mpr (todo_run s)
  have ended : t.step = none := (step_eq_none_iff t).mpr done
  obtain ⟨path, last⟩ := reach.eq_path
  rw [last] at ended
  rw [(run_eq_after s _ (Nat.le_refl _)).1] at stopped ⊢
  obtain ⟨toPath, toLast⟩ := after_of_stopped ended (Nat.le_max_left past.length s.weight)
  obtain ⟨runPath, runLast⟩ := after_of_stopped stopped (Nat.le_max_right past.length s.weight)
  exact ⟨path.trans (toPath.symm.trans runPath), last.trans (toLast.symm.trans runLast)⟩

/-- Of two sessions that are related both stop at once, and what each step keeps that the first makes under `Q`, all
its steps keep. -/
theorem after_alike {τ α : Type} [Sink τ] {R : Session σ → Session τ → Prop} {Q : Session σ → Prop}
    (view : List Mark → α) (stops : ∀ p p', R p p' → p.todo = [] → p'.todo = [])
    (kept : ∀ p p' turn, R p p' → Q p → p.step = some turn →
      ∃ turn', p'.step = some turn' ∧ R turn.session turn'.session ∧ view turn'.marks = view turn.marks)
    {s : Session σ} {s' : Session τ} (first : R s s') (n : Nat) (under : ∀ p ∈ s.path n, Q p) :
    R (s.after n) (s'.after n) ∧
      (s'.path n).map (fun p => view p.marks) = (s.path n).map fun p => view p.marks := by
  induction n generalizing s s' with
  | zero => exact ⟨first, rfl⟩
  | succ n ih =>
    cases stepped : s.step with
    | none =>
      have stopped := (step_eq_none_iff s').mpr (stops s s' first ((step_eq_none_iff s).mp stepped))
      simp only [after, path, stepped, stopped, List.map_nil, and_true]
      exact first
    | some turn =>
      simp only [path, stepped, List.forall_mem_cons] at under
      obtain ⟨turn', stepped', next, shown⟩ := kept s s' turn first under.1 stepped
      obtain ⟨last, shows⟩ := ih next under.2
      simp only [after, path, stepped, stepped', List.map_cons, marks_of_step stepped, marks_of_step stepped', shown,
        shows, and_true]
      exact last

end Session

end UsbDevice
