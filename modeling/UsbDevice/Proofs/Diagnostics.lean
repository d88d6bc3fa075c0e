import UsbDevice.Proofs.RunHistory
import UsbDevice.Proofs.StepOutcome

namespace UsbDevice

/-- What the mark shows but for what has been printed. -/
def Mark.unprinted : Mark → Mark
  | call op => .call op
  | notice client content closing => .notice client content ⟨[], closing.changes⟩
  | endNotice => .endNotice
  | answer given closing => .answer given ⟨[], closing.changes⟩

namespace Session

variable {σ τ : Type} [Sink σ] [Sink τ]

/-- The same session, built with other switches and printing to another sink. -/
def printing (s : Session σ) (config : Config) (output : Output τ) : Session τ where
  config := config
  controller := s.controller
  output := output
  buffers := s.buffers
  clients := s.clients
  guards := s.guards
  shown := s.shown
  todo := s.todo

/-- What is printed is all that a task does with the switches and the sink. -/
theorem outcome_printing (s : Session σ) (config : Config) (output : Output τ) (task : Task) :
    ∃ printed, ((s.printing config output).outcome task).session = (s.outcome task).session.printing config printed ∧
      ((s.printing config output).outcome task).marks.map Mark.unprinted
        = (s.outcome task).marks.map Mark.unprinted := by
  refine ⟨_, rfl, ?_⟩
  have told : (s.printing config output).told? task = s.told? task := rfl
  simp only [outcome, List.map_append, told]
  congr 1
  · cases s.told? task <;> rfl
  · change List.map _ ((task.answer? s.controller s.buffers s.guards).map _).toList = _
    cases task.answer? s.controller s.buffers s.guards <;> rfl

/-- Whatever is printed, and whatever the sink does with it, the session goes on and shows the same but for the log. -/
theorem diagnostics_unobserved (s : Session σ) (config : Config) (output : Output τ) (n : Nat) :
    (∃ printed, (s.printing config output).after n = (s.after n).printing config printed) ∧
      ((s.printing config output).path n).map (fun p => p.marks.map Mark.unprinted)
        = (s.path n).map fun p => p.marks.map Mark.unprinted := by
  refine after_alike (R := fun p p' => ∃ printed, p' = p.printing config printed) (Q := fun _ => True)
    (·.map Mark.unprinted) ?_ ?_ ⟨output, rfl⟩ n fun _ _ => trivial
  · rintro p _ ⟨printed, rfl⟩ done
    exact done
  · rintro p _ turn ⟨printed, rfl⟩ _ stepped
    obtain ⟨task, todo, pending, rfl⟩ := outcome_of_step stepped
    obtain ⟨later, session, marks⟩ := { p with todo }.outcome_printing config printed task
    exact ⟨_, step_eq_outcome (s := p.printing config printed) pending, ⟨later, session⟩, marks⟩

end Session

end UsbDevice
