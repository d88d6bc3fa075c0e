import UsbDevice.Proofs.SessionReach
import UsbDevice.Proofs.TransferPackets

namespace UsbDevice

/-- The action does something to the transfer of the slot. -/
def ControllerAction.Touches (id : SlotId) : ControllerAction → Prop
  | .lend target _ => id = target
  | .setAddress _ | .transmit => id = .controlIn
  | .reset => id = .controlIn ∨ id = .controlOut
  | _ => False

theorem Controller.get_act_of_untouched {a : ControllerAction} {id : SlotId} (untouched : ¬ a.Touches id)
    (c : Controller) (buffers : Buffers) : (c.act buffers a).slots.get id = c.slots.get id := by
  cases a with
  | lend target buffer => exact Slots.get_set_of_ne _ _ untouched
  | reset =>
    obtain ⟨notIn, notOut⟩ := not_or.mp untouched
    simp only [act, busReset, Slots.modify, Slots.get_set_of_ne _ _ notIn, Slots.get_set_of_ne _ _ notOut]
  | setAddress => exact Slots.get_set_of_ne _ _ untouched
  | transmit => exact Slots.get_set_of_ne _ _ untouched
  | raise vector => cases vector <;> rfl
  | interrupt vector =>
    obtain ⟨_, _, begun⟩ := c.act_interrupt buffers vector
    rw [begun]
  | _ => rfl

namespace Session

variable {σ : Type} [Sink σ]

/-- The transfer of endpoint 0 towards the host. -/
def controlIn (s : Session σ) : Transfer := s.controller.slots.get .controlIn

/-! What a step does to this transfer. Only four kinds of steps do anything. -/

omit [Sink σ] in
theorem lent_eq_some {s : Session σ} {buffer : Slice} (lent : s.lent? = some buffer) :
    s.action = .lend .controlIn buffer ∨ ∃ address, s.action = .setAddress address ∧ buffer = .empty := by
  unfold lent? at lent
  split at lent
  · next id lentBuffer found =>
    split at lent
    · next same =>
      cases lent
      exact Or.inl (same ▸ found)
    · cases lent
  · next address found =>
    cases lent
    exact Or.inr ⟨address, found, rfl⟩
  · cases lent

theorem step_controlIn_of_lent {s : Session σ} {turn : Turn σ} {buffer : Slice} (stepped : s.step = some turn)
    (lent : s.lent? = some buffer) : turn.session.controlIn = s.controlIn.start buffer := by
  unfold controlIn
  rw [step_controller stepped]
  rcases lent_eq_some lent with found | ⟨address, found, rfl⟩ <;>
    simp only [found, Controller.act, Controller.lend, Slots.modify, Slots.get_set_self]

theorem step_controlIn_of_resets {s : Session σ} {turn : Turn σ} (stepped : s.step = some turn)
    (resets : s.Resets) : turn.session.controlIn = (s.controlIn.setMaxSize Slots.controlSize).abort := by
  have apart : SlotId.controlIn ≠ SlotId.controlOut := by decide
  unfold controlIn
  rw [step_controller stepped, show s.action = .reset from resets]
  simp only [Controller.act, Controller.busReset, Controller.withUnlocked, Slots.modify, Slots.get_set_self,
    Slots.get_set_of_ne _ _ apart]

theorem step_controlIn_of_transmits {s : Session σ} {turn : Turn σ} (stepped : s.step = some turn)
    (transmits : s.Transmits) : turn.session.controlIn = s.controlIn.next.transfer := by
  unfold controlIn
  rw [step_controller stepped, show s.action = .transmit from transmits]
  simp only [Controller.act, Slots.get_set_self]

theorem step_controlIn_of_other {s : Session σ} {turn : Turn σ} (stepped : s.step = some turn)
    (lent : s.lent? = none) (resets : ¬ s.Resets) (transmits : ¬ s.Transmits) :
    turn.session.controlIn = s.controlIn := by
  unfold controlIn
  rw [step_controller stepped]
  refine Controller.get_act_of_untouched (fun touches => ?_) s.controller s.buffers
  unfold lent? at lent
  cases found : s.action with
  | lend id buffer =>
    obtain rfl : .controlIn = id := by rwa [found] at touches
    simp [found] at lent
  | setAddress => simp [found] at lent
  | reset => exact resets found
  | transmit => exact transmits found
  | _ =>
    rw [found] at touches
    exact touches

theorem maxSize_next (t : Transfer) : t.next.transfer.maxSize = t.maxSize := by
  unfold Transfer.next
  split
  · rfl
  · split <;> rfl

theorem Reach.controlIn_maxSize {s t : Session σ} {past : List (Session σ)} (fresh : s.Fresh)
    (reach : s.Reach past t) : t.controlIn.maxSize = Slots.controlSize := by
  induction reach with
  | start =>
    unfold controlIn
    rw [fresh.controller]
    rfl
  | @next before last turn previous stepped ih =>
    cases lent : last.lent? with
    | some buffer => rw [step_controlIn_of_lent stepped lent]; exact ih
    | none =>
      by_cases resets : last.Resets
      · rw [step_controlIn_of_resets stepped resets]; rfl
      · by_cases transmits : last.Transmits
        · rw [step_controlIn_of_transmits stepped transmits, maxSize_next]; exact ih
        · rw [step_controlIn_of_other stepped lent resets transmits]; exact ih

/-- As long as nothing else is lent and the bus is not reset, only the interrupts of the endpoint move the transfer,
each by one packet. -/
theorem Reach.controlIn_afterInterrupts {s t : Session σ} {past : List (Session σ)} {size count : Nat} {buffer : Slice}
    (reach : s.Reach past t) (positive : 0 < size) (undisturbed : ∀ p ∈ past, p.lent? = none ∧ ¬ p.Resets)
    (first : s.controlIn = .afterInterrupts size buffer count) :
    t.controlIn = .afterInterrupts size buffer (count + past.countP (·.Transmits)) := by
  induction reach with
  | start => exact first
  | @next before last turn previous stepped ih =>
    have earlier := ih fun p member => undisturbed p (List.mem_append_left _ member)
    obtain ⟨lent, resets⟩ := undisturbed last (by simp)
    rw [List.countP_append, List.countP_singleton]
    by_cases transmits : last.Transmits
    · rw [step_controlIn_of_transmits stepped transmits, earlier, Transfer.next_afterInterrupts positive]
      simp only [transmits, decide_true, if_true, Nat.add_assoc]
    · rw [step_controlIn_of_other stepped lent resets transmits, earlier]
      simp [transmits]

/-! What is told of the end of a transfer. -/

theorem mem_notices {s : Session σ} {client : Nat} {notice : Notice} :
    (client, notice) ∈ s.notices
      ↔ s.controller.client = some client ∧ s.controller.told? s.action = some notice := by
  rw [notices_eq]
  simp only [Option.mem_toList, Option.bind_eq_some_iff, Option.map_eq_some_iff, Prod.mk.injEq]
  constructor
  · rintro ⟨told, atTold, i, atClient, rfl, rfl⟩
    exact ⟨atClient, atTold⟩
  · rintro ⟨atClient, atTold⟩
    exact ⟨notice, atTold, client, atClient, rfl, rfl⟩

omit [Sink σ] in
/-- Only the interrupts of endpoint 0 towards the host end transfers, always with success. -/
theorem told_transferComplete {s : Session σ} {e : Endpoint} {bytes : Nat} {status : TransferStatus} :
    s.controller.told? s.action = some (.transferComplete e bytes status)
      ↔ s.Transmits ∧ s.controlIn.next.step = .complete bytes ∧ e = .controlIn ∧ status = .success := by
  unfold Transmits controlIn
  cases found : s.action with
  | transmit =>
    simp only [Controller.told?]
    cases (s.controller.slots.get .controlIn).next.step with
    | complete count =>
      simp only [Option.some.injEq, Notice.transferComplete.injEq, TransferStep.complete.injEq, true_and]
      constructor
      · rintro ⟨rfl, rfl, rfl⟩
        exact ⟨rfl, rfl, rfl⟩
      · rintro ⟨rfl, rfl, rfl⟩
        exact ⟨rfl, rfl, rfl⟩
    | packet => simp
    | idle => simp
  | interrupt vector =>
    simp only [Controller.told?]
    split <;> simp
  | _ => simp [Controller.told?]

end Session

end UsbDevice
