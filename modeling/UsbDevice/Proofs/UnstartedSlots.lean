import Mathlib.Data.List.Basic
import UsbDevice.Debug.MeteredSink
import UsbDevice.Proofs.ControlSlot

namespace UsbDevice

/-- The slice that the operation queues in the slot. -/
def Op.queues? (buffers : Buffers) (id : SlotId) : Op → Option Slice
  | .queueTransfer e region =>
    match e.resolve with
    | .ok e => if SlotId.ofEndpoint? e = some id then some (buffers.slice region) else none
    | .error _ => none
  | _ => none

/-- An operation lends a slice only where it queues it. -/
theorem Op.action_eq_lend_iff {op : Op} {buffers : Buffers} {guards : List Bool} {id : SlotId} {buffer : Slice} :
    op.action buffers guards = .lend id buffer ↔ op.queues? buffers id = some buffer := by
  cases op with
  | queueTransfer e region =>
    simp only [action, queues?]
    cases e.resolve with
    | error error => simp
    | ok e =>
      simp only
      cases SlotId.ofEndpoint? e <;> simp
  | unmask guard =>
    simp only [action, queues?]
    split <;> simp
  | serviceInterrupt line vector =>
    simp only [action, queues?]
    split <;> simp
  | _ => simp [action, queues?]

theorem Controller.served_ne_lend (c : Controller) (id : SlotId) (buffer : Slice) : c.served ≠ .lend id buffer := by
  unfold served
  split <;> simp

namespace Session

section Past

variable {σ : Type} {P Q : Session σ → Prop} {past : List (Session σ)} {s : Session σ} {id : SlotId} {buffer : Slice}

/-- The transfer that the slot holds. -/
def slot (s : Session σ) (id : SlotId) : Transfer := s.controller.slots.get id

/-- The slice that the next step queues in the slot. -/
def queues? (s : Session σ) (id : SlotId) : Option Slice :=
  match s.todo with
  | .call op :: _ => op.queues? s.buffers id
  | _ => none

/-- Of the slots that are never started, a bus reset drops only that of endpoint 0 from the host. -/
def Drops (id : SlotId) (s : Session σ) : Prop := id = .controlOut ∧ s.Resets

instance (id : SlotId) (s : Session σ) : Decidable (s.Drops id) := inferInstanceAs (Decidable (_ ∧ _))

theorem action_eq_lend_iff : s.action = .lend id buffer ↔ s.queues? id = some buffer := by
  unfold action queues?
  cases s.todo with
  | nil => simp
  | cons task rest =>
    cases task with
    | call op => exact Op.action_eq_lend_iff
    | dispatch => simp [Controller.served_ne_lend]
    | _ => simp

/-- At some point of the past `P` held, and ever since `Q`. -/
def Since (P Q : Session σ → Prop) (past : List (Session σ)) : Prop :=
  ∃ before p since, past = before ++ p :: since ∧ P p ∧ ∀ q ∈ since, Q q

theorem not_since_nil : ¬ Since P Q [] := by
  rintro ⟨before, p, since, split, _⟩
  simp at split

theorem since_concat : Since P Q (past ++ [s]) ↔ P s ∨ (Q s ∧ Since P Q past) := by
  constructor
  · rintro ⟨before, p, since, split, held, ever⟩
    rcases List.eq_nil_or_concat' since with rfl | ⟨since, last, rfl⟩
    · obtain rfl := List.singleton_inj.mp (List.append_inj' split rfl).2
      exact Or.inl held
    · rw [← List.cons_append, ← List.append_assoc] at split
      obtain ⟨rfl, same⟩ := List.append_inj' split rfl
      obtain rfl := List.singleton_inj.mp same
      rw [List.forall_mem_append, List.forall_mem_singleton] at ever
      exact Or.inr ⟨ever.2, before, p, since, rfl, held, ever.1⟩
  · rintro (held | ⟨last, before, p, since, rfl, held, ever⟩)
    · exact ⟨past, s, [], rfl, held, by simp⟩
    · refine ⟨before, p, since ++ [s], by simp, held, ?_⟩
      rw [List.forall_mem_append, List.forall_mem_singleton]
      exact ⟨ever, last⟩

/-- The slice that was queued last in the slot. -/
def lastQueued? (id : SlotId) (past : List (Session σ)) : Option Slice :=
  (past.filterMap fun p => p.queues? id).getLast?

theorem lastQueued?_concat : lastQueued? id (past ++ [s]) = (s.queues? id).or (lastQueued? id past) := by
  unfold lastQueued?
  cases queued : s.queues? id <;> simp [queued]

end Past

end Session

/-- Packets of endpoint 0 are as large as its buffers. The other endpoints have no packet size. -/
def SlotId.packetSize (id : SlotId) : Nat := if id.number.val = 0 then Slots.controlSize else 0

/-- The slot holds what was queued in it last, of which nothing has been handed out. -/
structure Transfer.Unstarted {σ : Type} (id : SlotId) (past : List (Session σ)) (t : Transfer) : Prop where
  size : t.maxSize = id.packetSize
  unsent : t.queuedLen = 0 ∧ t.shortPacket = false ∧ t.zlpSent = false
  total : t.totalLen = (Session.lastQueued? id past).elim 0 Slice.length
  armed : t.state = .armed ↔ Session.Since (fun p => (p.queues? id).isSome) (fun q => ¬ q.Drops id) past

namespace Transfer.Unstarted

variable {σ : Type} {id : SlotId} {past : List (Session σ)} {s : Session σ} {t : Transfer}

theorem new : Unstarted (σ := σ) id [] { maxSize := id.packetSize } where
  size := rfl
  unsent := ⟨rfl, rfl, rfl⟩
  total := rfl
  armed := by simp [Session.not_since_nil]

theorem start (unstarted : t.Unstarted id past) {buffer : Slice} (queued : s.queues? id = some buffer) :
    (t.start buffer).Unstarted id (past ++ [s]) where
  size := unstarted.size
  unsent := ⟨rfl, rfl, rfl⟩
  total := by simp [Session.lastQueued?_concat, queued, Transfer.start]
  armed := by simp [Session.since_concat, queued, Transfer.start]

/-- To drop a transfer leaves its length. -/
theorem abort (unstarted : t.Unstarted id past) (unqueued : s.queues? id = none) (drops : s.Drops id) :
    ((t.setMaxSize Slots.controlSize).abort).Unstarted id (past ++ [s]) where
  size := by rw [drops.1]; rfl
  unsent := unstarted.unsent
  total := by
    rw [Session.lastQueued?_concat, unqueued]
    exact unstarted.total
  armed := by simp [Session.since_concat, unqueued, drops, Transfer.abort]

theorem keep (unstarted : t.Unstarted id past) (unqueued : s.queues? id = none) (kept : ¬ s.Drops id) :
    t.Unstarted id (past ++ [s]) where
  size := unstarted.size
  unsent := unstarted.unsent
  total := by
    rw [Session.lastQueued?_concat, unqueued]
    exact unstarted.total
  armed := by
    rw [Session.since_concat, unstarted.armed]
    simp [unqueued, kept]

end Transfer.Unstarted

theorem Slots.get_initial (id : SlotId) : initial.get id = { maxSize := id.packetSize } := by
  obtain ⟨number, direction⟩ := id
  revert number
  cases direction <;> decide

namespace Session

variable {σ : Type} [Sink σ] {s : Session σ} {turn : Turn σ} {id : SlotId}

/-! What a step does to a slot other than that of endpoint 0 towards the host. -/

theorem step_slot_of_queues {buffer : Slice} (stepped : s.step = some turn) (queued : s.queues? id = some buffer) :
    turn.session.slot id = (s.slot id).start buffer := by
  unfold slot
  rw [step_controller stepped, action_eq_lend_iff.mpr queued]
  exact Slots.get_set_self _ _ _

theorem step_slot_of_drops (stepped : s.step = some turn) (drops : s.Drops id) :
    turn.session.slot id = ((s.slot id).setMaxSize Slots.controlSize).abort := by
  obtain ⟨rfl, resets⟩ := drops
  have apart : SlotId.controlOut ≠ SlotId.controlIn := by decide
  unfold slot
  rw [step_controller stepped, show s.action = .reset from resets]
  simp only [Controller.act, Controller.busReset, Slots.modify, Slots.get_set_of_ne _ _ apart, Slots.get_set_self]

theorem step_slot_of_other (stepped : s.step = some turn) (other : id ≠ .controlIn) (unqueued : s.queues? id = none)
    (kept : ¬ s.Drops id) : turn.session.slot id = s.slot id := by
  unfold slot
  rw [step_controller stepped]
  refine Controller.get_act_of_untouched (fun touches => ?_) s.controller s.buffers
  cases found : s.action with
  | lend target buffer =>
    obtain rfl : id = target := by rwa [found] at touches
    cases unqueued.symm.trans (action_eq_lend_iff.mp found)
  | reset =>
    rw [found] at touches
    exact kept ⟨touches.resolve_left other, found⟩
  | _ =>
    rw [found] at touches
    first | exact touches | exact other touches

omit [Sink σ] in
theorem Fresh.slot {start : Session σ} (fresh : start.Fresh) (id : SlotId) :
    start.slot id = { maxSize := id.packetSize } := by
  unfold Session.slot
  rw [fresh.controller]
  exact Slots.get_initial id

theorem Reach.unstarted {start t : Session σ} {past : List (Session σ)} (fresh : start.Fresh)
    (reach : start.Reach past t) (other : id ≠ .controlIn) : (t.slot id).Unstarted id past := by
  induction reach with
  | start =>
    rw [fresh.slot]
    exact .new
  | @next before last turn previous stepped ih =>
    cases queued : last.queues? id with
    | some buffer =>
      rw [step_slot_of_queues stepped queued]
      exact ih.start queued
    | none =>
      by_cases drops : last.Drops id
      · rw [step_slot_of_drops stepped drops]
        exact ih.abort queued drops
      · rw [step_slot_of_other stepped other queued drops]
        exact ih.keep queued drops

/-- The slots other than that of endpoint 0 towards the host hold what was queued last, and nothing of it is ever handed
out or reported. A bus reset drops what is queued for endpoint 0 from the host; no other step does anything to them. -/
theorem unstarted_slots {start t : Session σ} {past : List (Session σ)} (fresh : start.Fresh)
    (reach : start.Reach past t) :
    (∀ id, (t.slot id).maxSize = id.packetSize) ∧ (∀ id, id ≠ .controlIn → (t.slot id).Unstarted id past) ∧
      (∀ p ∈ past, ∀ client e bytes status, (client, .transferComplete e bytes status) ∈ p.notices → e = .controlIn) ∧
      ∀ turn, t.step = some turn → ∀ id, id ≠ .controlIn → t.queues? id = none → ¬ t.Drops id →
        turn.session.slot id = t.slot id := by
  refine ⟨fun id => ?_, fun id other => reach.unstarted fresh other, ?_, ?_⟩
  · by_cases control : id = .controlIn
    · subst control
      exact reach.controlIn_maxSize fresh
    · exact (reach.unstarted fresh control).size
  · intro p _ client e bytes status told
    exact (told_transferComplete.mp (mem_notices.mp told).2).2.2.1
  · intro turn stepped id other
    exact step_slot_of_other stepped other

/-- Both slots from the host are queued before a bus reset, and the client queues for endpoint 0 again when it is told.
Another bus reset then drops that. Interrupts of the endpoints do nothing to the slots, though the driver stops at one. -/
theorem unstarted_slots_of_resets :
    let start : Session MeteredSink :=
      Session.plan
        { output := { sink := {} }, buffers := [[1, 2, 3, 4, 5]]
          clients := [{ onBusReset := [[.queueTransfer (.numbered 0 .toDevice) (some ⟨0, 1, some 2⟩)]] }] }
        [.setClient 0, .queueTransfer (.numbered 0 .toDevice) (some ⟨0, 0, some 5⟩),
          .queueTransfer (.numbered 3 .toDevice) (some ⟨0, 0, some 4⟩), .handleInterrupt (some 0x16),
          .handleInterrupt (some 0x14), .handleInterrupt (some 0x16), .handleInterrupt (some 0x36)]
    let out : SlotId := ⟨3, .toDevice⟩
    let queued (length : Nat) (state : TransferState) : Progress :=
      { state, totalLen := length, queuedLen := 0, shortPacket := false, zlpSent := false }
    ((start.after 9).slot .controlOut).progress = queued 2 .armed ∧
      ((start.after 9).slot .controlOut).Unstarted .controlOut (start.path 9) ∧
      ((start.after 18).slot .controlOut).progress = queued 2 .idle ∧
      ¬ Since (fun p => (p.queues? .controlOut).isSome) (fun q => ¬ q.Drops .controlOut) (start.path 18) ∧
      (start.after 18).controller.halted ∧ ((start.after 18).slot out).progress = queued 4 .armed ∧
      ((start.after 18).slot out).Unstarted out (start.path 18) := by
  intro start out queued
  have fresh : start.Fresh := ⟨rfl, rfl, _, rfl⟩
  obtain ⟨_, before, _⟩ := unstarted_slots fresh (start.reach_after 9)
  obtain ⟨_, after, _⟩ := unstarted_slots fresh (start.reach_after 18)
  have dropped := after .controlOut (by decide)
  have idle : ((start.after 18).slot .controlOut).progress = queued 2 .idle := by decide +kernel
  refine ⟨by decide +kernel, before .controlOut (by decide), idle, ?_, by decide +kernel, by decide +kernel,
    after out (by decide)⟩
  rw [← dropped.armed, show ((start.after 18).slot .controlOut).state = .idle from congrArg Progress.state idle]
  decide

end Session

end UsbDevice
