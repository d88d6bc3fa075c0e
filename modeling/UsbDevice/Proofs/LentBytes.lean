import UsbDevice.Debug.MeteredSink
import UsbDevice.Proofs.BlindRuns
import UsbDevice.Proofs.ControlSlot

namespace UsbDevice

namespace Slice

/-- Byte `i` of `buffer` belongs to the slice. -/
def Covers (s : Slice) (buffer i : Nat) : Prop := s.buffer = buffer ∧ s.start ≤ i ∧ i < s.start + s.length

instance (s : Slice) (buffer i : Nat) : Decidable (s.Covers buffer i) := inferInstanceAs (Decidable (_ ∧ _))

/-- No byte belongs to both. -/
def Apart (a b : Slice) : Prop := ∀ buffer i, a.Covers buffer i → ¬ b.Covers buffer i

theorem apart_iff {a b : Slice} :
    a.Apart b ↔ (a.buffer = b.buffer → min (a.start + a.length) (b.start + b.length) ≤ max a.start b.start) := by
  constructor
  · intro apart same
    by_contra meet
    exact apart a.buffer (max a.start b.start) ⟨rfl, by omega, by omega⟩ ⟨same.symm, by omega, by omega⟩
  · rintro disjoint _ i ⟨rfl, lower, upper⟩ ⟨same, lower', upper'⟩
    have ordered := disjoint same.symm
    omega

instance (a b : Slice) : Decidable (a.Apart b) := decidable_of_iff' _ apart_iff

theorem covers_part {s : Slice} {start length buffer i : Nat} : (s.part start length).Covers buffer i
    ↔ s.buffer = buffer ∧ s.start + start ≤ i ∧ i < s.start + start + length :=
  Iff.rfl

theorem not_covers_empty (buffer i : Nat) : ¬ empty.Covers buffer i :=
  fun ⟨_, lower, upper⟩ => Nat.not_lt_of_le lower upper

theorem apart_empty (s : Slice) : s.Apart empty := fun buffer i _ => not_covers_empty buffer i

theorem Apart.mono {a b c : Slice} (apart : a.Apart b)
    (within : ∀ buffer i, c.Covers buffer i → b.Covers buffer i) : a.Apart c :=
  fun buffer i covers covered => apart buffer i covers (within buffer i covered)

/-- What a write of `data` reaches of the slice. -/
def reached (s : Slice) (data : List Byte) : Slice := s.part 0 (data.take s.length).length

theorem getElem?_overwrite (bytes data : List Byte) (start i : Nat) :
    ((bytes.take start ++ data ++ bytes.drop (start + data.length)).take bytes.length)[i]?
      = if start ≤ i ∧ i < start + data.length ∧ i < bytes.length then data[i - start]? else bytes[i]? := by
  simp only [List.getElem?_take, List.append_assoc, List.getElem?_append, List.length_take, List.getElem?_drop]
  grind

/-- One byte of a buffer after a write: one of `data` where the write reaches it, or else what it was. -/
theorem getElem?_write (s : Slice) (buffers : Buffers) (data : List Byte) (buffer i : Nat) :
    ((s.write buffers data).getD buffer [])[i]?
      = if (s.reached data).Covers buffer i ∧ i < (buffers.getD buffer []).length then data[i - s.start]?
        else (buffers.getD buffer [])[i]? := by
  simp only [write, List.getD_eq_getElem?_getD, List.getElem?_modify, Covers, reached, part, Nat.add_zero]
  by_cases here : s.buffer = buffer
  · subst here
    cases buffers[s.buffer]? with
    | none => simp
    | some bytes =>
      simp only [if_true, Option.map_eq_map, Option.map_some, Option.getD_some, getElem?_overwrite, true_and, and_assoc]
      split
      · next reached =>
        have offered : i - s.start < s.length := by
          simp only [List.length_take] at reached
          omega
        rw [List.getElem?_take_of_lt offered]
      · rfl
  · simp [here]

/-- What a slice reads is read from the bytes that it covers. -/
theorem read_congr {s : Slice} {buffers buffers' : Buffers}
    (same : ∀ i, s.Covers s.buffer i → (buffers'.getD s.buffer [])[i]? = (buffers.getD s.buffer [])[i]?) :
    s.read buffers' = s.read buffers := by
  apply List.ext_getElem?
  intro i
  simp only [read, List.getElem?_take, List.getElem?_drop]
  split
  · next inside => exact same _ ⟨rfl, Nat.le_add_right _ _, Nat.add_lt_add_left inside _⟩
  · rfl

end Slice

namespace Transfer

/-- What the transfer has still to send. -/
def unsent (t : Transfer) : Slice :=
  match t.state, t.buffer with
  | .armed, some buffer => buffer.part t.queuedLen (t.totalLen - t.queuedLen)
  | _, _ => .empty

theorem unsent_start (t : Transfer) (buffer : Slice) : (t.start buffer).unsent = buffer := rfl

theorem unsent_abort (t : Transfer) : t.abort.unsent = .empty := rfl

/-- A packet is taken from what was unsent, of which the rest stays. -/
theorem covers_unsent {t : Transfer} {buffer i : Nat}
    (covers : t.next.transfer.unsent.Covers buffer i ∨
      ∃ chunk, t.next.step = .packet chunk ∧ chunk.Covers buffer i) : t.unsent.Covers buffer i := by
  unfold next at covers
  split at covers
  · simpa using covers
  · next running =>
    split at covers
    · rcases covers with none | ⟨_, packet, _⟩
      · exact absurd none (Slice.not_covers_empty buffer i)
      · cases packet
    · have armed : t.state = .armed := by
        cases state : t.state with
        | idle => exact absurd (Or.inl state) running
        | armed => rfl
      have size : t.nextSize ≤ t.totalLen - t.queuedLen := Nat.min_le_right _ _
      simp only [TransferStep.packet.injEq, exists_eq_left'] at covers
      cases lent : t.buffer with
      | none =>
        have none : Slice.empty.Covers buffer i := by simpa only [unsent, nextChunk, armed, lent, or_self] using covers
        exact absurd none (Slice.not_covers_empty buffer i)
      | some slice =>
        simp only [unsent, nextChunk, armed, lent, Slice.covers_part] at covers ⊢
        rcases covers with ⟨same, lower, upper⟩ | ⟨same, lower, upper⟩
        · exact ⟨same, by omega, by omega⟩
        · exact ⟨same, lower, by omega⟩

end Transfer

/-- An owner writes the same to buffers that hold the same. -/
theorem Task.getElem?_written {buffers buffers' : Buffers} (lengths : buffers'.blind = buffers.blind) {buffer i : Nat}
    (same : (buffers'.getD buffer [])[i]? = (buffers.getD buffer [])[i]?) (task : Task) :
    ((task.written buffers').getD buffer [])[i]? = ((task.written buffers).getD buffer [])[i]? := by
  have length : (buffers'.getD buffer []).length = (buffers.getD buffer []).length := by
    rw [← Buffers.length_getD_blind, lengths, Buffers.length_getD_blind]
  have slices (region : Option Region) : buffers'.slice region = buffers.slice region := by
    rw [← Buffers.slice_blind, lengths, Buffers.slice_blind]
  cases task with
  | call op =>
    cases op with
    | writeBuffer region data => simp only [written, Op.written, slices, Slice.getElem?_write, length, same]
    | _ => exact same
  | _ => exact same

namespace Session

variable {σ : Type} [Sink σ]

/-- What an owner writes to the buffers in the next step. -/
def ownerWrites (s : Session σ) (buffers : Buffers) : Buffers :=
  match s.todo with
  | .call (.writeBuffer region data) :: _ => (buffers.slice region).write buffers data
  | _ => buffers

/-- Only their owners change the buffers. -/
theorem step_buffers {s : Session σ} {turn : Turn σ} (stepped : s.step = some turn) :
    turn.session.buffers = s.ownerWrites s.buffers := by
  obtain ⟨task, todo, pending, rfl⟩ := outcome_of_step stepped
  unfold ownerWrites
  rw [pending]
  cases task with
  | call op => cases op <;> rfl
  | _ => rfl

theorem Reach.buffers {s t : Session σ} {past : List (Session σ)} (reach : s.Reach past t) :
    t.buffers = past.foldl (fun buffers p => p.ownerWrites buffers) s.buffers := by
  induction reach with
  | start => rfl
  | @next before last turn previous stepped ih =>
    rw [List.foldl_append, ← ih, step_buffers stepped]
    rfl

/-- The buffers differ inside `area` at most, of which nothing is going to be sent. -/
structure DifferInside (area : Slice) (s s' : Session σ) : Prop where
  controller : s'.controller = s.controller
  clients : s'.clients = s.clients
  guards : s'.guards = s.guards
  todo : s'.todo = s.todo
  lengths : s'.buffers.blind = s.buffers.blind
  outside : ∀ buffer i, ¬ area.Covers buffer i → (s'.buffers.getD buffer [])[i]? = (s.buffers.getD buffer [])[i]?
  unsent : area.Apart s.controlIn.unsent

omit [Sink σ] in
/-- What is sent lies outside. -/
theorem DifferInside.act {area : Slice} {s s' : Session σ} (differ : DifferInside area s s') (a : ControllerAction) :
    s'.controller.act s'.buffers a = s.controller.act s.buffers a := by
  rw [differ.controller]
  cases a with
  | transmit =>
    simp only [Controller.act]
    cases step : (s.controller.slots.get .controlIn).next.step with
    | packet chunk =>
      have read : chunk.read s'.buffers = chunk.read s.buffers := Slice.read_congr fun i covers =>
        differ.outside _ _ fun inside =>
          differ.unsent _ _ inside (Transfer.covers_unsent (Or.inr ⟨chunk, step, covers⟩))
      simp only [read]
    | _ => rfl
  | _ => rfl

/-- Nothing more can be sent of `area` after a step than before it, unless it is lent. -/
theorem apart_unsent_of_step {area : Slice} {s : Session σ} {turn : Turn σ} (stepped : s.step = some turn)
    (unsent : area.Apart s.controlIn.unsent) (lent : ∀ buffer, s.lent? = some buffer → area.Apart buffer) :
    area.Apart turn.session.controlIn.unsent := by
  cases lends : s.lent? with
  | some buffer =>
    rw [step_controlIn_of_lent stepped lends, Transfer.unsent_start]
    exact lent buffer lends
  | none =>
    by_cases resets : s.Resets
    · rw [step_controlIn_of_resets stepped resets, Transfer.unsent_abort]
      exact area.apart_empty
    · by_cases transmits : s.Transmits
      · rw [step_controlIn_of_transmits stepped transmits]
        exact unsent.mono fun _ _ covers => Transfer.covers_unsent (Or.inl covers)
      · rwa [step_controlIn_of_other stepped lends resets transmits]

theorem DifferInside.step {area : Slice} {s s' : Session σ} {turn : Turn σ} (differ : DifferInside area s s')
    (stepped : s.step = some turn) (lent : ∀ buffer, s.lent? = some buffer → area.Apart buffer) :
    ∃ turn', s'.step = some turn' ∧ DifferInside area turn.session turn'.session := by
  have unsent := apart_unsent_of_step stepped differ.unsent lent
  obtain ⟨task, todo, pending, rfl⟩ := outcome_of_step stepped
  refine ⟨_, step_eq_outcome (differ.todo.trans pending), ?_⟩
  have action : task.action s.controller s'.buffers s.guards = task.action s.controller s.buffers s.guards := by
    rw [← Task.action_blind, differ.lengths, Task.action_blind]
  have told : ({ s' with todo } : Session σ).told? task = ({ s with todo } : Session σ).told? task := by
    simp only [told?, differ.controller, differ.guards, action]
  have acted : s'.controller.act s'.buffers (task.action s'.controller s'.buffers s'.guards)
      = s.controller.act s.buffers (task.action s.controller s.buffers s.guards) := by
    rw [differ.controller, differ.guards, action, ← differ.act, differ.controller]
  exact
    { controller := acted
      clients := congrArg₂ Client.replied differ.clients told
      guards := congrArg (task.guards ·) differ.guards
      todo := congrArg₂ (· ++ ·) (congrArg₂ Client.replies differ.clients told)
        (congrArg (task.resumed · ++ todo) differ.controller)
      lengths := by
        have written := task.written_blind s'.buffers
        rw [differ.lengths, task.written_blind] at written
        exact written.symm
      outside := fun buffer i outside => task.getElem?_written differ.lengths (differ.outside buffer i outside)
      unsent }

/-- A write to bytes that are not to be sent any more, and are not lent again, changes nothing of what the controller
does. -/
theorem controller_after_write (s : Session σ) (region : Option Region) (data : List Byte) (n : Nat) :
    let area := (s.buffers.slice region).reached data
    area.Apart s.controlIn.unsent → (∀ p ∈ s.path n, ∀ buffer, p.lent? = some buffer → area.Apart buffer) →
      ({ s with todo := .call (.writeBuffer region data) :: s.todo }.after (n + 1)).controller
        = (s.after n).controller := by
  intro area unsent later
  let write : Task := .call (.writeBuffer region data)
  have written : DifferInside area s (s.outcome write).session :=
    { controller := rfl, clients := rfl, guards := rfl, todo := rfl, unsent
      lengths := Buffers.blind_write _ _ _
      outside := fun buffer i outside => by
        have other := Slice.getElem?_write (s.buffers.slice region) s.buffers data buffer i
        rwa [if_neg fun reached => outside reached.1] at other }
  have begun : { s with todo := write :: s.todo }.after (n + 1) = (s.outcome write).session.after n := by
    simp only [after, step_eq_outcome (s := { s with todo := write :: s.todo }) rfl]
  have alike := after_alike (R := DifferInside area) (fun _ => ())
    (fun p p' differ done => differ.todo.trans done)
    (fun p p' turn differ (lent : ∀ buffer, p.lent? = some buffer → area.Apart buffer) stepped => by
      obtain ⟨turn', stepped', next⟩ := differ.step stepped lent
      exact ⟨turn', stepped', next, rfl⟩) written n later
  rw [begun]
  exact alike.1.controller

/-- The bytes of lent buffers go nowhere but to the packet buffer towards the host, and are read only for a transfer
that has still to send them. Only the owners write to them. -/
theorem lent_bytes_flow (s s' : Session σ) (n : Nat) :
    (s'.blind = s.blind → (s'.after n).blind = (s.after n).blind ∧
      (s'.path n).map (fun p => p.marks.map Mark.blind) = (s.path n).map fun p => p.marks.map Mark.blind) ∧
    (s.after n).buffers = (s.path n).foldl (fun buffers p => p.ownerWrites buffers) s.buffers ∧
    ∀ region data, let area := (s.buffers.slice region).reached data
      area.Apart s.controlIn.unsent → (∀ p ∈ s.path n, ∀ buffer, p.lent? = some buffer → area.Apart buffer) →
        ({ s with todo := .call (.writeBuffer region data) :: s.todo }.after (n + 1)).controller
          = (s.after n).controller :=
  ⟨fun same => after_blind same n, (s.reach_after n).buffers, fun region data =>
    s.controller_after_write region data n⟩

/-- Eight of ten bytes have gone out. The other two show in the packet buffer, and nothing else shows. -/
theorem lent_bytes_flow_of_ten_bytes :
    let start : Session MeteredSink :=
      Session.plan { output := { sink := {} }, buffers := [[1, 2, 3, 4, 5, 6, 7, 8, 9, 10]] }
        [.setClient 0, .queueTransfer (.address 0x80) (some { buffer := 0 }), .handleInterrupt (some 0x12),
          .handleInterrupt (some 0x12)]
    let s := start.after 5
    let other := { s with buffers := [[1, 2, 3, 4, 5, 6, 7, 8, 0x55, 0xaa]] }
    let write : Op := .writeBuffer (some { buffer := 0 }) [0, 0, 0, 0, 0, 0, 0, 0]
    (other.after 3).controller.registers.iep0Buf ≠ (s.after 3).controller.registers.iep0Buf ∧
      (other.after 3).blind = (s.after 3).blind ∧
      ({ s with todo := .call write :: s.todo }.after 4).controller = (s.after 3).controller := by
  intro start s other write
  have buffers : other.buffers.blind = s.buffers.blind := by decide +kernel
  have same : other.blind = s.blind := blind_eq rfl rfl rfl buffers rfl rfl rfl rfl
  let area := (s.buffers.slice (some { buffer := 0 })).reached [0, 0, 0, 0, 0, 0, 0, 0]
  have unsent : area.Apart s.controlIn.unsent := by decide +kernel
  have lent : ∀ p ∈ s.path 3, p.lent? = none := by decide +kernel
  obtain ⟨blind, _, stale⟩ := lent_bytes_flow s other 3
  refine ⟨by decide +kernel, (blind same).1, stale _ _ unsent fun p member buffer lends => ?_⟩
  cases (lent p member).symm.trans lends

end Session

end UsbDevice
