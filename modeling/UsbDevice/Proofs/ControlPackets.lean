import UsbDevice.Debug.MeteredSink
import UsbDevice.Proofs.ControlSlot
import UsbDevice.Proofs.FieldWrites

namespace UsbDevice

/-- `bytes` have been put into the packet buffer of endpoint 0 and released to the host, and nothing else has
changed. -/
structure Registers.Loaded (before after : Registers) (bytes : List Byte) : Prop where
  count : (EndpointCount.count.read after.iepcnt0).toNat = bytes.length
  packet : after.iep0Buf.toList.take bytes.length = bytes
  stale : after.iep0Buf.toList.drop bytes.length = before.iep0Buf.toList.drop bytes.length
  reserved : after.iepcnt0 &&& 0x70 = before.iepcnt0 &&& 0x70
  released : ¬ EndpointCount.nak.IsSet after.iepcnt0
  others : after = { before with iep0Buf := after.iep0Buf, iepcnt0 := after.iepcnt0 }

theorem Slots.set_get_self (s : Slots) (id : SlotId) : s.set id (s.get id) = s := by
  obtain ⟨transfers⟩ := s
  exact congrArg Slots.mk (Vector.set_getElem_self id.index.isLt)

theorem Packet.toList_overwrite (p : Packet) {bytes : List Byte} (fits : bytes.length ≤ 8) :
    (p.overwrite bytes).toList = bytes ++ p.toList.drop bytes.length := by
  apply List.ext_getElem
  · simp only [Vector.length_toList, List.length_append, List.length_drop]
    omega
  · intro i inside _
    have bounded : i < 8 := by simpa only [Vector.length_toList] using inside
    rw [Vector.getElem_toList, getElem_overwrite p bytes bounded, List.getElem_append]
    by_cases sent : i < bytes.length
    · simp [List.getD_eq_getElem?_getD, sent]
    · simp [List.getD_eq_getElem?_getD, sent, show bytes.length + (i - bytes.length) = i by omega]

theorem Controller.loadPacket_loaded (regs : Registers) {bytes : List Byte} (fits : bytes.length ≤ 8) :
    regs.Loaded (loadPacket regs bytes) bytes where
  count := by
    have apart : EndpointCount.count.Disjoint EndpointCount.nak := by decide
    have small : ∀ n ≤ 8, BitVec.ofNat 8 n &&& EndpointCount.count.ones = BitVec.ofNat 8 n := by decide
    simp only [loadPacket]
    rw [show EndpointCount.nak.clear = EndpointCount.nak.val 0 from rfl,
      BitField.read_modify_val_of_disjoint apart, BitField.read_modify_val, small _ fits, BitVec.toNat_ofNat]
    omega
  packet := by
    simp only [loadPacket]
    rw [Packet.toList_overwrite _ fits, List.take_left]
  stale := by
    simp only [loadPacket]
    rw [Packet.toList_overwrite _ fits, List.drop_left]
  reserved := by
    have put : ∀ n ≤ 8, (EndpointCount.count.val (BitVec.ofNat 8 n)).value &&& 0x70 = 0 := by decide
    have nak : EndpointCount.nak.clear.mask &&& 0x70 = 0 ∧ EndpointCount.nak.clear.value &&& 0x70 = 0 := by decide
    have field : EndpointCount.count.mask &&& 0x70 = 0 := by decide
    simp only [loadPacket]
    rw [FieldValue.modify_and_of_disjoint nak.1 nak.2, FieldValue.modify_and_of_disjoint field (put _ fits)]
  released := BitField.not_isSet_modify_clear _ _
  others := rfl

namespace Session

variable {σ : Type} [Sink σ]

theorem step_of_action {s : Session σ} (acts : s.action ≠ .rest) : ∃ turn, s.step = some turn := by
  unfold action at acts
  cases pending : s.todo with
  | nil => simp [pending] at acts
  | cons task todo => exact ⟨_, step_of_todo pending⟩

omit [Sink σ] in
theorem lent_fits {s : Session σ} {buffer : Slice} (lent : s.lent? = some buffer) : buffer.Fits s.buffers := by
  rcases lent_eq_some lent with found | ⟨_, _, rfl⟩
  · unfold action at found
    split at found
    · next op _ _ =>
      cases op with
      | queueTransfer e region =>
        simp only [Op.action] at found
        split at found
        · split at found
          · cases found
            exact Buffers.slice_fits s.buffers region
          · cases found
        · cases found
      | unmask guard => simp only [Op.action] at found; split at found <;> cases found
      | serviceInterrupt line vector => simp only [Op.action] at found; split at found <;> cases found
      | _ => simp [Op.action] at found
    · unfold Controller.served at found
      split at found <;> cases found
    · cases found
  · exact Slice.fits_empty s.buffers

theorem Reach.fits {s t : Session σ} {past : List (Session σ)} {buffer : Slice} (reach : s.Reach past t)
    (fits : buffer.Fits s.buffers) : buffer.Fits t.buffers := by
  induction reach with
  | start => exact fits
  | next previous stepped ih =>
    unfold Slice.Fits
    rw [step_buffers_length stepped]
    exact ih

/-- An interrupt of the endpoint moves its transfer by one packet, and touches the registers only to send it. -/
theorem step_of_transmits {s : Session σ} {turn : Turn σ} (stepped : s.step = some turn) (transmits : s.Transmits) :
    turn.session.controller =
      { s.controller with
        slots := s.controller.slots.set .controlIn s.controlIn.next.transfer
        registers := match s.controlIn.next.step with
          | .packet chunk => Controller.loadPacket s.controller.registers (chunk.read s.buffers)
          | _ => s.controller.registers } := by
  rw [step_controller stepped, show s.action = .transmit from transmits]
  rfl

theorem step_of_transmits_idle {s : Session σ} {turn : Turn σ} (stepped : s.step = some turn)
    (transmits : s.Transmits) (idle : s.controlIn.state = .idle) :
    turn.session.controller = s.controller ∧ s.notices = [] := by
  have next := Transfer.next_idle idle
  constructor
  · rw [step_of_transmits stepped transmits, next]
    simp only [controlIn, Slots.set_get_self]
  · rw [notices_eq, show s.action = .transmit from transmits]
    have nothing : (s.controller.slots.get .controlIn).next.step = .idle := congrArg Advance.step next
    simp only [Controller.told?, nothing, Option.bind_none, Option.toList_none]

/-- How the interrupt of endpoint 0 serves a transfer of `buffer` after `count` interrupts since it was lent: one
packet of at most eight bytes for each, then the report, then nothing. -/
structure Serves (s : Session σ) (buffer : Slice) (count : Nat) (turn : Turn σ) : Prop where
  packet : count < max 1 ((buffer.length + 7) / 8) →
    ∃ bytes, bytes = ((buffer.read s.buffers).drop (8 * count)).take 8 ∧
      bytes.length = min 8 (buffer.length - 8 * count) ∧
      s.controller.registers.Loaded turn.session.controller.registers bytes ∧ s.notices = []
  report : count = max 1 ((buffer.length + 7) / 8) →
    turn.session.controller.registers = s.controller.registers ∧
      s.notices = (s.controller.client.map fun client =>
        (client, .transferComplete .controlIn buffer.length .success)).toList
  ended : max 1 ((buffer.length + 7) / 8) < count → turn.session.controller = s.controller ∧ s.notices = []

theorem serves_of_afterInterrupts {s : Session σ} {turn : Turn σ} {buffer : Slice} {count : Nat}
    (stepped : s.step = some turn) (transmits : s.Transmits) (fits : buffer.Fits s.buffers)
    (slot : s.controlIn = .afterInterrupts 8 buffer count) : s.Serves buffer count turn := by
  have positive : 0 < 8 := by decide
  have next : s.controlIn.next.step =
      if count < max 1 ((buffer.length + 7) / 8) then
        .packet (buffer.part (8 * count) (min 8 (buffer.length - 8 * count)))
      else if count = max 1 ((buffer.length + 7) / 8) then .complete buffer.length
      else .idle := by
    rw [slot, Transfer.next_afterInterrupts positive]
    rfl
  refine ⟨?_, ?_, ?_⟩
  · intro more
    have left : 8 * count + min 8 (buffer.length - 8 * count) ≤ buffer.length := by
      have := (lt_packetCount_iff positive).mp more
      omega
    have chunk : s.controlIn.next.step = .packet (buffer.part (8 * count) (min 8 (buffer.length - 8 * count))) := by
      rw [next, if_pos more]
    have length : ((buffer.read s.buffers).drop (8 * count)).length = buffer.length - 8 * count := by
      rw [List.length_drop, Slice.length_read fits]
    have read : (buffer.part (8 * count) (min 8 (buffer.length - 8 * count))).read s.buffers
        = ((buffer.read s.buffers).drop (8 * count)).take 8 := by
      rw [Slice.read_part left, ← length, ← List.take_eq_take_min]
    refine ⟨_, rfl, by rw [List.length_take, length], ?_, ?_⟩
    · rw [step_of_transmits stepped transmits, chunk]
      simp only [read]
      exact Controller.loadPacket_loaded _ (List.length_take_le _ _)
    · rw [notices_eq, show s.action = .transmit from transmits]
      simp only [Controller.told?, show (s.controller.slots.get .controlIn).next.step = _ from chunk, Option.bind_none,
        Option.toList_none]
  · intro last
    have complete : s.controlIn.next.step = .complete buffer.length := by
      rw [next, if_neg (Nat.not_lt_of_le (Nat.le_of_eq last.symm)), if_pos last]
    constructor
    · rw [step_of_transmits stepped transmits, complete]
    · rw [notices_eq, told_transferComplete.mpr ⟨transmits, complete, rfl, rfl⟩]
      rfl
  · intro ended
    have idle : s.controlIn.state = .idle := by
      rw [slot, Transfer.afterInterrupts_of_lt ended]
      rfl
    exact step_of_transmits_idle stepped transmits idle

/-- What is lent for endpoint 0 towards the host goes out packet by packet, one for each interrupt of the endpoint,
whatever happens in between. -/
theorem transmits_packets {start before t : Session σ} {past since : List (Session σ)} {turn : Turn σ} {buffer : Slice}
    (fresh : start.Fresh) (reach : start.Reach past before) (lent : before.lent? = some buffer)
    (stepped : before.step = some turn) (later : turn.session.Reach since t)
    (undisturbed : ∀ p ∈ since, p.lent? = none ∧ ¬ p.Resets) (transmits : t.Transmits) :
    ∃ sent, t.step = some sent ∧ t.Serves buffer (since.countP (·.Transmits)) sent := by
  obtain ⟨sent, step⟩ := step_of_action (s := t) (by simp [show t.action = .transmit from transmits])
  have first : turn.session.controlIn = .afterInterrupts 8 buffer 0 := by
    rw [step_controlIn_of_lent stepped lent, Transfer.start_eq_afterInterrupts, reach.controlIn_maxSize fresh]
    rfl
  have slot := later.controlIn_afterInterrupts (by decide) undisturbed first
  rw [Nat.zero_add] at slot
  have fits : buffer.Fits t.buffers := ((Reach.single stepped).append later).fits (lent_fits lent)
  exact ⟨sent, step, serves_of_afterInterrupts step transmits fits slot⟩

/-- Ten bytes, of which the owner changes one after the first packet has gone out. -/
theorem transmits_packets_of_ten_bytes :
    let start : Session MeteredSink :=
      Session.plan { output := { sink := {} }, buffers := [[1, 2, 3, 4, 5, 6, 7, 8, 9, 10]] }
        [.setClient 0, .queueTransfer (.address 0x80) (some { buffer := 0 }), .handleInterrupt (some 0x12),
          .writeBuffer (some { buffer := 0, start := 8 }) [0x55], .handleInterrupt (some 0x12)]
    ∃ sent, (start.after 7).step = some sent ∧
      (start.after 7).controller.registers.Loaded sent.session.controller.registers [0x55, 10] ∧
      (start.after 7).notices = [] := by
  intro start
  have fresh : start.Fresh := ⟨rfl, rfl, _, rfl⟩
  have stepped : ∃ marks, (start.after 1).step = some ⟨start.after 2, marks⟩ := ⟨_, rfl⟩
  have later : (start.after 2).Reach ((start.after 2).path 5) (start.after 7) := reach_after _ 5
  have lent : (start.after 1).lent? = some ⟨0, 0, 10⟩ := by decide +kernel
  have undisturbed : ∀ p ∈ (start.after 2).path 5, p.lent? = none ∧ ¬ p.Resets := by decide +kernel
  have transmits : (start.after 7).Transmits := by decide +kernel
  have bytes : ((Slice.read ⟨0, 0, 10⟩ (start.after 7).buffers).drop
      (8 * ((start.after 2).path 5).countP (·.Transmits))).take 8 = [0x55, 10] := by decide +kernel
  obtain ⟨marks, stepped⟩ := stepped
  obtain ⟨sent, step, serves⟩ :=
    transmits_packets fresh (start.reach_after 1) lent stepped later undisturbed transmits
  obtain ⟨_, rfl, _, loaded, silent⟩ := serves.packet (by decide +kernel)
  exact ⟨sent, step, bytes ▸ loaded, silent⟩

end Session

end UsbDevice
