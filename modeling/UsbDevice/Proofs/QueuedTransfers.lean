import UsbDevice.Proofs.ControllerAction
import UsbDevice.Proofs.FieldWrites

namespace UsbDevice

/-- A write that only clears takes what it names out of the register. -/
theorem FieldValue.modify_eq_and_not {w : Nat} {v : FieldValue w} (clears : v.value = 0) (r : BitVec w) :
    v.modify r = r &&& ~~~v.mask := by
  rw [modify, clears]
  exact BitVec.or_zero

/-! The address of an endpoint holds its number and its direction. -/

theorem Endpoint.number_address (e : Endpoint) : e.address.toNat % 16 = e.number.toNat := by
  obtain ⟨number, direction⟩ := e
  revert number
  cases direction <;> decide

theorem Endpoint.direction_address (e : Endpoint) :
    e.direction = if e.address.getLsbD 7 then .toHost else .toDevice := by
  obtain ⟨number, direction⟩ := e
  revert number
  cases direction <;> decide

theorem SlotId.ofEndpoint?_of_lt {e : Endpoint} (below : e.address.toNat % 16 < endpointCount) :
    ofEndpoint? e = some ⟨⟨e.address.toNat % 16, below⟩, if e.address.getLsbD 7 then .toHost else .toDevice⟩ := by
  have inside : e.number.toNat < endpointCount := e.number_address ▸ below
  have same : (⟨e.address.toNat % 16, below⟩ : Fin endpointCount) = ⟨e.number.toNat, inside⟩ := Fin.ext e.number_address
  rw [same, ← e.direction_address]
  exact dif_pos inside

theorem SlotId.ofEndpoint?_of_ge {e : Endpoint} (beyond : endpointCount ≤ e.address.toNat % 16) :
    ofEndpoint? e = none :=
  dif_neg (Nat.not_lt.mpr (e.number_address ▸ beyond))

namespace Controller

/-- Towards the device the direction bit is cleared, and the endpoint no longer answers NAK. -/
theorem startControl_toDevice (regs : Registers) :
    startControl regs .toDevice =
      { regs with
        ctl := regs.ctl &&& ~~~BusControl.direction.mask
        oepcnt0 := regs.oepcnt0 &&& ~~~EndpointCount.nak.mask } := by
  have ctl : (BusControl.toward .toDevice).modify regs.ctl = regs.ctl &&& ~~~BusControl.direction.mask :=
    FieldValue.modify_eq_and_not (by decide) regs.ctl
  have oepcnt0 : EndpointCount.nak.clear.modify regs.oepcnt0 = regs.oepcnt0 &&& ~~~EndpointCount.nak.mask :=
    FieldValue.modify_eq_and_not (by decide) regs.oepcnt0
  rw [← ctl, ← oepcnt0]
  rfl

/-- Towards the host the direction bit is set, and the interrupt of the endpoint is raised. -/
theorem startControl_toHost (regs : Registers) :
    startControl regs .toHost =
      { regs with
        ctl := regs.ctl ||| BusControl.direction.mask
        iepifg := regs.iepifg ||| EndpointBits.endpointZero.mask } := by
  have ctl : (BusControl.toward .toHost).modify regs.ctl = regs.ctl ||| BusControl.direction.mask :=
    FieldValue.modify_eq_or (by decide) regs.ctl
  have iepifg : EndpointBits.endpointZero.set.modify regs.iepifg = regs.iepifg ||| EndpointBits.endpointZero.mask :=
    FieldValue.modify_eq_or (by decide) regs.iepifg
  rw [← ctl, ← iepifg]
  rfl

/-- Only endpoint 0 has anything to do with the registers. -/
theorem lend_registers (c : Controller) (id : SlotId) (buffer : Slice) :
    (c.lend id buffer).registers =
      if id = .controlOut then startControl c.registers .toDevice
      else if id = .controlIn then startControl c.registers .toHost
      else c.registers := by
  obtain ⟨number, direction⟩ := id
  have zero : number.val = 0 ↔ number = 0 := Fin.val_eq_zero_iff
  simp only [lend, SlotId.controlOut, SlotId.controlIn, SlotId.mk.injEq, zero]
  by_cases control : number = 0
  · cases direction <;> simp [control]
  · simp [control]

/-- A transfer is queued in the slot that the address names, whatever was there before, and in nothing else but the bits
of endpoint 0. An address that names no slot changes nothing, and nothing is printed. -/
theorem queues_own_slot (config : Config) (c : Controller) (e : Endpoint) (buffer : Slice) :
    let number := e.address.toNat % 16
    let direction := if e.address.getLsbD 7 then Direction.toHost else .toDevice
    let queued := c.queueTransfer config e buffer
    let after := queued.controller
    (8 ≤ number → queued = { controller := c, said := [], answer := .error .inval }) ∧
      ∀ below : number < 8,
        let id : SlotId := ⟨⟨number, below⟩, direction⟩
        queued.answer = .ok () ∧
          after = { c with slots := after.slots, registers := after.registers } ∧
          (after.slots.get id).progress
            = { state := .armed, totalLen := buffer.length, queuedLen := 0, shortPacket := false, zlpSent := false } ∧
          (after.slots.get id).buffer = some buffer ∧
          (after.slots.get id).maxSize = (c.slots.get id).maxSize ∧
          (∀ other, other ≠ id → after.slots.get other = c.slots.get other) ∧
          after.registers =
            if id = .controlOut then
              { c.registers with
                ctl := c.registers.ctl &&& ~~~BusControl.direction.mask
                oepcnt0 := c.registers.oepcnt0 &&& ~~~EndpointCount.nak.mask }
            else if id = .controlIn then
              { c.registers with
                ctl := c.registers.ctl ||| BusControl.direction.mask
                iepifg := c.registers.iepifg ||| EndpointBits.endpointZero.mask }
            else c.registers := by
  intro number direction queued after
  refine ⟨fun beyond => ?_, fun below => ?_⟩
  · have none : SlotId.ofEndpoint? e = none := SlotId.ofEndpoint?_of_ge beyond
    simp only [queued, queueTransfer, none]
  · intro id
    have found : SlotId.ofEndpoint? e = some id := SlotId.ofEndpoint?_of_lt below
    have lent : after = c.lend id buffer := by
      have controller := c.queueTransfer_controller config e buffer
      rwa [found] at controller
    have answer : queued.answer = .ok () := by simp only [queued, queueTransfer, found]
    have own : after.slots.get id = (c.slots.get id).start buffer := by
      rw [lent]
      exact Slots.get_set_self _ _ _
    refine ⟨answer, ?_, ?_, ?_, ?_, fun other apart => ?_, ?_⟩
    · rw [lent]
      rfl
    · rw [own]
      rfl
    · rw [own]
      rfl
    · rw [own]
      rfl
    · rw [lent]
      exact Slots.get_set_of_ne _ _ apart
    · rw [lent, lend_registers, startControl_toDevice, startControl_toHost]

/-- Inside a section, with another transfer in flight and the driver stopped. Endpoint 11 is not there. -/
theorem queues_own_slot_in_flight :
    let c : Controller :=
      { registers := { ctl := 0x40, iepifg := 2 }
        masking := { depth := 2 }
        slots := Slots.initial.set .controlIn
          { maxSize := 8, buffer := some ⟨0, 0, 20⟩, totalLen := 20, queuedLen := 8, state := .armed }
        halted := true }
    let queued := c.queueTransfer {} .controlIn ⟨1, 2, 3⟩
    queued.answer = .ok () ∧
      (queued.controller.slots.get .controlIn).progress
        = { state := .armed, totalLen := 3, queuedLen := 0, shortPacket := false, zlpSent := false } ∧
      queued.controller.registers = { c.registers with ctl := 0x41, iepifg := 3 } ∧
      c.queueTransfer {} ⟨11, .toDevice⟩ ⟨1, 2, 3⟩ = { controller := c, said := [], answer := .error .inval } := by
  intro c queued
  obtain ⟨_, serves⟩ := c.queues_own_slot {} .controlIn ⟨1, 2, 3⟩
  obtain ⟨answer, _, progress, _, _, _, registers⟩ := serves (by decide)
  obtain ⟨refuses, _⟩ := c.queues_own_slot {} ⟨11, .toDevice⟩ ⟨1, 2, 3⟩
  exact ⟨answer, progress, registers.trans (by decide), refuses (by decide)⟩

end Controller

end UsbDevice
