import UsbDevice.Debug.MeteredSink
import UsbDevice.Proofs.InterruptReturn
import UsbDevice.Proofs.MaskedSections

namespace UsbDevice

/-- The sources that the driver serves. All others are faults. -/
def Source.served : List Source := [reset, setupPacketReceived, inputEndpoint0, outputEndpoint0]

namespace Enables

/-- Enabled are at most the bus reset, SETUP packets, and both directions of endpoint 0. -/
structure Served (e : Enables) : Prop where
  oepie : e.oepie &&& ~~~EndpointBits.endpointZero.mask = 0
  iepie : e.iepie &&& ~~~EndpointBits.endpointZero.mask = 0
  ie : e.ie &&& ~~~(BusEnable.reset.mask ||| BusEnable.setup.mask) = 0
  pwrctl : e.pwrctl = 0

/-- The source may raise the interrupt of the module. Each enable lets one source through, and a source without one is
held back. -/
def Admits (e : Enables) : Source → Prop
  | .powerDrop => PowerControl.overloadEnable.IsSet e.pwrctl
  | .vbusOn => PowerControl.busOnEnable.IsSet e.pwrctl
  | .vbusOff => PowerControl.busOffEnable.IsSet e.pwrctl
  | .inputEndpoint0 => EndpointBits.endpointZero.IsSet e.iepie
  | .outputEndpoint0 => EndpointBits.endpointZero.IsSet e.oepie
  | .reset => BusEnable.reset.IsSet e.ie
  | .suspend => BusEnable.suspend.IsSet e.ie
  | .resume => BusEnable.resume.IsSet e.ie
  | .setupPacketReceived => BusEnable.setup.IsSet e.ie
  | .setupOverwrite => BusEnable.setupOverwrite.IsSet e.ie
  | .inputEndpoint n => n ≠ 0 ∧ e.iepie.getLsbD n.toNat
  | .outputEndpoint n => n ≠ 0 ∧ e.oepie.getLsbD n.toNat
  | .none | .pllLock | .pllSignal | .pllRange | .timestamp => False

theorem served_none : Served {} := ⟨rfl, rfl, rfl, rfl⟩

/-- A register without a bit outside a mask has none in a field outside. -/
theorem not_isSet_of_outside {f : BitField 8} {r m : Byte} (outside : r &&& ~~~m = 0)
    (apart : ~~~m &&& f.mask = f.mask) : ¬ f.IsSet r := by
  have empty : r &&& f.mask = 0 := by
    rw [← apart, ← BitVec.and_assoc, outside]
    exact BitVec.zero_and
  exact fun set => set empty

theorem not_getLsbD_of_outside {n r : Byte} (outside : r &&& ~~~EndpointBits.endpointZero.mask = 0) (other : n ≠ 0) :
    r.getLsbD n.toNat = false := by
  have bit := congrArg (BitVec.getLsbD · n.toNat) outside
  have zero : n.toNat ≠ 0 := fun same => other (BitVec.eq_of_toNat_eq same)
  simp only [BitVec.getLsbD_and, BitVec.getLsbD_not, BitField.getLsbD_mask, BitVec.ofNat_eq_ofNat,
    BitVec.getLsbD_zero] at bit
  by_cases inside : n.toNat < 8
  · simpa [inside, EndpointBits.endpointZero, zero] using bit
  · exact BitVec.getLsbD_of_ge r n.toNat (Nat.le_of_not_lt inside)

theorem Served.mem_of_admits {e : Enables} (served : e.Served) {source : Source} (admits : e.Admits source) :
    source ∈ Source.served := by
  have supply (f : BitField 16) : ¬ f.IsSet e.pwrctl := by
    rw [served.pwrctl]
    exact fun set => set BitVec.zero_and
  cases source with
  | reset => simp [Source.served]
  | setupPacketReceived => simp [Source.served]
  | inputEndpoint0 => simp [Source.served]
  | outputEndpoint0 => simp [Source.served]
  | powerDrop => exact absurd admits (supply _)
  | vbusOn => exact absurd admits (supply _)
  | vbusOff => exact absurd admits (supply _)
  | suspend => exact absurd admits (not_isSet_of_outside served.ie (by decide))
  | resume => exact absurd admits (not_isSet_of_outside served.ie (by decide))
  | setupOverwrite => exact absurd admits (not_isSet_of_outside served.ie (by decide))
  | inputEndpoint n => exact absurd admits.2 (by simp [not_getLsbD_of_outside served.iepie admits.1])
  | outputEndpoint n => exact absurd admits.2 (by simp [not_getLsbD_of_outside served.oepie admits.1])
  | none => exact absurd admits not_false
  | pllLock => exact absurd admits not_false
  | pllSignal => exact absurd admits not_false
  | pllRange => exact absurd admits not_false
  | timestamp => exact absurd admits not_false

end Enables

namespace Controller

variable {c : Controller} {buffers : Buffers} {a : ControllerAction}

/-- No source is enabled that the driver does not serve, and none will be when the open sections close. -/
structure EnablesServed (c : Controller) : Prop where
  registers : (Enables.ofRegisters c.registers).Served
  saved : c.masking.saved.Served

theorem served_mask (served : (Enables.ofRegisters c.registers).Served) :
    (Enables.ofRegisters c.maskInterrupts.registers).Served := by
  by_cases closed : c.masking.depth = 0
  · rw [maskInterrupts_of_closed closed]
    exact ⟨BitVec.zero_and, BitVec.zero_and, BitVec.zero_and, c.registers.masked_pwrctl⟩
  · rw [maskInterrupts_of_opened closed]
    exact served

theorem EnablesServed.unmask (served : c.EnablesServed) :
    (Enables.ofRegisters c.unmaskInterrupts.registers).Served := by
  by_cases last : c.masking.depth = 1
  · rw [unmaskInterrupts_of_last last]
    refine ⟨served.saved.oepie, served.saved.iepie, served.saved.ie, ?_⟩
    have supply : c.registers.pwrctl &&& PowerControl.enables = 0 := served.registers.pwrctl
    simp only [lockBank, Enables.ofRegisters, served.saved.pwrctl]
    exact or_and_of_apart supply BitVec.zero_and
  · rw [unmaskInterrupts_of_ne_one last]
    exact served.registers

theorem served_bringUp (c : Controller) : (Enables.ofRegisters c.bringUp.controller.registers).Served := by
  have reset : BusEnable.reset.set.modify 0 &&& ~~~(BusEnable.reset.mask ||| BusEnable.setup.mask) = 0 := by decide
  have supply : (PowerControl.clearEnables + PowerControl.clearFlags).modify c.registers.pwrctl &&& PowerControl.enables
      = 0 := FieldValue.modify_and_eq_zero (by decide) (by decide) _
  exact ⟨BitVec.zero_and, BitVec.zero_and, reset, supply⟩

theorem served_busReset (served : (Enables.ofRegisters c.registers).Served) :
    (Enables.ofRegisters c.busReset.controller.registers).Served := by
  have endpoint (r : Byte) : EndpointBits.endpointZero.set.modify r &&& ~~~EndpointBits.endpointZero.mask
      = r &&& ~~~EndpointBits.endpointZero.mask := FieldValue.modify_and_of_disjoint (by decide) (by decide) r
  have setup : BusEnable.setup.set.modify c.registers.ie &&& ~~~(BusEnable.reset.mask ||| BusEnable.setup.mask)
      = c.registers.ie &&& ~~~(BusEnable.reset.mask ||| BusEnable.setup.mask) :=
    FieldValue.modify_and_of_disjoint (by decide) (by decide) c.registers.ie
  exact ⟨(endpoint _).trans served.oepie, (endpoint _).trans served.iepie, setup.trans served.ie, served.pwrctl⟩

theorem EnablesServed.act (served : c.EnablesServed) (pokes : ∀ r ∈ Register.enables, ¬ a.Pokes r) :
    (c.act buffers a).EnablesServed := by
  refine ⟨?_, c.saved_act buffers Enables.served_none served.registers served.saved⟩
  by_cases opens : a = .mask
  · subst opens
    exact served_mask served.registers
  by_cases closes : a = .unmask
  · subst closes
    exact served.unmask
  by_cases sets : a.SetsEnables
  · rcases sets with rfl | rfl | ⟨r, member, poked⟩
    · exact c.served_bringUp
    · exact served_busReset served.registers
    · exact absurd poked (pokes r member)
  -- What is left touches no enables.
  · rw [(c.act_masked buffers ⟨opens, closes⟩ sets).2]
    exact served.registers

end Controller

/-- The vector names a source that is served, so the verdict on it is no fault. -/
theorem Controller.verdict_of_served {c : Controller} {source : Source} (member : source ∈ Source.served)
    (code : source.code? = some c.registers.vecint) : c.verdict = .ok () := by
  unfold verdict
  simp only [Source.served, List.mem_cons, List.not_mem_nil, or_false] at member
  rcases member with rfl | rfl | rfl | rfl <;> rw [← Option.some.inj code] <;> rfl

namespace Session

variable {σ : Type} [Sink σ]

/-- Where all registers were zero at first, no source is let through but those that are served, now or when the open
sections close. Each of these is served without a fault, if clients leave the interrupt alone. -/
theorem enables_only_served {start t : Session σ} {past : List (Session σ)} (fresh : start.Fresh)
    (zeroed : start.controller.registers = {}) (reach : start.Reach past t)
    (pokes : ∀ p ∈ past, ∀ r ∈ Register.enables, ¬ p.Pokes r) :
    (Enables.ofRegisters t.controller.registers).Served ∧ t.controller.masking.saved.Served ∧
      (∀ source, (Enables.ofRegisters t.controller.registers).Admits source ∨ t.controller.masking.saved.Admits source →
        source ∈ Source.served) ∧
      ∀ source ∈ Source.served, ∀ op caller vector, op.asks? = some (caller, vector) → t.controller.halted = false →
        source.code? = some (t.controller.raise vector).registers.vecint →
        (∀ p ∈ (t.plan [op]).history.tail, ¬ p.Meddles) → t.Succeeds op caller := by
  have first : start.controller.EnablesServed := by
    rw [fresh.controller, zeroed]
    exact ⟨⟨rfl, rfl, rfl, rfl⟩, Enables.served_none⟩
  obtain ⟨registers, saved⟩ : t.controller.EnablesServed :=
    reach.keeps (P := fun s => s.controller.EnablesServed) (Q := fun p => ∀ r ∈ Register.enables, ¬ p.Pokes r)
      (fun p turn stepped quiet served => step_controller stepped ▸ served.act quiet) pokes first
  refine ⟨registers, saved, fun source admits => ?_, fun source member op caller vector asks running code quiet => ?_⟩
  · exact admits.elim registers.mem_of_admits saved.mem_of_admits
  · exact succeeds_of_verdict asks running (Controller.verdict_of_served member code) quiet

/-- A section is opened before a bus reset and closed after it, so that the enables are saved and put back. The client
that is told of the last packet queues another. -/
theorem enables_only_served_of_reset :
    let start : Session MeteredSink :=
      Session.plan
        { output := { sink := {} }
          clients := [{ onTransferComplete := [[.queueTransfer (.address 0x80) none]] }] }
        [.setClient 0, .bringUp, .handleInterrupt (some 0x16), .queueTransfer (.address 0x80) none,
          .handleInterrupt (some 0x12), .mask, .handleInterrupt (some 0x16), .queueTransfer (.address 0x80) none,
          .handleInterrupt (some 0x12)]
    let t := start.after 19
    t.controller.masking.saved = { oepie := 0x01, iepie := 0x01, ie := 0x44 } ∧ t.controller.masking.saved.Served ∧
      t.Succeeds (.handleInterrupt (some 0x12)) .driver := by
  intro start t
  have fresh : start.Fresh := ⟨rfl, rfl, _, rfl⟩
  have pokes : ∀ p ∈ start.path 19, ∀ r ∈ Register.enables, ¬ p.Pokes r := by decide +kernel
  have quiet : ∀ p ∈ (t.plan [.handleInterrupt (some 0x12)]).history.tail, ¬ p.Meddles := by decide +kernel
  obtain ⟨_, saved, _, serves⟩ := enables_only_served fresh rfl (start.reach_after 19) pokes
  exact ⟨by decide +kernel, saved, serves .inputEndpoint0 (by decide) (.handleInterrupt (some 0x12)) .driver
    (some 0x12) rfl (by decide +kernel) (by decide +kernel) quiet⟩

end Session

end UsbDevice
