import UsbDevice.Debug.MeteredSink
import UsbDevice.Proofs.MaskedSections
import UsbDevice.Proofs.SessionReach

namespace UsbDevice

variable {w : Nat} {own once r r' r'' : BitVec w}

/-- From `r` to `r'` only bits of `own` change, and none of `once` is cleared. -/
structure Rewritten (own once r r' : BitVec w) : Prop where
  others : ∀ i, own.getLsbD i = false → r'.getLsbD i = r.getLsbD i
  stays : ∀ i, once.getLsbD i → r.getLsbD i → r'.getLsbD i

theorem Rewritten.refl (r : BitVec w) : Rewritten own once r r := ⟨fun _ _ => rfl, fun _ _ set => set⟩

theorem Rewritten.trans (first : Rewritten own once r r') (second : Rewritten own once r' r'') :
    Rewritten own once r r'' :=
  ⟨fun i other => (second.others i other).trans (first.others i other),
    fun i kept set => second.stays i kept (first.stays i kept set)⟩

theorem getLsbD_of_within {bits : BitVec w} (within : bits &&& ~~~own = 0) {i : Nat} (other : own.getLsbD i = false) :
    bits.getLsbD i = false := by
  by_cases inside : i < w
  · have bit := congrArg (BitVec.getLsbD · i) within
    simpa only [BitVec.getLsbD_and, BitVec.getLsbD_not, inside, other, decide_true, Bool.not_false, Bool.and_true,
      BitVec.ofNat_eq_ofNat, BitVec.getLsbD_zero] using bit
  · exact BitVec.getLsbD_of_ge bits i (Nat.le_of_not_lt inside)

/-- The write names only bits of `own`, and clears none of `once`. -/
def FieldValue.Confined (own once : BitVec w) (v : FieldValue w) : Prop :=
  v.mask &&& ~~~own = 0 ∧ v.value &&& ~~~own = 0 ∧ v.mask &&& ~~~v.value &&& once = 0

instance (v : FieldValue w) : Decidable (v.Confined own once) := inferInstanceAs (Decidable (_ ∧ _))

theorem FieldValue.Confined.rewritten {v : FieldValue w} (confined : v.Confined own once) (r : BitVec w) :
    Rewritten own once r (v.modify r) := by
  obtain ⟨names, puts, sets⟩ := confined
  constructor
  · intro i other
    by_cases inside : i < w
    · simp only [modify, BitVec.getLsbD_or, BitVec.getLsbD_and, BitVec.getLsbD_not, inside,
        getLsbD_of_within names other, getLsbD_of_within puts other, decide_true, Bool.not_false, Bool.and_true,
        Bool.or_false]
    · rw [BitVec.getLsbD_of_ge _ i (Nat.le_of_not_lt inside), BitVec.getLsbD_of_ge r i (Nat.le_of_not_lt inside)]
  · intro i kept set
    have inside : i < w := BitVec.lt_of_getLsbD set
    have bit := congrArg (BitVec.getLsbD · i) sets
    simp only [BitVec.getLsbD_and, BitVec.getLsbD_not, inside, kept, decide_true, Bool.true_and, Bool.and_true,
      BitVec.ofNat_eq_ofNat, BitVec.getLsbD_zero] at bit
    simp only [modify, BitVec.getLsbD_or, BitVec.getLsbD_and, BitVec.getLsbD_not, inside, set, decide_true,
      Bool.true_and]
    cases named : v.mask.getLsbD i with
    | false => rfl
    | true => simpa only [named, Bool.true_and, Bool.not_eq_false', Bool.not_true, Bool.false_or] using bit

theorem rewritten_or {bits : BitVec w} (within : bits &&& ~~~own = 0) (r : BitVec w) :
    Rewritten own once r (r ||| bits) := by
  constructor
  · intro i other
    rw [BitVec.getLsbD_or, getLsbD_of_within within other, Bool.or_false]
  · intro i _ set
    rw [BitVec.getLsbD_or, set, Bool.true_or]

/-- Whatever is put into a field stays inside it. -/
theorem BitField.confined_val {f : BitField w} (within : f.mask &&& ~~~own = 0) (v : BitVec w) :
    (f.val v).Confined own 0 := by
  have inside : (f.val v).value = (f.val v).value &&& f.mask := by
    apply BitVec.eq_of_getLsbD_eq
    intro i _
    rw [BitVec.getLsbD_and, getLsbD_val_value, getLsbD_mask]
    cases decide (f.shift ≤ i ∧ i < f.shift + f.width) <;> simp
  refine ⟨within, ?_, BitVec.and_zero⟩
  rw [inside, BitVec.and_assoc, within]
  exact BitVec.and_zero

/-- From one content to the other the driver changes no bits but its own, and does not take back what it switches on
for good. -/
structure Registers.Driven (before after : Registers) : Prop where
  cnf : Rewritten (ModuleConfig.moduleEnable.mask ||| ModuleConfig.pullUpEnable.mask) ModuleConfig.moduleEnable.mask
    before.cnf after.cnf
  pwrctl : Rewritten (PowerControl.enables ||| PowerControl.clearFlags.mask) 0 before.pwrctl after.pwrctl
  iepcnf0 : Rewritten (EndpointConfig.bufferEnable.mask ||| EndpointConfig.interruptIndication.mask)
    (EndpointConfig.bufferEnable.mask ||| EndpointConfig.interruptIndication.mask) before.iepcnf0 after.iepcnf0
  oepcnf0 : Rewritten (EndpointConfig.bufferEnable.mask ||| EndpointConfig.interruptIndication.mask)
    (EndpointConfig.bufferEnable.mask ||| EndpointConfig.interruptIndication.mask) before.oepcnf0 after.oepcnf0
  iepcnt0 : Rewritten (EndpointCount.count.mask ||| EndpointCount.nak.mask) 0 before.iepcnt0 after.iepcnt0
  oepcnt0 : Rewritten EndpointCount.nak.mask 0 before.oepcnt0 after.oepcnt0
  ctl : Rewritten (BusControl.direction.mask ||| BusControl.functionEnable.mask) BusControl.functionEnable.mask
    before.ctl after.ctl
  sublk : after.sublk = before.sublk

example : PowerControl.enables ||| PowerControl.clearFlags.mask = 0x0707 := by decide

namespace Registers.Driven

theorem refl (regs : Registers) : regs.Driven regs :=
  ⟨.refl _, .refl _, .refl _, .refl _, .refl _, .refl _, .refl _, rfl⟩

theorem trans {regs regs' regs'' : Registers} (first : regs.Driven regs') (second : regs'.Driven regs'') :
    regs.Driven regs'' :=
  ⟨first.cnf.trans second.cnf, first.pwrctl.trans second.pwrctl, first.iepcnf0.trans second.iepcnf0,
    first.oepcnf0.trans second.oepcnf0, first.iepcnt0.trans second.iepcnt0, first.oepcnt0.trans second.oepcnt0,
    first.ctl.trans second.ctl, second.sublk.trans first.sublk⟩

end Registers.Driven

/-- The direction of the transfer that the action queues on endpoint 0. -/
def ControllerAction.queues? : ControllerAction → Option Direction
  | lend id _ => if id.number.val = 0 then some id.direction else none
  | setAddress _ => some .toHost
  | _ => none

/-- Of the supply register these are nothing but enables. -/
def Enables.OnlyEnables (e : Enables) : Prop := e.pwrctl &&& PowerControl.enables = e.pwrctl

theorem Enables.onlyEnables_ofRegisters (regs : Registers) : (ofRegisters regs).OnlyEnables :=
  (BitVec.and_assoc _ _ _).trans (congrArg (regs.pwrctl &&& ·) BitVec.and_self)

namespace Controller

variable {c : Controller} {buffers : Buffers} {a : ControllerAction}

theorem startControl_driven (regs : Registers) (d : Direction) : regs.Driven (startControl regs d) := by
  have ctl : Rewritten (BusControl.direction.mask ||| BusControl.functionEnable.mask) BusControl.functionEnable.mask
      regs.ctl ((BusControl.toward d).modify regs.ctl) := by
    cases d <;> exact FieldValue.Confined.rewritten (by decide) regs.ctl
  cases d with
  | toDevice =>
    exact { Registers.Driven.refl regs with
      ctl
      oepcnt0 := FieldValue.Confined.rewritten (by decide) regs.oepcnt0 }
  | toHost => exact { Registers.Driven.refl regs with ctl }

theorem lend_driven (c : Controller) (id : SlotId) (buffer : Slice) :
    c.registers.Driven (c.lend id buffer).registers := by
  unfold lend
  split
  · exact startControl_driven c.registers id.direction
  · exact .refl c.registers

theorem mask_driven (c : Controller) : c.registers.Driven c.maskInterrupts.registers := by
  by_cases closed : c.masking.depth = 0
  · rw [maskInterrupts_of_closed closed]
    exact { Registers.Driven.refl c.registers with
      pwrctl := FieldValue.Confined.rewritten (v := PowerControl.clearEnables) (by decide) c.registers.pwrctl }
  · rw [maskInterrupts_of_opened closed]
    exact { Registers.Driven.refl c.registers with }

theorem unmask_driven (saved : c.masking.saved.OnlyEnables) : c.registers.Driven c.unmaskInterrupts.registers := by
  by_cases last : c.masking.depth = 1
  · have within : c.masking.saved.pwrctl &&& ~~~(PowerControl.enables ||| PowerControl.clearFlags.mask) = 0 := by
      rw [← saved, BitVec.and_assoc, show PowerControl.enables &&& _ = 0 by decide]
      exact BitVec.and_zero
    rw [unmaskInterrupts_of_last last]
    exact { Registers.Driven.refl c.registers with pwrctl := rewritten_or within c.registers.pwrctl }
  · rw [unmaskInterrupts_of_ne_one last]
    exact { Registers.Driven.refl c.registers with }

theorem bringUp_driven (c : Controller) : c.registers.Driven c.bringUp.controller.registers :=
  { Registers.Driven.refl c.registers with
    cnf := (FieldValue.Confined.rewritten (by decide) _).trans
      (FieldValue.Confined.rewritten (by decide) _)
    pwrctl := FieldValue.Confined.rewritten (by decide) _ }

theorem busReset_driven (c : Controller) : c.registers.Driven c.busReset.controller.registers :=
  { Registers.Driven.refl c.registers with
    iepcnf0 := FieldValue.Confined.rewritten (by decide) _
    oepcnf0 := FieldValue.Confined.rewritten (by decide) _
    iepcnt0 := FieldValue.Confined.rewritten (by decide) _
    oepcnt0 := FieldValue.Confined.rewritten (by decide) _
    ctl := FieldValue.Confined.rewritten (by decide) _ }

/-- However long the packet is, its length stays in its field. -/
theorem loadPacket_driven (regs : Registers) (bytes : List Byte) : regs.Driven (loadPacket regs bytes) := by
  have counts : (EndpointCount.count.val (BitVec.ofNat 8 bytes.length)).Confined
      (EndpointCount.count.mask ||| EndpointCount.nak.mask) 0 :=
    BitField.confined_val (by decide) _
  have answers : EndpointCount.nak.clear.Confined (EndpointCount.count.mask ||| EndpointCount.nak.mask) 0 := by decide
  exact { Registers.Driven.refl regs with
    iepcnt0 := (counts.rewritten regs.iepcnt0).trans (answers.rewritten _) }

theorem act_driven (saved : c.masking.saved.OnlyEnables) (pokes : ∀ r, ¬ a.Pokes r) :
    c.registers.Driven (c.act buffers a).registers := by
  cases a with
  | bringUp => exact c.bringUp_driven
  | connect =>
    exact { Registers.Driven.refl c.registers with
      cnf := FieldValue.Confined.rewritten (by decide) _ }
  | disconnect =>
    exact { Registers.Driven.refl c.registers with
      cnf := FieldValue.Confined.rewritten (by decide) _ }
  | mask => exact c.mask_driven
  | unmask => exact unmask_driven saved
  | setAddress address =>
    have addressed : c.registers.Driven
        { c.registers with funadr := (FunctionAddress.address.val address).modify 0 } :=
      { Registers.Driven.refl c.registers with }
    exact addressed.trans (lend_driven { c with registers := { c.registers with funadr := _ } } .controlIn .empty)
  | lend id buffer => exact c.lend_driven id buffer
  | poke window offset bytes =>
    have same : c.registers.poke window offset bytes = c.registers := c.registers.poke_of_outside pokes
    simp only [act, same]
    exact .refl c.registers
  | raise vector => cases vector <;> exact { Registers.Driven.refl c.registers with }
  | interrupt vector =>
    obtain ⟨_, _, begun⟩ := c.act_interrupt buffers vector
    rw [begun]
    exact { Registers.Driven.refl c.registers with }
  | reset => exact c.busReset_driven
  | transmit =>
    simp only [act]
    split
    · exact loadPacket_driven c.registers _
    · exact .refl c.registers
  | _ => exact .refl c.registers

theorem direction_startControl (regs : Registers) (d : Direction) :
    BusControl.direction.read (startControl regs d).ctl = BitVec.ofNat 8 d.value := by
  have written : (startControl regs d).ctl = (BusControl.toward d).modify regs.ctl := by cases d <;> rfl
  rw [written, BusControl.toward, BitField.read_modify_val]
  cases d <;> decide

theorem direction_act (c : Controller) (buffers : Buffers) (pokes : ∀ r, ¬ a.Pokes r) :
    BusControl.direction.read (c.act buffers a).registers.ctl
      = (a.queues?.map fun d => BitVec.ofNat 8 d.value).getD (BusControl.direction.read c.registers.ctl) := by
  cases a with
  | mask =>
    obtain ⟨_, _, _, _, same⟩ := c.maskInterrupts_registers
    simp only [act, same]
    rfl
  | unmask =>
    obtain ⟨_, _, _, _, same⟩ := c.unmaskInterrupts_registers
    simp only [act, same]
    rfl
  | setAddress address => exact direction_startControl _ .toHost
  | lend id buffer =>
    by_cases zero : id.number.val = 0
    · simp only [act, lend, ControllerAction.queues?, zero, if_true, direction_startControl, Option.map_some,
        Option.getD_some]
    · simp only [act, lend, ControllerAction.queues?, zero, if_false, Option.map_none, Option.getD_none]
  | poke window offset bytes =>
    have same : c.registers.poke window offset bytes = c.registers := c.registers.poke_of_outside pokes
    simp only [act, same]
    rfl
  | raise vector => cases vector <;> rfl
  | interrupt vector =>
    obtain ⟨_, _, begun⟩ := c.act_interrupt buffers vector
    rw [begun]
    rfl
  | reset => exact BitField.read_modify_val_of_disjoint (by decide) _ _
  | transmit =>
    simp only [act]
    split <;> rfl
  | _ => rfl

end Controller

namespace Session

variable {σ : Type} [Sink σ] {start p t : Session σ} {past later : List (Session σ)}

theorem saved_of_step {turn : Turn σ} (stepped : p.step = some turn) (saved : p.controller.masking.saved.OnlyEnables) :
    turn.session.controller.masking.saved.OnlyEnables := by
  rw [step_controller stepped]
  exact p.controller.saved_act p.buffers BitVec.zero_and (Enables.onlyEnables_ofRegisters _) saved

theorem Reach.saved (reach : start.Reach past t) (fresh : start.Fresh) :
    t.controller.masking.saved.OnlyEnables := by
  have first : start.controller.masking.saved.OnlyEnables := by
    rw [fresh.controller]
    exact BitVec.zero_and
  exact reach.keeps (P := fun s => s.controller.masking.saved.OnlyEnables) (Q := fun _ => True)
    (fun _ _ stepped _ saved => saved_of_step stepped saved) (fun _ _ => trivial) first

theorem Reach.driven (rest : p.Reach later t) (saved : p.controller.masking.saved.OnlyEnables)
    (pokes : ∀ q ∈ later, ∀ r, ¬ q.Pokes r) : p.controller.registers.Driven t.controller.registers := by
  refine (rest.keeps
    (P := fun s => s.controller.masking.saved.OnlyEnables ∧ p.controller.registers.Driven s.controller.registers)
    (Q := fun q => ∀ r, ¬ q.Pokes r) ?_ pokes ⟨saved, .refl _⟩).2
  rintro q turn stepped quiet ⟨saved, driven⟩
  refine ⟨saved_of_step stepped saved, ?_⟩
  rw [step_controller stepped]
  exact driven.trans (Controller.act_driven saved quiet)

theorem Reach.direction (rest : p.Reach later t) (pokes : ∀ q ∈ later, ∀ r, ¬ q.Pokes r) :
    BusControl.direction.read t.controller.registers.ctl
      = ((later.filterMap fun q => q.action.queues?).getLast?.map fun d => BitVec.ofNat 8 d.value).getD
          (BusControl.direction.read p.controller.registers.ctl) := by
  induction rest with
  | start => rfl
  | @next past last turn previous stepped ih =>
    have earlier := ih fun q member => pokes q (List.mem_append_left _ member)
    rw [step_controller stepped, Controller.direction_act _ _ (pokes last (by simp)), earlier, List.filterMap_append,
      List.getLast?_append]
    cases queues : last.action.queues? <;> simp [queues]

theorem Reach.keypid (rest : p.Reach later t) (pokes : ∀ q ∈ later, ∀ r, ¬ q.Pokes r) :
    t.controller.registers.keypid
      = if ∃ q ∈ later, q.action.Unlocks then 0 else p.controller.registers.keypid := by
  induction rest with
  | start => simp
  | @next past last turn previous stepped ih =>
    have earlier := ih fun q member => pokes q (List.mem_append_left _ member)
    rw [step_controller stepped, Controller.keypid_act _ _ (pokes last (by simp) _), earlier]
    by_cases unlocks : last.action.Unlocks
    · simp [unlocks]
    · simp [unlocks, or_and_right, exists_or]

/-- Between two points of a run, with whatever the registers held at first, the driver changes only its own bits, the
data stage goes where the last transfer on endpoint 0 was to go, and the configuration is left locked by each action
that unlocks it. -/
theorem register_footprint (fresh : start.Fresh) (first : start.Reach past p) (rest : p.Reach later t)
    (pokes : ∀ q ∈ later, ∀ r, ¬ q.Pokes r) :
    p.controller.registers.Driven t.controller.registers ∧
      BusControl.direction.read t.controller.registers.ctl
        = ((later.filterMap fun q => q.action.queues?).getLast?.map fun d => BitVec.ofNat 8 d.value).getD
            (BusControl.direction.read p.controller.registers.ctl) ∧
      t.controller.registers.keypid
        = if ∃ q ∈ later, q.action.Unlocks then 0 else p.controller.registers.keypid :=
  ⟨rest.driven (first.saved fresh) pokes, rest.direction pokes, rest.keypid pokes⟩

/-- All registers hold ones at first, so that each write that is not confined to its field would show. A transfer is
queued between two sections, and one in the opposite direction by the client that is told of the bus reset. -/
theorem register_footprint_of_reset :
    let full : Registers :=
      { keypid := 0xffff, cnf := 0xffff, pwrctl := 0xffff, iepcnf0 := 0xff, iepcnt0 := 0xff, oepcnf0 := 0xff
        oepcnt0 := 0xff, ctl := 0xff, ifg := 0xbf, sublk := ⟨#[1, 2, 3, 4, 5, 6, 7, 8], rfl⟩ }
    let start : Session MeteredSink :=
      Session.plan
        { controller := { registers := full }
          output := { sink := {} }
          clients := [{ onBusReset := [[.queueTransfer (.address 0x80) none]] }] }
        [.setClient 0, .queueTransfer (.address 0x00) none, .mask, .unmask 0, .bringUp, .handleInterrupt (some 0x16),
          .handleInterrupt (some 0x12)]
    let t := start.after 13
    t.todo = [] ∧ full.Driven t.controller.registers ∧ BusControl.direction.read t.controller.registers.ctl = 1 ∧
      t.controller.registers.keypid = 0 := by
  intro full start t
  have fresh : start.Fresh := ⟨rfl, rfl, _, rfl⟩
  have pokes : ∀ q ∈ start.path 13, ∀ r ∈ Register.all, ¬ q.Pokes r := by decide +kernel
  obtain ⟨driven, direction, keypid⟩ := register_footprint fresh .start (start.reach_after 13)
    fun q member r => pokes q member r (by cases r <;> decide)
  refine ⟨by decide +kernel, driven, direction.trans ?_, keypid.trans (if_pos ?_)⟩
  · decide +kernel
  · decide +kernel

end Session

end UsbDevice
