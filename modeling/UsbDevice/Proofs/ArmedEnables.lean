import UsbDevice.Debug.MeteredSink
import UsbDevice.Proofs.MaskedSections
import UsbDevice.Proofs.SessionReach

namespace UsbDevice

/-- What is armed after the action. Bringing up arms the bus reset alone, and a bus reset adds SETUP packets and
endpoint 0. -/
def Enables.arm (e : Enables) (a : ControllerAction) : Enables :=
  if a = .bringUp then { ie := BusEnable.reset.mask }
  else if a = .reset then
    { e with
      oepie := e.oepie ||| EndpointBits.endpointZero.mask
      iepie := e.iepie ||| EndpointBits.endpointZero.mask
      ie := e.ie ||| BusEnable.setup.mask }
  else e

/-- What of it outlasts open sections. Their end takes away what is armed inside, and bringing up inside gives up what
was armed before. -/
def Enables.keep (e : Enables) (c : Controller) (a : ControllerAction) : Enables :=
  if c.masking.depth = 0 then e.arm a else if a = .bringUp then {} else e

namespace Controller

/-- `e` is enabled, or will be when the open sections have closed. -/
structure Keeps (c : Controller) (e : Enables) : Prop where
  closed : c.masking.depth = 0 → Enables.ofRegisters c.registers = e
  saved : c.masking.depth ≠ 0 → c.masking.saved = e
  supply : c.masking.depth ≠ 0 → c.registers.pwrctl &&& PowerControl.enables = 0
  within : e.pwrctl &&& PowerControl.enables = e.pwrctl

variable {c : Controller} {e : Enables} {buffers : Buffers} {a : ControllerAction}

theorem Keeps.mask (keeps : c.Keeps e) : c.maskInterrupts.Keeps e := by
  by_cases closed : c.masking.depth = 0
  · rw [maskInterrupts_of_closed closed]
    exact ⟨fun zero => absurd zero (Nat.succ_ne_zero 0), fun _ => keeps.closed closed,
      fun _ => Registers.masked_pwrctl c.registers, keeps.within⟩
  · rw [maskInterrupts_of_opened closed]
    exact ⟨fun zero => absurd zero (Nat.succ_ne_zero _), fun _ => keeps.saved closed, fun _ => keeps.supply closed,
      keeps.within⟩

theorem Keeps.unmask (keeps : c.Keeps e) : c.unmaskInterrupts.Keeps e := by
  by_cases last : c.masking.depth = 1
  · have opened : c.masking.depth ≠ 0 := last ▸ Nat.one_ne_zero
    rw [unmaskInterrupts_of_last last]
    refine ⟨fun _ => ?_, fun more => absurd rfl more, fun more => absurd rfl more, keeps.within⟩
    have supply : (c.registers.pwrctl ||| e.pwrctl) &&& PowerControl.enables = e.pwrctl :=
      or_and_of_apart (keeps.supply opened) keeps.within
    simp only [lockBank, Enables.ofRegisters, keeps.saved opened, supply]
  · rw [unmaskInterrupts_of_ne_one last]
    have still : c.masking.depth - 1 = 0 ↔ c.masking.depth = 0 := by omega
    exact ⟨fun zero => keeps.closed (still.mp zero), fun more => keeps.saved (mt still.mpr more),
      fun more => keeps.supply (mt still.mpr more), keeps.within⟩

theorem keeps_bringUp (c : Controller) (e : Enables) : c.bringUp.controller.Keeps (e.keep c .bringUp) := by
  have supply : (PowerControl.clearEnables + PowerControl.clearFlags).modify c.registers.pwrctl &&& PowerControl.enables
      = 0 := FieldValue.modify_and_eq_zero (by decide) (by decide) _
  by_cases closed : c.masking.depth = 0
  · rw [Enables.keep, if_pos closed, Enables.arm, if_pos rfl]
    refine ⟨fun _ => ?_, fun opened => absurd closed opened, fun opened => absurd closed opened, rfl⟩
    simp only [Controller.bringUp, withUnlocked, Enables.ofRegisters, supply]
    rfl
  · rw [Enables.keep, if_neg closed, if_pos rfl]
    exact ⟨fun zero => absurd zero closed, fun _ => rfl, fun _ => supply, rfl⟩

theorem Keeps.busReset (keeps : c.Keeps e) : c.busReset.controller.Keeps (e.keep c .reset) := by
  by_cases closed : c.masking.depth = 0
  · rw [Enables.keep, if_pos closed, Enables.arm, if_neg (by simp), if_pos rfl, ← keeps.closed closed]
    have within : (c.registers.pwrctl &&& PowerControl.enables) &&& PowerControl.enables
        = c.registers.pwrctl &&& PowerControl.enables := by rw [BitVec.and_assoc, BitVec.and_self]
    refine ⟨fun _ => ?_, fun opened => absurd closed opened, fun opened => absurd closed opened, within⟩
    have endpoint (r : Byte) : EndpointBits.endpointZero.set.modify r = r ||| EndpointBits.endpointZero.mask :=
      FieldValue.modify_eq_or (by decide) r
    have setup (r : Byte) : BusEnable.setup.set.modify r = r ||| BusEnable.setup.mask :=
      FieldValue.modify_eq_or (by decide) r
    simp only [Controller.busReset, withUnlocked, Enables.ofRegisters, endpoint, setup]
  · rw [Enables.keep, if_neg closed, if_neg (by simp)]
    exact ⟨fun zero => absurd zero closed, fun _ => keeps.saved closed, fun _ => keeps.supply closed, keeps.within⟩

/-- An action that neither works on sections nor sets enables has no part in what is armed. -/
theorem Keeps.other (keeps : c.Keeps e) (neither : a ≠ .mask ∧ a ≠ .unmask) (sets : ¬ a.SetsEnables) :
    (c.act buffers a).Keeps e := by
  obtain ⟨_, same⟩ := act_masked c buffers neither sets
  have masking := c.masking_act buffers neither fun brings => sets (Or.inl brings)
  have supply : (c.act buffers a).registers.pwrctl &&& PowerControl.enables
      = c.registers.pwrctl &&& PowerControl.enables := congrArg Enables.pwrctl same
  refine ⟨fun closed => ?_, fun opened => ?_, fun opened => ?_, keeps.within⟩
  · rw [same, keeps.closed (masking ▸ closed)]
  · rw [masking, keeps.saved (masking ▸ opened)]
  · rw [supply, keeps.supply (masking ▸ opened)]

theorem Keeps.act (keeps : c.Keeps e) (pokes : ∀ r ∈ Register.enables, ¬ a.Pokes r) :
    (c.act buffers a).Keeps (e.keep c a) := by
  by_cases brings : a = .bringUp
  · subst brings
    exact c.keeps_bringUp e
  by_cases resets : a = .reset
  · subst resets
    exact keeps.busReset
  have same : e.keep c a = e := by simp only [Enables.keep, Enables.arm, brings, resets, if_false, ite_self]
  rw [same]
  by_cases opens : a = .mask
  · subst opens
    exact keeps.mask
  by_cases closes : a = .unmask
  · subst closes
    exact keeps.unmask
  refine keeps.other ⟨opens, closes⟩ ?_
  rintro (bring | reset | ⟨r, member, poked⟩)
  · exact brings bring
  · exact resets reset
  · exact pokes r member poked

end Controller

namespace Session

variable {σ : Type} [Sink σ]

/-- What is armed after `past`, if sections took nothing away. -/
def armed (e : Enables) (past : List (Session σ)) : Enables := past.foldl (fun e p => e.arm p.action) e

def kept (e : Enables) (past : List (Session σ)) : Enables := past.foldl (fun e p => e.keep p.controller p.action) e

omit [Sink σ] in
theorem kept_eq_armed {e : Enables} {past : List (Session σ)}
    (outside : ∀ p ∈ past, p.action = .bringUp ∨ p.action = .reset → p.controller.masking.depth = 0) :
    kept e past = armed e past := by
  induction past generalizing e with
  | nil => rfl
  | cons p past ih =>
    have first : e.keep p.controller p.action = e.arm p.action := by
      by_cases closed : p.controller.masking.depth = 0
      · rw [Enables.keep, if_pos closed]
      · obtain ⟨brings, resets⟩ := not_or.mp (mt (outside p (by simp)) closed)
        rw [Enables.keep, if_neg closed, if_neg brings, Enables.arm, if_neg brings, if_neg resets]
    simp only [kept, armed, List.foldl_cons, first]
    exact ih fun q member => outside q (List.mem_cons_of_mem _ member)

theorem Reach.kept {start t : Session σ} {past : List (Session σ)} (fresh : start.Fresh) (reach : start.Reach past t)
    (pokes : ∀ p ∈ past, ∀ r ∈ Register.enables, ¬ p.Pokes r) :
    t.controller.Keeps (kept (.ofRegisters start.controller.registers) past) := by
  induction reach with
  | start =>
    have closed : start.controller.masking.depth = 0 := by rw [fresh.controller]
    refine ⟨fun _ => rfl, fun opened => absurd closed opened, fun opened => absurd closed opened, ?_⟩
    simp only [Session.kept, List.foldl_nil, Enables.ofRegisters, BitVec.and_assoc, BitVec.and_self]
  | @next before last turn previous stepped ih =>
    have keeps := ih fun p member => pokes p (List.mem_append_left _ member)
    rw [step_controller stepped, Session.kept, List.foldl_append]
    exact keeps.act (pokes last (by simp))

/-- With no section open, just that is enabled which was armed while none was open either. Where nothing is armed
inside a section, nothing armed is lost. -/
theorem enabled_outside_sections {start t : Session σ} {past : List (Session σ)} (fresh : start.Fresh)
    (reach : start.Reach past t) (pokes : ∀ p ∈ past, ∀ r ∈ Register.enables, ¬ p.Pokes r)
    (closed : t.controller.masking.depth = 0) :
    Enables.ofRegisters t.controller.registers = kept (.ofRegisters start.controller.registers) past ∧
      ((∀ p ∈ past, p.action = .bringUp ∨ p.action = .reset → p.controller.masking.depth = 0) →
        Enables.ofRegisters t.controller.registers = armed (.ofRegisters start.controller.registers) past) := by
  have keeps := (reach.kept fresh pokes).closed closed
  exact ⟨keeps, fun outside => keeps.trans (kept_eq_armed outside)⟩

/-- What a bus reset arms inside a section is lost when the section closes, and what it arms later is not. -/
theorem enabled_outside_sections_of_resets :
    let start : Session MeteredSink :=
      Session.plan { output := { sink := {} } }
        [.bringUp, .mask, .handleInterrupt (some 0x16), .unmask 0, .handleInterrupt (some 0x16)]
    Enables.ofRegisters (start.after 6).controller.registers = { ie := 0x04 } ∧
      Enables.ofRegisters (start.after 9).controller.registers = { oepie := 0x01, iepie := 0x01, ie := 0x44 } := by
  intro start
  have fresh : start.Fresh := ⟨rfl, rfl, _, rfl⟩
  have pokes : ∀ p ∈ start.path 9, ∀ r ∈ Register.enables, ¬ p.Pokes r := by decide +kernel
  have pokesBefore : ∀ p ∈ start.path 6, ∀ r ∈ Register.enables, ¬ p.Pokes r := by decide +kernel
  have before := (enabled_outside_sections fresh (start.reach_after 6) pokesBefore (by decide +kernel)).1
  have after := (enabled_outside_sections fresh (start.reach_after 9) pokes (by decide +kernel)).1
  exact ⟨before.trans (by decide +kernel), after.trans (by decide +kernel)⟩

/-- A module brought up and reset inside a section has nothing enabled when the section closes. -/
theorem armed_lost_inside_section :
    let start : Session MeteredSink :=
      Session.plan { output := { sink := {} } }
        [.disableInterrupts, .bringUp, .handleInterrupt (some 0x16), .enableInterrupts]
    start.Fresh ∧ start.controller.registers = {} ∧ (∀ p ∈ start.path 6, ∀ r ∈ Register.enables, ¬ p.Pokes r) ∧
      (start.after 6).controller.masking.depth = 0 ∧
      armed {} (start.path 6) = { oepie := 0x01, iepie := 0x01, ie := 0x44 } ∧
      Enables.ofRegisters (start.after 6).controller.registers = {} := by
  intro start
  exact ⟨⟨rfl, rfl, _, rfl⟩, rfl, by decide +kernel, by decide +kernel, by decide +kernel, by decide +kernel⟩

end Session

end UsbDevice
