import UsbDevice.Proofs.MaskedSections

namespace UsbDevice

def MaskingAction.forgets : MaskingAction → Bool
  | .forget => true
  | _ => false

namespace MaskedBank

/-- The sections and the registers after the actions. -/
def acts (b : MaskedBank) (as : List MaskingAction) : MaskedBank := as.foldl act b

variable {b : MaskedBank}

theorem run_append (b : MaskedBank) (as later : List MaskingAction) :
    b.run (as ++ later) = b.run as ++ (b.acts as).run later := by
  induction as generalizing b with
  | nil => rfl
  | cons a as ih => exact congrArg (b.act a :: ·) (ih (b.act a))

theorem acts_mem_run (b : MaskedBank) (a : MaskingAction) (as : List MaskingAction) :
    b.acts (a :: as) ∈ b.run (a :: as) := by
  induction as generalizing b a with
  | nil => exact List.mem_cons_self
  | cons next as ih => exact List.mem_cons_of_mem _ (ih (b.act a) next)

/-! Inside a section the registers are left alone, and only the count of the sections changes. -/

theorem enter_of_opened (opened : b.masking.depth ≠ 0) :
    b.act .enter = { b with masking := { b.masking with depth := b.masking.depth + 1 } } :=
  Masking.enter_of_opened opened

theorem leave_of_ne_one (other : b.masking.depth ≠ 1) :
    b.act .leave = { b with masking := { b.masking with depth := b.masking.depth - 1 } } :=
  Masking.leave_of_ne_one other

theorem depth_leave (b : MaskedBank) : (b.act .leave).masking.depth = b.masking.depth - 1 := by
  by_cases last : b.masking.depth = 1
  · rw [last]
    exact congrArg (fun bank => bank.masking.depth) (Masking.leave_of_last last)
  · rw [leave_of_ne_one last]

/-- Without an open section there is nothing to leave. -/
theorem leave_of_closed (closed : b.masking.depth = 0) : b.act .leave = b := by
  rw [leave_of_ne_one (by omega), closed, Nat.zero_sub, ← closed]

/-- Inside a section what is remembered stays so, unless it is forgotten. -/
theorem saved_act (opened : b.masking.depth ≠ 0) (a : MaskingAction) :
    (b.act a).masking.saved = if a.forgets then {} else b.masking.saved := by
  cases a with
  | enter => rw [enter_of_opened opened]; rfl
  | leave =>
    by_cases last : b.masking.depth = 1
    · exact congrArg (fun bank => bank.masking.saved) (Masking.leave_of_last last)
    · rw [leave_of_ne_one last]; rfl
  | forget => rfl
  | poke change => rfl

theorem saved_acts (opened : b.masking.depth ≠ 0) {as : List MaskingAction}
    (inside : ∀ c ∈ b.run as, c.masking.depth ≠ 0) :
    (b.acts as).masking.saved = if as.any MaskingAction.forgets then {} else b.masking.saved := by
  induction as generalizing b with
  | nil => rfl
  | cons a as ih =>
    obtain ⟨here, later⟩ := List.forall_mem_cons.mp inside
    have rest : (b.acts (a :: as)).masking.saved = _ := ih here later
    rw [rest, saved_act opened, List.any_cons]
    cases a.forgets <;> simp

/-- From the first action on a section is open, which the next `leave` closes. -/
structure Encloses (b : MaskedBank) (inner : List MaskingAction) : Prop where
  closed : b.masking.depth = 0
  inside : ∀ c ∈ b.run (.enter :: inner), c.masking.depth ≠ 0
  closes : ((b.acts (.enter :: inner)).act .leave).masking.depth = 0

variable {inner : List MaskingAction}

/-- The last `leave` finds the outermost section, and remembered what it took out. -/
theorem Encloses.masking (encloses : b.Encloses inner) :
    (b.acts (.enter :: inner)).masking =
      { saved := if inner.any MaskingAction.forgets then {} else .ofRegisters b.registers, depth := 1 } := by
  obtain ⟨closed, inside, closes⟩ := encloses
  obtain ⟨opened, later⟩ := List.forall_mem_cons.mp inside
  have saved := saved_acts opened later
  have entered : (b.act .enter).masking.saved = .ofRegisters b.registers := by
    rw [act, Masking.enter_of_closed closed]
  have last : (b.acts (.enter :: inner)).masking.depth = 1 := by
    have before := inside _ (acts_mem_run b .enter inner)
    rw [depth_leave] at closes
    omega
  rw [entered] at saved
  exact congr (congrArg Masking.mk saved) last

theorem Encloses.opened (encloses : b.Encloses inner) {first rest : List MaskingAction}
    (split : inner = first ++ rest) : (b.acts (.enter :: first)).masking.depth ≠ 0 := by
  subst split
  refine encloses.inside _ ?_
  rw [← List.cons_append, run_append]
  exact List.mem_append_left _ (acts_mem_run b .enter first)

/-- However sections nest inside the outermost one, and whatever is written to the registers meanwhile: its end puts the
enables back that it took out, into the supply register beside what stands there then, and none if they have been
forgotten. Only the count of the sections changes with those inside, and nothing at all where no section is open. -/
theorem section_restores (encloses : b.Encloses inner) :
    let enables : Enables := if inner.any MaskingAction.forgets then {} else .ofRegisters b.registers
    let before := b.acts (.enter :: inner)
    let after := before.act .leave
    after.registers =
        { before.registers with
          oepie := enables.oepie, iepie := enables.iepie, ie := enables.ie
          pwrctl := before.registers.pwrctl ||| enables.pwrctl } ∧
      (∀ first rest, inner = first ++ .enter :: rest →
        let here := b.acts (.enter :: first)
        here.act .enter = { here with masking := { here.masking with depth := here.masking.depth + 1 } }) ∧
      (∀ first rest, inner = first ++ .leave :: rest →
        let here := b.acts (.enter :: first)
        here.act .leave = { here with masking := { here.masking with depth := here.masking.depth - 1 } }) ∧
      ∀ c : MaskedBank, c.masking.depth = 0 → ∀ later, c.run (.leave :: later) = c :: c.run later := by
  intro enables before after
  have taken : before.masking = ⟨enables, 1⟩ := encloses.masking
  refine ⟨?_, fun first rest split => ?_, fun first rest split => ?_, fun c closed later => ?_⟩
  · have left : before.masking.leave before.registers = _ := Masking.leave_of_last (congrArg Masking.depth taken)
    rw [show after.registers = _ from congrArg MaskedBank.registers left, taken]
  · exact enter_of_opened (encloses.opened split)
  · have more : inner = (first ++ [.leave]) ++ rest := by rw [split, List.append_assoc, List.singleton_append]
    have still := encloses.opened more
    rw [← List.cons_append, acts, List.foldl_append] at still
    refine leave_of_ne_one fun last => still ?_
    exact (depth_leave _).trans (congrArg (· - 1) last)
  · rw [run, leave_of_closed closed]

/-- Two sections inside the outermost one, with writes to the enables and to the regulators. -/
theorem section_restores_of_nested :
    let b : MaskedBank := { registers := { oepie := 1, iepie := 3, ie := 0x44, pwrctl := 0x1600 } }
    let inner : List MaskingAction :=
      [.poke fun regs => { regs with ie := 4 }, .enter, .leave, .enter,
        .poke fun regs => { regs with pwrctl := 0x0900 }, .leave]
    b.Encloses inner ∧
      ((b.acts (.enter :: inner)).act .leave).registers = { oepie := 1, iepie := 3, ie := 0x44, pwrctl := 0x0f00 } ∧
      ((b.acts (.enter :: .forget :: inner)).act .leave).registers = { pwrctl := 0x0900 } := by
  intro b inner
  have encloses : b.Encloses inner := ⟨rfl, by decide, rfl⟩
  have forgetting : b.Encloses (.forget :: inner) := ⟨rfl, by decide, rfl⟩
  exact ⟨encloses, (section_restores encloses).1.trans (by decide), (section_restores forgetting).1.trans (by decide)⟩

end MaskedBank

end UsbDevice
