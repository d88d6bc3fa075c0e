import UsbDevice.Proofs.MaskedRuns

namespace UsbDevice

/-- No interrupt of the module is enabled. -/
def Registers.Silent (regs : Registers) : Prop :=
  regs.oepie = 0 ∧ regs.iepie = 0 ∧ regs.ie = 0 ∧ regs.pwrctl &&& PowerControl.enables = 0

instance (regs : Registers) : Decidable regs.Silent := inferInstanceAs (Decidable (_ ∧ _ ∧ _ ∧ _))

theorem Registers.silent_iff {regs : Registers} : regs.Silent ↔ Enables.ofRegisters regs = {} := by
  simp only [Silent, Enables.ofRegisters, Enables.mk.injEq]

theorem Task.guards_of_not_masks {task : Task} (other : ¬ task.Masks) (held : List Bool) : task.guards held = held := by
  cases task with
  | call op =>
    cases op with
    | mask => exact absurd trivial other
    | unmask => exact absurd trivial other
    | _ => rfl
  | _ => rfl

/-- The action arms sources, whatever sections are open. -/
def ControllerAction.Arms (a : ControllerAction) : Prop := a = .bringUp ∨ a = .reset

instance (a : ControllerAction) : Decidable a.Arms := inferInstanceAs (Decidable (_ ∨ _))

namespace Controller

variable {c : Controller} {buffers : Buffers} {a : ControllerAction}

theorem maskInterrupts_depth (c : Controller) : c.maskInterrupts.masking.depth = c.masking.depth + 1 := by
  simp only [maskInterrupts, Masking.enter]
  split
  · next closed => simp only [closed]
  · rfl

theorem unmaskInterrupts_depth (c : Controller) : c.unmaskInterrupts.masking.depth = c.masking.depth - 1 := by
  simp only [unmaskInterrupts, Masking.leave]
  split
  · next none => exact none.trans (by rw [none])
  · next last => rw [last]
  · next more => rw [more]; rfl

theorem act_depth (c : Controller) (buffers : Buffers) (neither : a ≠ .mask ∧ a ≠ .unmask) :
    (c.act buffers a).masking.depth = c.masking.depth := by
  obtain ⟨after, depth, _, acted⟩ := act_masking c buffers neither c.masking
  have masking : (act buffers { c with masking := c.masking } a).masking = after := acted ▸ rfl
  exact (congrArg Masking.depth masking).trans depth

/-- Only opening a section gets inside one. -/
theorem mask_of_opened (closed : c.masking.depth = 0) (opened : (c.act buffers a).masking.depth ≠ 0) : a = .mask := by
  by_contra other
  by_cases closes : a = .unmask
  · subst closes
    exact opened ((unmaskInterrupts_depth c).trans (by rw [closed]))
  · exact opened ((c.act_depth buffers ⟨other, closes⟩).trans closed)

theorem silent_maskInterrupts (closed : c.masking.depth = 0) : c.maskInterrupts.registers.Silent := by
  rw [maskInterrupts_of_closed closed]
  exact ⟨rfl, rfl, rfl, Registers.masked_pwrctl c.registers⟩

theorem not_silent_of_arms (arms : a.Arms) : ¬ (c.act buffers a).registers.Silent := by
  rintro ⟨_, _, ie, _⟩
  rcases arms with rfl | rfl
  · exact absurd (show BusEnable.reset.set.modify 0 = 0 from ie) (by decide)
  · have set : BusEnable.setup.set.modify c.registers.ie &&& BusEnable.setup.mask = BusEnable.setup.set.value :=
      BitField.matchesAll_modify_val _ _ _
    rw [show BusEnable.setup.set.modify c.registers.ie = 0 from ie] at set
    exact absurd set (by decide)

/-- Inside a section nothing but arming touches what is enabled. -/
theorem ofRegisters_act_inside (opened : c.masking.depth ≠ 0) (still : (c.act buffers a).masking.depth ≠ 0)
    (arms : ¬ a.Arms) (pokes : ∀ r ∈ Register.enables, ¬ a.Pokes r) :
    Enables.ofRegisters (c.act buffers a).registers = .ofRegisters c.registers := by
  by_cases opens : a = .mask
  · subst opens
    simp only [act, maskInterrupts_of_opened opened]
    rfl
  by_cases closes : a = .unmask
  · subst closes
    have nested : c.masking.depth ≠ 1 := by
      have depth := c.unmaskInterrupts_depth
      simp only [act] at still
      omega
    simp only [act, unmaskInterrupts_of_ne_one nested]
    rfl
  · refine (c.act_masked buffers ⟨opens, closes⟩ ?_).2
    rintro (brings | resets | ⟨r, member, poked⟩)
    · exact arms (Or.inl brings)
    · exact arms (Or.inr resets)
    · exact pokes r member poked

end Controller

namespace Session

variable {σ : Type} [Sink σ]

/-- Inside a section everything is off, unless something has been armed since the section was opened. -/
theorem Reach.silent_inside {start t : Session σ} {past : List (Session σ)} (fresh : start.Fresh)
    (reach : start.Reach past t) (pokes : ∀ p ∈ past, ∀ r ∈ Register.enables, ¬ p.Pokes r)
    (opened : t.controller.masking.depth ≠ 0) :
    ∃ earlier p inside, past = earlier ++ p :: inside ∧ p.controller.masking.depth = 0 ∧ p.action = .mask ∧
      (∀ q ∈ inside, q.controller.masking.depth ≠ 0) ∧
      (t.controller.registers.Silent ↔ ∀ q ∈ inside, ¬ q.action.Arms) := by
  induction reach with
  | start => exact absurd (by rw [fresh.controller]) opened
  | @next before last turn previous stepped ih =>
    rw [step_controller stepped] at opened ⊢
    by_cases closed : last.controller.masking.depth = 0
    · have opens := Controller.mask_of_opened closed opened
      refine ⟨before, last, [], rfl, closed, opens, by simp, ?_⟩
      simp only [opens, Controller.act, Controller.silent_maskInterrupts closed, List.not_mem_nil, false_implies,
        implies_true]
    · obtain ⟨earlier, p, inside, rfl, outside, opens, within, silent⟩ :=
        ih (fun p member => pokes p (List.mem_append_left _ member)) closed
      refine ⟨earlier, p, inside ++ [last], by simp, outside, opens, ?_, ?_⟩
      · simpa only [List.mem_append, List.mem_singleton, or_imp, forall_and, forall_eq] using ⟨within, closed⟩
      · simp only [List.mem_append, List.mem_singleton, or_imp, forall_and, forall_eq, ← silent]
        by_cases arms : last.action.Arms
        · simp only [Controller.not_silent_of_arms arms, arms, not_true, and_false]
        · simp only [Registers.silent_iff, Controller.ofRegisters_act_inside closed opened arms (pokes last (by simp)),
            arms, not_false_eq_true, and_true]

/-! Guards. -/

/-- How many guards are held. -/
def held (s : Session σ) : Nat := s.guards.count true

theorem count_set_false {guards : List Bool} {guard : Nat} (held : guards.getD guard false = true) :
    (guards.set guard false).count true + 1 = guards.count true := by
  induction guards generalizing guard with
  | nil => simp at held
  | cons first guards ih =>
    cases guard with
    | zero =>
      obtain rfl : first = true := held
      simp
    | succ guard =>
      have rest := @ih guard (by simpa using held)
      simp only [List.set_cons_succ, List.count_cons]
      omega

def closes : List Task → Bool
  | .call .enableInterrupts :: _ => true
  | _ => false

/-- The next step closes a section by hand, though the guards that are held have opened all that are open. -/
def Unpaired (s : Session σ) : Prop := closes s.todo ∧ s.held ≠ 0 ∧ s.controller.masking.depth ≤ s.held

instance (s : Session σ) : Decidable s.Unpaired := inferInstanceAs (Decidable (_ ∧ _ ∧ _))

/-- Each guard that is held has a section of its own. -/
theorem held_le_depth_of_step {s : Session σ} {turn : Turn σ} (stepped : s.step = some turn) (paired : ¬ s.Unpaired)
    (le : s.held ≤ s.controller.masking.depth) : turn.session.held ≤ turn.session.controller.masking.depth := by
  have acted := step_controller stepped
  by_cases masks : s.Masks
  · obtain ⟨op, rest, pending, opens⟩ := exists_of_masks masks
    have action : s.action = op.action s.buffers s.guards := by rw [Session.action, pending]
    obtain rfl := Option.some.inj ((step_eq_outcome pending).symm.trans stepped)
    rw [acted, action]
    cases op with
    | mask =>
      have more : (s.guards ++ [true]).count true = s.held + 1 := by simp [held]
      exact Nat.le_trans (Nat.le_of_eq more) (s.controller.maskInterrupts_depth ▸ Nat.succ_le_succ le)
    | disableInterrupts =>
      exact Nat.le_trans le (s.controller.maskInterrupts_depth ▸ Nat.le_succ _)
    | enableInterrupts =>
      have same : ({ s with todo := rest }.outcome (.call .enableInterrupts)).session.held = s.held := rfl
      have left : (s.controller.act s.buffers .unmask).masking.depth = s.controller.masking.depth - 1 :=
        s.controller.unmaskInterrupts_depth
      have paired : s.held = 0 ∨ s.held < s.controller.masking.depth := by
        by_contra unpaired
        obtain ⟨positive, all⟩ := not_or.mp unpaired
        exact paired ⟨by rw [pending]; rfl, positive, Nat.le_of_not_lt all⟩
      simp only [Op.action, same, left]
      omega
    | unmask guard =>
      by_cases held : s.guards.getD guard false = true
      · have fewer := count_set_false held
        have dropped : ({ s with todo := rest }.outcome (.call (.unmask guard))).session.guards
            = s.guards.set guard false := by simp only [outcome, Task.guards, Op.guards, held, if_true]
        have left : (s.controller.act s.buffers .unmask).masking.depth = s.controller.masking.depth - 1 :=
          s.controller.unmaskInterrupts_depth
        simp only [Op.action, held, if_true, left]
        rw [Session.held, dropped]
        unfold Session.held at le
        omega
      · have kept : ({ s with todo := rest }.outcome (.call (.unmask guard))).session.guards = s.guards := by
          simp only [outcome, Task.guards, Op.guards, held, Bool.false_eq_true, if_false]
        simp only [Op.action, held]
        rw [Session.held, kept]
        exact le
    | _ => exact absurd opens not_false
  · rw [acted, s.controller.act_depth s.buffers (action_ne_mask masks)]
    obtain ⟨task, rest, pending, rfl⟩ := outcome_of_step stepped
    have other : ¬ task.Masks := by simpa only [Masks, pending] using masks
    have same : ({ s with todo := rest }.outcome task).session.guards = s.guards :=
      Task.guards_of_not_masks other s.guards
    rw [held, same]
    exact le

theorem Reach.held_le_depth {start t : Session σ} {past : List (Session σ)} (fresh : start.Fresh)
    (reach : start.Reach past t) (paired : ∀ p ∈ past, ¬ p.Unpaired) : t.held ≤ t.controller.masking.depth :=
  reach.keeps (fun _ _ stepped paired le => held_le_depth_of_step stepped paired le) paired
    (by simp [held, fresh.guards])

/-- A guard keeps everything off as long as nothing is armed in its section, and its section is not closed by
others. -/
theorem silent_while_held {start t : Session σ} {past : List (Session σ)} (fresh : start.Fresh)
    (reach : start.Reach past t) (pokes : ∀ p ∈ past, ∀ r ∈ Register.enables, ¬ p.Pokes r)
    (paired : ∀ p ∈ past, ¬ p.Unpaired) (held : true ∈ t.guards) :
    ∃ earlier p inside, past = earlier ++ p :: inside ∧ p.controller.masking.depth = 0 ∧ p.action = .mask ∧
      (∀ q ∈ inside, q.controller.masking.depth ≠ 0) ∧
      (t.controller.registers.Silent ↔ ∀ q ∈ inside, ¬ q.action.Arms) := by
  have positive : 0 < t.held := List.count_pos_iff.mpr held
  have opened : t.controller.masking.depth ≠ 0 :=
    Nat.ne_of_gt (Nat.lt_of_lt_of_le positive (reach.held_le_depth fresh paired))
  exact reach.silent_inside fresh pokes opened

/-- The module is brought up, and a guard is held while another section opens and closes. -/
theorem silent_while_held_nested :
    let start : Session MeteredSink :=
      Session.plan { output := { sink := {} } }
        [.bringUp, .disableInterrupts, .mask, .mask, .enableInterrupts, .unmask 1, .connect]
    (start.after 6).guards = [true, false] ∧ (start.after 7).controller.registers.Silent := by
  intro start
  have fresh : start.Fresh := ⟨rfl, rfl, _, rfl⟩
  have pokes : ∀ p ∈ start.path 7, ∀ r ∈ Register.enables, ¬ p.Pokes r := by decide +kernel
  have paired : ∀ p ∈ start.path 7, ¬ p.Unpaired := by decide +kernel
  have held : true ∈ (start.after 7).guards := by decide +kernel
  obtain ⟨earlier, p, inside, split, _, _, opened, silent⟩ :=
    silent_while_held fresh (start.reach_after 7) pokes paired held
  refine ⟨by decide +kernel, silent.mpr fun q member => ?_⟩
  -- Only the first step arms something, and no section is open there.
  have arms : ∀ q ∈ start.path 7, q.action.Arms → q.controller.masking.depth = 0 := by decide +kernel
  exact mt (arms q (by rw [split]; simp [member])) (opened q member)

/-- What is armed under a guard is enabled at once, and a section closed too often is that of the guard. -/
theorem enabled_while_held :
    let after (ops : List Op) : Session MeteredSink := (Session.plan { output := { sink := {} } } ops).after 5
    ((after [.mask, .bringUp]).guards = [true] ∧ (after [.mask, .bringUp]).controller.registers.ie = 0x04) ∧
      ((after [.mask, .handleInterrupt (some 0x16)]).guards = [true] ∧
        (after [.mask, .handleInterrupt (some 0x16)]).controller.registers.ie = 0x40) ∧
      (after [.bringUp, .mask, .enableInterrupts]).guards = [true] ∧
      (after [.bringUp, .mask, .enableInterrupts]).controller.registers.ie = 0x04 := by
  intro after
  exact ⟨by decide +kernel, by decide +kernel, by decide +kernel, by decide +kernel⟩

end Session

end UsbDevice
