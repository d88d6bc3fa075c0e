import UsbDevice.Proofs.SetupDelivery

namespace UsbDevice

/-- Only an operation that asks for the interrupt begins one. -/
theorem Op.exists_asks {op : Op} {buffers : Buffers} {guards : List Bool} {vector : Option Word}
    (acts : op.action buffers guards = .interrupt vector) : ∃ caller, op.asks? = some (caller, vector) := by
  cases op with
  | handleInterrupt other =>
    obtain rfl := ControllerAction.interrupt.inj acts
    exact ⟨.driver, rfl⟩
  | serviceInterrupt line other =>
    simp only [Op.action] at acts
    split at acts
    · next ours =>
      obtain rfl := ControllerAction.interrupt.inj acts
      exact ⟨.chip, if_pos ours⟩
    · cases acts
  | queueTransfer e region =>
    simp only [Op.action] at acts
    split at acts
    · split at acts <;> cases acts
    · cases acts
  | unmask guard =>
    simp only [Op.action] at acts
    split at acts <;> cases acts
  | _ => cases acts

namespace Controller

variable {c : Controller} {a : ControllerAction}

/-- A SETUP packet is stored when an interrupt begins, and at no other time. -/
theorem setupPacket_act (buffers : Buffers) (other : ∀ vector, a ≠ .interrupt vector) :
    (c.act buffers a).setupPacket = c.setupPacket := by
  cases a with
  | interrupt vector => exact absurd rfl (other vector)
  | raise vector => cases vector <;> rfl
  | _ => rfl

theorem told_not_setup {notice : Notice} (other : ∀ vector, a ≠ .interrupt vector) (told : c.told? a = some notice) :
    notice.isSetup = false := by
  by_contra setup
  obtain ⟨interrupts, _⟩ := isSetup_of_told told (by simpa using setup)
  cases a with
  | interrupt vector => exact other vector rfl
  | poke => cases told
  | _ => cases interrupts

theorem served_ne_interrupt (c : Controller) (vector : Option Word) : c.served ≠ .interrupt vector := by
  intro same
  have plain := c.isPlain_served
  rw [same] at plain
  cases plain

/-- The packet is stored as the interrupt begins. The vector, which has been written before, is all that changes
besides. -/
theorem act_interrupt_of_pending (buffers : Buffers) (running : c.halted = false)
    (pending : BusFlag.setup.IsSet c.registers.ifg) (vector : Option Word) :
    c.act buffers (.interrupt vector) = { c.raise vector with setupPacket := c.registers.sublk } ∧
      c.told? (.interrupt vector) = some (.setupReceived c.registers.sublk) := by
  have flag : BusFlag.setup.IsSet (c.raise vector).registers.ifg := by cases vector <;> exact pending
  have packet : (c.raise vector).registers.sublk = c.registers.sublk := by cases vector <;> rfl
  constructor
  · simp only [act, running, Bool.false_eq_true, if_false, copySetup, flag, if_true, packet]
  · simp only [told?, running, Bool.false_eq_true, not_false_eq_true, pending, and_self, if_true]

theorem act_interrupt_of_not_pending (buffers : Buffers)
    (nothing : ¬ (c.halted = false ∧ BusFlag.setup.IsSet c.registers.ifg)) (vector : Option Word) :
    (c.act buffers (.interrupt vector)).setupPacket = c.setupPacket ∧ c.told? (.interrupt vector) = none := by
  have flag : (c.raise vector).registers.ifg = c.registers.ifg := by cases vector <;> rfl
  have still : (c.raise vector).setupPacket = c.setupPacket := by cases vector <;> rfl
  cases running : c.halted with
  | true => simp [act, told?, running, still]
  | false =>
    have clear : ¬ BusFlag.setup.IsSet c.registers.ifg := fun pending => nothing ⟨running, pending⟩
    simp [act, told?, running, copySetup, flag, clear, still]

end Controller

namespace Session

variable {σ : Type} [Sink σ]

/-- By whom the next step is asked for the interrupt, and the vector it writes before. -/
def asks? (s : Session σ) : Option (Caller × Option Word) :=
  match s.todo with
  | .call op :: _ => op.asks?
  | _ => none

/-- The next step begins the interrupt of a driver that has not stopped, while a SETUP packet is pending. -/
def Captures (s : Session σ) : Prop :=
  s.asks?.isSome ∧ s.controller.halted = false ∧ BusFlag.setup.IsSet s.controller.registers.ifg

instance : DecidablePred (Captures : Session σ → Prop) := fun _ => inferInstanceAs (Decidable (_ ∧ _))

omit [Sink σ] in
theorem exists_of_asks {s : Session σ} (asks : s.asks?.isSome) :
    ∃ op caller vector rest, s.todo = .call op :: rest ∧ op.asks? = some (caller, vector) ∧
      s.action = .interrupt vector := by
  unfold asks? at asks
  split at asks
  · next op rest pending =>
    obtain ⟨⟨caller, vector⟩, asked⟩ := Option.isSome_iff_exists.mp asks
    exact ⟨op, caller, vector, rest, pending, asked, (action_of_todo pending).trans (Op.action_of_asks asked _ _)⟩
  · cases asks

omit [Sink σ] in
theorem action_ne_interrupt {s : Session σ} (asks : ¬ s.asks?.isSome) (vector : Option Word) :
    s.action ≠ .interrupt vector := by
  intro acts
  unfold action at acts
  split at acts
  · next op rest pending =>
    obtain ⟨caller, asked⟩ := Op.exists_asks acts
    simp [asks?, pending, asked] at asks
  · exact s.controller.served_ne_interrupt vector acts
  · cases acts

/-- A SETUP packet is stored by the steps that find one, and told by them. -/
theorem setup_of_step {s : Session σ} {turn : Turn σ} (stepped : s.step = some turn) :
    turn.session.controller.setupPacket
        = (if s.Captures then s.controller.registers.sublk else s.controller.setupPacket) ∧
      s.notices.filter (fun told => told.2.isSetup) =
        if s.Captures then
          (s.controller.client.map fun client => (client, .setupReceived s.controller.registers.sublk)).toList
        else [] := by
  rw [step_controller stepped, notices_eq]
  by_cases asks : s.asks?.isSome
  · obtain ⟨_, _, vector, _, _, _, acts⟩ := exists_of_asks asks
    rw [acts]
    by_cases pending : s.controller.halted = false ∧ BusFlag.setup.IsSet s.controller.registers.ifg
    · obtain ⟨stored, told⟩ := Controller.act_interrupt_of_pending s.buffers pending.1 pending.2 vector
      have captures : s.Captures := ⟨asks, pending⟩
      rw [stored, told, if_pos captures, if_pos captures]
      refine ⟨rfl, ?_⟩
      cases s.controller.client <;> rfl
    · obtain ⟨stored, told⟩ := Controller.act_interrupt_of_not_pending s.buffers pending vector
      have other : ¬ s.Captures := fun captures => pending captures.2
      rw [stored, told, if_neg other, if_neg other]
      exact ⟨rfl, rfl⟩
  · have other : ¬ s.Captures := fun captures => asks captures.1
    have acts := action_ne_interrupt asks
    rw [Controller.setupPacket_act s.buffers acts, if_neg other, if_neg other]
    refine ⟨rfl, List.filter_eq_nil_iff.mpr fun told member => ?_⟩
    obtain ⟨notice, said, client, _, rfl⟩ := by
      simpa only [Option.mem_toList, Option.bind_eq_some_iff, Option.map_eq_some_iff] using member
    rw [Controller.told_not_setup acts said]
    exact Bool.false_ne_true

/-- The packet that is stored is the one found last. -/
theorem Reach.setupPacket {s t : Session σ} {past : List (Session σ)} (reach : s.Reach past t) :
    t.controller.setupPacket
      = ((past.filter (·.Captures)).getLast?.map fun p => p.controller.registers.sublk).getD
          s.controller.setupPacket := by
  induction reach with
  | start => rfl
  | @next before last turn previous stepped ih =>
    rw [(setup_of_step stepped).1, List.filter_append, List.getLast?_append]
    by_cases captures : last.Captures
    · simp [captures]
    · simp [captures, ih]

/-- Something is left to do before `later`. -/
def Before (s : Session σ) (later : List Task) : Prop := ∃ first, first ≠ [] ∧ s.todo = first ++ later

/-- In the past something was always left to do before `later`, or was so up to the point `p` at which `later` begins.
What holds of that point and the past since is `begins`. -/
def Until (later : List Task) (begins : Session σ → List (Session σ) → Prop) (past : List (Session σ))
    (t : Session σ) : Prop :=
  ((∀ q ∈ past, q.Before later) ∧ ∃ first, t.todo = first ++ later) ∨
    ∃ during p since, past = during ++ p :: since ∧ (∀ q ∈ during, q.Before later) ∧ p.todo = later ∧ begins p since

omit [Sink σ] in
theorem Until.imp {later : List Task} {begins begins' : Session σ → List (Session σ) → Prop}
    {past : List (Session σ)} {t : Session σ} (waits : Until later begins past t)
    (imp : ∀ p since, p.todo = later → begins p since → begins' p since) : Until later begins' past t := by
  rcases waits with still | ⟨during, p, since, split, before, todo, begun⟩
  · exact Or.inl still
  · exact Or.inr ⟨during, p, since, split, before, todo, imp p since todo begun⟩

/-- What is left to do comes in its order, whatever is put before it. -/
theorem Reach.until {s t : Session σ} {past : List (Session σ)} (reach : s.Reach past t) {first later : List Task}
    (todo : s.todo = first ++ later) :
    Until later (fun p since => ∃ turn, p.step = some turn ∧ turn.session.Reach since t) past t := by
  induction reach with
  | start => exact Or.inl ⟨by simp, first, todo⟩
  | @next before last turn previous stepped ih =>
    rcases ih with ⟨waits, first, todo⟩ | ⟨during, p, since, rfl, waits, begins, turn', begun, rest⟩
    · -- The step does the first of what comes before, and puts its own work in its place.
      cases first with
      | nil => exact Or.inr ⟨before, last, [], rfl, waits, todo, turn, stepped, .start⟩
      | cons task first =>
        obtain rfl := Option.some.inj ((step_eq_outcome todo).symm.trans stepped)
        refine Or.inl ⟨?_, _, ((List.append_assoc ..).trans (congrArg _ (List.append_assoc ..))).symm⟩
        rw [List.forall_mem_append]
        exact ⟨waits, by simpa using ⟨task :: first, by simp, todo⟩⟩
    · refine Or.inr ⟨during, p, since ++ [last], ?_, waits, begins, turn', begun, rest.next stepped⟩
      rw [List.append_assoc, List.cons_append]

/-- From `s` on, with `past` since then, the interrupt of the caller reads the vector, serves the source that it names,
and returns what comes of that once the client has answered. -/
def ServesVector (caller : Caller) (rest : List Task) (t s : Session σ) (past : List (Session σ)) : Prop :=
  s.action = s.controller.served ∧ ∃ turn, s.step = some turn ∧
    turn.session.todo
      = Client.replies s.clients (s.told? (.dispatch caller)) ++ .conclude caller s.controller.verdict :: rest ∧
    Until (.conclude caller s.controller.verdict :: rest)
      (fun p _ => p.action = .rest ∧ ∃ look, p.marks = [.answer (caller.answer s.controller.verdict) look]) past t

/-- From `s` on, with `past` since then, the interrupt stores the packet and does nothing else, then the client
answers, and only after that the vector is read. -/
def StoresFirst (t s : Session σ) (past : List (Session σ)) : Prop :=
  ∃ op caller vector rest turn, s.todo = .call op :: rest ∧ op.asks? = some (caller, vector) ∧ s.step = some turn ∧
    turn.session.controller = { s.controller.raise vector with setupPacket := s.controller.registers.sublk } ∧
    turn.session.todo
      = Client.replies s.clients
          (s.controller.client.map fun client => (client, .setupReceived s.controller.registers.sublk))
        ++ .dispatch caller :: rest ∧
    Until (.dispatch caller :: rest) (ServesVector caller rest t) past t

theorem Reach.servesVector {s t : Session σ} {past : List (Session σ)} {turn : Turn σ} {caller : Caller}
    {rest : List Task} (todo : s.todo = .dispatch caller :: rest) (stepped : s.step = some turn)
    (reach : turn.session.Reach past t) :
    ServesVector caller rest t s past := by
  obtain rfl := Option.some.inj ((step_eq_outcome todo).symm.trans stepped)
  refine ⟨action_of_todo todo, _, stepped, rfl, (reach.until rfl).imp fun p since ends _ => ⟨action_of_todo ends, ?_⟩⟩
  exact ⟨_, marks_of_step (step_eq_outcome ends)⟩

theorem Reach.storesFirst {s t : Session σ} {past : List (Session σ)} {turn : Turn σ} (stepped : s.step = some turn)
    (captures : s.Captures) (reach : turn.session.Reach past t) : StoresFirst t s past := by
  obtain ⟨asks, running, pending⟩ := captures
  obtain ⟨op, caller, vector, rest, todo, asked, acts⟩ := exists_of_asks asks
  obtain ⟨stored, content⟩ := Controller.act_interrupt_of_pending s.buffers running pending vector
  have controller := step_controller stepped
  rw [acts, stored] at controller
  have told : ({ s with todo := rest } : Session σ).told? (.call op)
      = s.controller.client.map fun client => (client, .setupReceived s.controller.registers.sublk) := by
    simp only [told?, Task.action, Op.action_of_asks asked, content, Option.bind_some]
  have goes : turn.session.todo
      = Client.replies s.clients
          (s.controller.client.map fun client => (client, .setupReceived s.controller.registers.sublk))
        ++ .dispatch caller :: rest := by
    obtain rfl := Option.some.inj ((step_eq_outcome todo).symm.trans stepped)
    simp only [outcome, told, Task.resumed, asked, running]
    rfl
  refine ⟨op, caller, vector, rest, turn, todo, asked, stepped, controller, goes, (reach.until goes).imp ?_⟩
  rintro p since serves ⟨turn', stepped', later⟩
  exact later.servesVector serves stepped'

/-- The SETUP packet that is stored is the one that the last interrupt found as it began. Each interrupt that finds one
tells the client once, with these bytes, before the vector is read, whatever the client does to the registers and
whatever comes of the vector. -/
theorem setup_captured {start t : Session σ} {past : List (Session σ)} (fresh : start.Fresh)
    (reach : start.Reach past t) :
    t.controller.setupPacket
        = ((past.filter (·.Captures)).getLast?.map fun p => p.controller.registers.sublk).getD .zero ∧
      (∀ p ∈ past, p.notices.filter (fun told => told.2.isSetup) =
        if p.Captures then
          (p.controller.client.map fun client => (client, .setupReceived p.controller.registers.sublk)).toList
        else []) ∧
      ∀ earlier p since, past = earlier ++ p :: since → p.Captures → StoresFirst t p since := by
  refine ⟨?_, fun p member => ?_, ?_⟩
  · have none : start.controller.setupPacket = .zero := by rw [fresh.controller]
    rw [reach.setupPacket, none]
  · obtain ⟨earlier, since, rfl⟩ := List.append_of_mem member
    obtain ⟨turn, _, stepped, _⟩ := reach.at_point
    exact (setup_of_step stepped).2
  · rintro earlier p since rfl captures
    obtain ⟨turn, _, stepped, rest⟩ := reach.at_point
    exact rest.storesFirst stepped captures

/-- The client overwrites the packet, its flag and the vector, which is then no source. -/
theorem setup_captured_of_overwritten :
    let packet : Packet := ⟨#[0x80, 6, 0, 1, 0, 0, 18, 0], rfl⟩
    let start : Session MeteredSink :=
      Session.plan
        { output := { sink := {} }
          clients := [{ onSetupReceived :=
            [[.pokeRegister .sublk [9, 9], .pokeRegister .ifg [0], .pokeRegister .vecint [0x0e, 0]]] }] }
        [.setClient 0, .pokeRegister .sublk packet.toList, .pokeRegister .ifg [0x40], .handleInterrupt (some 0x12)]
    let t := start.after 10
    start.Fresh ∧ (start.path 10).length = 10 ∧ t.controller.registers.sublk ≠ packet ∧ t.controller.halted ∧
      t.controller.setupPacket = packet ∧ StoresFirst t (start.after 3) ((start.path 10).drop 4) := by
  intro packet start t
  have fresh : start.Fresh := ⟨rfl, rfl, _, rfl⟩
  obtain ⟨stored, _, first⟩ := setup_captured fresh (start.reach_after 10)
  refine ⟨fresh, by decide +kernel, by decide +kernel, by decide +kernel, stored.trans (by decide +kernel), ?_⟩
  have length : (start.path 10).length = 10 := by decide +kernel
  refine first ((start.path 10).take 3) (start.after 3) _ ?_ (by decide +kernel)
  have here : (start.path 10)[3] = start.after 3 := Option.some.inj
    ((List.getElem?_eq_getElem (by omega)).symm.trans (getElem?_path (by omega)))
  rw [← here, List.getElem_cons_drop, List.take_append_drop]

end Session

end UsbDevice
