import UsbDevice.Proofs.StepOutcome

namespace UsbDevice

/-- The endpoint whose transfers the slot holds. -/
def SlotId.endpoint (id : SlotId) : Endpoint := ⟨BitVec.ofNat 4 id.number, id.direction⟩

theorem SlotId.endpoint_eq {e : Endpoint} {id : SlotId} (found : ofEndpoint? e = some id) : id.endpoint = e := by
  unfold ofEndpoint? at found
  split at found
  · obtain rfl := Option.some.inj found
    simp [endpoint]
  · cases found

variable {es : List Endpoint}

/-- None of the endpoints has the number of the slot if that is zero. -/
theorem SlotId.endpoint_not_mem (others : ∀ e ∈ es, e.number ≠ 0) {id : SlotId} (zero : id.number.val = 0) :
    id.endpoint ∉ es := by
  intro member
  refine others id.endpoint member ?_
  rw [endpoint, zero]
  rfl

/-- The slots are the same, but for those of the endpoints. -/
def Slots.AgreeBut (es : List Endpoint) (s s' : Slots) : Prop := ∀ id, id.endpoint ∉ es → s'.get id = s.get id

namespace Slots.AgreeBut

variable {s s' : Slots}

theorem modify (agree : s.AgreeBut es s') (id : SlotId) (f : Transfer → Transfer) :
    (s.modify id f).AgreeBut es (s'.modify id f) := by
  intro other outside
  by_cases here : other = id
  · subst here
    simp only [Slots.modify, get_set_self, agree other outside]
  · simp only [Slots.modify, get_set_of_ne _ _ here, agree other outside]

/-- The slot of one of the endpoints may be changed as well. -/
theorem modify_of_mem (agree : s.AgreeBut es s') {id : SlotId} (member : id.endpoint ∈ es) (f : Transfer → Transfer) :
    (s.modify id f).AgreeBut es s' := by
  intro other outside
  have apart : other ≠ id := by
    rintro rfl
    exact outside member
  simp only [Slots.modify, get_set_of_ne _ _ apart, agree other outside]

end Slots.AgreeBut

/-- A change that is not one in a slot of the endpoints. -/
def Change.isBeside (es : List Endpoint) : Change → Bool
  | slot id _ => id.endpoint ∉ es
  | register .. | setupPacket _ | halted _ => true

namespace Controller

variable {c c' : Controller} {a : ControllerAction}

/-- The controllers are the same, but for the slots of the endpoints. -/
def AgreeBut (es : List Endpoint) (c c' : Controller) : Prop :=
  ∃ slots, c' = { c with slots } ∧ c.slots.AgreeBut es slots

namespace AgreeBut

theorem refl (c : Controller) : c.AgreeBut es c := ⟨c.slots, rfl, fun _ _ => rfl⟩

theorem lend (agree : c.AgreeBut es c') (id : SlotId) (buffer : Slice) :
    (c.lend id buffer).AgreeBut es (c'.lend id buffer) := by
  obtain ⟨slots, rfl, agree⟩ := agree
  exact ⟨_, rfl, agree.modify id (·.start buffer)⟩

theorem raise (agree : c.AgreeBut es c') (vector : Option Word) : (c.raise vector).AgreeBut es (c'.raise vector) := by
  obtain ⟨slots, rfl, agree⟩ := agree
  cases vector <;> exact ⟨slots, rfl, agree⟩

theorem copySetup (agree : c.AgreeBut es c') : c.copySetup.AgreeBut es c'.copySetup := by
  obtain ⟨slots, rfl, agree⟩ := agree
  unfold Controller.copySetup
  split <;> exact ⟨slots, rfl, agree⟩

/-- To lend a buffer to one of the endpoints is nothing else. -/
theorem lend_of_mem (others : ∀ e ∈ es, e.number ≠ 0) (agree : c.AgreeBut es c') {id : SlotId}
    (member : id.endpoint ∈ es) (buffer : Slice) : (c.lend id buffer).AgreeBut es c' := by
  obtain ⟨slots, rfl, agree⟩ := agree
  have number : id.number.val ≠ 0 := fun zero => SlotId.endpoint_not_mem others zero member
  refine ⟨slots, ?_, agree.modify_of_mem member (·.start buffer)⟩
  simp only [Controller.lend, number, if_false]

theorem controlIn (others : ∀ e ∈ es, e.number ≠ 0) (agree : c.AgreeBut es c') :
    c'.slots.get .controlIn = c.slots.get .controlIn := by
  obtain ⟨slots, rfl, agree⟩ := agree
  exact agree .controlIn (SlotId.endpoint_not_mem others rfl)

/-- No action looks at the endpoints, unless it is on one of them. -/
theorem act (others : ∀ e ∈ es, e.number ≠ 0) (agree : c.AgreeBut es c') (buffers : Buffers)
    (a : ControllerAction) : (c.act buffers a).AgreeBut es (c'.act buffers a) := by
  have control := agree.controlIn others
  obtain ⟨slots, rfl, agree⟩ := agree
  cases a with
  | setAddress address =>
    let registers := { c.registers with funadr := (FunctionAddress.address.val address).modify 0 }
    have addressed : AgreeBut es { c with registers } { c with registers, slots } := ⟨slots, rfl, agree⟩
    exact addressed.lend .controlIn .empty
  | lend id buffer => exact lend ⟨slots, rfl, agree⟩ id buffer
  | raise vector => exact raise ⟨slots, rfl, agree⟩ vector
  | interrupt vector =>
    have raised : (c.raise vector).AgreeBut es ({ c with slots }.raise vector) := raise ⟨slots, rfl, agree⟩ vector
    simp only [Controller.act]
    split
    · exact raised
    · exact raised.copySetup
  | reset => exact ⟨_, rfl, (agree.modify .controlOut _).modify .controlIn _⟩
  | transmit =>
    simp only [Controller.act, control]
    exact ⟨_, rfl, agree.modify .controlIn fun _ => (c.slots.get .controlIn).next.transfer⟩
  | _ => exact ⟨slots, rfl, agree⟩

theorem told (others : ∀ e ∈ es, e.number ≠ 0) (agree : c.AgreeBut es c') (a : ControllerAction) :
    c'.told? a = c.told? a := by
  have control := agree.controlIn others
  obtain ⟨slots, rfl, _⟩ := agree
  cases a with
  | transmit => simp only [told?, control]
  | _ => rfl

theorem progress (agree : c.AgreeBut es c') {e : Endpoint} (outside : e ∉ es) : c'.progress? e = c.progress? e := by
  obtain ⟨slots, rfl, agree⟩ := agree
  unfold progress?
  cases found : SlotId.ofEndpoint? e with
  | none => rfl
  | some id =>
    have same := agree id (by rwa [SlotId.endpoint_eq found])
    simp only [Option.map_some, same]

/-- Between controllers that agree the same changes show, but for those in the slots of the endpoints. -/
theorem changes {d d' : Controller} (before : c.AgreeBut es c') (after : d.AgreeBut es d') :
    (c'.changes d').filter (Change.isBeside es) = (c.changes d).filter (Change.isBeside es) := by
  obtain ⟨slots, rfl, before⟩ := before
  obtain ⟨slots', rfl, after⟩ := after
  have slots :
      ((SlotId.all.filter fun id => (slots.get id).progress ≠ (slots'.get id).progress).map
          fun id => Change.slot id (slots'.get id).progress).filter (Change.isBeside es)
        = ((SlotId.all.filter fun id => (c.slots.get id).progress ≠ (d.slots.get id).progress).map
            fun id => Change.slot id (d.slots.get id).progress).filter (Change.isBeside es) := by
    rw [List.filter_map, List.filter_map, List.filter_filter, List.filter_filter]
    have members (id : SlotId) :
        ((Change.isBeside es ∘ fun id => Change.slot id (slots'.get id).progress) id
            && decide ((slots.get id).progress ≠ (slots'.get id).progress))
          = ((Change.isBeside es ∘ fun id => Change.slot id (d.slots.get id).progress) id
              && decide ((c.slots.get id).progress ≠ (d.slots.get id).progress)) := by
      by_cases outside : id.endpoint ∈ es
      · simp [Change.isBeside, outside]
      · simp [Change.isBeside, before id outside, after id outside]
    rw [List.filter_congr fun id _ => members id]
    refine List.map_congr_left fun id member => ?_
    have outside : id.endpoint ∉ es := by
      have kept := (Bool.and_eq_true_iff.mp (List.mem_filter.mp member).2).1
      simpa [Change.isBeside] using kept
    rw [after id outside]
  simp only [Controller.changes, List.filter_append, slots]

end AgreeBut

end Controller

end UsbDevice
