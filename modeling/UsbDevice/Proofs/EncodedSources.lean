import UsbDevice.Proofs.HaltLatch
import UsbDevice.Proofs.VectorCodes

namespace UsbDevice

namespace Source

theorem encode_eq_ok_iff {source : Source} {code : Word} : source.encode = .ok code ↔ source.code? = some code := by
  unfold encode
  cases source.code? <;> simp

theorem encode_eq_overflow_iff {source : Source} : source.encode = .error .overflow ↔ source.code? = .none := by
  unfold encode
  cases source.code? <;> simp

theorem code?_eq_none_iff {source : Source} :
    source.code? = .none ↔ source = inputEndpoint 0 ∨ source = outputEndpoint 0 := by
  cases source <;> simp [code?]

/-- A number that no endpoint has still counts, and runs into the codes of other sources or past them all. -/
theorem exists_encode_of_beyond {source : Source} {n : Byte} (beyond : 8 ≤ n.toNat)
    (numbered : source = inputEndpoint n ∨ source = outputEndpoint n) :
    ∃ code, source.encode = .ok code ∧ ofCode? code ≠ some source := by
  have other : n ≠ 0 := by
    rintro rfl
    exact absurd beyond (by decide)
  have improper : ¬ source.Proper := by
    rcases numbered with rfl | rfl <;> exact fun proper => absurd proper.2 (by omega)
  have coded : ∃ code, source.code? = some code := by
    rcases numbered with rfl | rfl <;> exact ⟨_, if_neg other⟩
  obtain ⟨code, coded⟩ := coded
  exact ⟨code, encode_eq_ok_iff.mpr coded, fun read => improper (code?_of_ofCode? read).1⟩

end Source

/-- A fault names the source that the vector register names. -/
theorem Controller.ofCode?_of_verdict {c : Controller} {source : Source}
    (failed : c.verdict = .error (.unexpectedVector source)) : Source.ofCode? c.registers.vecint = some source := by
  unfold verdict at failed
  split at failed <;> simp_all

namespace Session

variable {σ : Type} [Sink σ]

/-- The session has the source at hand: the vector register names it, a fault that is to be returned, or one that the
next step returns. -/
def Carries (s : Session σ) (source : Source) : Prop :=
  Source.ofCode? s.controller.registers.vecint = some source ∨
    (∃ caller, .conclude caller (.error (.unexpectedVector source)) ∈ s.todo) ∨
    ∃ answer closing, .answer answer closing ∈ s.marks ∧ answer.fault? = some (.unexpectedVector source)

/-- The sources that faults name have been read from a code. -/
def NamesRead (s : Session σ) : Prop :=
  ∀ caller source, .conclude caller (.error (.unexpectedVector source)) ∈ s.todo →
    ∃ code, Source.ofCode? code = some source

theorem NamesRead.step {s : Session σ} {turn : Turn σ} (read : s.NamesRead) (stepped : s.step = some turn) :
    turn.session.NamesRead := by
  obtain ⟨task, todo, pending, rfl⟩ := outcome_of_step stepped
  intro caller source returned
  rcases List.mem_append.mp returned with reply | later
  · cases told : ({ s with todo } : Session σ).told? task <;> simp [told, Client.replies] at reply
  · rcases List.mem_append.mp later with new | old
    · cases task with
      | call op =>
        -- A call that is refused names no source.
        simp only [Task.resumed] at new
        split at new
        · split at new <;> simp at new
        · cases new
      | dispatch =>
        obtain ⟨_, failed⟩ := Task.conclude.inj (List.mem_singleton.mp new)
        exact ⟨_, Controller.ofCode?_of_verdict failed.symm⟩
      | endNotice => cases new
      | conclude => cases new
    · exact read caller source (pending ▸ List.mem_cons_of_mem _ old)

omit [Sink σ] in
theorem Fresh.namesRead {s : Session σ} (fresh : s.Fresh) : s.NamesRead := by
  obtain ⟨_, _, ops, todo⟩ := fresh
  intro caller source returned
  simp [todo] at returned

theorem Reach.namesRead {s t : Session σ} {past : List (Session σ)} (reach : s.Reach past t) (read : s.NamesRead) :
    t.NamesRead :=
  reach.keeps (P := NamesRead) (Q := fun _ => True) (fun _ _ stepped _ read => read.step stepped)
    (fun _ _ => trivial) read

theorem NamesRead.ofCode?_of_carries {s : Session σ} (read : s.NamesRead) {source : Source} (carries : s.Carries source) :
    ∃ code, Source.ofCode? code = some source := by
  rcases carries with named | ⟨caller, returned⟩ | ⟨answer, closing, shown, failed⟩
  · exact ⟨_, named⟩
  · exact read caller source returned
  · obtain ⟨caller, rest, pending⟩ := conclude_of_fault shown failed
    exact read caller source (pending ▸ List.mem_cons_self)

end Session

/-- A source is encoded as the code that it is read from, so no two codes are read as one source. Of the numbered
endpoints only those from one to seven come back from their code: number zero has none, and the codes of the others are
read as something else, or not at all. A driver meets only sources that it has read, so giving their codes never stops
it. -/
theorem Source.codes_faithful (source : Source) :
    (∀ raw, ofCode? raw = some source → source.encode = .ok raw) ∧
      ((∃ raw, source.encode = .ok raw ∧ ofCode? raw = some source) ↔ source.Proper) ∧
      (source.encode = .error .overflow ↔ source = inputEndpoint 0 ∨ source = outputEndpoint 0) ∧
      (∀ n : Byte, 8 ≤ n.toNat → source = inputEndpoint n ∨ source = outputEndpoint n →
        ∃ raw, source.encode = .ok raw ∧ ofCode? raw ≠ some source) ∧
      (∀ raw raw', ofCode? raw = some source → ofCode? raw' = some source → raw = raw') ∧
      ∀ {σ : Type} [Sink σ] (start t : Session σ) (past : List (Session σ)), start.Fresh → start.Reach past t →
        t.Carries source → ∃ raw, source.encode = .ok raw ∧ ofCode? raw = some source := by
  have encoded {raw : Word} (read : ofCode? raw = some source) : source.encode = .ok raw :=
    encode_eq_ok_iff.mpr (code?_of_ofCode? read).2
  refine ⟨fun _ => encoded, ⟨?_, fun proper => ?_⟩, ?_, fun n => exists_encode_of_beyond, ?_, ?_⟩
  · rintro ⟨raw, _, read⟩
    exact (code?_of_ofCode? read).1
  · have coded : source.code? ≠ .none := by
      rw [ne_eq, code?_eq_none_iff]
      rintro (rfl | rfl) <;> exact absurd proper.1 (by decide)
    obtain ⟨raw, coded⟩ := Option.ne_none_iff_exists'.mp coded
    exact ⟨raw, encode_eq_ok_iff.mpr coded, ofCode?_of_code? proper coded⟩
  · exact encode_eq_overflow_iff.trans code?_eq_none_iff
  · intro raw raw' read read'
    exact Except.ok.inj ((encoded read).symm.trans (encoded read'))
  · intro σ _ start t past fresh reach carries
    obtain ⟨raw, read⟩ := (reach.namesRead fresh.namesRead).ofCode?_of_carries carries
    exact ⟨raw, encoded read, read⟩

/-- Input endpoint eight would have the code of output endpoint one. A chip that stops at a suspend names it. -/
theorem Source.codes_faithful_of_eighth :
    let start : Session MeteredSink :=
      Session.plan { output := { sink := {} } } [.bringUp, .serviceInterrupt InterruptLine.usb.number (some 0x18)]
    (inputEndpoint 8).encode = .ok 0x32 ∧ ofCode? 0x32 = some (outputEndpoint 1) ∧
      ofCode? 0x32 ≠ some (inputEndpoint 8) ∧ (start.after 3).Carries suspend ∧
      ∃ raw, suspend.encode = .ok raw ∧ ofCode? raw = some suspend := by
  intro start
  obtain ⟨_, _, _, beyond, _⟩ := codes_faithful (inputEndpoint 8)
  obtain ⟨raw, coded, read⟩ := beyond 8 (by decide) (Or.inl rfl)
  obtain rfl : 0x32 = raw := Except.ok.inj coded
  obtain ⟨_, _, _, _, _, driver⟩ := codes_faithful suspend
  have fresh : start.Fresh := ⟨rfl, rfl, _, rfl⟩
  have returned : (start.after 3).todo = [.conclude .chip (.error (.unexpectedVector suspend))] := by decide +kernel
  have carries : (start.after 3).Carries suspend := Or.inr (Or.inl ⟨.chip, returned ▸ List.mem_cons_self⟩)
  exact ⟨rfl, by decide, read, carries, driver start _ _ fresh (start.reach_after 3) carries⟩

end UsbDevice
