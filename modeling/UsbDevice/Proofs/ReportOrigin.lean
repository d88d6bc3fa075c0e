import Mathlib.Tactic.Choose
import UsbDevice.Debug.MeteredSink
import UsbDevice.Proofs.ControlSlot

namespace UsbDevice

theorem Transfer.armed_of_next {t : Transfer} (armed : t.next.transfer.state = .armed) : t.state = .armed := by
  cases state : t.state with
  | armed => rfl
  | idle =>
    rw [next_idle state, state] at armed
    cases armed

/-- A transfer ends once: it was armed before and is idle after. -/
theorem Transfer.state_of_complete {t : Transfer} {bytes : Nat} (complete : t.next.step = .complete bytes) :
    t.state = .armed ∧ t.next.transfer.state = .idle := by
  unfold next at complete ⊢
  split
  · next stopped => simp [stopped] at complete
  · next running =>
    split
    · next =>
      refine ⟨?_, rfl⟩
      cases state : t.state with
      | armed => rfl
      | idle => exact absurd (Or.inl state) running
    · next more => simp [running, more] at complete

namespace Session

variable {σ : Type} [Sink σ]

def Reports (s : Session σ) (e : Endpoint) (bytes : Nat) (status : TransferStatus) : Prop :=
  ∃ client, (client, .transferComplete e bytes status) ∈ s.notices

theorem Reports.ends {s : Session σ} {e : Endpoint} {bytes : Nat} {status : TransferStatus}
    (reports : s.Reports e bytes status) :
    s.Transmits ∧ s.controlIn.next.step = .complete bytes ∧ e = .controlIn ∧ status = .success := by
  obtain ⟨client, told⟩ := reports
  exact told_transferComplete.mp (mem_notices.mp told).2

/-- A step tells at most one client of at most one thing. -/
theorem notices_length_le (s : Session σ) : s.notices.length ≤ 1 := by
  rw [notices_eq]
  exact Option.length_toList_le

/-- An armed transfer is what was last lent, with the packets that the interrupts since then have sent. Nothing has
been lent and the bus has not been reset in between. -/
theorem Reach.armed_origin {start t : Session σ} {past : List (Session σ)} (fresh : start.Fresh)
    (reach : start.Reach past t) (armed : t.controlIn.state = .armed) :
    ∃ earlier q since buffer, past = earlier ++ q :: since ∧ q.lent? = some buffer ∧
      (∀ r ∈ since, r.lent? = none ∧ ¬ r.Resets) ∧
      t.controlIn = .afterInterrupts Slots.controlSize buffer (since.countP (·.Transmits)) := by
  induction reach with
  | start =>
    unfold controlIn at armed
    rw [fresh.controller] at armed
    cases armed
  | @next before last turn previous stepped ih =>
    cases lent : last.lent? with
    | some buffer =>
      refine ⟨before, last, [], buffer, rfl, lent, by simp, ?_⟩
      rw [step_controlIn_of_lent stepped lent, Transfer.start_eq_afterInterrupts, previous.controlIn_maxSize fresh]
      rfl
    | none =>
      by_cases resets : last.Resets
      · rw [step_controlIn_of_resets stepped resets] at armed
        cases armed
      · have armedBefore : last.controlIn.state = .armed := by
          by_cases transmits : last.Transmits
          · rw [step_controlIn_of_transmits stepped transmits] at armed
            exact Transfer.armed_of_next armed
          · rwa [step_controlIn_of_other stepped lent resets transmits] at armed
        obtain ⟨earlier, q, since, buffer, rfl, atQ, quiet, slot⟩ := ih armedBefore
        have undisturbed : ∀ r ∈ [last], r.lent? = none ∧ ¬ r.Resets := by
          simpa only [List.mem_singleton, forall_eq] using ⟨lent, resets⟩
        have moved := (Reach.single stepped).controlIn_afterInterrupts (by decide) undisturbed slot
        refine ⟨earlier, q, since ++ [last], buffer, by simp, atQ, ?_, by rwa [List.countP_append]⟩
        intro r member
        rcases List.mem_append.mp member with old | new
        · exact quiet r old
        · exact undisturbed r new

theorem Reach.controlIn_idle {s t : Session σ} {past : List (Session σ)} (reach : s.Reach past t)
    (nothing : ∀ p ∈ past, p.lent? = none) (idle : s.controlIn.state = .idle) : t.controlIn.state = .idle := by
  refine reach.keeps (Q := fun p => p.lent? = none) (P := fun p => p.controlIn.state = .idle) ?_ nothing idle
  intro p turn stepped lent idle
  by_cases resets : p.Resets
  · rw [step_controlIn_of_resets stepped resets]
    rfl
  · by_cases transmits : p.Transmits
    · rw [step_controlIn_of_transmits stepped transmits, Transfer.next_idle idle]
      exact idle
    · rwa [step_controlIn_of_other stepped lent resets transmits]

theorem Reach.at_index {s p t : Session σ} {past : List (Session σ)} {i : Nat} (reach : s.Reach past t)
    (at_ : past[i]? = some p) :
    ∃ turn, s.Reach (past.take i) p ∧ p.step = some turn ∧ turn.session.Reach (past.drop (i + 1)) t := by
  obtain ⟨inside, rfl⟩ := List.getElem?_eq_some_iff.mp at_
  have split : past = past.take i ++ past[i] :: past.drop (i + 1) := by
    rw [List.getElem_cons_drop, List.take_append_drop]
  rw [split] at reach
  exact reach.at_point

/-- What the step at `m` has lent is just so many bytes long, and up to the step at `i` nothing else has been lent
and the bus has not been reset. -/
structure OwedTo (past : List (Session σ)) (i m bytes : Nat) : Prop where
  earlier : m < i
  lent : ∃ q buffer, past[m]? = some q ∧ q.lent? = some buffer ∧ buffer.length = bytes
  undisturbed : ∀ j r, m < j → j < i → past[j]? = some r → r.lent? = none ∧ ¬ r.Resets

omit [Sink σ] in
theorem OwedTo.of_split {past earlier since : List (Session σ)} {q : Session σ} {i : Nat} {buffer : Slice}
    (split : past.take i = earlier ++ q :: since) (lent : q.lent? = some buffer)
    (quiet : ∀ r ∈ since, r.lent? = none ∧ ¬ r.Resets) : OwedTo past i earlier.length buffer.length := by
  have length := congrArg List.length split
  simp only [List.length_take, List.length_append, List.length_cons] at length
  have before {j : Nat} (below : j < i) : past[j]? = (earlier ++ q :: since)[j]? := by
    rw [← split, List.getElem?_take_of_lt below]
  refine ⟨by omega, ⟨q, buffer, ?_, lent, rfl⟩, ?_⟩
  · rw [before (by omega), List.getElem?_append_right (Nat.le_refl _), Nat.sub_self, List.getElem?_cons_zero]
  · intro j r above below atJ
    obtain ⟨k, rfl⟩ : ∃ k, j = earlier.length + (k + 1) := ⟨j - earlier.length - 1, by omega⟩
    rw [before below, List.getElem?_append_right (by omega), Nat.add_sub_cancel_left, List.getElem?_cons_succ] at atJ
    exact quiet r (List.mem_of_getElem? atJ)

/-- The step at `i` tells a client that a transfer has ended. -/
def ReportsAt (past : List (Session σ)) (i : Nat) : Prop :=
  ∃ p e bytes status, past[i]? = some p ∧ p.Reports e bytes status

theorem Reach.owed {start t : Session σ} {past : List (Session σ)} (fresh : start.Fresh) (reach : start.Reach past t)
    (i : Nat) :
    ∃ m, ∀ p e bytes status, past[i]? = some p → p.Reports e bytes status →
      e = .controlIn ∧ status = .success ∧ OwedTo past i m bytes := by
  by_cases reported : ReportsAt past i
  · obtain ⟨p, e, bytes, status, atI, reports⟩ := reported
    obtain ⟨turn, before, _, _⟩ := reach.at_index atI
    obtain ⟨_, complete, _, _⟩ := reports.ends
    obtain ⟨earlier, q, since, buffer, split, lent, quiet, slot⟩ :=
      before.armed_origin fresh (Transfer.state_of_complete complete).1
    refine ⟨earlier.length, ?_⟩
    intro p' e' bytes' status' atI' reports'
    obtain rfl : p = p' := Option.some.inj (atI.symm.trans atI')
    obtain ⟨_, complete', rfl, rfl⟩ := reports'.ends
    have whole : bytes' = buffer.length := Transfer.length_of_complete (by decide) (slot ▸ complete')
    exact ⟨rfl, rfl, whole ▸ OwedTo.of_split split lent quiet⟩
  · exact ⟨0, fun p e bytes status atI reports => absurd ⟨p, e, bytes, status, atI, reports⟩ reported⟩

theorem Reach.lent_between {start t : Session σ} {past : List (Session σ)} {i j : Nat} (reach : start.Reach past t)
    (first : ReportsAt past i) (second : ReportsAt past j) (order : i < j) :
    ∃ k r, i < k ∧ k < j ∧ past[k]? = some r ∧ r.lent? ≠ none := by
  obtain ⟨p, _, _, _, atI, reportsI⟩ := first
  obtain ⟨q, _, _, _, atJ, reportsJ⟩ := second
  by_contra nothing
  obtain ⟨turn, _, stepped, later⟩ := reach.at_index atI
  have ended : turn.session.controlIn.state = .idle := by
    rw [step_controlIn_of_transmits stepped reportsI.ends.1]
    exact (Transfer.state_of_complete reportsI.ends.2.1).2
  have atJ' : (past.drop (i + 1))[j - (i + 1)]? = some q := by
    rw [List.getElem?_drop, show i + 1 + (j - (i + 1)) = j by omega, atJ]
  obtain ⟨_, middle, _, _⟩ := later.at_index atJ'
  have silent : ∀ r ∈ (past.drop (i + 1)).take (j - (i + 1)), r.lent? = none := by
    intro r member
    by_contra lent
    obtain ⟨k, atK⟩ := List.mem_iff_getElem?.mp member
    rw [List.getElem?_take, List.getElem?_drop] at atK
    split at atK
    · exact nothing ⟨i + 1 + k, r, by omega, by omega, atK, lent⟩
    · cases atK
  have idle := middle.controlIn_idle silent ended
  rw [(Transfer.state_of_complete reportsJ.ends.2.1).1] at idle
  cases idle

/-- Each report of an ended transfer is of endpoint 0 towards the host, and owed to something lent for it. No two
reports are owed to the same. -/
theorem reports_origin {start t : Session σ} {past : List (Session σ)} (fresh : start.Fresh)
    (reach : start.Reach past t) :
    (∀ p ∈ past, p.notices.length ≤ 1) ∧
      ∃ origin : Nat → Nat,
        (∀ i p e bytes status, past[i]? = some p → p.Reports e bytes status →
          e = .controlIn ∧ status = .success ∧ OwedTo past i (origin i) bytes) ∧
        ∀ i j, ReportsAt past i → ReportsAt past j → origin i = origin j → i = j := by
  refine ⟨fun p _ => p.notices_length_le, ?_⟩
  choose origin owed using reach.owed fresh
  refine ⟨origin, owed, ?_⟩
  -- Something has been lent between two reports, so that the later one is not owed to what came before the earlier.
  have apart : ∀ i j, ReportsAt past i → ReportsAt past j → i < j → origin i ≠ origin j := by
    intro i j first second order same
    obtain ⟨k, r, above, below, atK, lent⟩ := reach.lent_between first second order
    obtain ⟨p, e, bytes, status, atI, reportsI⟩ := first
    obtain ⟨q, e', bytes', status', atJ, reportsJ⟩ := second
    have before := (owed i p e bytes status atI reportsI).2.2.earlier
    have undisturbed := (owed j q e' bytes' status' atJ reportsJ).2.2.undisturbed
    exact lent (undisturbed k r (by omega) below atK).1
  intro i j first second same
  rcases Nat.lt_trichotomy i j with order | equal | order
  · exact absurd same (apart i j first second order)
  · exact equal
  · exact absurd same.symm (apart j i second first order)

/-- The empty transfer that acknowledges an address, and three bytes lent in answer to its report. -/
theorem reports_origin_of_answer :
    let start : Session MeteredSink :=
      Session.plan
        { output := { sink := {} }, buffers := [[1, 2, 3]]
          clients := [{ onTransferComplete := [[.queueTransfer (.address 0x80) (some { buffer := 0 })]] }] }
        [.setClient 0, .setDeviceAddress 5, .handleInterrupt (some 0x12), .handleInterrupt (some 0x12),
          .handleInterrupt (some 0x12), .handleInterrupt (some 0x12)]
    ∃ first second, OwedTo (start.path 17) 6 first 0 ∧ OwedTo (start.path 17) 14 second 3 ∧ first ≠ second := by
  intro start
  have fresh : start.Fresh := ⟨rfl, rfl, _, rfl⟩
  have atFirst : (start.path 17)[6]? = some (start.after 6) := getElem?_path (by decide +kernel)
  have atSecond : (start.path 17)[14]? = some (start.after 14) := getElem?_path (by decide +kernel)
  have first : (start.after 6).Reports .controlIn 0 .success := ⟨0, by decide +kernel⟩
  have second : (start.after 14).Reports .controlIn 3 .success := ⟨0, by decide +kernel⟩
  obtain ⟨_, origin, owed, apart⟩ := reports_origin fresh (start.reach_after 17)
  refine ⟨origin 6, origin 14, (owed 6 _ _ _ _ atFirst first).2.2, (owed 14 _ _ _ _ atSecond second).2.2, ?_⟩
  intro same
  have equal := apart 6 14 ⟨_, _, _, _, atFirst, first⟩ ⟨_, _, _, _, atSecond, second⟩ same
  cases equal

end Session

end UsbDevice
