import UsbDevice.Proofs.MessageDelivery

namespace UsbDevice

/-- Once a call has claimed nothing, none that comes later claims anything. -/
def StaysFull (calls : List SinkCall) : Prop :=
  calls.Pairwise fun call later => call.claimed = 0 → later.claimed = 0

theorem kept_of_refused {calls : List SinkCall} (refused : ∀ call ∈ calls, call.claimed = 0) :
    calls.flatMap SinkCall.kept = [] := by
  refine List.flatMap_eq_nil_iff.mpr fun call member => ?_
  rw [SinkCall.kept, refused call member, List.take_zero]

/-- If the sink stays full, what it keeps of the pieces is a prefix of them all. -/
theorem kept_prefix {pieces : Pieces} {calls : List (List SinkCall)}
    (handed : List.Forall₂ (fun piece calls => Handed (utf8 piece) calls) pieces calls)
    (full : StaysFull calls.flatten) : calls.flatten.flatMap SinkCall.kept <+: pieces.flatMap utf8 := by
  induction handed with
  | nil => exact List.prefix_rfl
  | @cons piece calls pieces rest first _ ih =>
    rw [List.flatten_cons, StaysFull, List.pairwise_append] at full
    obtain ⟨_, later, across⟩ := full
    rw [List.flatten_cons, List.flatMap_append, List.flatMap_cons]
    by_cases claims : ∀ call ∈ calls, call.claimed ≠ 0
    · rw [first.whole claims]
      exact (List.prefix_append_right_inj _).mpr (ih later)
    -- A call for this piece was refused, so that nothing is kept of the pieces after it.
    · push Not at claims
      obtain ⟨call, member, refused⟩ := claims
      rw [kept_of_refused fun next following => across call member next following refused, List.append_nil]
      exact first.kept.trans (List.prefix_append _ _)

namespace Output

variable {σ : Type} [Sink σ]

/-- Each piece of a message is offered from its beginning and cut off where the sink claims nothing, and the next piece
is offered all the same. Only a sink that stays full keeps a prefix of the message. -/
theorem truncates_pieces (o : Output σ) (m : Message) :
    ∃ calls : List (List SinkCall), (o.recording []).print m = (o.print m).recording calls.flatten ∧
      (o.print m).stored = o.stored ++ calls.flatten.flatMap SinkCall.kept ∧
      List.Forall₂ (fun piece calls => Handed (utf8 piece) calls) (m.pieces (o.count + 1)) calls ∧
      (StaysFull calls.flatten →
        calls.flatten.flatMap SinkCall.kept <+: utf8 (m.text (o.count + 1) ++ "\r\n")) := by
  obtain ⟨calls, recorded, stored, _, handed, _⟩ := o.print_calls [] m
  refine ⟨calls, recorded, stored, handed, fun full => ?_⟩
  rw [← m.utf8_pieces]
  exact kept_prefix handed full

/-- The sink has room for one byte of the message. The end of the line is offered too, in vain. -/
theorem truncates_pieces_of_one :
    let o : Output MeteredSink := { sink := { capacity := some 1 } }
    ((o.recording []).print (.literal "ab")).sink.calls = [⟨[0x61, 0x62], 1⟩, ⟨[0x62], 0⟩, ⟨[0x0d, 0x0a], 0⟩] ∧
      (o.print (.literal "ab")).stored <+: utf8 ("ab" ++ "\r\n") := by
  intro o
  have made : ((o.recording []).print (.literal "ab")).sink.calls
      = [⟨[0x61, 0x62], 1⟩, ⟨[0x62], 0⟩, ⟨[0x0d, 0x0a], 0⟩] := by
    decide +kernel
  obtain ⟨calls, recorded, stored, _, cut⟩ := o.truncates_pieces (.literal "ab")
  have same := (congrArg (·.sink.calls) recorded).symm.trans made
  have full : StaysFull calls.flatten := by
    rw [StaysFull, show calls.flatten = _ from same]
    simp
  rw [stored]
  exact ⟨made, cut full⟩

/-- The sink takes one byte, refuses once, and is called again for the end of the line, which it takes. -/
theorem hole_after_refusal :
    let o : Output MeteredSink := { sink := { script := [1, 0] } }
    ((o.recording []).print (.literal "ab")).sink.calls = [⟨[0x61, 0x62], 1⟩, ⟨[0x62], 0⟩, ⟨[0x0d, 0x0a], 2⟩] ∧
      (o.print (.literal "ab")).stored = [0x61, 0x0d, 0x0a] ∧
      ¬ (o.print (.literal "ab")).stored <+: utf8 ((Message.literal "ab").text 1 ++ "\r\n") := by
  decide +kernel

end Output

end UsbDevice
