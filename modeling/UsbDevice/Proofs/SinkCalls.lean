import Mathlib.Logic.Relation
import UsbDevice.Debug.Channel

namespace UsbDevice

/-! The bytes of a text are those of its pieces, one after the other. -/

theorem toList_loop (bytes : ByteArray) (i : Nat) (before : List UInt8) :
    ByteArray.toList.loop bytes i before = before.reverse ++ bytes.data.toList.drop i := by
  fun_induction ByteArray.toList.loop bytes i before with
  | case1 i before inside ih =>
    have bound : i < bytes.data.toList.length := by simpa using inside
    rw [ih, List.drop_eq_getElem_cons bound]
    simp [ByteArray.get!, inside]
  | case2 i before outside =>
    rw [List.drop_eq_nil_of_le (by simpa using Nat.le_of_not_lt outside), List.append_nil]

theorem utf8_append (a b : String) : utf8 (a ++ b) = utf8 a ++ utf8 b := by
  simp only [utf8, String.toUTF8, ByteArray.toList, toList_loop, List.reverse_nil, List.nil_append, List.drop_zero,
    String.toByteArray_append, ByteArray.toList_data_append, List.map_append]

theorem utf8_empty : utf8 "" = [] := by decide +kernel

namespace Pieces

theorem text_nil : text [] = "" := String.join_nil

theorem text_cons (piece : String) (pieces : Pieces) : text (piece :: pieces) = piece ++ pieces.text := String.join_cons

theorem text_append (pieces later : Pieces) : text (pieces ++ later) = pieces.text ++ later.text := String.join_append

theorem utf8_text (pieces : Pieces) : utf8 pieces.text = pieces.flatMap utf8 := by
  induction pieces with
  | nil => exact utf8_empty
  | cons piece pieces ih => rw [text_cons, utf8_append, List.flatMap_cons, ih]

end Pieces

namespace Message

/-- What the message says when it is the `number`-th, in one text and without the end of the line. -/
def text (number : Nat) : Message → String
  | line pieces => pieces.text
  | located file lineNumber pieces =>
    "TOCK_DEBUG(" ++ Nat.repr number ++ "): " ++ file ++ ":" ++ Nat.repr lineNumber ++ ": " ++ pieces.text

theorem text_pieces (m : Message) (number : Nat) : (m.pieces number).text = m.text number ++ "\r\n" := by
  cases m with
  | line pieces => exact Pieces.text_append pieces ["\r\n"]
  | located file lineNumber pieces =>
    -- Both ends are taken off first, so that no literal is compared with the empty text.
    refine (Pieces.text_append _ ["\r\n"]).trans (congrArg (· ++ "\r\n") ?_)
    rw [Pieces.text_append]
    refine congrArg (· ++ pieces.text) ?_
    simp only [Pieces.decimal, List.cons_append, List.nil_append, Pieces.text_cons, Pieces.text_nil,
      String.append_assoc]
    rw [String.append_empty]

theorem utf8_pieces (m : Message) (number : Nat) :
    (m.pieces number).flatMap utf8 = utf8 (m.text number ++ "\r\n") := by
  rw [← Pieces.utf8_text, text_pieces]

end Message

/-- One call of a sink: what it is offered, and how many bytes it claims to have taken. -/
structure SinkCall where
  bytes : List Byte
  claimed : Nat
deriving DecidableEq

def SinkCall.kept (call : SinkCall) : List Byte := call.bytes.take call.claimed

/-- A sink together with all calls it has had. -/
structure Recorded (σ : Type) where
  sink : σ
  calls : List SinkCall := []

/-- How a piece is handed to a sink: what was left of it at each call, until nothing is left or the sink claims
nothing. -/
structure Handed (piece : List Byte) (calls : List SinkCall) : Prop where
  bounded : calls.length ≤ piece.length
  /-- The first call is offered all of it. -/
  begins : piece ≠ [] → calls.head?.map SinkCall.bytes = some piece
  offered : ∀ call ∈ calls, call.bytes ≠ [] ∧ call.bytes <:+ piece
  /-- No call comes after one that claims nothing. -/
  ends : ∀ call ∈ calls.dropLast, call.claimed ≠ 0
  kept : calls.flatMap SinkCall.kept <+: piece
  whole : (∀ call ∈ calls, call.claimed ≠ 0) → calls.flatMap SinkCall.kept = piece

theorem Handed.nothing : Handed [] [] :=
  ⟨Nat.le_refl 0, fun some => absurd rfl some, by simp, by simp, List.nil_prefix, fun _ => rfl⟩

theorem Handed.refused {bytes : List Byte} (some : bytes ≠ []) : Handed bytes [⟨bytes, 0⟩] := by
  refine ⟨List.length_pos_iff.mpr some, fun _ => rfl, ?_, by simp, by simp [SinkCall.kept], ?_⟩
  · simpa using some
  · intro claims
    exact absurd rfl (claims _ (List.mem_singleton_self _))

theorem Handed.taken {bytes : List Byte} {claimed : Nat} {calls : List SinkCall} (some : bytes ≠ [])
    (more : claimed ≠ 0) (rest : Handed (bytes.drop claimed) calls) : Handed bytes (⟨bytes, claimed⟩ :: calls) := by
  have whole : bytes.take claimed ++ bytes.drop claimed = bytes := List.take_append_drop claimed bytes
  refine ⟨?_, fun _ => rfl, ?_, ?_, ?_, ?_⟩
  · have length := List.length_pos_iff.mpr some
    have bounded := rest.bounded
    rw [List.length_drop] at bounded
    rw [List.length_cons]
    omega
  · rintro call (_ | ⟨_, member⟩)
    · exact ⟨some, List.suffix_rfl⟩
    · obtain ⟨left, within⟩ := rest.offered call member
      exact ⟨left, within.trans (List.drop_suffix claimed bytes)⟩
  · cases calls with
    | nil => simp
    | cons next calls =>
      rw [List.dropLast_cons_cons, List.forall_mem_cons]
      exact ⟨more, rest.ends⟩
  · have kept := (List.prefix_append_right_inj (bytes.take claimed)).mpr rest.kept
    rwa [whole] at kept
  · intro claims
    rw [List.flatMap_cons, rest.whole fun call member => claims call (List.mem_cons_of_mem _ member)]
    exact whole

section

variable {σ : Type} [Sink σ]

namespace Sink

/-- A call of the sink leaves it so. -/
def Called (sink next : σ) : Prop :=
  ∃ bytes, bytes ≠ [] ∧ (Sink.write sink bytes).sink = next

/-- Whatever calls the sink has had, it claims something at the next one. -/
def AlwaysClaims (sink : σ) : Prop :=
  ∀ later, Relation.ReflTransGen Called sink later → ∀ bytes, bytes ≠ [] → (Sink.write later bytes).claimed ≠ 0

variable {sink : σ} {bytes : List Byte}

theorem AlwaysClaims.now (claims : AlwaysClaims sink) (some : bytes ≠ []) : (Sink.write sink bytes).claimed ≠ 0 :=
  claims sink .refl bytes some

theorem AlwaysClaims.next (claims : AlwaysClaims sink) (some : bytes ≠ []) :
    AlwaysClaims (Sink.write sink bytes).sink :=
  fun later calls => claims later (.head ⟨bytes, some, rfl⟩ calls)

end Sink

instance : Sink (Recorded σ) where
  write recorded bytes :=
    let reply := Sink.write recorded.sink bytes
    { sink := ⟨reply.sink, recorded.calls ++ [⟨bytes, reply.claimed⟩]⟩
      started := reply.started
      claimed := reply.claimed }

theorem Sink.AlwaysClaims.recorded {sink : Recorded σ} (claims : AlwaysClaims sink.sink) : AlwaysClaims sink :=
  fun later calls => claims later.sink <| calls.lift Recorded.sink fun _ _ ⟨bytes, left, made⟩ =>
    ⟨bytes, left, congrArg Recorded.sink made⟩

namespace Output

open Sink (AlwaysClaims)

/-- The same output, of which the sink has had these calls. -/
def recording (o : Output σ) (calls : List SinkCall) : Output (Recorded σ) where
  sink := ⟨o.sink, calls⟩
  count := o.count
  stored := o.stored

/-- The same output with a place for its sink. -/
def placed (o : Output σ) : Output (Option σ) where
  sink := some o.sink
  count := o.count
  stored := o.stored

/-- The output after a call of its sink. What the sink starts finds the channel busy. -/
def called (o : Output σ) (bytes : List Byte) : Output σ where
  sink := (Sink.write o.sink bytes).sink
  count := o.count
  stored := o.stored ++ bytes.take (Sink.write o.sink bytes).claimed

variable {nested : Output σ → Message → Output σ}

theorem offer_eq (o : Output σ) (bytes : List Byte) :
    o.offer nested bytes = ⟨o.called bytes, (Sink.write o.sink bytes).claimed⟩ := by
  simp only [offer, Channel.foldl_start_busy]
  rfl

theorem send_skip (o : Output σ) (skip : Nat) (bytes : List Byte) :
    o.send nested skip bytes = o.send nested 0 (bytes.drop skip) := by
  induction bytes generalizing skip with
  | nil => simp [send]
  | cons b bytes ih =>
    cases skip with
    | zero => rfl
    | succ skip => exact ih skip

theorem send_of_ne_nil (o : Output σ) {bytes : List Byte} (some : bytes ≠ []) :
    o.send nested 0 bytes =
      if (Sink.write o.sink bytes).claimed = 0 then o.called bytes
      else (o.called bytes).send nested 0 (bytes.drop (Sink.write o.sink bytes).claimed) := by
  cases bytes with
  | nil => exact absurd rfl some
  | cons b bytes =>
    simp only [send, offer_eq]
    split
    · next none => rw [if_pos none]
    · next claimed more => rw [more, if_neg (Nat.succ_ne_zero claimed), send_skip, List.drop_succ_cons]

/-- While there is no sink nothing becomes of a piece. -/
theorem send_none (nested : Output (Option σ) → Message → Output (Option σ)) (count : Nat)
    (stored bytes : List Byte) : send nested { sink := none, count, stored } 0 bytes = { sink := none, count, stored } := by
  by_cases some : bytes = []
  · rw [some, send]
  · have lost : called { sink := (none : Option σ), count, stored } bytes = { sink := none, count, stored } :=
      congrArg (Output.mk none count) (List.append_nil stored)
    rw [send_of_ne_nil _ some, lost]
    exact if_pos rfl

/-- The bytes of a piece go from one output to the other in these calls. -/
inductive Sends : Output σ → List Byte → List SinkCall → Output σ → Prop
  | nothing (o : Output σ) : Sends o [] [] o
  | refused {o : Output σ} {bytes : List Byte} : bytes ≠ [] → (Sink.write o.sink bytes).claimed = 0 →
    Sends o bytes [⟨bytes, 0⟩] (o.called bytes)
  | taken {o after : Output σ} {bytes : List Byte} {calls : List SinkCall} : bytes ≠ [] →
    (Sink.write o.sink bytes).claimed ≠ 0 →
    Sends (o.called bytes) (bytes.drop (Sink.write o.sink bytes).claimed) calls after →
    Sends o bytes (⟨bytes, (Sink.write o.sink bytes).claimed⟩ :: calls) after

theorem sends_send (nested : Output σ → Message → Output σ) (o : Output σ) (bytes : List Byte) :
    ∃ calls, Sends o bytes calls (o.send nested 0 bytes) := by
  induction size : bytes.length using Nat.strongRecOn generalizing o bytes with
  | ind n ih =>
    by_cases some : bytes = []
    · subst some
      exact ⟨[], .nothing o⟩
    by_cases claims : (Sink.write o.sink bytes).claimed = 0
    · rw [send_of_ne_nil o some, if_pos claims]
      exact ⟨_, .refused some claims⟩
    -- A call that claims something leaves fewer bytes.
    · have shorter : (bytes.drop (Sink.write o.sink bytes).claimed).length < n := by
        have positive := List.length_pos_iff.mpr some
        rw [List.length_drop]
        omega
      obtain ⟨calls, rest⟩ := ih _ shorter (o.called bytes) _ rfl
      rw [send_of_ne_nil o some, if_neg claims]
      exact ⟨_, .taken some claims rest⟩

variable {o after : Output σ} {bytes : List Byte} {calls : List SinkCall}

theorem Sends.eq (sends : Sends o bytes calls after) : o.send nested 0 bytes = after := by
  induction sends with
  | nothing => rfl
  | refused some none => rw [send_of_ne_nil _ some, if_pos none]
  | taken some more _ ih => rw [send_of_ne_nil _ some, if_neg more, ih]

theorem Sends.handed (sends : Sends o bytes calls after) : Handed bytes calls := by
  induction sends with
  | nothing => exact .nothing
  | refused some => exact .refused some
  | taken some more _ ih => exact .taken some more ih

theorem Sends.stored (sends : Sends o bytes calls after) :
    after.stored = o.stored ++ calls.flatMap SinkCall.kept ∧ after.count = o.count := by
  induction sends with
  | nothing => simp
  | refused some none => simp [called, none, SinkCall.kept]
  | taken some more _ ih =>
    obtain ⟨stored, count⟩ := ih
    rw [stored, List.flatMap_cons, ← List.append_assoc]
    exact ⟨rfl, count⟩

theorem Sends.claimed (sends : Sends o bytes calls after) (claims : AlwaysClaims o.sink) :
    (∀ call ∈ calls, call.claimed ≠ 0) ∧ AlwaysClaims after.sink := by
  induction sends with
  | nothing => exact ⟨by simp, claims⟩
  | refused some none => exact absurd none (claims.now some)
  | taken some more _ ih =>
    obtain ⟨later, last⟩ := ih (claims.next some)
    exact ⟨List.forall_mem_cons.mpr ⟨more, later⟩, last⟩

theorem Sends.placed (sends : Sends o bytes calls after) : Sends o.placed bytes calls after.placed := by
  induction sends with
  | nothing o => exact .nothing o.placed
  | refused some none => exact .refused some none
  | taken some more _ ih => exact .taken some more ih

/-- That the calls are recorded makes no difference. -/
theorem Sends.recording (sends : Sends o bytes calls after) (before : List SinkCall) :
    Sends (o.recording before) bytes calls (after.recording (before ++ calls)) := by
  induction sends generalizing before with
  | nothing =>
    rw [List.append_nil]
    exact .nothing _
  | @refused o bytes some none =>
    have recorded : (o.recording before).called bytes = (o.called bytes).recording (before ++ [⟨bytes, 0⟩]) := by
      rw [← none]
      rfl
    exact recorded ▸ .refused some none
  | @taken o after bytes calls some more _ ih =>
    have rest := ih (before ++ [⟨bytes, (Sink.write o.sink bytes).claimed⟩])
    rw [List.append_assoc, List.singleton_append] at rest
    exact .taken some more rest

end Output

end

end UsbDevice
