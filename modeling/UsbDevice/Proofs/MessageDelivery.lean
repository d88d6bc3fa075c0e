import Mathlib.Data.List.Forall2
import UsbDevice.Debug.MeteredSink
import UsbDevice.Proofs.SinkCalls

namespace UsbDevice

/-- What the messages say, one after the other, when the first of them has this number. -/
def Message.transcript (first : Nat) (messages : List Message) : String :=
  String.join ((messages.zipIdx first).map fun (m, number) => m.text number ++ "\r\n")

/-- What each action prints. Before there is a sink that is nothing, and then the messages are numbered since it was
registered. -/
def OutputAction.texts {σ : Type} : Option Nat → List (OutputAction σ) → List String
  | _, [] => []
  | none, print _ :: as => "" :: texts none as
  | some count, print m :: as => (m.text (count + 1) ++ "\r\n") :: texts (some (count + 1)) as
  | _, register _ :: as => "" :: texts (some 0) as

theorem Message.transcript_nil (first : Nat) : transcript first [] = "" := String.join_nil

theorem Message.transcript_cons (first : Nat) (m : Message) (messages : List Message) :
    transcript first (m :: messages) = (m.text first ++ "\r\n") ++ transcript (first + 1) messages := by
  rw [transcript, List.zipIdx_cons, List.map_cons, String.join_cons, transcript]

/-- Where each call claims something, all pieces are kept. -/
theorem kept_of_claimed {pieces : Pieces} {calls : List (List SinkCall)}
    (handed : List.Forall₂ (fun piece calls => Handed (utf8 piece) calls) pieces calls)
    (claimed : ∀ call ∈ calls.flatten, call.claimed ≠ 0) :
    calls.flatten.flatMap SinkCall.kept = pieces.flatMap utf8 := by
  induction handed with
  | nil => rfl
  | cons first _ ih =>
    rw [List.flatten_cons, List.forall_mem_append] at claimed
    rw [List.flatten_cons, List.flatMap_append, List.flatMap_cons, first.whole claimed.1, ih claimed.2]

/-- A sink that takes some bytes at a time and has room for all always claims something, whatever it prints
meanwhile. -/
theorem MeteredSink.alwaysClaims {sink : MeteredSink} (unscripted : sink.script = []) (roomy : sink.capacity = none)
    (quick : sink.chunk ≠ some 0) : Sink.AlwaysClaims sink := by
  intro later calls bytes some
  have same : later.script = [] ∧ later.capacity = none ∧ later.chunk = sink.chunk := by
    induction calls with
    | refl => exact ⟨unscripted, roomy, rfl⟩
    | @tail before next _ called ih =>
      obtain ⟨offered, _, rfl⟩ := called
      obtain ⟨script, capacity, chunk⟩ := ih
      simp [Sink.write, write, script, capacity, chunk]
  obtain ⟨script, capacity, chunk⟩ := same
  have positive := List.length_pos_iff.mpr some
  have taken : later.taken bytes.length ≠ 0 := by
    rw [← chunk] at quick
    rcases size : later.chunk with - | n
    · simp [MeteredSink.taken, capacity, size, some]
    · have more : n ≠ 0 := by simpa [size] using quick
      simp only [MeteredSink.taken, capacity, size, Option.getD_some, Option.getD_none]
      omega
  have claimed : (later.write bytes).claimed =
      if later.taken bytes.length = 0 then 0 else later.taken bytes.length + later.extra := by
    simp only [write, script]
    rfl
  rw [if_neg taken] at claimed
  exact claimed.trans_ne (Nat.ne_of_gt (Nat.add_pos_left (Nat.pos_of_ne_zero taken) _))

section

open Sink (AlwaysClaims)
open Message (transcript)

variable {σ : Type} [Sink σ]

namespace Output

/-- The pieces go from one output to the other, each in calls of its own. -/
inductive SendsAll : Output σ → Pieces → List (List SinkCall) → Output σ → Prop
  | nil (o : Output σ) : SendsAll o [] [] o
  | cons {o next after : Output σ} {piece : String} {pieces : Pieces} {calls : List SinkCall}
    {rest : List (List SinkCall)} : Sends o (utf8 piece) calls next → SendsAll next pieces rest after →
    SendsAll o (piece :: pieces) (calls :: rest) after

theorem sendsAll_foldl (nested : Output σ → Message → Output σ) (o : Output σ) (pieces : Pieces) :
    ∃ calls, SendsAll o pieces calls (pieces.foldl (fun o piece => o.send nested 0 (utf8 piece)) o) := by
  induction pieces generalizing o with
  | nil => exact ⟨[], .nil o⟩
  | cons piece pieces ih =>
    obtain ⟨calls, sends⟩ := sends_send nested o (utf8 piece)
    obtain ⟨rest, all⟩ := ih (o.send nested 0 (utf8 piece))
    exact ⟨calls :: rest, .cons sends all⟩

variable {o after : Output σ} {pieces : Pieces} {calls : List (List SinkCall)}

theorem SendsAll.eq (all : SendsAll o pieces calls after) (nested : Output σ → Message → Output σ) :
    pieces.foldl (fun o piece => o.send nested 0 (utf8 piece)) o = after := by
  induction all with
  | nil => rfl
  | cons sends _ ih => rw [List.foldl_cons, sends.eq, ih]

theorem SendsAll.handed (all : SendsAll o pieces calls after) :
    List.Forall₂ (fun piece calls => Handed (utf8 piece) calls) pieces calls := by
  induction all with
  | nil => exact .nil
  | cons sends _ ih => exact .cons sends.handed ih

theorem SendsAll.stored (all : SendsAll o pieces calls after) :
    after.stored = o.stored ++ calls.flatten.flatMap SinkCall.kept ∧ after.count = o.count := by
  induction all with
  | nil => simp
  | cons sends _ ih =>
    obtain ⟨stored, count⟩ := sends.stored
    rw [ih.1, ih.2, stored, count, List.flatten_cons, List.flatMap_append, List.append_assoc]
    exact ⟨rfl, rfl⟩

theorem SendsAll.recording (all : SendsAll o pieces calls after) (before : List SinkCall) :
    SendsAll (o.recording before) pieces calls (after.recording (before ++ calls.flatten)) := by
  induction all generalizing before with
  | nil =>
    rw [List.flatten_nil, List.append_nil]
    exact .nil _
  | @cons _ _ _ _ _ calls rest sends _ ih =>
    rw [List.flatten_cons, ← List.append_assoc]
    exact .cons (sends.recording before) (ih (before ++ calls))

theorem SendsAll.claimed (all : SendsAll o pieces calls after) (claims : AlwaysClaims o.sink) :
    (∀ call ∈ calls.flatten, call.claimed ≠ 0) ∧ AlwaysClaims after.sink := by
  induction all with
  | nil => exact ⟨by simp, claims⟩
  | cons sends _ ih =>
    obtain ⟨now, next⟩ := sends.claimed claims
    obtain ⟨later, last⟩ := ih next
    rw [List.flatten_cons, List.forall_mem_append]
    exact ⟨⟨now, later⟩, last⟩

theorem SendsAll.placed (all : SendsAll o pieces calls after) : SendsAll o.placed pieces calls after.placed := by
  induction all with
  | nil o => exact .nil o.placed
  | cons sends _ ih => exact .cons sends.placed ih

theorem print_sends (o : Output σ) (m : Message) :
    ∃ calls, SendsAll { o with count := o.count + 1 } (m.pieces (o.count + 1)) calls (o.print m) :=
  sendsAll_foldl (fun o _ => o) { o with count := o.count + 1 } (m.pieces (o.count + 1))

/-- Which calls are made for a message, and what comes of them. -/
theorem print_calls (o : Output σ) (before : List SinkCall) (m : Message) :
    ∃ calls : List (List SinkCall), (o.recording before).print m = (o.print m).recording (before ++ calls.flatten) ∧
      (o.print m).stored = o.stored ++ calls.flatten.flatMap SinkCall.kept ∧ (o.print m).count = o.count + 1 ∧
      List.Forall₂ (fun piece calls => Handed (utf8 piece) calls) (m.pieces (o.count + 1)) calls ∧
      (AlwaysClaims o.sink → (∀ call ∈ calls.flatten, call.claimed ≠ 0) ∧ AlwaysClaims (o.print m).sink) := by
  obtain ⟨calls, all⟩ := o.print_sends m
  exact ⟨calls, (all.recording before).eq _, all.stored.1, all.stored.2, all.handed, all.claimed⟩

theorem print_placed (o : Output σ) (m : Message) : o.placed.print m = (o.print m).placed := by
  obtain ⟨calls, all⟩ := o.print_sends m
  exact all.placed.eq _

/-- What is kept of messages that are printed one after the other: all of them, where the sink always claims
something. -/
theorem foldl_print (o : Output σ) (before : List SinkCall) (messages : List Message) :
    ∃ calls, messages.foldl print (o.recording before) = (messages.foldl print o).recording (before ++ calls) ∧
      (messages.foldl print o).stored = o.stored ++ calls.flatMap SinkCall.kept ∧
      (messages.foldl print o).count = o.count + messages.length ∧
      (AlwaysClaims o.sink → calls.flatMap SinkCall.kept = utf8 (transcript (o.count + 1) messages)) := by
  induction messages generalizing o before with
  | nil =>
    refine ⟨[], ?_, ?_, rfl, fun _ => ?_⟩
    · rw [List.append_nil]
      rfl
    · rw [List.flatMap_nil, List.append_nil]
      rfl
    · rw [Message.transcript_nil, utf8_empty, List.flatMap_nil]
  | cons m messages ih =>
    obtain ⟨now, recorded, stored, count, handed, claimed⟩ := o.print_calls before m
    obtain ⟨later, rest, storedLater, countLater, whole⟩ := ih (o.print m) (before ++ now.flatten)
    refine ⟨now.flatten ++ later, ?_, ?_, ?_, fun claims => ?_⟩
    · rw [List.foldl_cons, recorded, rest, List.append_assoc, List.foldl_cons]
    · rw [List.foldl_cons, storedLater, stored, List.flatMap_append, List.append_assoc]
    · rw [List.foldl_cons, countLater, count, List.length_cons]
      omega
    · obtain ⟨all, next⟩ := claimed claims
      rw [List.flatMap_append, whole next, kept_of_claimed handed all, m.utf8_pieces, count, Message.transcript_cons,
        utf8_append _ (transcript _ _)]

/-- With sinks that always claim something, an action keeps just what it prints. -/
theorem act_of_alwaysClaims (o : Output σ) (claims : AlwaysClaims o.sink) (a : OutputAction σ)
    (other : ∀ sink, a = .register sink → AlwaysClaims sink) :
    ∃ text, (o.act a).stored = o.stored ++ utf8 text ∧ AlwaysClaims (o.act a).sink ∧
      ∀ as, OutputAction.texts (some o.count) (a :: as) = text :: OutputAction.texts (some (o.act a).count) as := by
  cases a with
  | print m =>
    obtain ⟨calls, _, stored, count, handed, claimed⟩ := o.print_calls [] m
    obtain ⟨all, next⟩ := claimed claims
    rw [kept_of_claimed handed all, m.utf8_pieces] at stored
    refine ⟨_, stored, next, fun as => ?_⟩
    rw [OutputAction.texts, act, count]
  | register sink =>
    refine ⟨"", ?_, other sink rfl, fun as => rfl⟩
    rw [utf8_empty, List.append_nil]
    rfl

/-- The bytes of each action, as they are collected after it. -/
theorem run_of_alwaysClaims (o : Output σ) (empty : o.stored = []) (claims : AlwaysClaims o.sink)
    (as : List (OutputAction σ)) (others : ∀ sink, .register sink ∈ as → AlwaysClaims sink) :
    o.run as = (OutputAction.texts (some o.count) as).map utf8 := by
  induction as generalizing o with
  | nil => rfl
  | cons a as ih =>
    obtain ⟨text, stored, next, texts⟩ :=
      o.act_of_alwaysClaims claims a fun sink same => others sink (same ▸ List.mem_cons_self)
    have rest := ih (o.act a).emptied rfl next fun sink member => others sink (List.mem_cons_of_mem a member)
    rw [empty, List.nil_append] at stored
    simp only [run, texts, List.map_cons, stored, rest]
    rfl

theorem stored_foldl_act (o : Output σ) (claims : AlwaysClaims o.sink) (as : List (OutputAction σ))
    (others : ∀ sink, .register sink ∈ as → AlwaysClaims sink) :
    (as.foldl act o).stored = o.stored ++ utf8 (String.join (OutputAction.texts (some o.count) as)) := by
  induction as generalizing o with
  | nil =>
    rw [OutputAction.texts, String.join_nil, utf8_empty, List.append_nil]
    rfl
  | cons a as ih =>
    obtain ⟨text, stored, next, texts⟩ :=
      o.act_of_alwaysClaims claims a fun sink same => others sink (same ▸ List.mem_cons_self)
    have rest := ih (o.act a) next fun sink member => others sink (List.mem_cons_of_mem a member)
    rw [List.foldl_cons, rest, stored, texts, String.join_cons, utf8_append, List.append_assoc]

/-- While no sink is registered, a message is counted and nothing else. -/
theorem print_none (count : Nat) (stored : List Byte) (m : Message) :
    print ({ sink := none, count, stored } : Output (Option σ)) m = { sink := none, count := count + 1, stored } :=
  List.foldl_fixed' (fun piece => send_none _ (count + 1) stored (utf8 piece)) (m.pieces (count + 1))

theorem foldl_print_none (count : Nat) (messages : List Message) :
    messages.foldl print ({ sink := none, count } : Output (Option σ))
      = { sink := none, count := count + messages.length } := by
  induction messages generalizing count with
  | nil => rfl
  | cons m messages ih => rw [List.foldl_cons, print_none, ih, List.length_cons, Nat.add_right_comm, Nat.add_assoc]

end Output

namespace Channel

open Output (print_none print_placed stored_foldl_act)

theorem foldl_act_print (o : Output (Option σ)) (messages : List Message) :
    (messages.map .print).foldl (act Output.print) (free o) = free (messages.foldl Output.print o) := by
  induction messages generalizing o with
  | nil => rfl
  | cons m messages ih => exact ih (o.print m)

theorem foldl_act_placed (o : Output σ) (as : List (OutputAction σ)) :
    as.foldl (act Output.print) (free o.placed) = free (as.foldl Output.act o).placed := by
  induction as generalizing o with
  | nil => rfl
  | cons a as ih =>
    cases a with
    | print m =>
      have printed : act Output.print (free o.placed) (.print m) = free (o.print m).placed :=
        congrArg free (print_placed o m)
      rw [List.foldl_cons, printed, ih (o.print m)]
      rfl
    | register sink => exact ih (o.register sink)

/-- From the beginning each action finds the channel free, and with sinks that always claim something all is kept that
the actions print. -/
theorem foldl_act_none (count : Nat) (stored : List Byte) (as : List (OutputAction σ)) :
    ∃ o, as.foldl (act Output.print) (free { sink := none, count, stored }) = free o ∧
      ((∀ sink, .register sink ∈ as → AlwaysClaims sink) →
        o.stored = stored ++ utf8 (String.join (OutputAction.texts none as))) := by
  induction as generalizing count with
  | nil =>
    refine ⟨_, rfl, fun _ => ?_⟩
    rw [OutputAction.texts, String.join_nil, utf8_empty, List.append_nil]
  | cons a as ih =>
    cases a with
    | print m =>
      obtain ⟨o, ran, kept⟩ := ih (count + 1)
      have lost : act Output.print (free { sink := none, count, stored }) (.print m)
          = free ({ sink := none, count := count + 1, stored } : Output (Option σ)) :=
        congrArg free (print_none count stored m)
      refine ⟨o, by rw [List.foldl_cons, lost, ran], fun claims => ?_⟩
      rw [kept fun sink member => claims sink (List.mem_cons_of_mem _ member), OutputAction.texts, String.join_cons,
        String.empty_append]
    | register sink =>
      let fresh : Output σ := { sink, stored }
      refine ⟨_, foldl_act_placed fresh as, fun claims => ?_⟩
      have kept := stored_foldl_act fresh (claims sink List.mem_cons_self) as fun sink member =>
        claims sink (List.mem_cons_of_mem _ member)
      rw [OutputAction.texts, String.join_cons, String.empty_append]
      exact kept

end Channel

namespace Output

/-- Let `print` write all messages alike, those too that a sink starts. Then each message that no sink has started finds
the channel free. Before any sink is registered the messages are lost. After that they go to the sink registered last,
numbered from 1 on, and sinks that always claim something keep them whole and in their order, and nothing of those that
sinks start. Any sink at all is offered a piece at most as often as the piece has bytes. -/
theorem delivers_messages {print : Output (Option (Recorded σ)) → Message → Output (Option (Recorded σ))}
    (recursive : print = deliver print) :
    (∀ messages : List Message, (messages.map .print).foldl (Channel.act print) (.free { sink := none })
        = .free { sink := none, count := messages.length }) ∧
      ∀ before : List (OutputAction (Recorded σ)), ∃ o,
        before.foldl (Channel.act print) (.free { sink := none }) = .free o ∧
        ((∀ sink, .register sink ∈ before → AlwaysClaims sink.sink) →
          o.stored = utf8 (String.join (OutputAction.texts none before))) ∧
        (∀ (sink : Recorded σ) (messages : List Message), ∃ after calls,
          (.register sink :: messages.map .print).foldl (Channel.act print) (.free o)
            = .free
                { sink := some ⟨after, sink.calls ++ calls⟩
                  count := messages.length
                  stored := o.stored ++ calls.flatMap SinkCall.kept } ∧
          (AlwaysClaims sink.sink → calls.flatMap SinkCall.kept = utf8 (transcript 1 messages))) ∧
        ∀ (m : Message) (sink : σ) (calls : List SinkCall), o.sink = some ⟨sink, calls⟩ →
          ∃ (after : σ) (made : List (List SinkCall)),
            (print o m).sink = some ⟨after, calls ++ made.flatten⟩ ∧
            List.Forall₂
              (fun piece made => made.length ≤ (utf8 piece).length ∧
                ∀ call ∈ made, call.bytes ≠ [] ∧ call.bytes <:+ utf8 piece)
              (m.pieces (o.count + 1)) made := by
  obtain rfl := eq_print recursive
  refine ⟨fun messages => ?_, fun before => ?_⟩
  · rw [Channel.foldl_act_print, foldl_print_none, Nat.zero_add]
  obtain ⟨o, ran, whole⟩ := Channel.foldl_act_none 0 [] before
  refine ⟨o, ran, fun claims => whole fun sink member => (claims sink member).recorded, fun sink messages => ?_,
    fun m sink calls registered => ?_⟩
  · let fresh : Output σ := { sink := sink.sink, stored := o.stored }
    obtain ⟨calls, recorded, stored, count, whole⟩ := fresh.foldl_print sink.calls messages
    refine ⟨(messages.foldl Output.print fresh).sink, calls, ?_, whole⟩
    have heard : messages.foldl Output.print (fresh.recording sink.calls).placed
        = ((messages.foldl Output.print fresh).recording (sink.calls ++ calls)).placed := by
      rw [← recorded]
      exact List.foldl_hom Output.placed print_placed
    refine (Channel.foldl_act_print _ messages).trans (congrArg Channel.free (heard.trans ?_))
    rw [Output.placed, Output.recording, stored, count]
    exact congrArg (Output.mk _ · _) (Nat.zero_add _)
  · obtain ⟨_, count, stored⟩ := o
    subst registered
    let heard : Output σ := { sink, count, stored }
    obtain ⟨made, recorded, _, _, handed, _⟩ := heard.print_calls calls m
    refine ⟨(heard.print m).sink, made, ?_, handed.imp fun _ _ piece => ⟨piece.bounded, piece.offered⟩⟩
    have printed := (print_placed (heard.recording calls) m).trans (congrArg Output.placed recorded)
    exact congrArg Output.sink printed

/-- A message comes before any sink, and the second sink prints at its first three calls, takes three bytes at each and
claims more than it is given. -/
theorem delivers_messages_of_second :
    let first : Recorded MeteredSink := { sink := { chunk := some 1 } }
    let second : Recorded MeteredSink :=
      { sink := { nested := [.literal "a", .literal "b", .literal "c"], chunk := some 3, extra := 9 } }
    let before : List (OutputAction (Recorded MeteredSink)) :=
      [.print (.literal "lost"), .register first, .print (.located "usb.rs" 7 ["on"])]
    let later : List (OutputAction (Recorded MeteredSink)) :=
      [.register second, .print (.literal "off"), .print (.located "usb.rs" 9 [])]
    ∃ after calls, (before ++ later).foldl (Channel.act Output.print) (.free { sink := none })
        = .free
            { sink := some ⟨after, calls⟩
              count := 2
              stored := utf8 ("TOCK_DEBUG(1): usb.rs:7: on\r\n" ++ "off\r\nTOCK_DEBUG(2): usb.rs:9: \r\n") } ∧
        calls.flatMap SinkCall.kept = utf8 "off\r\nTOCK_DEBUG(2): usb.rs:9: \r\n" := by
  intro first second before later
  obtain ⟨o, ran, whole, heard, _⟩ := (delivers_messages print_eq_deliver_print).2 before
  obtain ⟨after, calls, last, kept⟩ := heard second [.literal "off", .located "usb.rs" 9 []]
  have stored : o.stored = utf8 "TOCK_DEBUG(1): usb.rs:7: on\r\n" := by
    refine (whole fun sink member => ?_).trans (by decide +kernel)
    obtain rfl : sink = first := by simpa [before] using member
    exact MeteredSink.alwaysClaims rfl rfl (by simp [first])
  have said : transcript 1 [.literal "off", .located "usb.rs" 9 []] = "off\r\nTOCK_DEBUG(2): usb.rs:9: \r\n" := by
    decide +kernel
  have all := kept (MeteredSink.alwaysClaims rfl rfl (by simp [second]))
  rw [said] at all
  rw [stored, all, ← utf8_append] at last
  exact ⟨after, calls, by rw [List.foldl_append, ran]; exact last, all⟩

end Output

end

end UsbDevice
