import UsbDevice.Session.Run

namespace UsbDevice

/-- What is recorded of a run: the steps with the events inside them, and the events with the client's steps inside
them. -/
inductive Record
  | step (answer : Answer) (events : List Record) (closing : Closing)
  | event (client : Nat) (notice : Notice) (closing : Closing) (steps : List Record)

/-- A record whose end is known and whose start is not, with the records inside it. -/
structure OpenRecord where
  /-- The end of a step, or nothing for an event, which says everything at its start. -/
  ending : Option (Answer × Closing)
  inside : List Record

namespace Record

/-- Puts `r` in front of the records inside the innermost open one. -/
def nest (r : Record) : List OpenRecord → List OpenRecord
  | [] => []
  | o :: stack => { o with inside := r :: o.inside } :: stack

/-- Reads one mark. The marks come from the last to the first. -/
def ofMark (mark : Mark) (stack : List OpenRecord) : List OpenRecord :=
  match mark, stack with
  | .answer answer closing, stack => ⟨some (answer, closing), []⟩ :: stack
  | .endNotice, stack => ⟨none, []⟩ :: stack
  | .call _, ⟨some (answer, closing), inside⟩ :: stack => (step answer inside closing).nest stack
  | .notice client notice closing, ⟨none, inside⟩ :: stack => (event client notice closing inside).nest stack
  | _, stack => stack

/-- The records of the marks of a run. -/
def ofMarks (marks : List Mark) : List Record := (marks.foldr ofMark [⟨none, []⟩]).flatMap OpenRecord.inside

end Record

/-- What is recorded of a turn that leaves nothing to do. -/
def Turn.records {σ : Type} (turn : Turn σ) : List Record := Record.ofMarks turn.marks

end UsbDevice
