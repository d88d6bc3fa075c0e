import UsbDevice.Proofs.PacketConservation

namespace UsbDevice

/-- The part, unless it reaches beyond the slice. -/
def Slice.part? (s : Slice) (start length : Nat) : Option Slice :=
  if start + length ≤ s.length then some (s.part start length) else none

namespace Transfer

/-- How many bytes have still to be handed out, unless there have been more than there are. -/
def left? (t : Transfer) : Option Nat := if t.queuedLen ≤ t.totalLen then some (t.totalLen - t.queuedLen) else none

/-- As `next`, but with no result where a count would fall below zero, where a packet would reach beyond the buffer, or
where there is no buffer to take it from. -/
def next? (t : Transfer) : Option Advance :=
  if t.state = .idle ∨ t.maxSize = 0 then some { transfer := t, step := .idle }
  else if t.Exhausted then some { transfer := t.abort, step := .complete t.queuedLen }
  else do
    let left ← t.left?
    let size := min t.maxSize left
    let buffer ← t.buffer
    let chunk ← buffer.part? t.queuedLen size
    return {
      transfer :=
        { t with
          queuedLen := t.queuedLen + size
          shortPacket := t.shortPacket || size < t.maxSize
          zlpSent := t.zlpSent || t.totalLen = 0 }
      step := .packet chunk }

/-- The counts and the flags of a slot agree with each other and with the buffer that it holds. -/
structure Consistent (t : Transfer) : Prop where
  within : t.queuedLen ≤ t.totalLen
  held : t.buffer.isSome ↔ t.state = .armed
  whole : ∀ buffer, t.buffer = some buffer → buffer.length = t.totalLen
  short : t.shortPacket → t.queuedLen = t.totalLen
  empty : t.zlpSent ↔ t.shortPacket ∧ t.totalLen = 0

variable {t : Transfer}

theorem consistent_new (size : Nat) : Consistent { maxSize := size } where
  within := Nat.le_refl 0
  held := by simp
  whole _ held := by cases held
  short _ := rfl
  empty := by simp

theorem consistent_start (t : Transfer) (buffer : Slice) : (t.start buffer).Consistent where
  within := Nat.zero_le _
  held := by simp [start]
  whole _ held := by rw [← Option.some.inj held]; rfl
  short short := by cases short
  empty := by simp [start]

/-- To drop the buffer leaves the counts as they are, which still agree. -/
theorem Consistent.abort (consistent : t.Consistent) : t.abort.Consistent where
  within := consistent.within
  held := by simp [Transfer.abort]
  whole _ held := by cases held
  short := consistent.short
  empty := consistent.empty

theorem Consistent.setMaxSize (consistent : t.Consistent) (size : Nat) : (t.setMaxSize size).Consistent :=
  { consistent with }

/-- As long as something is left to do, no packet has been short. -/
theorem Consistent.not_short (consistent : t.Consistent) (more : ¬ t.Exhausted) :
    t.shortPacket = false ∧ t.zlpSent = false := by
  obtain ⟨full, unsent⟩ := not_or.mp more
  refine ⟨Bool.eq_false_iff.mpr fun short => ?_, Bool.eq_false_iff.mpr unsent⟩
  have all := consistent.short short
  have none : t.totalLen = 0 := by
    by_contra some
    exact full ⟨some, all⟩
  exact unsent (consistent.empty.mpr ⟨short, none⟩)

theorem Consistent.next (consistent : t.Consistent) : t.next.transfer.Consistent := by
  unfold Transfer.next
  split
  · exact consistent
  · next sized =>
    split
    · exact consistent.abort
    · next more =>
      have within := consistent.within
      obtain ⟨full, unsent⟩ := consistent.not_short more
      have positive := Nat.pos_of_ne_zero (not_or.mp sized).2
      -- A packet below the size is the last one, since it is cut by what is left.
      have last : t.nextSize < t.maxSize ↔ t.totalLen - t.queuedLen < t.maxSize := by
        unfold nextSize
        omega
      exact
        { within := by simp only [nextSize]; omega
          held := consistent.held
          whole := consistent.whole
          short := by
            simp only [full, Bool.false_or, decide_eq_true_eq]
            unfold nextSize
            omega
          empty := by
            simp only [full, unsent, Bool.false_or, decide_eq_true_eq, last]
            omega }

/-- A consistent slot never leaves the range of what it counts or cuts. -/
theorem Consistent.next?_eq (consistent : t.Consistent) : t.next? = some t.next := by
  unfold Transfer.next? Transfer.next
  by_cases stopped : t.state = .idle ∨ t.maxSize = 0
  · rw [if_pos stopped, if_pos stopped]
  · rw [if_neg stopped, if_neg stopped]
    by_cases through : t.Exhausted
    · rw [if_pos through, if_pos through]
    · have armed : t.state = .armed := by
        cases state : t.state with
        | idle => exact absurd (Or.inl state) stopped
        | armed => rfl
      obtain ⟨buffer, held⟩ := Option.isSome_iff_exists.mp (consistent.held.mpr armed)
      have within := consistent.within
      have inside : t.queuedLen + t.nextSize ≤ buffer.length := by
        rw [consistent.whole buffer held, nextSize]
        omega
      have left : t.left? = some (t.totalLen - t.queuedLen) := if_pos within
      have chunk : buffer.part? t.queuedLen t.nextSize = some (buffer.part t.queuedLen t.nextSize) := if_pos inside
      rw [if_neg through, if_neg through]
      simp only [left, held, Option.bind_eq_bind, Option.bind_some]
      rw [← nextSize, chunk]
      simp only [nextChunk, held]
      rfl

theorem queuedLen_le_next (t : Transfer) : t.queuedLen ≤ t.next.transfer.queuedLen := by
  unfold Transfer.next
  split
  · exact Nat.le_refl _
  · split
    · exact Nat.le_refl _
    · exact Nat.le_add_right _ _

end Transfer

namespace LentTransfer

/-- The slot is consistent, and its buffer is there. -/
structure Sound (l : LentTransfer) : Prop where
  consistent : l.transfer.Consistent
  fits : ∀ buffer, l.transfer.buffer = some buffer → buffer.Fits l.buffers

variable {l : LentTransfer}

theorem sound_new (size : Nat) (buffers : Buffers) : Sound { transfer := { maxSize := size }, buffers } where
  consistent := Transfer.consistent_new size
  fits _ held := by cases held

theorem Sound.act (sound : l.Sound) (a : TransferAction) : (l.act a).Sound := by
  cases a with
  | start region =>
    refine ⟨Transfer.consistent_start _ _, fun buffer held => ?_⟩
    obtain rfl := Option.some.inj held
    exact Buffers.slice_fits l.buffers (some region)
  | abort => exact ⟨sound.consistent.abort, fun _ held => by cases held⟩
  | setMaxSize size => exact ⟨sound.consistent.setMaxSize size, sound.fits⟩
  | next =>
    refine ⟨sound.consistent.next, fun buffer held => sound.fits buffer ?_⟩
    simp only [LentTransfer.act, Transfer.next] at held
    split at held
    · exact held
    · split at held
      · cases held
      · exact held
  | write region data =>
    refine ⟨sound.consistent, fun buffer held => ?_⟩
    unfold Slice.Fits
    rw [LentTransfer.act, Slice.length_getD_write]
    exact sound.fits buffer held

theorem Sound.acts (sound : l.Sound) (as : List TransferAction) : (l.acts as).Sound := by
  induction as generalizing l with
  | nil => exact sound
  | cons a as ih => exact ih (sound.act a)

/-- Until the next transfer starts, what has been handed out stays so. -/
theorem queuedLen_le_acts (l : LentTransfer) {as : List TransferAction} (same : ∀ region, .start region ∉ as) :
    l.transfer.queuedLen ≤ (l.acts as).transfer.queuedLen := by
  induction as generalizing l with
  | nil => exact Nat.le_refl _
  | cons a as ih =>
    have here : l.transfer.queuedLen ≤ (l.act a).transfer.queuedLen := by
      cases a with
      | start region => exact absurd List.mem_cons_self (same region)
      | next => exact l.transfer.queuedLen_le_next
      | _ => exact Nat.le_refl _
    exact Nat.le_trans here (ih (l.act a) fun region later => same region (List.mem_cons_of_mem a later))

/-- Whatever is done to a slot, its counts stay within the buffer that it holds while it is armed. So the next packet
can always be cut, and what has been handed out is taken back by nothing but the start of another transfer. -/
theorem counts_within_buffer (size : Nat) (buffers : Buffers) (as later : List TransferAction)
    (same : ∀ region, .start region ∉ later) :
    let l := ({ transfer := { maxSize := size }, buffers } : LentTransfer).acts as
    l.Sound ∧ l.transfer.next? = some l.transfer.next ∧
      l.transfer.queuedLen ≤ (l.acts later).transfer.queuedLen := by
  intro l
  have sound : l.Sound := (sound_new size buffers).acts as
  exact ⟨sound, sound.consistent.next?_eq, queuedLen_le_acts l same⟩

/-- A transfer is given up and another one started, which finds a packet size only later. -/
theorem counts_within_buffer_of_restarted :
    let as : List TransferAction :=
      [.start { buffer := 0 }, .next, .abort, .next, .setMaxSize 0, .start { buffer := 0, start := 1 }, .next,
        .setMaxSize 3, .next]
    let later : List TransferAction := [.setMaxSize 8, .next, .abort]
    let l := ({ transfer := { maxSize := 2 }, buffers := [[1, 2, 3, 4, 5]] } : LentTransfer).acts as
    (∀ region, .start region ∉ later) ∧ l.Sound ∧ l.transfer.next? = some l.transfer.next ∧
      l.transfer.queuedLen = 3 ∧ l.transfer.queuedLen ≤ (l.acts later).transfer.queuedLen := by
  intro as later l
  have same : ∀ region, .start region ∉ later := by simp [later]
  obtain ⟨sound, cut, kept⟩ := counts_within_buffer 2 [[1, 2, 3, 4, 5]] as later same
  exact ⟨same, sound, cut, by decide, kept⟩

end LentTransfer

end UsbDevice
