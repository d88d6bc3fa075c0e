import UsbDevice.Transfer

namespace UsbDevice

/-! A slice and the bytes it stands for. -/

def Slice.Fits (s : Slice) (buffers : Buffers) : Prop := s.length ≤ (buffers.getD s.buffer []).length - s.start

theorem Slice.fits_empty (buffers : Buffers) : Slice.empty.Fits buffers := Nat.zero_le _

theorem Buffers.slice_fits (buffers : Buffers) (region : Option Region) : (buffers.slice region).Fits buffers := by
  cases region with
  | none => exact Slice.fits_empty buffers
  | some region => exact Nat.min_le_right _ _

theorem Slice.length_read {s : Slice} {buffers : Buffers} (fits : s.Fits buffers) :
    (s.read buffers).length = s.length := by
  unfold Fits at fits
  simp only [read, List.length_take, List.length_drop]
  omega

theorem Slice.read_part {s : Slice} {start length : Nat} (inside : start + length ≤ s.length) (buffers : Buffers) :
    (s.part start length).read buffers = ((s.read buffers).drop start).take length := by
  simp only [read, part, List.drop_take, List.take_take, List.drop_drop]
  rw [Nat.min_eq_left (by omega)]

/-- A write does not make a buffer longer or shorter. -/
theorem Slice.length_getD_write (slice : Slice) (buffers : Buffers) (data : List Byte) (i : Nat) :
    ((slice.write buffers data).getD i []).length = (buffers.getD i []).length := by
  simp only [write, List.getD_eq_getElem?_getD, List.getElem?_modify]
  by_cases this : slice.buffer = i
  · subst this
    cases buffers[slice.buffer]? with
    | none => simp
    | some buffer => simp; omega
  · simp [this]

/-- The packets that `length` bytes take. Without any byte there is still one, the empty packet. -/
def packetCount (size length : Nat) : Nat := max 1 ((length + size - 1) / size)

/-- Another packet follows after the first `sent` exactly if bytes are left, or none has been sent at all. -/
theorem lt_packetCount_iff {size length sent : Nat} (positive : 0 < size) :
    sent < packetCount size length ↔ sent = 0 ∨ size * sent < length := by
  have quotient : sent < (length + size - 1) / size ↔ size * sent < length := by
    rw [Nat.lt_iff_add_one_le, Nat.le_div_iff_mul_le positive, Nat.add_mul, Nat.one_mul, Nat.mul_comm sent size]
    omega
  unfold packetCount
  omega

namespace Transfer

/-- A transfer of which `sent` packets have gone out and which has not ended. -/
def underway (size : Nat) (buffer : Slice) (sent : Nat) : Transfer where
  maxSize := size
  buffer := some buffer
  totalLen := buffer.length
  queuedLen := min (size * sent) buffer.length
  shortPacket := buffer.length < size * sent
  zlpSent := buffer.length = 0 ∧ 0 < sent
  state := .armed

/-- The transfer of `buffer` after so many interrupts of its endpoint: one for each packet, and one more to end it. -/
def afterInterrupts (size : Nat) (buffer : Slice) (count : Nat) : Transfer :=
  if count ≤ packetCount size buffer.length then underway size buffer count
  else (underway size buffer (packetCount size buffer.length)).abort

variable {size count : Nat} {buffer : Slice}

theorem afterInterrupts_of_le (within : count ≤ packetCount size buffer.length) :
    afterInterrupts size buffer count = underway size buffer count := if_pos within

theorem afterInterrupts_of_lt (ended : packetCount size buffer.length < count) :
    afterInterrupts size buffer count = (underway size buffer (packetCount size buffer.length)).abort :=
  if_neg (Nat.not_le.mpr ended)

theorem start_eq_afterInterrupts (t : Transfer) (buffer : Slice) :
    t.start buffer = afterInterrupts t.maxSize buffer 0 := by
  simp [afterInterrupts, start, underway]

theorem next_idle {t : Transfer} (idle : t.state = .idle) : t.next = ⟨t, .idle⟩ := by
  simp only [next, idle, true_or, if_true]

theorem next_underway (positive : 0 < size) :
    (underway size buffer count).next =
      if count < packetCount size buffer.length then
        ⟨underway size buffer (count + 1),
          .packet (buffer.part (size * count) (min size (buffer.length - size * count)))⟩
      else ⟨(underway size buffer count).abort, .complete buffer.length⟩ := by
  have next : count < packetCount size buffer.length ↔ count = 0 ∨ size * count < buffer.length :=
    lt_packetCount_iff positive
  have product : size * (count + 1) = size * count + size := Nat.mul_succ size count
  have running : ¬ ((underway size buffer count).state = .idle ∨ (underway size buffer count).maxSize = 0) := by
    simp [underway]
    omega
  unfold Transfer.next
  rw [if_neg running]
  by_cases more : count < packetCount size buffer.length
  · have left := next.mp more
    have first : count = 0 → size * count = 0 := fun zero => by rw [zero, Nat.mul_zero]
    have fresh : ¬ (underway size buffer count).Exhausted := by
      simp [Exhausted, underway]
      omega
    have handed : min (size * count) buffer.length = size * count := by omega
    rw [if_neg fresh, if_pos more]
    congr 1
    · simp only [underway, nextSize, Transfer.mk.injEq, handed, product, true_and, and_true]
      refine ⟨by omega, ?_, ?_⟩
      · rw [Bool.eq_iff_iff]
        simp
        omega
      · rw [Bool.eq_iff_iff]
        simp
        omega
    · simp only [underway, nextChunk, nextSize, handed]
  · have exhausted := mt next.mpr more
    have finished : (underway size buffer count).Exhausted := by
      simp [Exhausted, underway]
      omega
    rw [if_pos finished, if_neg more]
    congr 2
    simp only [underway]
    omega

/-- One interrupt after the other sends the packets in their order, then ends the transfer, then does nothing. -/
theorem next_afterInterrupts (positive : 0 < size) :
    (afterInterrupts size buffer count).next =
      { transfer := afterInterrupts size buffer (count + 1)
        step :=
          if count < packetCount size buffer.length then
            .packet (buffer.part (size * count) (min size (buffer.length - size * count)))
          else if count = packetCount size buffer.length then .complete buffer.length
          else .idle } := by
  rcases Nat.lt_trichotomy count (packetCount size buffer.length) with more | last | ended
  · rw [afterInterrupts_of_le (Nat.le_of_lt more), afterInterrupts_of_le more, next_underway positive, if_pos more,
      if_pos more]
  · have through : ¬ count < packetCount size buffer.length := Nat.not_lt_of_le (Nat.le_of_eq last.symm)
    rw [afterInterrupts_of_le (Nat.le_of_eq last), afterInterrupts_of_lt (by omega), next_underway positive,
      if_neg through, if_neg through, if_pos last, last]
  · have idle : (afterInterrupts size buffer count).state = .idle := by
      rw [afterInterrupts_of_lt ended]
      rfl
    rw [next_idle idle, if_neg (Nat.lt_asymm ended), if_neg (Nat.ne_of_gt ended), afterInterrupts_of_lt ended,
      afterInterrupts_of_lt (Nat.lt_succ_of_lt ended)]

theorem length_of_complete {bytes : Nat} (positive : 0 < size)
    (complete : (afterInterrupts size buffer count).next.step = .complete bytes) : bytes = buffer.length := by
  rw [next_afterInterrupts positive] at complete
  simp only at complete
  split at complete
  · cases complete
  · split at complete
    · exact (TransferStep.complete.inj complete).symm
    · cases complete

end Transfer

end UsbDevice
