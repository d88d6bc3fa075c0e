import UsbDevice.Proofs.TransferPackets

namespace UsbDevice

/-! The packets of one size that a number of bytes takes. -/

/-- As many full packets as there are, and one more for what is left, or for nothing at all. -/
theorem packetCount_eq {size : Nat} (positive : 0 < size) (length : Nat) :
    packetCount size length = length / size + if length = 0 ∨ ¬ size ∣ length then 1 else 0 := by
  have part := Nat.mod_lt length positive
  have rounded : (length + size - 1) / size = length / size + (length % size + size - 1) / size := by
    have whole := Nat.div_add_mod length size
    rw [← Nat.mul_add_div positive]
    congr 1
    omega
  unfold packetCount
  by_cases even : length % size = 0
  · have nothing : (length % size + size - 1) / size = 0 := Nat.div_eq_of_lt (by omega)
    have divides : size ∣ length := Nat.dvd_of_mod_eq_zero even
    rw [rounded, nothing]
    by_cases none : length = 0
    · rw [if_pos (Or.inl none), none, Nat.zero_div]
      rfl
    · have some : 0 < length / size := Nat.div_pos (Nat.le_of_dvd (Nat.pos_of_ne_zero none) divides) positive
      rw [if_neg (by simp only [none, divides, not_true, or_self, not_false_eq_true])]
      exact Nat.max_eq_right some
  · have one : (length % size + size - 1) / size = 1 := Nat.div_eq_of_lt_le (by omega) (by omega)
    rw [rounded, one, if_pos (Or.inr (mt Nat.mod_eq_zero_of_dvd even))]
    exact Nat.max_eq_right (Nat.le_add_left 1 _)

theorem le_mul_packetCount {size length : Nat} (positive : 0 < size) : length ≤ size * packetCount size length :=
  Nat.le_of_not_lt fun more => Nat.lt_irrefl _ ((lt_packetCount_iff positive).mpr (Or.inr more))

/-- The packets reach beyond the bytes unless all of them are full. -/
theorem lt_mul_packetCount_iff {size length : Nat} (positive : 0 < size) :
    length < size * packetCount size length ↔ length = 0 ∨ ¬ size ∣ length := by
  have part := Nat.mod_lt length positive
  have whole := Nat.div_add_mod length size
  rw [packetCount_eq positive]
  split
  · next short =>
    rw [Nat.mul_add_one]
    exact iff_of_true (by omega) short
  · next full =>
    rw [Nat.add_zero]
    exact iff_of_false (by omega) full

/-- The bytes in packets of one size, of which the last takes what is left. -/
def packetsOf (size : Nat) (bytes : List Byte) : List (List Byte) :=
  (List.range (packetCount size bytes.length)).map fun k => (bytes.drop (size * k)).take size

theorem length_packetsOf (size : Nat) (bytes : List Byte) :
    (packetsOf size bytes).length = packetCount size bytes.length := by
  simp only [packetsOf, List.length_map, List.length_range]

theorem map_length_packetsOf {size : Nat} (positive : 0 < size) (bytes : List Byte) :
    (packetsOf size bytes).map List.length
      = List.replicate (bytes.length / size) size
        ++ if bytes.length = 0 ∨ ¬ size ∣ bytes.length then [bytes.length % size] else [] := by
  have whole := Nat.div_add_mod bytes.length size
  have part := Nat.mod_lt bytes.length positive
  have lengths : List.length ∘ (fun k => (bytes.drop (size * k)).take size)
      = fun k => min size (bytes.length - size * k) := by
    funext k
    simp only [Function.comp_apply, List.length_take, List.length_drop]
  have full : (List.range (bytes.length / size)).map (fun k => min size (bytes.length - size * k))
      = List.replicate (bytes.length / size) size := by
    rw [List.map_eq_replicate_iff.mpr, List.length_range]
    intro k member
    have inside : size * (k + 1) ≤ size * (bytes.length / size) :=
      Nat.mul_le_mul_left size (List.mem_range.mp member)
    rw [Nat.mul_add_one] at inside
    omega
  rw [packetsOf, List.map_map, lengths, packetCount_eq positive]
  split
  · rw [List.range_succ, List.map_append, full, List.map_singleton]
    congr 2
    omega
  · rw [Nat.add_zero, full, List.append_nil]

/-- No byte is left out, and none is sent twice. -/
theorem flatten_packetsOf {size : Nat} (positive : 0 < size) (bytes : List Byte) :
    (packetsOf size bytes).flatten = bytes := by
  have first (count : Nat) : ((List.range count).map fun k => (bytes.drop (size * k)).take size).flatten
      = bytes.take (size * count) := by
    induction count with
    | zero => simp
    | succ count ih =>
      rw [List.range_succ, List.map_append, List.flatten_append, ih, Nat.mul_succ, List.take_add, List.map_singleton,
        List.flatten_singleton]
  rw [packetsOf, first, List.take_of_length_le (le_mul_packetCount positive)]

namespace LentTransfer

variable {l : LentTransfer} {size sent : Nat} {buffer : Slice}

/-- What the interrupts of the endpoint make visible, one after the other. -/
theorem run_next (positive : 0 < size) (underway : l.transfer = .afterInterrupts size buffer sent) (count : Nat) :
    l.run (List.replicate count .next) = (List.range' sent count).map fun k =>
      ({ l with transfer := .afterInterrupts size buffer k }.answer .next,
        (Transfer.afterInterrupts size buffer (k + 1)).progress) := by
  induction count generalizing l sent with
  | zero => rfl
  | succ count ih =>
    have moved : (l.act .next).transfer = .afterInterrupts size buffer (sent + 1) := by
      simp only [act, underway, Transfer.next_afterInterrupts positive]
    have here : l = { l with transfer := .afterInterrupts size buffer sent } := by rw [← underway]
    rw [List.replicate_succ, List.range'_succ, List.map_cons, run, ih moved, moved, ← here]
    rfl

theorem answer_next (positive : 0 < size) (fits : buffer.Fits l.buffers)
    (underway : l.transfer = .afterInterrupts size buffer sent) :
    l.answer .next =
      if sent < packetCount size buffer.length then .packet (((buffer.read l.buffers).drop (size * sent)).take size)
      else if sent = packetCount size buffer.length then .complete buffer.length
      else .idle := by
  simp only [answer, underway, Transfer.next_afterInterrupts positive]
  by_cases more : sent < packetCount size buffer.length
  · have left := (lt_packetCount_iff positive).mp more
    have inside : size * sent + min size (buffer.length - size * sent) ≤ buffer.length := by
      rcases left with rfl | left <;> omega
    have cut : ((buffer.read l.buffers).drop (size * sent)).take size
        = ((buffer.read l.buffers).drop (size * sent)).take (min size (buffer.length - size * sent)) := by
      rw [List.take_eq_take_min, List.length_drop, Slice.length_read fits]
    simp only [more, if_true, Slice.read_part inside, cut]
  · by_cases last : sent = packetCount size buffer.length
    · subst last
      simp only [Nat.lt_irrefl, if_true, if_false]
    · simp only [more, last, if_false]

/-- The transfer at its end, which is reached with the call after the last packet. -/
theorem progress_ended (positive : 0 < size) (buffer : Slice) :
    (Transfer.afterInterrupts size buffer (packetCount size buffer.length + 1)).progress =
      { state := .idle, totalLen := buffer.length, queuedLen := buffer.length
        shortPacket := buffer.length = 0 ∨ ¬ size ∣ buffer.length, zlpSent := buffer.length = 0 } := by
  have all : buffer.length ≤ size * packetCount size buffer.length := le_mul_packetCount positive
  have some : 0 < packetCount size buffer.length := (lt_packetCount_iff positive).mpr (Or.inl rfl)
  rw [Transfer.afterInterrupts_of_lt (Nat.lt_succ_self _)]
  simp only [Transfer.progress, Transfer.abort, Transfer.underway, Nat.min_eq_right all,
    lt_mul_packetCount_iff positive, some, and_true]

/-- A transfer goes out in full packets, with a short one at its end unless they are all full, and is then complete. -/
theorem splits_packets (l : LentTransfer) (region : Region) (sized : 0 < l.transfer.maxSize) :
    let size := l.transfer.maxSize
    let bytes := (region.slice l.buffers).read l.buffers
    let short := bytes.length = 0 ∨ ¬ size ∣ bytes.length
    ∃ packets : List (List Byte),
      packets.map List.length
          = List.replicate (bytes.length / size) size ++ (if short then [bytes.length % size] else []) ∧
        packets.flatten = bytes ∧
        let driven := (l.act (.start region)).run (List.replicate (packets.length + 1) .next)
        driven.map Prod.fst = packets.map .packet ++ [.complete bytes.length] ∧
          driven.getLast?.map Prod.snd = some
            { state := .idle, totalLen := bytes.length, queuedLen := bytes.length
              shortPacket := short, zlpSent := bytes.length = 0 } := by
  intro size bytes short
  let buffer := region.slice l.buffers
  have fits : buffer.Fits l.buffers := Buffers.slice_fits l.buffers (some region)
  have length : buffer.length = bytes.length := (Slice.length_read fits).symm
  have started : (l.act (.start region)).transfer = .afterInterrupts size buffer 0 :=
    Transfer.start_eq_afterInterrupts l.transfer buffer
  have answers (k : Nat) := answer_next (l := ⟨.afterInterrupts size buffer k, l.buffers⟩) sized fits rfl
  have ended := progress_ended sized buffer
  have calls := run_next sized started ((packetsOf size bytes).length + 1)
  rw [length] at answers ended
  rw [length_packetsOf, ← List.range_eq_range', List.range_succ, List.map_append, List.map_singleton] at calls
  refine ⟨packetsOf size bytes, map_length_packetsOf sized bytes, flatten_packetsOf sized bytes, ?_, ?_⟩
  · rw [length_packetsOf, calls, List.map_append, List.map_map, packetsOf, List.map_map, List.map_singleton]
    congr 1
    · refine List.map_congr_left fun k member => ?_
      exact (answers k).trans (if_pos (List.mem_range.mp member))
    · exact congrArg ([·]) ((answers _).trans ((if_neg (Nat.lt_irrefl _)).trans (if_pos rfl)))
  · rw [length_packetsOf, calls, List.getLast?_concat, Option.map_some]
    exact congrArg some ended

/-- Ten bytes in packets of four, from a slot that has been used before. -/
theorem splits_packets_of_ten_bytes :
    let l : LentTransfer :=
      { transfer := { maxSize := 4, queuedLen := 3, zlpSent := true }, buffers := [[1, 2, 3, 4, 5, 6, 7, 8, 9, 10]] }
    0 < l.transfer.maxSize ∧ ∃ packets : List (List Byte), packets.map List.length = [4, 4, 2] ∧
      packets.flatten = [1, 2, 3, 4, 5, 6, 7, 8, 9, 10] ∧
      ((l.act (.start { buffer := 0 })).run (List.replicate (packets.length + 1) .next)).map Prod.fst
        = packets.map .packet ++ [.complete 10] := by
  intro l
  have sized : 0 < l.transfer.maxSize := by decide
  obtain ⟨packets, lengths, bytes, answers, _⟩ := splits_packets l { buffer := 0 } sized
  exact ⟨sized, packets, lengths.trans (by decide), bytes, answers⟩

end LentTransfer

end UsbDevice
