import Mathlib.Algebra.BigOperators.Group.List.Basic
import UsbDevice.Proofs.TransferPackets

namespace UsbDevice

/-- The action neither starts another transfer nor gives up the one that is underway. -/
def TransferAction.Continues : TransferAction → Prop
  | .next | .setMaxSize _ | .write .. => True
  | .start _ | .abort => False

instance : DecidablePred TransferAction.Continues := fun a => by
  unfold TransferAction.Continues
  split <;> infer_instance

def TransferAnswer.packet? : TransferAnswer → Option (List Byte)
  | .packet bytes => some bytes
  | _ => none

/-- The packets among the answers. -/
def packets (answers : List TransferAnswer) : List (List Byte) := answers.filterMap TransferAnswer.packet?

/-- How many bytes have been handed out. -/
def sentBytes (answers : List TransferAnswer) : Nat := (packets answers).flatten.length

/-- Everything has been handed out, which takes a packet also if there is nothing. -/
def AllSent (length : Nat) (answers : List TransferAnswer) : Prop := packets answers ≠ [] ∧ sentBytes answers = length

instance (length : Nat) (answers : List TransferAnswer) : Decidable (AllSent length answers) :=
  inferInstanceAs (Decidable (_ ∧ _))

/-- What a call has to answer after the answers before it, with the packet size and the bytes of the buffer as they are
now. -/
def due (size : Nat) (bytes : List Byte) (earlier : List TransferAnswer) : TransferAnswer :=
  if size = 0 ∨ .complete bytes.length ∈ earlier then .idle
  else if AllSent bytes.length earlier then .complete bytes.length
  else .packet ((bytes.drop (sentBytes earlier)).take (min size (bytes.length - sentBytes earlier)))

theorem packets_concat (answers : List TransferAnswer) (a : TransferAnswer) :
    packets (answers ++ [a]) = packets answers ++ a.packet?.toList := by
  rw [packets, List.filterMap_append]
  cases a <;> rfl

theorem sentBytes_concat_packet (answers : List TransferAnswer) (bytes : List Byte) :
    sentBytes (answers ++ [.packet bytes]) = sentBytes answers + bytes.length := by
  simp [sentBytes, packets_concat, TransferAnswer.packet?]

/-- An answer that is no packet hands nothing out. -/
theorem packets_concat_of_none {a : TransferAnswer} (none : a.packet? = none) (answers : List TransferAnswer) :
    packets (answers ++ [a]) = packets answers := by
  rw [packets_concat, none, Option.toList_none, List.append_nil]

theorem sentBytes_concat_of_none {a : TransferAnswer} (none : a.packet? = none) (answers : List TransferAnswer) :
    sentBytes (answers ++ [a]) = sentBytes answers := by
  rw [sentBytes, packets_concat_of_none none, sentBytes]

/-- The answers are those of one transfer of `length` bytes: its packets, and its end at most once after them. -/
structure Orderly (length : Nat) (answers : List TransferAnswer) : Prop where
  within : sentBytes answers ≤ length
  single : length = 0 → (packets answers).length ≤ 1
  filled : length ≠ 0 → ∀ p ∈ packets answers, p ≠ []
  once : answers.count (.complete length) ≤ 1
  whole : ∀ bytes, .complete bytes ∈ answers → bytes = length ∧ AllSent length answers

theorem Orderly.nil (length : Nat) : Orderly length [] where
  within := Nat.zero_le _
  single _ := Nat.zero_le _
  filled _ _ member := absurd member (List.not_mem_nil)
  once := Nat.zero_le _
  whole _ member := absurd member (List.not_mem_nil)

/-- A transfer takes no more packets than bytes, but for the one packet of an empty transfer. -/
theorem Orderly.length_packets_le {length : Nat} {answers : List TransferAnswer} (orderly : Orderly length answers) :
    (packets answers).length ≤ max length 1 := by
  by_cases empty : length = 0
  · exact Nat.le_trans (orderly.single empty) (Nat.le_max_right _ _)
  · have filled : ∀ n ∈ (packets answers).map List.length, 1 ≤ n := by
      intro n member
      obtain ⟨p, isPacket, rfl⟩ := List.mem_map.mp member
      exact List.length_pos_iff.mpr (orderly.filled empty p isPacket)
    have counted := List.length_le_sum_of_one_le _ filled
    rw [List.length_map, ← List.length_flatten] at counted
    exact Nat.le_trans (Nat.le_trans counted orderly.within) (Nat.le_max_left _ _)

namespace Orderly

variable {length : Nat} {answers : List TransferAnswer}

/-- Answers that are neither packets nor the end do not count. -/
theorem concat_silent (orderly : Orderly length answers) {a : TransferAnswer} (silent : a = .idle ∨ a = .done) :
    Orderly length (answers ++ [a]) := by
  have none : a.packet? = none := by rcases silent with rfl | rfl <;> rfl
  have other (bytes : Nat) : .complete bytes ≠ a := by rcases silent with rfl | rfl <;> simp
  have mem (bytes : Nat) : .complete bytes ∈ answers ++ [a] ↔ .complete bytes ∈ answers := by
    simp only [List.mem_append, List.mem_singleton, other, or_false]
  constructor
  · rw [sentBytes_concat_of_none none]
    exact orderly.within
  · rw [packets_concat_of_none none]
    exact orderly.single
  · rw [packets_concat_of_none none]
    exact orderly.filled
  · rw [List.count_append, List.count_singleton, if_neg (by simpa using (other length).symm)]
    exact orderly.once
  · intro bytes member
    rw [AllSent, packets_concat_of_none none, sentBytes_concat_of_none none]
    exact orderly.whole bytes ((mem bytes).mp member)

theorem concat_complete (orderly : Orderly length answers) (running : .complete length ∉ answers)
    (all : AllSent length answers) : Orderly length (answers ++ [.complete length]) where
  within := by
    rw [sentBytes_concat_of_none rfl]
    exact orderly.within
  single := by
    rw [packets_concat_of_none rfl]
    exact orderly.single
  filled := by
    rw [packets_concat_of_none rfl]
    exact orderly.filled
  once := Nat.le_of_eq (by rw [List.count_append, List.count_eq_zero.mpr running, List.count_singleton_self])
  whole := by
    intro bytes member
    rw [AllSent, packets_concat_of_none rfl, sentBytes_concat_of_none rfl]
    rcases List.mem_append.mp member with earlier | here
    · exact orderly.whole bytes earlier
    · exact ⟨TransferAnswer.complete.inj (List.mem_singleton.mp here), all⟩

/-- A packet of what is left is in order, if it is not empty while something is left. -/
theorem concat_packet (orderly : Orderly length answers) (running : .complete length ∉ answers)
    (more : ¬ AllSent length answers) {bytes : List Byte} (within : sentBytes answers + bytes.length ≤ length)
    (filled : sentBytes answers < length → bytes ≠ []) : Orderly length (answers ++ [.packet bytes]) where
  within := by rwa [sentBytes_concat_packet]
  single := by
    intro empty
    have first : packets answers = [] := by
      by_contra some
      exact more ⟨some, by have := orderly.within; omega⟩
    rw [packets_concat, first]
    exact Nat.le_refl 1
  filled := by
    intro some p member
    rw [packets_concat] at member
    rcases List.mem_append.mp member with earlier | here
    · exact orderly.filled some p earlier
    · obtain rfl := List.mem_singleton.mp here
      refine filled (Nat.lt_of_le_of_ne orderly.within fun all => more ⟨fun none => ?_, all⟩)
      rw [sentBytes, none] at all
      exact some all.symm
  once := by
    rw [List.count_append, List.count_eq_zero.mpr running]
    simp
  whole := by
    intro bytes member
    rcases List.mem_append.mp member with earlier | here
    · obtain ⟨rfl, _⟩ := orderly.whole bytes earlier
      exact absurd earlier running
    · cases List.mem_singleton.mp here

/-- What is due keeps the answers in order. -/
theorem concat_due {bytes : List Byte} (orderly : Orderly bytes.length answers) (size : Nat) :
    Orderly bytes.length (answers ++ [due size bytes answers]) := by
  unfold due
  split
  · exact orderly.concat_silent (Or.inl rfl)
  · next continues =>
    obtain ⟨sized, running⟩ := not_or.mp continues
    split
    · next all => exact orderly.concat_complete running all
    · next more =>
      have within := orderly.within
      have cut : ((bytes.drop (sentBytes answers)).take (min size (bytes.length - sentBytes answers))).length
          = min size (bytes.length - sentBytes answers) := by
        rw [List.length_take, List.length_drop]
        omega
      refine orderly.concat_packet running more (by omega) fun left => ?_
      rw [← List.length_pos_iff, cut]
      omega

end Orderly

/-- Packets that follow each other make up the beginning of the bytes. -/
theorem flatten_concat_due {bytes : List Byte} {answers : List TransferAnswer}
    (tiled : (packets answers).flatten = bytes.take (sentBytes answers)) (size : Nat) :
    (packets (answers ++ [due size bytes answers])).flatten
      = bytes.take (sentBytes (answers ++ [due size bytes answers])) := by
  unfold due
  split
  · rwa [packets_concat_of_none rfl, sentBytes_concat_of_none rfl]
  · split
    · rwa [packets_concat_of_none rfl, sentBytes_concat_of_none rfl]
    · rw [packets_concat, sentBytes_concat_packet, List.flatten_append, tiled, List.take_add]
      simp [TransferAnswer.packet?]

namespace LentTransfer

/-- The slot and the buffers after the actions. -/
def acts (l : LentTransfer) (as : List TransferAction) : LentTransfer := as.foldl act l

def answers (l : LentTransfer) (as : List TransferAction) : List TransferAnswer := (l.run as).map Prod.fst

/-- How many of the actions call for a packet while there is a packet size. -/
def sizedCalls (l : LentTransfer) : List TransferAction → Nat
  | [] => 0
  | a :: as => (if a = .next ∧ l.transfer.maxSize ≠ 0 then 1 else 0) + (l.act a).sizedCalls as

/-- The slot stands where these answers have brought a transfer of `buffer`. So many of the calls have found a packet
size. -/
structure Accounts (l : LentTransfer) (buffer : Slice) (answers : List TransferAnswer) (calls : Nat) : Prop where
  fits : buffer.Fits l.buffers
  orderly : Orderly buffer.length answers
  totalLen : l.transfer.totalLen = buffer.length
  queuedLen : l.transfer.queuedLen = sentBytes answers
  zlpSent : l.transfer.zlpSent = true ↔ buffer.length = 0 ∧ packets answers ≠ []
  armed : .complete buffer.length ∉ answers → l.transfer.state = .armed ∧ l.transfer.buffer = some buffer
  idle : .complete buffer.length ∈ answers → l.transfer.state = .idle
  counted : .complete buffer.length ∉ answers → calls = (packets answers).length

theorem accounts_start (l : LentTransfer) (region : Region) :
    (l.act (.start region)).Accounts (region.slice l.buffers) [] 0 where
  fits := Buffers.slice_fits l.buffers (some region)
  orderly := .nil _
  totalLen := rfl
  queuedLen := rfl
  zlpSent := by simp [act, Transfer.start, packets]
  armed _ := ⟨rfl, rfl⟩
  idle ended := absurd ended List.not_mem_nil
  counted _ := rfl

variable {l : LentTransfer} {buffer : Slice} {answers : List TransferAnswer} {calls : Nat}

theorem Accounts.exhausted_iff (accounts : l.Accounts buffer answers calls) :
    l.transfer.Exhausted ↔ AllSent buffer.length answers := by
  have within := accounts.orderly.within
  rw [Transfer.Exhausted, accounts.totalLen, accounts.queuedLen, accounts.zlpSent, AllSent]
  by_cases none : packets answers = []
  · have nothing : sentBytes answers = 0 := by simp [sentBytes, none]
    simp [none, nothing]
    omega
  · simp [none]
    omega

/-- What a call does: nothing, the end, or the next packet. -/
theorem Accounts.next_cases (accounts : l.Accounts buffer answers calls) :
    (l.transfer.maxSize = 0 ∨ .complete buffer.length ∈ answers) ∧ l.transfer.next = ⟨l.transfer, .idle⟩ ∨
      (l.transfer.maxSize ≠ 0 ∧ .complete buffer.length ∉ answers) ∧
        (AllSent buffer.length answers ∧ l.transfer.next = ⟨l.transfer.abort, .complete buffer.length⟩ ∨
          ¬ AllSent buffer.length answers ∧ ∃ size short,
            size = min l.transfer.maxSize (buffer.length - sentBytes answers) ∧
            l.transfer.next =
              { transfer :=
                  { l.transfer with
                    queuedLen := sentBytes answers + size
                    shortPacket := short
                    zlpSent := l.transfer.zlpSent || buffer.length = 0 }
                step := .packet (buffer.part (sentBytes answers) size) }) := by
  have stops : l.transfer.state = .idle ∨ l.transfer.maxSize = 0 ↔
      l.transfer.maxSize = 0 ∨ .complete buffer.length ∈ answers := by
    by_cases ended : .complete buffer.length ∈ answers
    · simp only [accounts.idle ended, ended, or_true, true_or]
    · simp only [(accounts.armed ended).1, ended, or_false, reduceCtorEq, false_or]
  unfold Transfer.next
  by_cases stopped : l.transfer.state = .idle ∨ l.transfer.maxSize = 0
  · exact Or.inl ⟨stops.mp stopped, if_pos stopped⟩
  · have running := not_or.mp (mt stops.mpr stopped)
    refine Or.inr ⟨running, ?_⟩
    rw [if_neg stopped]
    by_cases all : AllSent buffer.length answers
    · rw [if_pos (accounts.exhausted_iff.mpr all), accounts.queuedLen, all.2]
      exact Or.inl ⟨all, rfl⟩
    · rw [if_neg (mt accounts.exhausted_iff.mp all)]
      refine Or.inr ⟨all, l.transfer.nextSize, l.transfer.shortPacket || l.transfer.nextSize < l.transfer.maxSize,
        ?_, ?_⟩
      · rw [Transfer.nextSize, accounts.totalLen, accounts.queuedLen]
      · simp only [accounts.queuedLen, accounts.totalLen, Transfer.nextChunk, (accounts.armed running.2).2]

theorem Accounts.answer_next (accounts : l.Accounts buffer answers calls) :
    l.answer .next = due l.transfer.maxSize (buffer.read l.buffers) answers := by
  have length := Slice.length_read accounts.fits
  unfold due
  rw [length]
  rcases accounts.next_cases with ⟨stopped, next⟩ | ⟨running, ⟨all, next⟩ | ⟨more, size, short, rfl, next⟩⟩
  · rw [if_pos stopped]
    simp only [answer, next]
  · rw [if_neg (not_or.mpr running), if_pos all]
    simp only [answer, next]
  · have within := accounts.orderly.within
    rw [if_neg (not_or.mpr running), if_neg more, ← Slice.read_part (by omega)]
    simp only [answer, next]

/-- The packet size and the bytes of the buffers are free to change. -/
theorem Accounts.concat_silent (accounts : l.Accounts buffer answers calls) {a : TransferAnswer}
    (silent : a = .idle ∨ a = .done) (size : Nat) {buffers : Buffers} (fits : buffer.Fits buffers) :
    Accounts ⟨l.transfer.setMaxSize size, buffers⟩ buffer (answers ++ [a]) calls := by
  have none : a.packet? = none := by rcases silent with rfl | rfl <;> rfl
  have mem : .complete buffer.length ∈ answers ++ [a] ↔ .complete buffer.length ∈ answers := by
    rcases silent with rfl | rfl <;> simp
  exact
    { fits
      orderly := accounts.orderly.concat_silent silent
      totalLen := accounts.totalLen
      queuedLen := accounts.queuedLen.trans (sentBytes_concat_of_none none answers).symm
      zlpSent := by rw [packets_concat_of_none none]; exact accounts.zlpSent
      armed := fun running => accounts.armed (mt mem.mpr running)
      idle := fun ended => accounts.idle (mem.mp ended)
      counted := fun running => by rw [packets_concat_of_none none]; exact accounts.counted (mt mem.mpr running) }

/-- A call leaves the slot where its answer brings the transfer. -/
theorem Accounts.next (accounts : l.Accounts buffer answers calls) :
    (l.act .next).Accounts buffer (answers ++ [l.answer .next])
      (calls + if l.transfer.maxSize ≠ 0 then 1 else 0) := by
  have length := Slice.length_read accounts.fits
  have orderly : Orderly buffer.length (answers ++ [l.answer .next]) := by
    rw [accounts.answer_next, ← length]
    exact Orderly.concat_due (length ▸ accounts.orderly) _
  have within := accounts.orderly.within
  rcases accounts.next_cases with ⟨stopped, next⟩ | ⟨⟨sized, running⟩, ⟨all, next⟩ | ⟨more, size, short, rfl, next⟩⟩
  · have idle : l.answer .next = .idle := by simp only [answer, next]
    have same : l.act .next = l := by simp only [act, next]
    have quiet := accounts.concat_silent (Or.inl idle) l.transfer.maxSize accounts.fits
    rw [same]
    refine { quiet with counted := fun running => ?_ }
    have unsized : l.transfer.maxSize = 0 := stopped.resolve_right fun ended => running (List.mem_append_left _ ended)
    rw [if_neg (not_not.mpr unsized), Nat.add_zero]
    exact quiet.counted running
  · have complete : l.answer .next = .complete buffer.length := by simp only [answer, next]
    have aborted : l.act .next = { l with transfer := l.transfer.abort } := by simp only [act, next]
    have ended : .complete buffer.length ∈ answers ++ [.complete buffer.length] :=
      List.mem_append_right _ (List.mem_singleton_self _)
    rw [complete] at orderly ⊢
    rw [aborted]
    exact
      { fits := accounts.fits
        orderly
        totalLen := accounts.totalLen
        queuedLen := accounts.queuedLen.trans (sentBytes_concat_of_none rfl answers).symm
        zlpSent := by rw [packets_concat_of_none rfl]; exact accounts.zlpSent
        armed := fun running => absurd ended running
        idle := fun _ => rfl
        counted := fun running => absurd ended running }
  · let size := min l.transfer.maxSize (buffer.length - sentBytes answers)
    let chunk := (buffer.part (sentBytes answers) size).read l.buffers
    have packet : l.answer .next = .packet chunk := by simp only [answer, next]; rfl
    have chunkLength : chunk.length = size := by
      simp only [chunk]
      rw [Slice.read_part (by omega), List.length_take, List.length_drop, length]
      omega
    have mem : .complete buffer.length ∈ answers ++ [.packet chunk] ↔ .complete buffer.length ∈ answers := by simp
    rw [packet] at orderly ⊢
    exact
      { fits := accounts.fits
        orderly
        totalLen := by simp only [act, next]; exact accounts.totalLen
        queuedLen := by simp only [act, next]; rw [sentBytes_concat_packet, chunkLength]
        zlpSent := by
          have one : packets (answers ++ [.packet chunk]) ≠ [] := by simp [packets_concat, TransferAnswer.packet?]
          simp only [act, next, Bool.or_eq_true, decide_eq_true_eq, accounts.zlpSent]
          tauto
        armed := fun _ => by simp only [act, next]; exact accounts.armed running
        idle := fun ended => absurd (mem.mp ended) running
        counted := fun _ => by
          rw [packets_concat, List.length_append, accounts.counted running, if_pos sized]; rfl }

theorem Accounts.act (accounts : l.Accounts buffer answers calls) {a : TransferAction} (continues : a.Continues) :
    (l.act a).Accounts buffer (answers ++ [l.answer a])
      (calls + if a = .next ∧ l.transfer.maxSize ≠ 0 then 1 else 0) := by
  cases a with
  | next => simpa only [true_and] using accounts.next
  | setMaxSize size =>
    rw [if_neg (by simp)]
    exact accounts.concat_silent (Or.inr rfl) size accounts.fits
  | write region data =>
    rw [if_neg (by simp)]
    refine accounts.concat_silent (Or.inr rfl) l.transfer.maxSize ?_
    unfold Slice.Fits
    rw [Slice.length_getD_write]
    exact accounts.fits
  | start => exact absurd continues not_false
  | abort => exact absurd continues not_false

theorem Accounts.acts (accounts : l.Accounts buffer answers calls) {as : List TransferAction}
    (continues : ∀ a ∈ as, a.Continues) :
    (l.acts as).Accounts buffer (answers ++ l.answers as) (calls + l.sizedCalls as) := by
  induction as generalizing l answers calls with
  | nil =>
    have none : l.answers [] = [] := rfl
    rw [none, List.append_nil]
    exact accounts
  | cons a as ih =>
    have rest := ih (accounts.act (continues a List.mem_cons_self))
      fun b member => continues b (List.mem_cons_of_mem a member)
    rwa [List.append_assoc, Nat.add_assoc] at rest

/-- As long as nobody writes to the buffer, its bytes go out as they are. -/
theorem Accounts.tiled (accounts : l.Accounts buffer answers calls) {as : List TransferAction}
    (unwritten : ∀ a ∈ as, a = .next ∨ ∃ size, a = .setMaxSize size)
    (tiled : (packets answers).flatten = (buffer.read l.buffers).take (sentBytes answers)) :
    (packets (answers ++ l.answers as)).flatten
      = (buffer.read l.buffers).take (sentBytes (answers ++ l.answers as)) := by
  induction as generalizing l answers calls with
  | nil =>
    have none : l.answers [] = [] := rfl
    rwa [none, List.append_nil]
  | cons a as ih =>
    have later := fun b member => unwritten b (List.mem_cons_of_mem a member)
    have more : answers ++ l.answers (a :: as) = (answers ++ [l.answer a]) ++ (l.act a).answers as := by
      rw [List.append_assoc]
      rfl
    rw [more]
    rcases unwritten a List.mem_cons_self with rfl | ⟨size, rfl⟩
    · refine ih accounts.next later ?_
      rw [accounts.answer_next]
      exact flatten_concat_due tiled _
    · refine ih (accounts.act (a := .setMaxSize size) trivial) later ?_
      rwa [packets_concat_of_none rfl, sentBytes_concat_of_none rfl]

/-- Whatever packet sizes are set between the packets of a transfer, and whatever its owner writes to the buffer: each
call hands out the bytes that follow those handed out before, as many as the size allows, and as they are then. The end
comes once, with the first call that finds a size after everything has been handed out. -/
theorem conserves_bytes (l : LentTransfer) (region : Region) (as : List TransferAction)
    (continues : ∀ a ∈ as, a.Continues) :
    let start := l.act (.start region)
    let buffer := region.slice l.buffers
    (∀ before after, as = before ++ .next :: after →
      let here := start.acts before
      let bytes := buffer.read here.buffers
      bytes.length = buffer.length ∧ here.answer .next = due here.transfer.maxSize bytes (start.answers before) ∧
        (here.transfer.maxSize = 0 → here.act .next = here) ∧
        (here.answer .next = .complete buffer.length → start.sizedCalls before ≤ max buffer.length 1)) ∧
      Orderly buffer.length (start.answers as) ∧
      (max buffer.length 1 < start.sizedCalls as → .complete buffer.length ∈ start.answers as) ∧
      ((∀ a ∈ as, a = .next ∨ ∃ size, a = .setMaxSize size) →
        (packets (start.answers as)).flatten = (buffer.read l.buffers).take (sentBytes (start.answers as))) := by
  intro start buffer
  have accounts := accounts_start l region
  have ended := accounts.acts continues
  rw [List.nil_append, Nat.zero_add] at ended
  refine ⟨?_, ended.orderly, fun enough => ?_, fun unwritten => ?_⟩
  · rintro before after rfl here bytes
    have reached := accounts.acts fun a member => continues a (List.mem_append_left _ member)
    rw [List.nil_append, Nat.zero_add] at reached
    refine ⟨Slice.length_read reached.fits, reached.answer_next, fun unsized => ?_, fun completes => ?_⟩
    · have idle : here.transfer.next = ⟨here.transfer, .idle⟩ := by
        simp only [Transfer.next, unsized, or_true, if_true]
      simp only [LentTransfer.act, idle]
    · have running : .complete buffer.length ∉ start.answers before := fun earlier => by
        have answered := reached.answer_next
        rw [due, Slice.length_read reached.fits, if_pos (Or.inr earlier)] at answered
        cases completes.symm.trans answered
      rw [reached.counted running]
      exact reached.orderly.length_packets_le
  · by_contra running
    rw [ended.counted running] at enough
    exact Nat.not_lt_of_le ended.orderly.length_packets_le enough
  · exact accounts.tiled unwritten rfl

/-- Five bytes in packets of two, of one and of what is left, of which the owner changes some on the way. -/
theorem conserves_bytes_of_five :
    let l : LentTransfer := { transfer := { maxSize := 0 }, buffers := [[1, 2, 3, 4, 5]] }
    let start := l.act (.start { buffer := 0 })
    let first : List TransferAction :=
      [.next, .setMaxSize 2, .next, .write { buffer := 0, start := 1 } [8, 9], .setMaxSize 1]
    let rest : List TransferAction := [.setMaxSize 0, .next, .setMaxSize 8, .next, .next, .next, .next]
    (start.acts first).answer .next = .packet [9] ∧
      .complete 5 ∈ start.answers (first ++ .next :: rest) := by
  intro l start first rest
  have continues : ∀ a ∈ first ++ .next :: rest, a.Continues := by decide
  obtain ⟨calls, _, ends, _⟩ := conserves_bytes l { buffer := 0 } (first ++ .next :: rest) continues
  obtain ⟨_, answered, _, _⟩ := calls first rest rfl
  exact ⟨answered.trans (by decide), ends (by decide)⟩

end LentTransfer

end UsbDevice
