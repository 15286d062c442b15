import DqliteWire.Buffer
import DqliteWire.Lib.Framing
import DqliteWire.Lib.Machine

/-! What the read buffer is for: a queue of bytes cut into frames. The queue has neither a cursor
nor a compaction; the buffer simulates it call by call. -/

namespace DqliteWire

open WireLib

def frameSize (s : Bytes) : Nat := headerSize + fromLE (s.take 4) * wordSize

/-- The frame format: an 8-byte header that starts with the number of body words. -/
def wire : Framing UInt8 where
  header := headerSize
  header_pos := by decide
  size := frameSize
  header_le_size := by
    intro s
    simp only [frameSize]
    omega
  size_take := by
    intro s
    simp [frameSize, List.take_take]

structure ByteQueue where
  unread : Bytes
  cap : Nat
  skipping : Nat
  poisoned : Option Exn
  deferred : Option Exn
  deriving DecidableEq, Repr

namespace ByteQueue

def fresh (cap : Nat) : ByteQueue := ⟨[], cap, 0, none, none⟩

def head (q : ByteQueue) : Head UInt8 := wire.head q.cap q.unread

def overflow (q : ByteQueue) (data : Bytes) : Option Exn :=
  if 2 * q.cap < data.length then some (ReadBuffer.chunkTooLarge data.length q.cap)
  else if q.cap < q.unread.length + (data.length - q.skipping) then
    some (ReadBuffer.bufferTooLarge (q.unread.length + (data.length - q.skipping)) q.cap)
  else none

def reject (q : ByteQueue) (error : Exn) : ByteQueue :=
  if 0 < q.skipping then { q with skipping := 0, deferred := none, poisoned := some error }
  else if q.unread ≠ [] then { q with poisoned := some error }
  else q

/-- The chunk, less the bytes still to be discarded, at the end of the queue. -/
def absorb (q : ByteQueue) (data : Bytes) : ByteQueue :=
  let fires := 0 < q.skipping ∧ q.skipping ≤ data.length ∧ q.deferred ≠ none
  { q with
    unread := q.unread ++ data.drop q.skipping
    skipping := q.skipping - data.length
    poisoned := if fires then q.deferred else q.poisoned
    deferred := if fires then none else q.deferred }

def feed (q : ByteQueue) (data : Bytes) : Except Exn Unit × ByteQueue :=
  match q.poisoned with
  | some cause => (.error (ReadBuffer.poisonedError cause), q)
  | none =>
    match q.overflow data with
    | some error => (.error error, q.reject error)
    | none => (.ok (), q.absorb data)

def hasMessage (q : ByteQueue) : Bool :=
  match q.head with
  | .incomplete => false
  | .oversized | .frame _ _ => true

def oversizedError (q : ByteQueue) : Exn := ReadBuffer.tooLarge (wire.size q.unread) q.cap

def peekHeader (q : ByteQueue) : Except Exn (Option (Nat × Nat × Nat)) :=
  match q.poisoned with
  | some cause => .error (ReadBuffer.poisonedError cause)
  | none =>
    if q.unread.length < wire.header then .ok none
    else if q.cap < wire.size q.unread then .error q.oversizedError
    else .ok (some (fromLE (q.unread.take 4), (q.unread.getD 4 0).toNat, (q.unread.getD 5 0).toNat))

def readMessage (q : ByteQueue) : Except Exn (Option Bytes) × ByteQueue :=
  match q.poisoned with
  | some cause => (.error (ReadBuffer.poisonedError cause), q)
  | none =>
    match q.head with
    | .incomplete => (.ok none, q)
    | .oversized => (.error q.oversizedError, q)
    | .frame message rest => (.ok (some message), { q with unread := rest })

def skipMessage (q : ByteQueue) : Except Exn Bool × ByteQueue :=
  match q.poisoned with
  | some cause => (.error (ReadBuffer.poisonedError cause), q)
  | none =>
    match q.head with
    | .incomplete => (.ok false, q)
    | .frame _ rest => (.ok (decide (q.skipping = 0)), { q with unread := rest })
    | .oversized =>
      let error := ReadBuffer.skipCapped q.cap (wire.size q.unread)
      if q.cap ≤ q.unread.length then
        (.ok false, { q with unread := q.unread.drop q.cap, skipping := 0, poisoned := some error })
      else
        (.ok false,
          { q with unread := [], skipping := q.cap - q.unread.length, deferred := some error })

def readBytes (q : ByteQueue) (n : Int) : Except Exn (Option Bytes) × ByteQueue :=
  if n < 0 then (.error (ReadBuffer.negativeCount n), q)
  else
    match q.poisoned with
    | some cause => (.error (ReadBuffer.poisonedError cause), q)
    | none =>
      if q.unread.length < n.toNat then (.ok none, q)
      else (.ok (some (q.unread.take n.toNat)), { q with unread := q.unread.drop n.toNat })

def peekBytes (q : ByteQueue) (n : Int) : Except Exn (Option Bytes) := (q.readBytes n).1

def poison (q : ByteQueue) (error : Exn) : ByteQueue :=
  if q.poisoned = none then { q with poisoned := some error } else q

def step (q : ByteQueue) : BufferOp → BufferReply × ByteQueue
  | .feed data => ((q.feed data).1.map fun _ => .unit, (q.feed data).2)
  | .hasMessage => (.ok (.bool q.hasMessage), q)
  | .peekHeader => (q.peekHeader.map .header, q)
  | .readMessage => (q.readMessage.1.map .bytes, q.readMessage.2)
  | .skipMessage => (q.skipMessage.1.map .bool, q.skipMessage.2)
  | .readBytes n => ((q.readBytes n).1.map .bytes, (q.readBytes n).2)
  | .peekBytes n => ((q.peekBytes n).map .bytes, q)
  | .poison error => (.ok .unit, q.poison error)
  | .reset => (.ok .unit, fresh q.cap)
  | .clear => (.ok .unit, fresh q.cap)

end ByteQueue

namespace ReadBuffer

def Bounded (b : ReadBuffer) : Prop := b.pos ≤ b.data.length

def unread (b : ReadBuffer) : Bytes := b.data.drop b.pos

def queue (b : ReadBuffer) : ByteQueue :=
  ⟨b.unread, b.maxMessageSize, b.skipRemaining, b.poisoned, b.poisonAfterSkip⟩

@[simp] theorem queue_unread (b : ReadBuffer) : b.queue.unread = b.unread := (rfl)
@[simp] theorem queue_cap (b : ReadBuffer) : b.queue.cap = b.maxMessageSize := (rfl)
@[simp] theorem queue_skipping (b : ReadBuffer) : b.queue.skipping = b.skipRemaining := (rfl)
@[simp] theorem queue_poisoned (b : ReadBuffer) : b.queue.poisoned = b.poisoned := (rfl)
@[simp] theorem queue_deferred (b : ReadBuffer) : b.queue.deferred = b.poisonAfterSkip := (rfl)

@[simp] theorem advance_data (b : ReadBuffer) (n : Nat) : (b.advance n).data = b.data := rfl
@[simp] theorem advance_pos (b : ReadBuffer) (n : Nat) : (b.advance n).pos = b.pos + n := rfl
@[simp] theorem advance_cap (b : ReadBuffer) (n : Nat) :
    (b.advance n).maxMessageSize = b.maxMessageSize := rfl
@[simp] theorem advance_skipRemaining (b : ReadBuffer) (n : Nat) :
    (b.advance n).skipRemaining = b.skipRemaining := rfl
@[simp] theorem advance_poisoned (b : ReadBuffer) (n : Nat) :
    (b.advance n).poisoned = b.poisoned := rfl
@[simp] theorem advance_deferred (b : ReadBuffer) (n : Nat) :
    (b.advance n).poisonAfterSkip = b.poisonAfterSkip := rfl

theorem available_eq (b : ReadBuffer) : b.available = b.unread.length := by
  simp [available, unread]

theorem slice_eq (b : ReadBuffer) (n : Nat) : b.slice n = b.unread.take n := rfl

theorem slice_untorn (b : ReadBuffer) : ¬ 0xFFFFFFFF < fromLE (b.slice 4) := by
  have bound := fromLE_lt (b.slice 4)
  have width : (b.slice 4).length ≤ 4 := by simp [slice]
  have power : 256 ^ (b.slice 4).length ≤ 256 ^ 4 := Nat.pow_le_pow_right (by decide) width
  omega

theorem checkTornSize_eq (b : ReadBuffer) :
    b.checkTornSize (fromLE (b.slice 4)) = (.ok (), b) := if_neg b.slice_untorn

theorem queue_maybeCompact (b : ReadBuffer) : b.maybeCompact.queue = b.queue := by
  unfold maybeCompact
  split
  · rfl
  · split
    · rfl
    · simp [queue, unread]

theorem maybeCompact_skipRemaining (b : ReadBuffer) :
    b.maybeCompact.skipRemaining = b.skipRemaining :=
  congrArg ByteQueue.skipping (queue_maybeCompact b)

theorem bounded_maybeCompact {b : ReadBuffer} (bounded : b.Bounded) : b.maybeCompact.Bounded := by
  unfold maybeCompact
  split
  · exact bounded
  · split
    · exact bounded
    · simp [Bounded]

theorem queue_advance (b : ReadBuffer) (n : Nat) :
    (b.advance n).queue = { b.queue with unread := b.unread.drop n } := by
  simp [queue, unread, List.drop_drop]

theorem bounded_advance {b : ReadBuffer} {n : Nat} (bounded : b.Bounded) (within : n ≤ b.unread.length) :
    (b.advance n).Bounded := by
  simp only [Bounded, advance, unread, List.length_drop] at bounded within ⊢
  omega

theorem queue_extend {b : ReadBuffer} (bounded : b.Bounded) (data : Bytes) :
    (b.extend data).queue = { b.queue with unread := b.unread ++ data } := by
  simp only [queue, extend, unread, ByteQueue.mk.injEq, and_true]
  exact List.drop_append_of_le_length bounded

theorem bounded_extend {b : ReadBuffer} (bounded : b.Bounded) (data : Bytes) :
    (b.extend data).Bounded := by
  simp only [Bounded, extend, List.length_append] at bounded ⊢
  omega

theorem queue_poison (b : ReadBuffer) (error : Exn) : (b.poison error).queue = b.queue.poison error := by
  unfold poison ByteQueue.poison
  cases poisoned : b.poisoned <;> simp [queue, poisoned, unread]

theorem bounded_poison {b : ReadBuffer} (bounded : b.Bounded) (error : Exn) :
    (b.poison error).Bounded := by
  unfold poison
  split <;> exact bounded

/-- A call of the buffer and one of the queue return the same and leave matching states. -/
def Matches {α : Type} (result : Except Exn α × ReadBuffer) (model : Except Exn α × ByteQueue) :
    Prop :=
  result.1 = model.1 ∧ result.2.Bounded ∧ result.2.queue = model.2

theorem claimed_size (b : ReadBuffer) :
    headerSize + fromLE (b.slice 4) * wordSize = wire.size b.unread := (rfl)

theorem readMessage_matches {b : ReadBuffer} (bounded : b.Bounded) :
    Matches b.readMessage b.queue.readMessage := by
  cases poisoned : b.poisoned with
  | some cause =>
      simp [Matches, readMessage, checkPoisoned, ByteQueue.readMessage, poisoned, bounded]
  | none =>
      simp only [readMessage, checkPoisoned, poisoned, checkTornSize_eq, claimed_size,
        available_eq, ByteQueue.readMessage, ByteQueue.head, queue_unread, queue_cap,
        queue_poisoned]
      by_cases short : b.unread.length < headerSize
      · rw [if_pos short, wire.head_short _ short]
        exact ⟨rfl, bounded, rfl⟩
      · rw [if_neg short]
        by_cases large : b.maxMessageSize < wire.size b.unread
        · rw [if_pos large, wire.head_large _ (not_lt.mp short) large]
          exact ⟨rfl, bounded, rfl⟩
        · rw [if_neg large]
          by_cases lacking : b.unread.length < wire.size b.unread
          · rw [if_pos lacking, wire.head_lacking _ (not_lt.mp large) lacking]
            exact ⟨rfl, bounded, rfl⟩
          · rw [if_neg lacking, wire.head_complete _ (not_lt.mp large) (not_lt.mp lacking)]
            refine ⟨rfl, bounded_maybeCompact (bounded_advance bounded (not_lt.mp lacking)), ?_⟩
            rw [queue_maybeCompact, queue_advance]
            simp [queue, poisoned]

theorem hasMessage_matches (b : ReadBuffer) : b.hasMessage = b.queue.hasMessage := by
  have untorn : ¬ 0xFFFFFFFF < fromLE (b.slice 4) := by
    intro torn
    have split := b.checkTornSize_eq
    rw [checkTornSize, if_pos torn] at split
    cases split
  simp only [hasMessage, if_neg untorn, claimed_size, available_eq, ByteQueue.hasMessage,
    ByteQueue.head, queue_unread, queue_cap]
  by_cases short : b.unread.length < headerSize
  · rw [if_pos short, wire.head_short _ short]
  · rw [if_neg short]
    by_cases large : b.maxMessageSize < wire.size b.unread
    · rw [if_pos large, wire.head_large _ (not_lt.mp short) large]
    · rw [if_neg large]
      by_cases lacking : b.unread.length < wire.size b.unread
      · rw [wire.head_lacking _ (not_lt.mp large) lacking]
        simpa using lacking
      · rw [wire.head_complete _ (not_lt.mp large) (not_lt.mp lacking)]
        simpa using lacking

theorem peekHeader_matches {b : ReadBuffer} (bounded : b.Bounded) :
    Matches b.peekHeader (b.queue.peekHeader, b.queue) := by
  cases poisoned : b.poisoned with
  | some cause =>
      simp [Matches, peekHeader, checkPoisoned, ByteQueue.peekHeader, poisoned, bounded]
  | none =>
      simp only [peekHeader, checkPoisoned, poisoned, checkTornSize_eq, claimed_size,
        available_eq, ByteQueue.peekHeader, queue_unread, queue_cap, queue_poisoned]
      by_cases short : b.unread.length < headerSize
      · rw [if_pos short, if_pos (show b.unread.length < wire.header from short)]
        exact ⟨rfl, bounded, rfl⟩
      · rw [if_neg short, if_neg (show ¬ b.unread.length < wire.header from short)]
        by_cases large : b.maxMessageSize < wire.size b.unread
        · rw [if_pos large, if_pos large]
          exact ⟨rfl, bounded, rfl⟩
        · have wide : 8 ≤ b.data.length - b.pos := by
            simpa [unread] using short
          have typeByte : b.data[b.pos + 4]? = some (b.unread.getD 4 0) := by
            simp only [unread, List.getD_eq_getElem?_getD, List.getElem?_drop]
            rw [List.getElem?_eq_getElem (by omega)]
            rfl
          have schemaByte : b.data[b.pos + 5]? = some (b.unread.getD 5 0) := by
            simp only [unread, List.getD_eq_getElem?_getD, List.getElem?_drop]
            rw [List.getElem?_eq_getElem (by omega)]
            rfl
          rw [if_neg large, if_neg large, typeByte, schemaByte]
          exact ⟨rfl, bounded, rfl⟩

theorem skipMessage_matches {b : ReadBuffer} (bounded : b.Bounded) :
    Matches b.skipMessage b.queue.skipMessage := by
  cases poisoned : b.poisoned with
  | some cause =>
      simp [Matches, skipMessage, checkPoisoned, ByteQueue.skipMessage, poisoned, bounded]
  | none =>
      simp only [skipMessage, checkPoisoned, poisoned, checkTornSize_eq, claimed_size,
        available_eq, ByteQueue.skipMessage, ByteQueue.head, queue_unread, queue_cap,
        queue_poisoned, queue_skipping]
      by_cases short : b.unread.length < headerSize
      · rw [if_pos short, wire.head_short _ short]
        exact ⟨rfl, bounded, rfl⟩
      · rw [if_neg short]
        by_cases large : b.maxMessageSize < wire.size b.unread
        · have capped : min (wire.size b.unread) b.maxMessageSize = b.maxMessageSize := by omega
          rw [if_neg (by omega), if_neg (by omega), wire.head_large _ (not_lt.mp short) large,
            capped, if_pos large]
          by_cases enough : b.maxMessageSize ≤ b.unread.length
          · have now : min b.maxMessageSize b.unread.length = b.maxMessageSize := by omega
            rw [now, Nat.sub_self, if_pos rfl, if_pos enough]
            refine ⟨rfl, bounded_maybeCompact (bounded_poison ?_ _), ?_⟩
            · exact bounded_advance bounded enough
            · rw [queue_maybeCompact, queue_poison, ByteQueue.poison, if_pos (by exact poisoned)]
              simp [queue, unread, List.drop_drop]
          · have now : min b.maxMessageSize b.unread.length = b.unread.length := by omega
            have some_ : b.maxMessageSize - b.unread.length ≠ 0 := by omega
            rw [now, if_neg some_, if_neg enough]
            refine ⟨?_, bounded_maybeCompact (bounded_advance bounded le_rfl), ?_⟩
            · simp [maybeCompact_skipRemaining, some_]
            · rw [queue_maybeCompact]
              simp only [queue, unread, poisoned, advance_data, advance_pos, advance_cap,
                advance_poisoned, List.length_drop, ByteQueue.mk.injEq, List.drop_eq_nil_iff,
                and_true]
              omega
        · have small : wire.size b.unread ≤ b.maxMessageSize := not_lt.mp large
          by_cases lacking : b.unread.length < wire.size b.unread
          · rw [if_pos ⟨small, lacking⟩, wire.head_lacking _ small lacking]
            exact ⟨rfl, bounded, rfl⟩
          · rw [if_neg (by omega), if_pos small, wire.head_complete _ small (not_lt.mp lacking)]
            refine ⟨?_, bounded_maybeCompact (bounded_advance bounded (not_lt.mp lacking)), ?_⟩
            · rw [maybeCompact_skipRemaining]
              rfl
            · rw [queue_maybeCompact, queue_advance]
              simp [queue, poisoned]

theorem readBytes_matches {b : ReadBuffer} (bounded : b.Bounded) (n : Int) :
    Matches (b.readBytes n) (b.queue.readBytes n) := by
  unfold readBytes ByteQueue.readBytes
  by_cases negative : n < 0
  · rw [if_pos negative, if_pos negative]
    exact ⟨rfl, bounded, rfl⟩
  · rw [if_neg negative, if_neg negative]
    cases poisoned : b.poisoned with
    | some cause => simp [Matches, checkPoisoned, poisoned, bounded]
    | none =>
        simp only [checkPoisoned, poisoned, available_eq, queue_unread, queue_poisoned]
        by_cases lacking : b.unread.length < n.toNat
        · rw [if_pos lacking, if_pos lacking]
          exact ⟨rfl, bounded, rfl⟩
        · rw [if_neg lacking, if_neg lacking]
          refine ⟨rfl, bounded_maybeCompact (bounded_advance bounded (not_lt.mp lacking)), ?_⟩
          rw [queue_maybeCompact, queue_advance]
          simp [queue, poisoned]

theorem peekBytes_matches (b : ReadBuffer) (n : Int) : b.peekBytes n = b.queue.peekBytes n := by
  unfold peekBytes ByteQueue.peekBytes ByteQueue.readBytes
  by_cases negative : n < 0
  · rw [if_pos negative, if_pos negative]
  · rw [if_neg negative, if_neg negative]
    cases poisoned : b.poisoned with
    | some cause => simp [checkPoisoned, poisoned]
    | none =>
        simp only [checkPoisoned, poisoned, available_eq, queue_unread, queue_poisoned, slice_eq]
        split <;> rfl

theorem rejectFeed_queue {b : ReadBuffer} (healthy : b.poisoned = none) (error : Exn) :
    (b.rejectFeed error).queue = b.queue.reject error := by
  unfold rejectFeed ByteQueue.reject
  by_cases skipping : 0 < b.skipRemaining
  · simp [skipping, poison, healthy, queue, unread]
  · by_cases empty : b.unread = []
    · simp [skipping, available_eq, empty]
    · have some_ : 0 < b.unread.length := List.length_pos_iff.mpr empty
      have inFlight : 0 < b.skipRemaining ∨ 0 < b.available := by
        rw [available_eq]
        exact Or.inr some_
      rw [if_pos inFlight, queue_skipping, if_neg skipping, queue_unread, if_pos empty]
      simp [skipping, poison, healthy, queue, unread]

theorem bounded_rejectFeed {b : ReadBuffer} (bounded : b.Bounded) (error : Exn) :
    (b.rejectFeed error).Bounded := by
  unfold rejectFeed
  split
  · apply bounded_poison
    split <;> exact bounded
  · exact bounded

/-- Discarding is all that `absorb` does to the queue while a chunk holds skipped bytes only. -/
theorem countDiscarded_queue {b : ReadBuffer} (skipping : 0 < b.skipRemaining) (data : Bytes) :
    (b.countDiscarded (min data.length b.skipRemaining)).queue =
      { b.queue.absorb data with unread := b.unread } := by
  have left_ : b.skipRemaining - min data.length b.skipRemaining =
      b.skipRemaining - data.length := by omega
  unfold countDiscarded ByteQueue.absorb
  simp only [left_]
  cases deferred : b.poisonAfterSkip with
  | none => simp [queue, unread, deferred]
  | some cause =>
      by_cases finished : b.skipRemaining ≤ data.length
      · have done : b.skipRemaining - data.length = 0 := by omega
        simp [queue, unread, deferred, finished, done, skipping]
      · have more : b.skipRemaining - data.length ≠ 0 := by omega
        simp [queue, unread, deferred, finished, more]

theorem bounded_countDiscarded {b : ReadBuffer} (bounded : b.Bounded) (n : Nat) :
    (b.countDiscarded n).Bounded := by
  unfold countDiscarded
  simp only
  split
  · split <;> exact bounded
  · exact bounded

theorem feed_matches {b : ReadBuffer} (bounded : b.Bounded) (data : Bytes) :
    Matches (b.feed data) (b.queue.feed data) := by
  cases poisoned : b.poisoned with
  | some cause => simp [Matches, feed, checkPoisoned, ByteQueue.feed, poisoned, bounded]
  | none =>
      have counted : (if 0 < b.skipRemaining then data.length - b.skipRemaining else data.length) =
          data.length - b.skipRemaining := by
        split <;> omega
      simp only [feed, checkPoisoned, poisoned, available_eq, counted, ByteQueue.feed,
        ByteQueue.overflow, queue_unread, queue_cap, queue_poisoned, queue_skipping]
      by_cases double : 2 * b.maxMessageSize < data.length
      · rw [if_pos double, if_pos double]
        exact ⟨rfl, bounded_rejectFeed bounded _, rejectFeed_queue poisoned _⟩
      · rw [if_neg double, if_neg double]
        by_cases exceeded : b.maxMessageSize < b.unread.length + (data.length - b.skipRemaining)
        · rw [if_pos exceeded, if_pos exceeded]
          exact ⟨rfl, bounded_rejectFeed bounded _, rejectFeed_queue poisoned _⟩
        · rw [if_neg exceeded, if_neg exceeded]
          by_cases skipping : 0 < b.skipRemaining
          · have trimmed : data.drop (min data.length b.skipRemaining) =
                data.drop b.skipRemaining := by
              rcases le_total data.length b.skipRemaining with all | some_
              · simp [all]
              · rw [min_eq_right some_]
            have counted := countDiscarded_queue skipping data
            have kept := bounded_countDiscarded bounded (min data.length b.skipRemaining)
            rw [if_pos skipping, trimmed]
            by_cases spent : data.drop b.skipRemaining = []
            · rw [if_pos spent]
              refine ⟨rfl, kept, counted.trans ?_⟩
              simp [ByteQueue.absorb, spent, queue, poisoned]
            · rw [if_neg spent]
              have compact := (queue_maybeCompact _).trans counted
              refine ⟨rfl, bounded_extend (bounded_maybeCompact kept) _, ?_⟩
              have same := congrArg ByteQueue.unread compact
              simp only [queue_unread] at same
              rw [queue_extend (bounded_maybeCompact kept), compact, same]
              simp [ByteQueue.absorb, queue, poisoned]
          · have idle : b.skipRemaining = 0 := by omega
            rw [if_neg skipping]
            refine ⟨rfl, bounded_extend (bounded_maybeCompact bounded) data, ?_⟩
            have compact := queue_maybeCompact b
            rw [queue_extend (bounded_maybeCompact bounded), compact]
            have same : b.maybeCompact.unread = b.unread := congrArg ByteQueue.unread compact
            simp [ByteQueue.absorb, idle, same, queue]

theorem step_matches {b : ReadBuffer} (bounded : b.Bounded) (op : BufferOp) :
    Matches (b.step op) (b.queue.step op) := by
  cases op with
  | feed data =>
      obtain ⟨same, kept, next⟩ := feed_matches bounded data
      exact ⟨congrArg (Except.map _) same, kept, next⟩
  | hasMessage => exact ⟨by simp [step, ByteQueue.step, hasMessage_matches], bounded, rfl⟩
  | peekHeader =>
      obtain ⟨same, kept, next⟩ := peekHeader_matches bounded
      exact ⟨congrArg (Except.map _) same, kept, next⟩
  | readMessage =>
      obtain ⟨same, kept, next⟩ := readMessage_matches bounded
      exact ⟨congrArg (Except.map _) same, kept, next⟩
  | skipMessage =>
      obtain ⟨same, kept, next⟩ := skipMessage_matches bounded
      exact ⟨congrArg (Except.map _) same, kept, next⟩
  | readBytes n =>
      obtain ⟨same, kept, next⟩ := readBytes_matches bounded n
      exact ⟨congrArg (Except.map _) same, kept, next⟩
  | peekBytes n => exact ⟨congrArg (Except.map _) (peekBytes_matches b n), bounded, rfl⟩
  | poison error => exact ⟨rfl, bounded_poison bounded error, queue_poison b error⟩
  | reset => exact ⟨rfl, Nat.le_refl 0, rfl⟩
  | clear => exact ⟨rfl, Nat.le_refl 0, rfl⟩

end ReadBuffer

end DqliteWire
