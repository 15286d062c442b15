import DqliteWire.Queue

/-! What a reader of the buffer gets, over whole runs: the frames of the stream, however the bytes
arrive. Runs of the buffer are runs of the byte queue, so the invariants speak of the queue. -/

namespace DqliteWire

open WireLib

theorem ReadBuffer.simulates {b : ReadBuffer} (bounded : b.Bounded) (ops : List BufferOp) :
    replies (history ReadBuffer.step b ops) = replies (history ByteQueue.step b.queue ops) ∧
      (final ReadBuffer.step b ops).Bounded ∧
      (final ReadBuffer.step b ops).queue = final ByteQueue.step b.queue ops := by
  refine run_simulation ReadBuffer.step ByteQueue.step
    (fun b q => b.Bounded ∧ b.queue = q) ?_ ops ⟨bounded, rfl⟩
  rintro b q op ⟨bounded, rfl⟩
  exact step_matches bounded op

theorem buffer_simulates_queue (cap : Nat) (ops : List BufferOp) :
    replies (history ReadBuffer.step (ReadBuffer.fresh cap) ops) =
        replies (history ByteQueue.step (ByteQueue.fresh cap) ops) ∧
      (final ReadBuffer.step (ReadBuffer.fresh cap) ops).Bounded ∧
      (final ReadBuffer.step (ReadBuffer.fresh cap) ops).queue =
        final ByteQueue.step (ByteQueue.fresh cap) ops :=
  ReadBuffer.simulates (b := ReadBuffer.fresh cap) (Nat.le_refl 0) ops

def fedBytes (ops : List BufferOp) : Bytes :=
  (ops.map fun op => match op with
    | .feed data => data
    | _ => []).flatten

def feedRaises : BufferOp × BufferReply → Bool
  | (.feed _, .error _) => true
  | _ => false

section Replies

variable (past : List (BufferOp × BufferReply))

/-- The chunks whose feed did not raise. -/
def acceptedBytes : Bytes :=
  (past.map fun e => match e with
    | (.feed data, .ok _) => data
    | _ => []).flatten

def returnedMessages : List Bytes :=
  past.filterMap fun e => match e with
    | (.readMessage, .ok (.bytes message)) => message
    | _ => none

/-- The messages taken off the buffer: those returned, and a `none` for each one skipped. -/
def consumedMessages : List (Option Bytes) :=
  past.filterMap fun e => match e with
    | (.readMessage, .ok (.bytes (some message))) => some (some message)
    | (.skipMessage, .ok (.bool true)) => some none
    | _ => none

def NoFeedRaises : Prop := ∀ e ∈ past, feedRaises e = false

instance : Decidable (NoFeedRaises past) := inferInstanceAs (Decidable (∀ e ∈ past, _))

end Replies

theorem acceptedBytes_append (first second : List (BufferOp × BufferReply)) :
    acceptedBytes (first ++ second) = acceptedBytes first ++ acceptedBytes second := by
  simp [acceptedBytes]

theorem returnedMessages_append (first second : List (BufferOp × BufferReply)) :
    returnedMessages (first ++ second) = returnedMessages first ++ returnedMessages second :=
  List.filterMap_append

theorem consumedMessages_append (first second : List (BufferOp × BufferReply)) :
    consumedMessages (first ++ second) = consumedMessages first ++ consumedMessages second :=
  List.filterMap_append

theorem acceptedBytes_eq_fed (past : List (BufferOp × BufferReply)) (accepted : NoFeedRaises past) :
    acceptedBytes past = fedBytes (past.map Prod.fst) := by
  induction past with
  | nil => rfl
  | cons e past ih =>
      have later : NoFeedRaises past := fun e member => accepted e (by simp [member])
      have rest := ih later
      unfold acceptedBytes fedBytes at rest ⊢
      simp only [List.map_cons, List.flatten_cons, rest]
      congr 1
      rcases e with ⟨op, reply⟩
      cases op with
      | feed data =>
          cases reply with
          | ok value => rfl
          | error error => exact absurd (accepted _ List.mem_cons_self) (by simp [feedRaises])
      | _ => rfl

namespace ByteQueue

structure Live (cap : Nat) (q : ByteQueue) : Prop where
  cap_eq : q.cap = cap
  healthy : q.poisoned = none
  idle : q.skipping = 0
  undeferred : q.deferred = none

theorem Live.feed_cases {cap : Nat} {q : ByteQueue} (live : q.Live cap) (data : Bytes) :
    (q.feed data = (.ok (), { q with unread := q.unread ++ data }) ∧
        q.unread.length + data.length ≤ cap) ∨
      ∃ error, q.overflow data = some error ∧ cap < q.unread.length + data.length ∧
        q.feed data = (.error error, q.reject error) := by
  obtain ⟨cap_eq, healthy, idle, undeferred⟩ := live
  unfold feed
  rw [healthy]
  cases overflows : q.overflow data with
  | some error =>
      refine Or.inr ⟨error, rfl, ?_, rfl⟩
      unfold overflow at overflows
      split at overflows
      · omega
      · split at overflows
        · omega
        · cases overflows
  | none =>
      refine Or.inl ⟨?_, ?_⟩
      · simp [absorb, idle, healthy, undeferred]
      · unfold overflow at overflows
        split at overflows
        · cases overflows
        · split at overflows
          · cases overflows
          · omega

theorem Live.with_unread {cap : Nat} {q : ByteQueue} (live : q.Live cap) (s : Bytes) :
    { q with unread := s }.Live cap :=
  ⟨live.cap_eq, live.healthy, live.idle, live.undeferred⟩

theorem Live.readMessage_eq {cap : Nat} {q : ByteQueue} (live : q.Live cap) :
    q.readMessage = match wire.head cap q.unread with
      | .incomplete => (.ok none, q)
      | .oversized => (.error q.oversizedError, q)
      | .frame message rest => (.ok (some message), { q with unread := rest }) := by
  unfold readMessage
  split
  · rename_i poisoned
    rw [live.healthy] at poisoned
    cases poisoned
  · rewrite [head, live.cap_eq]
    rfl

theorem live_fresh (cap : Nat) : (fresh cap).Live cap := ⟨rfl, rfl, rfl, rfl⟩

/-- What the reads of a run so far took off a stream of frames, while no feed has raised. -/
structure TakesFrames (cap : Nat) (past : List (BufferOp × BufferReply))
    (q : ByteQueue) : Prop where
  live : q.Live cap
  taken : ∀ f ∈ returnedMessages past, wire.IsFrame cap f
  joined : (returnedMessages past).flatten ++ q.unread = acceptedBytes past
  returns : ∀ e ∈ past, ∃ value, e.2 = .ok value

theorem TakesFrames.feed {cap : Nat} {past : List (BufferOp × BufferReply)}
    {q : ByteQueue} (held : TakesFrames cap past q) (data : Bytes)
    (accepted : NoFeedRaises (past ++ [(.feed data, (q.step (.feed data)).1)])) :
    TakesFrames cap (past ++ [(.feed data, (q.step (.feed data)).1)])
      (q.step (.feed data)).2 := by
  rcases held.live.feed_cases data with ⟨fed, _⟩ | ⟨error, _, _, fed⟩
  · simp only [step, fed, Except.map]
    refine ⟨held.live.with_unread _, ?_, ?_, ?_⟩
    · simpa [returnedMessages] using held.taken
    · have joined := held.joined
      rw [acceptedBytes_append, returnedMessages_append, ← joined]
      simp [acceptedBytes, returnedMessages]
    · intro e member
      rcases List.mem_append.mp member with earlier | now
      · exact held.returns e earlier
      · rw [List.mem_singleton.mp now]
        exact ⟨_, rfl⟩
  · exfalso
    have quiet := accepted _ (List.mem_append_right _ (List.mem_singleton_self _))
    simp [step, fed, Except.map, feedRaises] at quiet

theorem TakesFrames.read {cap : Nat} {frames : List Bytes} {past : List (BufferOp × BufferReply)}
    {q : ByteQueue} (held : TakesFrames cap past q)
    (legal : ∀ f ∈ frames, wire.IsFrame cap f) (before : acceptedBytes past <+: frames.flatten) :
    TakesFrames cap (past ++ [(.readMessage, (q.step .readMessage).1)])
      (q.step .readMessage).2 := by
  have joined := held.joined
  obtain ⟨later, rfl, inside⟩ :=
    wire.taken_split cap held.taken legal q.unread (by rw [joined]; exact before)
  have returns (reply : BufferReply) (ok : ∃ value, reply = .ok value) :
      ∀ e ∈ past ++ [(BufferOp.readMessage, reply)], ∃ value, e.2 = .ok value := by
    intro e member
    rcases List.mem_append.mp member with earlier | now
    · exact held.returns e earlier
    · rw [List.mem_singleton.mp now]
      exact ok
  simp only [step, held.live.readMessage_eq]
  cases found : wire.head cap q.unread with
  | incomplete =>
      refine ⟨held.live, ?_, ?_, returns _ ⟨_, rfl⟩⟩
      · simpa [returnedMessages, Except.map] using held.taken
      · rw [acceptedBytes_append, returnedMessages_append, ← joined]
        simp [acceptedBytes, returnedMessages, Except.map]
  | oversized =>
      have others : ∀ f ∈ later, wire.IsFrame cap f := fun f member => legal f (by simp [member])
      exact absurd found (wire.head_ne_oversized cap others inside)
  | frame message rest =>
      obtain ⟨whole, shape⟩ := wire.head_frame cap found
      refine ⟨held.live.with_unread rest, ?_, ?_, returns _ ⟨_, rfl⟩⟩
      · intro f member
        rw [returnedMessages_append, List.mem_append] at member
        rcases member with earlier | now
        · exact held.taken f earlier
        · simp only [returnedMessages, Except.map, List.filterMap_cons, List.filterMap_nil,
            List.mem_singleton] at now
          rwa [now]
      · rw [acceptedBytes_append, returnedMessages_append, ← joined, whole]
        simp [acceptedBytes, returnedMessages, Except.map]

theorem read_all {cap : Nat} (later : List Bytes) (legal : ∀ f ∈ later, wire.IsFrame cap f)
    (count : Nat) {q : ByteQueue} (live : q.Live cap) (holds : q.unread = later.flatten) :
    replies (history step q (List.replicate count .readMessage)) =
      (List.range count).map fun i => (.readMessage, .ok (.bytes later[i]?)) := by
  induction count generalizing q later with
  | zero => rfl
  | succ count ih =>
      rw [List.range_succ_eq_map, List.replicate_succ, history_cons, replies, List.map_cons,
        ← replies, List.map_cons, List.map_map]
      cases later with
      | nil =>
          have empty : wire.head cap q.unread = .incomplete := by
            rw [holds]
            exact wire.head_nil cap
          have rest := ih [] (by simp) live holds
          simp only [event, step, live.readMessage_eq, empty, rest, Except.map]
          simp [Function.comp_def]
      | cons f later =>
          have found : wire.head cap q.unread = .frame f later.flatten := by
            rw [holds]
            exact wire.head_append_frame cap (legal f (by simp)) _
          have rest := ih later (fun g member => legal g (by simp [member]))
            (live.with_unread later.flatten) rfl
          simp only [event, step, live.readMessage_eq, found, rest, Except.map]
          simp

theorem read_rest {cap : Nat} (later : List Bytes) (legal : ∀ f ∈ later, wire.IsFrame cap f)
    (count : Nat) {q : ByteQueue} (live : q.Live cap) (holds : q.unread = later.flatten) :
    returnedMessages (replies (history step q (List.replicate count .readMessage))) =
      later.take count := by
  rw [read_all later legal count live holds, returnedMessages, List.filterMap_map]
  simp only [Function.comp_def]
  induction count with
  | zero => rfl
  | succ count ih =>
      rw [List.range_succ, List.filterMap_append, ih, List.take_add_one]
      cases found : later[count]? <;> simp [found]

theorem takesFrames_run {cap : Nat} {frames : List Bytes}
    (legal : ∀ f ∈ frames, wire.IsFrame cap f) (ops : List BufferOp)
    (calls : ∀ op ∈ ops, op = .readMessage ∨ ∃ data, op = .feed data) :
    NoFeedRaises (replies (history step (fresh cap) ops)) →
      acceptedBytes (replies (history step (fresh cap) ops)) <+: frames.flatten →
      TakesFrames cap (replies (history step (fresh cap) ops)) (final step (fresh cap) ops) := by
  refine run_invariant step
    (fun past q => NoFeedRaises (replies past) →
      acceptedBytes (replies past) <+: frames.flatten → TakesFrames cap (replies past) q)
    _ ?_ ?_ ops calls
  · intro _ _
    exact ⟨live_fresh cap, by simp [returnedMessages, replies], rfl, by simp [replies]⟩
  · intro past q op call ih accepted before
    simp only [replies_concat, event] at accepted before ⊢
    have earlier : NoFeedRaises (replies past) := fun e member =>
      accepted e (List.mem_append_left _ member)
    have sofar : acceptedBytes (replies past) <+: frames.flatten := by
      rw [acceptedBytes_append] at before
      exact (List.prefix_append _ _).trans before
    have held := ih earlier sofar
    rcases call with rfl | ⟨data, rfl⟩
    · exact held.read legal sofar
    · exact held.feed data accepted

end ByteQueue

/-- Chunk boundaries are invisible: reads return the frames of the stream in order, whatever is
not yet returned stays available, and once all is fed further reads return the rest and then
`None`. The replies are those of a queue without cursor and compaction. -/
theorem framing_independent_of_chunking (cap : Nat) (frames : List Bytes)
    (legal : ∀ f ∈ frames, wire.IsFrame cap f) (ops : List BufferOp)
    (calls : ∀ op ∈ ops, op = .readMessage ∨ ∃ data, op = .feed data)
    (chunks : fedBytes ops <+: frames.flatten)
    (accepted : NoFeedRaises (replies (history ReadBuffer.step (ReadBuffer.fresh cap) ops))) :
    let past := replies (history ReadBuffer.step (ReadBuffer.fresh cap) ops)
    let buffer := final ReadBuffer.step (ReadBuffer.fresh cap) ops
    past = replies (history ByteQueue.step (ByteQueue.fresh cap) ops) ∧
      (∀ e ∈ past, ∃ value, e.2 = .ok value) ∧
      returnedMessages past <+: frames ∧
      buffer.available + (returnedMessages past).flatten.length = (fedBytes ops).length ∧
      (fedBytes ops = frames.flatten → ∀ count,
        (history ReadBuffer.step buffer (List.replicate count .readMessage)).map Event.reply =
          (List.range count).map fun i =>
            .ok (.bytes (frames.drop (returnedMessages past).length)[i]?)) := by
  intro past buffer
  obtain ⟨same, bounded, queue⟩ := buffer_simulates_queue cap ops
  have fed : acceptedBytes past = fedBytes ops := by
    rw [acceptedBytes_eq_fed past accepted]
    simp only [past, replies, List.map_map]
    exact congrArg fedBytes (history_ops _ _ ops)
  have held : ByteQueue.TakesFrames cap past buffer.queue := by
    have run := ByteQueue.takesFrames_run legal ops calls
    rw [← same, ← queue] at run
    exact run accepted (by rw [fed]; exact chunks)
  have joined := held.joined
  rw [fed] at joined
  obtain ⟨later, split, inside⟩ :=
    wire.taken_split cap held.taken legal buffer.queue.unread (by rw [joined]; exact chunks)
  have drop : frames.drop (returnedMessages past).length = later := by simp [split]
  refine ⟨same, held.returns, ⟨later, split.symm⟩, ?_, ?_⟩
  · rw [ReadBuffer.available_eq, ← joined, List.length_append, ReadBuffer.queue_unread]
    omega
  · intro all count
    have rest : buffer.queue.unread = later.flatten := by
      rw [all, split, List.flatten_append] at joined
      exact List.append_cancel_left joined
    have others : ∀ f ∈ later, wire.IsFrame cap f := fun f member => legal f (by simp [split, member])
    have model := ByteQueue.read_all later others count held.live rest
    obtain ⟨agree, _⟩ := ReadBuffer.simulates bounded (List.replicate count .readMessage)
    have agree := congrArg (List.map Prod.snd) (agree.trans model)
    simp only [replies, List.map_map, Function.comp_def] at agree
    rw [drop]
    exact agree

theorem framing_independent_of_chunking_two_frames :
    let first : Bytes := [0, 0, 0, 0, 8, 0, 0, 0]
    let second : Bytes := [1, 0, 0, 0, 4, 0, 0, 0, 7, 0, 0, 0, 0, 0, 0, 0]
    let ops : List BufferOp := [.feed (first ++ second.take 3), .readMessage, .readMessage, .feed [],
      .feed (second.drop 3), .readMessage]
    (∀ f ∈ [first, second], wire.IsFrame 16 f) ∧
      returnedMessages (replies (history ReadBuffer.step (ReadBuffer.fresh 16) ops)) <+:
        [first, second] := by
  have legal : ∀ f ∈ [([0, 0, 0, 0, 8, 0, 0, 0] : Bytes),
      [1, 0, 0, 0, 4, 0, 0, 0, 7, 0, 0, 0, 0, 0, 0, 0]], wire.IsFrame 16 f := by
    simp only [List.mem_cons, List.not_mem_nil, or_false, forall_eq_or_imp, forall_eq]
    exact ⟨⟨by decide, by decide⟩, ⟨by decide, by decide⟩⟩
  exact ⟨legal, (framing_independent_of_chunking 16 _ legal _ (by simp) (by decide)
    (by decide)).2.2.1⟩

namespace ReadBuffer

theorem readMessage_live {cap : Nat} {b : ReadBuffer} (bounded : b.Bounded)
    (live : b.queue.Live cap) :
    ∃ after, after.Bounded ∧
      match wire.head cap b.unread with
      | .incomplete => b.readMessage = (.ok none, after) ∧ after.queue = b.queue
      | .oversized => b.readMessage = (.error b.queue.oversizedError, after) ∧ after.queue = b.queue
      | .frame message rest => b.readMessage = (.ok (some message), after) ∧
          after.queue = { b.queue with unread := rest } := by
  obtain ⟨reply, kept, next⟩ := readMessage_matches bounded
  rw [live.readMessage_eq, queue_unread] at reply next
  refine ⟨b.readMessage.2, kept, ?_⟩
  cases found : wire.head cap b.unread with
  | incomplete | oversized | frame message rest =>
      rw [found] at reply next
      exact ⟨Prod.ext reply rfl, next⟩

/-- A caller's loop: `read_message` until it returns `None`. -/
def drain : Nat → ReadBuffer → Except Exn (List Bytes) × ReadBuffer
  | 0, b => (.error .outOfFuel, b)
  | turns + 1, b =>
    match b.readMessage with
    | (.error e, b) => (.error e, b)
    | (.ok none, b) => (.ok [], b)
    | (.ok (some message), b) =>
      match drain turns b with
      | (.ok messages, b) => (.ok (message :: messages), b)
      | (.error e, b) => (.error e, b)

/-- Each chunk is fed and the buffer drained before the next; every message read takes at least
a byte. The replies are those of the feed and of the loop. -/
def feedAndDrain (b : ReadBuffer) : List Bytes →
    List (Except Exn Unit × Except Exn (List Bytes)) × ReadBuffer
  | [] => ([], b)
  | chunk :: chunks =>
    let fed := b.feed chunk
    let drained := fed.2.drain (fed.2.available + 1)
    let rest := feedAndDrain drained.2 chunks
    ((fed.1, drained.1) :: rest.1, rest.2)

theorem drain_frames {cap : Nat} (turns : Nat) {b : ReadBuffer} (bounded : b.Bounded)
    (live : b.queue.Live cap) {later : List Bytes} (legal : ∀ f ∈ later, wire.IsFrame cap f)
    (inside : b.unread <+: later.flatten) (enough : b.unread.length < turns) :
    ∃ last, b.drain turns = (.ok (wire.cut cap b.unread).1, last) ∧ last.Bounded ∧
      last.queue = { b.queue with unread := (wire.cut cap b.unread).2 } := by
  induction turns generalizing b later with
  | zero => omega
  | succ turns ih =>
      obtain ⟨after, kept, read⟩ := readMessage_live bounded live
      cases found : wire.head cap b.unread with
      | oversized => exact absurd found (wire.head_ne_oversized cap legal inside)
      | incomplete =>
          rw [found] at read
          rw [drain, read.1, wire.cut_of_not_frame cap (by simp [found])]
          exact ⟨after, rfl, kept, read.2⟩
      | frame f rest =>
          rw [found] at read
          obtain ⟨read, next⟩ := read
          obtain ⟨whole, shape⟩ := wire.head_frame cap found
          have one : [f].flatten ++ rest <+: later.flatten := by
            rw [List.flatten_singleton, ← whole]
            exact inside
          obtain ⟨others, split, below⟩ := wire.taken_split cap (by simpa using shape) legal rest one
          have legal' : ∀ g ∈ others, wire.IsFrame cap g := fun g member =>
            legal g (by simp [split, member])
          have left_ : after.unread = rest := congrArg ByteQueue.unread next
          have positive := List.length_pos_iff.mpr shape.ne_nil
          have shorter : rest.length < turns := by
            rw [whole, List.length_append] at enough
            omega
          obtain ⟨last, drained, ends, queue⟩ := ih kept
            (by rw [next]; exact live.with_unread rest) legal' (by rw [left_]; exact below)
            (by rw [left_]; exact shorter)
          rw [left_] at drained queue
          rw [drain, read, wire.cut_of_frame cap found]
          simp only [drained]
          exact ⟨last, rfl, ends, by rw [queue, next]⟩

theorem feedAndDrain_fits {cap : Nat} {frames : List Bytes}
    (legal : ∀ f ∈ frames, wire.IsFrame cap f) (chunks : List Bytes) (before : List Bytes)
    (stream : (before ++ chunks).flatten <+: frames.flatten) {b : ReadBuffer}
    (bounded : b.Bounded) (live : b.queue.Live cap)
    (drained : b.unread = (wire.cut cap before.flatten).2) :
    ((∀ reply ∈ (b.feedAndDrain chunks).1, reply.1 = .ok ()) ∧
        (b.feedAndDrain chunks).2.isPoisoned = false) ↔
      ∀ first chunk last, chunks = first ++ chunk :: last →
        (wire.cut cap (before ++ first).flatten).2.length + chunk.length ≤ cap := by
  induction chunks generalizing before b with
  | nil =>
      have healthy : b.poisoned = none := live.healthy
      simp [feedAndDrain, isPoisoned, healthy]
  | cons chunk chunks ih =>
      obtain ⟨reply, kept, next⟩ := feed_matches bounded chunk
      obtain ⟨joined, taken, _⟩ := wire.cut_spec cap before.flatten
      rcases live.feed_cases chunk with ⟨fed, fits⟩ | ⟨error, _, large, fed⟩
      · rw [fed] at reply next
        have now : (b.feed chunk).2.unread = b.unread ++ chunk := congrArg ByteQueue.unread next
        have stream' : ((before ++ [chunk]) ++ chunks).flatten <+: frames.flatten := by
          simpa using stream
        obtain ⟨later, split, inside⟩ := wire.taken_split cap taken legal (b.unread ++ chunk) (by
          rw [drained, ← List.append_assoc, joined]
          refine (List.prefix_append _ chunks.flatten).trans ?_
          simpa using stream)
        have legal' : ∀ g ∈ later, wire.IsFrame cap g := fun g member =>
          legal g (by simp [split, member])
        obtain ⟨last, done, ends, queue⟩ := drain_frames ((b.feed chunk).2.available + 1) kept
          (by rw [next]; exact live.with_unread _) legal' (by rw [now]; exact inside)
          (by rw [available_eq]; omega)
        have leftover : last.unread = (wire.cut cap (before ++ [chunk]).flatten).2 := by
          have unread := congrArg ByteQueue.unread queue
          simp only [queue_unread] at unread
          have grown := congrArg Prod.snd (wire.cut_append cap before.flatten chunk)
          rw [unread, now, drained, List.flatten_append, List.flatten_singleton, grown]
        have rest := ih (before ++ [chunk]) stream' ends
          (by rw [queue, next]; exact (live.with_unread _).with_unread _) leftover
        simp only [feedAndDrain, done, List.forall_mem_cons, reply, true_and]
        rw [rest]
        constructor
        · intro all first other final_ split
          cases first with
          | nil =>
              simp only [List.nil_append, List.cons.injEq] at split
              rw [List.append_nil, ← drained, ← split.1]
              exact fits
          | cons head first =>
              simp only [List.cons_append, List.cons.injEq] at split
              have bound := all first other final_ split.2
              rw [split.1] at bound
              simpa using bound
        · intro all first other final_ split
          have bound := all (chunk :: first) other final_ (by simp [split])
          simpa using bound
      · rw [fed] at reply
        constructor
        · rintro ⟨accepted, _⟩
          have first := accepted _ (by simp only [feedAndDrain]; exact List.mem_cons_self)
          rw [reply] at first
          cases first
        · intro all
          have bound := all [] chunk chunks rfl
          rw [List.append_nil, ← drained] at bound
          simp only [queue_unread] at large
          omega

end ReadBuffer

/-- A caller that drains after each feed is never refused exactly when every chunk fits the cap
together with the piece of a frame that is waiting for it. -/
theorem drained_reader_refused_iff (cap : Nat) (frames : List Bytes)
    (legal : ∀ f ∈ frames, wire.IsFrame cap f) (chunks : List Bytes)
    (stream : chunks.flatten <+: frames.flatten) :
    ((∀ reply ∈ ((ReadBuffer.fresh cap).feedAndDrain chunks).1, reply.1 = .ok ()) ∧
        ((ReadBuffer.fresh cap).feedAndDrain chunks).2.isPoisoned = false) ↔
      ∀ first chunk last, chunks = first ++ chunk :: last →
        (wire.cut cap first.flatten).2.length + chunk.length ≤ cap := by
  have empty : (ReadBuffer.fresh cap).unread = (wire.cut cap ([] : List Bytes).flatten).2 := by
    rw [wire.cut_flatten cap [] (by simp)]
    rfl
  exact ReadBuffer.feedAndDrain_fits legal chunks [] stream (Nat.le_refl 0)
    (ByteQueue.live_fresh cap) empty

/-- Two frames of 16 bytes under a cap of 16; the second chunk ends the first frame and starts the
other. -/
theorem drained_reader_refused :
    ¬ ∀ (cap : Nat) (frames chunks : List Bytes), 16 ≤ cap → (∀ f ∈ frames, wire.IsFrame cap f) →
      chunks.flatten = frames.flatten → (∀ chunk ∈ chunks, chunk.length ≤ cap) →
      (∀ reply ∈ ((ReadBuffer.fresh cap).feedAndDrain chunks).1, reply.1 = .ok ()) ∧
        ((ReadBuffer.fresh cap).feedAndDrain chunks).2.isPoisoned = false := by
  intro accepted
  let frame : Bytes := [1, 0, 0, 0, 4, 0, 0, 0, 7, 0, 0, 0, 0, 0, 0, 0]
  have legal : ∀ f ∈ [frame, frame], wire.IsFrame 16 f := by
    intro f member
    have same : f = frame := by simpa using member
    rw [same]
    exact ⟨by decide, by decide⟩
  have poisoned := (accepted 16 [frame, frame]
    [frame.take 8, frame.drop 8 ++ frame.take 8, frame.drop 8] (by decide) legal (by decide)
    (by decide)).2
  revert poisoned
  decide

theorem drained_reader_refused_iff_aligned :
    let frame : Bytes := [1, 0, 0, 0, 4, 0, 0, 0, 7, 0, 0, 0, 0, 0, 0, 0]
    (∀ reply ∈ ((ReadBuffer.fresh 16).feedAndDrain [frame, frame]).1, reply.1 = .ok ()) ∧
      ((ReadBuffer.fresh 16).feedAndDrain [frame, frame]).2.isPoisoned = false := by
  intro frame
  have shape : wire.IsFrame 16 frame := ⟨by decide, by decide⟩
  have legal (count : Nat) : ∀ f ∈ List.replicate count frame, wire.IsFrame 16 f := by
    intro f member
    rw [List.eq_of_mem_replicate member]
    exact shape
  have whole (count : Nat) : (wire.cut 16 (List.replicate count frame).flatten).2 = [] := by
    rw [wire.cut_flatten 16 _ (legal count)]
  refine (drained_reader_refused_iff 16 (List.replicate 2 frame) (legal 2) [frame, frame]
    (by decide)).mpr ?_
  intro first chunk last split
  have pieces : first ++ chunk :: last = List.replicate 2 frame := split.symm
  obtain ⟨_, start, rest⟩ := List.append_eq_replicate_iff.mp pieces
  have same : chunk = frame := List.eq_of_mem_replicate (rest ▸ List.mem_cons_self)
  rw [start, whole, same]
  decide

end DqliteWire
