import DqliteWire.Framing

/-! Oversized frames. Discarding one is spread over `skip_message`, later feeds and a deferred
poison; none of it can hand out payload bytes as a frame. -/

namespace DqliteWire

open WireLib

def framingCall : BufferOp → Bool
  | .feed _ | .hasMessage | .peekHeader | .readMessage | .skipMessage => true
  | _ => false

/-- A consumed message shows a frame: it is the frame, or a skip that shows nothing of it. -/
def Shows (message : Option Bytes) (frame : Bytes) : Prop := ∀ m ∈ message, m = frame

namespace ByteQueue

/-- Still dropping the payload of an oversized frame, with the poison that ends it waiting. -/
structure Discarding (cap : Nat) (q : ByteQueue) : Prop where
  cap_eq : q.cap = cap
  healthy : q.poisoned = none
  skips : 0 < q.skipping
  empty : q.unread = []
  waiting : q.deferred ≠ none

theorem Live.skipMessage_eq {cap : Nat} {q : ByteQueue} (live : q.Live cap) :
    q.skipMessage = match wire.head cap q.unread with
      | .incomplete => (.ok false, q)
      | .frame _ rest => (.ok true, { q with unread := rest })
      | .oversized =>
        let error := ReadBuffer.skipCapped cap (wire.size q.unread)
        if cap ≤ q.unread.length then
          (.ok false, { q with unread := q.unread.drop cap, poisoned := some error })
        else (.ok false,
          { q with unread := [], skipping := cap - q.unread.length, deferred := some error }) := by
  unfold skipMessage
  split
  · rename_i poisoned
    rw [live.healthy] at poisoned
    cases poisoned
  · cases found : wire.head cap q.unread <;> simp [head, live.cap_eq, live.idle, found]

theorem poisoned_step {q : ByteQueue} (poisoned : q.poisoned ≠ none) {op : BufferOp}
    (call : framingCall op = true) :
    acceptedBytes [(op, (q.step op).1)] = [] ∧ consumedMessages [(op, (q.step op).1)] = [] ∧
      (q.step op).2 = q := by
  obtain ⟨cause, cause_eq⟩ := Option.ne_none_iff_exists'.mp poisoned
  cases op with
  | feed data => simp [step, feed, cause_eq, acceptedBytes, consumedMessages, Except.map]
  | hasMessage => simp [step, acceptedBytes, consumedMessages]
  | peekHeader => simp [step, acceptedBytes, consumedMessages]
  | readMessage => simp [step, readMessage, cause_eq, acceptedBytes, consumedMessages, Except.map]
  | skipMessage => simp [step, skipMessage, cause_eq, acceptedBytes, consumedMessages, Except.map]
  | readBytes | peekBytes | poison | reset | clear => cases call

theorem Discarding.step_cases {cap : Nat} {q : ByteQueue} (held : q.Discarding cap) {op : BufferOp}
    (call : framingCall op = true) :
    consumedMessages [(op, (q.step op).1)] = [] ∧
      ((q.step op).2.Discarding cap ∨ (q.step op).2.poisoned ≠ none) := by
  have incomplete : q.head = .incomplete := by
    rw [head, held.empty]
    exact wire.head_nil _
  cases op with
  | feed data =>
      refine ⟨by simp [consumedMessages], ?_⟩
      simp only [step, feed, held.healthy]
      cases q.overflow data with
      | some error =>
          right
          simp [reject, held.skips]
      | none =>
          by_cases finished : q.skipping ≤ data.length
          · right
            simp [absorb, held.skips, finished, held.waiting]
          · left
            have fewer : data.length ≤ q.skipping := by omega
            simp only [absorb, finished, false_and, and_false, if_false]
            refine ⟨held.cap_eq, held.healthy, ?_, ?_, held.waiting⟩
            · show 0 < q.skipping - data.length
              omega
            · simp [held.empty, fewer]
  | hasMessage => exact ⟨by simp [consumedMessages], Or.inl held⟩
  | peekHeader => exact ⟨by simp [consumedMessages], Or.inl held⟩
  | readMessage =>
      simp only [step, readMessage, held.healthy, incomplete]
      exact ⟨by simp [consumedMessages, Except.map], Or.inl held⟩
  | skipMessage =>
      simp only [step, skipMessage, held.healthy, incomplete]
      exact ⟨by simp [consumedMessages, Except.map], Or.inl held⟩
  | readBytes | peekBytes | poison | reset | clear => cases call

/-- What a call can do to a live queue: bytes are added at the end, the frame at the head is
consumed, or the queue goes bad. -/
theorem Live.step_cases {cap : Nat} {q : ByteQueue} (live : q.Live cap) {op : BufferOp}
    (call : framingCall op = true) :
    (consumedMessages [(op, (q.step op).1)] = [] ∧ (q.step op).2.Live cap ∧
        (q.step op).2.unread = q.unread ++ acceptedBytes [(op, (q.step op).1)]) ∨
    (∃ message f rest, consumedMessages [(op, (q.step op).1)] = [message] ∧
        acceptedBytes [(op, (q.step op).1)] = [] ∧ wire.head cap q.unread = .frame f rest ∧
        Shows message f ∧ (q.step op).2.Live cap ∧ (q.step op).2.unread = rest) ∨
    (consumedMessages [(op, (q.step op).1)] = [] ∧ acceptedBytes [(op, (q.step op).1)] = [] ∧
        wire.head cap q.unread = .oversized ∧ (q.step op).2.Discarding cap) ∨
    (consumedMessages [(op, (q.step op).1)] = [] ∧ acceptedBytes [(op, (q.step op).1)] = [] ∧
        (q.step op).2.poisoned ≠ none) := by
  cases op with
  | feed data =>
      rcases live.feed_cases data with ⟨fed, _⟩ | ⟨error, _, _, fed⟩
      · left
        simp only [step, fed, Except.map]
        exact ⟨by simp [consumedMessages], live.with_unread _, by simp [acceptedBytes]⟩
      · simp only [step, fed, Except.map, reject, live.idle, lt_irrefl, if_false]
        split
        · exact Or.inr (Or.inr (Or.inr ⟨by simp [consumedMessages], by simp [acceptedBytes],
            by simp⟩))
        · exact Or.inl ⟨by simp [consumedMessages], live, by simp [acceptedBytes]⟩
  | hasMessage =>
      exact Or.inl ⟨by simp [consumedMessages], live, by simp [step, acceptedBytes]⟩
  | peekHeader =>
      exact Or.inl ⟨by simp [consumedMessages], live, by simp [step, acceptedBytes]⟩
  | readMessage =>
      simp only [step, live.readMessage_eq]
      cases found : wire.head cap q.unread with
      | incomplete =>
          exact Or.inl ⟨by simp [consumedMessages, Except.map], live, by simp [acceptedBytes]⟩
      | oversized =>
          exact Or.inl ⟨by simp [consumedMessages, Except.map], live, by simp [acceptedBytes]⟩
      | frame f rest =>
          exact Or.inr (Or.inl ⟨some f, f, rest, by simp [consumedMessages, Except.map],
            by simp [acceptedBytes], rfl, by simp [Shows], live.with_unread rest, rfl⟩)
  | skipMessage =>
      simp only [step, live.skipMessage_eq]
      cases found : wire.head cap q.unread with
      | incomplete =>
          exact Or.inl ⟨by simp [consumedMessages, Except.map], live, by simp [acceptedBytes]⟩
      | frame f rest =>
          exact Or.inr (Or.inl ⟨none, f, rest, by simp [consumedMessages, Except.map],
            by simp [acceptedBytes], rfl, by simp [Shows], live.with_unread rest, rfl⟩)
      | oversized =>
          by_cases enough : cap ≤ q.unread.length
          · simp only [enough, if_true]
            exact Or.inr (Or.inr (Or.inr ⟨by simp [consumedMessages, Except.map],
              by simp [acceptedBytes], by simp⟩))
          · simp only [enough, if_false]
            refine Or.inr (Or.inr (Or.inl ⟨by simp [consumedMessages, Except.map],
              by simp [acceptedBytes], trivial, live.cap_eq, live.healthy, ?_, rfl, by simp⟩))
            show 0 < cap - q.unread.length
            omega
  | readBytes | peekBytes | poison | reset | clear => cases call

/-- Where a queue stands after a run: the accepted bytes are the consumed frames followed by
`rest`, which is what the queue still holds unless it went bad. -/
inductive Standing (cap : Nat) (q : ByteQueue) : Bytes → Prop
  | live (held : q.Live cap) : Standing cap q q.unread
  | discarding {rest : Bytes} (held : q.Discarding cap)
      (large : wire.head cap rest = .oversized) : Standing cap q rest
  | poisoned {rest : Bytes} (held : q.poisoned ≠ none) : Standing cap q rest

structure Consumes (cap : Nat) (past : List (BufferOp × BufferReply)) (q : ByteQueue)
    (taken : List Bytes) (rest : Bytes) : Prop where
  legal : ∀ f ∈ taken, wire.IsFrame cap f
  shown : List.Forall₂ Shows (consumedMessages past) taken
  joined : taken.flatten ++ rest = acceptedBytes past
  standing : Standing cap q rest

theorem consumes_step {cap : Nat} {past : List (BufferOp × BufferReply)} {q : ByteQueue}
    {op : BufferOp} (call : framingCall op = true) :
    (∃ taken rest, Consumes cap past q taken rest) →
      ∃ taken rest, Consumes cap (past ++ [(op, (q.step op).1)]) (q.step op).2 taken rest := by
  rintro ⟨taken, rest, legal, shown, joined, standing⟩
  have quiet (silent : consumedMessages [(op, (q.step op).1)] = []) :
      List.Forall₂ Shows (consumedMessages (past ++ [(op, (q.step op).1)])) taken := by
    rw [consumedMessages_append, silent, List.append_nil]
    exact shown
  have grown : taken.flatten ++ (rest ++ acceptedBytes [(op, (q.step op).1)]) =
      acceptedBytes (past ++ [(op, (q.step op).1)]) := by
    rw [acceptedBytes_append, ← joined, List.append_assoc]
  cases standing with
  | poisoned held =>
      obtain ⟨_, silent, same⟩ := poisoned_step held call
      exact ⟨taken, _, legal, quiet silent, grown, .poisoned (by rw [same]; exact held)⟩
  | discarding held large =>
      obtain ⟨silent, next | next⟩ := held.step_cases call
      · exact ⟨taken, _, legal, quiet silent, grown,
          .discarding next (wire.head_oversized_append cap large _)⟩
      · exact ⟨taken, _, legal, quiet silent, grown, .poisoned next⟩
  | live held =>
      rcases held.step_cases call with ⟨silent, next, added⟩ |
        ⟨message, f, rest, single, nothing, found, shows, next, left_⟩ |
        ⟨silent, nothing, large, next⟩ | ⟨silent, nothing, next⟩
      · exact ⟨taken, _, legal, quiet silent, by rw [added]; exact grown, .live next⟩
      · obtain ⟨whole, shape⟩ := wire.head_frame cap found
        refine ⟨taken ++ [f], rest, ?_, ?_, ?_, by rw [← left_]; exact .live next⟩
        · intro g member
          rcases List.mem_append.mp member with earlier | now
          · exact legal g earlier
          · rwa [List.mem_singleton.mp now]
        · rw [consumedMessages_append, single]
          exact List.rel_append shown (.cons shows .nil)
        · rw [← grown, nothing, whole]
          simp
      · rw [nothing, List.append_nil] at grown
        exact ⟨taken, _, legal, quiet silent, grown, .discarding next large⟩
      · exact ⟨taken, _, legal, quiet silent, grown, .poisoned next⟩

theorem consumes_run (cap : Nat) (ops : List BufferOp)
    (calls : ∀ op ∈ ops, framingCall op = true) :
    ∃ taken rest, Consumes cap (replies (history step (fresh cap) ops))
      (final step (fresh cap) ops) taken rest := by
  refine run_invariant step
    (fun past q => ∃ taken rest, Consumes cap (replies past) q taken rest) _ ?_ ?_ ops calls
  · exact ⟨[], [], by simp, .nil, rfl, .live (live_fresh cap)⟩
  · intro past q op call held
    rw [replies_concat]
    exact consumes_step call held

inductive Stuck (cap : Nat) (start : Bytes) (q : ByteQueue) : Prop
  | waiting (more : Bytes) (held : q.Live cap) (same : q.unread = start ++ more)
  | discarding (held : q.Discarding cap)
  | poisoned (held : q.poisoned ≠ none)

theorem stuck_step {cap : Nat} {start : Bytes} (large : wire.head cap start = .oversized)
    {q : ByteQueue} (stuck : Stuck cap start q) {op : BufferOp} (call : framingCall op = true) :
    consumedMessages [(op, (q.step op).1)] = [] ∧ Stuck cap start (q.step op).2 := by
  cases stuck with
  | poisoned held =>
      obtain ⟨_, silent, same⟩ := poisoned_step held call
      exact ⟨silent, .poisoned (by rw [same]; exact held)⟩
  | discarding held =>
      obtain ⟨silent, next | next⟩ := held.step_cases call
      · exact ⟨silent, .discarding next⟩
      · exact ⟨silent, .poisoned next⟩
  | waiting more held same =>
      rcases held.step_cases call with ⟨silent, next, added⟩ |
        ⟨message, f, rest, _, _, found, _⟩ | ⟨silent, _, _, next⟩ | ⟨silent, _, next⟩
      · exact ⟨silent, .waiting _ next (by rw [added, same, List.append_assoc])⟩
      · have still := wire.head_oversized_append cap large more
        rw [← same, found] at still
        cases still
      · exact ⟨silent, .discarding next⟩
      · exact ⟨silent, .poisoned next⟩

theorem stuck_run {cap : Nat} {start : Bytes} (large : wire.head cap start = .oversized)
    {q : ByteQueue} (stuck : Stuck cap start q) (ops : List BufferOp)
    (calls : ∀ op ∈ ops, framingCall op = true) :
    consumedMessages (replies (history step q ops)) = [] ∧ Stuck cap start (final step q ops) := by
  refine run_invariant step
    (fun past q => consumedMessages (replies past) = [] ∧ Stuck cap start q) _ ⟨rfl, stuck⟩ ?_ ops calls
  rintro past q op call ⟨silent, held⟩
  obtain ⟨now, next⟩ := stuck_step large held call
  rw [replies_concat, consumedMessages_append, silent]
  exact ⟨now, next⟩

end ByteQueue

/-- Whatever bytes arrive, reads and skips take off exactly the frames of the accepted bytes, in
order; and at a header that claims more than the cap they never take off anything again. -/
theorem no_misframing (cap : Nat) (ops : List BufferOp)
    (calls : ∀ op ∈ ops, framingCall op = true) :
    let past := replies (history ReadBuffer.step (ReadBuffer.fresh cap) ops)
    let buffer := final ReadBuffer.step (ReadBuffer.fresh cap) ops
    let frames := (wire.cut cap (acceptedBytes past)).1
    (consumedMessages past).length ≤ frames.length ∧
      List.Forall₂ Shows (consumedMessages past)
        (frames.take (consumedMessages past).length) ∧
      (headerSize ≤ buffer.available → cap < frameSize buffer.unread →
        ∀ later, (∀ op ∈ later, framingCall op = true) →
          let last := final ReadBuffer.step buffer later
          consumedMessages (replies (history ReadBuffer.step buffer later)) = [] ∧
            (last.isPoisoned = true ∨ last.isSkipping = true ∨
              ∃ more, last.unread = buffer.unread ++ more)) := by
  intro past buffer frames
  obtain ⟨same, bounded, queue⟩ := buffer_simulates_queue cap ops
  obtain ⟨taken, rest, legal, shown, joined, standing⟩ := ByteQueue.consumes_run cap ops calls
  rw [← same] at shown joined
  rw [← queue] at standing
  have first : taken <+: frames :=
    wire.frames_prefix_cut cap legal rest (by rw [joined])
  have count : (consumedMessages past).length = taken.length := shown.length_eq
  refine ⟨by rw [count]; exact first.length_le, ?_, ?_⟩
  · rw [count, ← List.prefix_iff_eq_take.mp first]
    exact shown
  · intro long large later quiet last
    have found : wire.head cap buffer.unread = .oversized := by
      rw [ReadBuffer.available_eq] at long
      exact wire.head_large cap long large
    have stuck : ByteQueue.Stuck cap buffer.unread buffer.queue := by
      cases standing with
      | live held => exact .waiting [] held (List.append_nil _).symm
      | discarding held _ => exact .discarding held
      | poisoned held => exact .poisoned held
    obtain ⟨silent, after⟩ := ByteQueue.stuck_run found stuck later quiet
    obtain ⟨agree, _, ends⟩ := ReadBuffer.simulates bounded later
    rw [← agree] at silent
    rw [← ends] at after
    refine ⟨silent, ?_⟩
    cases after with
    | waiting more _ same => exact Or.inr (Or.inr ⟨more, same⟩)
    | discarding held => exact Or.inr (Or.inl (decide_eq_true held.skips))
    | poisoned held => exact Or.inl (Option.isSome_iff_ne_none.mpr held)

theorem no_misframing_trickle :
    let start : List BufferOp := [.feed [3, 0, 0, 0, 8, 0, 0, 0]]
    let later : List BufferOp := [.skipMessage, .feed [0, 0, 0, 0, 8, 0, 0, 0],
      .feed [0, 0, 0, 0, 8, 0, 0, 0], .readMessage]
    consumedMessages (replies (history ReadBuffer.step
      (final ReadBuffer.step (ReadBuffer.fresh 16) start) later)) = [] := by
  intro start later
  exact ((no_misframing 16 start (by decide)).2.2 (by decide) (by decide) later (by decide)).1

end DqliteWire
