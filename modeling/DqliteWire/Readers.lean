import DqliteWire.Storage
import DqliteWire.Lifecycle

/-! The header at the cursor is read by four methods of the buffer, each with its own order of the
tests and its own reaction. They read the same thing in it, in every state a buffer or a decoder can
be in. -/

namespace DqliteWire

open WireLib

namespace ReadBuffer

def sizeField (b : ReadBuffer) : Nat := fromLE (b.unread.take 4)

inductive Readings (b : ReadBuffer) : Prop
  | short (few : b.unread.length < headerSize) (read : b.readMessage.1 = .ok none)
      (has : b.hasMessage = false) (peek : b.peekHeader.1 = .ok none)
      (skip : b.skipMessage.1 = .ok false)
  | oversized (long : headerSize ≤ b.unread.length)
      (read : b.readMessage.1 = .error (tooLarge (wire.size b.unread) b.maxMessageSize))
      (has : b.hasMessage = true)
      (peek : b.peekHeader.1 = .error (tooLarge (wire.size b.unread) b.maxMessageSize))
      (skip : b.skipMessage.1 = .ok false)
  | lacking (msgType schema : Nat) (long : headerSize ≤ b.unread.length)
      (read : b.readMessage.1 = .ok none) (has : b.hasMessage = false)
      (peek : b.peekHeader.1 = .ok (some (b.sizeField, msgType, schema)))
      (skip : b.skipMessage.1 = .ok false)
  | complete (msgType schema : Nat) (long : headerSize ≤ b.unread.length)
      (whole : wire.size b.unread ≤ b.unread.length)
      (read : b.readMessage.1 = .ok (some (b.unread.take (wire.size b.unread))))
      (has : b.hasMessage = true)
      (peek : b.peekHeader.1 = .ok (some (b.sizeField, msgType, schema)))
      (skip : b.skipMessage.1 = .ok (decide (b.skipRemaining = 0)))

theorem readings {b : ReadBuffer} (bounded : b.Bounded) (healthy : b.poisoned = none) :
    b.Readings := by
  have has := hasMessage_matches b
  have read := (readMessage_matches bounded).1
  have peek := (peekHeader_matches bounded).1
  have skip := (skipMessage_matches bounded).1
  simp only [ByteQueue.hasMessage, ByteQueue.readMessage, ByteQueue.peekHeader,
    ByteQueue.skipMessage, queue_poisoned, healthy, queue_unread, queue_cap,
    ByteQueue.head] at has read peek skip
  by_cases short : b.unread.length < headerSize
  · rw [wire.head_short _ short] at has read skip
    rw [if_pos (show b.unread.length < wire.header from short)] at peek
    exact .short short read has peek skip
  · rw [if_neg (show ¬ b.unread.length < wire.header from short)] at peek
    have long : headerSize ≤ b.unread.length := not_lt.mp short
    by_cases large : b.maxMessageSize < wire.size b.unread
    · rw [wire.head_large _ long large] at has read skip
      rw [if_pos large] at peek
      refine .oversized long read has peek ?_
      simp only at skip
      split at skip <;> exact skip
    · rw [if_neg large] at peek
      by_cases lacking : b.unread.length < wire.size b.unread
      · rw [wire.head_lacking _ (not_lt.mp large) lacking] at has read skip
        exact .lacking _ _ long read has peek skip
      · rw [wire.head_complete _ (not_lt.mp large) (not_lt.mp lacking)] at has read skip
        exact .complete _ _ long (not_lt.mp lacking) read has peek skip

theorem peekHeader_unchanged (b : ReadBuffer) : b.peekHeader.2 = b := by
  unfold peekHeader
  simp only [checkTornSize_eq]
  split
  · rfl
  · split
    · rfl
    · split
      · rfl
      · split <;> rfl

theorem skipMessage_frame {b : ReadBuffer} {frame : Bytes}
    (read : b.readMessage.1 = .ok (some frame)) :
    b.skipMessage.2 = b.readMessage.2 ∧ b.unread = frame ++ b.readMessage.2.unread := by
  cases poisoned : b.poisoned with
  | some cause => simp [readMessage, checkPoisoned, poisoned] at read
  | none =>
      simp only [readMessage, skipMessage, checkPoisoned, poisoned, checkTornSize_eq, claimed_size,
        available_eq] at read ⊢
      by_cases short : b.unread.length < headerSize
      · rw [if_pos short] at read
        cases read
      · by_cases large : b.maxMessageSize < wire.size b.unread
        · rw [if_neg short, if_pos large] at read
          cases read
        · by_cases lacking : b.unread.length < wire.size b.unread
          · rw [if_neg short, if_neg large, if_pos lacking] at read
            cases read
          · rw [if_neg short, if_neg large, if_neg lacking] at read ⊢
            rw [if_neg short, if_neg (fun missing => lacking missing.2), if_pos (not_lt.mp large)]
            refine ⟨rfl, ?_⟩
            have rest := congrArg ByteQueue.unread
              ((queue_maybeCompact _).trans (queue_advance b (wire.size b.unread)))
            simp only [queue_unread] at rest
            simp only [Except.ok.injEq, Option.some.injEq] at read
            rw [rest, ← read, slice_eq, List.take_append_drop]

/-- With `r` what `read_message` does: the other readers announce `r`, and a skip takes off what a
read would return. -/
structure ReadersAgree (b : ReadBuffer) : Prop where
  outcome : b.readMessage.1 = .ok none ∨ (∃ frame, b.readMessage.1 = .ok (some frame)) ∨
    RaisesDecodeError b.readMessage.1
  hasMessage : b.hasMessage = false ↔ b.readMessage.1 = .ok none
  peekHeader : RaisesDecodeError b.peekHeader.1 ↔ RaisesDecodeError b.readMessage.1
  raised : ∀ e, b.peekHeader.1 = .error e ↔ b.readMessage.1 = .error e
  skipMessage : b.skipMessage.1 = .ok true ↔ ∃ frame, b.readMessage.1 = .ok (some frame)
  skipped : ∀ frame, b.readMessage.1 = .ok (some frame) →
    b.skipMessage.2 = b.readMessage.2 ∧ b.unread = frame ++ b.skipMessage.2.unread
  unchanged : (b.step .hasMessage).2 = b ∧ (b.step .peekHeader).2 = b

/-- A buffer that holds a header is not in the middle of a skip. -/
theorem idle_of_unread {cap : Nat} {b : ReadBuffer} (coherent : b.queue.Coherent cap)
    (healthy : b.poisoned = none) (some_ : 0 < b.unread.length) : b.skipRemaining = 0 := by
  rcases coherent.state healthy with live | ⟨discarding, _⟩
  · exact live.idle
  · have empty : b.unread = [] := discarding.empty
    rw [empty] at some_
    exact absurd some_ (lt_irrefl 0)

theorem readersAgree {cap : Nat} {b : ReadBuffer} (bounded : b.Bounded)
    (coherent : b.queue.Coherent cap) (healthy : b.poisoned = none) : b.ReadersAgree := by
  have skipped (frame : Bytes) (read : b.readMessage.1 = .ok (some frame)) :
      b.skipMessage.2 = b.readMessage.2 ∧ b.unread = frame ++ b.skipMessage.2.unread := by
    obtain ⟨same, rest⟩ := skipMessage_frame read
    exact ⟨same, same ▸ rest⟩
  have raised (e : Exn) : b.peekHeader.1 = .error e ↔ b.readMessage.1 = .error e := by
    cases readings bounded healthy with
    | short few read has peek skip | oversized long read has peek skip
    | lacking msgType schema long read has peek skip
    | complete msgType schema long whole read has peek skip => simp [read, peek]
  have unchanged : (b.step .hasMessage).2 = b ∧ (b.step .peekHeader).2 = b :=
    ⟨rfl, peekHeader_unchanged b⟩
  refine ⟨?_, ?_, decodeError_congr raised, raised, ?_, skipped, unchanged⟩
  · cases readings bounded healthy with
    | short few read has peek skip => exact Or.inl read
    | lacking msgType schema long read has peek skip => exact Or.inl read
    | oversized long read has peek skip => exact Or.inr (Or.inr ⟨_, read⟩)
    | complete msgType schema long whole read has peek skip => exact Or.inr (Or.inl ⟨_, read⟩)
  · cases readings bounded healthy with
    | short few read has peek skip | oversized long read has peek skip
    | lacking msgType schema long read has peek skip
    | complete msgType schema long whole read has peek skip => simp [read, has]
  · cases readings bounded healthy with
    | short few read has peek skip | oversized long read has peek skip
    | lacking msgType schema long read has peek skip => simp [read, skip]
    | complete msgType schema long whole read has peek skip =>
        have header : 0 < b.unread.length := lt_of_lt_of_le wire.header_pos long
        simp [read, skip, idle_of_unread coherent healthy header]

theorem readMessage_of_hasMessage {b : ReadBuffer} (bounded : b.Bounded)
    (has : b.hasMessage = true) : b.readMessage.1 ≠ .ok none := by
  intro read
  cases poisoned : b.poisoned with
  | some cause => simp [readMessage, checkPoisoned, poisoned] at read
  | none =>
      cases readings bounded poisoned with
      | short few read' has' | lacking msgType schema long read' has' =>
          rw [has] at has'
          cases has'
      | oversized long read' | complete msgType schema long whole read' =>
          rw [read] at read'
          cases read'

end ReadBuffer

namespace MessageDecoder

section Calls

variable {b after : ReadBuffer} {reply : Except Exn (Option Bytes)}

theorem reachable_read (read : b.readMessage = (reply, after)) :
    Reachable ReadBuffer.step b after :=
  ⟨[.readMessage], by simp [ReadBuffer.step, read]⟩

theorem reachable_readPoison (read : b.readMessage = (reply, after)) (e : Exn) :
    Reachable ReadBuffer.step b (after.poison e) :=
  ⟨[.readMessage, .poison e], by simp [ReadBuffer.step, read]⟩

end Calls

/-- Whatever a decoder does to its buffer, it does by calls of the buffer. -/
theorem buffer_step (d : MessageDecoder) (op : DecoderOp) :
    Reachable ReadBuffer.step d.buffer (d.step op).2.buffer := by
  have untouched : Reachable ReadBuffer.step d.buffer d.buffer := reachable_start _ _
  cases op with
  | feed data => exact ⟨[.feed data], rfl⟩
  | hasMessage | decodeBytes data => exact untouched
  | pendingFrameSize => exact ⟨[.peekHeader], rfl⟩
  | takeFrame => exact ⟨[.readMessage], rfl⟩
  | decode =>
      simp only [step]
      have outcome := decode_outcome d
      generalize d.decode = result at outcome ⊢
      cases outcome with
      | refused => exact untouched
      | waiting b idle read | unreadable b e idle read | whole b data message idle read
      | opened b data rows idle read => exact reachable_read read
      | failed b data e idle read raised => exact reachable_readPoison read _
  | decodeContinuation =>
      simp only [step]
      have outcome := decodeContinuation_outcome d
      generalize d.decodeContinuation = result at outcome ⊢
      cases outcome with
      | refused => exact untouched
      | waiting b expected read | continued b data result expected read => exact reachable_read read
      | oversized b size expected read | broken b data e expected read =>
          rw [poison_buffer, finalize_buffer]
          exact reachable_readPoison read _
      | wrongType b data msgType expected read | failure b data code message expected read
      | rejected b data text expected read | emptied b data result expected read
      | ended b data result expected read =>
          rw [finalize_buffer]
          exact reachable_read read
  | skipMessage =>
      simp only [step, skipMessage]
      split
      · exact untouched
      · exact ⟨[.skipMessage], rfl⟩
  | decodeHandshake =>
      simp only [step, decodeHandshake]
      split
      · exact untouched
      · split
        · exact untouched
        · exact untouched
        · split
          · exact untouched
          · split
            · rename_i read
              exact ⟨[.readBytes 8], by simp [ReadBuffer.step, read]⟩
            · rename_i read
              exact ⟨[.readBytes 8], by simp [ReadBuffer.step, read]⟩
  | reset => exact ⟨[.reset], by simp [step, reset, ReadBuffer.step]⟩

theorem buffer_reachable {config : Config} {d : MessageDecoder}
    (reachable : Reachable step (new config) d) :
    Reachable ReadBuffer.step (ReadBuffer.fresh config.maxMessageSize) d.buffer := by
  apply reachable_invariant step
    (fun d => Reachable ReadBuffer.step (ReadBuffer.fresh config.maxMessageSize) d.buffer) reachable
  · exact reachable_start _ _
  · intro d op held
    exact held.trans _ (buffer_step d op)

/-- The decoder's own readers, against the `read_message` of its buffer. -/
structure ReadersAgree (d : MessageDecoder) : Prop where
  buffer : d.buffer.ReadersAgree
  hasMessage : d.hasMessage = false ↔ d.buffer.readMessage.1 = .ok none
  pendingFrameSize : RaisesDecodeError d.pendingFrameSize.1 ↔
    RaisesDecodeError d.buffer.readMessage.1
  raised : ∀ e, d.pendingFrameSize.1 = .error e ↔ d.buffer.readMessage.1 = .error e
  zero : d.pendingFrameSize.1 = .ok 0 ↔ d.buffer.available < headerSize
  size : headerSize ≤ d.buffer.available → ∀ n, d.pendingFrameSize.1 = .ok n →
    n = 8 + 8 * d.buffer.sizeField
  frame : ∀ frame, d.buffer.readMessage.1 = .ok (some frame) →
    d.pendingFrameSize.1 = .ok frame.length
  takeFrame : d.takeFrame = (d.buffer.readMessage.1, d.withBuffer d.buffer.readMessage.2)
  unchanged : (d.step .hasMessage).2 = d ∧ (d.step .pendingFrameSize).2 = d

theorem pendingFrameSize_eq {d : MessageDecoder} {x : Except Exn (Option (Nat × Nat × Nat))}
    (peek : d.buffer.peekHeader.1 = x) : d.pendingFrameSize.1 = x.map fun header =>
      match header with
      | none => 0
      | some (sizeWords, _, _) => headerSize + sizeWords * wordSize := by
  rw [← peek]
  rfl

theorem readersAgree {cap : Nat} {d : MessageDecoder} (bounded : d.buffer.Bounded)
    (coherent : d.buffer.queue.Coherent cap) (healthy : d.buffer.poisoned = none) :
    d.ReadersAgree := by
  have buffer := ReadBuffer.readersAgree bounded coherent healthy
  have raised (e : Exn) :
      d.pendingFrameSize.1 = .error e ↔ d.buffer.readMessage.1 = .error e := by
    rw [← buffer.raised e, pendingFrameSize_eq rfl]
    cases d.buffer.peekHeader.1 <;> simp [Except.map]
  have unchanged : (d.step .hasMessage).2 = d ∧ (d.step .pendingFrameSize).2 = d := by
    refine ⟨rfl, ?_⟩
    show d.withBuffer d.buffer.peekHeader.2 = d
    rw [ReadBuffer.peekHeader_unchanged]
    rfl
  refine ⟨buffer, buffer.hasMessage, decodeError_congr raised, raised, ?_, ?_, ?_,
    rfl, unchanged⟩
  · rw [ReadBuffer.available_eq]
    cases ReadBuffer.readings bounded healthy with
    | short few read has peek skip => simpa [pendingFrameSize_eq peek, Except.map] using few
    | oversized long read has peek skip =>
        simpa [pendingFrameSize_eq peek, Except.map] using long
    | lacking msgType schema long read has peek skip
    | complete msgType schema long whole read has peek skip =>
        simpa [pendingFrameSize_eq peek, Except.map] using long
  · intro header n size
    rw [ReadBuffer.available_eq] at header
    cases ReadBuffer.readings bounded healthy with
    | short few read has peek skip => exact absurd few (not_lt.mpr header)
    | oversized long read has peek skip =>
        rw [pendingFrameSize_eq peek] at size
        cases size
    | lacking msgType schema long read has peek skip
    | complete msgType schema long whole read has peek skip =>
        simp only [pendingFrameSize_eq peek, Except.map, Except.ok.injEq] at size
        rw [← size, Nat.mul_comm]
        rfl
  · intro frame found
    cases ReadBuffer.readings bounded healthy with
    | short few read has peek skip | oversized long read has peek skip
    | lacking msgType schema long read has peek skip =>
        rw [read] at found
        cases found
    | complete msgType schema long whole read has peek skip =>
        rw [read] at found
        cases found
        rw [pendingFrameSize_eq peek, List.length_take, min_eq_left whole]
        rfl

def consumingCall : DecoderOp → Bool
  | .takeFrame | .decode | .decodeContinuation => true
  | _ => false

def ReturnsNone (reply : DecoderReply) : Prop :=
  reply = .ok (.frame none) ∨ reply = .ok (.message none)

theorem consumed_of_hasMessage {d : MessageDecoder} (bounded : d.buffer.Bounded)
    (has : d.hasMessage = true) {op : DecoderOp} (consumes : consumingCall op = true) :
    ¬ ReturnsNone (d.step op).1 := by
  have filled := ReadBuffer.readMessage_of_hasMessage bounded has
  have unread {b : ReadBuffer} (read : d.buffer.readMessage = (.ok none, b)) : False :=
    filled (by rw [read])
  cases op with
  | takeFrame =>
      simp only [ReturnsNone, step, takeFrame]
      cases reply : d.buffer.readMessage.1 with
      | error e => simp [Except.map]
      | ok frame => simpa [Except.map, reply] using filled
  | decode =>
      simp only [ReturnsNone, step]
      have outcome := decode_outcome d
      generalize d.decode = result at outcome ⊢
      cases outcome with
      | waiting b idle read => exact (unread read).elim
      | refused | unreadable | failed | whole | opened => simp [Except.map]
  | decodeContinuation =>
      simp only [ReturnsNone, step]
      have outcome := decodeContinuation_outcome d
      generalize d.decodeContinuation = result at outcome ⊢
      cases outcome with
      | waiting b expected read => exact (unread read).elim
      | refused | oversized | wrongType | failure | rejected | broken | emptied | continued
      | ended => simp [Except.map]
  | feed | hasMessage | pendingFrameSize | decodeBytes | skipMessage | decodeHandshake | reset =>
      cases consumes

end MessageDecoder

open MessageDecoder in
/-- The header readers agree in every state of a buffer and of a decoder that is not poisoned; and
in no run does a consuming call come back empty where `has_message` was true. -/
theorem header_readers_agree :
    (∀ cap b, Reachable ReadBuffer.step (ReadBuffer.fresh cap) b → b.poisoned = none →
      b.ReadersAgree) ∧
    (∀ config d, Reachable step (new config) d → d.isPoisoned = false → d.ReadersAgree) ∧
    (∀ cap ops, ∀ e ∈ history ReadBuffer.step (ReadBuffer.fresh cap) ops,
      e.op = .readMessage → e.before.hasMessage = true → e.reply ≠ .ok (.bytes none)) ∧
    ∀ config ops, ∀ e ∈ history step (new config) ops,
      consumingCall e.op = true → e.before.hasMessage = true → ¬ ReturnsNone e.reply := by
  refine ⟨?_, ?_, ?_, ?_⟩
  · intro cap b reachable healthy
    obtain ⟨bounded, coherent⟩ := ReadBuffer.coherent_reachable reachable
    exact ReadBuffer.readersAgree bounded coherent healthy
  · intro config d reachable healthy
    obtain ⟨bounded, coherent⟩ := ReadBuffer.coherent_reachable (buffer_reachable reachable)
    have whole : d.buffer.poisoned = none := by
      simpa [isPoisoned, ReadBuffer.isPoisoned] using healthy
    exact readersAgree bounded coherent whole
  · intro cap ops e member call has
    obtain ⟨reachable, shape⟩ := mem_history _ member
    have filled := ReadBuffer.readMessage_of_hasMessage
      (ReadBuffer.coherent_reachable reachable).1 has
    rw [shape, event, call]
    simp only [ReadBuffer.step]
    cases reply : e.before.readMessage.1 with
    | error e => simp [Except.map]
    | ok frame => simpa [Except.map, reply] using filled
  · intro config ops e member call has
    obtain ⟨reachable, shape⟩ := mem_history _ member
    have bounded := (ReadBuffer.coherent_reachable (buffer_reachable reachable)).1
    rw [shape]
    exact consumed_of_hasMessage bounded has call

open MessageDecoder in
theorem header_readers_agree_complete :
    let d := final step (new .default) [.feed [1, 0, 0, 0, 3, 0, 0, 0, 1, 2, 3, 4, 5, 6, 7, 8, 9]]
    d.pendingFrameSize.1 = .ok 16 ∧ d.takeFrame.2.buffer.unread = [9] := by
  intro d
  have agree := header_readers_agree.2.1 .default d ⟨_, rfl⟩ (by decide)
  have read : d.buffer.readMessage.1 =
      .ok (some [1, 0, 0, 0, 3, 0, 0, 0, 1, 2, 3, 4, 5, 6, 7, 8]) := by decide
  obtain ⟨same, split⟩ := agree.buffer.skipped _ read
  have held : d.buffer.unread = [1, 0, 0, 0, 3, 0, 0, 0, 1, 2, 3, 4, 5, 6, 7, 8] ++ [9] := by
    decide
  refine ⟨agree.frame _ read, ?_⟩
  rw [agree.takeFrame, withBuffer_buffer, ← same]
  exact List.append_cancel_left (split.symm.trans held)

end DqliteWire
