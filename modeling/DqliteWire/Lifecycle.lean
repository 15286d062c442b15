import DqliteWire.Decoder

/-! A decoder between construction and reset: what no call changes, what poison does, and what
`reset` restores. -/

namespace DqliteWire

open WireLib WireLib.Utf8

theorem ByteQueue.step_cap (q : ByteQueue) (op : BufferOp) : (q.step op).2.cap = q.cap := by
  cases op with
  | feed data =>
      simp only [step, feed]
      split
      · rfl
      · split
        · unfold reject
          split
          · rfl
          · split <;> rfl
        · rfl
  | hasMessage | peekHeader | peekBytes n | reset | clear => rfl
  | readMessage =>
      simp only [step, readMessage]
      split
      · rfl
      · split <;> rfl
  | skipMessage =>
      simp only [step, skipMessage]
      split
      · rfl
      · split
        · rfl
        · rfl
        · split <;> rfl
  | readBytes n =>
      simp only [step, readBytes]
      split
      · rfl
      · split
        · rfl
        · split <;> rfl
  | poison error =>
      simp only [step, poison]
      split <;> rfl

structure ReadBuffer.Sound (cap : Nat) (b : ReadBuffer) : Prop where
  bounded : b.Bounded
  cap_eq : b.maxMessageSize = cap

theorem ReadBuffer.Sound.step {cap : Nat} {b : ReadBuffer} (sound : b.Sound cap) (op : BufferOp) :
    (b.step op).2.Sound cap := by
  obtain ⟨_, kept, next⟩ := step_matches sound.bounded op
  refine ⟨kept, ?_⟩
  have same := congrArg ByteQueue.cap next
  rw [ByteQueue.step_cap] at same
  exact same.trans sound.cap_eq

theorem ReadBuffer.Sound.read {cap : Nat} {b after : ReadBuffer} (sound : b.Sound cap)
    {reply : Except Exn (Option Bytes)} (read : b.readMessage = (reply, after)) :
    after.Sound cap := by
  have next := sound.step .readMessage
  simp only [ReadBuffer.step, read] at next
  exact next

namespace MessageDecoder

/-- What every reachable decoder of a configuration satisfies, outside the continuation fields. -/
structure Sound (config : Config) (d : MessageDecoder) : Prop where
  config_eq : d.config = config
  buffer : d.buffer.Sound config.maxMessageSize
  client : config.isRequest = false → d.version = some config.version ∧ d.handshakeDone = true
  server : config.isRequest = true → (d.handshakeDone = true ↔ d.version ≠ none) ∧
    ∀ version ∈ d.version, version ∈ supportedVersions

namespace Sound

variable {config : Config} {d : MessageDecoder}

theorem new (config : Config) : (MessageDecoder.new config).Sound config where
  config_eq := rfl
  buffer := ⟨Nat.le_refl 0, rfl⟩
  client := by
    intro response
    simp [MessageDecoder.new, response]
  server := by
    intro request
    simp [MessageDecoder.new, request]

theorem withBuffer (sound : d.Sound config) {b : ReadBuffer}
    (kept : b.Sound config.maxMessageSize) : (d.withBuffer b).Sound config :=
  ⟨sound.config_eq, kept, sound.client, sound.server⟩

theorem poison (sound : d.Sound config) (e : Exn) : (d.poison e).Sound config :=
  sound.withBuffer (sound.buffer.step (.poison e))

theorem finalize (sound : d.Sound config) : d.finalizeContinuationState.Sound config := by
  unfold finalizeContinuationState
  simp only
  split
  · rename_i request
    rw [sound.config_eq] at request
    exact ⟨sound.config_eq, sound.buffer, fun response => by simp [request] at response,
      fun _ => by simp⟩
  · exact ⟨sound.config_eq, sound.buffer, sound.client, sound.server⟩

theorem counters (sound : d.Sound config) (c : Continuation) :
    { d with continuation := c }.Sound config :=
  ⟨sound.config_eq, sound.buffer, sound.client, sound.server⟩

theorem decode (sound : d.Sound config) : d.decode.2.Sound config := by
  have outcome := decode_outcome d
  generalize d.decode = result at outcome ⊢
  cases outcome with
  | refused => exact sound
  | waiting b idle read | unreadable b e idle read | whole b data message idle read =>
      exact sound.withBuffer (sound.buffer.read read)
  | failed b data e idle read raised => exact (sound.withBuffer (sound.buffer.read read)).poison _
  | opened b data rows idle read => exact (sound.withBuffer (sound.buffer.read read)).counters _

theorem decodeContinuation (sound : d.Sound config) : d.decodeContinuation.2.Sound config := by
  have outcome := decodeContinuation_outcome d
  generalize d.decodeContinuation = result at outcome ⊢
  cases outcome with
  | refused => exact sound
  | waiting b expected read => exact sound.withBuffer (sound.buffer.read read)
  | oversized b size expected read =>
      exact (sound.withBuffer (sound.buffer.read read)).finalize.poison _
  | wrongType b data msgType expected read | failure b data code message expected read
  | rejected b data text expected read | emptied b data result expected read
  | ended b data result expected read =>
      exact (sound.withBuffer (sound.buffer.read read)).finalize
  | broken b data e expected read =>
      exact (sound.withBuffer (sound.buffer.read read)).finalize.poison _
  | continued b data result expected read =>
      exact (sound.withBuffer (sound.buffer.read read)).counters _

theorem decodeHandshake (sound : d.Sound config) : d.decodeHandshake.2.Sound config := by
  unfold MessageDecoder.decodeHandshake
  split
  · exact sound
  · rename_i pending
    have request : config.isRequest = true := by
      by_contra response
      exact pending (sound.client (by simpa using response)).2
    have read := sound.buffer.step (.readBytes 8)
    simp only [ReadBuffer.step] at read
    split
    · exact sound
    · exact sound
    · rename_i peek _
      simp only
      split
      · exact sound
      · rename_i supported
        have known := not_not.mp supported
        split
        · rename_i failed
          rw [failed] at read
          exact ⟨sound.config_eq, read, fun response => by simp [request] at response,
            fun _ => by simp⟩
        · rename_i consumed
          rw [consumed] at read
          exact ⟨sound.config_eq, read, fun response => by simp [request] at response,
            fun _ => by simpa using known⟩

theorem step (sound : d.Sound config) (op : DecoderOp) : (d.step op).2.Sound config := by
  cases op with
  | feed data => exact sound.withBuffer (sound.buffer.step (.feed data))
  | hasMessage | decodeBytes data => exact sound
  | pendingFrameSize => exact sound.withBuffer (sound.buffer.step .peekHeader)
  | takeFrame => exact sound.withBuffer (sound.buffer.step .readMessage)
  | decode => exact sound.decode
  | decodeContinuation => exact sound.decodeContinuation
  | skipMessage =>
      simp only [MessageDecoder.step, MessageDecoder.skipMessage]
      split
      · exact sound
      · exact sound.withBuffer (sound.buffer.step .skipMessage)
  | decodeHandshake => exact sound.decodeHandshake
  | reset => exact (sound.withBuffer (sound.buffer.step .reset)).finalize

end Sound

theorem sound_of_reachable {config : Config} {d : MessageDecoder}
    (reachable : Reachable step (new config) d) : d.Sound config :=
  reachable_invariant step (Sound config) reachable (Sound.new config) fun _ op held => held.step op

theorem Sound.reset_eq {config : Config} {d : MessageDecoder} (sound : d.Sound config) :
    d.reset = MessageDecoder.new config := by
  obtain ⟨rfl, ⟨_, cap⟩, client, _⟩ := sound
  cases request : d.config.isRequest with
  | true =>
      simp [reset, finalizeContinuationState, MessageDecoder.withBuffer, MessageDecoder.new,
        request, ReadBuffer.reset, ReadBuffer.fresh, cap]
  | false =>
      simp [reset, finalizeContinuationState, MessageDecoder.withBuffer, MessageDecoder.new,
        request, ReadBuffer.reset, ReadBuffer.fresh, cap, client request]

def Refused (reply : DecoderReply) : Prop := ∃ e, reply = .error e ∧ e.isProtocolError = true

theorem poisoned_step {d : MessageDecoder} (poisoned : d.buffer.poisoned ≠ none) {op : DecoderOp}
    (other : op ≠ .reset) :
    (d.step op).2 = d ∧
      ((op = .hasMessage ∧ (d.step op).1 = .ok (.bool d.hasMessage)) ∨ Refused (d.step op).1) := by
  obtain ⟨cause, found⟩ := Option.ne_none_iff_exists'.mp poisoned
  have checked : d.buffer.checkPoisoned = .error (ReadBuffer.poisonedError cause) :=
    ReadBuffer.checkPoisoned_error.mpr ⟨cause, found, rfl⟩
  have refusal : Refused (.error (ReadBuffer.poisonedError cause)) := ⟨_, rfl, rfl⟩
  cases op with
  | feed data =>
      simp only [step, feed, ReadBuffer.feed, checked, Except.map]
      exact ⟨rfl, Or.inr refusal⟩
  | hasMessage => exact ⟨rfl, Or.inl ⟨rfl, rfl⟩⟩
  | pendingFrameSize =>
      simp only [step, pendingFrameSize, ReadBuffer.peekHeader, checked, Except.map]
      exact ⟨rfl, Or.inr refusal⟩
  | takeFrame =>
      simp only [step, takeFrame, ReadBuffer.readMessage, checked, Except.map]
      exact ⟨rfl, Or.inr refusal⟩
  | decode =>
      simp only [step, decode, checked, Except.map]
      exact ⟨trivial, Or.inr refusal⟩
  | decodeBytes data =>
      simp only [step, decodeBytes, checked, error_bind, Except.map]
      exact ⟨trivial, Or.inr refusal⟩
  | decodeContinuation =>
      simp only [step, decodeContinuation, checked, Except.map]
      exact ⟨trivial, Or.inr refusal⟩
  | skipMessage =>
      simp only [step, skipMessage]
      split
      · exact ⟨rfl, Or.inr ⟨_, rfl, rfl⟩⟩
      · simp only [ReadBuffer.skipMessage, checked, Except.map]
        exact ⟨rfl, Or.inr refusal⟩
  | decodeHandshake =>
      simp only [step, decodeHandshake]
      split
      · exact ⟨rfl, Or.inr ⟨_, rfl, rfl⟩⟩
      · have peeked : d.buffer.peekBytes 8 = .error (ReadBuffer.poisonedError cause) := by
          simp [ReadBuffer.peekBytes, checked]
        simp only [peeked, Except.map]
        exact ⟨trivial, Or.inr refusal⟩
  | reset => exact absurd rfl other

theorem poisoned_run {d : MessageDecoder} (poisoned : d.buffer.poisoned ≠ none)
    (ops : List DecoderOp) (others : ∀ op ∈ ops, op ≠ .reset) :
    final step d ops = d ∧ ∀ e ∈ history step d ops,
      (e.op = .hasMessage ∧ e.reply = .ok (.bool d.hasMessage)) ∨ Refused e.reply := by
  refine run_invariant step
    (fun past s => s = d ∧ ∀ e ∈ past,
      (e.op = .hasMessage ∧ e.reply = .ok (.bool d.hasMessage)) ∨ Refused e.reply)
    (· ≠ .reset) ⟨rfl, by simp⟩ ?_ ops others
  rintro past s op other ⟨rfl, earlier⟩
  obtain ⟨same, reply⟩ := poisoned_step poisoned other
  refine ⟨same, ?_⟩
  intro e member
  rcases List.mem_append.mp member with before | now
  · exact earlier e before
  · rw [List.mem_singleton.mp now]
    exact reply

end MessageDecoder

open MessageDecoder in
/-- Poison is absorbing until `reset`, and `reset` is a fresh start from every reachable state. -/
theorem poison_absorbing_reset_fresh (config : Config) (d : MessageDecoder)
    (reachable : Reachable step (new config) d) :
    (d.isPoisoned = true → ∀ ops, (∀ op ∈ ops, op ≠ .reset) →
      let last := final step d ops
      last = d ∧ last.isPoisoned = true ∧ last.buffer.unread = d.buffer.unread ∧
        ∀ e ∈ history step d ops,
          (e.op = .hasMessage ∧ e.reply = .ok (.bool d.hasMessage)) ∨ Refused e.reply) ∧
      d.reset = new config := by
  refine ⟨?_, (sound_of_reachable reachable).reset_eq⟩
  intro poisoned ops others last
  obtain ⟨same, replies⟩ := poisoned_run (Option.isSome_iff_ne_none.mp poisoned) ops others
  have stays : last = d := same
  exact ⟨stays, by rw [stays]; exact poisoned, by rw [stays], replies⟩

open MessageDecoder in
theorem poison_absorbing_reset_fresh_unknown_type :
    let d := final step (new .default) [.feed [0, 0, 0, 0, 99, 0, 0, 0], .decode]
    d.isPoisoned = true ∧ final step d [.decode, .takeFrame, .decodeHandshake] = d ∧
      d.reset = new .default := by
  intro d
  obtain ⟨absorbing, fresh⟩ := poison_absorbing_reset_fresh .default d ⟨_, rfl⟩
  have poisoned : d.isPoisoned = true := by decide
  exact ⟨poisoned, (absorbing poisoned _ (by decide)).1, fresh⟩

end DqliteWire
