import DqliteWire.Schedules

/-! A decoder from its first byte. A server reads nothing until eight bytes have named a version it
knows; from there on, and for a client at once, the decoder is between responses. -/

namespace DqliteWire

open WireLib MessageDecoder

def opening (config : Config) (bytes : Bytes) : Option (Nat × Bytes) :=
  if config.isRequest then
    if 8 ≤ bytes.length ∧ fromLE (bytes.take 8) ∈ supportedVersions then
      some (fromLE (bytes.take 8), bytes.drop 8)
    else none
  else some (config.version, bytes)

theorem opening_append {config : Config} {bytes rest : Bytes} {version : Nat}
    (opened : opening config bytes = some (version, rest)) (more : Bytes) :
    opening config (bytes ++ more) = some (version, rest ++ more) := by
  unfold opening at opened ⊢
  by_cases request : config.isRequest = true
  · rw [if_pos request] at opened ⊢
    split at opened
    · rename_i known
      have long : 8 ≤ (bytes ++ more).length := by
        rw [List.length_append]
        omega
      rw [List.take_append_of_le_length known.1, List.drop_append_of_le_length known.1,
        if_pos ⟨long, known.2⟩]
      simp only [Option.some.injEq, Prod.mk.injEq] at opened ⊢
      exact ⟨opened.1, by rw [opened.2]⟩
    · cases opened
  · rw [if_neg request] at opened ⊢
    simp only [Option.some.injEq, Prod.mk.injEq] at opened ⊢
    exact ⟨opened.1, by rw [opened.2]⟩

structure Waiting (config : Config) (past : List (Event MessageDecoder DecoderOp DecoderReply))
    (d : MessageDecoder) : Prop where
  sound : d.Sound config
  pending : d.handshakeDone = false
  idle : d.continuation = .idle
  nothing : consumptions past = []
  kept : d.buffer.poisoned = none → d.buffer.queue.Live config.maxMessageSize ∧
    d.buffer.unread = acceptedChunks (replies past)

/-- A decoder after some calls: waiting for its handshake, or at work since a state between responses. -/
inductive Life (config : Config) (past : List (Event MessageDecoder DecoderOp DecoderReply))
    (d : MessageDecoder) : Prop
  | waiting (held : Waiting config past d)
  | working (first : MessageDecoder) (ops : List DecoderOp) (version : Nat)
      (calls : ∀ op ∈ ops, streamCall op = true) (phase : InPhase config version .idle first)
      (live : first.buffer.queue.Live config.maxMessageSize) (here : d = final step first ops)
      (log : consumptions past = consumptions (history step first ops))
      (opened : opening config (acceptedChunks (replies past)) =
        some (version, first.buffer.unread ++ acceptedChunks (replies (history step first ops))))
      (known : ∀ e ∈ replies (history step first ops), e ∈ replies past)

section Life

variable {config : Config} {past : List (Event MessageDecoder DecoderOp DecoderReply)}
  {d : MessageDecoder}

theorem Life.new (config : Config) : Life config [] (new config) := by
  have live : (MessageDecoder.new config).buffer.queue.Live config.maxMessageSize :=
    ByteQueue.live_fresh _
  cases direction : config.isRequest with
  | true =>
      have pending : (MessageDecoder.new config).handshakeDone = false := by
        simp [MessageDecoder.new, direction]
      exact .waiting ⟨.new config, pending, rfl, rfl, fun _ => ⟨live, rfl⟩⟩
  | false =>
      refine .working (MessageDecoder.new config) [] config.version (by simp) ?_ live rfl rfl ?_
        (by simp [replies])
      · refine ⟨.new config, rfl, ?_, ?_, rfl⟩ <;> simp [MessageDecoder.new, direction]
      · simp [opening, direction, replies, acceptedChunks, MessageDecoder.new, ReadBuffer.fresh,
          ReadBuffer.unread]

namespace Waiting

theorem quiet (held : Waiting config past d) {op : DecoderOp} {b : ReadBuffer}
    (next : (d.step op).2 = d.withBuffer b) (queue : b.queue = d.buffer.queue)
    (silent : acceptedChunks [(op, (d.step op).1)] = []) :
    Waiting config (past ++ [event step d op]) (d.step op).2 := by
  have unread : b.unread = d.buffer.unread := congrArg ByteQueue.unread queue
  have poisoned : b.poisoned = d.buffer.poisoned := congrArg ByteQueue.poisoned queue
  have none : consumption (event step d op) = none := by
    rw [event, consumption_same (by rw [next]; exact unread)]
  constructor
  · exact held.sound.step op
  · rw [next]
    exact held.pending
  · rw [next]
    exact held.idle
  · rw [consumptions_concat, held.nothing, none]
    rfl
  · rw [next, replies_concat, acceptedChunks_concat]
    intro healthy
    obtain ⟨live, same⟩ := held.kept (poisoned ▸ healthy)
    constructor
    · change b.queue.Live _
      rw [queue]
      exact live
    · change b.unread = _ ++ acceptedChunks [(op, (d.step op).1)]
      rw [silent, List.append_nil, unread, same]

theorem unchanged (held : Waiting config past d) {op : DecoderOp} (same : (d.step op).2 = d)
    (silent : acceptedChunks [(op, (d.step op).1)] = []) :
    Waiting config (past ++ [event step d op]) (d.step op).2 :=
  held.quiet (b := d.buffer) (by rw [same]; rfl) rfl silent

theorem feed (held : Waiting config past d) (healthy : d.buffer.poisoned = none) (data : Bytes) :
    Waiting config (past ++ [event step d (.feed data)]) (d.step (.feed data)).2 := by
  obtain ⟨live, same⟩ := held.kept healthy
  obtain ⟨reply, _, next⟩ := ReadBuffer.feed_matches held.sound.buffer.bounded data
  have none : consumption (event step d (.feed data)) = none :=
    consumption_other (by simp [event]) (by simp [event])
  refine ⟨held.sound.step _, held.pending, held.idle, by rw [consumptions_concat, held.nothing, none]; rfl, ?_⟩
  rw [replies_concat, acceptedChunks_concat]
  intro sane
  rcases live.feed_cases data with ⟨fed, _⟩ | ⟨error, _, _, fed⟩
  · rw [fed] at reply next
    have accepted : acceptedChunks [((event step d (.feed data)).op,
        (event step d (.feed data)).reply)] = data := by
      simp [event, step, MessageDecoder.feed, reply, acceptedChunks, Except.map]
    constructor
    · change (d.buffer.feed data).2.queue.Live _
      rw [next]
      exact live.with_unread _
    · rw [accepted, ← same]
      exact congrArg ByteQueue.unread next
  · rw [fed] at reply next
    have refused : acceptedChunks [((event step d (.feed data)).op,
        (event step d (.feed data)).reply)] = [] := by
      simp [event, step, MessageDecoder.feed, reply, acceptedChunks, Except.map]
    have rejected := live.reject_eq error
    rw [ReadBuffer.queue_unread] at rejected
    simp only [rejected] at next
    by_cases empty : d.buffer.unread = []
    · rw [if_pos empty] at next
      constructor
      · change (d.buffer.feed data).2.queue.Live _
        rw [next]
        exact live
      · rw [refused, List.append_nil, ← same]
        exact congrArg ByteQueue.unread next
    · rw [if_neg empty] at next
      have poisoned : (d.buffer.feed data).2.poisoned = some error := congrArg ByteQueue.poisoned next
      change (d.buffer.feed data).2.poisoned = Option.none at sane
      rw [poisoned] at sane
      cases sane

theorem request (held : Waiting config past d) : config.isRequest = true := by
  by_contra response
  have done := (held.sound.client (Bool.eq_false_iff.mpr response)).2
  rw [held.pending] at done
  cases done

theorem handshake (held : Waiting config past d) (healthy : d.buffer.poisoned = none) :
    Life config (past ++ [event step d .decodeHandshake]) (d.step .decodeHandshake).2 := by
  obtain ⟨live, same⟩ := held.kept healthy
  rcases decodeHandshake_cases held.sound.buffer.bounded healthy held.pending with
    ⟨_, stays⟩ | ⟨_, _, stays⟩ | ⟨eight, known, b, bounded, queue, goes⟩
  · exact .waiting (held.unchanged (by simp only [step, stays]) rfl)
  · exact .waiting (held.unchanged (by simp only [step, stays]) rfl)
  · have sound := held.sound.step .decodeHandshake
    have after : (d.step .decodeHandshake).2 = { d.withBuffer b with
        version := some (fromLE (d.buffer.unread.take 8)), handshakeDone := true } := by
      simp only [step, goes]
    have sane : b.poisoned = none := (congrArg ByteQueue.poisoned queue).trans healthy
    have rest : b.unread = d.buffer.unread.drop 8 := congrArg ByteQueue.unread queue
    have none : consumption (event step d .decodeHandshake) = none :=
      consumption_other (by simp [event]) (by simp [event])
    have chunks : acceptedChunks (replies (past ++ [event step d .decodeHandshake])) =
        d.buffer.unread := by
      rw [replies_concat, acceptedChunks_concat, same]
      exact List.append_nil _
    rw [after] at sound ⊢
    refine .working _ [] (fromLE (d.buffer.unread.take 8)) (by simp) ⟨sound, sane, rfl, rfl, held.idle⟩ ?_
      rfl (by rw [consumptions_concat, held.nothing, none]; rfl) ?_ (by simp [replies])
    · change b.queue.Live _
      rw [queue]
      exact live.with_unread _
    · rw [chunks, opening, if_pos held.request, if_pos ⟨eight, known⟩, ← rest]
      simp [replies, acceptedChunks]

end Waiting

theorem Life.step (life : Life config past d) {op : DecoderOp} (call : streamCall op = true) :
    Life config (past ++ [event step d op]) (d.step op).2 := by
  cases life with
  | working first ops version calls phase live here log opened known =>
      have same : event MessageDecoder.step d op =
          event MessageDecoder.step (final MessageDecoder.step first ops) op := by rw [here]
      refine .working first (ops ++ [op]) version ?_ phase live (by rw [final_concat, here]) ?_ ?_ ?_
      · intro o member
        rcases List.mem_append.mp member with earlier | now
        · exact calls o earlier
        · rw [List.mem_singleton.mp now]
          exact call
      · rw [history_concat, consumptions_concat, consumptions_concat, log, same]
      · rw [history_concat, replies_concat, replies_concat, acceptedChunks_concat,
          acceptedChunks_concat (replies (history _ _ _)), ← List.append_assoc, same]
        exact opening_append opened _
      · rw [history_concat, replies_concat, replies_concat, same]
        intro e member
        rcases List.mem_append.mp member with earlier | now
        · exact List.mem_append_left _ (known e earlier)
        · exact List.mem_append_right _ now
  | waiting held =>
      by_cases healthy : d.buffer.poisoned = none
      · have due : d.due = .decode := by
          rw [MessageDecoder.due, held.idle]
          rfl
        cases op with
        | feed data => exact .waiting (held.feed healthy data)
        | hasMessage | decodeBytes => exact .waiting (held.unchanged rfl rfl)
        | pendingFrameSize =>
            obtain ⟨_, _, queue⟩ := ReadBuffer.peekHeader_matches held.sound.buffer.bounded
            exact .waiting (held.quiet rfl queue rfl)
        | decode =>
            obtain ⟨e, refused⟩ := decode_pending held.pending
            exact .waiting (held.unchanged (by rw [refused]) rfl)
        | decodeContinuation =>
            obtain ⟨e, refused⟩ := not_due_refused (d := d) (Or.inr rfl) (by rw [due]; simp)
            exact .waiting (held.unchanged (by rw [refused]) rfl)
        | decodeHandshake => exact held.handshake healthy
        | takeFrame | skipMessage | reset => cases call
      · have other : op ≠ .reset := by
          rintro rfl
          cases call
        obtain ⟨same, refused⟩ := poisoned_step healthy other
        refine .waiting (held.unchanged same ?_)
        rcases refused with ⟨rfl, _⟩ | ⟨e, reply, _⟩
        · rfl
        · rw [reply]
          cases op <;> rfl

theorem life_run (config : Config) (ops : List DecoderOp) (calls : ∀ op ∈ ops, streamCall op = true) :
    Life config (history step (new config) ops) (final step (new config) ops) :=
  run_invariant step (Life config) (fun op => streamCall op = true) (Life.new config)
    (fun _ _ _ call life => life.step call) ops calls

end Life

/-- The life of a decoder, whatever the bytes, under the calls that leave the framing alone: it takes nothing
before they open a connection, and then the frames its reader hands out, in order and without losing a byte. -/
theorem connection_run (config : Config) (ops : List DecoderOp)
    (calls : ∀ op ∈ ops, streamCall op = true) :
    let past := history step (new config) ops
    let last := final step (new config) ops
    let log := consumptions past
    let opened := opening config (acceptedChunks (replies past))
    (opened = none → log = [] ∧ last.handshakeDone = false) ∧
      ∀ version stream, opened = some (version, stream) →
        log.map Consumption.answer <+: handedOut version (.idle : Phase config) stream ∧
        (last.handshakeDone = true →
          (log.map Consumption.frame).flatten ++ last.buffer.unread = stream ∧
          (last.isPoisoned = false → last.version = some version ∧
            ∃ q, phaseAfter version (.idle : Phase config) (log.map Consumption.frame) = some q ∧
              last.continuation = q.continuation) ∧
          ((∀ e ∈ replies past, feedFailed e = false) →
            last.isPoisoned = true ∨ last.hasMessage = false →
            log.map Consumption.answer = handedOut version (.idle : Phase config) stream)) := by
  intro past last log opened
  have life := life_run config ops calls
  cases life with
  | waiting held =>
      constructor
      · intro _
        exact ⟨held.nothing, held.pending⟩
      · intro version stream _
        have nothing : log = [] := held.nothing
        refine ⟨?_, fun done => absurd held.pending (by simpa using done)⟩
        rw [nothing]
        exact List.nil_prefix
  | working first later version calls phase live here same begun known =>
      have conduct := conduct_of_phase phase live later calls
      have began : opened = _ := begun
      rw [began]
      constructor
      · intro missing
        cases missing
      · intro version stream named
        simp only [Option.some.injEq, Prod.mk.injEq] at named
        obtain ⟨rfl, rfl⟩ := named
        have frames : log = consumptions (history step first later) := same
        have place : last = final step first later := here
        rw [frames, place]
        refine ⟨conduct.shown, fun _ => ⟨conduct.joined, fun sane => ?_, fun accepted => conduct.complete ?_⟩⟩
        · obtain ⟨q, after, kept, _⟩ := conduct.running sane
          exact ⟨kept.version_eq, q, after, kept.continuation_eq⟩
        · intro e member
          exact accepted e (known e member)

theorem connection_run_split_handshake :
    let bytes := toLE 8 protocolVersion ++ ([2, 0, 0, 0, 1, 0, 0, 0] ++ List.replicate 16 0)
    let ops : List DecoderOp := [.feed (bytes.take 5), .decodeHandshake, .feed (bytes.drop 5),
      .decodeHandshake, .decode]
    (consumptions (history step (new (.default true)) ops)).map Consumption.answer =
      handedOut protocolVersion (.idle : Phase (.default true)) (bytes.drop 8) := by
  intro bytes ops
  have opened : opening (.default true) (acceptedChunks (replies (history step (new (.default true)) ops))) =
      some (protocolVersion, bytes.drop 8) := by decide
  have accepted : ∀ e ∈ replies (history step (new (.default true)) ops), feedFailed e = false := by decide
  have done : (final step (new (.default true)) ops).handshakeDone = true := by decide
  have spent : (final step (new (.default true)) ops).hasMessage = false := by decide
  obtain ⟨_, _, complete⟩ := ((connection_run (.default true) ops (by simp [ops, streamCall])).2 _ _ opened).2 done
  exact complete accepted (Or.inr spent)

end DqliteWire
