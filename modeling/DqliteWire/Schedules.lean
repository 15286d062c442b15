import DqliteWire.Reader
import DqliteWire.Readers
import DqliteWire.Reassembly
import DqliteWire.Streaming

/-! Runs of a decoder past the handshake. Whatever the chunks and the order of the calls, it hands out
what its reader makes of the stream; so two schedules for the same bytes agree, and the loop that
calls while there is a message ends with all of it handed out. -/

namespace DqliteWire

open WireLib MessageDecoder

def Consumption.answer (c : Consumption) : Bytes × DecoderReply := (c.frame, c.reply)

/-- What a decoder in a phase hands out of a stream: each frame with what the call that takes it returns. -/
def handedOut {config : Config} (version : Nat) (p : Phase config) (stream : Bytes) :
    List (Bytes × DecoderReply) :=
  (StreamReader.transcript wire config.maxMessageSize (protocolReader config version) (some p) stream).map
    fun t => (t.1, replyOf t.2)

def phaseAfter {config : Config} (version : Nat) (p : Phase config) (frames : List Bytes) :
    Option (Phase config) :=
  (protocolReader config version).after (some p) frames

theorem handedOut_mono {config : Config} (version : Nat) (p : Phase config) {s t : Bytes}
    (before : s <+: t) : handedOut version p s <+: handedOut version p t :=
  (StreamReader.transcript_prefix wire config.maxMessageSize _ _ before).map _

section Shadow

variable (d : MessageDecoder)

theorem framesTaken_consumptions (past : List (Event MessageDecoder DecoderOp DecoderReply)) :
    past.flatMap framesTaken = (consumptions past).map Consumption.answer := by
  induction past with
  | nil => rfl
  | cons e past ih =>
      rw [List.flatMap_cons, ih]
      cases taken : consumption e <;> simp [framesTaken, consumptions, taken, Consumption.answer]

theorem framesShown_taken {State : Type} (past : List (Event (StreamReader UInt8 State) (ReaderOp UInt8)
    (ReaderReply UInt8 (Except Exn Message)))) :
    past.flatMap framesShown =
      (StreamReader.taken (replies past)).map fun t => (t.1, replyOf t.2) := by
  induction past with
  | nil => rfl
  | cons e past ih =>
      have first : replies (e :: past) = [(e.op, e.reply)] ++ replies past := rfl
      rw [List.flatMap_cons, ih, first, StreamReader.taken_append, List.map_append]
      rfl

theorem fed_readerCalls (op : DecoderOp) :
    StreamReader.fed (readerCalls d op) = acceptedChunks [(op, (d.step op).1)] := by
  have polls (b : Prop) [Decidable b] :
      StreamReader.fed (if b then [.poll] else [] : List (ReaderOp UInt8)) = [] := by
    split <;> rfl
  cases op with
  | feed data =>
      cases reply : (d.feed data).1 with
      | ok u => simp [readerCalls, reply, step, StreamReader.fed, acceptedChunks, Except.map]
      | error e =>
          simp only [readerCalls, reply, step, acceptedChunks, Except.map]
          split <;> rfl
  | decode | decodeContinuation => exact polls _
  | hasMessage | pendingFrameSize | takeFrame | decodeBytes | skipMessage | decodeHandshake | reset => rfl

theorem abort_readerCalls {op : DecoderOp} (given_up : .abort ∈ readerCalls d op) :
    feedFailed (op, (d.step op).1) = true := by
  have polls (b : Prop) [Decidable b] : .abort ∉ (if b then [.poll] else [] : List (ReaderOp UInt8)) := by
    split <;> simp
  cases op with
  | feed data =>
      cases reply : (d.feed data).1 with
      | ok u => simp [readerCalls, reply] at given_up
      | error e => simp [step, reply, feedFailed, Except.map]
  | decode | decodeContinuation => exact absurd given_up (polls _)
  | hasMessage | pendingFrameSize | takeFrame | decodeBytes | skipMessage | decodeHandshake | reset =>
      simp [readerCalls] at given_up

theorem fed_shadows (ops : List DecoderOp) :
    StreamReader.fed (shadows step readerCalls d ops) = acceptedChunks (replies (history step d ops)) := by
  induction ops generalizing d with
  | nil => rfl
  | cons op ops ih =>
      rw [shadows, StreamReader.fed_append, fed_readerCalls, ih]
      simp [replies, acceptedChunks, event]

theorem abort_shadows {ops : List DecoderOp} (given_up : .abort ∈ shadows step readerCalls d ops) :
    ∃ e ∈ replies (history step d ops), feedFailed e = true := by
  induction ops generalizing d with
  | nil => cases given_up
  | cons op ops ih =>
      rcases List.mem_append.mp given_up with now | later
      · exact ⟨_, List.mem_cons_self, abort_readerCalls d now⟩
      · obtain ⟨e, member, failed⟩ := ih _ later
        exact ⟨e, List.mem_cons_of_mem _ member, failed⟩

end Shadow

theorem phase_of_reachable {config : Config} {d : MessageDecoder}
    (reachable : Reachable step (new config) d) (healthy : d.isPoisoned = false)
    (idle : d.isSkipping = false) (done : d.handshakeDone = true) :
    ∃ version, ∃ p : Phase config,
      InPhase config version p d ∧ d.buffer.queue.Live config.maxMessageSize := by
  obtain ⟨ops, rfl⟩ := reachable
  have books := bookkeeping_run config ops
  have sane : (final step (new config) ops).buffer.poisoned = none := healthy_iff.mp healthy
  obtain ⟨version, spoken⟩ : ∃ version, (final step (new config) ops).version = some version := by
    cases direction : config.isRequest with
    | false => exact ⟨_, (books.sound.client direction).1⟩
    | true => exact Option.ne_none_iff_exists'.mp ((books.sound.server direction).1.mp done)
  have live : (final step (new config) ops).buffer.queue.Live config.maxMessageSize := by
    obtain ⟨_, coherent⟩ := ReadBuffer.coherent_reachable (buffer_reachable ⟨ops, rfl⟩)
    rcases coherent.state sane with live | ⟨discarding, _⟩
    · exact live
    · exact absurd discarding.skips (of_decide_eq_false idle)
  cases expected : (final step (new config) ops).continuation.expected with
  | false => exact ⟨version, .idle, ⟨books.sound, sane, done, spoken, books.idle expected⟩, live⟩
  | true =>
      obtain ⟨response, initial, rest, _, _, _, during, within⟩ := books.active expected
      refine ⟨version, .streaming ⟨initial.columnNames, (initial :: rest).length,
        rowCount (initial :: rest), response, Nat.succ_pos _, within.frames, within.rows⟩,
        ⟨books.sound, sane, done, spoken, during⟩, live⟩

section Run

variable {config : Config} {version : Nat} {d : MessageDecoder} {p : Phase config}

theorem Mirrors.start (held : InPhase config version p d)
    (live : d.buffer.queue.Live config.maxMessageSize) :
    Mirrors config version d ⟨d.buffer.unread, some p⟩ where
  sound := held.sound
  unread := rfl
  stopped := by simp
  running := by
    intro q member
    rw [← Option.some.inj (Option.mem_def.mp member)]
    exact ⟨held, live⟩

theorem mirrors_run {r : StreamReader UInt8 (Phase config)} (mirrors : Mirrors config version d r)
    (ops : List DecoderOp) (calls : ∀ op ∈ ops, streamCall op = true) :
    (consumptions (history step d ops)).map Consumption.answer =
        (StreamReader.taken (replies (history (readerStep config version) r
          (shadows step readerCalls d ops)))).map (fun t => (t.1, replyOf t.2)) ∧
      Mirrors config version (final step d ops)
        (final (readerStep config version) r (shadows step readerCalls d ops)) := by
  have run := stutter_simulation step (readerStep config version) readerCalls framesTaken framesShown
    (Mirrors config version) (fun op => streamCall op = true)
    (fun _ _ _ call mirrors => mirrors.step call) ops calls mirrors
  rw [framesTaken_consumptions, framesShown_taken] at run
  exact run

theorem Mirrors.drained {r : StreamReader UInt8 (Phase config)} (mirrors : Mirrors config version d r)
    (spent : d.isPoisoned = true ∨ d.hasMessage = false) :
    StreamReader.Drained wire config.maxMessageSize r := by
  cases runs : r.state with
  | none => exact Or.inl runs
  | some q =>
      right
      intro f rest found
      obtain ⟨held, live⟩ := mirrors.running q runs
      rcases spent with poisoned | empty
      · rw [healthy_iff.mpr held.healthy] at poisoned
        cases poisoned
      · rw [MessageDecoder.hasMessage, ReadBuffer.hasMessage_matches, ByteQueue.hasMessage,
          ByteQueue.head, live.cap_eq, ReadBuffer.queue_unread, mirrors.unread, found] at empty
        cases empty

structure Conduct (config : Config) (version : Nat) (p : Phase config) (d : MessageDecoder)
    (ops : List DecoderOp) : Prop where
  shown : (consumptions (history step d ops)).map Consumption.answer <+:
    handedOut version p (d.buffer.unread ++ acceptedChunks (replies (history step d ops)))
  joined : ((consumptions (history step d ops)).map Consumption.frame).flatten ++
      (final step d ops).buffer.unread =
    d.buffer.unread ++ acceptedChunks (replies (history step d ops))
  running : (final step d ops).isPoisoned = false →
    ∃ q, phaseAfter version p ((consumptions (history step d ops)).map Consumption.frame) = some q ∧
      InPhase config version q (final step d ops) ∧
      (final step d ops).buffer.queue.Live config.maxMessageSize
  halted : (∀ e ∈ replies (history step d ops), feedFailed e = false) →
    (final step d ops).isPoisoned = true →
    phaseAfter version p ((consumptions (history step d ops)).map Consumption.frame) = none ∨
      wire.head config.maxMessageSize (final step d ops).buffer.unread = .oversized
  complete : (∀ e ∈ replies (history step d ops), feedFailed e = false) →
    (final step d ops).isPoisoned = true ∨ (final step d ops).hasMessage = false →
    (consumptions (history step d ops)).map Consumption.answer =
      handedOut version p (d.buffer.unread ++ acceptedChunks (replies (history step d ops)))

theorem conduct_of_phase (held : InPhase config version p d)
    (live : d.buffer.queue.Live config.maxMessageSize) (ops : List DecoderOp)
    (calls : ∀ op ∈ ops, streamCall op = true) : Conduct config version p d ops := by
  obtain ⟨shown, mirrors⟩ := mirrors_run (Mirrors.start held live) ops calls
  obtain ⟨reading, spent⟩ := @StreamReader.reading_run _ _ _ wire config.maxMessageSize
    (protocolReader config version) ⟨d.buffer.unread, some p⟩ (shadows step readerCalls d ops)
  rw [fed_shadows] at reading
  have frames : (consumptions (history step d ops)).map Consumption.frame =
      (StreamReader.taken (replies (history (readerStep config version) ⟨d.buffer.unread, some p⟩
        (shadows step readerCalls d ops)))).map Prod.fst := by
    have first := congrArg (List.map Prod.fst) shown
    simpa [List.map_map, Function.comp_def, Consumption.answer] using first
  have kept (accepted : ∀ e ∈ replies (history step d ops), feedFailed e = false) :
      .abort ∉ shadows step readerCalls d ops := by
    intro given_up
    obtain ⟨e, member, failed⟩ := abort_shadows d given_up
    rw [accepted e member] at failed
    cases failed
  constructor
  · rw [shown]
    exact reading.prefix_transcript.map _
  · rw [frames, mirrors.unread]
    exact reading.joined
  · intro running
    cases state : (final (readerStep config version) ⟨d.buffer.unread, some p⟩
        (shadows step readerCalls d ops)).state with
    | none => exact absurd (healthy_iff.mp running) (mirrors.stopped state)
    | some q =>
        refine ⟨q, ?_, mirrors.running q state⟩
        rw [frames]
        exact reading.state q state
  · intro accepted poisoned
    rw [frames, mirrors.unread]
    apply spent (Option.some_ne_none p) (kept accepted)
    by_contra runs
    obtain ⟨q, state⟩ := Option.ne_none_iff_exists'.mp runs
    rw [healthy_iff.mpr (mirrors.running q state).1.healthy] at poisoned
    cases poisoned
  · intro accepted spent
    have complete := StreamReader.drained_complete (M := protocolReader config version)
      ⟨d.buffer.unread, some p⟩ (Option.some_ne_none p) _ (kept accepted) (mirrors.drained spent)
    rw [fed_shadows] at complete
    rw [shown, complete]
    rfl

theorem Conduct.not_halted {first second : List DecoderOp} (halts : Conduct config version p d first)
    (runs : Conduct config version p d second)
    (accepted : ∀ e ∈ replies (history step d first), feedFailed e = false)
    (poisoned : (final step d first).isPoisoned = true)
    (frames : (consumptions (history step d first)).map Consumption.frame =
      (consumptions (history step d second)).map Consumption.frame)
    (rest : (final step d first).buffer.unread = (final step d second).buffer.unread)
    (spent : (final step d second).isPoisoned = true ∨ (final step d second).hasMessage = false) :
    (final step d second).isPoisoned = true := by
  by_contra sane
  obtain ⟨q, after, _, live⟩ := runs.running (Bool.eq_false_iff.mpr sane)
  rcases halts.halted accepted poisoned with finished | large
  · rw [frames, after] at finished
    cases finished
  · have empty := spent.resolve_left sane
    rw [MessageDecoder.hasMessage, ReadBuffer.hasMessage_matches, ByteQueue.hasMessage, ByteQueue.head,
      live.cap_eq, ReadBuffer.queue_unread, ← rest, large] at empty
    cases empty

end Run

/-- Past the handshake a decoder refines the reader of its phase. Over any run, whatever the bytes:
the frames it takes, with what the calls return, are the first that the reader hands out; no byte is
lost or read twice; while it is not poisoned its fields are those of the reader's phase; and once no
message is left, or poisoned by a frame, it has handed out everything. -/
theorem decoder_refines_reader (config : Config) (d : MessageDecoder)
    (reachable : Reachable step (new config) d) (healthy : d.isPoisoned = false)
    (idle : d.isSkipping = false) (done : d.handshakeDone = true) (ops : List DecoderOp)
    (calls : ∀ op ∈ ops, streamCall op = true) :
    let past := history step d ops
    let last := final step d ops
    let stream := d.buffer.unread ++ acceptedChunks (replies past)
    let log := consumptions past
    ∃ version ∈ d.version, ∃ p : Phase config, d.continuation = p.continuation ∧
      log.map Consumption.answer <+: handedOut version p stream ∧
      (log.map Consumption.frame).flatten ++ last.buffer.unread = stream ∧
      (last.isPoisoned = false → last.version = some version ∧ last.handshakeDone = true ∧
        ∃ q, phaseAfter version p (log.map Consumption.frame) = some q ∧
          last.continuation = q.continuation) ∧
      ((∀ e ∈ replies past, feedFailed e = false) → last.isPoisoned = true ∨ last.hasMessage = false →
        log.map Consumption.answer = handedOut version p stream) := by
  intro past last stream log
  obtain ⟨version, p, held, live⟩ := phase_of_reachable reachable healthy idle done
  have conduct := conduct_of_phase held live ops calls
  refine ⟨version, held.version_eq, p, held.continuation_eq, conduct.shown, conduct.joined,
    fun sane => ?_, conduct.complete⟩
  obtain ⟨q, after, kept, _⟩ := conduct.running sane
  exact ⟨kept.version_eq, kept.done, q, after, kept.continuation_eq⟩

/-- An EMPTY frame, which a client reads between responses and inside a result set. -/
def emptyFrame : Bytes := [1, 0, 0, 0, 8, 0, 0, 0] ++ toLE 8 0

theorem decoder_refines_reader_split_frame :
    let ops : List DecoderOp := [.feed (emptyFrame.take 5), .decode, .feed (emptyFrame.drop 5), .decode]
    let log := consumptions (history step (new .default) ops)
    log.length = 1 ∧ ∃ version, ∃ p : Phase .default,
      log.map Consumption.answer = handedOut version p emptyFrame := by
  intro ops log
  obtain ⟨version, _, p, _, _, _, _, complete⟩ := decoder_refines_reader .default (new .default)
    (reachable_start _ _) rfl rfl rfl ops (by simp [ops, streamCall])
  exact ⟨by decide, version, p, complete (by decide) (Or.inr (by decide))⟩

/-- Two schedules for the same bytes, from the same state at work: neither hands out anything the other could
not, and once nothing is left they have handed out the same, and both are poisoned or stand in the same state. -/
theorem schedules_agree (config : Config) (d : MessageDecoder)
    (reachable : Reachable step (new config) d) (healthy : d.isPoisoned = false)
    (idle : d.isSkipping = false) (done : d.handshakeDone = true) (first second : List DecoderOp)
    (calls : ∀ op ∈ first ++ second, streamCall op = true)
    (before : acceptedChunks (replies (history step d first)) <+:
      acceptedChunks (replies (history step d second))) :
    let log (ops : List DecoderOp) := (consumptions (history step d ops)).map Consumption.answer
    let last (ops : List DecoderOp) := final step d ops
    (log first <+: log second ∨ log second <+: log first) ∧
      ((∀ ops ∈ [first, second], (∀ e ∈ replies (history step d ops), feedFailed e = false) ∧
          ((last ops).isPoisoned = true ∨ (last ops).hasMessage = false)) →
        acceptedChunks (replies (history step d first)) =
          acceptedChunks (replies (history step d second)) →
        log first = log second ∧ (last first).buffer.unread = (last second).buffer.unread ∧
          (last first).isPoisoned = (last second).isPoisoned ∧
          ((last first).isPoisoned = false → (last first).continuation = (last second).continuation ∧
            (last first).version = (last second).version ∧
            (last first).handshakeDone = (last second).handshakeDone)) := by
  intro log last
  obtain ⟨version, p, held, live⟩ := phase_of_reachable reachable healthy idle done
  have one := conduct_of_phase held live first fun op member => calls op (List.mem_append_left _ member)
  have two := conduct_of_phase held live second fun op member => calls op (List.mem_append_right _ member)
  constructor
  · apply List.prefix_or_prefix_of_prefix _ two.shown
    exact one.shown.trans (handedOut_mono version p ((List.prefix_append_right_inj _).mpr before))
  · intro spent same
    obtain ⟨accepted, out⟩ := spent first (by simp)
    obtain ⟨accepted', out'⟩ := spent second (by simp)
    have logs : log first = log second := by
      calc log first = handedOut version p (d.buffer.unread ++ _) := one.complete accepted out
        _ = handedOut version p (d.buffer.unread ++ _) := by rw [same]
        _ = log second := (two.complete accepted' out').symm
    have frames : (consumptions (history step d first)).map Consumption.frame =
        (consumptions (history step d second)).map Consumption.frame := by
      have firsts := congrArg (List.map Prod.fst) logs
      simpa [log, List.map_map, Function.comp_def, Consumption.answer] using firsts
    have rest : (last first).buffer.unread = (last second).buffer.unread := by
      have joined := one.joined.trans ((congrArg _ same).trans two.joined.symm)
      rw [frames] at joined
      exact List.append_cancel_left joined
    have poison : (last first).isPoisoned = (last second).isPoisoned := by
      rw [Bool.eq_iff_iff]
      constructor
      · intro poisoned
        exact one.not_halted two accepted poisoned frames rest out'
      · intro poisoned
        exact two.not_halted one accepted' poisoned frames.symm rest.symm out
    refine ⟨logs, rest, poison, fun sane => ?_⟩
    obtain ⟨q, after, kept, _⟩ := one.running sane
    obtain ⟨q', after', kept', _⟩ := two.running (poison ▸ sane)
    rw [frames, after'] at after
    obtain rfl := Option.some.inj after
    exact ⟨kept.continuation_eq.trans kept'.continuation_eq.symm,
      kept.version_eq.trans kept'.version_eq.symm, kept.done.trans kept'.done.symm⟩

theorem schedules_agree_split_frame :
    let split : List DecoderOp := [.feed (emptyFrame.take 5), .decode, .feed (emptyFrame.drop 5), .decode]
    let whole : List DecoderOp := [.feed emptyFrame, .hasMessage, .decodeContinuation, .decode]
    (consumptions (history step (new .default) split)).map Consumption.answer =
      (consumptions (history step (new .default) whole)).map Consumption.answer := by
  intro split whole
  have agree := (schedules_agree .default (new .default) (reachable_start _ _) rfl rfl rfl split whole
    (by simp [split, whole, streamCall]) (by decide)).2
  exact (agree (by decide) (by decide)).1

/-- How a caller's loop ends: the messages it got, the error that broke it off, and the decoder. -/
structure LoopEnd where
  messages : List Message
  error : Option Exn
  decoder : MessageDecoder

/-- A caller's loop: `while decoder.has_message()`, the call that is due. A call that returns `None`
goes round once more. -/
def MessageDecoder.drain : Nat → MessageDecoder → Option LoopEnd
  | 0, _ => none
  | turns + 1, d =>
    if d.hasMessage then
      match d.step d.due with
      | (.error e, d) => some ⟨[], some e, d⟩
      | (.ok (.message (some m)), d) =>
        (drain turns d).map fun rest => { rest with messages := m :: rest.messages }
      | (.ok _, d) => drain turns d
    else some ⟨[], none, d⟩

section Loop

variable {config : Config} {version : Nat} {p : Phase config}

theorem handedOut_of_frame {s f rest : Bytes} (found : wire.head config.maxMessageSize s = .frame f rest) :
    handedOut version p s = (f, replyOf (p.takes version f).1) ::
      match (p.takes version f).2 with
      | none => []
      | some q => handedOut version q rest := by
  rw [handedOut, StreamReader.transcript, wire.cut_of_frame _ found, FrameMachine.answers, List.map_cons]
  cases after : (p.takes version f).2 with
  | none => simp [protocolReader, after]
  | some q => simp [protocolReader, after, handedOut, StreamReader.transcript]

theorem handedOut_of_not_frame {s : Bytes}
    (missing : ∀ f rest, wire.head config.maxMessageSize s ≠ .frame f rest) :
    handedOut version p s = [] := by
  rw [handedOut, StreamReader.transcript, wire.cut_of_not_frame _ missing, FrameMachine.answers_nil]
  rfl

theorem InPhase.due_step {d : MessageDecoder} (held : InPhase config version p d)
    (live : d.buffer.queue.Live config.maxMessageSize) :
    match wire.head config.maxMessageSize d.buffer.unread with
    | .incomplete => d.hasMessage = false
    | .oversized => d.hasMessage = true ∧ (d.step d.due).1 =
        .error (ReadBuffer.tooLarge (wire.size d.buffer.unread) config.maxMessageSize)
    | .frame f rest => d.hasMessage = true ∧ (d.step d.due).1 = replyOf (p.takes version f).1 ∧
        ∀ q ∈ (p.takes version f).2, InPhase config version q (d.step d.due).2 ∧
          (d.step d.due).2.buffer.queue.Live config.maxMessageSize ∧
          (d.step d.due).2.buffer.unread = rest := by
  have has : d.hasMessage = d.buffer.queue.hasMessage := ReadBuffer.hasMessage_matches d.buffer
  rw [ByteQueue.hasMessage, ByteQueue.head, live.cap_eq, ReadBuffer.queue_unread] at has
  obtain ⟨reply, _, next⟩ := (Mirrors.start held live).poll (Option.some_ne_none p)
  simp only [StreamReader.step, StreamReader.poll] at reply next
  cases found : wire.head config.maxMessageSize d.buffer.unread with
  | incomplete => rw [has, found]
  | oversized =>
      rw [found] at has reply
      exact ⟨by simpa using has, reply⟩
  | frame f rest =>
      rw [found] at has reply next
      exact ⟨has, reply, fun q member =>
        ⟨(next.running q member).1, (next.running q member).2, next.unread⟩⟩

/-- The loop ends within a turn for each frame that waits, and one more. It has handed out all there
is, or all up to the first frame that is refused or the first header that claims too much. -/
theorem drain_of_phase {d : MessageDecoder} (held : InPhase config version p d)
    (live : d.buffer.queue.Live config.maxMessageSize) (turns : Nat)
    (enough : (wire.cut config.maxMessageSize d.buffer.unread).1.length < turns) :
    ∃ loop, d.drain turns = some loop ∧
      match loop.error with
      | none => (handedOut version p d.buffer.unread).map Prod.snd = loop.messages.map returned ∧
          loop.decoder.hasMessage = false ∧ loop.decoder.isPoisoned = false
      | some e => loop.messages.map returned ++ [.error e] <+:
            (handedOut version p d.buffer.unread).map Prod.snd ∨
          (handedOut version p d.buffer.unread).map Prod.snd = loop.messages.map returned ∧
            ∃ size, config.maxMessageSize < size ∧
              e = ReadBuffer.tooLarge size config.maxMessageSize := by
  induction turns generalizing d p with
  | zero => omega
  | succ turns ih =>
      have due := held.due_step live
      rw [MessageDecoder.drain]
      cases found : wire.head config.maxMessageSize d.buffer.unread with
      | incomplete =>
          rw [found] at due
          rw [handedOut_of_not_frame (by simp [found]), if_neg (by simp [due])]
          exact ⟨_, rfl, rfl, due, healthy_iff.mpr held.healthy⟩
      | oversized =>
          rw [found] at due
          obtain ⟨has, raised⟩ := due
          have large := ((wire.head_oversized_iff _).mp found).2
          rw [handedOut_of_not_frame (by simp [found]), if_pos has]
          rcases stepped : d.step d.due with ⟨reply, d'⟩
          rw [stepped] at raised
          obtain rfl : reply = _ := raised
          exact ⟨_, rfl, Or.inr ⟨rfl, _, large, rfl⟩⟩
      | frame f rest =>
          rw [found] at due
          obtain ⟨has, answer, next⟩ := due
          rw [wire.cut_of_frame _ found, List.length_cons] at enough
          rw [handedOut_of_frame found, if_pos has]
          rcases stepped : d.step d.due with ⟨reply, d'⟩
          rw [stepped] at answer next
          obtain rfl : reply = _ := answer
          cases output : (p.takes version f).1 with
          | error e =>
              refine ⟨⟨[], some e, d'⟩, rfl, Or.inl ?_⟩
              simp [replyOf, Except.map]
          | ok m =>
              obtain ⟨_, q, after⟩ := Phase.takes_ok output
              obtain ⟨held', live', unread⟩ := next q (by simp [after])
              obtain ⟨loop, drained, ends⟩ := ih held' live' (by rw [unread]; omega)
              refine ⟨{ loop with messages := m :: loop.messages }, ?_, ?_⟩
              · simp [replyOf, Except.map, drained]
              · rw [unread] at ends
                simp only [after, List.map_cons]
                have first : replyOf (.ok m) = returned m := rfl
                cases stop : loop.error with
                | none =>
                    rw [stop] at ends
                    obtain ⟨all, others⟩ := ends
                    exact ⟨by rw [first, all], others⟩
                | some e =>
                    rw [stop] at ends
                    rcases ends with refused | ⟨all, large⟩
                    · left
                      rw [first, List.cons_append]
                      exact List.cons_prefix_cons.mpr ⟨rfl, refused⟩
                    · exact Or.inr ⟨by rw [first, all], large⟩

end Loop

/-- The loop of a caller ends, within a turn for every eight bytes that wait and one more, and it never
goes round empty-handed: it returns all messages up to the first refusal, with that refusal. -/
theorem drain_complete (config : Config) (d : MessageDecoder) (reachable : Reachable step (new config) d)
    (healthy : d.isPoisoned = false) (idle : d.isSkipping = false) (done : d.handshakeDone = true)
    (turns : Nat) (enough : d.buffer.available / headerSize < turns) :
    ∃ version ∈ d.version, ∃ p : Phase config, d.continuation = p.continuation ∧
      let answers := (handedOut version p d.buffer.unread).map Prod.snd
      ∃ loop, d.drain turns = some loop ∧
        match loop.error with
        | none => answers = loop.messages.map returned ∧ loop.decoder.hasMessage = false ∧
            loop.decoder.isPoisoned = false
        | some e => loop.messages.map returned ++ [.error e] <+: answers ∨
            answers = loop.messages.map returned ∧ ∃ size, config.maxMessageSize < size ∧
              e = ReadBuffer.tooLarge size config.maxMessageSize := by
  obtain ⟨version, p, held, live⟩ := phase_of_reachable reachable healthy idle done
  refine ⟨version, held.version_eq, p, held.continuation_eq, drain_of_phase held live turns ?_⟩
  have few := wire.cut_length_le config.maxMessageSize d.buffer.unread
  rw [ReadBuffer.available_eq] at enough
  exact lt_of_le_of_lt ((Nat.le_div_iff_mul_le (by decide)).mpr few) enough

theorem drain_complete_two_frames :
    ∃ loop, (final step (new .default) [.feed (emptyFrame ++ emptyFrame)]).drain 5 = some loop ∧
      ∃ version, ∃ p : Phase .default, loop.messages.map returned <+:
        (handedOut version p (emptyFrame ++ emptyFrame)).map Prod.snd := by
  obtain ⟨version, _, p, _, loop, drained, ends⟩ := drain_complete .default
    (final step (new .default) [.feed (emptyFrame ++ emptyFrame)]) ⟨_, rfl⟩ (by decide) (by decide)
    (by decide) 5 (by decide)
  refine ⟨loop, drained, version, p, ?_⟩
  have unread : (final step (new .default) [.feed (emptyFrame ++ emptyFrame)]).buffer.unread =
      emptyFrame ++ emptyFrame := by decide
  rw [unread] at ends
  cases stop : loop.error with
  | none =>
      rw [stop] at ends
      rw [ends.1]
  | some e =>
      rw [stop] at ends
      rcases ends with refused | ⟨all, _⟩
      · exact (List.prefix_append _ _).trans refused
      · rw [all]

end DqliteWire
