import DqliteWire.Bookkeeping

/-! A decoder at work on a stream of complete frames. The bytes may arrive in any chunks; what a
frame does to the decoder depends on the frame and on the fields outside the buffer only, so an
invariant over the consumed frames needs a step lemma for one frame and nothing about bytes. -/

namespace DqliteWire

open WireLib WireLib.Utf8 MessageDecoder

theorem ByteQueue.Live.reject_eq {cap : Nat} {q : ByteQueue} (live : q.Live cap) (error : Exn) :
    q.reject error = if q.unread = [] then q else { q with poisoned := some error } := by
  rw [reject, if_neg (by rw [live.idle]; exact lt_irrefl 0)]
  by_cases empty : q.unread = []
  · rw [if_pos empty, if_neg (not_not.mpr empty)]
  · rw [if_neg empty, if_pos empty]

/-- What `decode` or `decode_continuation`, whichever is due, makes of the frame it has read. -/
def MessageDecoder.accept (d : MessageDecoder) (data : Bytes) :
    Except Exn (Option Message) × MessageDecoder :=
  if d.continuation.expected then
    match d.continueStream data with
    | (.ok message, d) => (.ok (some message), d)
    | (.error e, d) => (.error e, d.continuationRaised e)
  else
    match d.startMessage data with
    | (.ok message, d) => (.ok (some message), d)
    | (.error e, d) => (.error e, d.poison (poisonCause "decode" e))

def MessageDecoder.due (d : MessageDecoder) : DecoderOp :=
  if d.continuation.expected then .decodeContinuation else .decode

namespace MessageDecoder

variable {d : MessageDecoder} {b : ReadBuffer}

theorem due_waits (healthy : d.buffer.poisoned = none) (done : d.handshakeDone = true)
    (read : d.buffer.readMessage = (.ok none, b)) :
    d.step d.due = (.ok (.message none), d.withBuffer b) := by
  have checked := ReadBuffer.checkPoisoned_ok.mpr healthy
  cases expected : d.continuation.expected with
  | true =>
      simp only [due, expected, if_true, step, decodeContinuation, checked, Bool.true_eq_false,
        if_false, read]
      rfl
  | false =>
      simp only [due, expected, Bool.false_eq_true, if_false, step, decode, checked, done,
        Bool.true_eq_false, read]
      rfl

theorem due_reads_frame (healthy : d.buffer.poisoned = none) (done : d.handshakeDone = true)
    {data : Bytes} (read : d.buffer.readMessage = (.ok (some data), b)) :
    d.step d.due = (((d.withBuffer b).accept data).1.map .message,
      ((d.withBuffer b).accept data).2) := by
  have checked := ReadBuffer.checkPoisoned_ok.mpr healthy
  cases expected : d.continuation.expected with
  | true =>
      cases stream : (d.withBuffer b).continueStream data with
      | mk result after =>
          cases result <;>
            simp [due, expected, step, decodeContinuation, checked, read, accept, stream, Except.map]
  | false =>
      cases start : (d.withBuffer b).startMessage data with
      | mk result after =>
          cases result <;>
            simp [due, expected, step, decode, checked, done, read, accept, start, Except.map]

theorem not_due_refused {op : DecoderOp} (reads : op = .decode ∨ op = .decodeContinuation)
    (other : op ≠ d.due) : ∃ e, d.step op = (.error e, d) := by
  cases checked : d.buffer.checkPoisoned with
  | error e =>
      rcases reads with rfl | rfl
      · exact ⟨e, by simp [step, decode, checked, Except.map]⟩
      · exact ⟨e, by simp [step, decodeContinuation, checked, Except.map]⟩
  | ok _ =>
      cases expected : d.continuation.expected with
      | true =>
          rcases reads with rfl | rfl
          · simp only [step, decode, checked, expected, if_true]
            exact ⟨_, rfl⟩
          · exact absurd (by simp [due, expected]) other
      | false =>
          rcases reads with rfl | rfl
          · exact absurd (by simp [due, expected]) other
          · simp only [step, decodeContinuation, checked, expected, if_true]
            exact ⟨_, rfl⟩

theorem decode_pending (pending : d.handshakeDone = false) : ∃ e, d.step .decode = (.error e, d) := by
  cases checked : d.buffer.checkPoisoned with
  | error e => exact ⟨e, by simp [step, decode, checked, Except.map]⟩
  | ok _ =>
      cases expected : d.continuation.expected with
      | true =>
          simp only [step, decode, checked, expected, if_true]
          exact ⟨_, rfl⟩
      | false =>
          simp only [step, decode, checked, expected, Bool.false_eq_true, if_false, pending, if_true]
          exact ⟨_, rfl⟩

theorem accept_buffer (healthy : d.buffer.poisoned = none) (done : d.handshakeDone = true)
    (data : Bytes) : (d.accept data).2.buffer = d.buffer ∨
      ∃ e, (d.accept data).2.buffer = d.buffer.poison e := by
  unfold accept
  split
  · rcases continueStream_cases d data with
      ⟨e, d', stepped, body, same⟩ | ⟨_, _, stepped⟩ | ⟨_, _, _, stepped⟩ | ⟨_, _, stepped⟩ |
      ⟨_, _, _, ⟨_, stepped⟩ | ⟨_, stepped⟩⟩
    · simp only [stepped]
      rcases raised_cases body same with ⟨_, rfl, after⟩ | after
      · exact Or.inl (by rw [after, finalize_buffer])
      · exact Or.inr ⟨_, by rw [after, poison_buffer, finalize_buffer]⟩
    · simp only [stepped]
      exact Or.inl (finalize_buffer d)
    · simp only [stepped]
      exact Or.inl (finalize_buffer d)
    · simp only [stepped]
      exact Or.inl (finalize_buffer d)
    · simp only [stepped]
      exact Or.inl rfl
    · simp only [stepped]
      exact Or.inl (finalize_buffer d)
  · rcases startMessage_cases d healthy done data with
      ⟨_, stepped, _⟩ | ⟨_, stepped, _⟩ | ⟨_, stepped, _⟩
    · rw [stepped]
      exact Or.inr ⟨_, rfl⟩
    · rw [stepped]
      exact Or.inl rfl
    · rw [stepped]
      exact Or.inl rfl

theorem accept_start_fields (idle : d.continuation.expected = false)
    (healthy : d.buffer.poisoned = none) (done : d.handshakeDone = true) (data : Bytes) :
    (d.accept data).2.handshakeDone = true ∧ (d.accept data).2.version = d.version := by
  simp only [accept, idle, Bool.false_eq_true, if_false]
  rcases startMessage_cases d healthy done data with
    ⟨_, stepped, _⟩ | ⟨_, stepped, _⟩ | ⟨_, stepped, _⟩ <;>
  · rw [stepped]
    exact ⟨done, rfl⟩

theorem decodeHandshake_cases (bounded : d.buffer.Bounded) (healthy : d.buffer.poisoned = none)
    (pending : d.handshakeDone = false) :
    (d.buffer.unread.length < 8 ∧ d.decodeHandshake = (.ok none, d)) ∨
      (8 ≤ d.buffer.unread.length ∧ fromLE (d.buffer.unread.take 8) ∉ supportedVersions ∧
        d.decodeHandshake = (.error (.handshakeError ["Unsupported protocol version: ",
          .hex (fromLE (d.buffer.unread.take 8))]), d)) ∨
      (8 ≤ d.buffer.unread.length ∧ fromLE (d.buffer.unread.take 8) ∈ supportedVersions ∧
        ∃ b : ReadBuffer, b.Bounded ∧
          b.queue = { d.buffer.queue with unread := d.buffer.unread.drop 8 } ∧
          d.decodeHandshake = (.ok (some (fromLE (d.buffer.unread.take 8))),
            { d.withBuffer b with
              version := some (fromLE (d.buffer.unread.take 8)), handshakeDone := true })) := by
  have peek := ReadBuffer.peekBytes_matches d.buffer 8
  obtain ⟨reply, kept, next⟩ := ReadBuffer.readBytes_matches bounded 8
  have queue_healthy : d.buffer.queue.poisoned = none := healthy
  simp only [ByteQueue.peekBytes, ByteQueue.readBytes, queue_healthy] at peek reply next
  unfold decodeHandshake
  rw [if_neg (by simp [pending]), peek]
  by_cases short : d.buffer.unread.length < 8
  · left
    refine ⟨short, ?_⟩
    rw [if_neg (by decide), if_pos (by simpa using short)]
  · right
    have eight : ¬ d.buffer.queue.unread.length < (8 : Int).toNat := by simpa using short
    rw [if_neg (by decide), if_neg eight] at reply next ⊢
    by_cases supported : fromLE (d.buffer.unread.take 8) ∈ supportedVersions
    · right
      refine ⟨not_lt.mp short, supported, (d.buffer.readBytes 8).2, kept, ?_, ?_⟩
      · rw [next, ← queue_healthy]
        rfl
      · have consumed : d.buffer.readBytes 8 =
            (.ok (some (d.buffer.unread.take 8)), (d.buffer.readBytes 8).2) := Prod.ext reply rfl
        rw [consumed]
        exact if_neg (not_not.mpr supported)
    · left
      exact ⟨not_lt.mp short, supported, if_pos supported⟩

end MessageDecoder

/-- A frame taken off the buffer by one of the two decode calls, with what the call returned. -/
structure Consumption where
  frame : Bytes
  op : DecoderOp
  reply : DecoderReply
  deriving DecidableEq, Repr

/-- The frame a call took: the bytes by which its buffer got shorter. -/
def consumption (e : Event MessageDecoder DecoderOp DecoderReply) : Option Consumption :=
  let took := e.before.buffer.available - e.after.buffer.available
  if (e.op = .decode ∨ e.op = .decodeContinuation) ∧ 0 < took then
    some ⟨e.before.buffer.unread.take took, e.op, e.reply⟩
  else none

def consumptions (past : List (Event MessageDecoder DecoderOp DecoderReply)) : List Consumption :=
  past.filterMap consumption

theorem consumptions_concat (past : List (Event MessageDecoder DecoderOp DecoderReply))
    (e : Event MessageDecoder DecoderOp DecoderReply) :
    consumptions (past ++ [e]) = consumptions past ++ (consumption e).toList := by
  simp only [consumptions, List.filterMap_append, List.filterMap_cons, List.filterMap_nil]
  cases consumption e <;> rfl

def acceptedChunks (past : List (DecoderOp × DecoderReply)) : Bytes :=
  (past.map fun e => match e with
    | (.feed data, .ok _) => data
    | _ => []).flatten

theorem acceptedChunks_concat (past : List (DecoderOp × DecoderReply))
    (e : DecoderOp × DecoderReply) :
    acceptedChunks (past ++ [e]) = acceptedChunks past ++ acceptedChunks [e] := by
  simp [acceptedChunks]

def feedFailed : DecoderOp × DecoderReply → Bool
  | (.feed _, .error _) => true
  | _ => false

/-- The calls that leave the framing of the stream alone. -/
def streamCall : DecoderOp → Bool
  | .takeFrame | .skipMessage | .reset => false
  | _ => true

def greeting (config : Config) (version : Nat) : Bytes :=
  if config.isRequest then MessageEncoder.encodeHandshake version else []

theorem supported_lt {version : Nat} (known : version ∈ supportedVersions) : version < 256 ^ 8 := by
  revert known
  simp only [supportedVersions, List.mem_cons, List.not_mem_nil, or_false]
  rintro (rfl | rfl) <;> decide

/-- Where a healthy decoder stands: the frames of `log` are consumed, and what has arrived of the
others waits in the buffer. -/
structure Standing (config : Config) (version : Nat) (frames : List Bytes) (accepted : Bytes)
    (log : List Consumption) (d : MessageDecoder) : Prop where
  books : ∃ streams, Bookkeeping config streams d
  live : d.buffer.queue.Live config.maxMessageSize
  taken : log.map Consumption.frame <+: frames
  pending : d.handshakeDone = false → log = [] ∧ d.buffer.unread = accepted
  joined : d.handshakeDone = true →
    greeting config version ++ (log.map Consumption.frame).flatten ++ d.buffer.unread = accepted

namespace Standing

variable {config : Config} {version : Nat} {frames : List Bytes} {accepted : Bytes}
  {log : List Consumption} {d : MessageDecoder}

theorem sound (standing : Standing config version frames accepted log d) : d.Sound config := by
  obtain ⟨_, books⟩ := standing.books
  exact books.sound

theorem healthy (standing : Standing config version frames accepted log d) :
    d.buffer.poisoned = none := standing.live.healthy

theorem read (standing : Standing config version frames accepted log d)
    (legal : ∀ f ∈ frames, wire.IsFrame config.maxMessageSize f)
    (before : accepted <+: greeting config version ++ frames.flatten)
    (done : d.handshakeDone = true) :
    ∃ later, frames = log.map Consumption.frame ++ later ∧
      ((∃ b, d.buffer.readMessage = (.ok none, b) ∧ b.Bounded ∧ b.queue = d.buffer.queue ∧
          ∀ f ∈ later.head?, d.buffer.unread.length < f.length) ∨
        ∃ f others rest b, later = f :: others ∧ d.buffer.unread = f ++ rest ∧
          d.buffer.readMessage = (.ok (some f), b) ∧ b.Bounded ∧
          b.queue = { d.buffer.queue with unread := rest }) := by
  have consumed : ∀ f ∈ log.map Consumption.frame, wire.IsFrame config.maxMessageSize f :=
    fun f member => legal f (standing.taken.subset member)
  have joined := standing.joined done
  rw [← joined, List.append_assoc, List.prefix_append_right_inj] at before
  obtain ⟨later, split, inside⟩ :=
    wire.taken_split config.maxMessageSize consumed legal d.buffer.unread before
  have others : ∀ f ∈ later, wire.IsFrame config.maxMessageSize f := fun f member =>
    legal f (by simp [split, member])
  obtain ⟨b, kept, read⟩ :=
    ReadBuffer.readMessage_live standing.sound.buffer.bounded standing.live
  refine ⟨later, split, ?_⟩
  cases found : wire.head config.maxMessageSize d.buffer.unread with
  | oversized => exact absurd found (wire.head_ne_oversized _ others inside)
  | incomplete =>
      rw [found] at read
      refine Or.inl ⟨b, read.1, kept, read.2, fun f member => ?_⟩
      by_contra enough
      obtain ⟨tail, rfl⟩ : ∃ tail, later = f :: tail := by
        cases later with
        | nil => cases member
        | cons g tail =>
            cases member
            exact ⟨tail, rfl⟩
      rw [List.flatten_cons] at inside
      obtain ⟨rest, same⟩ : f <+: d.buffer.unread :=
        List.prefix_of_prefix_length_le (List.prefix_append _ _) inside (by omega)
      rw [← same, wire.head_append_frame _ (others f (by simp))] at found
      cases found
  | frame f rest =>
      rw [found] at read
      obtain ⟨whole, shape⟩ := wire.head_frame _ found
      have one : [f].flatten ++ rest <+: later.flatten := by
        rw [List.flatten_singleton, ← whole]
        exact inside
      obtain ⟨tail, same, _⟩ := wire.taken_split _ (by simpa using shape) others rest one
      exact Or.inr ⟨f, tail, rest, b, same, whole, read.1, kept, read.2⟩

theorem next (standing : Standing config version frames accepted log d)
    (legal : ∀ f ∈ frames, wire.IsFrame config.maxMessageSize f)
    (before : accepted <+: greeting config version ++ frames.flatten)
    (done : d.handshakeDone = true) :
    (∃ b, d.step d.due = (.ok (.message none), d.withBuffer b) ∧ b.poisoned = none ∧
        ∀ f ∈ frames[log.length]?, accepted.length <
          (greeting config version).length + (frames.take (log.length + 1)).flatten.length) ∨
      ∃ f others b, frames = log.map Consumption.frame ++ f :: others ∧
        frames[log.length]? = some f ∧ (greeting config version).length +
          (frames.take (log.length + 1)).flatten.length ≤ accepted.length ∧
        b.poisoned = none ∧ (∃ streams, Bookkeeping config streams (d.withBuffer b)) ∧
        d.step d.due = (((d.withBuffer b).accept f).1.map .message,
          ((d.withBuffer b).accept f).2) := by
  obtain ⟨streams, books⟩ := standing.books
  have healthy := standing.healthy
  have arrived := congrArg List.length (standing.joined done)
  simp only [List.length_append] at arrived
  have position : (log.map Consumption.frame).length = log.length := List.length_map _
  have reach (f : Bytes) (others : List Bytes)
      (split : frames = log.map Consumption.frame ++ f :: others) :
      frames[log.length]? = some f ∧ (frames.take (log.length + 1)).flatten.length =
        (log.map Consumption.frame).flatten.length + f.length := by
    rw [split, ← position]
    refine ⟨by simp, ?_⟩
    rw [List.take_append, List.take_of_length_le (Nat.le_succ _)]
    simp
  obtain ⟨later, split, ⟨b, read, _, queue, lacking⟩ |
    ⟨f, others, rest, b, rfl, unread, read, kept, queue⟩⟩ := standing.read legal before done
  · refine Or.inl ⟨b, due_waits healthy done read,
      (congrArg ByteQueue.poisoned queue).trans healthy, fun f member => ?_⟩
    obtain ⟨others, rfl⟩ : ∃ others, later = f :: others := by
      rw [split, ← position, List.getElem?_append_right le_rfl, Nat.sub_self] at member
      cases later with
      | nil => cases member
      | cons g others =>
          cases member
          exact ⟨others, rfl⟩
    have short := lacking f rfl
    rw [(reach f others split).2]
    omega
  · have cap : b.maxMessageSize = config.maxMessageSize :=
      (congrArg ByteQueue.cap queue).trans standing.live.cap_eq
    obtain ⟨found, length⟩ := reach f others split
    refine Or.inr ⟨f, others, b, split, found, ?_,
      (congrArg ByteQueue.poisoned queue).trans healthy,
      ⟨streams, books.keep (books.sound.withBuffer ⟨kept, cap⟩) rfl⟩,
      due_reads_frame healthy done read⟩
    rw [unread, List.length_append] at arrived
    omega

theorem keep (standing : Standing config version frames accepted log d) {d' : MessageDecoder}
    (books : ∃ streams, Bookkeeping config streams d') (queue : d'.buffer.queue = d.buffer.queue)
    (same : d'.handshakeDone = d.handshakeDone) :
    Standing config version frames accepted log d' where
  books := books
  live := by rw [queue]; exact standing.live
  taken := standing.taken
  pending := by
    have unread : d'.buffer.unread = d.buffer.unread := congrArg ByteQueue.unread queue
    rw [same, unread]
    exact standing.pending
  joined := by
    have unread : d'.buffer.unread = d.buffer.unread := congrArg ByteQueue.unread queue
    rw [same, unread]
    exact standing.joined

theorem request (standing : Standing config version frames accepted log d)
    (pending : d.handshakeDone = false) : config.isRequest = true := by
  by_contra response
  have done := (standing.sound.client (by simpa using response)).2
  rw [pending] at done
  cases done

theorem handshake_head (standing : Standing config version frames accepted log d)
    (known : version ∈ supportedVersions)
    (before : accepted <+: greeting config version ++ frames.flatten)
    (pending : d.handshakeDone = false) (eight : 8 ≤ d.buffer.unread.length) :
    d.buffer.unread.take 8 = toLE 8 version ∧ fromLE (d.buffer.unread.take 8) = version := by
  have head : d.buffer.unread.take 8 = toLE 8 version := by
    rw [← (standing.pending pending).2, greeting, if_pos (standing.request pending),
      MessageEncoder.encodeHandshake] at before
    obtain ⟨more, joined⟩ := before
    have first := congrArg (List.take 8) joined
    rwa [List.take_append_of_le_length eight, List.take_left' (toLE_length 8 version)] at first
  exact ⟨head, by rw [head, fromLE_toLE 8 version (supported_lt known)]⟩

theorem new (config : Config) (version : Nat) (frames : List Bytes) :
    Standing config version frames [] [] (MessageDecoder.new config) where
  books := ⟨[], Bookkeeping.new config⟩
  live := ByteQueue.live_fresh _
  taken := List.nil_prefix
  pending := fun _ => ⟨rfl, rfl⟩
  joined := by
    intro done
    have response : config.isRequest = false := by simpa [MessageDecoder.new] using done
    simp [greeting, response, MessageDecoder.new, ReadBuffer.fresh, ReadBuffer.unread]

end Standing

/-- What one frame does to an invariant over the consumed frames and the fields outside the
buffer. -/
structure FrameRule (config : Config) (version : Nat) (frames : List Bytes)
    (Inv : List Consumption → MessageDecoder → Prop) (Final : List Consumption → Prop) : Prop where
  initially : Inv [] (new config)
  buffer_free : ∀ log d b, Inv log d → Inv log (d.withBuffer b)
  greeted : ∀ d, config.isRequest = true → Inv [] d →
    Inv [] { d with version := some version, handshakeDone := true }
  accepts : ∀ log (d : MessageDecoder) f others streams,
    frames = log.map Consumption.frame ++ f :: others → Bookkeeping config streams d →
    d.buffer.poisoned = none → d.handshakeDone = true → Inv log d →
    let log' := log ++ [⟨f, d.due, (d.accept f).1.map .message⟩]
    ((d.accept f).2.buffer.poisoned = none → Inv log' (d.accept f).2) ∧
      ((d.accept f).2.buffer.poisoned ≠ none → Final log')

/-- A decoder after some calls: at work, poisoned by a frame, or poisoned by a chunk it refused. -/
inductive SessionState (config : Config) (version : Nat) (frames : List Bytes)
    (Inv : List Consumption → MessageDecoder → Prop) (Final : List Consumption → Prop)
    (past : List (Event MessageDecoder DecoderOp DecoderReply)) (d : MessageDecoder) : Prop
  | standing (standing : Standing config version frames (acceptedChunks (replies past))
      (consumptions past) d) (held : Inv (consumptions past) d)
  | failed (poisoned : d.buffer.poisoned ≠ none)
      (taken : (consumptions past).map Consumption.frame <+: frames)
      (final : Final (consumptions past))
  | refused (poisoned : d.buffer.poisoned ≠ none)
      (raised : ∃ e ∈ replies past, feedFailed e = true)

theorem consumption_same {d d' : MessageDecoder} {op : DecoderOp} {reply : DecoderReply}
    (same : d'.buffer.unread = d.buffer.unread) : consumption ⟨d, op, reply, d'⟩ = none := by
  simp [consumption, ReadBuffer.available_eq, same]

theorem consumption_frame {d d' : MessageDecoder} {op : DecoderOp} {reply : DecoderReply}
    {f rest : Bytes} (reads : op = .decode ∨ op = .decodeContinuation) (nonempty : f ≠ [])
    (before : d.buffer.unread = f ++ rest) (after : d'.buffer.unread = rest) :
    consumption ⟨d, op, reply, d'⟩ = some ⟨f, op, reply⟩ := by
  have length : d.buffer.available - d'.buffer.available = f.length := by
    rw [ReadBuffer.available_eq, ReadBuffer.available_eq, before, after, List.length_append]
    omega
  have positive := List.length_pos_iff.mpr nonempty
  simp only [consumption, length]
  rw [if_pos ⟨reads, positive⟩, before, List.take_left]

section Run

variable {config : Config} {version : Nat} {frames : List Bytes}
  {Inv : List Consumption → MessageDecoder → Prop} {Final : List Consumption → Prop}
  {past : List (Event MessageDecoder DecoderOp DecoderReply)} {d : MessageDecoder}

theorem due_reads (d : MessageDecoder) : d.due = .decode ∨ d.due = .decodeContinuation := by
  unfold due
  split
  · exact Or.inr rfl
  · exact Or.inl rfl

theorem SessionState.quiet {op : DecoderOp} (rule : FrameRule config version frames Inv Final)
    (standing : Standing config version frames (acceptedChunks (replies past))
      (consumptions past) d) (held : Inv (consumptions past) d)
    (quiet : acceptedChunks [(op, (d.step op).1)] = []) {b : ReadBuffer}
    (next : (d.step op).2 = d.withBuffer b) (queue : b.queue = d.buffer.queue) :
    SessionState config version frames Inv Final (past ++ [event step d op]) (d.step op).2 := by
  obtain ⟨_, books⟩ := standing.books
  have unread : (d.step op).2.buffer.unread = d.buffer.unread := by
    rw [next]
    exact congrArg ByteQueue.unread queue
  refine .standing ?_ ?_
  · rw [consumptions_concat, event, consumption_same unread, replies_concat, acceptedChunks_concat,
      quiet, Option.toList_none, List.append_nil, List.append_nil]
    exact standing.keep ⟨_, books.step op⟩ (by rw [next]; exact queue) (by rw [next]; rfl)
  · rw [consumptions_concat, event, consumption_same unread, Option.toList_none, List.append_nil,
      next]
    exact rule.buffer_free _ _ _ held

theorem consumption_other {e : Event MessageDecoder DecoderOp DecoderReply}
    (start : e.op ≠ .decode) (next : e.op ≠ .decodeContinuation) : consumption e = none := by
  simp [consumption, start, next]

theorem SessionState.feed (standing : Standing config version frames (acceptedChunks (replies past))
      (consumptions past) d) (rule : FrameRule config version frames Inv Final)
    (held : Inv (consumptions past) d) (data : Bytes) :
    SessionState config version frames Inv Final (past ++ [event step d (.feed data)])
      (d.step (.feed data)).2 := by
  obtain ⟨_, books⟩ := standing.books
  obtain ⟨reply, _, next⟩ := ReadBuffer.feed_matches standing.sound.buffer.bounded data
  have none : consumption (event step d (.feed data)) = none :=
    consumption_other (by simp [event]) (by simp [event])
  rcases standing.live.feed_cases data with ⟨fed, _⟩ | ⟨error, _, _, fed⟩
  · rw [fed] at reply next
    have more : acceptedChunks [((event step d (.feed data)).op,
        (event step d (.feed data)).reply)] = data := by
      simp [event, step, MessageDecoder.feed, reply, acceptedChunks, Except.map]
    have unread : (d.buffer.feed data).2.unread = d.buffer.unread ++ data :=
      congrArg ByteQueue.unread next
    refine .standing ?_ ?_
    · rw [consumptions_concat, none, replies_concat, acceptedChunks_concat, more,
        Option.toList_none, List.append_nil]
      refine ⟨⟨_, books.step (.feed data)⟩, ?_, standing.taken, fun pending => ?_, fun done => ?_⟩
      · change (d.buffer.feed data).2.queue.Live _
        rw [next]
        exact standing.live.with_unread _
      · obtain ⟨empty, same⟩ := standing.pending pending
        exact ⟨empty, unread.trans (by rw [same])⟩
      · rw [← standing.joined done, List.append_assoc _ d.buffer.unread]
        exact congrArg _ unread
    · rw [consumptions_concat, none, Option.toList_none, List.append_nil]
      exact rule.buffer_free _ _ _ held
  · rw [fed] at reply next
    have failed : feedFailed ((event step d (.feed data)).op,
        (event step d (.feed data)).reply) = true := by
      simp [event, step, MessageDecoder.feed, reply, feedFailed, Except.map]
    have rejected := standing.live.reject_eq error
    rw [ReadBuffer.queue_unread] at rejected
    simp only [rejected] at next
    by_cases empty : d.buffer.unread = []
    · rw [if_pos empty] at next
      refine .quiet rule standing held ?_ rfl next
      simp [step, MessageDecoder.feed, reply, acceptedChunks, Except.map]
    · rw [if_neg empty] at next
      refine .refused ?_ ⟨_, ?_, failed⟩
      · have poisoned : (d.buffer.feed data).2.poisoned = some error :=
          congrArg ByteQueue.poisoned next
        change (d.buffer.feed data).2.poisoned ≠ Option.none
        rw [poisoned]
        exact Option.some_ne_none error
      · rw [replies_concat]
        exact List.mem_append_right _ (List.mem_singleton_self _)

theorem SessionState.frame (standing : Standing config version frames
      (acceptedChunks (replies past)) (consumptions past) d)
    (rule : FrameRule config version frames Inv Final) (held : Inv (consumptions past) d)
    (legal : ∀ f ∈ frames, wire.IsFrame config.maxMessageSize f)
    (before : acceptedChunks (replies past) <+: greeting config version ++ frames.flatten)
    (done : d.handshakeDone = true) :
    SessionState config version frames Inv Final (past ++ [event step d d.due])
      (d.step d.due).2 := by
  obtain ⟨streams, books⟩ := standing.books
  have healthy := standing.healthy
  have quiet (reply : DecoderReply) : acceptedChunks [(d.due, reply)] = [] := by
    rcases due_reads d with same | same <;> rw [same] <;> rfl
  obtain ⟨later, split, ⟨b, read, kept, queue, _⟩ |
    ⟨f, others, rest, b, rfl, unread, read, kept, queue⟩⟩ := standing.read legal before done
  · exact .quiet rule standing held (quiet _) (by rw [due_waits healthy done read]) queue
  · have stepped := due_reads_frame healthy done read
    have cap : b.maxMessageSize = config.maxMessageSize :=
      (congrArg ByteQueue.cap queue).trans standing.live.cap_eq
    have sane : b.poisoned = none := (congrArg ByteQueue.poisoned queue).trans healthy
    have books' : Bookkeeping config streams (d.withBuffer b) :=
      books.keep (books.sound.withBuffer ⟨kept, cap⟩) rfl
    have unread' : b.unread = rest := congrArg ByteQueue.unread queue
    have nonempty := (legal f (by simp [split])).ne_nil
    obtain ⟨goes, fails⟩ := rule.accepts _ (d.withBuffer b) f others streams split books' sane done
      (rule.buffer_free _ _ b held)
    have buffer := accept_buffer (d := d.withBuffer b) sane done f
    have after : ((d.withBuffer b).accept f).2.buffer.unread = rest := by
      rcases buffer with same | ⟨e, same⟩
      · rw [same]
        exact unread'
      · rw [same, ReadBuffer.poison_of_healthy (show (d.withBuffer b).buffer.poisoned = none from sane)]
        exact unread'
    have now : consumption (event step d d.due) =
        some ⟨f, d.due, ((d.withBuffer b).accept f).1.map .message⟩ := by
      rw [event, stepped]
      exact consumption_frame (due_reads d) nonempty unread after
    have books'' := books.step d.due
    have still : (d.step d.due).2.handshakeDone = true := by
      cases expected : d.continuation.expected with
      | true =>
          obtain ⟨response, _⟩ := books.active expected
          exact (books''.sound.client response).2
      | false =>
          rw [stepped]
          exact (accept_start_fields (d := d.withBuffer b) expected sane done f).1
    rw [stepped] at books'' still ⊢
    rcases buffer with same | ⟨e, same⟩
    · refine .standing ?_ ?_
      · rw [consumptions_concat, now, replies_concat, acceptedChunks_concat]
        refine ⟨⟨_, books''⟩, ?_, ?_, ?_, ?_⟩
        · rw [same]
          change b.queue.Live _
          rw [queue]
          exact standing.live.with_unread _
        · rw [split]
          simp
        · intro pending
          rw [still] at pending
          cases pending
        · intro _
          have nothing : acceptedChunks [((event step d d.due).op,
              (event step d d.due).reply)] = [] := quiet _
          rw [after, ← standing.joined done, unread, nothing]
          simp
      · rw [consumptions_concat, now]
        exact goes (by rw [same]; exact sane)
    · refine .failed (by simp [same, ReadBuffer.poison_of_healthy, sane]) ?_ ?_
      · rw [consumptions_concat, now, split]
        simp
      · rw [consumptions_concat, now]
        exact fails (by simp [same, ReadBuffer.poison_of_healthy, sane])

theorem SessionState.handshake (standing : Standing config version frames
      (acceptedChunks (replies past)) (consumptions past) d)
    (rule : FrameRule config version frames Inv Final) (held : Inv (consumptions past) d)
    (known : version ∈ supportedVersions)
    (before : acceptedChunks (replies past) <+: greeting config version ++ frames.flatten) :
    SessionState config version frames Inv Final (past ++ [event step d .decodeHandshake])
      (d.step .decodeHandshake).2 := by
  cases pending : d.handshakeDone with
  | true =>
      have refused : (d.step .decodeHandshake).2 = d.withBuffer d.buffer := by
        simp only [step, decodeHandshake, pending, if_true]
        rfl
      exact .quiet rule standing held rfl refused rfl
  | false =>
      have request := standing.request pending
      obtain ⟨empty, unread⟩ := standing.pending pending
      rcases decodeHandshake_cases standing.sound.buffer.bounded standing.healthy pending with
        ⟨_, same⟩ | ⟨_, _, same⟩ | ⟨eight, _, b, kept, queue, same⟩
      · refine .quiet rule standing held rfl (b := d.buffer) ?_ rfl
        simp only [step, same]
        rfl
      · refine .quiet rule standing held rfl (b := d.buffer) ?_ rfl
        simp only [step, same]
        rfl
      · obtain ⟨head, value⟩ := standing.handshake_head known before pending eight
        rw [value] at same
        have stepped : (d.step .decodeHandshake).2 =
            { d.withBuffer b with version := some version, handshakeDone := true } := by
          simp only [step, same]
        have nothing : consumption (event step d .decodeHandshake) = none :=
          consumption_other (by simp [event]) (by simp [event])
        obtain ⟨_, books⟩ := standing.books
        have books' := books.step .decodeHandshake
        rw [stepped] at books' ⊢
        refine .standing ?_ ?_
        · rw [consumptions_concat, nothing, replies_concat, acceptedChunks_concat, empty]
          refine ⟨⟨_, books'⟩, ?_, List.nil_prefix, fun pending => (by cases pending), fun _ => ?_⟩
          · change b.queue.Live _
            rw [queue]
            exact standing.live.with_unread _
          · have rest : b.unread = d.buffer.unread.drop 8 := congrArg ByteQueue.unread queue
            change greeting config version ++ [] ++ b.unread = _ ++ []
            rw [rest, greeting, if_pos request, MessageEncoder.encodeHandshake, ← head, ← unread]
            simp
        · rw [consumptions_concat, nothing, empty]
          rw [empty] at held
          exact rule.greeted (d.withBuffer b) request (rule.buffer_free _ _ b held)

theorem SessionState.step (state : SessionState config version frames Inv Final past d)
    (rule : FrameRule config version frames Inv Final)
    (legal : ∀ f ∈ frames, wire.IsFrame config.maxMessageSize f)
    (known : version ∈ supportedVersions)
    (before : acceptedChunks (replies past) <+: greeting config version ++ frames.flatten)
    {op : DecoderOp} (call : streamCall op = true) :
    SessionState config version frames Inv Final (past ++ [event step d op]) (d.step op).2 := by
  have other : op ≠ .reset := by
    rintro rfl
    cases call
  have unchanged (poisoned : d.buffer.poisoned ≠ none) :
      (d.step op).2 = d ∧ consumptions (past ++ [event MessageDecoder.step d op]) =
        consumptions past := by
    obtain ⟨same, _⟩ := poisoned_step poisoned other
    refine ⟨same, ?_⟩
    rw [consumptions_concat, event, consumption_same (by rw [same])]
    simp
  cases state with
  | failed poisoned taken final =>
      obtain ⟨same, log⟩ := unchanged poisoned
      rw [same]
      exact .failed poisoned (by rw [log]; exact taken) (by rw [log]; exact final)
  | refused poisoned raised =>
      obtain ⟨same, log⟩ := unchanged poisoned
      obtain ⟨e, member, failed⟩ := raised
      rw [same]
      exact .refused poisoned ⟨e, by rw [replies_concat]; exact List.mem_append_left _ member, failed⟩
  | standing standing held =>
      have untouched (same : ∃ reply, d.step op = (reply, d))
          (nothing : ∀ reply, acceptedChunks [(op, reply)] = []) :
          SessionState config version frames Inv Final (past ++ [event MessageDecoder.step d op])
            (d.step op).2 := by
        obtain ⟨reply, stepped⟩ := same
        exact .quiet rule standing held (nothing _) (by rw [stepped]; rfl) rfl
      have read (reads : op = .decode ∨ op = .decodeContinuation) :
          SessionState config version frames Inv Final (past ++ [event MessageDecoder.step d op])
            (d.step op).2 := by
        have nothing (reply : DecoderReply) : acceptedChunks [(op, reply)] = [] := by
          rcases reads with rfl | rfl <;> rfl
        by_cases due : op = d.due
        · rw [due]
          cases done : d.handshakeDone with
          | true => exact .frame standing rule held legal before done
          | false =>
              obtain ⟨_, books⟩ := standing.books
              have start : d.due = .decode := by
                unfold MessageDecoder.due
                rw [if_neg]
                intro expected
                have ready := (books.sound.client (books.active expected).1).2
                rw [done] at ready
                cases ready
              rw [← due]
              refine untouched ?_ nothing
              obtain ⟨e, stepped⟩ := decode_pending done
              rw [due, start]
              exact ⟨_, stepped⟩
        · obtain ⟨e, stepped⟩ := not_due_refused reads due
          exact untouched ⟨_, stepped⟩ nothing
      cases op with
      | feed data => exact .feed standing rule held data
      | hasMessage => exact untouched ⟨_, rfl⟩ fun _ => rfl
      | decodeBytes data => exact untouched ⟨_, rfl⟩ fun _ => rfl
      | pendingFrameSize =>
          obtain ⟨_, _, queue⟩ := ReadBuffer.peekHeader_matches standing.sound.buffer.bounded
          exact .quiet rule standing held rfl rfl queue
      | decode => exact read (Or.inl rfl)
      | decodeContinuation => exact read (Or.inr rfl)
      | decodeHandshake => exact .handshake standing rule held known before
      | takeFrame | skipMessage | reset => cases call

theorem SessionState.unrefused (state : SessionState config version frames Inv Final past d)
    (accepted : ∀ e ∈ replies past, feedFailed e = false) :
    (Standing config version frames (acceptedChunks (replies past)) (consumptions past) d ∧
        Inv (consumptions past) d) ∨
      d.buffer.poisoned ≠ none ∧ (consumptions past).map Consumption.frame <+: frames ∧
        Final (consumptions past) := by
  cases state with
  | standing standing held => exact Or.inl ⟨standing, held⟩
  | failed poisoned taken final => exact Or.inr ⟨poisoned, taken, final⟩
  | refused _ raised =>
      obtain ⟨e, member, failed⟩ := raised
      rw [accepted e member] at failed
      cases failed

/-- The rule for whole runs: the calls may come in any order and the bytes in any chunks. -/
theorem session_run (rule : FrameRule config version frames Inv Final)
    (legal : ∀ f ∈ frames, wire.IsFrame config.maxMessageSize f)
    (known : version ∈ supportedVersions) (ops : List DecoderOp)
    (calls : ∀ op ∈ ops, streamCall op = true) :
    acceptedChunks (replies (history MessageDecoder.step (new config) ops)) <+:
        greeting config version ++ frames.flatten →
      SessionState config version frames Inv Final (history MessageDecoder.step (new config) ops)
        (final MessageDecoder.step (new config) ops) := by
  refine run_invariant MessageDecoder.step (fun past d =>
    acceptedChunks (replies past) <+: greeting config version ++ frames.flatten →
      SessionState config version frames Inv Final past d) (fun op => streamCall op = true) ?_ ?_
    ops calls
  · intro _
    exact .standing (Standing.new config version frames) rule.initially
  · intro past d op call ih before
    rw [replies_concat, acceptedChunks_concat] at before
    have earlier := (List.prefix_append _ _).trans before
    exact (ih earlier).step rule legal known earlier call

end Run

end DqliteWire
