import DqliteWire.Lib.StreamReader
import DqliteWire.Session
import DqliteWire.Totality

/-! What a decoder is for, past the handshake: a machine over frames whose states are a decoder between
responses and one inside a result set. The decoder's four continuation fields, its flag and its poison
mark are one such state. -/

namespace DqliteWire

open WireLib WireLib.Utf8 MessageDecoder

/-- A result set some of whose frames have been handed out, within the caps. -/
structure ResultStream (config : Config) where
  names : List Str
  frames : Nat
  rows : Nat
  response : config.isRequest = false
  started : 1 ≤ frames
  frames_within : ∀ cap ∈ config.maxContinuationFrames, frames ≤ cap
  rows_within : ∀ cap ∈ config.maxTotalRows, rows ≤ cap

inductive Phase (config : Config)
  | idle
  | streaming (stream : ResultStream config)

namespace ResultStream

variable {config : Config}

def start (response : config.isRequest = false) (r : RowsResponse) : Except Exn (ResultStream config) :=
  if large : ∃ cap ∈ config.maxTotalRows, cap < r.rows.length then
    .error (initialTooManyRows (config.maxTotalRows.getD 0) r.rows.length)
  else .ok
    { names := r.columnNames, frames := 1, rows := r.rows.length, response, started := le_rfl,
      frames_within := config.frames_positive,
      rows_within := fun cap member => not_lt.mp fun more => large ⟨cap, member, more⟩ }

def next (s : ResultStream config) (r : RowsResponse) : Except Exn (ResultStream config) :=
  if frames : ∃ cap ∈ config.maxContinuationFrames, cap < s.frames + 1 then
    .error (tooManyFrames (config.maxContinuationFrames.getD 0))
  else if rows : ∃ cap ∈ config.maxTotalRows, cap < s.rows + r.rows.length then
    .error (tooManyRows (config.maxTotalRows.getD 0) (s.rows + r.rows.length) (s.frames + 1))
  else if r.columnNames.length ≠ s.names.length then
    .error (columnCountDrift s.names.length (s.frames + 1) r.columnNames.length)
  else if r.columnNames ≠ s.names then .error (columnNameDrift s.names (s.frames + 1) r.columnNames)
  else .ok
    { s with
      frames := s.frames + 1
      rows := s.rows + r.rows.length
      started := Nat.le_add_left 1 s.frames
      frames_within := fun cap member => not_lt.mp fun more => frames ⟨cap, member, more⟩
      rows_within := fun cap member => not_lt.mp fun more => rows ⟨cap, member, more⟩ }

def continuation (s : ResultStream config) : Continuation :=
  ⟨true, s.frames, s.rows, some s.names.length, some s.names⟩

end ResultStream

namespace Phase

variable {config : Config}

def continuation : Phase config → Continuation
  | .idle => .idle
  | .streaming s => s.continuation

def isIdle : Phase config → Bool
  | .idle => true
  | .streaming _ => false

/-- The types that may follow a ROWS frame with more to come. -/
def continues (f : Bytes) : Prop :=
  (frameHeader f).msgType ∈ [ResponseType.failure.code, ResponseType.empty.code, ResponseType.rows.code]

instance (f : Bytes) : Decidable (continues f) := inferInstanceAs (Decidable (_ ∈ _))

/-- A message between responses: a ROWS frame with more to come opens a result set. A frame that is
refused stops the machine. -/
def opened (m : Message) : Except Exn Message × Option (Phase config) :=
  match m with
  | .response (.rows r) =>
    if response : config.isRequest = false ∧ r.hasMore = true then
      match ResultStream.start response.1 r with
      | .error e => (.error e, none)
      | .ok s => (.ok m, some (.streaming s))
    else (.ok m, some .idle)
  | m => (.ok m, some .idle)

def followed (s : ResultStream config) (m : Message) : Except Exn Message × Option (Phase config) :=
  match m with
  | .response (.rows r) =>
    match s.next r with
    | .error e => (.error e, some .idle)
    | .ok s => (.ok m, some (if r.hasMore then .streaming s else .idle))
  | .response (.failure r) => (.error (.serverFailure r.code r.message), some .idle)
  | m => (.ok m, some .idle)

def takes (version : Nat) : Phase config → Bytes → Except Exn Message × Option (Phase config)
  | .idle, f =>
    match decodeFrame config (some version) f with
    | .error e => (.error e, none)
    | .ok m => opened m
  | .streaming s, f =>
    if continues f then
      match decodeFrame config (some version) f with
      | .error e => (.error e, if e.isDecodeError then some .idle else none)
      | .ok m => followed s m
    else (.error (wrongFrameType (frameHeader f).msgType s.frames s.rows), some .idle)

theorem opened_cases (m : Message) : (∃ e, opened m = (.error e, (none : Option (Phase config)))) ∨
    ∃ q : Phase config, opened m = (.ok m, some q) := by
  unfold opened
  split
  · split
    · split
      · exact Or.inl ⟨_, rfl⟩
      · exact Or.inr ⟨_, rfl⟩
    · exact Or.inr ⟨_, rfl⟩
  · exact Or.inr ⟨_, rfl⟩

theorem followed_cases (s : ResultStream config) (m : Message) :
    (∃ e, followed s m = (.error e, some .idle)) ∨ ∃ q, followed s m = (.ok m, some q) := by
  unfold followed
  split
  · split
    · exact Or.inl ⟨_, rfl⟩
    · exact Or.inr ⟨_, rfl⟩
  · exact Or.inl ⟨_, rfl⟩
  · exact Or.inr ⟨_, rfl⟩

theorem takes_ok {version : Nat} {p : Phase config} {f : Bytes} {m : Message}
    (answered : (p.takes version f).1 = .ok m) :
    decodeFrame config (some version) f = .ok m ∧ ∃ q, (p.takes version f).2 = some q := by
  cases p with
  | idle =>
      simp only [takes] at answered ⊢
      cases decoded : decodeFrame config (some version) f with
      | error e => simp [decoded] at answered
      | ok m' =>
          simp only [decoded] at answered ⊢
          rcases @opened_cases config m' with ⟨e, refused⟩ | ⟨q, taken⟩
          · simp [refused] at answered
          · rw [taken] at answered ⊢
            exact ⟨answered, q, rfl⟩
  | streaming s =>
      simp only [takes] at answered ⊢
      by_cases known : continues f
      · rw [if_pos known] at answered ⊢
        cases decoded : decodeFrame config (some version) f with
        | error e => simp [decoded] at answered
        | ok m' =>
            simp only [decoded] at answered ⊢
            rcases followed_cases s m' with ⟨e, refused⟩ | ⟨q, taken⟩
            · simp [refused] at answered
            · rw [taken] at answered ⊢
              exact ⟨answered, q, rfl⟩
      · rw [if_neg known] at answered
        cases answered

end Phase

def protocolReader (config : Config) (version : Nat) :
    FrameMachine UInt8 (Phase config) (Except Exn Message) where
  take := Phase.takes version
  refuse := fun _ s => .error (ReadBuffer.tooLarge (wire.size s) config.maxMessageSize)
  survives := Phase.isIdle

def replyOf (output : Except Exn Message) : DecoderReply := output.map fun m => .message (some m)

/-- In front of a header that claims too much: `decode` raises and can be called again,
`decode_continuation` ends the result set and poisons. -/
theorem MessageDecoder.due_refuses {d : MessageDecoder} {b : ReadBuffer}
    (healthy : d.buffer.poisoned = none) (done : d.handshakeDone = true) {e : Exn}
    (kind : e.isDecodeError = true) (read : d.buffer.readMessage = (.error e, b)) :
    d.step d.due = (.error e, if d.continuation.expected then
      (d.withBuffer b).finalizeContinuationState.poison oversizedContinuation else d.withBuffer b) := by
  have checked := ReadBuffer.checkPoisoned_ok.mpr healthy
  cases expected : d.continuation.expected with
  | true =>
      simp only [due, expected, if_true, step, decodeContinuation, checked, Bool.true_eq_false,
        if_false, read, kind]
      rfl
  | false =>
      simp only [due, expected, Bool.false_eq_true, if_false, step, MessageDecoder.decode, checked, done,
        Bool.true_eq_false, read]
      rfl

@[simp] theorem ReadBuffer.poison_unread (b : ReadBuffer) (e : Exn) : (b.poison e).unread = b.unread := by
  unfold ReadBuffer.poison
  split <;> rfl

theorem ReadBuffer.poison_poisoned (b : ReadBuffer) (e : Exn) : (b.poison e).poisoned ≠ none := by
  unfold ReadBuffer.poison
  split
  · exact Option.some_ne_none e
  · assumption

section Accept

variable {config : Config} {version : Nat} {d : MessageDecoder}

/-- A decoder that is not poisoned, with the fields of a phase. -/
structure InPhase (config : Config) (version : Nat) (p : Phase config) (d : MessageDecoder) : Prop where
  sound : d.Sound config
  healthy : d.buffer.poisoned = none
  done : d.handshakeDone = true
  version_eq : d.version = some version
  continuation_eq : d.continuation = p.continuation

def Leaves (config : Config) (version : Nat) (d d' : MessageDecoder) :
    Option (Phase config) → Prop
  | none => d'.buffer.poisoned ≠ none
  | some p => d'.continuation = p.continuation ∧ d'.buffer = d.buffer ∧ d'.version = some version ∧
      d'.handshakeDone = true

theorem accept_idle (held : InPhase config version .idle d) (f : Bytes) :
    (d.accept f).1 = (Phase.takes version (.idle : Phase config) f).1.map some ∧
      Leaves config version d (d.accept f).2 (Phase.takes version (.idle : Phase config) f).2 := by
  obtain ⟨sound, healthy, done, spoken, fields⟩ := held
  have idle : d.continuation.expected = false := by
    rw [fields]
    rfl
  have poisons (e : Exn) : (d.poison (poisonCause "decode" e)).buffer.poisoned ≠ none := by
    simp [ReadBuffer.poison_of_healthy healthy]
  have stays : Leaves config version d d (some .idle) := ⟨fields, rfl, spoken, done⟩
  simp only [accept, idle, Bool.false_eq_true, if_false, startMessage, decodeBytes_ready healthy done,
    sound.config_eq, spoken, Phase.takes]
  cases decoded : decodeFrame config (some version) f with
  | error e => exact ⟨rfl, poisons e⟩
  | ok m =>
      cases m with
      | request r => exact ⟨rfl, stays⟩
      | response m =>
          cases m with
          | rows r =>
              have response : config.isRequest = false := (decodeFrame_rows decoded).1
              cases more : r.hasMore with
              | false =>
                  simp only [Phase.opened, more, Bool.false_eq_true, and_false, if_false, dite_false]
                  exact ⟨rfl, stays⟩
              | true =>
                  by_cases large : ∃ cap ∈ config.maxTotalRows, cap < r.rows.length
                  · simp only [Phase.opened, more, response, ResultStream.start, dif_pos large, if_pos large]
                    exact ⟨rfl, poisons _⟩
                  · simp only [Phase.opened, more, response, ResultStream.start, dif_neg large, if_neg large]
                    exact ⟨rfl, rfl, rfl, rfl, done⟩
          | failure | leader | welcome | servers | db | stmt | result | empty | files | metadata =>
              exact ⟨rfl, stays⟩

theorem finalize_response (response : d.config.isRequest = false) :
    d.finalizeContinuationState = { d with continuation := .idle } := by
  simp [finalizeContinuationState, response]

theorem continueRows_next {s : ResultStream config} (held : InPhase config version (.streaming s) d)
    (r : RowsResponse) :
    match s.next r with
    | .error e => ∃ d' text, e = .decodeError text ∧ d.continueRows r = (.error e, d') ∧
        d'.finalizeContinuationState = { d with continuation := .idle }
    | .ok s' => d.continueRows r = (.ok (.response (.rows r)),
        if r.hasMore then { d with continuation := s'.continuation }
        else { d with continuation := .idle }) := by
  obtain ⟨sound, _, _, _, fields⟩ := held
  obtain rfl := sound.config_eq
  have response : d.config.isRequest = false := s.response
  have single {α : Type} (a : α) (p : α → Prop) : (∃ b ∈ some a, p b) ↔ p a := by simp
  simp only [continueRows, fields, Phase.continuation, ResultStream.continuation, single,
    Option.getD_some]
  unfold ResultStream.next
  by_cases frames : ∃ cap ∈ d.config.maxContinuationFrames, cap < s.frames + 1
  · rw [dif_pos frames, if_pos frames]
    exact ⟨_, _, rfl, rfl, finalize_response response⟩
  · rw [dif_neg frames, if_neg frames]
    by_cases rows : ∃ cap ∈ d.config.maxTotalRows, cap < s.rows + r.rows.length
    · rw [dif_pos rows, if_pos rows]
      exact ⟨_, _, rfl, rfl, finalize_response response⟩
    · rw [dif_neg rows, if_neg rows]
      by_cases count : r.columnNames.length ≠ s.names.length
      · rw [if_pos count, if_pos count]
        exact ⟨_, _, rfl, rfl, finalize_response response⟩
      · rw [if_neg count, if_neg count]
        by_cases names : r.columnNames ≠ s.names
        · rw [if_pos names, if_pos names]
          exact ⟨_, _, rfl, rfl, finalize_response response⟩
        · rw [if_neg names, if_neg names]
          cases r.hasMore with
          | true => rfl
          | false => exact congrArg (Prod.mk _) (finalize_response response)

/-- The second half of `decode_continuation` reads a frame as the stateless decoder does, once its type
may follow. -/
theorem continueStream_eq (sound : d.Sound config) (response : config.isRequest = false) {f : Bytes}
    (legal : wire.IsFrame config.maxMessageSize f) (version : Option Nat) :
    d.continueStream f =
      if Phase.continues f then
        match decodeFrame config version f with
        | .error e => (.error e, d)
        | .ok (.response (.rows r)) => d.continueRows r
        | .ok (.response (.failure r)) =>
          (.error (.serverFailure r.code r.message), d.finalizeContinuationState)
        | .ok m => (.ok m, d.finalizeContinuationState)
      else (.error (wrongFrameType (frameHeader f).msgType d.continuation.frameCount
        d.continuation.totalRows), d.finalizeContinuationState) := by
  have size := bodySize_eq legal
  have body : (f.drop headerSize).take (frameHeader f).bodySize = frameBody f := by
    apply List.take_of_length_le
    rw [List.length_drop]
    omega
  simp only [continueStream, Header.decode_eq legal.header_le, body, sound.config_eq, response]
  by_cases known : Phase.continues f
  · have listed : (frameHeader f).msgType ∈
        [ResponseType.failure.code, ResponseType.empty.code, ResponseType.rows.code] := known
    rw [if_neg (not_not.mpr listed), if_pos known, decodeFrame_eq legal]
    have type : (frameHeader f).msgType = ResponseType.failure.code ∨
        (frameHeader f).msgType = ResponseType.empty.code ∨
        (frameHeader f).msgType = ResponseType.rows.code := by
      simpa [Phase.continues] using known
    rcases type with type | type | type
    · rw [decodeBody_response (t := .failure) response _ type]
      simp only [type, if_true, decodeResponseBody]
      cases checkSchema false (frameHeader f) with
      | error e => rfl
      | ok _ =>
          cases FailureResponse.decodeBody (frameBody f) (frameHeader f).schema <;> rfl
    · rw [decodeBody_response (t := .empty) response _ type]
      have other : ¬ ResponseType.empty.code = ResponseType.failure.code := by decide
      simp only [type, if_neg other, if_true, decodeResponseBody]
      cases checkSchema false (frameHeader f) with
      | error e => rfl
      | ok _ =>
          cases EmptyResponse.decodeBody (frameBody f) (frameHeader f).schema <;> rfl
    · rw [decodeBody_response (t := .rows) response _ type]
      have other : ¬ ResponseType.rows.code = ResponseType.failure.code := by decide
      have another : ¬ ResponseType.rows.code = ResponseType.empty.code := by decide
      simp only [type, if_neg other, if_neg another, decodeResponseBody]
      cases checkSchema false (frameHeader f) with
      | error e => rfl
      | ok _ =>
          cases RowsResponse.decodeBody (frameBody f) (frameHeader f).schema config.maxRows
            config.textErrors <;> rfl
  · have unlisted : (frameHeader f).msgType ∉
        [ResponseType.failure.code, ResponseType.empty.code, ResponseType.rows.code] := known
    rw [if_pos unlisted, if_neg known]

section Streaming

variable {s : ResultStream config}

theorem InPhase.client (held : InPhase config version (.streaming s) d) : d.config.isRequest = false := by
  rw [held.sound.config_eq]
  exact s.response

theorem InPhase.ends (held : InPhase config version (.streaming s) d) :
    Leaves config version d d.finalizeContinuationState (some .idle) := by
  rw [finalize_response held.client]
  exact ⟨rfl, rfl, held.version_eq, held.done⟩

theorem raised_leaves (held : InPhase config version (.streaming s) d) {e : Exn} (body : e.IsBodyError) :
    Leaves config version d (d.continuationRaised e) (if e.isDecodeError then some .idle else none) := by
  have poisons : (d.finalizeContinuationState.poison
      (poisonCause "decode_continuation" e)).buffer.poisoned ≠ none := by
    simp [ReadBuffer.poison_of_healthy held.healthy]
  cases e with
  | decodeError text => exact held.ends
  | streamError | poisonedError | serverFailure | handshakeError | continuationError
  | keyboardInterrupt => exact body.elim
  | encodeError | valueError | typeError | indexError | structError | runtimeError
  | unicodeDecodeError | outOfFuel => exact poisons

theorem accept_streaming (held : InPhase config version (.streaming s) d) {f : Bytes}
    (legal : wire.IsFrame config.maxMessageSize f) :
    (d.accept f).1 = (Phase.takes version (.streaming s) f).1.map some ∧
      Leaves config version d (d.accept f).2 (Phase.takes version (.streaming s) f).2 := by
  have counted := continueRows_next held
  have expected : d.continuation.expected = true := by
    rw [held.continuation_eq]
    rfl
  simp only [accept, expected, if_true, continueStream_eq held.sound s.response legal (some version),
    Phase.takes]
  by_cases known : Phase.continues f
  · rw [if_pos known, if_pos known]
    cases decoded : decodeFrame config (some version) f with
    | error e =>
        exact ⟨rfl, raised_leaves held ((decodeFrame_errors config _ f e decoded).body _)⟩
    | ok m =>
        cases m with
        | request r => exact ⟨rfl, held.ends⟩
        | response m =>
            cases m with
            | rows r =>
                have stepped := counted r
                simp only [Phase.followed]
                cases next : s.next r with
                | error e =>
                    rw [next] at stepped
                    obtain ⟨d', text, rfl, raised, cleared⟩ := stepped
                    rw [raised]
                    refine ⟨rfl, ?_⟩
                    have ends := held.ends
                    rw [finalize_response held.client, ← cleared] at ends
                    exact ends
                | ok s' =>
                    rw [next] at stepped
                    rw [stepped]
                    refine ⟨rfl, ?_⟩
                    cases r.hasMore with
                    | true => exact ⟨rfl, rfl, held.version_eq, held.done⟩
                    | false => exact ⟨rfl, rfl, held.version_eq, held.done⟩
            | failure | leader | welcome | servers | db | stmt | result | empty | files | metadata =>
                exact ⟨rfl, held.ends⟩
  · rw [if_neg known, if_neg known, held.continuation_eq]
    exact ⟨rfl, held.ends⟩

end Streaming

theorem accept_takes {p : Phase config} (held : InPhase config version p d) {f : Bytes}
    (legal : wire.IsFrame config.maxMessageSize f) :
    (d.accept f).1 = (p.takes version f).1.map some ∧
      Leaves config version d (d.accept f).2 (p.takes version f).2 := by
  cases p with
  | idle => exact accept_idle held f
  | streaming s => exact accept_streaming held legal

end Accept

/-- A decoder and a reader in front of the same bytes: both have stopped, or the decoder has the fields
of the reader's phase. -/
structure Mirrors (config : Config) (version : Nat) (d : MessageDecoder)
    (r : StreamReader UInt8 (Phase config)) : Prop where
  sound : d.Sound config
  unread : d.buffer.unread = r.unread
  stopped : r.state = none → d.buffer.poisoned ≠ none
  running : ∀ p ∈ r.state, InPhase config version p d ∧ d.buffer.queue.Live config.maxMessageSize

/-- The reader's calls that a call of the decoder stands for. A chunk that poisons ends the reading. -/
def readerCalls (d : MessageDecoder) : DecoderOp → List (ReaderOp UInt8)
  | .feed data =>
    match (d.feed data).1 with
    | .ok _ => [.feed data]
    | .error _ => if d.isPoisoned = false ∧ (d.feed data).2.isPoisoned then [.abort] else []
  | .decode => if d.due = .decode then [.poll] else []
  | .decodeContinuation => if d.due = .decodeContinuation then [.poll] else []
  | _ => []

def framesTaken (e : Event MessageDecoder DecoderOp DecoderReply) : List (Bytes × DecoderReply) :=
  (consumption e).toList.map fun c => (c.frame, c.reply)

def framesShown {State : Type} (e : Event (StreamReader UInt8 State) (ReaderOp UInt8)
    (ReaderReply UInt8 (Except Exn Message))) : List (Bytes × DecoderReply) :=
  (StreamReader.taken [(e.op, e.reply)]).map fun t => (t.1, replyOf t.2)

def pollReply : ReaderReply UInt8 (Except Exn Message) → DecoderReply
  | .refused output | .took _ output => replyOf output
  | .unit | .stopped | .waiting => .ok (.message none)

abbrev readerStep (config : Config) (version : Nat) :=
  StreamReader.step wire config.maxMessageSize (protocolReader config version)

section Simulation

variable {config : Config} {version : Nat} {d : MessageDecoder} {r : StreamReader UInt8 (Phase config)}

/-- The reader's calls for a call show what the call took, and end in a mirror of the decoder. -/
def Follows (config : Config) (version : Nat) (d : MessageDecoder)
    (r : StreamReader UInt8 (Phase config)) (op : DecoderOp) : Prop :=
  framesTaken (event step d op) =
      (history (readerStep config version) r (readerCalls d op)).flatMap framesShown ∧
    Mirrors config version (d.step op).2 (final (readerStep config version) r (readerCalls d op))

/-- The call that is due is a poll of the reader. -/
def Polls (config : Config) (version : Nat) (d : MessageDecoder)
    (r : StreamReader UInt8 (Phase config)) : Prop :=
  (d.step d.due).1 = pollReply (readerStep config version r .poll).1 ∧
    framesTaken (event step d d.due) = framesShown (event (readerStep config version) r .poll) ∧
    Mirrors config version (d.step d.due).2 (readerStep config version r .poll).2

theorem InPhase.withBuffer {p : Phase config} (held : InPhase config version p d) {b : ReadBuffer}
    (kept : b.Sound config.maxMessageSize) (healthy : b.poisoned = none) :
    InPhase config version p (d.withBuffer b) :=
  ⟨held.sound.withBuffer kept, healthy, held.done, held.version_eq, held.continuation_eq⟩

namespace Mirrors

theorem keep (mirrors : Mirrors config version d r) {b : ReadBuffer} (bounded : b.Bounded)
    (queue : b.queue = d.buffer.queue) : Mirrors config version (d.withBuffer b) r := by
  have cap : b.maxMessageSize = config.maxMessageSize :=
    (congrArg ByteQueue.cap queue).trans mirrors.sound.buffer.cap_eq
  have poisoned : b.poisoned = d.buffer.poisoned := congrArg ByteQueue.poisoned queue
  constructor
  · exact mirrors.sound.withBuffer ⟨bounded, cap⟩
  · exact (congrArg ByteQueue.unread queue).trans mirrors.unread
  · intro halted
    change b.poisoned ≠ none
    rw [poisoned]
    exact mirrors.stopped halted
  · intro p member
    obtain ⟨held, live⟩ := mirrors.running p member
    refine ⟨held.withBuffer ⟨bounded, cap⟩ (poisoned.trans held.healthy), ?_⟩
    change b.queue.Live _
    rw [queue]
    exact live

theorem quiet (mirrors : Mirrors config version d r) {op : DecoderOp}
    (silent : readerCalls d op = []) {b : ReadBuffer} (next : (d.step op).2 = d.withBuffer b)
    (bounded : b.Bounded) (queue : b.queue = d.buffer.queue) : Follows config version d r op := by
  have unread : b.unread = d.buffer.unread := congrArg ByteQueue.unread queue
  rw [Follows, silent]
  constructor
  · rw [framesTaken, event, consumption_same (by rw [next]; exact unread)]
    rfl
  · rw [next]
    exact mirrors.keep bounded queue

end Mirrors

theorem readerCalls_poisoned (poisoned : d.buffer.poisoned ≠ none) (op : DecoderOp) :
    readerCalls d op = [] ∨ readerCalls d op = [.poll] := by
  cases op with
  | feed data =>
      left
      have marked : d.isPoisoned = true := Option.isSome_iff_ne_none.mpr poisoned
      obtain ⟨cause, found⟩ := Option.ne_none_iff_exists'.mp poisoned
      have raised : (d.feed data).1 = .error (ReadBuffer.poisonedError cause) := by
        simp [MessageDecoder.feed, ReadBuffer.feed, ReadBuffer.checkPoisoned, found]
      simp [readerCalls, raised, marked]
  | decode | decodeContinuation =>
      simp only [readerCalls]
      split
      · exact Or.inr rfl
      · exact Or.inl rfl
  | hasMessage | pendingFrameSize | takeFrame | decodeBytes | skipMessage | decodeHandshake | reset =>
      exact Or.inl rfl

namespace Mirrors

theorem halted (mirrors : Mirrors config version d r) (halted : r.state = none) {op : DecoderOp}
    (other : op ≠ .reset) : Follows config version d r op := by
  obtain ⟨same, _⟩ := poisoned_step (mirrors.stopped halted) other
  have nothing : framesTaken (event step d op) = [] := by
    rw [framesTaken, event, consumption_same (by rw [same])]
    rfl
  have idle : readerStep config version r .poll = (.stopped, r) := by
    simp [StreamReader.step, StreamReader.poll, halted]
  rw [Follows, nothing, same]
  rcases readerCalls_poisoned (mirrors.stopped halted) op with none | poll
  · rw [none]
    exact ⟨rfl, mirrors⟩
  · rw [poll]
    constructor
    · simp [event, idle, framesShown, StreamReader.taken]
    · rw [final_cons, idle]
      exact mirrors

theorem feed (mirrors : Mirrors config version d r) (data : Bytes) :
    Follows config version d r (.feed data) := by
  cases runs : r.state with
  | none => exact mirrors.halted runs (by simp)
  | some p =>
      obtain ⟨held, live⟩ := mirrors.running p runs
      obtain ⟨reply, bounded, next⟩ := ReadBuffer.feed_matches mirrors.sound.buffer.bounded data
      have sound := mirrors.sound.step (.feed data)
      have nothing : framesTaken (event step d (.feed data)) = [] := by
        rw [framesTaken, consumption_other (by simp [event]) (by simp [event])]
        rfl
      rcases live.feed_cases data with ⟨fed, _⟩ | ⟨error, _, _, fed⟩
      · rw [fed] at reply next
        have accepted : readerCalls d (.feed data) = [.feed data] := by
          simp [readerCalls, MessageDecoder.feed, reply]
        have appended : (d.buffer.feed data).2.unread = d.buffer.unread ++ data :=
          congrArg ByteQueue.unread next
        rw [Follows, nothing, accepted]
        refine ⟨rfl, sound, appended.trans (by rw [mirrors.unread]; rfl), fun halted => ?_,
          fun q member => ?_⟩
        · change r.state = none at halted
          rw [runs] at halted
          cases halted
        · obtain rfl : p = q := by
            change q ∈ r.state at member
            rw [runs] at member
            exact Option.some.inj member
          have healthy : (d.buffer.feed data).2.poisoned = none :=
            (congrArg ByteQueue.poisoned next).trans held.healthy
          refine ⟨held.withBuffer sound.buffer healthy, ?_⟩
          change (d.buffer.feed data).2.queue.Live _
          rw [next]
          exact live.with_unread _
      · rw [fed] at reply next
        have rejected := live.reject_eq error
        rw [ReadBuffer.queue_unread] at rejected
        simp only [rejected] at next
        by_cases empty : d.buffer.unread = []
        · rw [if_pos empty] at next
          have silent : readerCalls d (.feed data) = [] := by
            have kept : (d.buffer.feed data).2.poisoned = none :=
              (congrArg ByteQueue.poisoned next).trans held.healthy
            simp [readerCalls, MessageDecoder.feed, reply, isPoisoned, ReadBuffer.isPoisoned, kept]
          exact mirrors.quiet silent rfl bounded next
        · rw [if_neg empty] at next
          have poisoned : (d.buffer.feed data).2.poisoned = some error :=
            congrArg ByteQueue.poisoned next
          have kept : (d.buffer.feed data).2.unread = d.buffer.unread := congrArg ByteQueue.unread next
          have gives_up : readerCalls d (.feed data) = [.abort] := by
            simp [readerCalls, MessageDecoder.feed, reply, isPoisoned, ReadBuffer.isPoisoned,
              held.healthy, poisoned]
          rw [Follows, nothing, gives_up]
          refine ⟨rfl, sound, kept.trans mirrors.unread, fun _ => ?_, fun q member => ?_⟩
          · change (d.buffer.feed data).2.poisoned ≠ none
            rw [poisoned]
            exact Option.some_ne_none error
          · change q ∈ (none : Option _) at member
            cases member

section Poll

variable {p : Phase config} (mirrors : Mirrors config version d r) (runs : r.state = some p)
include mirrors runs

theorem poll_incomplete (found : wire.head config.maxMessageSize r.unread = .incomplete) :
    Polls config version d r := by
  obtain ⟨held, live⟩ := mirrors.running p runs
  obtain ⟨b, bounded, read⟩ := ReadBuffer.readMessage_live mirrors.sound.buffer.bounded live
  rw [mirrors.unread, found] at read
  obtain ⟨read, queue⟩ := read
  have stepped := due_waits held.healthy held.done read
  simp only [Polls, event, StreamReader.step, StreamReader.poll, runs, found]
  refine ⟨congrArg Prod.fst stepped, ?_, ?_⟩
  · rw [framesTaken, consumption_same (by rw [stepped]; exact congrArg ByteQueue.unread queue)]
    rfl
  · rw [stepped]
    exact mirrors.keep bounded queue

/-- Between responses an oversized header is refused and stays; inside a result set it poisons. -/
theorem poll_oversized (found : wire.head config.maxMessageSize r.unread = .oversized) :
    Polls config version d r := by
  obtain ⟨held, live⟩ := mirrors.running p runs
  obtain ⟨b, bounded, read⟩ := ReadBuffer.readMessage_live mirrors.sound.buffer.bounded live
  rw [mirrors.unread, found] at read
  obtain ⟨read, queue⟩ := read
  have kept := mirrors.keep bounded queue
  have stepped := due_refuses held.healthy held.done (e := d.buffer.queue.oversizedError) rfl read
  have size : d.buffer.queue.oversizedError =
      ReadBuffer.tooLarge (wire.size r.unread) config.maxMessageSize := by
    rw [ByteQueue.oversizedError, ReadBuffer.queue_unread, mirrors.unread, ReadBuffer.queue_cap,
      mirrors.sound.buffer.cap_eq]
  simp only [Polls, event, StreamReader.step, StreamReader.poll, runs, found]
  refine ⟨(congrArg Prod.fst stepped).trans (by rw [size]; rfl), ?_⟩
  have silent (same : (d.step d.due).2.buffer.unread = d.buffer.unread) :
      framesTaken ⟨d, d.due, (d.step d.due).1, (d.step d.due).2⟩ = [] := by
    rw [framesTaken, consumption_same same]
    rfl
  rw [stepped] at silent ⊢
  rw [held.continuation_eq] at silent ⊢
  cases p with
  | idle =>
      refine ⟨silent (congrArg ByteQueue.unread queue), ?_⟩
      change Mirrors config version (d.withBuffer b) ⟨r.unread, some .idle⟩
      rw [← runs]
      exact kept
  | streaming s =>
      have unread : ((d.withBuffer b).finalizeContinuationState.poison
          oversizedContinuation).buffer.unread = r.unread := by
        rw [poison_buffer, finalize_buffer, ReadBuffer.poison_unread]
        exact kept.unread
      refine ⟨silent (unread.trans mirrors.unread.symm),
        kept.sound.finalize.poison oversizedContinuation, unread, fun _ => ?_, by simp [protocolReader,
          Phase.isIdle]⟩
      change ((d.withBuffer b).finalizeContinuationState.poison
          oversizedContinuation).buffer.poisoned ≠ none
      rw [poison_buffer, finalize_buffer]
      exact ReadBuffer.poison_poisoned b _

theorem poll_frame {f rest : Bytes} (found : wire.head config.maxMessageSize r.unread = .frame f rest) :
    Polls config version d r := by
  obtain ⟨held, live⟩ := mirrors.running p runs
  obtain ⟨b, bounded, read⟩ := ReadBuffer.readMessage_live mirrors.sound.buffer.bounded live
  rw [mirrors.unread, found] at read
  obtain ⟨read, queue⟩ := read
  obtain ⟨whole, legal⟩ := wire.head_frame _ found
  have cap : b.maxMessageSize = config.maxMessageSize :=
    (congrArg ByteQueue.cap queue).trans mirrors.sound.buffer.cap_eq
  have sane : b.poisoned = none := (congrArg ByteQueue.poisoned queue).trans held.healthy
  have unread : b.unread = rest := congrArg ByteQueue.unread queue
  have stepped := due_reads_frame held.healthy held.done read
  obtain ⟨reply, leaves⟩ := accept_takes (held.withBuffer ⟨bounded, cap⟩ sane) legal
  have answer : (d.step d.due).1 = replyOf (p.takes version f).1 := by
    rw [stepped, reply]
    cases (p.takes version f).1 <;> rfl
  have after : (d.step d.due).2.buffer.unread = rest := by
    rw [stepped]
    rcases accept_buffer (d := d.withBuffer b) sane held.done f with same | ⟨e, same⟩
    · rw [same]
      exact unread
    · rw [same, ReadBuffer.poison_unread]
      exact unread
  simp only [Polls, event, StreamReader.step, StreamReader.poll, runs, found]
  refine ⟨answer, ?_, mirrors.sound.step d.due, after, fun halted => ?_, fun q member => ?_⟩
  · rw [framesTaken, consumption_frame (due_reads d) legal.ne_nil (mirrors.unread.trans whole) after,
      answer]
    rfl
  · rw [stepped]
    change (p.takes version f).2 = none at halted
    rw [halted] at leaves
    exact leaves
  · change q ∈ (p.takes version f).2 at member
    rw [Option.mem_def.mp member] at leaves
    obtain ⟨fields, buffer, spoken, done⟩ := leaves
    have sound := mirrors.sound.step d.due
    rw [stepped] at sound ⊢
    refine ⟨⟨sound, ?_, done, spoken, fields⟩, ?_⟩
    · rw [buffer]
      exact sane
    · rw [buffer]
      change b.queue.Live _
      rw [queue]
      exact live.with_unread rest

end Poll

theorem poll (mirrors : Mirrors config version d r) (runs : r.state ≠ none) :
    Polls config version d r := by
  obtain ⟨p, runs⟩ := Option.ne_none_iff_exists'.mp runs
  cases found : wire.head config.maxMessageSize r.unread with
  | incomplete => exact mirrors.poll_incomplete runs found
  | oversized => exact mirrors.poll_oversized runs found
  | frame f rest => exact mirrors.poll_frame runs found

theorem step (mirrors : Mirrors config version d r) {op : DecoderOp} (call : streamCall op = true) :
    Follows config version d r op := by
  have bounded := mirrors.sound.buffer.bounded
  have unchanged (silent : readerCalls d op = []) (same : ∃ reply, d.step op = (reply, d)) :
      Follows config version d r op := by
    obtain ⟨reply, same⟩ := same
    exact mirrors.quiet silent (b := d.buffer) (by rw [same]; rfl) bounded rfl
  have read (reads : op = .decode ∨ op = .decodeContinuation)
      (calls : readerCalls d op = if d.due = op then [.poll] else []) :
      Follows config version d r op := by
    cases runs : r.state with
    | none => exact mirrors.halted runs (by rcases reads with rfl | rfl <;> simp)
    | some p =>
        by_cases due : d.due = op
        · obtain ⟨_, seen, next⟩ := mirrors.poll (by simp [runs])
          rw [Follows, calls, if_pos due, ← due, history_cons, history_nil, List.flatMap_cons, List.flatMap_nil,
            List.append_nil]
          exact ⟨seen, next⟩
        · obtain ⟨e, refused⟩ := not_due_refused reads (Ne.symm due)
          exact unchanged (by rw [calls, if_neg due]) ⟨_, refused⟩
  cases op with
  | feed data => exact mirrors.feed data
  | hasMessage => exact unchanged rfl ⟨_, rfl⟩
  | decodeBytes data => exact unchanged rfl ⟨_, rfl⟩
  | pendingFrameSize =>
      obtain ⟨_, _, queue⟩ := ReadBuffer.peekHeader_matches bounded
      exact mirrors.quiet rfl rfl ((mirrors.sound.step .pendingFrameSize).buffer.bounded) queue
  | decode => exact read (Or.inl rfl) rfl
  | decodeContinuation => exact read (Or.inr rfl) rfl
  | decodeHandshake =>
      cases runs : r.state with
      | none => exact mirrors.halted runs (by simp)
      | some p =>
          obtain ⟨held, _⟩ := mirrors.running p runs
          apply unchanged rfl
          simp only [MessageDecoder.step, decodeHandshake, held.done, if_true]
          exact ⟨_, rfl⟩
  | takeFrame | skipMessage | reset => cases call

end Mirrors

end Simulation

end DqliteWire
