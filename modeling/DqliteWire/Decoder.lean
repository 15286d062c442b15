import DqliteWire.Frames
import DqliteWire.Framing

/-! What one call of the decoder can do: for each method the list of its outcomes, guards included.
The invariants of later modules are case analyses of these. -/

namespace DqliteWire

open WireLib WireLib.Utf8

namespace ReadBuffer

theorem checkPoisoned_ok {b : ReadBuffer} : b.checkPoisoned = .ok () ↔ b.poisoned = none := by
  cases poisoned : b.poisoned <;> simp [checkPoisoned, poisoned]

theorem checkPoisoned_error {b : ReadBuffer} {e : Exn} :
    b.checkPoisoned = .error e ↔ ∃ cause, b.poisoned = some cause ∧ e = poisonedError cause := by
  cases poisoned : b.poisoned <;> simp [checkPoisoned, poisoned, eq_comm]

theorem readMessage_frame (b : ReadBuffer) :
    b.readMessage.2.queue = { b.queue with unread := b.readMessage.2.unread } := by
  unfold readMessage
  split
  · rfl
  · split
    · rfl
    · simp only [checkTornSize_eq]
      split
      · rfl
      · split
        · rfl
        · have same := queue_maybeCompact (b.advance (headerSize + fromLE (b.slice 4) * wordSize))
          rw [queue_advance] at same
          rw [same]
          have unread := congrArg ByteQueue.unread same
          simp only [queue_unread] at unread
          rw [unread]

theorem readMessage_poisoned {b after : ReadBuffer} {reply : Except Exn (Option Bytes)}
    (read : b.readMessage = (reply, after)) : after.poisoned = b.poisoned := by
  have same := congrArg ByteQueue.poisoned b.readMessage_frame
  rw [read] at same
  exact same

theorem readMessage_error {b after : ReadBuffer} {e : Exn} (healthy : b.poisoned = none)
    (read : b.readMessage = (.error e, after)) : ∃ size, e = tooLarge size b.maxMessageSize := by
  unfold readMessage at read
  simp only [checkPoisoned, healthy, checkTornSize_eq] at read
  split at read
  · cases read
  · split at read
    · simp only [Prod.mk.injEq, Except.error.injEq] at read
      exact ⟨_, read.1.symm⟩
    · split at read <;> cases read

theorem poison_of_healthy {b : ReadBuffer} (healthy : b.poisoned = none) (error : Exn) :
    b.poison error = { b with poisoned := some error } := if_pos healthy

end ReadBuffer

namespace MessageDecoder

/-- What `decode` can do. The frame-consuming outcomes come after the two guards. -/
inductive DecodeOutcome (d : MessageDecoder) :
    Except Exn (Option Message) × MessageDecoder → Prop
  | refused (e : Exn) (guarded : d.buffer.poisoned ≠ none ∨ d.continuation.expected = true ∨
      d.handshakeDone = false) : DecodeOutcome d (.error e, d)
  | waiting (b : ReadBuffer) (idle : d.continuation.expected = false)
      (read : d.buffer.readMessage = (.ok none, b)) :
      DecodeOutcome d (.ok none, d.withBuffer b)
  | unreadable (b : ReadBuffer) (e : Exn) (idle : d.continuation.expected = false)
      (read : d.buffer.readMessage = (.error e, b)) :
      DecodeOutcome d (.error e, d.withBuffer b)
  | failed (b : ReadBuffer) (data : Bytes) (e : Exn) (idle : d.continuation.expected = false)
      (read : d.buffer.readMessage = (.ok (some data), b))
      (raised : decodeFrame d.config d.version data = .error e ∨
        ∃ result, decodeFrame d.config d.version data = .ok (.response (.rows result)) ∧
          result.hasMore = true ∧ ∃ cap ∈ d.config.maxTotalRows, cap < result.rows.length) :
      DecodeOutcome d (.error e, (d.withBuffer b).poison (poisonCause "decode" e))
  | whole (b : ReadBuffer) (data : Bytes) (message : Message)
      (idle : d.continuation.expected = false)
      (read : d.buffer.readMessage = (.ok (some data), b))
      (decoded : decodeFrame d.config d.version data = .ok message)
      (last : ∀ result, message = .response (.rows result) → result.hasMore = false) :
      DecodeOutcome d (.ok (some message), d.withBuffer b)
  | opened (b : ReadBuffer) (data : Bytes) (result : RowsResponse)
      (idle : d.continuation.expected = false)
      (read : d.buffer.readMessage = (.ok (some data), b))
      (decoded : decodeFrame d.config d.version data = .ok (.response (.rows result)))
      (more : result.hasMore = true)
      (within : ∀ cap ∈ d.config.maxTotalRows, result.rows.length ≤ cap) :
      DecodeOutcome d (.ok (some (.response (.rows result))),
        { d.withBuffer b with continuation := ⟨true, 1, result.rows.length,
          some result.columnNames.length, some result.columnNames⟩ })

section WithBuffer

variable (d : MessageDecoder) (b : ReadBuffer)

@[simp] theorem withBuffer_buffer : (d.withBuffer b).buffer = b := rfl
@[simp] theorem withBuffer_config : (d.withBuffer b).config = d.config := rfl
@[simp] theorem withBuffer_version : (d.withBuffer b).version = d.version := rfl
@[simp] theorem withBuffer_handshakeDone : (d.withBuffer b).handshakeDone = d.handshakeDone := rfl
@[simp] theorem withBuffer_continuation : (d.withBuffer b).continuation = d.continuation := rfl

end WithBuffer

theorem decodeBytes_ready {d : MessageDecoder} (healthy : d.buffer.poisoned = none)
    (done : d.handshakeDone = true) (data : Bytes) :
    d.decodeBytes data = decodeFrame d.config d.version data := by
  simp [decodeBytes, ReadBuffer.checkPoisoned, healthy, done, raiseIf, ok_bind]

theorem startMessage_cases (d : MessageDecoder) (healthy : d.buffer.poisoned = none)
    (done : d.handshakeDone = true) (data : Bytes) :
    (∃ e, d.startMessage data = (.error e, d) ∧
        (decodeFrame d.config d.version data = .error e ∨
          ∃ result, decodeFrame d.config d.version data = .ok (.response (.rows result)) ∧
            result.hasMore = true ∧ ∃ cap ∈ d.config.maxTotalRows, cap < result.rows.length)) ∨
      (∃ message, d.startMessage data = (.ok message, d) ∧
        decodeFrame d.config d.version data = .ok message ∧
        ∀ result, message = .response (.rows result) → result.hasMore = false) ∨
      ∃ result, d.startMessage data = (.ok (.response (.rows result)),
          { d with continuation := ⟨true, 1, result.rows.length, some result.columnNames.length,
            some result.columnNames⟩ }) ∧
        decodeFrame d.config d.version data = .ok (.response (.rows result)) ∧
        result.hasMore = true ∧ ∀ cap ∈ d.config.maxTotalRows, result.rows.length ≤ cap := by
  have started : d.startMessage data = d.startMessage data := rfl
  rw [startMessage, decodeBytes_ready healthy done] at started ⊢
  cases decoded : decodeFrame d.config d.version data with
  | error e => exact Or.inl ⟨e, rfl, Or.inl rfl⟩
  | ok message =>
      cases message with
      | request m => exact Or.inr (Or.inl ⟨_, rfl, rfl, fun _ same => by cases same⟩)
      | response m =>
          cases m with
          | rows result =>
              by_cases more : result.hasMore = true
              · by_cases over_ : ∃ cap ∈ d.config.maxTotalRows, cap < result.rows.length
                · simp only [more, if_true, if_pos over_]
                  exact Or.inl ⟨_, rfl, Or.inr ⟨result, rfl, more, over_⟩⟩
                · simp only [more, if_true, if_neg over_]
                  refine Or.inr (Or.inr ⟨result, rfl, rfl, more, fun cap member => ?_⟩)
                  by_contra large
                  exact over_ ⟨cap, member, by omega⟩
              · simp only [more]
                refine Or.inr (Or.inl ⟨_, rfl, rfl, fun other same => ?_⟩)
                cases same
                exact Bool.eq_false_iff.mpr more
          | failure | leader | welcome | servers | db | stmt | result | empty | files | metadata =>
              exact Or.inr (Or.inl ⟨_, rfl, rfl, fun _ same => by cases same⟩)

theorem decode_outcome (d : MessageDecoder) : DecodeOutcome d d.decode := by
  unfold decode
  cases checked : d.buffer.checkPoisoned with
  | error e =>
      obtain ⟨cause, poisoned, _⟩ := ReadBuffer.checkPoisoned_error.mp checked
      exact .refused e (Or.inl (by simp [poisoned]))
  | ok _ =>
      have healthy := ReadBuffer.checkPoisoned_ok.mp checked
      by_cases expected : d.continuation.expected = true
      · simp only [expected, if_true]
        exact .refused _ (Or.inr (Or.inl expected))
      · by_cases done : d.handshakeDone = true
        · have idle := Bool.eq_false_iff.mpr expected
          rw [if_neg expected, if_neg (by simp [done])]
          rcases read : d.buffer.readMessage with ⟨reply, b⟩
          have kept : b.poisoned = none := (ReadBuffer.readMessage_poisoned read).trans healthy
          cases reply with
          | error e => exact .unreadable b e idle read
          | ok message =>
              cases message with
              | none => exact .waiting b idle read
              | some data =>
                  rcases startMessage_cases (d.withBuffer b) kept done data with
                    ⟨e, started, raised⟩ | ⟨message, started, decoded, last⟩ |
                    ⟨result, started, decoded, more, within⟩
                  · simp only [started]
                    exact .failed b data e idle read raised
                  · simp only [started]
                    exact .whole b data message idle read decoded last
                  · simp only [started]
                    exact .opened b data result idle read decoded more within
        · rw [if_neg expected, if_pos (by simpa using done)]
          exact .refused _ (Or.inr (Or.inr (by simpa using done)))

section Finalize

variable (d : MessageDecoder)

@[simp] theorem finalize_buffer : d.finalizeContinuationState.buffer = d.buffer := by
  unfold finalizeContinuationState
  simp only
  split <;> rfl

@[simp] theorem finalize_config : d.finalizeContinuationState.config = d.config := by
  unfold finalizeContinuationState
  simp only
  split <;> rfl

@[simp] theorem finalize_continuation : d.finalizeContinuationState.continuation = .idle := by
  unfold finalizeContinuationState
  simp only
  split <;> rfl

@[simp] theorem poison_config (e : Exn) : (d.poison e).config = d.config := rfl
@[simp] theorem poison_continuation (e : Exn) : (d.poison e).continuation = d.continuation := rfl
@[simp] theorem poison_version (e : Exn) : (d.poison e).version = d.version := rfl
@[simp] theorem poison_handshakeDone (e : Exn) : (d.poison e).handshakeDone = d.handshakeDone := rfl
@[simp] theorem poison_buffer (e : Exn) : (d.poison e).buffer = d.buffer.poison e := rfl

end Finalize

/-- What a ROWS frame must satisfy to continue the stream of `d`. -/
structure Continues (d : MessageDecoder) (result : RowsResponse) : Prop where
  frames_within : ∀ cap ∈ d.config.maxContinuationFrames, d.continuation.frameCount + 1 ≤ cap
  rows_within : ∀ cap ∈ d.config.maxTotalRows, d.continuation.totalRows + result.rows.length ≤ cap
  same_count : ∀ count ∈ d.continuation.columnCount, result.columnNames.length = count
  same_names : ∀ names ∈ d.continuation.columnNames, result.columnNames = names

def counted (d : MessageDecoder) (result : RowsResponse) : MessageDecoder :=
  { d with continuation := { d.continuation with
      frameCount := d.continuation.frameCount + 1
      totalRows := d.continuation.totalRows + result.rows.length } }

theorem continueRows_cases (d : MessageDecoder) (result : RowsResponse) :
    (∃ text d', d.continueRows result = (.error (.decodeError text), d') ∧
        d'.finalizeContinuationState = d.finalizeContinuationState ∧ ¬ Continues d result) ∨
      (Continues d result ∧ result.hasMore = true ∧
        d.continueRows result = (.ok (.response (.rows result)), d.counted result)) ∨
      (Continues d result ∧ result.hasMore = false ∧
        d.continueRows result =
          (.ok (.response (.rows result)), d.finalizeContinuationState)) := by
  unfold continueRows
  simp only
  split
  · rename_i exceeded
    obtain ⟨cap, member, large⟩ := exceeded
    exact Or.inl ⟨_, _, rfl, rfl, fun held => absurd (held.frames_within cap member) (by omega)⟩
  · rename_i frames
    split
    · rename_i exceeded
      obtain ⟨cap, member, large⟩ := exceeded
      exact Or.inl ⟨_, _, rfl, rfl, fun held => absurd (held.rows_within cap member) (by omega)⟩
    · rename_i rows
      split
      · rename_i drift
        obtain ⟨count, member, differs⟩ := drift
        exact Or.inl ⟨_, _, rfl, rfl, fun held => differs (held.same_count count member)⟩
      · rename_i count
        split
        · rename_i drift
          obtain ⟨names, member, differs⟩ := drift
          exact Or.inl ⟨_, _, rfl, rfl, fun held => differs (held.same_names names member)⟩
        · rename_i names
          have continues : Continues d result := by
            refine ⟨fun cap member => ?_, fun cap member => ?_, fun n member => ?_,
              fun ns member => ?_⟩
            · exact not_lt.mp fun large => frames ⟨cap, member, large⟩
            · exact not_lt.mp fun large => rows ⟨cap, member, large⟩
            · exact not_not.mp fun differs => count ⟨n, member, differs⟩
            · exact not_not.mp fun differs => names ⟨ns, member, differs⟩
          cases more : result.hasMore with
          | true => exact Or.inr (Or.inl ⟨continues, rfl, rfl⟩)
          | false => exact Or.inr (Or.inr ⟨continues, rfl, rfl⟩)

def HoldsRows (config : Config) (data : Bytes) (result : RowsResponse) : Prop :=
  ∃ header, Header.decode (data.take headerSize) = .ok header ∧
    header.msgType = ResponseType.rows.code ∧
    RowsResponse.decodeBody ((data.drop headerSize).take header.bodySize) header.schema
      config.maxRows config.textErrors = .ok result

def HoldsOther (data : Bytes) : Prop :=
  ∃ header, Header.decode (data.take headerSize) = .ok header ∧
    header.msgType ≠ ResponseType.rows.code

inductive ContinuationOutcome (d : MessageDecoder) :
    Except Exn (Option Message) × MessageDecoder → Prop
  | refused (e : Exn)
      (guarded : d.buffer.poisoned ≠ none ∨ d.continuation.expected = false)
      (kind : (∃ cause, e = ReadBuffer.poisonedError cause) ∨ ∃ text, e = .continuationError text) :
      ContinuationOutcome d (.error e, d)
  | waiting (b : ReadBuffer) (expected : d.continuation.expected = true)
      (read : d.buffer.readMessage = (.ok none, b)) :
      ContinuationOutcome d (.ok none, d.withBuffer b)
  | oversized (b : ReadBuffer) (size : Nat) (expected : d.continuation.expected = true)
      (read : d.buffer.readMessage = (.error (ReadBuffer.tooLarge size d.buffer.maxMessageSize), b)) :
      ContinuationOutcome d (.error (ReadBuffer.tooLarge size d.buffer.maxMessageSize),
        (d.withBuffer b).finalizeContinuationState.poison oversizedContinuation)
  | wrongType (b : ReadBuffer) (data : Bytes) (msgType : Nat)
      (expected : d.continuation.expected = true)
      (read : d.buffer.readMessage = (.ok (some data), b)) :
      ContinuationOutcome d
        (.error (wrongFrameType msgType d.continuation.frameCount d.continuation.totalRows),
          (d.withBuffer b).finalizeContinuationState)
  | failure (b : ReadBuffer) (data : Bytes) (code : Int) (message : Str)
      (expected : d.continuation.expected = true)
      (read : d.buffer.readMessage = (.ok (some data), b)) :
      ContinuationOutcome d (.error (.serverFailure code message),
        (d.withBuffer b).finalizeContinuationState)
  | rejected (b : ReadBuffer) (data : Bytes) (text : Text)
      (expected : d.continuation.expected = true)
      (read : d.buffer.readMessage = (.ok (some data), b)) :
      ContinuationOutcome d (.error (.decodeError text),
        (d.withBuffer b).finalizeContinuationState)
  | broken (b : ReadBuffer) (data : Bytes) (e : Exn) (expected : d.continuation.expected = true)
      (read : d.buffer.readMessage = (.ok (some data), b)) (body : e.IsBodyError) :
      ContinuationOutcome d (.error e,
        (d.withBuffer b).finalizeContinuationState.poison (poisonCause "decode_continuation" e))
  | emptied (b : ReadBuffer) (data : Bytes) (result : EmptyResponse)
      (expected : d.continuation.expected = true)
      (read : d.buffer.readMessage = (.ok (some data), b)) :
      ContinuationOutcome d (.ok (some (.response (.empty result))),
        (d.withBuffer b).finalizeContinuationState)
  | continued (b : ReadBuffer) (data : Bytes) (result : RowsResponse)
      (expected : d.continuation.expected = true)
      (read : d.buffer.readMessage = (.ok (some data), b))
      (decoded : HoldsRows d.config data result) (continues : Continues d result)
      (more : result.hasMore = true) :
      ContinuationOutcome d (.ok (some (.response (.rows result))),
        (d.withBuffer b).counted result)
  | ended (b : ReadBuffer) (data : Bytes) (result : RowsResponse)
      (expected : d.continuation.expected = true)
      (read : d.buffer.readMessage = (.ok (some data), b))
      (decoded : HoldsRows d.config data result) (continues : Continues d result)
      (last : result.hasMore = false) :
      ContinuationOutcome d (.ok (some (.response (.rows result))),
        (d.withBuffer b).finalizeContinuationState)

theorem raised_cases {d d' : MessageDecoder} {e : Exn} (body : e.IsBodyError)
    (same : d'.finalizeContinuationState = d.finalizeContinuationState) :
    (∃ text, e = .decodeError text ∧ d'.continuationRaised e = d.finalizeContinuationState) ∨
      d'.continuationRaised e =
        d.finalizeContinuationState.poison (poisonCause "decode_continuation" e) := by
  cases e with
  | decodeError text => exact Or.inl ⟨text, rfl, same⟩
  | streamError | poisonedError | serverFailure | handshakeError | continuationError
  | keyboardInterrupt => exact body.elim
  | encodeError | valueError | typeError | indexError | structError | runtimeError
  | unicodeDecodeError | outOfFuel =>
      exact Or.inr (congrArg (poison · (poisonCause "decode_continuation" _)) same)

theorem continueStream_cases (d : MessageDecoder) (data : Bytes) :
    (∃ e d', d.continueStream data = (.error e, d') ∧ e.IsBodyError ∧
        d'.finalizeContinuationState = d.finalizeContinuationState) ∨
      (∃ msgType, HoldsOther data ∧ d.continueStream data =
        (.error (wrongFrameType msgType d.continuation.frameCount d.continuation.totalRows),
          d.finalizeContinuationState)) ∨
      (∃ code message, HoldsOther data ∧ d.continueStream data =
        (.error (.serverFailure code message), d.finalizeContinuationState)) ∨
      (∃ result, HoldsOther data ∧ d.continueStream data =
        (.ok (.response (.empty result)), d.finalizeContinuationState)) ∨
      ∃ result, HoldsRows d.config data result ∧ Continues d result ∧
        ((result.hasMore = true ∧
            d.continueStream data = (.ok (.response (.rows result)), d.counted result)) ∨
          (result.hasMore = false ∧ d.continueStream data =
            (.ok (.response (.rows result)), d.finalizeContinuationState))) := by
  unfold continueStream
  cases decoded : Header.decode (data.take headerSize) with
  | error e => exact Or.inl ⟨e, d, rfl, (Header.decode_errors data _ decoded).body .strict, rfl⟩
  | ok header =>
      simp only
      split
      · rename_i unknown
        refine Or.inr (Or.inl ⟨_, ⟨header, decoded, fun rows => unknown ?_⟩, rfl⟩)
        rw [rows]
        decide
      · rename_i known
        cases schema : checkSchema d.config.isRequest header with
        | error e => exact Or.inl ⟨e, d, rfl, (checkSchema_errors _ _ _ schema).body .strict, rfl⟩
        | ok _ =>
            simp only
            split
            · rename_i type
              have other : HoldsOther data := ⟨header, decoded, by rw [type]; decide⟩
              split
              · rename_i e raised
                exact Or.inl ⟨e, d, rfl, (FailureResponse.decodeBody_errors _ _ _ raised).body .strict,
                  rfl⟩
              · exact Or.inr (Or.inr (Or.inl ⟨_, _, other, rfl⟩))
            · rename_i failure
              split
              · rename_i type
                have other : HoldsOther data := ⟨header, decoded, by rw [type]; decide⟩
                split
                · rename_i e raised
                  exact Or.inl ⟨e, d, rfl, (EmptyResponse.decodeBody_errors _ _ _ raised).body .strict,
                    rfl⟩
                · exact Or.inr (Or.inr (Or.inr (Or.inl ⟨_, other, rfl⟩)))
              · rename_i empty
                have type : header.msgType = ResponseType.rows.code := by
                  simpa [failure, empty] using known
                split
                · rename_i e raised
                  exact Or.inl ⟨e, d, rfl, (RowsResponse.decodeBody_errors _ _ _ _ raised).body _, rfl⟩
                · rename_i result rows
                  rcases continueRows_cases d result with
                    ⟨text, d', stepped, same, _⟩ | ⟨continues, more, stepped⟩ |
                    ⟨continues, last, stepped⟩
                  · exact Or.inl ⟨_, d', stepped, trivial, same⟩
                  · exact Or.inr (Or.inr (Or.inr (Or.inr ⟨result, ⟨header, decoded, type, rows⟩,
                      continues, Or.inl ⟨more, stepped⟩⟩)))
                  · exact Or.inr (Or.inr (Or.inr (Or.inr ⟨result, ⟨header, decoded, type, rows⟩,
                      continues, Or.inr ⟨last, stepped⟩⟩)))

theorem decodeContinuation_outcome (d : MessageDecoder) :
    ContinuationOutcome d d.decodeContinuation := by
  unfold decodeContinuation
  cases checked : d.buffer.checkPoisoned with
  | error e =>
      obtain ⟨cause, poisoned, rfl⟩ := ReadBuffer.checkPoisoned_error.mp checked
      exact .refused _ (Or.inl (by simp [poisoned])) (Or.inl ⟨cause, rfl⟩)
  | ok _ =>
      have healthy := ReadBuffer.checkPoisoned_ok.mp checked
      by_cases idle : d.continuation.expected = false
      · rw [if_pos idle]
        exact .refused _ (Or.inr idle) (Or.inr ⟨_, rfl⟩)
      · have expected : d.continuation.expected = true := by simpa using idle
        rw [if_neg idle]
        rcases read : d.buffer.readMessage with ⟨reply, b⟩
        cases reply with
        | error e =>
            obtain ⟨size, rfl⟩ := ReadBuffer.readMessage_error healthy read
            exact .oversized b size expected read
        | ok message =>
            cases message with
            | none => exact .waiting b expected read
            | some data =>
                rcases continueStream_cases (d.withBuffer b) data with
                  ⟨e, d', stepped, body, same⟩ | ⟨msgType, _, stepped⟩ |
                  ⟨code, message, _, stepped⟩ | ⟨result, _, stepped⟩ | ⟨result, decoded, ⟨frames, rows, count, names⟩,
                    ⟨more, stepped⟩ | ⟨last, stepped⟩⟩
                · simp only [stepped]
                  rcases raised_cases body same with ⟨text, rfl, after⟩ | after
                  · rw [after]
                    exact .rejected b data text expected read
                  · rw [after]
                    exact .broken b data e expected read body
                · simp only [stepped]
                  exact .wrongType b data msgType expected read
                · simp only [stepped]
                  exact .failure b data code message expected read
                · simp only [stepped]
                  exact .emptied b data result expected read
                · simp only [stepped]
                  exact .continued b data result expected read decoded
                    ⟨frames, rows, count, names⟩ more
                · simp only [stepped]
                  exact .ended b data result expected read decoded
                    ⟨frames, rows, count, names⟩ last

end MessageDecoder

end DqliteWire
