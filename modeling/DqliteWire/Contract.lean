import DqliteWire.Bookkeeping
import DqliteWire.Readers
import DqliteWire.Session
import DqliteWire.Totality

/-! What an exception tells the caller of a decoder: which calls raise its class, and whether the decoder is
as it was, one frame further and usable, or poisoned. -/

namespace DqliteWire

open WireLib WireLib.Utf8

namespace ReadBuffer

variable {b after : ReadBuffer}

theorem readMessage_raised (healthy : b.poisoned = none) {e : Exn} (read : b.readMessage = (.error e, after)) :
    after = b ∧ ∃ text, e = .decodeError text := by
  unfold readMessage at read
  simp only [checkPoisoned, healthy, checkTornSize_eq] at read
  split at read
  · cases read
  · split at read
    · cases read
      exact ⟨rfl, _, rfl⟩
    · split at read <;> cases read

theorem peekHeader_raised (bounded : b.Bounded) (healthy : b.poisoned = none) {e : Exn}
    (raised : b.peekHeader.1 = .error e) : ∃ text, e = .decodeError text := by
  cases readings bounded healthy with
  | short few read has peek skip | lacking _ _ long read has peek skip
  | complete _ _ long whole read has peek skip =>
      rw [peek] at raised
      cases raised
  | oversized long read has peek skip =>
      rw [peek] at raised
      exact ⟨_, (Except.error.inj raised).symm⟩

theorem readMessage_frame_taken (bounded : b.Bounded) (healthy : b.poisoned = none) {f : Bytes}
    (read : b.readMessage = (.ok (some f), after)) :
    wire.IsFrame b.maxMessageSize f ∧ b.unread = f ++ after.unread := by
  obtain ⟨reply, _, next⟩ := readMessage_matches bounded
  have queue_healthy : b.queue.poisoned = none := healthy
  simp only [read, ByteQueue.readMessage, queue_healthy] at reply next
  split at reply
  · cases reply
  · cases reply
  · rename_i message rest found
    simp only [found] at next
    cases reply
    obtain ⟨split_, legal⟩ := wire.head_frame _ found
    have left_ : after.unread = rest := congrArg ByteQueue.unread next
    rw [left_]
    exact ⟨legal, split_⟩

end ReadBuffer

open MessageDecoder

/-- One frame further with no result set in progress, and nothing else changed: the next call reads the
next frame. -/
structure Resynced (d d' : MessageDecoder) : Prop where
  frame : ∃ f, wire.IsFrame d.config.maxMessageSize f ∧ d.buffer.unread = f ++ d'.buffer.unread
  healthy : d'.buffer.poisoned = none
  idle : d'.continuation = .idle
  config : d'.config = d.config
  version : d'.version = d.version
  handshakeDone : d'.handshakeDone = d.handshakeDone

structure Spoilt (d d' : MessageDecoder) (e : Exn) : Prop where
  frame : ∃ f, wire.IsFrame d.config.maxMessageSize f ∧ d.buffer.unread = f ++ d'.buffer.unread
  poisoned : d'.buffer.poisoned = some e
  idle : d'.continuation = .idle

def AfterDecodeError (d : MessageDecoder) (e : Exn) (d' : MessageDecoder) : DecoderOp → Prop
  | .feed _ => d'.buffer.unread = d.buffer.unread ∧
      if d.isSkipping = true ∨ d.buffer.unread ≠ [] then d'.buffer.poisoned = some e else d' = d
  | .pendingFrameSize | .takeFrame | .decodeBytes _ => d' = d
  | .decode => d' = d ∨ Spoilt d d' e
  | .decodeContinuation => Resynced d d' ∨
      d'.buffer.unread = d.buffer.unread ∧ d'.buffer.poisoned = some oversizedContinuation ∧
        d'.continuation = .idle
  | _ => False

/-- What `op` raised, and what it leaves of `d`, by the class of the exception. -/
def Contract (d : MessageDecoder) (op : DecoderOp) (d' : MessageDecoder) : Exn → Prop
  | .poisonedError _ cause => d.buffer.poisoned = some cause ∧ d' = d
  | .continuationError _ => d' = d ∧
      if d.continuation.expected then op = .decode ∨ op = .skipMessage else op = .decodeContinuation
  | .handshakeError _ => d' = d ∧ (op = .decodeHandshake ∨
      d.handshakeDone = false ∧ (op = .decode ∨ ∃ data, op = .decodeBytes data))
  | .streamError _ frames rows => op = .decodeContinuation ∧ frames = d.continuation.frameCount ∧
      rows = d.continuation.totalRows ∧ Resynced d d'
  | .serverFailure code message => op = .decodeContinuation ∧ Resynced d d' ∧
      ∃ body schema, FailureResponse.decodeBody body schema = .ok ⟨code, message⟩
  | .decodeError text => AfterDecodeError d (.decodeError text) d' op
  | .typeError text => d.config.textErrors.RefusesDecoding ∧ ((∃ data, op = .decodeBytes data ∧ d' = d) ∨
      (op = .decode ∨ op = .decodeContinuation) ∧ Spoilt d d' (.typeError text))
  | _ => False

section Raises

variable {config : Config} {streams : List (List RowsResponse)} {d : MessageDecoder} {e : Exn}

theorem contract_feed {data : Bytes} (raised : (d.feed data).1 = .error e) :
    Contract d (.feed data) (d.feed data).2 e := by
  cases poisoned : d.buffer.poisoned with
  | some cause =>
      simp only [feed, ReadBuffer.feed, ReadBuffer.checkPoisoned, poisoned] at raised ⊢
      cases raised
      exact ⟨poisoned, rfl⟩
  | none =>
      obtain ⟨decode, after⟩ := ReadBuffer.feed_rejected poisoned raised
      cases e with
      | decodeError text =>
          obtain ⟨unread, flight⟩ := ReadBuffer.rejectFeed_cases poisoned (.decodeError text)
          have left_ : (d.feed data).2 = d.withBuffer (d.buffer.rejectFeed (.decodeError text)) := by
            rw [← after]
            rfl
          rw [left_]
          refine ⟨unread, ?_⟩
          have same : d.isSkipping = true ↔ 0 < d.buffer.skipRemaining := decide_eq_true_iff
          by_cases inFlight : 0 < d.buffer.skipRemaining ∨ d.buffer.unread ≠ []
          · rw [if_pos inFlight] at flight
            rw [if_pos (by rw [same]; exact inFlight)]
            exact flight.1
          · rw [if_neg inFlight] at flight
            rw [if_neg (by rw [same]; exact inFlight), flight]
            rfl
      | _ => cases decode

theorem contract_pendingFrameSize (sound : d.Sound config) (raised : d.pendingFrameSize.1 = .error e) :
    Contract d .pendingFrameSize d.pendingFrameSize.2 e := by
  have same : d.pendingFrameSize.2 = d := congrArg d.withBuffer d.buffer.peekHeader_unchanged
  have peeked : d.buffer.peekHeader.1 = .error e := by
    simp only [pendingFrameSize] at raised
    cases peek : d.buffer.peekHeader.1 with
    | error e' =>
        rw [peek] at raised
        cases raised
        rfl
    | ok header =>
        rw [peek] at raised
        cases raised
  rw [same]
  cases poisoned : d.buffer.poisoned with
  | some cause =>
      simp only [ReadBuffer.peekHeader, ReadBuffer.checkPoisoned, poisoned] at peeked
      cases peeked
      exact ⟨poisoned, rfl⟩
  | none =>
      obtain ⟨text, rfl⟩ := ReadBuffer.peekHeader_raised sound.buffer.bounded poisoned peeked
      exact rfl

theorem contract_takeFrame (raised : d.takeFrame.1 = .error e) : Contract d .takeFrame d.takeFrame.2 e := by
  simp only [takeFrame] at raised ⊢
  cases poisoned : d.buffer.poisoned with
  | some cause =>
      simp only [ReadBuffer.readMessage, ReadBuffer.checkPoisoned, poisoned] at raised ⊢
      cases raised
      exact ⟨poisoned, rfl⟩
  | none =>
      have read : d.buffer.readMessage = (.error e, d.buffer.readMessage.2) := Prod.ext raised rfl
      obtain ⟨same, text, rfl⟩ := ReadBuffer.readMessage_raised poisoned read
      rw [same]
      exact rfl

theorem contract_skipMessage (sound : d.Sound config) (raised : d.skipMessage.1 = .error e) :
    Contract d .skipMessage d.skipMessage.2 e := by
  unfold skipMessage at raised ⊢
  by_cases expected : d.continuation.expected = true
  · rw [if_pos expected] at raised ⊢
    cases raised
    refine ⟨rfl, ?_⟩
    rw [if_pos expected]
    exact Or.inr rfl
  · rw [if_neg expected] at raised ⊢
    cases poisoned : d.buffer.poisoned with
    | some cause =>
        simp only [ReadBuffer.skipMessage, ReadBuffer.checkPoisoned, poisoned] at raised ⊢
        cases raised
        exact ⟨poisoned, rfl⟩
    | none =>
        cases ReadBuffer.readings sound.buffer.bounded poisoned with
        | short few read has peek skip | oversized long read has peek skip
        | lacking _ _ long read has peek skip | complete _ _ long whole read has peek skip =>
            rw [skip] at raised
            cases raised

theorem decodeFrame_raised {version : Option Nat} {f : Bytes} (raised : decodeFrame config version f = .error e) :
    (∃ text, e = .decodeError text) ∨ ∃ text, e = .typeError text ∧ config.textErrors.RefusesDecoding := by
  have held := decodeFrame_errors config version f e raised
  cases e with
  | decodeError text => exact Or.inl ⟨text, rfl⟩
  | typeError text => exact Or.inr ⟨text, rfl, held⟩
  | _ => exact held.elim

theorem contract_decodeBytes {data : Bytes} (raised : d.decodeBytes data = .error e) :
    Contract d (.decodeBytes data) d e := by
  unfold decodeBytes at raised
  cases poisoned : d.buffer.poisoned with
  | some cause =>
      simp only [ReadBuffer.checkPoisoned, poisoned] at raised
      cases raised
      exact ⟨poisoned, rfl⟩
  | none =>
      rw [ReadBuffer.checkPoisoned_ok.mpr poisoned, ok_bind] at raised
      by_cases done : d.handshakeDone = false
      · rw [raiseIf, if_pos done] at raised
        cases raised
        exact ⟨rfl, Or.inr ⟨done, Or.inr ⟨data, rfl⟩⟩⟩
      · rw [raiseIf_neg done, ok_bind] at raised
        rcases decodeFrame_raised raised with ⟨text, rfl⟩ | ⟨text, rfl, refuses⟩
        · exact rfl
        · exact ⟨refuses, Or.inl ⟨data, rfl, rfl⟩⟩

theorem contract_decodeHandshake (sound : d.Sound config) (raised : d.decodeHandshake.1 = .error e) :
    Contract d .decodeHandshake d.decodeHandshake.2 e := by
  by_cases done : d.handshakeDone = true
  · simp only [decodeHandshake, done, if_true] at raised ⊢
    cases raised
    exact ⟨rfl, Or.inl rfl⟩
  · cases poisoned : d.buffer.poisoned with
    | some cause =>
        have peeked : d.buffer.peekBytes 8 = .error (ReadBuffer.poisonedError cause) := by
          simp [ReadBuffer.peekBytes, ReadBuffer.checkPoisoned, poisoned]
        simp only [decodeHandshake, if_neg done, peeked] at raised ⊢
        cases raised
        exact ⟨poisoned, rfl⟩
    | none =>
        rcases decodeHandshake_cases sound.buffer.bounded poisoned (Bool.eq_false_iff.mpr done) with
          ⟨_, called⟩ | ⟨_, _, called⟩ | ⟨_, _, _, _, _, called⟩
        · rw [called] at raised
          cases raised
        · rw [called] at raised ⊢
          cases raised
          exact ⟨rfl, Or.inl rfl⟩
        · rw [called] at raised
          cases raised

theorem poison_spoilt {b : ReadBuffer} {f : Bytes} (sound : d.Sound config) (healthy : d.buffer.poisoned = none)
    (read : d.buffer.readMessage = (.ok (some f), b)) {d' : MessageDecoder} (at_ : d'.buffer = b)
    (idle : d'.continuation = .idle) (e : Exn) : Spoilt d (d'.poison e) e := by
  obtain ⟨legal, split_⟩ := ReadBuffer.readMessage_frame_taken sound.buffer.bounded healthy read
  have cap := sound.buffer.cap_eq
  rw [← congrArg Config.maxMessageSize sound.config_eq] at cap
  have clear : b.poisoned = none := (ReadBuffer.readMessage_poisoned read).trans healthy
  have poisoned := ReadBuffer.poison_of_healthy clear e
  refine ⟨⟨f, cap ▸ legal, ?_⟩, ?_, idle⟩
  · rw [split_, poison_buffer, at_, poisoned]
    rfl
  · rw [poison_buffer, at_, poisoned]

theorem contract_decode (held : Bookkeeping config streams d) (raised : d.decode.1 = .error e) :
    Contract d .decode d.decode.2 e := by
  unfold MessageDecoder.decode at raised ⊢
  cases poisoned : d.buffer.poisoned with
  | some cause =>
      simp only [ReadBuffer.checkPoisoned, poisoned] at raised ⊢
      cases raised
      exact ⟨poisoned, rfl⟩
  | none =>
      rw [ReadBuffer.checkPoisoned_ok.mpr poisoned] at raised ⊢
      by_cases expected : d.continuation.expected = true
      · simp only [if_pos expected] at raised ⊢
        cases raised
        refine ⟨rfl, ?_⟩
        rw [if_pos expected]
        exact Or.inl rfl
      · by_cases done : d.handshakeDone = false
        · simp only [if_neg expected, if_pos done] at raised ⊢
          cases raised
          exact ⟨rfl, Or.inr ⟨done, Or.inl rfl⟩⟩
        · simp only [if_neg expected, if_neg done] at raised ⊢
          have idle := held.idle (Bool.eq_false_iff.mpr expected)
          rcases read : d.buffer.readMessage with ⟨reply, b⟩
          simp only [read] at raised ⊢
          cases reply with
          | error e' =>
              obtain ⟨same, text, rfl⟩ := ReadBuffer.readMessage_raised poisoned read
              cases raised
              rw [same]
              exact Or.inl rfl
          | ok message =>
              cases message with
              | none => cases raised
              | some f =>
                  have clear : b.poisoned = none := (ReadBuffer.readMessage_poisoned read).trans poisoned
                  have ready : (d.withBuffer b).handshakeDone = true := by simpa using done
                  rcases startMessage_cases (d.withBuffer b) clear ready f with
                    ⟨e', started, why⟩ | ⟨message, started, _⟩ | ⟨result, started, _⟩
                  · simp only [started] at raised ⊢
                    cases raised
                    have kind : (∃ text, e = .decodeError text) ∨
                        ∃ text, e = .typeError text ∧ d.config.textErrors.RefusesDecoding := by
                      rcases why with failed | ⟨result, decoded, more, cap, member, large⟩
                      · exact decodeFrame_raised failed
                      · simp only [startMessage, decodeBytes_ready clear ready, decoded, more, if_true,
                          if_pos (show ∃ cap ∈ (d.withBuffer b).config.maxTotalRows, cap < result.rows.length
                            from ⟨cap, member, large⟩)] at started
                        cases started
                        exact Or.inl ⟨_, rfl⟩
                    have spoilt := fun e =>
                      poison_spoilt held.sound poisoned read (withBuffer_buffer d b) idle e
                    rcases kind with ⟨text, rfl⟩ | ⟨text, rfl, refuses⟩
                    · exact Or.inr (spoilt _)
                    · exact ⟨refuses, Or.inr ⟨Or.inl rfl, spoilt _⟩⟩
                  · simp only [started] at raised
                    cases raised
                  · simp only [started] at raised
                    cases raised

theorem continueStream_raised {data : Bytes} {d' : MessageDecoder}
    (raised : d.continueStream data = (.error e, d')) :
    (∃ msgType, e = wrongFrameType msgType d.continuation.frameCount d.continuation.totalRows ∧
        d' = d.finalizeContinuationState) ∨
      (∃ body schema m, FailureResponse.decodeBody body schema = .ok m ∧
        e = .serverFailure m.code m.message ∧ d' = d.finalizeContinuationState) ∨
      e.OfParsing d.config.textErrors ∧ d'.finalizeContinuationState = d.finalizeContinuationState := by
  unfold continueStream at raised
  cases decoded : Header.decode (data.take headerSize) with
  | error e' =>
      rw [decoded] at raised
      cases raised
      exact Or.inr (Or.inr ⟨Header.decode_errors data _ decoded, rfl⟩)
  | ok header =>
      simp only [decoded] at raised
      split at raised
      · cases raised
        exact Or.inl ⟨_, rfl, rfl⟩
      · cases schema : checkSchema d.config.isRequest header with
        | error e' =>
            rw [schema] at raised
            cases raised
            exact Or.inr (Or.inr ⟨checkSchema_errors _ _ _ schema, rfl⟩)
        | ok _ =>
            simp only [schema] at raised
            split at raised
            · split at raised
              · rename_i failed
                cases raised
                exact Or.inr (Or.inr ⟨FailureResponse.decodeBody_errors _ _ _ failed, rfl⟩)
              · rename_i m read
                cases raised
                exact Or.inr (Or.inl ⟨_, _, m, read, rfl, rfl⟩)
            · split at raised
              · split at raised
                · rename_i failed
                  cases raised
                  exact Or.inr (Or.inr ⟨EmptyResponse.decodeBody_errors _ _ _ failed, rfl⟩)
                · cases raised
              · split at raised
                · rename_i failed
                  cases raised
                  exact Or.inr (Or.inr ⟨RowsResponse.decodeBody_errors _ _ _ _ failed, rfl⟩)
                · rename_i result _
                  rcases continueRows_cases d result with
                    ⟨text, after, stepped, same, _⟩ | ⟨_, _, stepped⟩ | ⟨_, _, stepped⟩
                  · rw [stepped] at raised
                    cases raised
                    exact Or.inr (Or.inr ⟨trivial, same⟩)
                  · rw [stepped] at raised
                    cases raised
                  · rw [stepped] at raised
                    cases raised

theorem finalize_resynced {b : ReadBuffer} {f : Bytes} (held : Bookkeeping config streams d)
    (expected : d.continuation.expected = true) (healthy : d.buffer.poisoned = none)
    (read : d.buffer.readMessage = (.ok (some f), b)) :
    Resynced d (d.withBuffer b).finalizeContinuationState := by
  obtain ⟨legal, split_⟩ := ReadBuffer.readMessage_frame_taken held.sound.buffer.bounded healthy read
  have cap := held.sound.buffer.cap_eq
  rw [← congrArg Config.maxMessageSize held.sound.config_eq] at cap
  have response : d.config.isRequest = false := by
    rw [held.sound.config_eq]
    exact (held.active expected).1
  have same : (d.withBuffer b).finalizeContinuationState = { d.withBuffer b with continuation := .idle } := by
    simp [finalizeContinuationState, response]
  rw [same]
  exact ⟨⟨f, cap ▸ legal, split_⟩, (ReadBuffer.readMessage_poisoned read).trans healthy, rfl, rfl, rfl, rfl⟩

theorem contract_decodeContinuation (held : Bookkeeping config streams d)
    (raised : d.decodeContinuation.1 = .error e) :
    Contract d .decodeContinuation d.decodeContinuation.2 e := by
  unfold decodeContinuation at raised ⊢
  cases poisoned : d.buffer.poisoned with
  | some cause =>
      simp only [ReadBuffer.checkPoisoned, poisoned] at raised ⊢
      cases raised
      exact ⟨poisoned, rfl⟩
  | none =>
      rw [ReadBuffer.checkPoisoned_ok.mpr poisoned] at raised ⊢
      by_cases idle : d.continuation.expected = false
      · simp only [if_pos idle] at raised ⊢
        cases raised
        refine ⟨rfl, ?_⟩
        rw [if_neg (by rw [idle]; decide)]
      · have expected : d.continuation.expected = true := by simpa using idle
        simp only [if_neg idle] at raised ⊢
        rcases read : d.buffer.readMessage with ⟨reply, b⟩
        simp only [read] at raised ⊢
        cases reply with
        | error e' =>
            obtain ⟨same, text, rfl⟩ := ReadBuffer.readMessage_raised poisoned read
            simp only [Exn.isDecodeError, if_true] at raised ⊢
            cases raised
            have cause := ReadBuffer.poison_of_healthy (b := b) (by rw [same]; exact poisoned)
              oversizedContinuation
            refine Or.inr ⟨?_, ?_, ?_⟩
            · rw [poison_buffer, finalize_buffer, withBuffer_buffer, cause, same]
              rfl
            · rw [poison_buffer, finalize_buffer, withBuffer_buffer, cause]
            · rw [poison_continuation, finalize_continuation]
        | ok message =>
            cases message with
            | none => cases raised
            | some f =>
                have resynced := finalize_resynced held expected poisoned read
                rcases stepped : (d.withBuffer b).continueStream f with ⟨outcome, d'⟩
                simp only [stepped] at raised ⊢
                cases outcome with
                | ok message => cases raised
                | error e' =>
                    cases raised
                    rcases continueStream_raised stepped with
                      ⟨msgType, rfl, rfl⟩ | ⟨body, schema, m, decoded, rfl, rfl⟩ | ⟨parsing, same⟩
                    · exact ⟨rfl, rfl, rfl, resynced⟩
                    · exact ⟨rfl, resynced, body, schema, decoded⟩
                    · cases e with
                      | decodeError text =>
                          simp only [continuationRaised, same]
                          exact Or.inl resynced
                      | typeError text =>
                          refine ⟨parsing, Or.inr ⟨Or.inr rfl, ?_⟩⟩
                          simp only [continuationRaised, same]
                          exact poison_spoilt held.sound poisoned read (finalize_buffer _)
                            (finalize_continuation _) _
                      | _ => exact parsing.elim

theorem contract_step (held : Bookkeeping config streams d) {op : DecoderOp} (raised : (d.step op).1 = .error e) :
    Contract d op (d.step op).2 e := by
  have unmapped {α β : Type} {reply : Except Exn α} {f : α → β} (mapped : reply.map f = .error e) :
      reply = .error e := by
    cases reply with
    | error e' => exact congrArg Except.error (Except.error.inj mapped)
    | ok value => cases mapped
  cases op with
  | feed data => exact contract_feed (unmapped raised)
  | hasMessage | reset => cases raised
  | pendingFrameSize => exact contract_pendingFrameSize held.sound (unmapped raised)
  | takeFrame => exact contract_takeFrame (unmapped raised)
  | decode => exact contract_decode held (unmapped raised)
  | decodeBytes data => exact contract_decodeBytes (unmapped raised)
  | decodeContinuation => exact contract_decodeContinuation held (unmapped raised)
  | skipMessage => exact contract_skipMessage held.sound (unmapped raised)
  | decodeHandshake => exact contract_decodeHandshake held.sound (unmapped raised)

end Raises

theorem bookkeeping_of_reachable {config : Config} {d : MessageDecoder} (reachable : Reachable step (new config) d) :
    ∃ streams, Bookkeeping config streams d := by
  obtain ⟨ops, rfl⟩ := reachable
  exact ⟨_, bookkeeping_run config ops⟩

end DqliteWire
