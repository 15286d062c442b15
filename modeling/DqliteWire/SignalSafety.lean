import DqliteWire.Interrupts

/-! An interrupt inside a call of the decoder. The `try` blocks of the decoder poison or revert;
what they do not cover are the lines between a callee's return and the next `try`, between two
stores that belong together, and those of the `except` clauses themselves. -/

namespace DqliteWire

open WireLib WireLib.Interruptible

namespace MessageDecoder

def Intact (d after : MessageDecoder) : Prop :=
  after.buffer.poisoned ≠ none ∨
    after.buffer.unread = d.buffer.unread ∧ after.buffer.skipRemaining = d.buffer.skipRemaining ∧
      after.handshakeDone = d.handshakeDone ∧ after.version = d.version ∧
      after.continuation = d.continuation

theorem Intact.refl (d : MessageDecoder) : d.Intact d := Or.inr ⟨rfl, rfl, rfl, rfl, rfl⟩

theorem Intact.buffer {d after : MessageDecoder} (intact : d.Intact after) :
    d.buffer.Intact after.buffer := by
  rcases intact with poisoned | ⟨unread, skipping, _⟩
  · exact Or.inl poisoned
  · exact Or.inr ⟨unread, skipping⟩

@[simp] theorem withBuffer_self (d : MessageDecoder) : d.withBuffer d.buffer = d := rfl

end MessageDecoder

namespace Lines

theorem onBuffer_checked_covers {α : Type} {d : MessageDecoder} {l : Line}
    {f : Unit → DecoderCode α} {P : List Line → MessageDecoder → Prop}
    {N : Except Exn α → MessageDecoder → Prop} (points : P [l] d ∧ P [l, .buffer 75] d)
    (refused : ∀ cause, d.buffer.poisoned = some cause →
      N (.error (ReadBuffer.poisonedError cause)) d)
    (next : d.buffer.poisoned = none → Covers (f ()) d P N) :
    Covers (call l (onBuffer checkPoisoned) >>= f) d
      (fun trace d' => d.buffer.poisoned = none → P trace d') N := by
  refine Covers.call_bind (fun _ => points.1)
    (Covers.onPart ((checkPoisoned_covers d.buffer).mono ?_ ?_))
  · rintro trace b' ⟨shape, rfl⟩ healthy
    rw [shape healthy]
    exact points.2
  · intro r b' same
    cases same
    cases poisoned : d.buffer.poisoned with
    | none =>
        have covered := (next poisoned).mono (fun _ _ held (_ : d.buffer.poisoned = none) => held)
          fun _ _ exit => exit
        simpa [ReadBuffer.checkPoisoned, poisoned, After] using covered
    | some cause => simpa [ReadBuffer.checkPoisoned, poisoned, After] using refused cause poisoned

theorem Lost.not_intact_decoder {d d' : MessageDecoder} (lost : Lost d.buffer d'.buffer) :
    ¬ d.Intact d' := fun intact => lost.not_intact intact.buffer

theorem finalize_covers (d : MessageDecoder) :
    Covers finalizeContinuationState d
      (fun trace d' => d'.buffer = d.buffer ∧ (trace = [.codec 312] ∧ d' = d ∨
        (∃ n, trace = [.codec n] ∧ 313 ≤ n ∧ n ≤ 319) ∧ d'.continuation.expected = false))
      (fun r d' => (r, d') = (.ok (), d.finalizeContinuationState)) := by
  unfold finalizeContinuationState MessageDecoder.finalizeContinuationState
  simp only [covers_line_bind, covers_get_bind, covers_modify_bind]
  by_cases request : d.config.isRequest = true
  · simp [request, covers_line_bind, covers_modify_bind, covers_modify, Continuation.idle]
  · simp [request, covers_pure, Continuation.idle]

theorem poison_quiet (error : Exn) (b : ReadBuffer) :
    poison error none b = settled (.ok (), b.poison error) := (poison_covers b error).quiet

theorem onBuffer_poison_quiet (error : Exn) (d : MessageDecoder) :
    onBuffer (poison error) none d = settled (.ok (), d.poison error) :=
  onPart_none (poison_quiet error d.buffer)

theorem finalize_quiet (d : MessageDecoder) :
    finalizeContinuationState none d = settled (.ok (), d.finalizeContinuationState) :=
  (finalize_covers d).quiet

theorem decodeRaised_leaves {α : Type} (trace : List Line) (d : MessageDecoder) :
    Leaves (fun trace' d' => trace' = trace ∧ d'.buffer.poisoned ≠ none)
      ((decodeRaised (.interrupted trace) : DecoderCode α) none d) := by
  unfold decodeRaised
  rw [line_bind_none, call_bind_none (onBuffer_poison_quiet _ d), line_bind_none]
  exact ⟨_, _, rfl, rfl, poison_poisons _ _⟩

/-- In `decode`: from the `return` of `read_message` to the `try`, and from an error to its
poison. -/
def decodeLines : List (List Line) :=
  [[.codec 526, .buffer 267], [.codec 532], [.codec 555]] ++ poisonLines (.codec 557) ++
    [[.codec 564]]

theorem decodeBytes_covers (lines : Line → Nat) (data : Bytes) (d : MessageDecoder) :
    Covers (decodeBytes lines data) d (fun _ _ => True)
      (fun r d' => (r, d') = (d.decodeBytes data, d)) := by
  unfold decodeBytes MessageDecoder.decodeBytes
  refine Covers.call_bind trivial
    (Covers.onPart ((checkPoisoned_covers d.buffer).mono (fun _ _ _ => trivial) ?_))
  intro r b' same
  cases same
  cases d.buffer.checkPoisoned with
  | error e => simp [After, error_bind]
  | ok _ =>
      simp only [After, MessageDecoder.withBuffer_self, covers_line_bind, covers_get_bind, ok_bind,
        true_and]
      cases done : d.handshakeDone with
      | false => simp [covers_line_bind, covers_raise, raiseIf, error_bind]
      | true =>
          simp only [Bool.true_eq_false, if_false, raiseIf, ok_bind]
          refine Covers.compute ?_ ?_ _
          · trivial
          · rfl

theorem openStream_covers {d : MessageDecoder} {data : Bytes} {message : Message}
    (decoded : d.decodeBytes data = .ok message) :
    Covers (openStream message) d (fun trace _ => Within .codec 537 554 trace)
      (fun r d' => (r, d') = d.startMessage data) := by
  unfold openStream
  simp only [covers_line_bind, within_codec, MessageDecoder.startMessage, decoded]
  refine ⟨by decide, ?_⟩
  cases message with
  | request m => simp [covers_pure]
  | response m =>
      cases m with
      | rows result =>
          by_cases more : result.hasMore = true
          · simp only [if_pos more, covers_line_bind, covers_get_bind, within_codec]
            refine ⟨by decide, by decide, ?_⟩
            by_cases large : ∃ cap ∈ d.config.maxTotalRows, cap < result.rows.length
            · simp only [if_pos large, covers_line_bind, covers_raise, within_codec]
              exact ⟨by decide, trivial⟩
            · simp only [if_neg large, covers_line_bind, covers_modify_bind, covers_pure,
                within_codec]
              exact ⟨by decide, by decide, by decide, by decide, by decide, trivial⟩
          · simp [more, covers_pure]
      | failure | leader | welcome | servers | db | stmt | result | empty | files | metadata =>
          simp [covers_pure]

theorem startMessage_covers (lines : Line → Nat) (data : Bytes) (d : MessageDecoder) :
    Covers (startMessage lines data) d (fun trace _ => Within .codec 533 554 trace)
      (fun r d' => (r, d') = d.startMessage data) := by
  refine Covers.call_bind (by simp) ((decodeBytes_covers lines data d).mono (by simp) ?_)
  intro r d' same
  cases same
  cases decoded : d.decodeBytes data with
  | error e => simp [After, MessageDecoder.startMessage, decoded]
  | ok message =>
      refine (openStream_covers decoded).mono ?_ fun _ _ exit => exit
      exact fun trace _ within => within.mono (by decide) le_rfl

theorem onBuffer_poison_covers {α : Type} {d : MessageDecoder} {l : Line} {error : Exn}
    {f : Unit → DecoderCode α} {I : List Line → MessageDecoder → Prop}
    {N : Except Exn α → MessageDecoder → Prop} (points : ∀ trace ∈ poisonLines l, I trace d)
    (next : Covers (f ()) (d.poison error) I N) :
    Covers (call l (onBuffer (poison error)) >>= f) d I N := by
  refine Covers.call_bind (points _ (by simp [poisonLines]))
    (Covers.onPart ((poison_covers d.buffer error).mono ?_ ?_))
  · rintro trace b' ⟨rfl | rfl, rfl⟩ <;> exact points _ (by simp [poisonLines])
  · intro r b' same
    cases same
    exact next

theorem startMessage_buffer (d : MessageDecoder) (data : Bytes) :
    (d.startMessage data).2.buffer = d.buffer := by
  unfold MessageDecoder.startMessage
  split
  · rfl
  · split
    · simp only
      split <;> rfl
    · rfl
  · rfl

theorem decodeRaised_covers {α : Type} {d : MessageDecoder} {e : Exn}
    {I : List Line → MessageDecoder → Prop} {N : Except Exn α → MessageDecoder → Prop}
    (points : ∀ trace ∈ [.codec 555] :: poisonLines (.codec 557), I trace d)
    (last : I [.codec 562] (d.poison (MessageDecoder.poisonCause "decode" e)))
    (exit : N (.error e) (d.poison (MessageDecoder.poisonCause "decode" e))) :
    Covers (decodeRaised (.raised e) : DecoderCode α) d I N := by
  refine covers_line_bind.mpr ⟨points _ List.mem_cons_self, onBuffer_poison_covers ?_ ?_⟩
  · exact fun trace member => points trace (List.mem_cons_of_mem _ member)
  · exact covers_line_bind.mpr ⟨last, covers_raise.mpr exit⟩

theorem decode_covers (lines : Line → Nat) (d : MessageDecoder) :
    Covers (decode lines) d
      (fun trace d' => d.buffer.poisoned = none → (d.Intact d' ↔
        ¬ (trace ∈ decodeLines ∨ d.buffer.hasMessage = true ∧ trace = [.codec 527])))
      (fun r d' => (r, d') = d.decode) := by
  have here {trace : List Line} (outside : trace ∉ decodeLines) (elsewhere : trace ≠ [.codec 527]) :
      d.Intact d ↔ ¬ (trace ∈ decodeLines ∨ d.buffer.hasMessage = true ∧ trace = [.codec 527]) :=
    iff_of_true (MessageDecoder.Intact.refl d) (by simp [outside, elsewhere])
  unfold decode
  apply onBuffer_checked_covers
  · exact ⟨here (by decide) (by decide), here (by decide) (by decide)⟩
  · intro cause poisoned
    simp [MessageDecoder.decode, ReadBuffer.checkPoisoned, poisoned]
  · intro healthy
    have decodes := MessageDecoder.decode.eq_1 d
    simp only [ReadBuffer.checkPoisoned, healthy] at decodes
    simp only [covers_line_bind, covers_get_bind]
    refine ⟨here (by decide) (by decide), ?_⟩
    by_cases expected : d.continuation.expected = true
    · simp only [if_pos expected, covers_line_bind, covers_raise] at decodes ⊢
      exact ⟨here (by decide) (by decide), decodes.symm⟩
    · simp only [if_neg expected, covers_line_bind] at decodes ⊢
      refine ⟨here (by decide) (by decide), ?_⟩
      by_cases pending : d.handshakeDone = false
      · simp only [if_pos pending, covers_line_bind, covers_raise] at decodes ⊢
        exact ⟨here (by decide) (by decide), decodes.symm⟩
      · simp only [if_neg pending] at decodes ⊢
        refine Covers.call_bind (here (by decide) (by decide))
          (Covers.onPart ((readMessage_covers d.buffer).mono ?_ ?_))
        · intro trace b' cut
          cases cut healthy with
          | untouched elsewhere =>
              exact here (by simp [decodeLines, poisonLines, elsewhere]) (by simp)
          | poisoned elsewhere poisoned =>
              exact iff_of_true (Or.inl poisoned) (by simp [decodeLines, poisonLines, elsewhere])
          | returning returned =>
              obtain ⟨data, read⟩ := returned
              exact iff_of_false (readMessage_lost healthy read).not_intact_decoder
                (by simp [decodeLines])
        · intro r b' same
          have reading := readMessage_reading healthy
          rw [← same] at decodes reading
          cases reading with
          | oversized e kind => exact decodes.symm
          | waiting missing =>
              simp only [After, covers_line_bind, covers_pure] at decodes ⊢
              refine ⟨?_, here (by decide) (by decide), decodes.symm⟩
              exact iff_of_true (MessageDecoder.Intact.refl d)
                (by simp [decodeLines, poisonLines, missing])
          | frame data after arrived lost =>
              have gone {d' : MessageDecoder} (kept : d'.buffer = b') {trace : List Line}
                  (member : trace ∈ decodeLines) : d.Intact d' ↔
                    ¬ (trace ∈ decodeLines ∨ d.buffer.hasMessage = true ∧ trace = [.codec 527]) :=
                iff_of_false (Lost.not_intact_decoder (kept ▸ lost)) (not_not.mpr (Or.inl member))
              simp only [After, covers_line_bind] at decodes ⊢
              refine ⟨?_, gone rfl (by decide), Covers.bind (Covers.tryExcept
                ((startMessage_covers lines data _).mono ?_ ?_))⟩
              · exact iff_of_false (Lost.not_intact_decoder lost)
                  (not_not.mpr (Or.inr ⟨arrived, trivial⟩))
              · intro trace d' within
                obtain ⟨_, d'', ended, rfl, poisoned⟩ :=
                  decodeRaised_leaves (α := Message) trace d'
                refine ⟨_, d'', ended, iff_of_true (Or.inl poisoned) ?_⟩
                obtain ⟨n, rest, rfl, lower, upper⟩ := within
                simp [decodeLines, poisonLines]
                omega
              · intro r d' started
                have kept : d'.buffer = b' := by
                  rw [show d' = ((d.withBuffer b').startMessage data).2 from
                    congrArg Prod.snd started]
                  exact startMessage_buffer _ data
                rw [← started] at decodes
                cases r with
                | error e =>
                    apply decodeRaised_covers
                    · intro trace member
                      rcases List.mem_cons.mp member with rfl | later
                      · exact gone kept (by decide)
                      · exact gone kept (by simp [decodeLines, later])
                    · exact iff_of_true (Or.inl (poison_poisons _ _))
                        (by simp [decodeLines, poisonLines])
                    · exact decodes.symm
                | ok message =>
                    simp only [Handled, After, covers_line_bind, covers_pure] at decodes ⊢
                    exact ⟨gone kept (by decide), decodes.symm⟩

/-- In `decode_handshake`: between the two stores, before the revert covers them, and wherever the
bytes are consumed. -/
def handshakeLines : List (List Line) :=
  [[.codec 664], [.codec 665], [.codec 666, .buffer 359], [.codec 671]]

theorem readBytes_returns {b after : ReadBuffer} {n : Int} {reply : Except Exn (Option Bytes)}
    (healthy : b.poisoned = none) (natural : ¬ n < 0) (read : b.readBytes n = (reply, after)) :
    (∃ data, reply = .ok data) ∧ after.poisoned = none := by
  unfold ReadBuffer.readBytes at read
  simp only [ReadBuffer.checkPoisoned, healthy, if_neg natural] at read
  split at read
  · cases read
    exact ⟨⟨_, rfl⟩, healthy⟩
  · cases read
    exact ⟨⟨_, rfl⟩, by rw [poisoned_maybeCompact]; exact healthy⟩

theorem revertHandshake_none {α : Type} (t : Thrown Exn Line) (d : MessageDecoder) :
    (revertHandshake t : DecoderCode α) none d =
      ⟨.error t, none, { d with handshakeDone := false, version := none }⟩ := rfl

theorem decodeHandshake_covers {d : MessageDecoder}
    (unversioned : d.handshakeDone = false → d.version = none) :
    Covers decodeHandshake d
      (fun trace d' => d.buffer.poisoned = none → (d.Intact d' ↔ ¬ trace ∈ handshakeLines))
      (fun r d' => (r, d') = d.decodeHandshake) := by
  have here {trace : List Line} (outside : trace ∉ handshakeLines) :
      d.buffer.poisoned = none → (d.Intact d ↔ ¬ trace ∈ handshakeLines) :=
    fun _ => iff_of_true (MessageDecoder.Intact.refl d) outside
  have decodes := MessageDecoder.decodeHandshake.eq_1 d
  unfold decodeHandshake
  simp only [covers_line_bind, covers_get_bind]
  refine ⟨here (by decide), ?_⟩
  by_cases done : d.handshakeDone = true
  · simp only [if_pos done, covers_line_bind, covers_raise] at decodes ⊢
    exact ⟨here (by decide), decodes.symm⟩
  · have fresh := unversioned (Bool.eq_false_iff.mpr done)
    have pending := Bool.eq_false_iff.mpr done
    simp only [if_neg done] at decodes ⊢
    refine Covers.call_bind (here (by decide))
      (Covers.onPart ((peekBytes_covers 8 d.buffer).mono ?_ ?_))
    · rintro trace b' rfl
      exact here (by simp [handshakeLines])
    · intro r b' same
      cases same
      cases peeked : d.buffer.peekBytes 8 with
      | error e => simpa [After, peeked] using decodes.symm
      | ok peek =>
          simp only [peeked] at decodes
          simp only [After, covers_line_bind, MessageDecoder.withBuffer_self]
          refine ⟨here (by decide), ?_⟩
          cases peek with
          | none =>
              simp only [covers_line_bind, covers_pure]
              exact ⟨here (by decide), decodes.symm⟩
          | some bytes =>
              simp only [covers_line_bind] at decodes ⊢
              refine ⟨here (by decide), here (by decide), ?_⟩
              by_cases unsupported : fromLE bytes ∉ supportedVersions
              · simp only [if_pos unsupported, covers_line_bind, covers_raise] at decodes ⊢
                exact ⟨here (by decide), decodes.symm⟩
              · have committed {d' : MessageDecoder} (alive : d'.buffer.poisoned = none)
                    (version : d'.version = some (fromLE bytes)) {trace : List Line}
                    (member : trace ∈ handshakeLines) : d.Intact d' ↔ ¬ trace ∈ handshakeLines := by
                  refine iff_of_false ?_ (not_not.mpr member)
                  rintro (poisoned | ⟨_, _, _, same, _⟩)
                  · exact poisoned alive
                  · rw [version, fresh] at same
                    cases same
                simp only [if_neg unsupported, covers_line_bind, covers_modify_bind] at decodes ⊢
                refine ⟨here (by decide), fun healthy => ?_, fun healthy => ?_,
                  Covers.bind (Covers.tryExcept (Covers.call ?_
                    (Covers.onPart ((readBytes_covers 8 d.buffer).mono ?_ ?_))))⟩
                · apply committed
                  · exact healthy
                  · rfl
                  · decide
                · apply committed
                  · exact healthy
                  · rfl
                  · decide
                · refine ⟨_, _, revertHandshake_none _ _, fun healthy => ?_⟩
                  exact iff_of_true (Or.inr ⟨rfl, rfl, pending.symm, fresh.symm, rfl⟩) (by decide)
                · intro trace b' cut
                  refine ⟨_, _, revertHandshake_none _ _, fun healthy => ?_⟩
                  cases cut healthy with
                  | untouched elsewhere =>
                      exact iff_of_true (Or.inr ⟨rfl, rfl, pending.symm, fresh.symm, rfl⟩)
                        (by simp [handshakeLines, elsewhere])
                  | poisoned elsewhere poisoned =>
                      exact iff_of_true (Or.inl poisoned) (by simp [handshakeLines, elsewhere])
                  | returning returned =>
                      obtain ⟨data, read⟩ := returned
                      refine iff_of_false (fun intact => ?_) (by decide)
                      exact (readBytes_intact healthy read).mp intact.buffer (by decide)
                · intro r b' same
                  rw [show ReadBuffer.readBytes _ 8 = (r, b') from same.symm] at decodes
                  cases r with
                  | ok data =>
                      simp only [Handled, After, covers_line_bind, covers_pure] at decodes ⊢
                      refine ⟨fun healthy => ?_, decodes.symm⟩
                      apply committed
                      · exact (readBytes_returns healthy (by decide) same.symm).2
                      · rfl
                      · decide
                  | error e =>
                      have impossible (healthy : d.buffer.poisoned = none) : False := by
                        obtain ⟨⟨_, ok⟩, _⟩ := readBytes_returns healthy (by decide) same.symm
                        cases ok
                      unfold revertHandshake
                      simp only [Handled, covers_line_bind, covers_modify_bind] at decodes ⊢
                      exact ⟨fun healthy => (impossible healthy).elim,
                        fun healthy => (impossible healthy).elim,
                        fun healthy => (impossible healthy).elim,
                        fun healthy => (impossible healthy).elim, covers_raise.mpr decodes.symm⟩

theorem call_compute_covers {α β : Type} {d : MessageDecoder} {l : Nat} {n : Nat}
    {value : Except Exn α} {f : α → DecoderCode β} {I : List Line → MessageDecoder → Prop}
    {N : Except Exn β → MessageDecoder → Prop} (point : ∀ rest, I (.codec l :: rest) d)
    (failed : ∀ e, value = .error e → N (.error e) d)
    (next : ∀ a, value = .ok a → Covers (f a) d I N) :
    Covers (call (.codec l) (compute (.codec l) n value) >>= f) d I N := by
  refine Covers.call_bind (point []) ?_
  apply Covers.compute
  · exact point _
  · cases value with
    | error e => exact failed e rfl
    | ok a => exact next a rfl

theorem call_finalize_covers {α : Type} {d : MessageDecoder} {l : Nat}
    {f : Unit → DecoderCode α} {P : List Line → Prop} {N : Except Exn α → MessageDecoder → Prop}
    (point : ∀ rest, P (.codec l :: rest))
    (next : Covers (f ()) d.finalizeContinuationState (fun trace _ => P trace) N) :
    Covers (call (.codec l) finalizeContinuationState >>= f) d (fun trace _ => P trace) N := by
  refine Covers.call_bind (point []) ((finalize_covers d).mono (fun _ _ _ => point _) ?_)
  intro r d' same
  cases same
  exact next

theorem continueRows_covers (result : RowsResponse) (d : MessageDecoder) :
    Covers (continueRows result) d (fun trace _ => Within .codec 385 483 trace)
      (fun r d' => (r, d') = d.continueRows result) := by
  have continues := MessageDecoder.continueRows.eq_1 d result
  unfold continueRows
  simp only [covers_line_bind, covers_get_bind, covers_modify_bind, within_codec] at continues ⊢
  refine ⟨by decide, by decide, ?_⟩
  by_cases frames : ∃ cap ∈ d.config.maxContinuationFrames, cap < d.continuation.frameCount + 1
  · simp only [if_pos frames, covers_line_bind, covers_raise, within_codec] at continues ⊢
    exact ⟨by decide, continues.symm⟩
  · simp only [if_neg frames, covers_line_bind, covers_get_bind, covers_modify_bind,
      within_codec] at continues ⊢
    refine ⟨by decide, by decide, ?_⟩
    by_cases rows : ∃ cap ∈ d.config.maxTotalRows,
        cap < d.continuation.totalRows + result.rows.length
    · simp only [if_pos rows, covers_line_bind, covers_raise, within_codec] at continues ⊢
      exact ⟨by decide, continues.symm⟩
    · simp only [if_neg rows, covers_line_bind, within_codec] at continues ⊢
      refine ⟨by decide, ?_⟩
      by_cases count : ∃ count ∈ d.continuation.columnCount, result.columnNames.length ≠ count
      · simp only [if_pos count, covers_line_bind, covers_raise, within_codec] at continues ⊢
        exact ⟨by decide, continues.symm⟩
      · simp only [if_neg count, covers_line_bind, within_codec] at continues ⊢
        refine ⟨by decide, ?_⟩
        by_cases names : ∃ names ∈ d.continuation.columnNames, result.columnNames ≠ names
        · simp only [if_pos names, covers_line_bind, covers_raise, within_codec] at continues ⊢
          exact ⟨by decide, continues.symm⟩
        · simp only [if_neg names, covers_line_bind, within_codec] at continues ⊢
          refine ⟨by decide, ?_⟩
          by_cases more : result.hasMore = true
          · simp only [if_pos more, covers_line_bind, covers_pure, within_codec] at continues ⊢
            exact ⟨by decide, continues.symm⟩
          · simp only [if_neg more] at continues ⊢
            apply call_finalize_covers
            · simp
            · simp only [covers_line_bind, covers_pure, within_codec]
              exact ⟨by decide, continues.symm⟩

theorem continueStream_covers (lines : Line → Nat) (data : Bytes) (d : MessageDecoder) :
    Covers (continueStream lines data) d (fun trace _ => Within .codec 385 483 trace)
      (fun r d' => (r, d') = d.continueStream data) := by
  have continues := MessageDecoder.continueStream.eq_1 d data
  unfold continueStream
  apply call_compute_covers
  · simp
  · intro e failed
    simp only [failed] at continues
    exact continues.symm
  · intro header decoded
    simp only [decoded] at continues
    refine Covers.call_bind (by simp) ?_
    apply Covers.work
    · simp
    · simp only [After, covers_line_bind, covers_get_bind, within_codec]
      refine ⟨by decide, ?_⟩
      by_cases unknown : header.msgType ∉
          [ResponseType.failure.code, ResponseType.empty.code, ResponseType.rows.code]
      · simp only [if_pos unknown, covers_line_bind, within_codec] at continues ⊢
        refine ⟨by decide, by decide, ?_⟩
        apply call_finalize_covers
        · simp
        · refine Covers.call_bind (by simp) ?_
          simp only [streamErrorInit, covers_line_bind, covers_line, After, covers_raise,
            within_codec]
          exact ⟨by decide, by decide, by decide, continues.symm⟩
      · simp only [if_neg unknown, covers_line_bind, within_codec] at continues ⊢
        refine ⟨by decide, by decide, ?_⟩
        cases schema : MessageDecoder.checkSchema d.config.isRequest header with
        | error e =>
            simp only [schema, covers_line_bind, covers_raise, within_codec] at continues ⊢
            exact ⟨by decide, continues.symm⟩
        | ok _ =>
            simp only [schema, covers_line_bind, within_codec] at continues ⊢
            refine ⟨by decide, ?_⟩
            by_cases failure : header.msgType = ResponseType.failure.code
            · simp only [if_pos failure] at continues ⊢
              apply call_compute_covers
              · simp
              · intro e failed
                simp only [failed] at continues
                exact continues.symm
              · intro result body
                simp only [body] at continues
                apply call_finalize_covers
                · simp
                · refine Covers.call_bind (by simp) ?_
                  simp only [serverFailureInit, covers_line_bind, covers_line, After, covers_raise,
                    within_codec]
                  exact ⟨by decide, by decide, by decide, continues.symm⟩
            · simp only [if_neg failure, covers_line_bind, within_codec] at continues ⊢
              refine ⟨by decide, ?_⟩
              by_cases empty : header.msgType = ResponseType.empty.code
              · simp only [if_pos empty] at continues ⊢
                apply call_compute_covers
                · simp
                · intro e failed
                  simp only [failed] at continues
                  exact continues.symm
                · intro result body
                  simp only [body] at continues
                  apply call_finalize_covers
                  · simp
                  · simp only [covers_line_bind, covers_pure, within_codec]
                    exact ⟨by decide, continues.symm⟩
              · simp only [if_neg empty] at continues ⊢
                apply call_compute_covers
                · simp
                · intro e failed
                  simp only [failed] at continues
                  exact continues.symm
                · intro result body
                  simp only [body] at continues
                  rw [continues]
                  exact continueRows_covers result d

/-- In `decode_continuation`: from the `return` of `read_message` to the second `try`, in the
`except` clause for an oversized frame until it has poisoned, and in those of the second `try`. -/
def StreamExposed (d : MessageDecoder) (trace : List Line) : Prop :=
  trace = [.codec 372, .buffer 267] ∨ (∃ n, trace = [.codec 376, .codec n] ∧ 313 ≤ n) ∨
    trace ∈ poisonLines (.codec 377) ∨ (d.buffer.hasMessage = true ∧ trace = [.codec 381]) ∨
    trace = [.codec 384] ∨ Within .codec 484 500 trace

@[simp] theorem streamExposed_codec {d : MessageDecoder} {n : Nat} {rest : List Line} :
    StreamExposed d (.codec n :: rest) ↔
      n = 372 ∧ rest = [.buffer 267] ∨ n = 376 ∧ (∃ m, rest = [.codec m] ∧ 313 ≤ m) ∨
        n = 377 ∧ (rest = [] ∨ rest = [.buffer 63] ∨ rest = [.buffer 64]) ∨
        d.buffer.hasMessage = true ∧ n = 381 ∧ rest = [] ∨ n = 384 ∧ rest = [] ∨
        484 ≤ n ∧ n ≤ 500 := by
  simp only [StreamExposed, poisonLines, within_codec, List.mem_cons, List.not_mem_nil, or_false,
    List.cons.injEq, Line.codec.injEq, ← and_or_left, exists_and_left, and_assoc]

theorem continueStream_buffer (d : MessageDecoder) (data : Bytes) :
    (d.continueStream data).2.buffer = d.buffer := by
  rcases d.continueStream_cases data with
    ⟨e, d', stepped, _, same⟩ | ⟨_, _, stepped⟩ | ⟨_, _, _, stepped⟩ | ⟨_, _, stepped⟩ |
    ⟨_, _, _, ⟨_, stepped⟩ | ⟨_, stepped⟩⟩
  · rw [stepped]
    have kept := congrArg MessageDecoder.buffer same
    rwa [MessageDecoder.finalize_buffer, MessageDecoder.finalize_buffer] at kept
  · rw [stepped, MessageDecoder.finalize_buffer]
  · rw [stepped, MessageDecoder.finalize_buffer]
  · rw [stepped, MessageDecoder.finalize_buffer]
  · rw [stepped]
    rfl
  · rw [stepped, MessageDecoder.finalize_buffer]

theorem streamRaised_leaves {α : Type} (trace : List Line) (d : MessageDecoder) :
    Leaves (fun trace' d' => trace' = trace ∧ d'.buffer.poisoned ≠ none)
      ((streamRaised (.interrupted trace) : DecoderCode α) none d) := by
  unfold streamRaised streamBroken
  simp only [caught, line_bind_none]
  rw [call_bind_none (finalize_quiet d), call_bind_none (onBuffer_poison_quiet _ _), line_bind_none]
  exact ⟨_, _, rfl, rfl, poison_poisons _ _⟩

theorem streamBroken_covers {α : Type} {d : MessageDecoder} {e : Exn}
    {I : List Line → MessageDecoder → Prop} {N : Except Exn α → MessageDecoder → Prop}
    (points : ∀ trace d', d'.buffer = d.buffer → Within .codec 484 500 trace → I trace d')
    (last : I [.codec 505] (d.finalizeContinuationState.poison
      (MessageDecoder.poisonCause "decode_continuation" e)))
    (exit : N (.error e) (d.finalizeContinuationState.poison
      (MessageDecoder.poisonCause "decode_continuation" e))) :
    Covers (streamBroken (.raised e) : DecoderCode α) d I N := by
  unfold streamBroken
  refine covers_line_bind.mpr ⟨points _ d rfl (by simp), Covers.call_bind
    (points _ d rfl (by simp)) ((finalize_covers d).mono ?_ ?_)⟩
  · rintro trace d' ⟨kept, _⟩
    exact points _ d' kept (by simp)
  · intro r d' same
    cases same
    refine onBuffer_poison_covers ?_ (covers_line_bind.mpr ⟨last, covers_raise.mpr exit⟩)
    intro trace member
    refine points _ _ (MessageDecoder.finalize_buffer d) ?_
    simp only [poisonLines, List.mem_cons, List.not_mem_nil, or_false] at member
    rcases member with rfl | rfl | rfl <;> simp

theorem streamRaised_covers {α : Type} {d : MessageDecoder} {e : Exn}
    {I : List Line → MessageDecoder → Prop} {N : Except Exn α → MessageDecoder → Prop}
    (points : ∀ trace d', d'.buffer = d.buffer → Within .codec 484 500 trace → I trace d')
    (last : I [.codec 505] (d.finalizeContinuationState.poison
      (MessageDecoder.poisonCause "decode_continuation" e)))
    (exit : N (.error e) (d.continuationRaised e)) :
    Covers (streamRaised (.raised e) : DecoderCode α) d I N := by
  have here (n : Nat) (lower : 484 ≤ n) (upper : n ≤ 500) : I [.codec n] d :=
    points _ d rfl (within_codec.mpr ⟨lower, upper⟩)
  unfold streamRaised
  simp only [covers_line_bind, caught]
  refine ⟨here 484 (by decide) (by decide), ?_⟩
  cases e with
  | serverFailure code message =>
      simp only [covers_line_bind]
      exact ⟨here 486 (by decide) (by decide), covers_raise.mpr exit⟩
  | streamError | poisonedError =>
      simp only [covers_line_bind]
      exact ⟨here 487 (by decide) (by decide), here 491 (by decide) (by decide),
        covers_raise.mpr exit⟩
  | decodeError text =>
      simp only [covers_line_bind]
      refine ⟨here 487 (by decide) (by decide), here 492 (by decide) (by decide),
        Covers.call_bind (here 495 (by decide) (by decide)) ((finalize_covers d).mono ?_ ?_)⟩
      · rintro trace d' ⟨kept, _⟩
        exact points _ d' kept (by simp)
      · intro r d' same
        cases same
        refine covers_line_bind.mpr ⟨points _ _ (MessageDecoder.finalize_buffer d) (by simp), ?_⟩
        exact covers_raise.mpr exit
  | encodeError | handshakeError | continuationError | valueError | typeError | indexError
  | structError | runtimeError | unicodeDecodeError | keyboardInterrupt | outOfFuel =>
      simp only [covers_line_bind]
      exact ⟨here 487 (by decide) (by decide), here 492 (by decide) (by decide),
        streamBroken_covers points last exit⟩

theorem oversizedRaised_none {α : Type} (trace : List Line) (d : MessageDecoder) :
    (oversizedRaised (.interrupted trace) : DecoderCode α) none d =
      ⟨.error (.interrupted trace), none, d⟩ := rfl

/-- The clause for an oversized frame. It finalizes before it poisons. -/
theorem oversizedRaised_covers {α : Type} {d : MessageDecoder} {e : Exn}
    {N : Except Exn α → MessageDecoder → Prop} (healthy : d.buffer.poisoned = none)
    (expected : d.continuation.expected = true) (oversized : e.isDecodeError = true)
    (exit : N (.error e)
      (d.finalizeContinuationState.poison MessageDecoder.oversizedContinuation)) :
    Covers (oversizedRaised (.raised e) : DecoderCode α) d
      (fun trace d' => d.Intact d' ↔ ¬ StreamExposed d trace) N := by
  have finalized {d' : MessageDecoder} (kept : d'.buffer = d.buffer)
      (closed : d'.continuation.expected = false) : ¬ d.Intact d' := by
    rintro (poisoned | ⟨_, _, _, _, same⟩)
    · exact poisoned (kept ▸ healthy)
    · rw [same, expected] at closed
      cases closed
  have here : d.Intact d := MessageDecoder.Intact.refl d
  unfold oversizedRaised
  simp only [caught, oversized, if_true, covers_line_bind]
  refine ⟨iff_of_true here ?_, Covers.call_bind (iff_of_true here ?_)
    ((finalize_covers d).mono ?_ ?_)⟩
  · simp
  · simp
  · rintro trace d' ⟨kept, ⟨rfl, rfl⟩ | ⟨⟨n, rfl, lower, _⟩, closed⟩⟩
    · exact iff_of_true here (by simp)
    · exact iff_of_false (finalized kept closed)
        (not_not.mpr (Or.inr (Or.inl ⟨n, rfl, lower⟩)))
  · intro r d' same
    cases same
    refine onBuffer_poison_covers ?_ (covers_line_bind.mpr ⟨?_, covers_raise.mpr exit⟩)
    · intro trace member
      refine iff_of_false (finalized (MessageDecoder.finalize_buffer d) ?_) ?_
      · rw [MessageDecoder.finalize_continuation]
        rfl
      · exact not_not.mpr (Or.inr (Or.inr (Or.inl member)))
    · exact iff_of_true (Or.inl (poison_poisons _ _)) (by simp)

theorem decodeContinuation_covers (lines : Line → Nat) (d : MessageDecoder) :
    Covers (decodeContinuation lines) d
      (fun trace d' => d.buffer.poisoned = none → (d.Intact d' ↔ ¬ StreamExposed d trace))
      (fun r d' => (r, d') = d.decodeContinuation) := by
  have here {trace : List Line} (outside : ¬ StreamExposed d trace) :
      d.Intact d ↔ ¬ StreamExposed d trace :=
    iff_of_true (MessageDecoder.Intact.refl d) outside
  unfold decodeContinuation
  apply onBuffer_checked_covers
  · exact ⟨here (by simp), here (by simp)⟩
  · intro cause poisoned
    simp [MessageDecoder.decodeContinuation, ReadBuffer.checkPoisoned, poisoned]
  · intro healthy
    have decodes := MessageDecoder.decodeContinuation.eq_1 d
    simp only [ReadBuffer.checkPoisoned, healthy] at decodes
    simp only [covers_line_bind, covers_get_bind]
    refine ⟨here (by simp), ?_⟩
    cases expected : d.continuation.expected with
    | false =>
        simp only [expected, if_true, covers_line_bind, covers_raise] at decodes ⊢
        exact ⟨here (by simp), decodes.symm⟩
    | true =>
        simp only [expected, Bool.true_eq_false, if_false, covers_line_bind] at decodes ⊢
        refine ⟨here (by simp),
          Covers.bind (Covers.tryExcept (Covers.call ?_
            (Covers.onPart ((readMessage_covers d.buffer).mono ?_ ?_))))⟩
        · exact ⟨_, _, oversizedRaised_none _ _, here (by simp)⟩
        · intro trace b' cut
          refine ⟨_, _, oversizedRaised_none _ _, ?_⟩
          cases cut healthy with
          | untouched elsewhere => exact here (by simp [elsewhere])
          | poisoned elsewhere poisoned =>
              exact iff_of_true (Or.inl poisoned) (by simp [elsewhere])
          | returning returned =>
              obtain ⟨data, read⟩ := returned
              exact iff_of_false (readMessage_lost healthy read).not_intact_decoder
                (by simp [StreamExposed])
        · intro r b' same
          have reading := readMessage_reading healthy
          rw [← same] at decodes reading
          cases reading with
          | oversized e kind =>
              simp only [kind, if_true] at decodes
              exact oversizedRaised_covers healthy expected kind decodes.symm
          | waiting missing =>
              simp only [Handled, After, covers_line_bind, covers_pure] at decodes ⊢
              exact ⟨here (by simp [missing]), here (by simp), decodes.symm⟩
          | frame data after arrived lost =>
              have gone {d' : MessageDecoder} (kept : d'.buffer = b') {trace : List Line}
                  (exposed : StreamExposed d trace) : d.Intact d' ↔ ¬ StreamExposed d trace :=
                iff_of_false (Lost.not_intact_decoder (kept ▸ lost)) (not_not.mpr exposed)
              simp only [Handled, After, covers_line_bind] at decodes ⊢
              refine ⟨gone rfl (by simp [arrived]), gone rfl (by simp),
                Covers.bind (Covers.tryExcept ((continueStream_covers lines data _).mono ?_ ?_))⟩
              · intro trace d' within
                obtain ⟨_, d'', ended, rfl, poisoned⟩ :=
                  streamRaised_leaves (α := Message) trace d'
                refine ⟨_, d'', ended, iff_of_true (Or.inl poisoned) ?_⟩
                obtain ⟨n, rest, rfl, lower, upper⟩ := within
                rw [streamExposed_codec]
                omega
              · intro r d' continued
                have kept : d'.buffer = b' := by
                  rw [show d' = ((d.withBuffer b').continueStream data).2 from
                    congrArg Prod.snd continued]
                  exact continueStream_buffer _ data
                rw [← continued] at decodes
                cases r with
                | error e =>
                    apply streamRaised_covers
                    · intro trace d'' same within
                      exact gone (same.trans kept) (by simp [StreamExposed, within])
                    · exact iff_of_true (Or.inl (poison_poisons _ _)) (by simp)
                    · exact decodes.symm
                | ok message =>
                    simp only [Handled, After, covers_pure] at decodes ⊢
                    exact decodes.symm

theorem decode_quiet (lines : Line → Nat) (d : MessageDecoder) :
    decode lines none d = settled d.decode := (decode_covers lines d).quiet

theorem decodeContinuation_quiet (lines : Line → Nat) (d : MessageDecoder) :
    decodeContinuation lines none d = settled d.decodeContinuation :=
  (decodeContinuation_covers lines d).quiet

theorem decodeHandshake_quiet {d : MessageDecoder}
    (unversioned : d.handshakeDone = false → d.version = none) :
    decodeHandshake none d = settled d.decodeHandshake := (decodeHandshake_covers unversioned).quiet

end Lines

inductive DecoderCall
  | decode
  | decodeContinuation
  | decodeHandshake
  deriving DecidableEq, Repr

/-- `lines` says how many lines the parsers run that are called at a line. -/
def DecoderCall.Interrupted (lines : Line → Nat) (d : MessageDecoder) :
    DecoderCall → List Line → MessageDecoder → Prop
  | .decode => InterruptedAt (Lines.decode lines) d
  | .decodeContinuation => InterruptedAt (Lines.decodeContinuation lines) d
  | .decodeHandshake => InterruptedAt Lines.decodeHandshake d

def MessageDecoder.Exposed (d : MessageDecoder) : DecoderCall → List Line → Prop
  | .decode, trace =>
    trace ∈ Lines.decodeLines ∨ d.buffer.hasMessage = true ∧ trace = [.codec 527]
  | .decodeContinuation, trace => Lines.StreamExposed d trace
  | .decodeHandshake, trace => trace ∈ Lines.handshakeLines

theorem MessageDecoder.Sound.unversioned {config : Config} {d : MessageDecoder}
    (sound : d.Sound config) (pending : d.handshakeDone = false) : d.version = none := by
  cases request : config.isRequest with
  | true =>
      by_contra versioned
      have done := ((sound.server request).1).mpr versioned
      rw [pending] at done
      cases done
  | false =>
      have done := (sound.client request).2
      rw [pending] at done
      cases done

/-- A call interrupted at one of its lines poisons the buffer or leaves everything as it was, except
at the lines listed: there it does neither. -/
theorem interrupted_intact_iff (cap : Nat) (capped : 1 ≤ cap) (config : Config) :
    (∀ b, Reachable ReadBuffer.step (ReadBuffer.fresh cap) b → b.poisoned = none →
      ∀ (call : BufferCall) trace after, call.Interrupted b trace after →
        (b.Intact after ↔ ¬ b.Exposed call trace)) ∧
      ∀ d, Reachable MessageDecoder.step (MessageDecoder.new config) d → d.buffer.poisoned = none →
        ∀ lines (call : DecoderCall) trace after, call.Interrupted lines d trace after →
          (d.Intact after ↔ ¬ d.Exposed call trace) := by
  constructor
  · intro b reachable healthy call trace after interrupted
    have kept : b.Sound cap := by
      apply reachable_invariant ReadBuffer.step (ReadBuffer.Sound cap) reachable
      · exact ⟨Nat.le_refl 0, rfl⟩
      · exact fun b op sound => sound.step op
    exact b.interrupted_intact_iff_exposed (kept.cap_eq ▸ capped) healthy interrupted
  · intro d reachable healthy lines call trace after interrupted
    have sound : d.Sound config := by
      apply reachable_invariant MessageDecoder.step (MessageDecoder.Sound config) reachable
      · exact .new config
      · exact fun d op sound => sound.step op
    cases call with
    | decode => exact (Lines.decode_covers lines d).point interrupted healthy
    | decodeContinuation =>
        exact (Lines.decodeContinuation_covers lines d).point interrupted healthy
    | decodeHandshake =>
        exact (Lines.decodeHandshake_covers sound.unversioned).point interrupted healthy

/-- Right after `read_message` has returned, the frame is gone and nothing says so. -/
theorem interrupted_decode_loses_frame :
    let d := final MessageDecoder.step (MessageDecoder.new .default)
      [.feed [1, 0, 0, 0, 4, 0, 0, 0, 7, 0, 0, 0, 0, 0, 0, 0]]
    d.buffer.poisoned = none ∧ ∃ after,
      DecoderCall.decode.Interrupted (fun _ => 0) d [.codec 527] after ∧ ¬ d.Intact after := by
  refine ⟨rfl, _, ⟨22, none, rfl⟩, ?_⟩
  rintro (poisoned | ⟨unread, _⟩)
  · exact poisoned rfl
  · cases unread

/-- A frame of 16 bytes: poisoned in the middle of `read_message`, lost at the `try` of `decode`. -/
theorem interrupted_intact_iff_frame :
    let frame : Bytes := [1, 0, 0, 0, 4, 0, 0, 0, 7, 0, 0, 0, 0, 0, 0, 0]
    let b := final ReadBuffer.step (ReadBuffer.fresh 64) [.feed frame]
    let d := final MessageDecoder.step (MessageDecoder.new .default) [.feed frame]
    (∃ after, BufferCall.readMessage.Interrupted b [.buffer 257] after ∧ b.Intact after) ∧
      ∃ after, DecoderCall.decode.Interrupted (fun _ => 0) d [.codec 532] after ∧
        ¬ d.Intact after := by
  intro frame b d
  have inside : BufferCall.readMessage.Interrupted b [.buffer 257] _ := ⟨12, none, rfl⟩
  have past : DecoderCall.decode.Interrupted (fun _ => 0) d [.codec 532] _ := ⟨23, none, rfl⟩
  have decided := interrupted_intact_iff 64 (by decide) .default
  refine ⟨⟨_, inside, ?_⟩, _, past, ?_⟩
  · apply (decided.1 b ⟨_, rfl⟩ rfl _ _ _ inside).mpr
    simp [ReadBuffer.Exposed]
  · exact fun intact => (decided.2 d ⟨_, rfl⟩ rfl _ _ _ _ past).mp intact (Or.inl (by decide))

/-- At the `return` of `read_bytes` the handshake is reverted and its bytes are not. -/
example :
    let d := final MessageDecoder.step (MessageDecoder.new (.default true))
      [.feed [1, 0, 0, 0, 0, 0, 0, 0]]
    ∃ after,
      DecoderCall.decodeHandshake.Interrupted (fun _ => 0) d [.codec 666, .buffer 359] after ∧
        after.handshakeDone = false ∧ after.version = none ∧ after.buffer.unread = [] :=
  ⟨_, ⟨26, none, rfl⟩, rfl, rfl, rfl⟩

end DqliteWire
