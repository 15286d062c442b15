import DqliteWire.Frames
import DqliteWire.Lifecycle
import DqliteWire.Rows

/-! The continuation fields against the history: what they say of the ROWS frames handed out, over
every run of calls that return or raise. -/

namespace DqliteWire

open WireLib WireLib.Utf8 MessageDecoder

def recordStream (streams : List (List RowsResponse)) :
    DecoderOp × DecoderReply → List (List RowsResponse)
  | (.decode, .ok (.message (some (.response (.rows result))))) => [result] :: streams
  | (.decodeContinuation, .ok (.message (some (.response (.rows result))))) =>
    match streams with
    | current :: earlier => (current ++ [result]) :: earlier
    | [] => []
  | _ => streams

/-- The ROWS frames handed out, grouped by stream, the latest stream first. -/
def rowStreams (past : List (DecoderOp × DecoderReply)) : List (List RowsResponse) :=
  past.foldl recordStream []

def rowCount (stream : List RowsResponse) : Nat := (stream.map fun r => r.rows.length).sum

theorem rowStreams_concat (past : List (DecoderOp × DecoderReply)) (e : DecoderOp × DecoderReply) :
    rowStreams (past ++ [e]) = recordStream (rowStreams past) e := by
  simp [rowStreams]

theorem rowCount_concat (stream : List RowsResponse) (result : RowsResponse) :
    rowCount (stream ++ [result]) = rowCount stream + result.rows.length := by
  simp [rowCount]

def Continuation.during (initial : RowsResponse) (stream : List RowsResponse) : Continuation :=
  ⟨true, stream.length, rowCount stream, some initial.columnNames.length, some initial.columnNames⟩

structure WithinCaps (config : Config) (stream : List RowsResponse) : Prop where
  frames : ∀ cap ∈ config.maxContinuationFrames, stream.length ≤ cap
  rows : ∀ cap ∈ config.maxTotalRows, rowCount stream ≤ cap

structure GoodStream (config : Config) (stream : List RowsResponse) : Prop where
  nonempty : stream ≠ []
  same_names : ∀ r ∈ stream, ∀ r' ∈ stream, r.columnNames = r'.columnNames
  short : ∀ r ∈ stream, r.rows.length < config.maxRows
  single : ∀ first rest, stream = first :: rest → first.hasMore = false → rest = []
  capped : ∀ first rest, stream = first :: rest → first.hasMore = true → WithinCaps config stream

namespace GoodStream

variable {config : Config}

theorem whole {result : RowsResponse} (short : result.rows.length < config.maxRows)
    (last : result.hasMore = false) : GoodStream config [result] where
  nonempty := by simp
  same_names := by simp
  short := by simpa using short
  single := by
    rintro first rest same _
    cases same
    rfl
  capped := by
    rintro first rest same more
    cases same
    rw [last] at more
    cases more

theorem of_more {initial : RowsResponse} {rest : List RowsResponse}
    (more : initial.hasMore = true)
    (names : ∀ r ∈ initial :: rest, r.columnNames = initial.columnNames)
    (short : ∀ r ∈ initial :: rest, r.rows.length < config.maxRows)
    (within : WithinCaps config (initial :: rest)) : GoodStream config (initial :: rest) where
  nonempty := by simp
  same_names := fun r member r' member' => (names r member).trans (names r' member').symm
  short := short
  single := by
    rintro first tail same last
    cases same
    rw [more] at last
    cases last
  capped := fun _ _ _ _ => within

end GoodStream

structure Bookkeeping (config : Config) (streams : List (List RowsResponse)) (d : MessageDecoder) :
    Prop where
  sound : d.Sound config
  idle : d.continuation.expected = false → d.continuation = .idle
  active : d.continuation.expected = true → config.isRequest = false ∧
    ∃ initial rest earlier, streams = (initial :: rest) :: earlier ∧ initial.hasMore = true ∧
      d.continuation = .during initial (initial :: rest) ∧
      WithinCaps config (initial :: rest)
  good : ∀ stream ∈ streams, GoodStream config stream

namespace Bookkeeping

variable {config : Config} {streams : List (List RowsResponse)} {d d' : MessageDecoder}

theorem new (config : Config) : Bookkeeping config [] (MessageDecoder.new config) where
  sound := .new config
  idle := fun _ => rfl
  active := fun expected => by cases expected
  good := by simp

theorem keep (held : Bookkeeping config streams d) (sound : d'.Sound config)
    (same : d'.continuation = d.continuation) : Bookkeeping config streams d' where
  sound := sound
  idle := by rw [same]; exact held.idle
  active := by rw [same]; exact held.active
  good := held.good

theorem close (good : ∀ stream ∈ streams, GoodStream config stream) (sound : d'.Sound config)
    (cleared : d'.continuation = .idle) : Bookkeeping config streams d' where
  sound := sound
  idle := fun _ => cleared
  active := fun expected => by rw [cleared] at expected; cases expected
  good := good

theorem decode (held : Bookkeeping config streams d) :
    Bookkeeping config (recordStream streams (.decode, d.decode.1.map .message)) d.decode.2 := by
  have outcome := decode_outcome d
  have sound := held.sound.decode
  generalize d.decode = result at outcome sound ⊢
  cases outcome with
  | refused e => exact held
  | waiting b idle read | unreadable b e idle read => exact held.keep sound rfl
  | failed b data e idle read raised => exact held.keep sound rfl
  | whole b data message idle read decoded last =>
      rw [held.sound.config_eq] at decoded
      have cleared := held.idle idle
      match message, decoded, last with
      | .response (.rows result), decoded, last =>
        have short := (decodeFrame_rows_facts decoded).2.1
        refine .close ?_ sound cleared
        intro stream member
        rcases List.mem_cons.mp member with rfl | earlier
        · exact .whole short (last result rfl)
        · exact held.good stream earlier
      | .request _, _, _ => exact held.keep sound rfl
      | .response (.failure _), _, _ | .response (.leader _), _, _ | .response (.welcome _), _, _
      | .response (.servers _), _, _ | .response (.db _), _, _ | .response (.stmt _), _, _
      | .response (.result _), _, _ | .response (.empty _), _, _ | .response (.files _), _, _
      | .response (.metadata _), _, _ => exact held.keep sound rfl
  | opened b data result idle read decoded more within =>
      rw [held.sound.config_eq] at decoded within
      obtain ⟨response, short, _⟩ := decodeFrame_rows_facts decoded
      have caps : WithinCaps config [result] :=
        ⟨config.frames_positive, by simpa [rowCount] using within⟩
      refine ⟨sound, fun expected => (by cases expected), fun _ => ⟨response, result, [], streams,
        rfl, more, by simp [Continuation.during, rowCount], caps⟩, ?_⟩
      intro stream member
      rcases List.mem_cons.mp member with rfl | earlier
      · exact .of_more more (by simp) (by simpa using short) caps
      · exact held.good stream earlier

theorem append_frame {initial result : RowsResponse} {rest : List RowsResponse} {data : Bytes}
    (good : GoodStream config (initial :: rest)) (more : initial.hasMore = true)
    (during : d.continuation = .during initial (initial :: rest)) (same : d.config = config)
    (decoded : HoldsRows d.config data result) (continues : Continues d result) :
    WithinCaps config (initial :: (rest ++ [result])) ∧
      GoodStream config (initial :: (rest ++ [result])) := by
  obtain ⟨frames, rows, _, names⟩ := continues
  obtain ⟨header, _, _, body⟩ := decoded
  rw [during, same] at frames rows
  rw [during] at names
  rw [same] at body
  have caps : WithinCaps config (initial :: (rest ++ [result])) := by
    refine ⟨fun cap member => ?_, fun cap member => ?_⟩
    · simpa [Continuation.during] using frames cap member
    · rw [← List.cons_append, rowCount_concat]
      exact rows cap member
  refine ⟨caps, .of_more more ?_ ?_ caps⟩
  · intro r member
    rw [← List.cons_append] at member
    rcases List.mem_append.mp member with earlier | now
    · exact good.same_names r earlier initial (by simp)
    · rw [List.mem_singleton.mp now]
      exact names initial.columnNames rfl
  · intro r member
    rw [← List.cons_append] at member
    rcases List.mem_append.mp member with earlier | now
    · exact good.short r earlier
    · rw [List.mem_singleton.mp now]
      exact (RowsResponse.decodeBody_facts body config.rows_positive).1

theorem decodeContinuation (held : Bookkeeping config streams d) :
    Bookkeeping config
      (recordStream streams (.decodeContinuation, d.decodeContinuation.1.map .message))
      d.decodeContinuation.2 := by
  have outcome := decodeContinuation_outcome d
  have sound := held.sound.decodeContinuation
  generalize d.decodeContinuation = result at outcome sound ⊢
  cases outcome with
  | refused e => exact held
  | waiting b expected read => exact held.keep sound rfl
  | oversized b size expected read => exact .close held.good sound (by simp)
  | wrongType b data msgType expected read | failure b data code message expected read
  | rejected b data text expected read | emptied b data result expected read =>
      exact .close held.good sound (finalize_continuation _)
  | broken b data e expected read => exact .close held.good sound (by simp)
  | continued b data result expected read decoded continues more =>
      obtain ⟨response, initial, rest, earlier, rfl, first, during, _⟩ := held.active expected
      obtain ⟨current, others⟩ := List.forall_mem_cons.mp held.good
      obtain ⟨caps, good⟩ :=
        append_frame current first during held.sound.config_eq decoded continues
      refine ⟨sound, fun idle => ?_, fun _ => ⟨response, initial, rest ++ [result], earlier, rfl,
        first, ?_, caps⟩, List.forall_mem_cons.mpr ⟨good, others⟩⟩
      · change d.continuation.expected = false at idle
        rw [expected] at idle
        cases idle
      · simp only [counted, withBuffer_continuation, during, Continuation.during]
        rw [← List.cons_append, rowCount_concat, List.length_append]
        rfl
  | ended b data result expected read decoded continues last =>
      obtain ⟨_, initial, rest, earlier, rfl, first, during, _⟩ := held.active expected
      obtain ⟨current, others⟩ := List.forall_mem_cons.mp held.good
      obtain ⟨_, good⟩ :=
        append_frame current first during held.sound.config_eq decoded continues
      exact .close (List.forall_mem_cons.mpr ⟨good, others⟩) sound (finalize_continuation _)

theorem decodeHandshake (held : Bookkeeping config streams d) :
    Bookkeeping config streams d.decodeHandshake.2 := by
  refine held.keep held.sound.decodeHandshake ?_
  unfold MessageDecoder.decodeHandshake
  split
  · rfl
  · split
    · rfl
    · rfl
    · simp only
      split
      · rfl
      · split <;> rfl

theorem step (held : Bookkeeping config streams d) (op : DecoderOp) :
    Bookkeeping config (recordStream streams (op, (d.step op).1)) (d.step op).2 := by
  have sound := held.sound.step op
  cases op with
  | feed data | hasMessage | pendingFrameSize | takeFrame | decodeBytes data =>
      exact held.keep sound rfl
  | skipMessage =>
      refine held.keep sound ?_
      simp only [MessageDecoder.step, MessageDecoder.skipMessage]
      split <;> rfl
  | decode => exact held.decode
  | decodeContinuation => exact held.decodeContinuation
  | decodeHandshake => exact held.decodeHandshake
  | reset => exact .close held.good sound (finalize_continuation _)

theorem streamError (held : Bookkeeping config streams d) {text : Text} {frames rows : Nat}
    (raised : d.decodeContinuation.1 = .error (.streamError text frames rows)) :
    ∃ current earlier, streams = current :: earlier ∧ frames = current.length ∧
      rows = rowCount current := by
  have outcome := decodeContinuation_outcome d
  generalize d.decodeContinuation = result at outcome raised
  cases outcome with
  | refused e guarded kind =>
      rcases kind with ⟨cause, rfl⟩ | ⟨_, rfl⟩ <;> cases raised
  | wrongType b data msgType expected read =>
      obtain ⟨_, initial, rest, earlier, rfl, _, during, _⟩ := held.active expected
      rw [during] at raised
      cases raised
      exact ⟨_, _, rfl, rfl, rfl⟩
  | broken b data e expected read body =>
      cases raised
      exact body.elim
  | waiting | oversized | failure | rejected | emptied | continued | ended => cases raised

end Bookkeeping

def streamsOf (config : Config) (ops : List DecoderOp) : List (List RowsResponse) :=
  rowStreams (replies (history step (new config) ops))

theorem bookkeeping_run (config : Config) (ops : List DecoderOp) :
    Bookkeeping config (streamsOf config ops) (final step (new config) ops) := by
  refine run_invariant step (fun past d => Bookkeeping config (rowStreams (replies past)) d)
    (fun _ => True) (Bookkeeping.new config) ?_ ops (by simp)
  intro past d op _ held
  rw [replies_concat, rowStreams_concat]
  exact held.step op

/-- The continuation and handshake fields in every state a run can reach: what they say of the
ROWS frames handed out so far. -/
theorem continuation_bookkeeping (config : Config) (ops : List DecoderOp) :
    let d := final step (new config) ops
    let streams := streamsOf config ops
    (d.continuation.expected = true → config.isRequest = false ∧
        ∃ initial rest earlier, streams = (initial :: rest) :: earlier ∧
          d.continuation.frameCount = (initial :: rest).length ∧ 1 ≤ d.continuation.frameCount ∧
          (∀ cap ∈ config.maxContinuationFrames, d.continuation.frameCount ≤ cap) ∧
          d.continuation.totalRows = rowCount (initial :: rest) ∧
          (∀ cap ∈ config.maxTotalRows, d.continuation.totalRows ≤ cap) ∧
          d.continuation.columnCount = some initial.columnNames.length ∧
          d.continuation.columnNames = some initial.columnNames) ∧
      (d.continuation.expected = false → d.continuation.frameCount = 0 ∧
        d.continuation.totalRows = 0 ∧ d.continuation.columnCount = none ∧
        d.continuation.columnNames = none) ∧
      (∀ stream ∈ streams, (∀ r ∈ stream, ∀ r' ∈ stream, r.columnNames = r'.columnNames) ∧
        ∀ r ∈ stream, r.rows.length < config.maxRows) ∧
      (∀ text frames rows, d.decodeContinuation.1 = .error (.streamError text frames rows) →
        ∃ current earlier, streams = current :: earlier ∧ frames = current.length ∧
          rows = rowCount current) ∧
      (config.isRequest = false → d.version = some config.version ∧ d.handshakeDone = true) ∧
      (config.isRequest = true → (d.handshakeDone = true ↔ d.version ≠ none) ∧
        ∀ version ∈ d.version, version ∈ supportedVersions) := by
  intro d streams
  have held : Bookkeeping config streams d := bookkeeping_run config ops
  refine ⟨fun expected => ?_, fun idle => ?_, fun stream member => ?_, fun _ _ _ => held.streamError,
    held.sound.client, held.sound.server⟩
  · obtain ⟨response, initial, rest, earlier, same, _, during, within⟩ := held.active expected
    rw [during]
    exact ⟨response, initial, rest, earlier, same, rfl, Nat.succ_pos _, within.frames, rfl,
      within.rows, rfl, rfl⟩
  · rw [held.idle idle]
    exact ⟨rfl, rfl, rfl, rfl⟩
  · exact ⟨(held.good stream member).same_names, (held.good stream member).short⟩

/-- The per-query caps: they bound what is delivered of every response whose first frame announces
more; a response in one frame is bounded by the row cap of a frame. -/
theorem caps_bound_continued_streams (config : Config) (ops : List DecoderOp) :
    ∀ stream ∈ streamsOf config ops, ∃ first rest, stream = first :: rest ∧
      (first.hasMore = true → (∀ cap ∈ config.maxTotalRows, rowCount stream ≤ cap) ∧
        ∀ cap ∈ config.maxContinuationFrames, stream.length ≤ cap) ∧
      (first.hasMore = false → rest = [] ∧ rowCount stream < config.maxRows ∧
        ∀ cap ∈ config.maxContinuationFrames, stream.length ≤ cap) := by
  intro stream member
  have good := (bookkeeping_run config ops).good stream member
  cases stream with
  | nil => exact absurd rfl good.nonempty
  | cons first rest =>
      refine ⟨first, rest, rfl, fun more => ?_, fun last => ?_⟩
      · have within := good.capped first rest rfl more
        exact ⟨within.rows, within.frames⟩
      · obtain rfl := good.single first rest rfl last
        have short := good.short first (by simp)
        exact ⟨rfl, by simpa [rowCount] using short, config.frames_positive⟩

/-- A DONE frame with the column `a` and the integers 0 and 0. -/
def twoRowFrame : Bytes :=
  [7, 0, 0, 0, 7, 0, 0, 0] ++ [1, 0, 0, 0, 0, 0, 0, 0] ++ [97, 0, 0, 0, 0, 0, 0, 0] ++
    [1, 0, 0, 0, 0, 0, 0, 0] ++ [0, 0, 0, 0, 0, 0, 0, 0] ++
    [1, 0, 0, 0, 0, 0, 0, 0] ++ [0, 0, 0, 0, 0, 0, 0, 0] ++ rowDoneMarker

theorem caps_bound_continued_streams_two_frames :
    let config := Config.withCaps 2 4 (by decide) (by decide)
    let ops := [DecoderOp.feed (twoRowFrame.take 56 ++ rowPartMarker ++ twoRowFrame), .decode,
      .decodeContinuation]
    ∃ stream ∈ streamsOf config ops, rowCount stream = 4 ∧
      ∃ first rest, stream = first :: rest ∧
        (first.hasMore = true → (∀ cap ∈ config.maxTotalRows, rowCount stream ≤ cap) ∧
          ∀ cap ∈ config.maxContinuationFrames, stream.length ≤ cap) ∧
        (first.hasMore = false → rest = [] ∧ rowCount stream < config.maxRows ∧
          ∀ cap ∈ config.maxContinuationFrames, stream.length ≤ cap) := by
  intro config ops
  have delivered : ∃ stream ∈ streamsOf config ops, rowCount stream = 4 := by decide +kernel
  obtain ⟨stream, member, rows⟩ := delivered
  exact ⟨stream, member, rows, caps_bound_continued_streams config ops stream member⟩

/-- The row cap is not looked at for a response in one frame. -/
theorem caps_bound_one_frame_fails :
    ¬ ∀ (config : Config) (frames total : Nat), config.maxContinuationFrames = some frames →
      config.maxTotalRows = some total → ∀ ops, ∀ stream ∈ streamsOf config ops,
        rowCount stream ≤ total ∧ stream.length ≤ frames := by
  intro bound
  have all := bound (.withCaps 1 1 le_rfl le_rfl) 1 1 rfl rfl [.feed twoRowFrame, .decode]
  revert all
  decide

end DqliteWire
