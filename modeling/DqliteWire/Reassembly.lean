import DqliteWire.Responses
import DqliteWire.RoundTrip

/-! A result set cut into ROWS frames, and the client that puts it together again. The position in
the stream determines the continuation fields, so each consumed frame is one step of `Progress`. -/

namespace DqliteWire

open WireLib WireLib.Utf8 MessageDecoder

namespace RowsResponse

/-- `size` rows from `start` on, with the types declared for them. -/
def part (m : RowsResponse) (start size : Nat) (more : Bool) : RowsResponse :=
  ⟨m.columnNames, m.columnTypes, (m.rowTypes.drop start).take size, (m.rows.drop start).take size,
    more⟩

def firstParts (m : RowsResponse) : Nat → List Nat → List RowsResponse
  | _, [] => []
  | start, size :: sizes => m.part start size true :: firstParts m (start + size) sizes

def lastPart (m : RowsResponse) (start : Nat) (sizes : List Nat) : RowsResponse :=
  m.part (start + sizes.sum) m.rows.length false

def split (m : RowsResponse) (sizes : List Nat) : List RowsResponse :=
  m.firstParts 0 sizes ++ [m.lastPart 0 sizes]

variable {m : RowsResponse}

theorem wireTypes_append (i : Nat) (first second : List (List WireInput)) :
    m.wireTypes i (first ++ second) =
      m.wireTypes i first ++ m.wireTypes (i + first.length) second := by
  induction first generalizing i with
  | nil => rfl
  | cons row first ih =>
      simp only [List.cons_append, wireTypes, ih, List.length_cons]
      rw [Nat.add_assoc, Nat.add_comm 1]

theorem getRowTypes_declared {i : Nat} (declared : i < m.rowTypes.length) (row : List WireInput) :
    m.getRowTypes i row = nullOverride (m.rowTypes.getD i []) row := by
  have some_ : m.rowTypes ≠ [] := List.length_pos_iff.mp (by omega)
  simp [getRowTypes, some_, declared]

theorem getRowTypes_part (typed : m.rowTypes ≠ [] → m.rowTypes.length = m.rows.length)
    (start size i : Nat) (more : Bool) (row : List WireInput) (small : i < size)
    (inside : start + i < m.rows.length) :
    (m.part start size more).getRowTypes i row = m.getRowTypes (start + i) row := by
  by_cases declared : m.rowTypes = []
  · simp [getRowTypes, part, declared]
  · have length := typed declared
    have own : i < (m.part start size more).rowTypes.length := by
      simp only [part, List.length_take, List.length_drop]
      omega
    have same : (m.part start size more).rowTypes.getD i [] = m.rowTypes.getD (start + i) [] := by
      simp [part, List.getD_eq_getElem?_getD, small]
    rw [getRowTypes_declared own, getRowTypes_declared (by omega), same]

theorem wireTypes_part (typed : m.rowTypes ≠ [] → m.rowTypes.length = m.rows.length)
    (start size : Nat) (more : Bool) (i : Nat) (rows : List (List WireInput))
    (small : i + rows.length ≤ size) (inside : start + i + rows.length ≤ m.rows.length) :
    (m.part start size more).wireTypes i rows = m.wireTypes (start + i) rows := by
  induction rows generalizing i with
  | nil => rfl
  | cons row rows ih =>
      simp only [List.length_cons] at small inside
      rw [wireTypes, wireTypes, getRowTypes_part typed _ _ _ _ _ (by omega) (by omega),
        ih (i + 1) (by omega) (by omega), Nat.add_assoc]

def normaliseRows (m : RowsResponse) (start : Nat) (rows : List (List WireInput)) :
    List (List WireInput) :=
  List.zipWith normaliseRow (m.wireTypes start rows) rows

theorem normaliseRows_append (start : Nat) (first second : List (List WireInput)) :
    m.normaliseRows start (first ++ second) =
      m.normaliseRows start first ++ m.normaliseRows (start + first.length) second := by
  rw [normaliseRows, wireTypes_append, List.zipWith_append (by rw [wireTypes_length])]
  rfl

theorem part_rows (typed : m.rowTypes ≠ [] → m.rowTypes.length = m.rows.length)
    (start size : Nat) (more : Bool) :
    (m.part start size more).normalised.rows =
      m.normaliseRows start ((m.rows.drop start).take size) := by
  have length : ((m.rows.drop start).take size).length = min size (m.rows.length - start) := by
    rw [List.length_take, List.length_drop]
  rcases Nat.lt_or_ge m.rows.length start with past | before
  · have none : m.rows.drop start = [] := List.drop_of_length_le past.le
    simp [normalised, part, normaliseRows, none]
  · have same := wireTypes_part typed start size more 0 ((m.rows.drop start).take size)
      (by omega) (by omega)
    exact congrArg (List.zipWith normaliseRow · ((m.rows.drop start).take size)) same

theorem split_rows_from (typed : m.rowTypes ≠ [] → m.rowTypes.length = m.rows.length) (start : Nat)
    (sizes : List Nat) :
    (m.firstParts start sizes ++ [m.lastPart start sizes]).flatMap (fun p => p.normalised.rows) =
      m.normaliseRows start (m.rows.drop start) := by
  induction sizes generalizing start with
  | nil =>
      have all : (m.rows.drop start).take m.rows.length = m.rows.drop start :=
        List.take_of_length_le (by rw [List.length_drop]; omega)
      simp [firstParts, lastPart, part_rows typed, all]
  | cons size sizes ih =>
      have last : m.lastPart start (size :: sizes) = m.lastPart (start + size) sizes := by
        simp [lastPart, Nat.add_assoc]
      rw [firstParts, List.cons_append, List.flatMap_cons, part_rows typed, last, ih]
      conv_rhs => rw [← List.take_append_drop size (m.rows.drop start), normaliseRows_append]
      rw [List.drop_drop, List.length_take, List.length_drop]
      rcases Nat.lt_or_ge (m.rows.length - start) size with short | long
      · have none : m.rows.drop (start + size) = [] := List.drop_of_length_le (by omega)
        simp [none, normaliseRows]
      · rw [min_eq_left long]

theorem split_rows (typed : m.rowTypes ≠ [] → m.rowTypes.length = m.rows.length)
    (sizes : List Nat) :
    (m.split sizes).flatMap (fun p => p.normalised.rows) = m.normalised.rows :=
  split_rows_from typed 0 sizes

theorem split_marks (sizes : List Nat) :
    (m.split sizes).map RowsResponse.hasMore = List.replicate sizes.length true ++ [false] := by
  have first (start : Nat) : (m.firstParts start sizes).map RowsResponse.hasMore =
      List.replicate sizes.length true := by
    induction sizes generalizing start with
    | nil => rfl
    | cons size sizes ih => simp [firstParts, part, List.replicate_succ, ih]
  rw [split, List.map_append, first]
  rfl

theorem firstParts_length (start : Nat) (sizes : List Nat) :
    (m.firstParts start sizes).length = sizes.length := by
  induction sizes generalizing start with
  | nil => rfl
  | cons size sizes ih => simp [firstParts, ih]

theorem firstParts_mem {start : Nat} {sizes : List Nat} {p : RowsResponse}
    (member : p ∈ m.firstParts start sizes) : p.hasMore = true ∧ p.columnNames = m.columnNames := by
  induction sizes generalizing start with
  | nil => cases member
  | cons size sizes ih =>
      rcases List.mem_cons.mp member with rfl | later
      · exact ⟨rfl, rfl⟩
      · exact ih later

theorem encodeBody_typed {isoError : Str → Option String} {body : Bytes}
    (encoded : m.encodeBody isoError = .ok body) :
    m.rowTypes ≠ [] → m.rowTypes.length = m.rows.length := by
  obtain ⟨_, _, tail⟩ := bind_eq_ok.mp encoded
  obtain ⟨_, _, tail⟩ := bind_eq_ok.mp tail
  obtain ⟨_, checked, _⟩ := bind_eq_ok.mp tail
  intro declared
  by_contra differs
  exact raiseIf_eq_ok.mp checked ⟨declared, differs⟩

end RowsResponse

namespace MessageDecoder

variable {config : Config} {d : MessageDecoder} {f : Bytes}

theorem accept_opens (idle : d.continuation.expected = false) (healthy : d.buffer.poisoned = none)
    (done : d.handshakeDone = true) {r : RowsResponse}
    (decoded : decodeFrame d.config d.version f = .ok (.response (.rows r)))
    (more : r.hasMore = true) (within : ∀ cap ∈ d.config.maxTotalRows, r.rows.length ≤ cap) :
    d.accept f = (.ok (some (.response (.rows r))), { d with continuation := .during r [r] }) := by
  simp only [accept, idle, Bool.false_eq_true, if_false]
  rcases startMessage_cases d healthy done f with
    ⟨e, _, raised | ⟨r', same, _, cap, member, large⟩⟩ | ⟨m, _, same, last⟩ | ⟨r', stepped, same, _⟩
  · rw [decoded] at raised
    cases raised
  · rw [decoded] at same
    cases same
    exact absurd (within cap member) (by omega)
  · rw [decoded] at same
    cases same
    rw [last r rfl] at more
    cases more
  · rw [decoded] at same
    cases same
    rw [stepped]
    simp [Continuation.during, rowCount]

theorem decodeFrame_parts {version : Option Nat} {m : Response}
    (decoded : decodeFrame config version f = .ok (.response m)) :
    Header.decode (f.take headerSize) = .ok (frameHeader f) ∧
      (f.drop headerSize).take (frameHeader f).bodySize = frameBody f ∧
      (frameHeader f).msgType = m.type.code ∧ checkSchema false (frameHeader f) = .ok () ∧
      decodeResponseBody config version m.type (frameBody f) (frameHeader f).schema = .ok m := by
  have legal := decodeFrame_ok decoded
  have width := bodySize_eq legal
  rw [decodeFrame_eq legal] at decoded
  exact ⟨Header.decode_eq legal.header_le, List.take_of_length_le (by rw [List.length_drop]; omega),
    (decodeBody_ok_response decoded).2⟩

section Continue

variable (response : config.isRequest = false) (same : d.config = config) {version : Option Nat}
include response same

theorem continueStream_rows {r : RowsResponse}
    (decoded : decodeFrame config version f = .ok (.response (.rows r))) :
    d.continueStream f = d.continueRows r := by
  obtain ⟨header, whole, type, schema, body⟩ := decodeFrame_parts decoded
  obtain ⟨_, rows, same_⟩ := map_eq_ok.mp body
  cases same_
  simp only [continueStream, header, whole, type, Response.type, same, response, schema, rows]
  rw [if_neg (by decide), if_neg (by decide), if_neg (by decide)]

theorem continueStream_failure {r : FailureResponse}
    (decoded : decodeFrame config version f = .ok (.response (.failure r))) :
    d.continueStream f = (.error (.serverFailure r.code r.message), d.finalizeContinuationState) := by
  obtain ⟨header, whole, type, schema, body⟩ := decodeFrame_parts decoded
  obtain ⟨_, failure, same_⟩ := map_eq_ok.mp body
  cases same_
  simp only [continueStream, header, whole, type, Response.type, same, response, schema, failure]
  rw [if_neg (by decide), if_pos trivial]

theorem continueStream_empty {r : EmptyResponse}
    (decoded : decodeFrame config version f = .ok (.response (.empty r))) :
    d.continueStream f = (.ok (.response (.empty r)), d.finalizeContinuationState) := by
  obtain ⟨header, whole, type, schema, body⟩ := decodeFrame_parts decoded
  obtain ⟨_, empty, same_⟩ := map_eq_ok.mp body
  cases same_
  simp only [continueStream, header, whole, type, Response.type, same, response, schema, empty]
  rw [if_neg (by decide), if_neg (by decide), if_pos trivial]

theorem accept_next (expected : d.continuation.expected = true) {r : RowsResponse}
    (decoded : decodeFrame config version f = .ok (.response (.rows r)))
    (continues : Continues d r) :
    d.accept f = (.ok (some (.response (.rows r))),
      if r.hasMore then d.counted r else d.finalizeContinuationState) := by
  simp only [accept, expected, if_true, continueStream_rows response same decoded]
  rcases continueRows_cases d r with
    ⟨_, _, _, _, rejected⟩ | ⟨_, more, stepped⟩ | ⟨_, last, stepped⟩
  · exact absurd continues rejected
  · simp only [stepped, more, if_true]
  · simp only [stepped, last, Bool.false_eq_true, if_false]

end Continue

end MessageDecoder

def returned (m : Message) : DecoderReply := .ok (.message (some m))

structure Parts (config : Config) (heads : List Bytes) (parts : List RowsResponse) : Prop where
  decoded : List.Forall₂ (fun f p => decodeMessage config f = .ok (.response (.rows p))) heads parts
  more : ∀ p ∈ parts, p.hasMore = true
  names : ∀ p ∈ parts, ∀ p' ∈ parts, p.columnNames = p'.columnNames
  within : WithinCaps config parts

/-- How the last frame ends the stream of `parts`, and what the call that reads it does. -/
inductive Ending (config : Config) (parts : List RowsResponse) (f : Bytes) : DecoderReply → Prop
  | rows (r : RowsResponse) (decoded : decodeMessage config f = .ok (.response (.rows r)))
      (last : r.hasMore = false) (names : ∀ p ∈ parts, r.columnNames = p.columnNames)
      (within : WithinCaps config (parts ++ [r])) :
      Ending config parts f (returned (.response (.rows r)))
  | empty (r : EmptyResponse) (decoded : decodeMessage config f = .ok (.response (.empty r)))
      (some_ : parts ≠ []) : Ending config parts f (returned (.response (.empty r)))
  | failure (r : FailureResponse) (decoded : decodeMessage config f = .ok (.response (.failure r)))
      (some_ : parts ≠ []) : Ending config parts f (.error (.serverFailure r.code r.message))

/-- The calls for a result set with `n` parts before the last frame, and for the message after. -/
def callsFor (n : Nat) : List DecoderOp :=
  .decode :: List.replicate n .decodeContinuation ++ [.decode]

def answersFor (parts : List RowsResponse) (ending : DecoderReply) (further : Message) :
    List DecoderReply :=
  parts.map (fun p => returned (.response (.rows p))) ++ [ending, returned further]

inductive Progress (parts : List RowsResponse) : Nat → Continuation → Prop
  | before : Progress parts 0 .idle
  | during (first : RowsResponse) (rest later : List RowsResponse)
      (split : parts = first :: rest ++ later) :
      Progress parts (rest.length + 1) (.during first (first :: rest))
  | ended : Progress parts (parts.length + 1) .idle
  | past (c : Continuation) : Progress parts (parts.length + 2) c

section Progress

variable {config : Config} {heads : List Bytes} {parts : List RowsResponse} {last g f : Bytes}
  {ending : DecoderReply} {further : Message} {d : MessageDecoder} {n : Nat}

theorem Parts.length_eq (shaped : Parts config heads parts) : heads.length = parts.length :=
  shaped.decoded.length_eq

theorem Parts.legal (shaped : Parts config heads parts) (ends : Ending config parts last ending)
    (decodable : decodeMessage config g = .ok further) :
    ∀ f ∈ heads ++ [last, g], wire.IsFrame config.maxMessageSize f := by
  have frame {f : Bytes} {m : Message} (decoded : decodeMessage config f = .ok m) :
      wire.IsFrame config.maxMessageSize f := by
    rw [decodeMessage_eq] at decoded
    exact decodeFrame_ok decoded
  intro f member
  rw [List.mem_append, List.mem_cons, List.mem_singleton] at member
  rcases member with head | rfl | rfl
  · obtain ⟨i, inside, rfl⟩ := List.getElem_of_mem head
    exact frame (shaped.decoded.get inside (by rw [← shaped.length_eq]; exact inside))
  · cases ends with
    | rows _ decoded | empty _ decoded | failure _ decoded => exact frame decoded
  · exact frame decodable

theorem Parts.decoded_at (shaped : Parts config heads parts) {p : RowsResponse}
    {before later : List RowsResponse} (split : parts = before ++ p :: later) :
    ∃ f, heads[before.length]? = some f ∧ decodeMessage config f = .ok (.response (.rows p)) := by
  have inside : before.length < parts.length := by simp [split]
  have inside' : before.length < heads.length := by rw [shaped.length_eq]; exact inside
  have decoded := shaped.decoded.get inside' inside
  refine ⟨heads[before.length], List.getElem?_eq_getElem inside', ?_⟩
  simpa [split] using decoded

theorem continues_stream {first p : RowsResponse} {rest : List RowsResponse}
    (sound : d.Sound config) (during : d.continuation = .during first (first :: rest))
    (names : p.columnNames = first.columnNames)
    (within : WithinCaps config (first :: rest ++ [p])) : Continues d p where
  frames_within := by
    rw [sound.config_eq, during]
    intro cap capped
    simpa [Continuation.during] using within.frames cap capped
  rows_within := by
    rw [sound.config_eq, during]
    intro cap capped
    have total := within.rows cap capped
    rwa [rowCount_concat] at total
  same_count := by
    rw [during]
    rintro count counted
    cases counted
    rw [names]
  same_names := by
    rw [during]
    rintro _ named
    cases named
    exact names

theorem WithinCaps.of_prefix {before later : List RowsResponse}
    (within : WithinCaps config (before ++ later)) : WithinCaps config before where
  frames := fun cap capped => by
    have total := within.frames cap capped
    rw [List.length_append] at total
    omega
  rows := fun cap capped => by
    have total := within.rows cap capped
    simp only [rowCount, List.map_append, List.sum_append] at total ⊢
    omega

theorem decodeFrame_sound (sound : d.Sound config) (response : config.isRequest = false)
    (f : Bytes) : decodeFrame d.config d.version f = decodeMessage config f := by
  rw [decodeMessage_eq, sound.config_eq, (sound.client response).1]

theorem accept_single (sound : d.Sound config) (response : config.isRequest = false)
    (healthy : d.buffer.poisoned = none) (idle : d.continuation.expected = false) {m : Message}
    (decoded : decodeMessage config f = .ok m)
    (single : ∀ r, m = .response (.rows r) → r.hasMore = false) :
    d.accept f = (.ok (some m), d) := by
  have same := decodeFrame_sound sound response f
  rw [accept_whole idle healthy (sound.client response).2, same, decoded]
  intro r rows
  rw [same, decoded] at rows
  exact single r (Except.ok.inj rows)

theorem Ending.accept (ends : Ending config parts last ending)
    (sound : d.Sound config) (response : config.isRequest = false) {first : RowsResponse}
    {rest : List RowsResponse} (split : parts = first :: rest)
    (during : d.continuation = .during first (first :: rest)) :
    (d.accept last).1.map .message = ending ∧ (d.accept last).2 = d.finalizeContinuationState := by
  have expected : d.continuation.expected = true := by rw [during]; rfl
  cases ends with
  | rows r decoded single names within =>
      rw [decodeMessage_eq] at decoded
      have member : first ∈ parts := by simp [split]
      have continues := continues_stream sound during (names first member)
        (by rw [← split]; exact within)
      rw [accept_next response sound.config_eq expected decoded continues, single]
      exact ⟨rfl, rfl⟩
  | empty r decoded =>
      rw [decodeMessage_eq] at decoded
      simp only [MessageDecoder.accept, expected, if_true,
        continueStream_empty response sound.config_eq decoded]
      exact ⟨rfl, trivial⟩
  | failure r decoded =>
      rw [decodeMessage_eq] at decoded
      simp only [MessageDecoder.accept, expected, if_true,
        continueStream_failure response sound.config_eq decoded]
      exact ⟨rfl, rfl⟩

/-- One frame: the call that is due, what it returns, and how far the stream is then. -/
structure Advances (parts : List RowsResponse) (ending : DecoderReply) (further : Message) (n : Nat)
    (d : MessageDecoder) (f : Bytes) : Prop where
  due : (callsFor parts.length)[n]? = some d.due
  reply : (answersFor parts ending further)[n]? = some ((d.accept f).1.map .message)
  buffer : (d.accept f).2.buffer = d.buffer
  next : Progress parts (n + 1) (d.accept f).2.continuation

section Accept

variable (sound : d.Sound config) (response : config.isRequest = false)
include sound response

theorem accept_opens_stream (healthy : d.buffer.poisoned = none) (idle : d.continuation.expected = false)
    {r : RowsResponse} (decoded : decodeMessage config f = .ok (.response (.rows r)))
    (more : r.hasMore = true) (within : ∀ cap ∈ config.maxTotalRows, r.rows.length ≤ cap) :
    d.accept f = (.ok (some (.response (.rows r))), { d with continuation := .during r [r] }) := by
  refine accept_opens idle healthy (sound.client response).2 ?_ more ?_
  · rw [decodeFrame_sound sound response, decoded]
  · rw [sound.config_eq]
    exact within

theorem advances_first (healthy : d.buffer.poisoned = none) (fields : d.continuation = .idle)
    (shaped : Parts config heads parts) (ends : Ending config parts last ending)
    (found : (heads ++ [last, g])[0]? = some f) : Advances parts ending further 0 d f := by
  have idle : d.continuation.expected = false := by rw [fields]; rfl
  have due : d.due = .decode := by simp [MessageDecoder.due, idle]
  cases parts with
  | nil =>
      obtain rfl : heads = [] := List.length_eq_zero_iff.mp shaped.length_eq
      cases found
      cases ends with
      | rows r decoded single =>
          have accepted := accept_single sound response healthy idle decoded
            (fun _ same => by cases same; exact single)
          refine ⟨by rw [due]; rfl, by rw [accepted]; rfl, by rw [accepted], ?_⟩
          rw [accepted, fields]
          exact .ended
      | empty r decoded some_ => exact absurd rfl some_
      | failure r decoded some_ => exact absurd rfl some_
  | cons p later =>
      obtain ⟨f', found', decoded⟩ := shaped.decoded_at (show p :: later = [] ++ _ from rfl)
      rw [List.getElem?_append_left (by simp [shaped.length_eq])] at found
      obtain rfl : f' = f := by
        rw [List.length_nil, found] at found'
        exact (Option.some.inj found').symm
      have within : ∀ cap ∈ config.maxTotalRows, p.rows.length ≤ cap := by
        intro cap capped
        have total := (WithinCaps.of_prefix shaped.within : WithinCaps config [p]).rows cap capped
        simpa [rowCount] using total
      have accepted := accept_opens_stream sound response healthy idle decoded
        (shaped.more p (by simp)) within
      refine ⟨by rw [due]; rfl, by rw [accepted]; rfl, by rw [accepted], ?_⟩
      rw [accepted]
      exact .during p [] later rfl

omit sound response in
theorem during_due {first : RowsResponse} {rest : List RowsResponse}
    (fields : d.continuation = .during first (first :: rest)) (inside : rest.length < parts.length) :
    (callsFor parts.length)[rest.length + 1]? = some d.due := by
  have expected : d.continuation.expected = true := by rw [fields]; rfl
  have due : d.due = .decodeContinuation := by simp [MessageDecoder.due, expected]
  rw [due, callsFor, List.cons_append, List.getElem?_cons_succ,
    List.getElem?_append_left (by rw [List.length_replicate]; exact inside),
    List.getElem?_replicate_of_lt inside]

theorem advances_last {first : RowsResponse} {rest : List RowsResponse} (split : parts = first :: rest)
    (fields : d.continuation = .during first (first :: rest)) (shaped : Parts config heads parts)
    (ends : Ending config parts last ending)
    (found : (heads ++ [last, g])[rest.length + 1]? = some f) :
    Advances parts ending further (rest.length + 1) d f := by
  have length : parts.length = rest.length + 1 := by rw [split, List.length_cons]
  rw [List.getElem?_append_right (by rw [shaped.length_eq]; omega), shaped.length_eq, length,
    Nat.sub_self] at found
  cases found
  obtain ⟨reply, next⟩ := ends.accept sound response split fields
  refine ⟨during_due fields (by omega), ?_, ?_, ?_⟩
  · rw [reply, answersFor, List.getElem?_append_right (by rw [List.length_map]; omega),
      List.length_map, length, Nat.sub_self]
    rfl
  · rw [next, finalize_buffer]
  · rw [next, finalize_continuation, ← length]
    exact .ended

theorem advances_part {first p : RowsResponse} {rest later : List RowsResponse}
    (split : parts = first :: rest ++ p :: later)
    (fields : d.continuation = .during first (first :: rest)) (shaped : Parts config heads parts)
    (found : (heads ++ [last, g])[rest.length + 1]? = some f) :
    Advances parts ending further (rest.length + 1) d f := by
  have expected : d.continuation.expected = true := by rw [fields]; rfl
  have length : parts.length = rest.length + 1 + (later.length + 1) := by
    rw [split, List.length_append, List.length_cons, List.length_cons]
  obtain ⟨f', found', decoded⟩ := shaped.decoded_at split
  rw [List.length_cons] at found'
  rw [List.getElem?_append_left (by rw [shaped.length_eq]; omega), found'] at found
  cases found
  rw [decodeMessage_eq] at decoded
  have first_ : first ∈ parts := by simp [split]
  have now : p ∈ parts := by simp [split]
  have within : WithinCaps config (first :: rest ++ [p]) := by
    refine WithinCaps.of_prefix (?_ : WithinCaps config (first :: rest ++ [p] ++ later))
    rw [List.append_assoc, List.singleton_append, ← split]
    exact shaped.within
  have continues := continues_stream sound fields (shaped.names p now first first_) within
  have accepted := accept_next response sound.config_eq expected decoded continues
  rw [shaped.more p now, if_pos rfl] at accepted
  refine ⟨during_due fields (by omega), ?_, by rw [accepted]; rfl, ?_⟩
  · rw [accepted, answersFor, List.getElem?_append_left (by rw [List.length_map]; omega),
      List.getElem?_map, split, List.getElem?_append_right (by simp)]
    simp [returned, Except.map]
  · have count : (d.counted p).continuation = .during first (first :: (rest ++ [p])) := by
      rw [MessageDecoder.counted, fields, Continuation.during, Continuation.during,
        ← List.cons_append, rowCount_concat]
      simp
    have next : Progress parts ((rest ++ [p]).length + 1)
        (.during first (first :: (rest ++ [p]))) := .during first _ later (by simp [split])
    rw [List.length_append, List.length_singleton] at next
    rw [accepted, count]
    exact next

theorem advances_further (healthy : d.buffer.poisoned = none) (fields : d.continuation = .idle)
    (shaped : Parts config heads parts) (decodable : decodeMessage config g = .ok further)
    (allowed : ∀ r, further = .response (.rows r) → r.hasMore = true →
      ∀ cap ∈ config.maxTotalRows, r.rows.length ≤ cap)
    (found : (heads ++ [last, g])[parts.length + 1]? = some f) :
    Advances parts ending further (parts.length + 1) d f := by
  have idle : d.continuation.expected = false := by rw [fields]; rfl
  have due : d.due = .decode := by simp [MessageDecoder.due, idle]
  have call : (callsFor parts.length)[parts.length + 1]? = some d.due := by
    rw [due, callsFor, List.cons_append, List.getElem?_cons_succ,
      List.getElem?_append_right (by simp)]
    simp
  have answer : (answersFor parts ending further)[parts.length + 1]? = some (returned further) := by
    rw [answersFor, List.getElem?_append_right (by simp)]
    simp
  rw [List.getElem?_append_right (by rw [shaped.length_eq]; omega), shaped.length_eq,
    Nat.add_sub_cancel_left] at found
  cases found
  by_cases stream : ∃ r, further = .response (.rows r) ∧ r.hasMore = true
  · obtain ⟨r, rfl, more⟩ := stream
    have accepted := accept_opens_stream sound response healthy idle decodable more (allowed r rfl more)
    exact ⟨call, by rw [answer, accepted]; rfl, by rw [accepted], .past _⟩
  · have single : ∀ r, further = .response (.rows r) → r.hasMore = false := by
      intro r same
      by_contra more
      exact stream ⟨r, same, by simpa using more⟩
    have accepted := accept_single sound response healthy idle decodable single
    exact ⟨call, by rw [answer, accepted]; rfl, by rw [accepted], .past _⟩

end Accept

theorem Progress.accept (progress : Progress parts n d.continuation)
    (shaped : Parts config heads parts) (ends : Ending config parts last ending)
    (decodable : decodeMessage config g = .ok further)
    (allowed : ∀ r, further = .response (.rows r) → r.hasMore = true →
      ∀ cap ∈ config.maxTotalRows, r.rows.length ≤ cap)
    (sound : d.Sound config) (response : config.isRequest = false)
    (healthy : d.buffer.poisoned = none) (found : (heads ++ [last, g])[n]? = some f) :
    Advances parts ending further n d f := by
  generalize fields : d.continuation = c at progress
  cases progress with
  | before => exact advances_first sound response healthy fields shaped ends found
  | during first rest later split =>
      cases later with
      | nil =>
          rw [List.append_nil] at split
          exact advances_last sound response split fields shaped ends found
      | cons p later => exact advances_part sound response split fields shaped found
  | ended => exact advances_further sound response healthy fields shaped decodable allowed found
  | past c =>
      rw [List.getElem?_eq_none (by simp [shaped.length_eq])] at found
      cases found

end Progress

theorem prefix_concat {α : Type} {l s : List α} {a : α} (before : l <+: s)
    (next : s[l.length]? = some a) : l ++ [a] <+: s := by
  obtain ⟨rest, rfl⟩ := before
  cases rest with
  | nil => simp at next
  | cons b rest =>
      simp only [List.getElem?_append_right le_rfl, Nat.sub_self, List.getElem?_cons_zero,
        Option.some.injEq] at next
      subst next
      exact ⟨rest, by simp⟩

theorem reassembly_rule {config : Config} (response : config.isRequest = false)
    {heads : List Bytes} {parts : List RowsResponse} {last g : Bytes} {ending : DecoderReply}
    {further : Message} (shaped : Parts config heads parts) (ends : Ending config parts last ending)
    (decodable : decodeMessage config g = .ok further)
    (allowed : ∀ r, further = .response (.rows r) → r.hasMore = true →
      ∀ cap ∈ config.maxTotalRows, r.rows.length ≤ cap) :
    FrameRule config config.version (heads ++ [last, g])
      (fun log d => Progress parts log.length d.continuation ∧
        log.map Consumption.op <+: callsFor parts.length ∧
        log.map Consumption.reply <+: answersFor parts ending further)
      (fun _ => False) where
  initially := ⟨.before, List.nil_prefix, List.nil_prefix⟩
  buffer_free := fun _ _ _ held => held
  greeted := fun _ request _ => by simp [request] at response
  accepts := by
    rintro log d f others streams split books healthy _ ⟨progress, called, answered⟩
    have found : (heads ++ [last, g])[log.length]? = some f := by
      rw [split, List.getElem?_append_right (by rw [List.length_map]), List.length_map, Nat.sub_self]
      rfl
    obtain ⟨call, answer, buffer, next⟩ := progress.accept shaped ends decodable allowed books.sound
      response healthy found
    refine ⟨fun _ => ⟨?_, ?_, ?_⟩, fun poisoned => poisoned (by rw [buffer]; exact healthy)⟩
    · rw [List.length_append, List.length_singleton]
      exact next
    · rw [List.map_append]
      exact prefix_concat called (by rw [List.length_map]; exact call)
    · rw [List.map_append]
      exact prefix_concat answered (by rw [List.length_map]; exact answer)

/-- The last frame of a result set sent in parts of the given sizes, and the reply to the call that
reads it: the last part, or in its place an EMPTY frame or a FAILURE frame. -/
inductive LastFrame (config : Config) (isoError : Str → Option String) (m : RowsResponse)
    (sizes : List Nat) (f : Bytes) : DecoderReply → Prop
  | rows (encoded : (Message.response (.rows (m.lastPart 0 sizes))).encode isoError = .ok f) :
      LastFrame config isoError m sizes f (returned (.response (.rows (m.lastPart 0 sizes).normalised)))
  | empty (r : EmptyResponse) (decoded : decodeMessage config f = .ok (.response (.empty r)))
      (some_ : sizes ≠ []) : LastFrame config isoError m sizes f (returned (.response (.empty r)))
  | failure (r : FailureResponse) (decoded : decodeMessage config f = .ok (.response (.failure r)))
      (some_ : sizes ≠ []) :
      LastFrame config isoError m sizes f (.error (.serverFailure r.code r.message))

section Sent

variable {config : Config} {isoError : Str → Option String} {m : RowsResponse} {sizes : List Nat}

theorem rowCount_normalised (parts : List RowsResponse) :
    rowCount (parts.map RowsResponse.normalised) =
      (parts.flatMap fun p => p.normalised.rows).length := by
  simp [rowCount, List.length_flatMap, Function.comp_def]

theorem sent_within (typed : m.rowTypes ≠ [] → m.rowTypes.length = m.rows.length)
    (frames : ∀ cap ∈ config.maxContinuationFrames, (m.split sizes).length ≤ cap)
    (total : ∀ cap ∈ config.maxTotalRows, m.rows.length ≤ cap) :
    WithinCaps config ((m.split sizes).map RowsResponse.normalised) where
  frames := by
    rw [List.length_map]
    exact frames
  rows := by
    rw [rowCount_normalised, RowsResponse.split_rows typed, RowsResponse.normalised_rows_length]
    exact total

theorem sent_parts (response : config.isRequest = false) (named : m.columnNames ≠ [])
    {heads : List Bytes}
    (written : List.Forall₂ (fun p f => (Message.response (.rows p)).encode isoError = .ok f)
      (m.firstParts 0 sizes) heads)
    (short : ∀ p ∈ m.split sizes, p.rows.length < config.maxRows)
    (small : ∀ f ∈ heads, f.length ≤ config.maxMessageSize)
    (within : WithinCaps config ((m.split sizes).map RowsResponse.normalised)) :
    Parts config heads ((m.firstParts 0 sizes).map RowsResponse.normalised) where
  decoded := by
    rw [List.forall₂_map_right_iff]
    refine (List.forall₂_iff_get.mpr ⟨written.length_eq.symm, fun i inside inside' => ?_⟩)
    have encoded := written.get inside' inside
    have member : (m.firstParts 0 sizes)[i] ∈ m.firstParts 0 sizes := List.getElem_mem inside'
    rw [decodeMessage_eq]
    refine decodeFrame_encode_rows response encoded ?_ (short _ ?_)
      (small _ (List.getElem_mem inside)) _
    · simp only [List.get_eq_getElem, (RowsResponse.firstParts_mem member).2]
      exact named
    · exact List.mem_append_left _ member
  more := by
    simp only [List.mem_map, forall_exists_index, and_imp]
    rintro _ p member rfl
    exact (RowsResponse.firstParts_mem member).1
  names := by
    simp only [List.mem_map, forall_exists_index, and_imp]
    rintro _ p member rfl _ p' member' rfl
    exact (RowsResponse.firstParts_mem member).2.trans (RowsResponse.firstParts_mem member').2.symm
  within := by
    rw [RowsResponse.split, List.map_append] at within
    exact within.of_prefix

theorem LastFrame.ending {last : Bytes} {reply : DecoderReply}
    (sent : LastFrame config isoError m sizes last reply) (response : config.isRequest = false)
    (named : m.columnNames ≠ []) (short : ∀ p ∈ m.split sizes, p.rows.length < config.maxRows)
    (small : last.length ≤ config.maxMessageSize)
    (within : WithinCaps config ((m.split sizes).map RowsResponse.normalised)) :
    Ending config ((m.firstParts 0 sizes).map RowsResponse.normalised) last reply := by
  have parts (some_ : sizes ≠ []) : (m.firstParts 0 sizes).map RowsResponse.normalised ≠ [] := by
    rw [Ne, List.map_eq_nil_iff, ← List.length_eq_zero_iff, RowsResponse.firstParts_length,
      List.length_eq_zero_iff]
    exact some_
  cases sent with
  | rows encoded =>
      refine .rows _ ?_ rfl ?_ ?_
      · rw [decodeMessage_eq]
        exact decodeFrame_encode_rows response encoded named (short _ (by simp [RowsResponse.split]))
          small _
      · simp only [List.mem_map, forall_exists_index, and_imp]
        rintro _ p member rfl
        exact (RowsResponse.firstParts_mem member).2.symm
      · rw [RowsResponse.split, List.map_append] at within
        exact within
  | empty r decoded some_ => exact .empty r decoded (parts some_)
  | failure r decoded some_ => exact .failure r decoded (parts some_)

end Sent

/-- A result set in parts of any sizes, in any chunks and with the calls in any order: the calls
that take its frames are one `decode` and then `decode_continuation`, they return the parts, and
the next `decode` returns the message after it. -/
theorem result_set_reassembled (isoError : Str → Option String) (config : Config)
    (response : config.isRequest = false) (m : RowsResponse) (named : m.columnNames ≠ [])
    (body : Bytes) (encodes : m.encodeBody isoError = .ok body) (sizes : List Nat)
    (heads : List Bytes)
    (written : List.Forall₂ (fun p f => (Message.response (.rows p)).encode isoError = .ok f)
      (m.firstParts 0 sizes) heads)
    (last : Bytes) (reply : DecoderReply) (sent : LastFrame config isoError m sizes last reply)
    (frames : ∀ cap ∈ config.maxContinuationFrames, (m.split sizes).length ≤ cap)
    (total : ∀ cap ∈ config.maxTotalRows, m.rows.length ≤ cap)
    (short : ∀ p ∈ m.split sizes, p.rows.length < config.maxRows)
    (small : ∀ f ∈ heads ++ [last], f.length ≤ config.maxMessageSize)
    (g : Bytes) (further : Message) (decodable : decodeMessage config g = .ok further)
    (allowed : ∀ r, further = .response (.rows r) → r.hasMore = true →
      ∀ cap ∈ config.maxTotalRows, r.rows.length ≤ cap)
    (ops : List DecoderOp) (calls : ∀ op ∈ ops, streamCall op = true)
    (chunks : acceptedChunks (replies (history step (new config) ops)) <+:
      (heads ++ [last, g]).flatten)
    (fed : ∀ e ∈ replies (history step (new config) ops), feedFailed e = false) :
    let d := final step (new config) ops
    let log := consumptions (history step (new config) ops)
    let answers := answersFor ((m.firstParts 0 sizes).map RowsResponse.normalised) reply further
    (m.split sizes).flatMap (fun p => p.normalised.rows) = m.normalised.rows ∧
      (m.split sizes).map (fun p => p.normalised.hasMore) =
        List.replicate sizes.length true ++ [false] ∧
      d.buffer.poisoned = none ∧ log.map Consumption.frame <+: heads ++ [last, g] ∧
      log.map Consumption.op <+: callsFor sizes.length ∧ log.map Consumption.reply <+: answers ∧
      ∀ f, (heads ++ [last, g])[log.length]? = some f →
        ∃ op answer, (callsFor sizes.length)[log.length]? = some op ∧
          answers[log.length]? = some answer ∧
          (d.step op).1 =
            if ((heads ++ [last, g]).take (log.length + 1)).flatten.length ≤
                (acceptedChunks (replies (history step (new config) ops))).length
            then answer else .ok (.message none) := by
  intro d log answers
  have typed := RowsResponse.encodeBody_typed encodes
  have within := sent_within typed frames total
  have shaped := sent_parts response named written short
    (fun f member => small f (List.mem_append_left _ member)) within
  have ends := sent.ending response named short (small last (by simp)) within
  have count : ((m.firstParts 0 sizes).map RowsResponse.normalised).length = sizes.length := by
    rw [List.length_map, RowsResponse.firstParts_length]
  have legal := shaped.legal ends decodable
  have chunks' : acceptedChunks (replies (history step (new config) ops)) <+:
      greeting config config.version ++ (heads ++ [last, g]).flatten := by
    simpa [greeting, response] using chunks
  have state := session_run (reassembly_rule response shaped ends decodable allowed) legal
    config.version_supported ops calls chunks'
  refine ⟨RowsResponse.split_rows typed sizes, RowsResponse.split_marks sizes, ?_⟩
  rcases state.unrefused fed with ⟨standing, progress, called, answered⟩ | ⟨_, _, impossible⟩
  · rw [count] at called
    refine ⟨standing.healthy, standing.taken, called, answered, fun f found => ?_⟩
    have none : (greeting config config.version).length = 0 := by simp [greeting, response]
    rcases standing.next legal chunks' (standing.sound.client response).2 with
      ⟨b, stepped, _, lacking⟩ | ⟨f', _, b, _, found', arrived, sane, ⟨_, books⟩, stepped⟩
    · obtain ⟨call, answer, _, _⟩ := progress.accept shaped ends decodable allowed standing.sound
        response standing.healthy found
      rw [count] at call
      have late := lacking f found
      rw [none, Nat.zero_add] at late
      refine ⟨_, _, call, answer, ?_⟩
      rw [if_neg (not_le.mpr late)]
      exact congrArg Prod.fst stepped
    · rw [found] at found'
      cases found'
      obtain ⟨call, answer, _, _⟩ := Progress.accept (d := d.withBuffer b) progress shaped ends
        decodable allowed books.sound response sane found
      rw [count] at call
      rw [none, Nat.zero_add] at arrived
      refine ⟨d.due, _, call, answer, ?_⟩
      rw [if_pos arrived]
      exact congrArg Prod.fst stepped
  · exact impossible.elim

/-- The message after the result set is a ROWS frame with more to come and more rows than the cap:
it decodes by itself, and `decode` refuses it. -/
theorem result_set_reassembled_large_follower :
    ¬ ∀ (isoError : Str → Option String) (config : Config), config.isRequest = false →
      ∀ m : RowsResponse, m.columnNames ≠ [] → ∀ body, m.encodeBody isoError = .ok body →
      ∀ last, (Message.response (.rows m)).encode isoError = .ok last → m.hasMore = false →
      (∀ cap ∈ config.maxContinuationFrames, 1 ≤ cap) →
      (∀ cap ∈ config.maxTotalRows, m.rows.length ≤ cap) → m.rows.length < config.maxRows →
      last.length ≤ config.maxMessageSize →
      ∀ g further, decodeMessage config g = .ok further →
        ((final step (new config) [.feed (last ++ g), .decode]).step .decode).1 =
          returned further := by
  intro always
  let g := twoRowFrame.take 56 ++ rowPartMarker
  have refused := always (fun _ => none) (.withCaps 1 1 le_rfl le_rfl) rfl
    ⟨[[⟨97, by decide⟩]], [], [], [], false⟩ (by simp) (frameBody (emptyRowsFrame .done)) (by decide)
    (emptyRowsFrame .done) (by decide) rfl (by decide) (by decide) (by decide) (by decide) g
    (.response (.rows ⟨[[⟨97, by decide⟩]], [.integer], [[.integer], [.integer]],
      [[.value (.int 0)], [.value (.int 0)]], true⟩)) (by decide)
  revert refused
  decide

/-- Two rows of the one column `a`, the second NULL, in a part each. -/
def twoRows : RowsResponse :=
  ⟨[[⟨97, by decide⟩]], [], [], [[.value (.bool true)], [.value .none]], false⟩

def rowBytes (type cell : UInt8) : Bytes := [type, 0, 0, 0, 0, 0, 0, 0] ++ [cell, 0, 0, 0, 0, 0, 0, 0]

def oneRowFrame (row : Bytes) (marker : RowMarker) : Bytes :=
  [5, 0, 0, 0, 7, 0, 0, 0] ++ [1, 0, 0, 0, 0, 0, 0, 0] ++ [97, 0, 0, 0, 0, 0, 0, 0] ++ row ++
    marker.bytes

theorem result_set_reassembled_two_parts :
    let first := oneRowFrame (rowBytes 11 1) .part
    let last := oneRowFrame (rowBytes 5 0) .done
    ((final step (new .default) [.feed first, .decode,
      .feed (last ++ emptyRowsFrame .done)]).step .decodeContinuation).1 =
      returned (.response (.rows (twoRows.lastPart 0 [1]).normalised)) := by
  intro first last
  have run := (result_set_reassembled (fun _ => none) .default rfl twoRows (by simp [twoRows])
    ([1, 0, 0, 0, 0, 0, 0, 0] ++ [97, 0, 0, 0, 0, 0, 0, 0] ++ rowBytes 11 1 ++ rowBytes 5 0 ++
      rowDoneMarker) (by decide) [1] [first] (.cons (by decide) .nil) last _ (.rows (by decide))
    (by decide) (by decide) (by decide) (by decide) (emptyRowsFrame .done)
    (.response (.rows ⟨[[⟨97, by decide⟩]], [], [], [], false⟩)) (by decide)
    (fun r same more => by cases same; cases more)
    [.feed first, .decode, .feed (last ++ emptyRowsFrame .done)] (by simp [streamCall]) (by decide)
    (by decide)).2.2.2.2.2.2
  obtain ⟨op, answer, called, answered, returns⟩ := run last (by decide)
  have position : (consumptions (history step (new .default) [.feed first, .decode,
      .feed (last ++ emptyRowsFrame .done)])).length = 1 := by decide
  rw [position] at called answered returns
  rw [if_pos (by decide +kernel)] at returns
  obtain rfl : DecoderOp.decodeContinuation = op := by simpa [callsFor] using called
  obtain rfl : returned (.response (.rows (twoRows.lastPart 0 [1]).normalised)) = answer := by
    simpa [answersFor, RowsResponse.firstParts] using answered
  exact returns

end DqliteWire
