import DqliteWire.Streaming

/-! A server's stream as a sequence of responses, each one frame or several. Which frames `decode`
can return: the first of a response, or a later one after `decode_continuation` has refused a frame
of the response and left the decoder healthy. -/

namespace DqliteWire

open WireLib WireLib.Utf8 MessageDecoder

def RowsFrame (marker : RowMarker) (f : Bytes) : Prop :=
  (frameHeader f).msgType = ResponseType.rows.code ∧ EndsWith (frameBody f) marker

instance (marker : RowMarker) (f : Bytes) : Decidable (RowsFrame marker f) :=
  inferInstanceAs (Decidable (_ ∧ _))

def EndsStream (config : Config) (f : Bytes) : Prop :=
  RowsFrame .done f ∨ (frameHeader f).msgType = ResponseType.empty.code ∨
    ∃ failure, decodeMessage config f = .ok (.response (.failure failure))

def StreamTail (config : Config) (rest : List Bytes) : Prop :=
  ∃ parts last, rest = parts ++ [last] ∧ (∀ f ∈ parts, RowsFrame .part f) ∧ EndsStream config last

inductive ServerResponse (config : Config) : List Bytes → Prop
  | single (f : Bytes) (whole : ¬ RowsFrame .part f) : ServerResponse config [f]
  | stream (first : Bytes) (rest : List Bytes) (continued : RowsFrame .part first)
      (tail : StreamTail config rest) : ServerResponse config (first :: rest)

theorem decodeMessage_type {config : Config} {f : Bytes} {m : Response}
    (decoded : decodeMessage config f = .ok (.response m)) :
    (frameHeader f).msgType = m.type.code := by
  rw [decodeMessage_eq] at decoded
  rw [decodeFrame_eq (decodeFrame_ok decoded)] at decoded
  exact (decodeBody_ok_response decoded).2.1

theorem EndsStream.not_part {config : Config} {f : Bytes} (ends : EndsStream config f) :
    ¬ RowsFrame .part f := by
  rintro ⟨type, part⟩
  rcases ends with ⟨_, done⟩ | empty | ⟨failure, decoded⟩
  · cases done.unique part
  · rw [type] at empty
    revert empty
    decide
  · have failed := decodeMessage_type decoded
    rw [type] at failed
    have same : ResponseType.rows.code = ResponseType.failure.code := failed
    revert same
    decide

theorem StreamTail.cases {config : Config} {f : Bytes} {rest : List Bytes}
    (tail : StreamTail config (f :: rest)) :
    (rest = [] ∧ ¬ RowsFrame .part f) ∨ (RowsFrame .part f ∧ StreamTail config rest) := by
  obtain ⟨parts, last, same, continued, ends⟩ := tail
  cases parts with
  | nil =>
      cases same
      exact Or.inl ⟨rfl, ends.not_part⟩
  | cons g parts =>
      cases same
      exact Or.inr ⟨continued f (by simp), parts, last, rfl,
        fun h member => continued h (by simp [member]), ends⟩

theorem StreamTail.ne_nil {config : Config} {rest : List Bytes} (tail : StreamTail config rest) :
    rest ≠ [] := by
  obtain ⟨parts, last, rfl, _⟩ := tail
  simp

namespace MessageDecoder

variable {config : Config} {streams : List (List RowsResponse)} {d : MessageDecoder} {f : Bytes}

theorem decodeFrame_part {version : Option Nat} {m : Message} (response : config.isRequest = false)
    (decoded : decodeFrame config version f = .ok m) (part : RowsFrame .part f) :
    ∃ result, m = .response (.rows result) ∧ result.hasMore = true := by
  have whole := decoded
  rw [decodeFrame_eq (decodeFrame_ok decoded), decodeBody_response response version part.1] at whole
  obtain ⟨_, _, typed⟩ := bind_eq_ok.mp whole
  obtain ⟨r, body, same⟩ := map_eq_ok.mp typed
  obtain ⟨result, _, rows⟩ := map_eq_ok.mp body
  subst rows
  subst same
  refine ⟨result, rfl, ?_⟩
  by_contra last
  have ends := (decodeFrame_rows_facts decoded).2.2
  rw [if_neg last] at ends
  cases ends.unique part.2

/-- Without a stream in progress a frame poisons, or is returned; it is a PART frame exactly when
it opens a stream. -/
theorem accept_start (books : Bookkeeping config streams d) (response : config.isRequest = false)
    (healthy : d.buffer.poisoned = none) (idle : d.continuation.expected = false) :
    ((d.accept f).2.buffer.poisoned ≠ none ∧ ∃ e, (d.accept f).1 = .error e) ∨
      ∃ m, (d.accept f).1 = .ok (some m) ∧ decodeMessage config f = .ok m ∧
        ((d.accept f).2.continuation.expected = true ↔ RowsFrame .part f) := by
  obtain ⟨version, done⟩ := books.sound.client response
  have same : decodeFrame d.config d.version f = decodeMessage config f := by
    rw [decodeMessage_eq, books.sound.config_eq, version]
  simp only [accept, idle, Bool.false_eq_true, if_false]
  rcases startMessage_cases d healthy done f with
    ⟨e, stepped, _⟩ | ⟨m, stepped, decoded, last⟩ | ⟨result, stepped, decoded, more, _⟩
  · rw [stepped]
    exact Or.inl ⟨by simp [ReadBuffer.poison_of_healthy healthy], e, rfl⟩
  · rw [stepped]
    refine Or.inr ⟨m, rfl, by rw [← same]; exact decoded, ?_⟩
    simp only [idle, Bool.false_eq_true, false_iff]
    intro part
    rw [books.sound.config_eq] at decoded
    obtain ⟨result, rfl, more⟩ := decodeFrame_part response decoded part
    rw [last result rfl] at more
    cases more
  · rw [stepped]
    refine Or.inr ⟨_, rfl, by rw [← same]; exact decoded, ?_⟩
    simp only [true_iff]
    rw [books.sound.config_eq] at decoded
    have ends := (decodeFrame_rows_facts decoded).2.2
    rw [if_pos more] at ends
    exact ⟨(decodeFrame_rows decoded).2.1, ends⟩

/-- With a stream in progress a frame poisons, is refused with a `DecodeError`, or is taken; then
the stream goes on exactly after a PART frame. -/
theorem accept_continuation
    (legal : wire.IsFrame config.maxMessageSize f) (healthy : d.buffer.poisoned = none)
    (expected : d.continuation.expected = true) :
    (d.accept f).2.buffer.poisoned ≠ none ∨
      (∃ text, (d.accept f).1 = .error (.decodeError text) ∧
        (d.accept f).2.continuation.expected = false) ∨
      ((d.accept f).2.continuation.expected = true ↔ RowsFrame .part f) := by
  have header : Header.decode (f.take headerSize) = .ok (frameHeader f) :=
    Header.decode_eq legal.header_le
  have other (holds : HoldsOther f) : ¬ RowsFrame .part f := by
    obtain ⟨_, found, type⟩ := holds
    rw [header] at found
    cases found
    exact fun part => type part.1
  have marked {result : RowsResponse} (holds : HoldsRows d.config f result) :
      RowsFrame (if result.hasMore then .part else .done) f := by
    obtain ⟨_, found, type, body⟩ := holds
    rw [header] at found
    cases found
    have width := bodySize_eq legal
    rw [List.take_of_length_le (by rw [List.length_drop]; omega)] at body
    exact ⟨type, (RowsResponse.decodeBody_facts body d.config.rows_positive).2⟩
  simp only [accept, expected, if_true]
  rcases continueStream_cases d f with
    ⟨e, d', stepped, body, same⟩ | ⟨_, holds, stepped⟩ | ⟨_, _, holds, stepped⟩ |
    ⟨_, holds, stepped⟩ | ⟨result, holds, _, ⟨more, stepped⟩ | ⟨last, stepped⟩⟩
  · simp only [stepped]
    rcases raised_cases body same with ⟨text, rfl, after⟩ | after
    · exact Or.inr (Or.inl ⟨text, rfl, by rw [after, finalize_continuation]; rfl⟩)
    · left
      rw [after, poison_buffer, finalize_buffer, ReadBuffer.poison_of_healthy healthy]
      simp
  · simp only [stepped, continuationRaised, wrongFrameType, finalize_continuation]
    exact Or.inr (Or.inr (by simp [Continuation.idle, other holds]))
  · simp only [stepped, continuationRaised, finalize_continuation]
    exact Or.inr (Or.inr (by simp [Continuation.idle, other holds]))
  · simp only [stepped, finalize_continuation]
    exact Or.inr (Or.inr (by simp [Continuation.idle, other holds]))
  · have part := marked holds
    rw [if_pos more] at part
    simp only [stepped]
    exact Or.inr (Or.inr (by simp [counted, expected, part]))
  · have done := marked holds
    rw [if_neg (by simp [last])] at done
    have whole : ¬ RowsFrame .part f := fun part => by cases done.2.unique part.2
    simp only [stepped, finalize_continuation]
    exact Or.inr (Or.inr (by simp [Continuation.idle, whole]))

end MessageDecoder

/-- `decode_continuation` refused a frame of the response that starts after `start` frames. -/
def Rejected (log : List Consumption) (start : Nat) : Prop :=
  ∃ k c, start ≤ k ∧ log[k]? = some c ∧ c.op = .decodeContinuation ∧
    ∃ text, c.reply = .error (.decodeError text)

theorem Rejected.append {log : List Consumption} {start : Nat} (rejected : Rejected log start)
    (c : Consumption) : Rejected (log ++ [c]) start := by
  obtain ⟨k, c', after, found, refused⟩ := rejected
  refine ⟨k, c', after, ?_, refused⟩
  rw [List.getElem?_append_left (List.getElem?_eq_some_iff.mp found).1]
  exact found

/-- Where the decoder stands in the responses: before one, or inside one whose stream it follows
unless a frame of it was refused. -/
inductive Place (config : Config) (responses : List (List Bytes)) (log : List Consumption)
    (d : MessageDecoder) : Prop
  | before (earlier later : List (List Bytes)) (split : responses = earlier ++ later)
      (consumed : log.map Consumption.frame = earlier.flatten)
      (idle : d.continuation.expected = false)
  | inside (earlier : List (List Bytes)) (done rest : List Bytes) (later : List (List Bytes))
      (split : responses = earlier ++ (done ++ rest) :: later)
      (consumed : log.map Consumption.frame = earlier.flatten ++ done) (some_ : done ≠ [])
      (tail : StreamTail config rest)
      (following : d.continuation.expected = true ∨ Rejected log earlier.flatten.length)

section Place

variable {config : Config} {responses : List (List Bytes)} {log : List Consumption}
  {d d' : MessageDecoder} {f : Bytes} {others : List Bytes}

theorem Place.finish (earlier : List (List Bytes)) (done : List Bytes) (later : List (List Bytes))
    (split : responses = earlier ++ (done ++ [f]) :: later)
    (consumed : log.map Consumption.frame = earlier.flatten ++ done) {op : DecoderOp}
    {reply : DecoderReply} (idle : d'.continuation.expected = false) :
    Place config responses (log ++ [⟨f, op, reply⟩]) d' := by
  refine .before (earlier ++ [done ++ [f]]) later (by simp [split]) ?_ idle
  simp [consumed]

theorem Place.advance (earlier : List (List Bytes)) (done rest : List Bytes)
    (later : List (List Bytes)) (split : responses = earlier ++ (done ++ f :: rest) :: later)
    (consumed : log.map Consumption.frame = earlier.flatten ++ done)
    (tail : StreamTail config rest) {op : DecoderOp} {reply : DecoderReply}
    (following : d'.continuation.expected = true ∨
      Rejected (log ++ [⟨f, op, reply⟩]) earlier.flatten.length) :
    Place config responses (log ++ [⟨f, op, reply⟩]) d' := by
  refine .inside earlier (done ++ [f]) rest later (by simp [split]) ?_ (by simp) tail following
  simp [consumed]

theorem Place.accept {streams : List (List RowsResponse)} (place : Place config responses log d)
    (shaped : ∀ r ∈ responses, ServerResponse config r) (response : config.isRequest = false)
    (books : Bookkeeping config streams d) (healthy : d.buffer.poisoned = none)
    (legal : wire.IsFrame config.maxMessageSize f)
    (upcoming : responses.flatten = log.map Consumption.frame ++ f :: others)
    (alive : (d.accept f).2.buffer.poisoned = none) :
    Place config responses (log ++ [⟨f, d.due, (d.accept f).1.map .message⟩]) (d.accept f).2 := by
  have start (idle : d.continuation.expected = false) : ∃ m, (d.accept f).1 = .ok (some m) ∧
      decodeMessage config f = .ok m ∧
        ((d.accept f).2.continuation.expected = true ↔ RowsFrame .part f) :=
    (accept_start books response healthy idle).resolve_left fun bad => bad.1 alive
  cases place with
  | before earlier later split consumed idle =>
      obtain ⟨_, _, _, opens⟩ := start idle
      rw [split, List.flatten_append, consumed, List.append_cancel_left_eq] at upcoming
      cases later with
      | nil => cases upcoming
      | cons r later =>
          have shape := shaped r (by simp [split])
          cases shape with
          | single g whole =>
              cases upcoming
              refine .finish earlier [] later split (by simp [consumed]) ?_
              rw [← Bool.not_eq_true, opens]
              exact whole
          | stream g rest part tail =>
              cases upcoming
              exact .advance earlier [] rest later split (by simp [consumed]) tail
                (Or.inl (opens.mpr part))
  | inside earlier done rest later split consumed _ tail following =>
      rw [split, List.flatten_append, List.flatten_cons, consumed, List.append_assoc, List.append_assoc,
        List.append_cancel_left_eq, List.append_cancel_left_eq] at upcoming
      obtain ⟨rest, rfl⟩ : ∃ rest', rest = f :: rest' := by
        cases rest with
        | nil => exact absurd rfl tail.ne_nil
        | cons g rest =>
            cases upcoming
            exact ⟨rest, rfl⟩
      have position : earlier.flatten.length ≤ log.length := by
        rw [← List.length_map Consumption.frame, consumed, List.length_append]
        omega
      cases expected : d.continuation.expected with
      | true =>
          have due : d.due = .decodeContinuation := by simp [due, expected]
          rcases (accept_continuation legal healthy expected).resolve_left (not_not.mpr alive) with
            ⟨text, refused, idle⟩ | goes
          · rcases tail.cases with ⟨rfl, _⟩ | ⟨_, tail⟩
            · exact .finish earlier done later split consumed idle
            · refine .advance earlier done rest later split consumed tail (Or.inr ?_)
              exact ⟨log.length, _, position, List.getElem?_concat_length, due, text, by rw [refused]; rfl⟩
          · rcases tail.cases with ⟨rfl, whole⟩ | ⟨part, tail⟩
            · refine .finish earlier done later split consumed ?_
              rw [← Bool.not_eq_true, goes]
              exact whole
            · exact .advance earlier done rest later split consumed tail (Or.inl (goes.mpr part))
      | false =>
          obtain ⟨_, _, _, opens⟩ := start expected
          have rejected := following.resolve_left (by simp [expected])
          rcases tail.cases with ⟨rfl, whole⟩ | ⟨_, tail⟩
          · refine .finish earlier done later split consumed ?_
            rw [← Bool.not_eq_true, opens]
            exact whole
          · exact .advance earlier done rest later split consumed tail (Or.inr (rejected.append _))

end Place

theorem place_rule {config : Config} {responses : List (List Bytes)}
    (shaped : ∀ r ∈ responses, ServerResponse config r) (response : config.isRequest = false)
    (legal : ∀ f ∈ responses.flatten, wire.IsFrame config.maxMessageSize f) :
    FrameRule config config.version responses.flatten (Place config responses) (fun _ => True) where
  initially := .before [] responses rfl rfl rfl
  buffer_free := by
    intro log d b place
    cases place with
    | before earlier later split consumed idle => exact .before earlier later split consumed idle
    | inside earlier done rest later split consumed some_ tail following =>
        exact .inside earlier done rest later split consumed some_ tail following
  greeted := fun _ request _ => by simp [request] at response
  accepts := by
    intro log d f others streams split books healthy _ place
    refine ⟨fun alive => ?_, fun _ => trivial⟩
    exact place.accept shaped response books healthy (legal f (by simp [split])) split alive

/-- Whatever order the calls come in: a message that `decode` returns is decoded from the first
frame of a response, unless `decode_continuation` has refused an earlier frame of the response with
a `DecodeError`. -/
theorem decode_returns_first_unless_rejected (config : Config) (response : config.isRequest = false)
    (responses : List (List Bytes)) (shaped : ∀ r ∈ responses, ServerResponse config r)
    (legal : ∀ f ∈ responses.flatten, wire.IsFrame config.maxMessageSize f) (ops : List DecoderOp)
    (calls : ∀ op ∈ ops, streamCall op = true)
    (chunks : acceptedChunks (replies (history step (new config) ops)) <+:
      responses.flatten.flatten) :
    let log := consumptions (history step (new config) ops)
    let d := final step (new config) ops
    ∀ m, (d.step .decode).1 = .ok (.message (some m)) →
      log.map Consumption.frame <+: responses.flatten ∧
        ∃ earlier r later f, responses = earlier ++ r :: later ∧
          responses.flatten[log.length]? = some f ∧ decodeMessage config f = .ok m ∧
          ((log.length = earlier.flatten.length ∧ r.head? = some f) ∨
            (log.length < earlier.flatten.length + r.length ∧
              Rejected log earlier.flatten.length)) := by
  intro log d m returned
  have chunks' : acceptedChunks (replies (history step (new config) ops)) <+:
      greeting config config.version ++ responses.flatten.flatten := by
    simpa [greeting, response] using chunks
  have state := session_run (place_rule shaped response legal) legal config.version_supported ops
    calls chunks'
  have alive (poisoned : d.buffer.poisoned ≠ none) : False := by
    rcases (poisoned_step poisoned (show DecoderOp.decode ≠ .reset by simp)).2 with
      ⟨same, _⟩ | ⟨e, refused, _⟩
    · cases same
    · rw [refused] at returned
      cases returned
  cases state with
  | failed poisoned => exact (alive poisoned).elim
  | refused poisoned => exact (alive poisoned).elim
  | standing standing place =>
      have done := (standing.sound.client response).2
      have due : DecoderOp.decode = d.due := by
        by_contra other
        obtain ⟨e, refused⟩ := not_due_refused (Or.inl rfl) other
        rw [refused] at returned
        cases returned
      have idle : d.continuation.expected = false := by
        by_contra expected
        simp [MessageDecoder.due, expected] at due
      rw [due] at returned
      refine ⟨standing.taken, ?_⟩
      rcases standing.next legal chunks' done with
        ⟨b, stepped, _⟩ | ⟨f, others, b, split, found, _, sane, ⟨_, books⟩, stepped⟩
      · rw [stepped] at returned
        cases returned
      · rw [stepped] at returned
        rcases accept_start books response sane idle with ⟨_, e, refused⟩ | ⟨m', replied, decoded, _⟩
        · rw [refused] at returned
          cases returned
        · rw [replied] at returned
          cases returned
          cases place with
          | before earlier later whole consumed _ =>
              rw [whole, List.flatten_append, consumed, List.append_cancel_left_eq] at split
              cases later with
              | nil => cases split
              | cons r later =>
                  refine ⟨earlier, r, later, f, whole, found, decoded, Or.inl ⟨?_, ?_⟩⟩
                  · rw [← consumed, List.length_map]
                  · have shape := shaped r (by simp [whole])
                    cases shape <;>
                    · cases split
                      rfl
          | inside earlier first rest later whole consumed _ tail following =>
              refine ⟨earlier, first ++ rest, later, f, whole, found, decoded, Or.inr ⟨?_, ?_⟩⟩
              · have some_ := List.length_pos_iff.mpr tail.ne_nil
                rw [← List.length_map Consumption.frame, consumed, List.length_append,
                  List.length_append]
                omega
              · exact following.resolve_left fun expected => by
                  rw [idle] at expected
                  cases expected

/-- A ROWS frame without rows, of the one column `a`. -/
def emptyRowsFrame (marker : RowMarker) : Bytes :=
  [3, 0, 0, 0, 7, 0, 0, 0] ++ [1, 0, 0, 0, 0, 0, 0, 0] ++ [97, 0, 0, 0, 0, 0, 0, 0] ++ marker.bytes

/-- One response of three frames under a cap of one frame: the second is refused for the cap, and
`decode` then returns the third. -/
theorem decode_returns_leftover_frame :
    ¬ ∀ (config : Config) (responses : List (List Bytes)), config.isRequest = false →
      (∀ r ∈ responses, ServerResponse config r) →
      (∀ f ∈ responses.flatten, wire.IsFrame config.maxMessageSize f) →
      ∀ ops : List DecoderOp, (∀ op ∈ ops, streamCall op = true) →
        acceptedChunks (replies (history step (new config) ops)) <+: responses.flatten.flatten →
        ∀ m, ((final step (new config) ops).step .decode).1 = .ok (.message (some m)) →
          ∃ earlier r later, responses = earlier ++ r :: later ∧
            (consumptions (history step (new config) ops)).length = earlier.flatten.length := by
  intro first
  let part := emptyRowsFrame .part
  let done := emptyRowsFrame .done
  have shaped : ∀ r ∈ [[part, part, done]], ServerResponse (.withCaps 1 10 le_rfl (by decide)) r := by
    intro r member
    rw [List.mem_singleton.mp member]
    refine .stream part [part, done] (by decide) ⟨[part], done, rfl, ?_, Or.inl (by decide)⟩
    simp only [List.mem_singleton, forall_eq]
    decide
  have legal : ∀ f ∈ [[part, part, done]].flatten,
      wire.IsFrame (Config.withCaps 1 10 le_rfl (by decide)).maxMessageSize f := by
    simp only [List.flatten_cons, List.flatten_nil, List.append_nil, List.mem_cons,
      List.not_mem_nil, or_false, forall_eq_or_imp, forall_eq]
    exact ⟨⟨by decide, by decide⟩, ⟨by decide, by decide⟩, ⟨by decide, by decide⟩⟩
  obtain ⟨earlier, r, later, split, position⟩ := first (.withCaps 1 10 le_rfl (by decide))
    [[part, part, done]] rfl shaped legal
    [.feed (part ++ part ++ done), .decode, .decodeContinuation] (by simp [streamCall]) (by decide)
    (.response (.rows ⟨[[⟨97, by decide⟩]], [], [], [], false⟩)) (by decide)
  have start : earlier = [] := by
    cases earlier with
    | nil => rfl
    | cons r' earlier =>
        have length := congrArg List.length split
        simp at length
  rw [start] at position
  revert position
  decide

theorem decode_returns_first_unless_rejected_two_responses :
    let part := emptyRowsFrame .part
    let done := emptyRowsFrame .done
    let ops : List DecoderOp := [.feed (part ++ done ++ done), .decode, .decodeContinuation]
    let log := consumptions (history step (new .default) ops)
    log.map Consumption.frame <+: [[part, done], [done]].flatten := by
  intro part done ops log
  have shaped : ∀ r ∈ [[part, done], [done]], ServerResponse .default r := by
    simp only [List.mem_cons, List.not_mem_nil, or_false, forall_eq_or_imp, forall_eq]
    exact ⟨.stream part [done] (by decide) ⟨[], done, rfl, by simp, Or.inl (by decide)⟩,
      .single done (by decide)⟩
  have legal : ∀ f ∈ [[part, done], [done]].flatten,
      wire.IsFrame (Config.default false).maxMessageSize f := by
    simp only [List.flatten_cons, List.flatten_nil, List.append_nil, List.cons_append,
      List.nil_append, List.mem_cons, List.not_mem_nil, or_false, forall_eq_or_imp, forall_eq]
    exact ⟨⟨by decide, by decide⟩, ⟨by decide, by decide⟩, ⟨by decide, by decide⟩⟩
  exact (decode_returns_first_unless_rejected .default rfl [[part, done], [done]] shaped legal ops
    (by simp [ops, streamCall]) (by decide) (.response (.rows ⟨[[⟨97, by decide⟩]], [], [], [], false⟩))
    (by decide)).1

end DqliteWire
