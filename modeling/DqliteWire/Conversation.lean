import DqliteWire.Link

/-! What a server says to a client, response by response: a single message, or a result set in ROWS
frames. A client hears each to its end and is ready for the next, whatever the delivery. -/

namespace DqliteWire

open WireLib WireLib.Utf8 MessageDecoder

/-- What ends a result set: its last rows, an EMPTY frame where the query was interrupted, or a failure. -/
inductive Terminator
  | rows (last : RowsResponse)
  | empty (m : EmptyResponse)
  | failure (m : FailureResponse)

inductive Turn
  | single (m : Response)
  /-- ROWS frames with more to come, and the end -/
  | resultSet (first : RowsResponse) (rest : List RowsResponse) (ending : Terminator)

namespace Terminator

def message : Terminator → Response
  | .rows last => .rows last
  | .empty m => .empty m
  | .failure m => .failure m

def frames : Terminator → List RowsResponse
  | .rows last => [last]
  | .empty _ | .failure _ => []

def answer : Terminator → Except Exn Message
  | .failure m => .error (.serverFailure m.code m.message)
  | ending => .ok (.response ending.message)

def read : Terminator → Terminator
  | .rows last => .rows last.normalised
  | .empty m => .empty m
  | .failure m => .failure ⟨m.code, sanitizeServerText m.message⟩

end Terminator

namespace Turn

def messages : Turn → List Response
  | .single m => [m]
  | .resultSet first rest ending => (first :: rest).map .rows ++ [ending.message]

def answers : Turn → List (Except Exn Message)
  | .single m => [.ok (.response m)]
  | .resultSet first rest ending =>
    (first :: rest).map (fun r => .ok (.response (.rows r))) ++ [ending.answer]

def read : Turn → Turn
  | .single m => .single m.read
  | .resultSet first rest ending =>
    .resultSet first.normalised (rest.map RowsResponse.normalised) ending.read

/-- A result set is announced frame by frame, has one list of names, and stays within the caps. -/
def Legal (config : Config) : Turn → Prop
  | .single m => ∀ r, m = .rows r → r.hasMore = false
  | .resultSet first rest ending =>
    (∀ r ∈ first :: rest, r.hasMore = true) ∧ (∀ r ∈ ending.frames, r.hasMore = false) ∧
      (∀ r ∈ rest ++ ending.frames, r.columnNames = first.columnNames) ∧
      WithinCaps config (first :: rest ++ ending.frames)

end Turn

section Hearing

variable {config : Config}

theorem ResultStream.next_ok {s : ResultStream config} {r : RowsResponse}
    (named : r.columnNames = s.names) (frames : ∀ cap ∈ config.maxContinuationFrames, s.frames + 1 ≤ cap)
    (rows : ∀ cap ∈ config.maxTotalRows, s.rows + r.rows.length ≤ cap) :
    ∃ s', s.next r = .ok s' ∧ s'.names = s.names ∧ s'.frames = s.frames + 1 ∧
      s'.rows = s.rows + r.rows.length := by
  have few : ¬ ∃ cap ∈ config.maxContinuationFrames, cap < s.frames + 1 := by
    intro large
    obtain ⟨cap, member, exceeded⟩ := large
    exact absurd (frames cap member) (by omega)
  have small : ¬ ∃ cap ∈ config.maxTotalRows, cap < s.rows + r.rows.length := by
    intro large
    obtain ⟨cap, member, exceeded⟩ := large
    exact absurd (rows cap member) (by omega)
  rw [ResultStream.next, dif_neg few, dif_neg small, named, if_neg (not_not.mpr rfl),
    if_neg (not_not.mpr rfl)]
  exact ⟨_, rfl, rfl, rfl, rfl⟩

theorem parts_heard {s : ResultStream config} (parts : List RowsResponse)
    (more : ∀ r ∈ parts, r.hasMore = true) (named : ∀ r ∈ parts, r.columnNames = s.names)
    (frames : ∀ cap ∈ config.maxContinuationFrames, s.frames + parts.length ≤ cap)
    (rows : ∀ cap ∈ config.maxTotalRows, s.rows + rowCount parts ≤ cap) :
    ∃ s' : ResultStream config, s'.names = s.names ∧ s'.frames = s.frames + parts.length ∧
      s'.rows = s.rows + rowCount parts ∧
      dialogue (some (.streaming s)) (parts.map fun r => .response (.rows r)) =
        parts.map (fun r => .ok (.response (.rows r))) ∧
      attend (some (.streaming s)) (parts.map fun r => .response (.rows r)) = some (.streaming s') := by
  induction parts generalizing s with
  | nil => exact ⟨s, rfl, rfl, rfl, rfl, rfl⟩
  | cons r parts ih =>
      have count : rowCount (r :: parts) = r.rows.length + rowCount parts := by simp [rowCount]
      have length : (r :: parts).length = parts.length + 1 := rfl
      rw [count] at rows ⊢
      rw [length] at frames ⊢
      obtain ⟨s₁, next, names, one, sum⟩ := s.next_ok (named r List.mem_cons_self)
        (fun cap member => by have := frames cap member; omega)
        (fun cap member => by have := rows cap member; omega)
      obtain ⟨s₂, names', all, total, told, phase⟩ := @ih s₁
        (fun r' member => more r' (List.mem_cons_of_mem _ member))
        (fun r' member => (named r' (List.mem_cons_of_mem _ member)).trans names.symm)
        (fun cap member => by have := frames cap member; omega)
        (fun cap member => by have := rows cap member; omega)
      have heard : (Phase.streaming s).hears (.response (.rows r)) =
          (.ok (.response (.rows r)), some (.streaming s₁)) := by
        have rowsFrame : (Message.response (.rows r)).typeCode ∈
            [ResponseType.failure.code, ResponseType.empty.code, ResponseType.rows.code] := by simp [Message.typeCode, Response.type]
        rw [Phase.hears, if_pos rowsFrame]
        simp [Phase.followed, next, more r List.mem_cons_self]
      refine ⟨s₂, names'.trans names, by omega, by omega, ?_, ?_⟩
      · rw [List.map_cons, dialogue, heard, told, List.map_cons]
      · rw [List.map_cons, attend, heard, phase]

theorem ending_heard {s : ResultStream config} {ending : Terminator}
    (last : ∀ r ∈ ending.frames, r.hasMore = false) (named : ∀ r ∈ ending.frames, r.columnNames = s.names)
    (frames : ∀ cap ∈ config.maxContinuationFrames, s.frames + ending.frames.length ≤ cap)
    (rows : ∀ cap ∈ config.maxTotalRows, s.rows + rowCount ending.frames ≤ cap) :
    (Phase.streaming s).hears (.response ending.message) = (ending.answer, some .idle) := by
  have known : (Message.response ending.message).typeCode ∈
      [ResponseType.failure.code, ResponseType.empty.code, ResponseType.rows.code] := by
    cases ending <;> simp [Terminator.message, Message.typeCode, Response.type]
  rw [Phase.hears, if_pos known]
  cases ending with
  | empty m => rfl
  | failure m => rfl
  | rows r =>
      obtain ⟨s', next, _⟩ := s.next_ok (named r List.mem_cons_self) frames
        (by simpa [Terminator.frames, rowCount] using rows)
      simp [Terminator.message, Phase.followed, next, last r List.mem_cons_self, Terminator.answer]

theorem Turn.heard {t : Turn} (client : config.isRequest = false) (legal : t.Legal config) :
    dialogue (some (.idle : Phase config)) (t.messages.map .response) = t.answers ∧
      attend (some (.idle : Phase config)) (t.messages.map .response) = some .idle := by
  cases t with
  | single m =>
      have heard : (Phase.idle : Phase config).hears (.response m) = (.ok (.response m), some .idle) := by
        cases m with
        | rows r => simp [Phase.hears, Phase.opened, legal r rfl]
        | failure | leader | welcome | servers | db | stmt | result | empty | files | metadata => rfl
      simp [Turn.messages, Turn.answers, dialogue, attend, heard]
  | resultSet first rest ending =>
      obtain ⟨more, last, named, within⟩ := legal
      have room : ∀ cap ∈ config.maxContinuationFrames,
          1 + rest.length + ending.frames.length ≤ cap := by
        intro cap member
        have capped := within.frames cap member
        simp only [List.cons_append, List.length_cons, List.length_append] at capped
        omega
      have total : ∀ cap ∈ config.maxTotalRows,
          first.rows.length + rowCount rest + rowCount ending.frames ≤ cap := by
        intro cap member
        have capped := within.rows cap member
        simp only [rowCount, List.cons_append, List.map_cons, List.sum_cons, List.map_append,
          List.sum_append] at capped ⊢
        omega
      have small : ¬ ∃ cap ∈ config.maxTotalRows, cap < first.rows.length := by
        intro large
        obtain ⟨cap, member, exceeded⟩ := large
        exact absurd (total cap member) (by omega)
      obtain ⟨s, started, names, one, sum⟩ : ∃ s : ResultStream config,
          ResultStream.start client first = .ok s ∧ s.names = first.columnNames ∧ s.frames = 1 ∧
            s.rows = first.rows.length := by
        rw [ResultStream.start, dif_neg small]
        exact ⟨_, rfl, rfl, rfl, rfl⟩
      have opened : (Phase.idle : Phase config).hears (.response (.rows first)) =
          (.ok (.response (.rows first)), some (.streaming s)) := by
        simp [Phase.hears, Phase.opened, client, more first List.mem_cons_self, started]
      obtain ⟨s', names', all, rows', told, phase⟩ := parts_heard (s := s) rest
        (fun r member => more r (List.mem_cons_of_mem _ member))
        (fun r member => (named r (List.mem_append_left _ member)).trans names.symm)
        (fun cap member => by have := room cap member; omega)
        (fun cap member => by have := total cap member; omega)
      have ended := ending_heard (s := s') last
        (fun r member => (named r (List.mem_append_right _ member)).trans (names'.trans names).symm)
        (fun cap member => by have := room cap member; omega)
        (fun cap member => by have := total cap member; omega)
      simp only [Turn.messages, Turn.answers, List.map_cons, List.cons_append, List.map_append,
        List.map_nil, List.map_map, Function.comp_def, dialogue, attend, opened, dialogue_append,
        attend_append, told, phase, ended, and_self]

end Hearing

section Read

theorem Turn.read_messages (t : Turn) : t.read.messages = t.messages.map Response.read := by
  cases t with
  | single m => rfl
  | resultSet first rest ending =>
      have last : ending.read.message = ending.message.read := by cases ending <;> rfl
      simp [Turn.read, Turn.messages, last, Response.read]

theorem Terminator.read_frames (ending : Terminator) :
    ending.read.frames = ending.frames.map RowsResponse.normalised := by
  cases ending <;> rfl

theorem Turn.Legal.read {config : Config} {t : Turn} (legal : t.Legal config) : t.read.Legal config := by
  cases t with
  | single m =>
      intro r same
      cases m with
      | rows r' =>
          cases same
          exact legal r' rfl
      | failure | leader | welcome | servers | db | stmt | result | empty | files | metadata => cases same
  | resultSet first rest ending =>
      obtain ⟨more, last, named, within⟩ := legal
      have names (parts : List RowsResponse) (P : RowsResponse → Prop) (kept : ∀ r, P r → P r.normalised)
          (held : ∀ r ∈ parts, P r) : ∀ r ∈ parts.map RowsResponse.normalised, P r := by
        intro r member
        obtain ⟨r', member', rfl⟩ := List.mem_map.mp member
        exact kept r' (held r' member')
      have count (parts : List RowsResponse) : rowCount (parts.map RowsResponse.normalised) = rowCount parts := by
        simp [rowCount, RowsResponse.normalised_rows_length, Function.comp_def]
      have frames : first.normalised :: rest.map RowsResponse.normalised ++ ending.read.frames =
          (first :: rest ++ ending.frames).map RowsResponse.normalised := by
        rw [ending.read_frames, List.map_append, List.map_cons]
      refine ⟨?_, ?_, ?_, ?_⟩
      · exact names (first :: rest) (fun r => r.hasMore = true) (fun _ more => more) more
      · rw [ending.read_frames]
        exact names _ (fun r => r.hasMore = false) (fun _ last => last) last
      · rw [ending.read_frames, ← List.map_append]
        exact names _ (fun r => r.columnNames = first.columnNames) (fun _ same => same) named
      · rw [frames]
        refine ⟨fun cap member => ?_, fun cap member => ?_⟩
        · rw [List.length_map]
          exact within.frames cap member
        · rw [count]
          exact within.rows cap member

theorem read_responses {sent : List Response} {received : List Message}
    (read : List.Forall₂ ReadAs (sent.map .response) received) :
    received = sent.map fun m => .response m.read := by
  induction sent generalizing received with
  | nil =>
      cases read
      rfl
  | cons m sent ih =>
      rw [List.map_cons] at read
      cases read with
      | cons one rest =>
          cases one with
          | response => rw [ih rest, List.map_cons]

end Read

theorem conversation_answers {config : Config} (client : config.isRequest = false) (turns : List Turn)
    (legal : ∀ t ∈ turns, t.Legal config) :
    dialogue (some (.idle : Phase config)) ((turns.flatMap Turn.messages).map .response) =
        turns.flatMap Turn.answers ∧
      attend (some (.idle : Phase config)) ((turns.flatMap Turn.messages).map .response) = some .idle := by
  induction turns with
  | nil => exact ⟨rfl, rfl⟩
  | cons t turns ih =>
      obtain ⟨told, phase⟩ := Turn.heard client (legal t List.mem_cons_self)
      obtain ⟨later, last⟩ := ih fun t' member => legal t' (List.mem_cons_of_mem _ member)
      simp only [List.flatMap_cons, List.map_append, dialogue_append, attend_append, told, phase, later, last,
        and_self]

/-- A conforming server is never misread and never loses the connection. While it sends a conversation
of messages and result sets, whatever the delivery and the calls, the client is told the answers of the
responses in order, raises nothing but the failures the server sent, and is not poisoned unless a chunk
was refused; at the end it has been told everything and is ready for the next response. -/
theorem conversation_heard (isoError : Str → Option String) (config : Config)
    (client : config.isRequest = false) (cap : Nat) (within : cap ≤ config.maxMessageSize)
    (turns : List Turn) (legal : ∀ t ∈ turns, t.Legal config) (ops : List LinkOp)
    (allowed : ∀ op ∈ ops, op.Allowed config config.version) :
    let past := history (Link.step isoError cap) (.start config config.version) ops
    let link := final (Link.step isoError cap) (.start config config.version) ops
    let receiver := history step (new config) (Link.trace past)
    let told := (consumptions receiver).map Consumption.reply
    let spoken := (turns.flatMap Turn.messages).map Message.response
    let answers := (turns.flatMap fun t => t.read.answers).map replyOf
    link.sent <+: spoken →
      told <+: answers ∧
        ((∀ e ∈ replies receiver, feedFailed e = false) →
          link.receiver.isPoisoned = false ∧
            (link.sent = spoken → link.flight = [] → link.receiver.hasMessage = false →
              told = answers ∧ link.receiver.continuation = .idle)) := by
  intro past link receiver told spoken answers sent
  have flow := flow_run isoError config config.version cap ops allowed
  obtain ⟨received, read, heard⟩ :=
    told_of_flow flow config.version_supported (fun _ => rfl) within
  have done : link.receiver.handshakeDone = true := by
    rw [show link.receiver = _ from flow.receiver]
    exact ((sound_of_reachable ⟨_, rfl⟩).client client).2
  -- what is read of the whole conversation
  have whole := conversation_answers client (turns.map Turn.read) fun t member => by
    obtain ⟨t', member', rfl⟩ := List.mem_map.mp member
    exact (legal t' member').read
  have messages : ((turns.map Turn.read).flatMap Turn.messages).map Message.response =
      (turns.flatMap Turn.messages).map fun m => Message.response m.read := by
    rw [List.flatMap_map, List.map_flatMap, List.map_flatMap]
    apply List.flatMap_congr
    intro t _
    rw [t.read_messages, List.map_map]
    rfl
  rw [messages, List.flatMap_map] at whole
  obtain ⟨later, split⟩ := sent
  obtain ⟨first, rest, joined, firsts, lasts⟩ := List.map_eq_append_iff.mp split.symm
  have here : received = first.map fun m => .response m.read := by
    apply read_responses
    rw [firsts]
    exact read
  rw [joined, List.map_append, dialogue_append, attend_append, ← here] at whole
  constructor
  · apply heard.shown.trans
    rw [show answers = _ from congrArg (List.map replyOf) whole.1.symm, List.map_append]
    exact List.prefix_append _ _
  · intro accepted
    have sane : link.receiver.isPoisoned = false := by
      apply heard.alive accepted done
      intro stopped
      rw [stopped] at whole
      cases rest <;> cases whole.2
    refine ⟨sane, fun ended landed empty => ?_⟩
    have nothing : rest = [] := by
      have none : later = [] := by
        rw [ended] at split
        exact List.append_right_eq_self.mp split
      rw [none] at lasts
      exact List.map_eq_nil_iff.mp lasts
    rw [nothing, List.map_nil] at whole
    constructor
    · rw [show told = _ from heard.complete accepted landed done (Or.inr empty),
        show answers = _ from congrArg (List.map replyOf) whole.1.symm]
      cases attend (some (.idle : Phase config)) received <;> simp [dialogue]
    · obtain ⟨q, after, place⟩ := heard.settled accepted landed done empty sane
      rw [after] at whole
      obtain rfl := Option.some.inj whole.2
      exact place

theorem conversation_heard_interrupted :
    let first : RowsResponse := ⟨[[⟨97, by decide⟩]], [], [], [], true⟩
    let ops : List LinkOp := [.send (.response (.rows first)), .send (.response (.empty ⟨⟩)), .deliver 11,
      .call .decode, .send (.response (.empty ⟨⟩)), .deliver 90, .call .decode, .call .decodeContinuation,
      .call .decode]
    let past := history (Link.step (fun _ => none) 64) (.start .default protocolVersion) ops
    (consumptions (history step (new .default) (Link.trace past))).map Consumption.reply =
      [returned (.response (.rows first.normalised)), returned (.response (.empty ⟨⟩)),
        returned (.response (.empty ⟨⟩))] := by
  intro first ops past
  let turns : List Turn := [.resultSet first [] (.empty ⟨⟩), .single (.empty ⟨⟩)]
  have legal : ∀ t ∈ turns, t.Legal .default := by
    intro t member
    rcases List.mem_cons.mp member with rfl | later
    · refine ⟨by simp [first], by simp [Terminator.frames], by simp [Terminator.frames], ?_, ?_⟩ <;> decide
    · rw [List.mem_singleton.mp later]
      intro r same
      cases same
  have allowed : ∀ op ∈ ops, op.Allowed .default protocolVersion := by
    simp [ops, LinkOp.Allowed, streamCall, Conforms, Response.Built, Config.default, first,
      defaultMaxRows]
  have sent : (final (Link.step (fun _ => none) 64) (.start .default protocolVersion) ops).sent =
      (turns.flatMap Turn.messages).map .response := by decide
  obtain ⟨_, kept⟩ := conversation_heard (fun _ => none) .default rfl 64 (by decide) turns legal ops allowed
    (by rw [show (Config.default).version = protocolVersion from rfl, sent])
  exact ((kept (by decide)).2 sent (by decide) (by decide)).1

end DqliteWire
