import DqliteWire.Counted
import DqliteWire.Delimited
import DqliteWire.Opening

/-! One direction of a connection: a sender with an encoder, bytes in flight that arrive in pieces of any
size, and a receiver with a decoder. What the receiver is told is what was sent, message for message. -/

namespace DqliteWire

open WireLib WireLib.Utf8 MessageDecoder

def Response.read : Response → Response
  | .rows m => .rows m.normalised
  | m => m.received

/-- What a message is read as: of a request, what a comparison sees of it. -/
inductive ReadAs : Message → Message → Prop
  | request (m m' : Request) (same : m'.compared = m.compared) : ReadAs (.request m) (.request m')
  | response (m : Response) : ReadAs (.response m) (.response m.read)

/-- A message a sender may hand to its encoder: of the right direction and built by its constructor,
and within what the receiver takes. The modern leader body cannot be read under the legacy version. -/
def Conforms (config : Config) (version : Nat) : Message → Prop
  | .request m => config.isRequest = true ∧ m.Built
  | .response (.rows m) => config.isRequest = false ∧ m.rows.length < config.maxRows
  | .response (.files _) => config.isRequest = false
  | .response (.servers m) => config.isRequest = false ∧
      (∀ node ∈ m.nodes, node.nodeId ≠ 0 ∧ node.address ≠ []) ∧ (m.nodes.map NodeInfo.nodeId).Nodup
  | .response (.leader m) => config.isRequest = false ∧ version = protocolVersion ∧
      Response.Built (.leader m)
  | .response m => config.isRequest = false ∧ m.Built

theorem Request.compared_type (m : Request) : m.compared.type = m.type := by
  cases m <;> rfl

section ReadBack

variable {isoError : Str → Option String} {config : Config} {version : Nat} {f : Bytes}

theorem frameHeader_of_encode {m : Message} {schema : Nat} (encoded : m.encode isoError = .ok f)
    (versioned : m.getSchema = schema) : (frameHeader f).msgType = m.typeCode := by
  obtain ⟨body, written, _⟩ := bind_eq_ok.mp encoded
  have framed : encodeFrame m.className m.typeCode schema (.ok body) = .ok f := by
    rw [← written, ← versioned]
    exact encoded
  obtain ⟨_, size, type, small, rfl⟩ := encodeFrame_ok framed
  rw [frameHeader_encode size type small body]

theorem Response.decodeBody_conforming {m : Response} (conforms : Conforms config version (.response m))
    {schema : Nat} (versioned : m.getSchema = schema) {body : Bytes}
    (written : m.encodeBody isoError = .ok body) :
    decodeResponseBody config (some version) m.type body schema = .ok m.read := by
  cases m with
  | failure m | welcome m | db m | stmt m | result m | empty m | metadata m =>
      exact Response.decodeBody_encode conforms.2 versioned written
  | leader m =>
      obtain ⟨_, rfl, built⟩ := conforms
      exact Response.decodeBody_encode built versioned written
  | rows m =>
      obtain rfl := Request.unversioned versioned
      have back : RowsResponse.decodeBody body 0 config.maxRows config.textErrors = .ok m.normalised := by
        by_cases named : m.columnNames = []
        · exact RowsResponse.decodeBody_encode_empty written named _ _
        · exact RowsResponse.decodeBody_encode written named conforms.2 _
      exact congrArg (Functor.map _) back
  | files m =>
      obtain rfl := Request.unversioned versioned
      exact congrArg (Functor.map _) (FilesResponse.decodeBody_encode written)
  | servers m =>
      obtain rfl := Request.unversioned versioned
      exact congrArg (Functor.map _)
        (ServersResponse.decodeBody_encode written conforms.2.1 conforms.2.2 _)

theorem Conforms.supported {m : Response} (conforms : Conforms config version (.response m)) :
    ∃ schema : Nat, m.getSchema = schema ∧ schema ≤ maxSchema false m.type.code := by
  cases m with
  | failure m | welcome m | db m | stmt m | result m | empty m | metadata m =>
      exact Response.Built.supported conforms.2
  | leader m => exact Response.Built.supported conforms.2.2
  | rows | files | servers => exact ⟨0, rfl, Nat.zero_le _⟩

theorem Conforms.direction {m : Response} (conforms : Conforms config version (.response m)) :
    config.isRequest = false := by
  cases m with
  | files m => exact conforms
  | failure m | welcome m | db m | stmt m | result m | empty m | metadata m | leader m | rows m | servers m =>
      exact conforms.1

theorem Conforms.read_back {m : Message} (conforms : Conforms config version m) {cap : Nat}
    (encoded : encodeMessage isoError m cap = .ok f) (within : cap ≤ config.maxMessageSize) :
    ∃ m', ReadAs m m' ∧ decodeFrame config (some version) f = .ok m' ∧
      (frameHeader f).msgType = m'.typeCode := by
  obtain ⟨frame, small⟩ := encodeMessage_ok encoded
  have fits : f.length ≤ config.maxMessageSize := small.trans within
  cases m with
  | request m =>
      obtain ⟨request, built⟩ := conforms
      obtain ⟨schema, versioned, known, supported⟩ := built.supported
      obtain ⟨body, written, decoded⟩ := decodeFrame_encode_request frame versioned known supported
      obtain ⟨m', read, same⟩ := Request.decodeBody_encode built versioned written
      refine ⟨.request m', .request m m' same, ?_, ?_⟩
      · rw [decoded config _ request fits, read]
        rfl
      · have type : m'.type = m.type := by
          rw [← Request.compared_type m', same, Request.compared_type]
        rw [frameHeader_of_encode frame versioned, Message.typeCode, Message.typeCode, type]
  | response m =>
      obtain ⟨schema, versioned, supported⟩ := conforms.supported
      obtain ⟨body, written, decoded⟩ := decodeFrame_encode_response frame versioned supported
      refine ⟨.response m.read, .response m, ?_, ?_⟩
      · rw [decoded config _ conforms.direction fits,
          Response.decodeBody_conforming conforms versioned written]
        rfl
      · rw [frameHeader_of_encode frame versioned]
        cases m <;> rfl

end ReadBack

def Phase.hears {config : Config} : Phase config → Message → Except Exn Message × Option (Phase config)
  | .idle, m => opened m
  | .streaming s, m =>
    if m.typeCode ∈ [ResponseType.failure.code, ResponseType.empty.code, ResponseType.rows.code] then
      followed s m
    else (.error (wrongFrameType m.typeCode s.frames s.rows), some .idle)

/-- The answers to a list of messages, up to one that stops the decoder. -/
def dialogue {config : Config} : Option (Phase config) → List Message → List (Except Exn Message)
  | none, _ => []
  | some _, [] => []
  | some p, m :: later => (p.hears m).1 :: dialogue (p.hears m).2 later

def attend {config : Config} : Option (Phase config) → List Message → Option (Phase config)
  | none, _ => none
  | some p, [] => some p
  | some p, m :: later => attend (p.hears m).2 later

section Dialogue

variable {config : Config} {version : Nat}

theorem attend_append (p : Option (Phase config)) (first second : List Message) :
    attend p (first ++ second) = attend (attend p first) second := by
  induction first generalizing p with
  | nil => cases p <;> rfl
  | cons m first ih =>
      cases p with
      | none => cases second <;> rfl
      | some p => exact ih _

theorem dialogue_append (p : Option (Phase config)) (first second : List Message) :
    dialogue p (first ++ second) = dialogue p first ++ dialogue (attend p first) second := by
  induction first generalizing p with
  | nil => cases p <;> rfl
  | cons m first ih =>
      cases p with
      | none => cases second <;> rfl
      | some p => exact congrArg _ (ih _)

def Holds (config : Config) (version : Nat) (f : Bytes) (m : Message) : Prop :=
  decodeFrame config (some version) f = .ok m ∧ (frameHeader f).msgType = m.typeCode

theorem Phase.takes_hears {f : Bytes} {m : Message} (holds : Holds config version f m) (p : Phase config) :
    p.takes version f = p.hears m := by
  obtain ⟨decoded, type⟩ := holds
  cases p with
  | idle => simp only [takes, hears, decoded]
  | streaming s => simp only [takes, hears, decoded, continues, type]

theorem answers_dialogue {frames : List Bytes} {messages : List Message}
    (hold : List.Forall₂ (Holds config version) frames messages) (p : Option (Phase config)) :
    ((protocolReader config version).answers p frames).map Prod.snd = dialogue p messages := by
  induction hold generalizing p with
  | nil => cases p <;> rfl
  | cons holds later ih =>
      cases p with
      | none => rfl
      | some p =>
          have heard := Phase.takes_hears holds p
          simp only [FrameMachine.answers, dialogue, List.map_cons, protocolReader] at ih ⊢
          rw [heard, ih]

theorem phaseAfter_attend {frames : List Bytes} {messages : List Message}
    (hold : List.Forall₂ (Holds config version) frames messages) (p : Phase config) :
    phaseAfter version p frames = attend (some p) messages := by
  induction hold generalizing p with
  | nil => rfl
  | cons holds later ih =>
      have heard := Phase.takes_hears holds p
      simp only [phaseAfter, FrameMachine.after, attend, protocolReader] at ih ⊢
      rw [heard]
      cases after : (p.hears _).2 with
      | none => rw [FrameMachine.after_none, attend]
      | some q => exact ih q

theorem dialogue_requests {messages : List Message} (requests : ∀ m ∈ messages, m.isRequest = true) :
    dialogue (some (.idle : Phase config)) messages = messages.map .ok := by
  induction messages with
  | nil => rfl
  | cons m messages ih =>
      cases m with
      | response m => cases requests _ List.mem_cons_self
      | request m =>
          have later := ih fun m member => requests m (List.mem_cons_of_mem _ member)
          simp only [dialogue, Phase.hears, Phase.opened, List.map_cons, later]

end Dialogue

/-- What has been sent, the bytes that have not arrived, and the receiver. -/
structure Link where
  sent : List Message
  flight : Bytes
  receiver : MessageDecoder

inductive LinkOp
  | send (m : Message)
  /-- the next bytes in flight arrive -/
  | deliver (count : Nat)
  | call (op : DecoderOp)

namespace Link

def start (config : Config) (version : Nat) : Link := ⟨[], greeting config version, new config⟩

/-- A message that does not encode is not sent; a chunk that the decoder refuses stays in flight. -/
def step (isoError : Str → Option String) (cap : Nat) (l : Link) : LinkOp → DecoderReply × Link
  | .send m =>
    match encodeMessage isoError m cap with
    | .error e => (.error e, l)
    | .ok f => (.ok .unit, { l with sent := l.sent ++ [m], flight := l.flight ++ f })
  | .deliver count =>
    let fed := l.receiver.step (.feed (l.flight.take count))
    match fed.1 with
    | .error e => (.error e, { l with receiver := fed.2 })
    | .ok value => (.ok value, { l with flight := l.flight.drop count, receiver := fed.2 })
  | .call op =>
    let called := l.receiver.step op
    (called.1, { l with receiver := called.2 })

def calls (l : Link) : LinkOp → List DecoderOp
  | .send _ => []
  | .deliver count => [.feed (l.flight.take count)]
  | .call op => [op]

def trace (past : List (Event Link LinkOp DecoderReply)) : List DecoderOp :=
  past.flatMap fun e => e.before.calls e.op

end Link

/-- A conforming sender, and a receiver that only feeds its decoder what arrives. -/
def LinkOp.Allowed (config : Config) (version : Nat) : LinkOp → Prop
  | .send m => Conforms config version m
  | .deliver _ => True
  | .call op => streamCall op = true ∧ ∀ data, op ≠ .feed data

structure Flow (isoError : Str → Option String) (cap : Nat) (config : Config) (version : Nat)
    (past : List (Event Link LinkOp DecoderReply)) (l : Link) : Prop where
  receiver : l.receiver = final step (new config) (Link.trace past)
  stream : ∀ op ∈ Link.trace past, streamCall op = true
  conforming : ∀ m ∈ l.sent, Conforms config version m
  bytes : ∃ frames, List.Forall₂ (fun m f => encodeMessage isoError m cap = .ok f) l.sent frames ∧
    acceptedChunks (replies (history step (new config) (Link.trace past))) ++ l.flight =
      greeting config version ++ frames.flatten

section Flow

variable {isoError : Str → Option String} {cap : Nat} {config : Config} {version : Nat}
  {past : List (Event Link LinkOp DecoderReply)} {l : Link}

theorem Flow.call (flow : Flow isoError cap config version past l) {op : DecoderOp}
    (call : streamCall op = true) {e : Event Link LinkOp DecoderReply}
    (calls : e.before.calls e.op = [op]) {flight : Bytes}
    (split : acceptedChunks [(op, (l.receiver.step op).1)] ++ flight = l.flight) :
    Flow isoError cap config version (past ++ [e]) ⟨l.sent, flight, (l.receiver.step op).2⟩ := by
  obtain ⟨receiver, stream, conforming, frames, sent, joined⟩ := flow
  have grown : Link.trace (past ++ [e]) = Link.trace past ++ [op] := by
    simp [Link.trace, calls]
  rw [receiver] at split
  constructor
  · rw [grown, final_concat, ← receiver]
  · rw [grown]
    intro o member
    rcases List.mem_append.mp member with earlier | now
    · exact stream o earlier
    · rw [List.mem_singleton.mp now]
      exact call
  · exact conforming
  · refine ⟨frames, sent, ?_⟩
    rw [grown, history_concat, replies_concat, acceptedChunks_concat, List.append_assoc, ← joined]
    exact congrArg _ split

theorem Flow.step (flow : Flow isoError cap config version past l) {op : LinkOp}
    (allowed : op.Allowed config version) :
    Flow isoError cap config version (past ++ [event (Link.step isoError cap) l op])
      (l.step isoError cap op).2 := by
  cases op with
  | send m =>
      have same : Link.trace (past ++ [event (Link.step isoError cap) l (.send m)]) = Link.trace past := by
        simp [Link.trace, Link.calls, event]
      obtain ⟨receiver, stream, conforming, frames, sent, joined⟩ := flow
      simp only [Link.step]
      cases encoded : encodeMessage isoError m cap with
      | error e => exact ⟨same ▸ receiver, same ▸ stream, conforming, frames, sent, same ▸ joined⟩
      | ok f =>
          refine ⟨same ▸ receiver, same ▸ stream, ?_, frames ++ [f], ?_, ?_⟩
          · intro m' member
            rcases List.mem_append.mp member with earlier | now
            · exact conforming m' earlier
            · rw [List.mem_singleton.mp now]
              exact allowed
          · exact List.rel_append sent (.cons encoded .nil)
          · rw [same, ← List.append_assoc, joined]
            simp
  | deliver count =>
      simp only [Link.step]
      cases fed : (l.receiver.step (.feed (l.flight.take count))).1 with
      | error e =>
          apply flow.call rfl rfl
          rw [fed]
          rfl
      | ok value =>
          apply flow.call rfl rfl
          rw [fed]
          simp [acceptedChunks]
  | call op =>
      obtain ⟨call, other⟩ := allowed
      apply flow.call call rfl
      cases op with
      | feed data => exact absurd rfl (other data)
      | _ => rfl

theorem Flow.start (isoError : Str → Option String) (cap : Nat) (config : Config) (version : Nat) :
    Flow isoError cap config version [] (.start config version) where
  receiver := rfl
  stream := by simp [Link.trace]
  conforming := by simp [Link.start]
  bytes := ⟨[], .nil, by simp [Link.trace, Link.start, replies, acceptedChunks]⟩

end Flow

section Delivery

variable {isoError : Str → Option String} {cap : Nat} {config : Config} {version : Nat}

theorem sent_read_back (within : cap ≤ config.maxMessageSize) {sent : List Message} {frames : List Bytes}
    (encoded : List.Forall₂ (fun m f => encodeMessage isoError m cap = .ok f) sent frames)
    (conforming : ∀ m ∈ sent, Conforms config version m) :
    ∃ received, List.Forall₂ ReadAs sent received ∧ List.Forall₂ (Holds config version) frames received := by
  induction encoded with
  | nil => exact ⟨[], .nil, .nil⟩
  | cons first _ ih =>
      obtain ⟨received, read, hold⟩ := ih fun m member => conforming m (List.mem_cons_of_mem _ member)
      obtain ⟨m', one, decoded, type⟩ :=
        (conforming _ List.mem_cons_self).read_back first within
      exact ⟨m' :: received, .cons one read, .cons ⟨decoded, type⟩ hold⟩

theorem legal_of_hold {frames : List Bytes} {messages : List Message}
    (hold : List.Forall₂ (Holds config version) frames messages) :
    ∀ f ∈ frames, wire.IsFrame config.maxMessageSize f := by
  induction hold with
  | nil => simp
  | cons holds _ ih =>
      intro f member
      rcases List.mem_cons.mp member with rfl | later
      · exact decodeFrame_ok holds.1
      · exact ih f later

theorem handedOut_dialogue {frames : List Bytes} {messages : List Message}
    (hold : List.Forall₂ (Holds config version) frames messages) :
    (handedOut version (.idle : Phase config) frames.flatten).map Prod.snd =
      (dialogue (some (.idle : Phase config)) messages).map replyOf := by
  rw [handedOut, StreamReader.transcript, wire.cut_flatten _ frames (legal_of_hold hold),
    ← answers_dialogue hold, List.map_map, List.map_map]
  rfl

theorem requests_of_conforming (request : config.isRequest = true) {sent received : List Message}
    (conforming : ∀ m ∈ sent, Conforms config version m) (read : List.Forall₂ ReadAs sent received) :
    ∀ m ∈ received, m.isRequest = true := by
  induction read with
  | nil => simp
  | cons one _ ih =>
      intro m member
      rcases List.mem_cons.mp member with rfl | later
      · cases one with
        | request => rfl
        | response r =>
            have response := (conforming _ List.mem_cons_self).direction
            rw [request] at response
            cases response
      · exact ih (fun m member => conforming m (List.mem_cons_of_mem _ member)) m later

theorem opening_greeting (known : version ∈ supportedVersions)
    (spoken : config.isRequest = false → version = config.version) {arrived flight stream : Bytes}
    (joined : arrived ++ flight = greeting config version ++ stream) :
    opening config arrived = none ∨
      ∃ rest, opening config arrived = some (version, rest) ∧ rest ++ flight = stream := by
  cases direction : config.isRequest with
  | false =>
      right
      refine ⟨arrived, ?_, ?_⟩
      · simp [opening, direction, spoken direction]
      · simpa [greeting, direction] using joined
  | true =>
      have width : (greeting config version).length = 8 := by
        simp [greeting, direction, MessageEncoder.encodeHandshake, toLE_length]
      by_cases long : 8 ≤ arrived.length
      · right
        have head : arrived.take 8 = greeting config version := by
          have first := congrArg (List.take 8) joined
          rwa [List.take_append_of_le_length long, List.take_left' width] at first
        have value : fromLE (arrived.take 8) = version := by
          rw [head, greeting, if_pos direction, MessageEncoder.encodeHandshake,
            fromLE_toLE 8 version (supported_lt known)]
        refine ⟨arrived.drop 8, ?_, ?_⟩
        · rw [opening, if_pos direction, value, if_pos ⟨long, known⟩]
        · have tail := congrArg (List.drop 8) joined
          rwa [List.drop_append_of_le_length long, List.drop_left' width] at tail
      · left
        rw [opening, if_pos direction, if_neg fun both => long both.1]

structure Told (config : Config) (version : Nat) (l : Link) (calls : List DecoderOp)
    (received : List Message) : Prop where
  shown : (consumptions (history step (new config) calls)).map Consumption.reply <+:
    (dialogue (some (.idle : Phase config)) received).map replyOf
  complete : (∀ e ∈ replies (history step (new config) calls), feedFailed e = false) → l.flight = [] →
    l.receiver.handshakeDone = true → l.receiver.isPoisoned = true ∨ l.receiver.hasMessage = false →
    (consumptions (history step (new config) calls)).map Consumption.reply =
      (dialogue (some (.idle : Phase config)) received).map replyOf
  alive : (∀ e ∈ replies (history step (new config) calls), feedFailed e = false) →
    l.receiver.handshakeDone = true → attend (some (.idle : Phase config)) received ≠ none →
    l.receiver.isPoisoned = false
  settled : (∀ e ∈ replies (history step (new config) calls), feedFailed e = false) → l.flight = [] →
    l.receiver.handshakeDone = true → l.receiver.hasMessage = false → l.receiver.isPoisoned = false →
    ∃ q, attend (some (.idle : Phase config)) received = some q ∧
      l.receiver.continuation = q.continuation

theorem told_of_flow {past : List (Event Link LinkOp DecoderReply)} {l : Link}
    (flow : Flow isoError cap config version past l) (known : version ∈ supportedVersions)
    (spoken : config.isRequest = false → version = config.version) (within : cap ≤ config.maxMessageSize) :
    ∃ received, List.Forall₂ ReadAs l.sent received ∧ Told config version l (Link.trace past) received := by
  obtain ⟨place, stream, conforming, frames, encoded, joined⟩ := flow
  obtain ⟨received, read, hold⟩ := sent_read_back within encoded conforming
  refine ⟨received, read, ?_⟩
  have all : (handedOut version (.idle : Phase config) frames.flatten).map Prod.snd =
      (dialogue (some (.idle : Phase config)) received).map replyOf := handedOut_dialogue hold
  cases life_run config (Link.trace past) stream with
  | waiting held =>
      have pending : l.receiver.handshakeDone = false := by rw [place, held.pending]
      constructor
      · rw [held.nothing]
        exact List.nil_prefix
      · intro _ _ done
        rw [pending] at done
        cases done
      · intro _ done
        rw [pending] at done
        cases done
      · intro _ _ done
        rw [pending] at done
        cases done
  | working first later version' calls phase live here same opened met =>
      have conduct := conduct_of_phase phase live later calls
      obtain none | ⟨rest, some_, tail⟩ := opening_greeting known spoken joined
      · rw [none] at opened
        cases opened
      rw [some_] at opened
      simp only [Option.some.injEq, Prod.mk.injEq] at opened
      obtain ⟨rfl, rest_eq⟩ := opened
      rw [rest_eq] at tail
      have shown := conduct.shown.trans (handedOut_mono version (.idle : Phase config)
        (t := frames.flatten) ⟨l.flight, tail⟩)
      have spoke : (consumptions (history step (new config) (Link.trace past))).map Consumption.reply =
          ((consumptions (history step first later)).map Consumption.answer).map Prod.snd := by
        rw [List.map_map, same]
        rfl
      constructor
      · rw [spoke, ← all]
        exact shown.map _
      · intro accepted landed _ spent
        rw [landed, List.append_nil] at tail
        rw [place, here] at spent
        rw [spoke, ← all, conduct.complete (fun e member => accepted e (met e member)) spent, tail]
      · intro accepted _ attended
        -- the frames taken are some of those sent, and no frame is left that is refused
        by_contra poisoned
        rw [place, here, Bool.not_eq_false] at poisoned
        have halted := conduct.halted (fun e member => accepted e (met e member)) poisoned
        have legal := legal_of_hold hold
        have taken : (consumptions (history step first later)).map Consumption.frame <+: frames := by
          have firsts := shown.map Prod.fst
          rw [List.map_map, handedOut, List.map_map, StreamReader.transcript,
            wire.cut_flatten _ frames legal] at firsts
          exact firsts.trans (FrameMachine.answers_frames _ _ _)
        obtain ⟨others, split⟩ := taken
        have left : (final step first later).buffer.unread ++ l.flight = others.flatten := by
          apply List.append_cancel_left
          rw [← List.append_assoc, conduct.joined, tail, ← split, List.flatten_append]
        rcases halted with finished | large
        · apply attended
          rw [← phaseAfter_attend hold, ← split]
          exact (FrameMachine.after_append _ _ _ _).trans (by
            rw [show FrameMachine.after _ _ _ = none from finished, FrameMachine.after_none])
        · have whole : ∀ f ∈ others, wire.IsFrame config.maxMessageSize f := by
            intro f member
            apply legal f
            rw [← split]
            exact List.mem_append_right _ member
          exact wire.head_ne_oversized _ whole ⟨l.flight, left⟩ large
      · intro accepted landed _ empty sane
        rw [landed, List.append_nil] at tail
        rw [place, here] at empty sane
        obtain ⟨q, after, kept, _⟩ := conduct.running sane
        have answered := conduct.complete (fun e member => accepted e (met e member)) (Or.inr empty)
        rw [tail, handedOut, StreamReader.transcript, wire.cut_flatten _ frames (legal_of_hold hold)] at answered
        have taken : (consumptions (history step first later)).map Consumption.frame =
            ((protocolReader config version).answers (some .idle) frames).map Prod.fst := by
          have firsts := congrArg (List.map Prod.fst) answered
          rwa [List.map_map, List.map_map] at firsts
        rw [taken] at after
        refine ⟨q, ?_, by rw [place, here, kept.continuation_eq]⟩
        rw [← phaseAfter_attend hold, ← after]
        exact congrArg _ (FrameMachine.answers_all _ after).symm

end Delivery

theorem flow_run (isoError : Str → Option String) (config : Config) (version cap : Nat) (ops : List LinkOp)
    (allowed : ∀ op ∈ ops, op.Allowed config version) :
    Flow isoError cap config version (history (Link.step isoError cap) (.start config version) ops)
      (final (Link.step isoError cap) (.start config version) ops) :=
  run_invariant (Link.step isoError cap) (Flow isoError cap config version)
    (fun op => op.Allowed config version) (Flow.start isoError cap config version)
    (fun _ _ _ allowed flow => flow.step allowed) ops allowed

/-- What a conforming sender sends is what the receiver is told, message for message, in order, whatever
the sizes in which the bytes arrive and however the calls fall between: never anything else, and all of
it once the bytes have arrived and been read. A server is told every request. -/
theorem link_delivers (isoError : Str → Option String) (config : Config) (version : Nat)
    (known : version ∈ supportedVersions) (spoken : config.isRequest = false → version = config.version)
    (cap : Nat) (within : cap ≤ config.maxMessageSize) (ops : List LinkOp)
    (allowed : ∀ op ∈ ops, op.Allowed config version) :
    let past := history (Link.step isoError cap) (.start config version) ops
    let link := final (Link.step isoError cap) (.start config version) ops
    let receiver := history step (new config) (Link.trace past)
    let told := (consumptions receiver).map Consumption.reply
    ∃ received, List.Forall₂ ReadAs link.sent received ∧
      let answers := (dialogue (some (.idle : Phase config)) received).map replyOf
      (config.isRequest = true → answers = received.map returned) ∧ told <+: answers ∧
      ((∀ e ∈ replies receiver, feedFailed e = false) → link.flight = [] →
        link.receiver.handshakeDone = true →
        link.receiver.isPoisoned = true ∨ link.receiver.hasMessage = false → told = answers) := by
  intro past link receiver told
  have flow := flow_run isoError config version cap ops allowed
  obtain ⟨received, read, heard⟩ := told_of_flow flow known spoken within
  refine ⟨received, read, fun request => ?_, heard.shown, heard.complete⟩
  rw [dialogue_requests (requests_of_conforming request flow.conforming read), List.map_map]
  rfl

theorem link_delivers_split_handshake :
    let config := Config.default true
    let ops : List LinkOp := [.deliver 3, .call .decodeHandshake, .send (.request (.leader ⟨⟩)), .deliver 9,
      .call .decodeHandshake, .call .decode, .deliver 12, .call .decode]
    let past := history (Link.step (fun _ => none) 64) (.start config protocolVersionLegacy) ops
    ∃ m : Request, m.compared = .leader ⟨⟩ ∧
      (consumptions (history step (new config) (Link.trace past))).map Consumption.reply =
        [returned (.request m)] := by
  intro config ops past
  have allowed : ∀ op ∈ ops, op.Allowed config protocolVersionLegacy := by
    simp [ops, LinkOp.Allowed, streamCall, Conforms, Request.Built, config, Config.default]
  obtain ⟨received, read, server, _, complete⟩ := link_delivers (fun _ => none) config
    protocolVersionLegacy (by decide) (fun response => by cases response) 64 (by decide) ops allowed
  have told := complete (by decide) (by decide) (by decide) (Or.inr (by decide))
  rw [told, server rfl]
  have sent : (final (Link.step (fun _ => none) 64) (.start config protocolVersionLegacy) ops).sent =
      [.request (.leader ⟨⟩)] := by decide
  rw [sent] at read
  cases read with
  | cons one rest =>
      cases rest
      cases one with
      | request _ m same => exact ⟨m, same, rfl⟩

end DqliteWire
