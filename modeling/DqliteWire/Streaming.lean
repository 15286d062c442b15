import DqliteWire.Session

/-! The streaming decoder against the stateless one: on a stream without split responses the calls
of `decode` return what `decode_message` returns for each frame. -/

namespace DqliteWire

open WireLib WireLib.Utf8 MessageDecoder

/-- The arguments of a stateless decoder for the stream: a request decoder takes its version from
the handshake. -/
def Config.stateless (config : Config) (version : Nat) (known : version ∈ supportedVersions) :
    Config :=
  if config.isRequest then { config with version := version, version_supported := known } else config

namespace Config

variable (config : Config) (version : Nat) (known : version ∈ supportedVersions)

@[simp] theorem stateless_isRequest :
    (config.stateless version known).isRequest = config.isRequest := by
  unfold stateless
  split <;> rfl

@[simp] theorem stateless_size :
    (config.stateless version known).maxMessageSize = config.maxMessageSize := by
  unfold stateless
  split <;> rfl

end Config

/-- Of the arguments only the version is new, and a frame is decoded under the negotiated one. -/
theorem decodeMessage_stateless (config : Config) (version : Nat)
    (known : version ∈ supportedVersions) (data : Bytes) :
    decodeMessage (config.stateless version known) data =
      decodeFrame config (some (if config.isRequest then version else config.version)) data := by
  rw [decodeMessage_eq, Config.stateless]
  split <;> rfl

def deliveredMessages (past : List (DecoderOp × DecoderReply)) : List Message :=
  past.filterMap fun e => match e with
    | (.decode, .ok (.message m)) | (.decodeContinuation, .ok (.message m)) => m
    | _ => none

def Consumption.message (c : Consumption) : Option Message :=
  match c.reply with
  | .ok (.message m) => m
  | _ => none

theorem ReadBuffer.readMessage_shrinks {b after : ReadBuffer} (bounded : b.Bounded) {data : Bytes}
    (read : b.readMessage = (.ok (some data), after)) : after.available < b.available := by
  obtain ⟨reply, _, next⟩ := readMessage_matches bounded
  rw [read] at reply next
  unfold ByteQueue.readMessage at reply next
  split at reply
  · cases reply
  · split at reply
    · cases reply
    · cases reply
    · rename_i healthy _ message rest found
      obtain ⟨whole, shape⟩ := wire.head_frame _ found
      have positive := List.length_pos_iff.mpr shape.ne_nil
      rw [healthy, found] at next
      have unread : after.unread = rest := congrArg ByteQueue.unread next
      rw [queue_unread] at whole
      rw [available_eq, available_eq, unread, whole, List.length_append]
      omega

theorem consumption_of_message {config : Config} {d : MessageDecoder} (sound : d.Sound config)
    {op : DecoderOp} (reads : op = .decode ∨ op = .decodeContinuation) {m : Message}
    (returned : (d.step op).1 = .ok (.message (some m))) :
    (d.step op).2.buffer.available < d.buffer.available := by
  have bounded := sound.buffer.bounded
  rcases reads with rfl | rfl
  · have outcome := decode_outcome d
    simp only [step] at returned ⊢
    generalize d.decode = result at outcome returned ⊢
    cases outcome with
    | refused | unreadable | failed | waiting => cases returned
    | whole b data message idle read | opened b data rows idle read =>
        exact ReadBuffer.readMessage_shrinks bounded read
  · have outcome := decodeContinuation_outcome d
    simp only [step] at returned ⊢
    generalize d.decodeContinuation = result at outcome returned ⊢
    cases outcome with
    | refused | waiting | oversized | wrongType | failure | rejected | broken => cases returned
    | emptied b data result expected read | ended b data result expected read =>
        rw [finalize_buffer]
        exact ReadBuffer.readMessage_shrinks bounded read
    | continued b data result expected read => exact ReadBuffer.readMessage_shrinks bounded read

theorem delivered_event {config : Config} {d : MessageDecoder} (sound : d.Sound config)
    (op : DecoderOp) :
    deliveredMessages [(op, (d.step op).1)] =
      ((consumption (event step d op)).toList.filterMap Consumption.message) := by
  by_cases reads : op = .decode ∨ op = .decodeContinuation
  · by_cases took : (d.step op).2.buffer.available < d.buffer.available
    · have some_ : consumption (event step d op) = some ⟨d.buffer.unread.take
          (d.buffer.available - (d.step op).2.buffer.available), op, (d.step op).1⟩ :=
        if_pos ⟨reads, by simp only [event]; omega⟩
      rw [some_]
      rcases reads with rfl | rfl <;>
      · simp only [deliveredMessages, Consumption.message, List.filterMap_cons, List.filterMap_nil,
          Option.toList_some]
        rcases (d.step _).1 with _ | _ | _ | _ | _ | _ | _ <;> rfl
    · have none_ : consumption (event step d op) = none :=
        if_neg (by simp only [event]; omega)
      rw [none_]
      have silent (m : Message) : (d.step op).1 ≠ .ok (.message (some m)) := fun returned =>
        took (consumption_of_message sound reads returned)
      generalize (d.step op).1 = reply at silent
      rcases reads with rfl | rfl <;>
      · rcases reply with _ | _ | _ | _ | _ | (_ | m) | _
        all_goals first
          | rfl
          | exact absurd rfl (silent m)
  · push Not at reads
    rw [consumption_other reads.1 reads.2]
    cases op with
    | decode => exact absurd rfl reads.1
    | decodeContinuation => exact absurd rfl reads.2
    | feed | hasMessage | pendingFrameSize | takeFrame | decodeBytes | skipMessage
    | decodeHandshake | reset => rfl

theorem delivered_eq (config : Config) (ops : List DecoderOp) :
    deliveredMessages (replies (history step (new config) ops)) =
      (consumptions (history step (new config) ops)).filterMap Consumption.message := by
  refine (run_invariant step (fun past d => d.Sound config ∧ deliveredMessages (replies past) =
    (consumptions past).filterMap Consumption.message) (fun _ => True) ⟨Sound.new config, rfl⟩ ?_
    ops (by simp)).2
  rintro past d op _ ⟨sound, same⟩
  refine ⟨sound.step op, ?_⟩
  have now := delivered_event sound op
  rw [replies_concat, consumptions_concat, List.filterMap_append, ← same, ← now]
  exact List.filterMap_append

namespace MessageDecoder

theorem accept_whole {d : MessageDecoder} (idle : d.continuation.expected = false)
    (healthy : d.buffer.poisoned = none) (done : d.handshakeDone = true) {f : Bytes}
    (whole : ∀ result, decodeFrame d.config d.version f = .ok (.response (.rows result)) →
      result.hasMore = false) :
    d.accept f = match decodeFrame d.config d.version f with
      | .ok m => (.ok (some m), d)
      | .error e => (.error e, d.poison (poisonCause "decode" e)) := by
  simp only [accept, idle, Bool.false_eq_true, if_false]
  rcases startMessage_cases d healthy done f with
    ⟨e, stepped, raised | ⟨result, decoded, more, _⟩⟩ | ⟨m, stepped, decoded, _⟩ |
    ⟨result, _, decoded, more, _⟩
  · rw [stepped, raised]
  · exact absurd (whole result decoded) (by simp [more])
  · rw [stepped, decoded]
  · exact absurd (whole result decoded) (by simp [more])

end MessageDecoder

section Agreement

variable (config : Config) (version : Nat) (known : version ∈ supportedVersions)

def Agrees (log : List Consumption) : Prop :=
  ∀ c ∈ log, ∃ m, decodeMessage (config.stateless version known) c.frame = .ok m ∧
    c.reply = .ok (.message (some m))

def AgreesUntil (log : List Consumption) : Prop :=
  ∃ earlier last e, log = earlier ++ [last] ∧ Agrees config version known earlier ∧
    decodeMessage (config.stateless version known) last.frame = .error e ∧
    last.reply = .error e

theorem accept_stateless {streams : List (List RowsResponse)} {d : MessageDecoder}
    (books : Bookkeeping config streams d) (idle : d.continuation.expected = false)
    (healthy : d.buffer.poisoned = none) (done : d.handshakeDone = true)
    (negotiated : config.isRequest = true → d.handshakeDone = true → d.version = some version)
    {f : Bytes} (whole : ∀ result,
      decodeMessage (config.stateless version known) f = .ok (.response (.rows result)) →
        result.hasMore = false) :
    d.accept f = match decodeMessage (config.stateless version known) f with
      | .ok m => (.ok (some m), d)
      | .error e => (.error e, d.poison (poisonCause "decode" e)) := by
  have spoken : d.version = some (if config.isRequest then version else config.version) := by
    cases request : config.isRequest with
    | true => simpa using negotiated request done
    | false => simpa using (books.sound.client request).1
  have same : decodeFrame d.config d.version f =
      decodeMessage (config.stateless version known) f := by
    rw [decodeMessage_stateless, books.sound.config_eq, spoken]
  rw [← same] at whole ⊢
  exact accept_whole idle healthy done whole

structure Agreeing (log : List Consumption) (d : MessageDecoder) : Prop where
  idle : d.continuation.expected = false
  negotiated : config.isRequest = true → d.handshakeDone = true → d.version = some version
  agrees : Agrees config version known log

theorem agreement_rule {frames : List Bytes}
    (whole : ∀ f ∈ frames, ∀ result,
      decodeMessage (config.stateless version known) f = .ok (.response (.rows result)) →
        result.hasMore = false) :
    FrameRule config version frames (Agreeing config version known) (AgreesUntil config version known) where
  initially := by
    refine ⟨rfl, fun request done => ?_, by simp [Agrees]⟩
    simp [MessageDecoder.new, request] at done
  buffer_free := fun _ _ _ held => ⟨held.idle, held.negotiated, held.agrees⟩
  greeted := fun _ _ held => ⟨held.idle, fun _ _ => rfl, held.agrees⟩
  accepts := by
    rintro log d f others streams split books healthy done ⟨idle, negotiated, agrees⟩
    have accepted := accept_stateless config version known books idle healthy done negotiated
      (whole f (by simp [split]))
    cases decoded : decodeMessage (config.stateless version known) f with
    | ok m =>
        rw [decoded] at accepted
        rw [accepted]
        refine ⟨fun _ => ⟨idle, negotiated, ?_⟩, fun poisoned => absurd healthy poisoned⟩
        intro c member
        rcases List.mem_append.mp member with earlier | now
        · exact agrees c earlier
        · rw [List.mem_singleton.mp now]
          exact ⟨m, decoded, rfl⟩
    | error e =>
        rw [decoded] at accepted
        rw [accepted]
        refine ⟨fun sane => ?_, fun _ => ⟨log, _, e, rfl, agrees, decoded, rfl⟩⟩
        simp [ReadBuffer.poison_of_healthy healthy] at sane

theorem Agrees.messages {log : List Consumption} (agrees : Agrees config version known log) :
    (log.filterMap Consumption.message).map Except.ok =
        (log.map Consumption.frame).map (decodeMessage (config.stateless version known)) ∧
      (log.filterMap Consumption.message).length = log.length := by
  induction log with
  | nil => exact ⟨rfl, rfl⟩
  | cons c log ih =>
      obtain ⟨m, decoded, reply⟩ := agrees c (by simp)
      obtain ⟨same, length⟩ := ih fun c' member => agrees c' (by simp [member])
      have message : c.message = some m := by simp [Consumption.message, reply]
      rw [List.filterMap_cons_some message]
      exact ⟨by simp [same, decoded], by simp [length]⟩

theorem AgreesUntil.messages {log : List Consumption}
    (agrees : AgreesUntil config version known log) :
    (log.filterMap Consumption.message).map Except.ok =
        (log.map Consumption.frame).dropLast.map
          (decodeMessage (config.stateless version known)) ∧
      ∃ f e, (log.map Consumption.frame)[(log.filterMap Consumption.message).length]? = some f ∧
        decodeMessage (config.stateless version known) f = .error e := by
  obtain ⟨earlier, last, e, rfl, agrees, decoded, reply⟩ := agrees
  obtain ⟨same, length⟩ := agrees.messages
  have silent : last.message = none := by simp [Consumption.message, reply]
  have messages : (earlier ++ [last]).filterMap Consumption.message =
      earlier.filterMap Consumption.message := by
    simp [List.filterMap_append, silent]
  rw [messages, length]
  refine ⟨by simp [same], last.frame, e, by simp, decoded⟩

end Agreement

theorem MessageDecoder.healthy_iff {d : MessageDecoder} :
    d.isPoisoned = false ↔ d.buffer.poisoned = none := by
  simp [isPoisoned, ReadBuffer.isPoisoned]

theorem poisoned_delivers_nothing {d : MessageDecoder} (poisoned : d.buffer.poisoned ≠ none)
    (more : List DecoderOp) (others : ∀ op ∈ more, op ≠ .reset) :
    deliveredMessages (replies (history step d more)) = [] := by
  obtain ⟨_, refused⟩ := poisoned_run poisoned more others
  rw [deliveredMessages, List.filterMap_eq_nil_iff]
  intro e member
  obtain ⟨event, before, rfl⟩ := List.mem_map.mp member
  rcases refused event before with ⟨op, reply⟩ | ⟨error, reply, _⟩
  · rw [op, reply]
  · rw [reply]
    cases event.op <;> rfl

section Outcome

variable {config : Config} {version : Nat} {known : version ∈ supportedVersions} {frames : List Bytes}
  {d : MessageDecoder} {log : List Consumption} {arrived : Bytes}

theorem Agreeing.next_decode (held : Agreeing config version known log d)
    (standing : Standing config version frames arrived log d)
    (legal : ∀ f ∈ frames, wire.IsFrame config.maxMessageSize f)
    (whole : ∀ f ∈ frames, ∀ result,
      decodeMessage (config.stateless version known) f = .ok (.response (.rows result)) →
        result.hasMore = false)
    (chunks : arrived <+: greeting config version ++ frames.flatten) (done : d.handshakeDone = true) :
    (d.step .decode).1 = (match frames[log.length]? with
        | none => .ok (.message none)
        | some f =>
          if arrived.length < (greeting config version).length + (frames.take (log.length + 1)).flatten.length then
            .ok (.message none)
          else (decodeMessage (config.stateless version known) f).map fun m => .message (some m)) ∧
      ((d.step .decode).2.isPoisoned = true ↔ ∃ e, (d.step .decode).1 = .error e) := by
  have due : d.due = .decode := by simp [MessageDecoder.due, held.idle]
  rw [← due]
  rcases standing.next legal chunks done with
    ⟨b, stepped, sane, lacking⟩ |
    ⟨f, others, b, split, found, enough, sane, ⟨_, books⟩, stepped⟩
  · rw [stepped]
    constructor
    · cases found : frames[log.length]? with
      | none => rfl
      | some f => exact (if_pos (lacking f found)).symm
    · simp [isPoisoned, ReadBuffer.isPoisoned, sane]
  · have agreed := accept_stateless config version known books held.idle sane done held.negotiated
      (whole f (by simp [split]))
    rw [agreed] at stepped
    rw [stepped, found]
    simp only [not_lt.mpr enough, if_false]
    cases decodeMessage (config.stateless version known) f with
    | ok m => simp [Except.map, isPoisoned, ReadBuffer.isPoisoned, sane]
    | error e => simp [Except.map, isPoisoned, ReadBuffer.isPoisoned, ReadBuffer.poison_of_healthy sane]

theorem pending_handshake (standing : Standing config version frames arrived log d)
    (known : version ∈ supportedVersions) (chunks : arrived <+: greeting config version ++ frames.flatten)
    (pending : d.handshakeDone = false) :
    if arrived.length < 8 then d.decodeHandshake = (.ok none, d)
    else d.decodeHandshake.1 = .ok (some version) ∧ d.decodeHandshake.2.handshakeDone = true ∧
      d.decodeHandshake.2.version = some version ∧
      d.decodeHandshake.2.buffer.unread = arrived.drop 8 := by
  have unread := (standing.pending pending).2
  rcases decodeHandshake_cases standing.sound.buffer.bounded standing.healthy pending with
    ⟨short, same⟩ | ⟨eight, unsupported, _⟩ | ⟨eight, _, b, _, queue, same⟩
  · rw [unread] at short
    rw [if_pos short]
    exact same
  · obtain ⟨_, value⟩ := standing.handshake_head known chunks pending eight
    rw [value] at unsupported
    exact absurd known unsupported
  · obtain ⟨_, value⟩ := standing.handshake_head known chunks pending eight
    rw [value] at same
    rw [unread] at eight
    rw [if_neg (not_lt.mpr eight), same]
    refine ⟨rfl, rfl, rfl, ?_⟩
    exact (congrArg ByteQueue.unread queue).trans (congrArg (List.drop 8) unread)

theorem handshake_takes_nothing (sound : d.Sound config) (healthy : d.buffer.poisoned = none)
    (pending : d.handshakeDone = false)
    (missing : d.buffer.unread.length < 8 ∨ fromLE (d.buffer.unread.take 8) ∉ supportedVersions) :
    d.decodeHandshake.2 = d := by
  rcases decodeHandshake_cases sound.buffer.bounded healthy pending with
    ⟨_, same⟩ | ⟨_, _, same⟩ | ⟨eight, supported, _⟩
  · rw [same]
  · rw [same]
  · rcases missing with short | unsupported
    · omega
    · exact absurd supported unsupported

end Outcome

/-- The streaming decoder returns what the stateless one makes of each frame: the next frame once
it has arrived, up to the first that is refused, which poisons. Before the handshake nothing is
read, and a handshake that is incomplete or unsupported takes nothing. -/
theorem streaming_agrees_with_stateless (config : Config) (version : Nat)
    (known : version ∈ supportedVersions) (frames : List Bytes)
    (legal : ∀ f ∈ frames, wire.IsFrame config.maxMessageSize f)
    (whole : ∀ f ∈ frames, ∀ result,
      decodeMessage (config.stateless version known) f = .ok (.response (.rows result)) →
        result.hasMore = false)
    (ops : List DecoderOp)
    (calls : ∀ op ∈ ops, op = .decode ∨ op = .decodeHandshake ∨ ∃ data, op = .feed data)
    (chunks : acceptedChunks (replies (history step (new config) ops)) <+:
      greeting config version ++ frames.flatten)
    (accepted : ∀ e ∈ replies (history step (new config) ops), feedFailed e = false) :
    let stateless := decodeMessage (config.stateless version known)
    let past := replies (history step (new config) ops)
    let d := final step (new config) ops
    let delivered := deliveredMessages past
    let arrived := acceptedChunks past
    delivered.map Except.ok <+: frames.map stateless ∧
      (d.isPoisoned = false → d.handshakeDone = true →
        (d.step .decode).1 = (match frames[delivered.length]? with
          | none => .ok (.message none)
          | some f =>
            if arrived.length < (greeting config version).length +
              (frames.take (delivered.length + 1)).flatten.length then .ok (.message none)
            else (stateless f).map fun m => .message (some m)) ∧
          ((d.step .decode).2.isPoisoned = true ↔ ∃ e, (d.step .decode).1 = .error e)) ∧
      (d.isPoisoned = true → (∃ e, (frames.map stateless)[delivered.length]? = some (.error e)) ∧
        ∀ more, (∀ op ∈ more, op ≠ .reset) →
          deliveredMessages (replies (history step d more)) = []) ∧
      (d.isPoisoned = false → d.handshakeDone = false →
        if arrived.length < 8 then d.decodeHandshake = (.ok none, d)
        else d.decodeHandshake.1 = .ok (some version) ∧
          d.decodeHandshake.2.handshakeDone = true ∧
          d.decodeHandshake.2.version = some version ∧
          d.decodeHandshake.2.buffer.unread = arrived.drop 8) ∧
      ∀ other, Reachable step (new config) other → other.isPoisoned = false →
        other.handshakeDone = false → other.buffer.unread.length < 8 ∨
          fromLE (other.buffer.unread.take 8) ∉ supportedVersions →
        other.decodeHandshake.2 = other := by
  intro stateless past d delivered arrived
  have streamed : ∀ op ∈ ops, streamCall op = true := by
    intro op member
    rcases calls op member with rfl | rfl | ⟨_, rfl⟩ <;> rfl
  have state := session_run (agreement_rule config version known whole) legal known ops streamed
    chunks
  have messages : delivered = (consumptions (history step (new config) ops)).filterMap
    Consumption.message := delivered_eq config ops
  refine ⟨?_, ?_, ?_, ?_, ?_⟩
  · rw [messages]
    rcases state.unrefused accepted with ⟨standing, held⟩ | ⟨_, taken, final⟩
    · rw [held.agrees.messages.1]
      exact standing.taken.map _
    · rw [final.messages.1]
      exact ((List.dropLast_prefix _).trans taken).map _
  · intro healthy done
    rcases state.unrefused accepted with ⟨standing, held⟩ | ⟨poisoned, _⟩
    · rw [messages, held.agrees.messages.2]
      exact held.next_decode standing legal whole chunks done
    · exact absurd (healthy_iff.mp healthy) poisoned
  · intro poisoned
    have marked : d.buffer.poisoned ≠ none := Option.isSome_iff_ne_none.mp poisoned
    refine ⟨?_, fun more others => poisoned_delivers_nothing marked more others⟩
    rcases state.unrefused accepted with ⟨standing, _⟩ | ⟨_, taken, final⟩
    · exact absurd standing.healthy marked
    · obtain ⟨_, f, e, found, decoded⟩ := final.messages
      obtain ⟨rest, split⟩ := taken
      refine ⟨e, ?_⟩
      have inside := List.getElem?_eq_some_iff.mp found
      rw [messages, List.getElem?_map, ← split, List.getElem?_append_left inside.1, found]
      exact congrArg some decoded
  · intro healthy pending
    rcases state.unrefused accepted with ⟨standing, _⟩ | ⟨poisoned, _⟩
    · exact pending_handshake standing known chunks pending
    · exact absurd (healthy_iff.mp healthy) poisoned
  · intro other reachable healthy pending missing
    exact handshake_takes_nothing (sound_of_reachable reachable) (healthy_iff.mp healthy) pending missing

theorem streaming_agrees_with_stateless_split_handshake :
    let config := Config.default true
    let leader : Bytes := [1, 0, 0, 0, 0, 0, 0, 0] ++ toLE 8 0
    let ops : List DecoderOp := [.feed [0xE5, 0x3F, 0x43], .decodeHandshake,
      .feed ([0x60, 0xD7, 0x4D, 0x10, 0x86] ++ leader), .decodeHandshake, .decode]
    let delivered := deliveredMessages (replies (history step (new config) ops))
    delivered.length = 1 ∧ delivered.map Except.ok <+:
      [leader].map (decodeMessage (config.stateless protocolVersionLegacy (by decide))) := by
  intro config leader ops delivered
  have legal : ∀ f ∈ [leader], wire.IsFrame config.maxMessageSize f := by
    intro f member
    rw [List.mem_singleton.mp member]
    exact ⟨by decide, by decide⟩
  have whole : ∀ f ∈ [leader], ∀ result,
      decodeMessage (config.stateless protocolVersionLegacy (by decide)) f =
        .ok (.response (.rows result)) → result.hasMore = false := by
    intro f member result decoded
    rw [List.mem_singleton.mp member] at decoded
    have request : decodeMessage (config.stateless protocolVersionLegacy (by decide)) leader =
      .ok (.request (.leader ⟨⟩)) := by decide
    rw [request] at decoded
    cases decoded
  have calls : ∀ op ∈ ops, op = .decode ∨ op = .decodeHandshake ∨ ∃ data, op = .feed data := by
    simp [ops]
  exact ⟨by decide, (streaming_agrees_with_stateless config protocolVersionLegacy (by decide)
    [leader] legal whole ops calls (by decide) (by decide)).1⟩

end DqliteWire
