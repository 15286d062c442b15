import DqliteWire.Lib.Framing
import DqliteWire.Lib.Machine

/-! A machine that reads a framed stream. Chunks arrive and the machine is polled in any order; what
it puts out for the frames it takes is a function of the stream alone. -/

namespace WireLib

/-- A machine over frames: it answers each frame it takes and may stop for good. A header that claims
more than the cap is refused without being taken, which stops the machine in some of its states. -/
structure FrameMachine (α State Output : Type) where
  take : State → List α → Output × Option State
  refuse : State → List α → Output
  survives : State → Bool

namespace FrameMachine

variable {α State Output : Type} (M : FrameMachine α State Output)

/-- The state after some frames; a stopped machine takes no more. -/
def after : Option State → List (List α) → Option State
  | none, _ => none
  | some s, [] => some s
  | some s, f :: frames => after (M.take s f).2 frames

def answers : Option State → List (List α) → List (List α × Output)
  | none, _ => []
  | some _, [] => []
  | some s, f :: frames => (f, (M.take s f).1) :: answers (M.take s f).2 frames

@[simp] theorem after_none (frames : List (List α)) : M.after none frames = none := by
  cases frames <;> rfl

@[simp] theorem answers_none (frames : List (List α)) : M.answers none frames = [] := by
  cases frames <;> rfl

@[simp] theorem after_nil (state : Option State) : M.after state [] = state := by
  cases state <;> rfl

@[simp] theorem answers_nil (state : Option State) : M.answers state [] = [] := by
  cases state <;> rfl

theorem after_append (state : Option State) (first second : List (List α)) :
    M.after state (first ++ second) = M.after (M.after state first) second := by
  induction first generalizing state with
  | nil => simp
  | cons f first ih =>
      cases state with
      | none => simp
      | some s => exact ih _

theorem answers_append (state : Option State) (first second : List (List α)) :
    M.answers state (first ++ second) =
      M.answers state first ++ M.answers (M.after state first) second := by
  induction first generalizing state with
  | nil => simp
  | cons f first ih =>
      cases state with
      | none => simp
      | some s => exact congrArg _ (ih _)

theorem answers_prefix (state : Option State) {first frames : List (List α)}
    (before : first <+: frames) : M.answers state first <+: M.answers state frames := by
  obtain ⟨more, rfl⟩ := before
  rw [answers_append]
  exact List.prefix_append _ _

theorem answers_frames (state : Option State) (frames : List (List α)) :
    (M.answers state frames).map Prod.fst <+: frames := by
  induction frames generalizing state with
  | nil => simp
  | cons f frames ih =>
      cases state with
      | none => exact List.nil_prefix
      | some s => exact List.cons_prefix_cons.mpr ⟨rfl, ih _⟩

theorem answers_all {state : Option State} {s : State} {frames : List (List α)}
    (runs : M.after state ((M.answers state frames).map Prod.fst) = some s) :
    (M.answers state frames).map Prod.fst = frames := by
  induction frames generalizing state with
  | nil => simp
  | cons f frames ih =>
      cases state with
      | none => simp at runs
      | some t => exact congrArg (f :: ·) (ih runs)

theorem answers_stopped {state : Option State} {first : List (List α)}
    (stopped : M.after state first = none) (more : List (List α)) :
    M.answers state (first ++ more) = M.answers state first := by
  rw [answers_append, stopped, answers_none, List.append_nil]

end FrameMachine

/-- The machine at work: the bytes it has not taken, and its state. -/
structure StreamReader (α State : Type) where
  unread : List α
  state : Option State

inductive ReaderOp (α : Type)
  | feed (chunk : List α)
  | poll
  /-- the reader is given up from outside -/
  | abort

inductive ReaderReply (α Output : Type)
  | unit
  | stopped
  | waiting
  | refused (output : Output)
  | took (frame : List α) (output : Output)

namespace StreamReader

variable {α State Output : Type} (F : Framing α) (cap : Nat) (M : FrameMachine α State Output)

def poll (r : StreamReader α State) : ReaderReply α Output × StreamReader α State :=
  match r.state with
  | none => (.stopped, r)
  | some s =>
    match F.head cap r.unread with
    | .incomplete => (.waiting, r)
    | .oversized => (.refused (M.refuse s r.unread), ⟨r.unread, if M.survives s then some s else none⟩)
    | .frame f rest => (.took f (M.take s f).1, ⟨rest, (M.take s f).2⟩)

def step (r : StreamReader α State) : ReaderOp α → ReaderReply α Output × StreamReader α State
  | .feed chunk => (.unit, ⟨r.unread ++ chunk, r.state⟩)
  | .poll => r.poll F cap M
  | .abort => (.unit, ⟨r.unread, none⟩)

def fed (ops : List (ReaderOp α)) : List α :=
  (ops.map fun op => match op with
    | .feed chunk => chunk
    | .poll | .abort => []).flatten

def taken (past : List (ReaderOp α × ReaderReply α Output)) : List (List α × Output) :=
  past.filterMap fun e => match e.2 with
    | .took f output => some (f, output)
    | .unit | .stopped | .waiting | .refused _ => none

theorem fed_append (first second : List (ReaderOp α)) : fed (first ++ second) = fed first ++ fed second := by
  simp [fed]

theorem taken_append (first second : List (ReaderOp α × ReaderReply α Output)) :
    taken (first ++ second) = taken first ++ taken second := List.filterMap_append

/-- The answers to the frames of a stream, up to the first boundary without one. -/
def transcript (state : Option State) (stream : List α) : List (List α × Output) :=
  M.answers state (F.cut cap stream).1

theorem transcript_prefix (state : Option State) {s t : List α} (before : s <+: t) :
    transcript F cap M state s <+: transcript F cap M state t :=
  M.answers_prefix state (F.cut_prefix cap before)

/-- Where a reader stands: it has taken the frames of `log` off the front of `stream` and answered
each as the machine does. -/
structure Reading (start : Option State) (stream : List α) (log : List (List α × Output))
    (r : StreamReader α State) : Prop where
  legal : ∀ f ∈ log.map Prod.fst, F.IsFrame cap f
  joined : (log.map Prod.fst).flatten ++ r.unread = stream
  answers : log = M.answers start (log.map Prod.fst)
  state : ∀ s ∈ r.state, M.after start (log.map Prod.fst) = some s

namespace Reading

variable {F cap M} {start : Option State} {stream : List α} {log : List (List α × Output)}
  {r : StreamReader α State}

theorem initially (r : StreamReader α State) : Reading F cap M r.state r.unread [] r where
  legal := by simp
  joined := rfl
  answers := by simp
  state := by
    intro s member
    rw [List.map_nil, M.after_nil]
    exact member

theorem feed (reading : Reading F cap M start stream log r) (chunk : List α) :
    Reading F cap M start (stream ++ chunk) log ⟨r.unread ++ chunk, r.state⟩ where
  legal := reading.legal
  joined := by rw [← reading.joined, List.append_assoc]
  answers := reading.answers
  state := reading.state

theorem stop (reading : Reading F cap M start stream log r) :
    Reading F cap M start stream log ⟨r.unread, none⟩ where
  legal := reading.legal
  joined := reading.joined
  answers := reading.answers
  state := by simp

theorem take (reading : Reading F cap M start stream log r) {s : State} (runs : r.state = some s)
    {f rest : List α} (found : F.head cap r.unread = .frame f rest) :
    Reading F cap M start stream (log ++ [(f, (M.take s f).1)]) ⟨rest, (M.take s f).2⟩ := by
  obtain ⟨whole, shape⟩ := F.head_frame cap found
  have before := reading.state s runs
  have frames : (log ++ [(f, (M.take s f).1)]).map Prod.fst = log.map Prod.fst ++ [f] := by simp
  constructor
  · intro g member
    rw [frames, List.mem_append] at member
    rcases member with earlier | now
    · exact reading.legal g earlier
    · rw [List.mem_singleton.mp now]
      exact shape
  · calc
      _ = (log.map Prod.fst).flatten ++ (f ++ rest) := by simp
      _ = stream := by rw [← whole, reading.joined]
  · rw [frames, M.answers_append, before, ← reading.answers]
    simp [FrameMachine.answers]
  · intro t member
    rw [frames, M.after_append, before]
    simpa [FrameMachine.after] using member

theorem prefix_transcript (reading : Reading F cap M start stream log r) :
    log <+: transcript F cap M start stream := by
  have inside : log.map Prod.fst <+: (F.cut cap stream).1 :=
    F.frames_prefix_cut cap reading.legal r.unread (by rw [reading.joined])
  rw [reading.answers]
  exact M.answers_prefix start inside

theorem cut_eq (reading : Reading F cap M start stream log r) :
    (F.cut cap stream).1 = log.map Prod.fst ++ (F.cut cap r.unread).1 := by
  rw [← reading.joined, F.cut_append_frames cap _ reading.legal]

theorem exhausted (reading : Reading F cap M start stream log r)
    (missing : ∀ f rest, F.head cap r.unread ≠ .frame f rest) :
    log = transcript F cap M start stream := by
  rw [transcript, reading.cut_eq, F.cut_of_not_frame cap missing, List.append_nil]
  exact reading.answers

theorem stopped (reading : Reading F cap M start stream log r)
    (finished : M.after start (log.map Prod.fst) = none) :
    log = transcript F cap M start stream := by
  rw [transcript, reading.cut_eq, M.answers_stopped finished]
  exact reading.answers

theorem poll (reading : Reading F cap M start stream log r) :
    Reading F cap M start stream (log ++ taken [(.poll, (r.poll F cap M).1)]) (r.poll F cap M).2 := by
  unfold StreamReader.poll
  cases runs : r.state with
  | none => simpa [taken] using reading
  | some s =>
      cases found : F.head cap r.unread with
      | incomplete => simpa [taken] using reading
      | oversized =>
          simp only [taken, List.filterMap_cons, List.filterMap_nil, List.append_nil]
          split
          · rw [← runs]
            exact reading
          · exact reading.stop
      | frame f rest => simpa [taken] using reading.take runs found

end Reading

/-- A reader that has stopped of itself: it answered its last frame, or stands in front of a header
it refuses. -/
def Spent (start : Option State) (log : List (List α × Output)) (r : StreamReader α State) : Prop :=
  M.after start (log.map Prod.fst) = none ∨ F.head cap r.unread = .oversized

section Run

variable {F cap M}

theorem Reading.step {start : Option State} {stream : List α} {log : List (List α × Output)}
    {r : StreamReader α State} (reading : Reading F cap M start stream log r) (op : ReaderOp α) :
    Reading F cap M start (stream ++ fed [op]) (log ++ taken [(op, (r.step F cap M op).1)])
      (r.step F cap M op).2 := by
  cases op with
  | feed chunk => simpa [StreamReader.step, fed, taken] using reading.feed chunk
  | poll => simpa [StreamReader.step, fed] using reading.poll
  | abort => simpa [StreamReader.step, fed, taken] using reading.stop

/-- A call other than `abort` stops the machine only by an answer or by a refusal. -/
theorem Reading.spent {start : Option State} {stream : List α} {log : List (List α × Output)}
    {r : StreamReader α State} (reading : Reading F cap M start stream log r)
    (before : r.state = none → Spent F cap M start log r) {op : ReaderOp α} (kept : op ≠ .abort)
    (halted : (r.step F cap M op).2.state = none) :
    Spent F cap M start (log ++ taken [(op, (r.step F cap M op).1)]) (r.step F cap M op).2 := by
  cases op with
  | abort => exact absurd rfl kept
  | feed chunk =>
      rcases before halted with finished | large
      · left
        simpa [StreamReader.step, taken] using finished
      · right
        exact F.head_oversized_append cap large chunk
  | poll =>
      simp only [StreamReader.step, StreamReader.poll] at halted ⊢
      cases runs : r.state with
      | none => simpa [taken] using before runs
      | some s =>
          cases found : F.head cap r.unread with
          | incomplete => simp [runs, found] at halted
          | oversized =>
              right
              exact found
          | frame f rest =>
              left
              simp only [runs, found] at halted
              simp [taken, M.after_append, reading.state s runs, FrameMachine.after, halted]

/-- Whatever the chunks and whenever it is polled, a reader takes the frames of the stream in order
and answers each as the machine does; a stopped one was given up, or has stopped of itself. -/
theorem reading_run (r : StreamReader α State) (ops : List (ReaderOp α)) :
    let log := taken (replies (history (StreamReader.step F cap M) r ops))
    let last := final (StreamReader.step F cap M) r ops
    Reading F cap M r.state (r.unread ++ fed ops) log last ∧
      (r.state ≠ none → .abort ∉ ops → last.state = none → Spent F cap M r.state log last) := by
  intro log last
  have whole := @run_invariant _ _ _ (StreamReader.step F cap M)
    (fun past last => Reading F cap M r.state (r.unread ++ fed (past.map Event.op)) (taken (replies past)) last ∧
      (r.state ≠ none → .abort ∉ past.map Event.op → last.state = none →
        Spent F cap M r.state (taken (replies past)) last))
    (fun _ => True) r ?_ ?_ ops (by simp)
  · rw [history_ops] at whole
    exact whole
  · constructor
    · simpa [fed, taken, replies] using Reading.initially r
    · intro runs _ halted
      exact absurd halted runs
  · intro past last op _ held
    obtain ⟨reading, spent⟩ := held
    rw [replies_concat, taken_append, List.map_append, fed_append, ← List.append_assoc]
    refine ⟨reading.step op, ?_⟩
    intro runs kept halted
    rw [List.mem_append, not_or] at kept
    apply reading.spent (spent runs kept.1) _ halted
    intro same
    exact kept.2 (by simp [event, same])

def Drained (F : Framing α) (cap : Nat) (r : StreamReader α State) : Prop :=
  r.state = none ∨ ∀ f rest, F.head cap r.unread ≠ .frame f rest

/-- A reader that was not given up and has nothing left to take has answered all the stream holds. -/
theorem drained_complete (r : StreamReader α State) (runs : r.state ≠ none) (ops : List (ReaderOp α))
    (kept : .abort ∉ ops) (drained : Drained F cap (final (StreamReader.step F cap M) r ops)) :
    taken (replies (history (StreamReader.step F cap M) r ops)) =
      transcript F cap M r.state (r.unread ++ fed ops) := by
  obtain ⟨reading, spent⟩ := reading_run r ops
  rcases drained with halted | missing
  · rcases spent runs kept halted with finished | large
    · exact reading.stopped finished
    · apply reading.exhausted
      simp [large]
  · exact reading.exhausted missing

end Run

end StreamReader

end WireLib
