import DqliteWire.Lines
import DqliteWire.Lifecycle

/-! An interrupt inside a call of the buffer. For each method: what every interruption point leaves
behind, and that the method, left alone, does what the model of its module says. -/

namespace DqliteWire

open WireLib WireLib.Interruptible

namespace ReadBuffer

/-- No byte is lost or read again, and the skip counter stands, unless the buffer is poisoned. -/
def Intact (b after : ReadBuffer) : Prop :=
  after.poisoned ≠ none ∨ after.unread = b.unread ∧ after.skipRemaining = b.skipRemaining

theorem Intact.refl (b : ReadBuffer) : b.Intact b := Or.inr ⟨rfl, rfl⟩

end ReadBuffer

namespace Lines

/-- The interrupt came at one of these lines of `file`, or in a call made there. -/
def Within (file : Nat → Line) (first last : Nat) (trace : List Line) : Prop :=
  ∃ n rest, trace = file n :: rest ∧ first ≤ n ∧ n ≤ last

@[simp] theorem within_buffer {first last n : Nat} {rest : List Line} :
    Within .buffer first last (.buffer n :: rest) ↔ first ≤ n ∧ n ≤ last := by
  constructor
  · rintro ⟨m, others, same, bounds⟩
    cases same
    exact bounds
  · intro bounds
    exact ⟨n, rest, rfl, bounds⟩

@[simp] theorem within_codec {first last n : Nat} {rest : List Line} :
    Within .codec first last (.codec n :: rest) ↔ first ≤ n ∧ n ≤ last := by
  constructor
  · rintro ⟨m, others, same, bounds⟩
    cases same
    exact bounds
  · intro bounds
    exact ⟨n, rest, rfl, bounds⟩

theorem Within.mono {file : Nat → Line} {first last first' last' : Nat} {trace : List Line}
    (within : Within file first last trace) (lower : first' ≤ first) (upper : last ≤ last') :
    Within file first' last' trace := by
  obtain ⟨n, rest, same, after, before⟩ := within
  exact ⟨n, rest, same, lower.trans after, before.trans upper⟩

theorem poison_covers (b : ReadBuffer) (error : Exn) :
    Covers (poison error) b
      (fun trace b' => (trace = [.buffer 63] ∨ trace = [.buffer 64]) ∧ b' = b)
      (fun r b' => (r, b') = (.ok (), b.poison error)) := by
  unfold poison
  by_cases healthy : b.poisoned = none
  · simp [covers_line_bind, covers_get_bind, healthy, covers_modify, ReadBuffer.poison]
  · simp [covers_line_bind, covers_get_bind, healthy, covers_pure, ReadBuffer.poison]

theorem poisonAndRaise_leaves {α : Type} (method : String) (clause first : Nat)
    (trace : List Line) (b : ReadBuffer) :
    Leaves (fun trace' b' => trace' = trace ∧ b'.poisoned ≠ none)
      ((poisonAndRaise method clause first (.interrupted trace) : BufferCode α) none b) := by
  unfold poisonAndRaise
  simp only [line_bind_none, get_bind]
  split
  · exact ⟨_, _, rfl, rfl, by simp⟩
  · rename_i poisoned
    exact ⟨_, _, rfl, rfl, poisoned⟩

/-- A `try` block of the buffer, which raises nothing itself: an interrupt inside of it poisons. -/
theorem guarded_covers {α : Type} {body : BufferCode α} {b : ReadBuffer} {method : String}
    {clause first : Nat} {P : List Line → Prop} {N : Except Exn α → ReadBuffer → Prop}
    (covered : Covers body b (fun trace _ => P trace) N) (returns : ∀ e b', ¬ N (.error e) b') :
    Covers (tryExcept body (poisonAndRaise method clause first)) b
      (fun trace b' => P trace ∧ b'.poisoned ≠ none) N := by
  refine Covers.tryExcept (covered.mono ?_ ?_)
  · intro trace b' held
    obtain ⟨_, b'', same, rfl, poisoned⟩ :=
      poisonAndRaise_leaves (α := α) method clause first trace b'
    exact ⟨_, b'', same, held, poisoned⟩
  · intro r b' exit
    cases r with
    | ok value => exact exit
    | error e => exact absurd exit (returns e b')

theorem compact_covers (b : ReadBuffer) :
    Covers compact b (fun trace _ => Within .buffer 389 391 trace)
      (fun r b' => (r, b') = (.ok (), { b with data := b.data.drop b.pos, pos := 0 })) := by
  simp [compact, covers_line_bind, covers_get_bind, covers_modify_bind, covers_modify]

theorem maybeCompact_covers (b : ReadBuffer) :
    Covers maybeCompact b
      (fun trace b' => Within .buffer 382 391 trace ∧ (b'.poisoned ≠ none ∨ b' = b))
      (fun r b' => (r, b') = (.ok (), b.maybeCompact)) := by
  unfold maybeCompact ReadBuffer.maybeCompact
  simp only [covers_line_bind, covers_get_bind, within_buffer]
  refine ⟨by simp, ?_⟩
  by_cases low : b.pos ≤ compactThreshold
  · simp [if_pos low, covers_line]
  · simp only [if_neg low, covers_line_bind, within_buffer]
    refine ⟨by simp, ?_⟩
    by_cases half : b.pos < b.data.length / 2
    · simp [if_pos half, covers_line]
    · simp only [if_neg half, covers_line_bind, within_buffer]
      refine ⟨by simp, (guarded_covers (compact_covers b) (by simp)).mono ?_ ?_⟩
      · rintro trace b' ⟨within, poisoned⟩
        exact ⟨within.mono (by omega) (by omega), Or.inl poisoned⟩
      · exact fun r b' same => same

theorem append_covers (data : Bytes) (b : ReadBuffer) :
    Covers (append data) b (fun trace _ => Within .buffer 148 160 trace)
      (fun r b' => (r, b') = (.ok (), b.maybeCompact.extend data)) := by
  refine Covers.call_bind (by simp) ((maybeCompact_covers b).mono (by simp) ?_)
  intro r b' same
  cases same
  simp [After, covers_line_bind, covers_modify]

theorem appendRest_covers (data : Bytes) (b : ReadBuffer) :
    Covers (appendRest data) b (fun trace _ => Within .buffer 148 160 trace)
      (fun r b' => (r, b') =
        (.ok (), if data = [] then b else b.maybeCompact.extend data)) := by
  unfold appendRest
  by_cases empty : data = []
  · simp [empty, covers_line_bind, covers_line]
  · simp only [covers_line_bind, if_neg empty, within_buffer]
    exact ⟨by simp, append_covers data b⟩

def absorbed (b : ReadBuffer) (data : Bytes) : ReadBuffer :=
  if 0 < b.skipRemaining then
    let rest := data.drop (min data.length b.skipRemaining)
    let b := b.countDiscarded (min data.length b.skipRemaining)
    if rest = [] then b else b.maybeCompact.extend rest
  else b.maybeCompact.extend data

theorem absorb_covers (data : Bytes) (b : ReadBuffer) :
    Covers (absorb data) b (fun trace _ => Within .buffer 148 160 trace)
      (fun r b' => (r, b') = (.ok (), absorbed b data)) := by
  unfold absorb absorbed
  simp only [covers_line_bind, covers_get_bind, within_buffer]
  refine ⟨by simp, ?_⟩
  by_cases skipping : 0 < b.skipRemaining
  · simp only [if_pos skipping, covers_line_bind, covers_get_bind, covers_modify_bind,
      within_buffer]
    refine ⟨by simp, by simp, by simp, by simp, ?_⟩
    have rest := appendRest_covers (data.drop (min data.length b.skipRemaining))
      (b.countDiscarded (min data.length b.skipRemaining))
    cases deferred : b.poisonAfterSkip with
    | none => simpa [deferred, ReadBuffer.countDiscarded] using rest
    | some cause =>
        by_cases fires : b.skipRemaining - min data.length b.skipRemaining = 0
        · simpa [deferred, fires, ReadBuffer.countDiscarded, covers_line_bind,
            covers_modify_bind] using rest
        · simpa [deferred, fires, ReadBuffer.countDiscarded] using rest
  · simp only [if_neg skipping]
    exact append_covers data b

def poisonLines (l : Line) : List (List Line) := [[l], [l, .buffer 63], [l, .buffer 64]]

theorem within_poisonLines {first last l : Nat} {trace : List Line}
    (member : trace ∈ poisonLines (.buffer l)) (lower : first ≤ l) (upper : l ≤ last) :
    Within .buffer first last trace := by
  simp only [poisonLines, List.mem_cons, List.not_mem_nil, or_false] at member
  rcases member with rfl | rfl | rfl <;> exact within_buffer.mpr ⟨lower, upper⟩

/-- Where a reject arm of `feed` has cleared the skip counter and not yet poisoned. -/
def rejectLines (stores : Nat) : List (List Line) :=
  [.buffer (stores + 1)] :: poisonLines (.buffer (stores + 2))

def feedLines : List (List Line) := rejectLines 122 ++ rejectLines 143

theorem poison_poisons (b : ReadBuffer) (error : Exn) : (b.poison error).poisoned ≠ none := by
  unfold ReadBuffer.poison
  split
  · exact Option.some_ne_none error
  · assumption

theorem selfPoison_covers {α : Type} {b : ReadBuffer} (error : Exn)
    {l : Nat} {I : List Line → ReadBuffer → Prop} {N : Except Exn α → ReadBuffer → Prop}
    (points : ∀ trace ∈ poisonLines (.buffer l), I trace b)
    (last : I [.buffer (l + 1)] (b.poison error)) (exit : N (.error error) (b.poison error)) :
    Covers (do
      call (.buffer l) (poison error)
      line (.buffer (l + 1))
      raise error : BufferCode α) b I N := by
  refine Covers.call_bind (points _ (by simp [poisonLines]))
    ((poison_covers b error).mono ?_ ?_)
  · rintro trace b' ⟨rfl | rfl, rfl⟩ <;> exact points _ (by simp [poisonLines])
  · intro r b' same
    cases same
    exact covers_line_bind.mpr ⟨last, covers_raise.mpr exit⟩

theorem rejectFeed_covers {b : ReadBuffer} (healthy : b.poisoned = none) (error : Exn)
    {look stores : Nat} (later : look + 2 < stores) :
    Covers (rejectFeed error look stores) b
      (fun trace b' => Within .buffer look (stores + 3) trace ∧
        (b.Intact b' ↔ ¬ (0 < b.skipRemaining ∧ trace ∈ rejectLines stores)))
      (fun r b' => (r, b') = (.error error, b.rejectFeed error)) := by
  have before (n : Nat) (early : n ≤ stores) : [Line.buffer n] ∉ rejectLines stores := by
    simp [rejectLines, poisonLines]
    omega
  have after : [Line.buffer (stores + 3)] ∉ rejectLines stores := by
    simp [rejectLines, poisonLines]
  unfold rejectFeed ReadBuffer.rejectFeed
  simp only [covers_line_bind, covers_get_bind, within_buffer, before look (by omega),
    before (look + 1) (by omega), ReadBuffer.Intact.refl, and_false, not_false_eq_true, and_true]
  refine ⟨by omega, by omega, ?_⟩
  by_cases inflight : 0 < b.skipRemaining ∨ 0 < b.available
  · simp only [if_pos inflight, covers_line_bind, within_buffer, before (look + 2) (by omega),
      ReadBuffer.Intact.refl, and_false, not_false_eq_true, and_true]
    refine ⟨by omega, ?_⟩
    by_cases skipping : 0 < b.skipRemaining
    · have cleared (c : ReadBuffer) (alive : c.poisoned = none) (zero : c.skipRemaining = 0) :
          ¬ b.Intact c := by
        rintro (poisoned | ⟨_, same⟩)
        · exact poisoned alive
        · omega
      simp only [if_pos skipping, covers_line_bind, covers_modify_bind, within_buffer,
        before stores le_rfl, ReadBuffer.Intact.refl, and_false, not_false_eq_true, and_true]
      refine ⟨by omega, ⟨by omega, iff_of_false (cleared _ healthy rfl) ?_⟩, ?_⟩
      · simp [skipping, rejectLines]
      · apply selfPoison_covers
        · intro trace member
          refine ⟨within_poisonLines member (by omega) (by omega),
            iff_of_false (cleared _ healthy rfl) (not_not.mpr ⟨skipping, ?_⟩)⟩
          exact List.mem_cons_of_mem _ member
        · refine ⟨within_buffer.mpr ⟨by omega, by omega⟩,
            iff_of_true (Or.inl (poison_poisons _ _)) ?_⟩
          simp [after]
        · rfl
    · simp only [if_neg skipping]
      apply selfPoison_covers
      · intro trace member
        exact ⟨within_poisonLines member (by omega) (by omega),
          iff_of_true (ReadBuffer.Intact.refl b) (by simp [skipping])⟩
      · exact ⟨within_buffer.mpr ⟨by omega, by omega⟩,
          iff_of_true (Or.inl (poison_poisons _ _)) (by simp [skipping])⟩
      · rfl
  · simp only [if_neg inflight, covers_line_bind, covers_raise, within_buffer, after,
      ReadBuffer.Intact.refl, and_false, not_false_eq_true, and_true]
    omega

theorem checkPoisoned_covers (b : ReadBuffer) :
    Covers checkPoisoned b
      (fun trace b' => (b.poisoned = none → trace = [.buffer 75]) ∧ b' = b)
      (fun r b' => (r, b') = (b.checkPoisoned, b)) := by
  unfold checkPoisoned ReadBuffer.checkPoisoned
  simp only [covers_line_bind, covers_get_bind]
  refine ⟨by simp, ?_⟩
  cases poisoned : b.poisoned with
  | none => simp [covers_pure]
  | some cause =>
      refine Covers.call_bind (by simp) ?_
      simp [streamErrorInit, covers_line_bind, covers_line, After, covers_raise]

/-- A method that starts with the poison check, of a buffer that is healthy or refuses. -/
theorem checked_covers {α : Type} {b : ReadBuffer} {l : Nat} {f : Unit → BufferCode α}
    {P : List Line → ReadBuffer → Prop} {N : Except Exn α → ReadBuffer → Prop}
    (points : P [.buffer l] b ∧ P [.buffer l, .buffer 75] b)
    (refused : ∀ cause, b.poisoned = some cause → N (.error (ReadBuffer.poisonedError cause)) b)
    (next : b.poisoned = none → Covers (f ()) b P N) :
    Covers (call (.buffer l) checkPoisoned >>= f) b
      (fun trace b' => b.poisoned = none → P trace b') N := by
  refine Covers.call_bind (fun _ => points.1) ((checkPoisoned_covers b).mono ?_ ?_)
  · rintro trace b' ⟨shape, rfl⟩ healthy
    rw [shape healthy]
    exact points.2
  · intro r b' same
    cases same
    cases poisoned : b.poisoned with
    | none =>
        have covered := (next poisoned).mono (fun _ _ held (_ : b.poisoned = none) => held)
          fun _ _ exit => exit
        simpa [ReadBuffer.checkPoisoned, poisoned, After] using covered
    | some cause => simpa [ReadBuffer.checkPoisoned, poisoned, After] using refused cause poisoned

theorem outside_rejectLines (stores : Nat) {first last : Nat} {trace : List Line}
    (within : Within .buffer first last trace) (outside : last ≤ stores ∨ stores + 2 < first) :
    trace ∉ rejectLines stores := by
  obtain ⟨n, rest, rfl, lower, upper⟩ := within
  simp only [rejectLines, poisonLines, List.mem_cons, List.cons.injEq, Line.buffer.injEq,
    List.not_mem_nil, or_false]
  omega

theorem feed_covers (data : Bytes) (b : ReadBuffer) :
    Covers (feed data) b
      (fun trace b' => b.poisoned = none →
        (b.Intact b' ↔ ¬ (0 < b.skipRemaining ∧ trace ∈ feedLines)))
      (fun r b' => (r, b') = b.feed data) := by
  have here (n : Nat) (outside : n ≤ 122 ∨ 124 < n ∧ n ≤ 143 ∨ 145 < n) :
      b.Intact b ↔ ¬ (0 < b.skipRemaining ∧ [Line.buffer n] ∈ feedLines) := by
    have alone : Within .buffer n n [Line.buffer n] := within_buffer.mpr ⟨le_rfl, le_rfl⟩
    simp [ReadBuffer.Intact.refl, feedLines, outside_rejectLines 122 alone (by omega),
      outside_rejectLines 143 alone (by omega)]
  unfold feed
  apply checked_covers
  · simp [ReadBuffer.Intact.refl, feedLines, rejectLines, poisonLines]
  · intro cause poisoned
    simp [ReadBuffer.feed, ReadBuffer.checkPoisoned, poisoned]
  · intro healthy
    have rejected (error : Exn) {look stores : Nat}
        (arm : look = 119 ∧ stores = 122 ∨ look = 139 ∧ stores = 143) :
        Covers (rejectFeed error look stores) b
          (fun trace b' => b.Intact b' ↔ ¬ (0 < b.skipRemaining ∧ trace ∈ feedLines))
          (fun r b' => (r, b') = (.error error, b.rejectFeed error)) := by
      refine (rejectFeed_covers healthy error (by omega)).mono ?_ fun r b' same => same
      rintro trace b' ⟨within, decided⟩
      rw [decided, feedLines, List.mem_append]
      rcases arm with ⟨rfl, rfl⟩ | ⟨rfl, rfl⟩
      · simp [outside_rejectLines 143 within (by decide)]
      · simp [outside_rejectLines 122 within (by decide)]
    simp only [ReadBuffer.feed, ReadBuffer.checkPoisoned, healthy, covers_line_bind,
      covers_get_bind]
    refine ⟨here 111 (by decide), ?_⟩
    by_cases double : 2 * b.maxMessageSize < data.length
    · simp only [if_pos double, covers_line_bind]
      exact ⟨here 112 (by decide), rejected _ (Or.inl ⟨rfl, rfl⟩)⟩
    · simp only [if_neg double, covers_line_bind]
      refine ⟨here 129 (by decide), here _ (by split <;> decide), here 133 (by decide),
        here 134 (by decide), ?_⟩
      by_cases exceeded : b.maxMessageSize < b.available +
          (if 0 < b.skipRemaining then data.length - b.skipRemaining else data.length)
      · simp only [if_pos exceeded, covers_line_bind]
        exact ⟨here 135 (by decide), rejected _ (Or.inr ⟨rfl, rfl⟩)⟩
      · simp only [if_neg exceeded, covers_line_bind]
        refine ⟨here 147 (by decide),
          (guarded_covers (absorb_covers data b) (by simp)).mono ?_ ?_⟩
        · rintro trace b' ⟨within, poisoned⟩
          refine iff_of_true (Or.inl poisoned) ?_
          simp [feedLines, outside_rejectLines 122 within (by decide),
            outside_rejectLines 143 within (by decide)]
        · intro r b' same
          rw [same]
          unfold absorbed
          split
          · simp only
            split <;> rfl
          · rfl

/-- What an interrupt leaves of a call that ends with a `return` outside its `try` block. -/
inductive Cut (b : ReadBuffer) (returns : Nat) (Returned : ReadBuffer → Prop) :
    List Line → ReadBuffer → Prop
  | untouched {trace : List Line} (elsewhere : trace ≠ [.buffer returns]) :
      Cut b returns Returned trace b
  | poisoned {trace : List Line} {after : ReadBuffer} (elsewhere : trace ≠ [.buffer returns])
      (poisoned : after.poisoned ≠ none) : Cut b returns Returned trace after
  | returning {after : ReadBuffer} (returned : Returned after) :
      Cut b returns Returned [.buffer returns] after

theorem Within.elsewhere {first last n : Nat} {trace : List Line}
    (within : Within .buffer first last trace) (outside : last < n) : trace ≠ [.buffer n] := by
  rintro rfl
  have bounds := within_buffer.mp within
  omega

theorem consume_covers (n first : Nat) (b : ReadBuffer) :
    Covers (consume n first) b (fun trace _ => Within .buffer first (first + 2) trace)
      (fun r b' => (r, b') = (.ok (b.slice n), (b.advance n).maybeCompact)) := by
  unfold consume
  simp only [covers_line_bind, covers_get_bind, covers_modify_bind, within_buffer]
  refine ⟨by omega, by omega, Covers.call_bind (by simp) ((maybeCompact_covers _).mono ?_ ?_)⟩
  · simp
  · intro r b' same
    cases same
    simp [After, covers_pure]

def sizeOfNext (b : ReadBuffer) : Option Nat :=
  if b.available < headerSize then none else some (headerSize + fromLE (b.slice 4) * wordSize)

theorem nextSize_covers {α : Type} {first : Nat} {b : ReadBuffer}
    {f : Option Nat → BufferCode α} {P : List Line → ReadBuffer → Prop}
    {N : Except Exn α → ReadBuffer → Prop}
    (points : ∀ trace, Within .buffer first (first + 7) trace → P trace b)
    (refused : ∀ cause, b.poisoned = some cause → N (.error (ReadBuffer.poisonedError cause)) b)
    (next : b.poisoned = none → Covers (f (sizeOfNext b)) b P N) :
    Covers (nextSize first >>= f) b (fun trace b' => b.poisoned = none → P trace b') N := by
  refine Covers.bind (checked_covers ?_ ?_ ?_)
  · exact ⟨points _ (by simp), points _ (by simp)⟩
  · exact refused
  · intro healthy
    have here (n : Nat) (lower : first ≤ n) (upper : n ≤ first + 7) (rest : List Line) :
        P (.buffer n :: rest) b := points _ (within_buffer.mpr ⟨lower, upper⟩)
    have later := (next healthy).mono (fun _ _ held (_ : b.poisoned = none) => held)
      fun _ _ exit => exit
    unfold sizeOfNext at later
    simp only [covers_line_bind, covers_get_bind]
    refine ⟨here _ (by omega) (by omega) _, here _ (by omega) (by omega) _, ?_⟩
    by_cases short : b.available < headerSize
    · simp only [if_pos short, covers_line_bind, covers_pure] at later ⊢
      exact ⟨here _ (by omega) (by omega) _, later⟩
    · simp only [if_neg short, covers_line_bind] at later ⊢
      refine ⟨here _ (by omega) (by omega) _,
        Covers.call_bind (here _ (by omega) (by omega) _) ?_⟩
      simp only [checkTornSize, covers_line_bind, if_neg b.slice_untorn, covers_pure, After]
      exact ⟨here _ (by omega) (by omega) _, here _ (by omega) (by omega) _, later⟩

structure Lost (b after : ReadBuffer) : Prop where
  healthy : after.poisoned = none
  consumed : after.unread ≠ b.unread

theorem Lost.not_intact {b after : ReadBuffer} (lost : Lost b after) : ¬ b.Intact after := by
  rintro (poisoned | ⟨same, _⟩)
  · exact poisoned lost.healthy
  · exact lost.consumed same

@[simp] theorem unread_maybeCompact (b : ReadBuffer) : b.maybeCompact.unread = b.unread :=
  congrArg ByteQueue.unread (ReadBuffer.queue_maybeCompact b)

@[simp] theorem poisoned_maybeCompact (b : ReadBuffer) : b.maybeCompact.poisoned = b.poisoned :=
  congrArg ByteQueue.poisoned (ReadBuffer.queue_maybeCompact b)

theorem unread_advance (b : ReadBuffer) (n : Nat) : (b.advance n).unread = b.unread.drop n :=
  congrArg ByteQueue.unread (b.queue_advance n)

theorem advance_lost {b c : ReadBuffer} {n : Nat} (healthy : c.poisoned = none)
    (positive : 0 < n) (fits : n ≤ b.available) (consumed : c.unread = b.unread.drop n) :
    Lost b c.maybeCompact := by
  refine ⟨(poisoned_maybeCompact c).trans healthy, fun same => ?_⟩
  rw [unread_maybeCompact, consumed] at same
  have lengths := congrArg List.length same
  rw [List.length_drop, ← ReadBuffer.available_eq] at lengths
  omega

theorem readMessage_covers (b : ReadBuffer) :
    Covers readMessage b
      (fun trace b' => b.poisoned = none → Cut b 267
        (fun after => ∃ data, b.readMessage = (.ok (some data), after)) trace b')
      (fun r b' => (r, b') = b.readMessage) := by
  have here (n : Nat) (early : n < 267) : Cut b 267
      (fun after => ∃ data, b.readMessage = (.ok (some data), after)) [Line.buffer n] b := by
    refine .untouched ?_
    simp
    omega
  unfold readMessage
  apply nextSize_covers
  · intro trace within
    exact .untouched (within.elsewhere (by decide))
  · intro cause poisoned
    simp [ReadBuffer.readMessage, ReadBuffer.checkPoisoned, poisoned]
  · intro healthy
    have reads := ReadBuffer.readMessage.eq_1 b
    unfold sizeOfNext
    simp only [ReadBuffer.checkPoisoned, healthy, ReadBuffer.checkTornSize_eq] at reads
    by_cases short : b.available < headerSize
    · simp only [if_pos short, covers_pure] at reads ⊢
      exact reads.symm
    · simp only [if_neg short, covers_line_bind, covers_get_bind] at reads ⊢
      refine ⟨here 245 (by decide), ?_⟩
      by_cases large : b.maxMessageSize < headerSize + fromLE (b.slice 4) * wordSize
      · simp only [if_pos large, covers_line_bind, covers_raise] at reads ⊢
        exact ⟨here 248 (by decide), reads.symm⟩
      · simp only [if_neg large, covers_line_bind] at reads ⊢
        refine ⟨here 252 (by decide), ?_⟩
        by_cases missing : b.available < headerSize + fromLE (b.slice 4) * wordSize
        · simp only [if_pos missing, covers_line_bind, covers_pure] at reads ⊢
          exact ⟨here 253 (by decide), reads.symm⟩
        · simp only [if_neg missing, covers_line_bind] at reads ⊢
          refine ⟨here 255 (by decide),
            Covers.bind ((guarded_covers (consume_covers _ 256 b) (by simp)).mono ?_ ?_)⟩
          · rintro trace b' ⟨within, poisoned⟩
            exact .poisoned (within.elsewhere (by decide)) poisoned
          · intro r b' same
            cases same
            simp only [After, covers_line_bind, covers_pure]
            exact ⟨.returning ⟨_, reads⟩, reads.symm⟩

/-- What the `try` block of `skip_message` leaves to its end: the reply of a `return` inside, or the
buffer of which the last line reads the counter. -/
def Skipped (b : ReadBuffer) (returned : Except Exn (Option Bool)) (after : ReadBuffer) : Prop :=
  (returned = .ok none ∧ Lost b after ∧
      b.skipMessage = (.ok (decide (after.skipRemaining = 0)), after)) ∨
    ∃ value, returned = .ok (some value) ∧ b.skipMessage = (.ok value, after)

theorem skipNext_covers {b : ReadBuffer} (capped : 1 ≤ b.maxMessageSize)
    (healthy : b.poisoned = none) (header : ¬ b.available < headerSize)
    (skippable : ¬ (headerSize + fromLE (b.slice 4) * wordSize ≤ b.maxMessageSize ∧
      b.available < headerSize + fromLE (b.slice 4) * wordSize)) :
    Covers (skipNext (headerSize + fromLE (b.slice 4) * wordSize)) b
      (fun trace _ => Within .buffer 293 325 trace) (Skipped b) := by
  have skips := ReadBuffer.skipMessage.eq_1 b
  simp only [ReadBuffer.checkPoisoned, healthy, ReadBuffer.checkTornSize_eq, if_neg header,
    if_neg skippable] at skips
  have positive : 0 < headerSize + fromLE (b.slice 4) * wordSize := Nat.add_pos_left (by decide) _
  generalize headerSize + fromLE (b.slice 4) * wordSize = totalSize at skips skippable positive ⊢
  have compacts (c : ReadBuffer) {f : Unit → BufferCode (Option Bool)}
      (next : Covers (f ()) c.maybeCompact (fun trace _ => Within .buffer 293 325 trace)
        (Skipped b)) (l : Nat) (range : 293 ≤ l ∧ l ≤ 325) :
      Covers (call (.buffer l) maybeCompact >>= f) c (fun trace _ => Within .buffer 293 325 trace)
        (Skipped b) := by
    refine Covers.call_bind (within_buffer.mpr range) ((maybeCompact_covers c).mono ?_ ?_)
    · intro trace b' _
      exact within_buffer.mpr range
    · intro r b' same
      cases same
      exact next
  unfold skipNext
  simp only [covers_line_bind, covers_get_bind, within_buffer]
  refine ⟨by decide, ?_⟩
  by_cases normal : totalSize ≤ b.maxMessageSize
  · simp only [if_pos normal, covers_line_bind, covers_modify_bind, within_buffer] at skips ⊢
    refine ⟨by decide, compacts _ ?_ 325 (by decide)⟩
    have lost := advance_lost (c := b.advance totalSize) healthy positive (by omega)
      (unread_advance b totalSize)
    exact covers_pure.mpr (Or.inl ⟨rfl, lost, skips⟩)
  · simp only [if_neg normal] at skips ⊢
    unfold skipOversized
    simp only [covers_line_bind, covers_get_bind, covers_modify_bind, within_buffer]
    refine ⟨by decide, by decide, by decide, by decide, by decide, ?_⟩
    have positive_now : 0 < min (min totalSize b.maxMessageSize) b.available := by
      simp only [headerSize] at header
      omega
    by_cases cut : min totalSize b.maxMessageSize < totalSize
    · simp only [if_pos cut, covers_line_bind, within_buffer] at skips ⊢
      refine ⟨by decide, ?_⟩
      by_cases done : min totalSize b.maxMessageSize -
          min (min totalSize b.maxMessageSize) b.available = 0
      · simp only [if_pos done] at skips ⊢
        refine Covers.call_bind (by simp) ((poison_covers _ _).mono ?_ ?_)
        · intro trace b' _
          exact within_buffer.mpr (by decide)
        · intro r b' same
          cases same
          refine compacts _ ?_ 317 (by decide)
          simp only [covers_line_bind, covers_pure, within_buffer]
          exact ⟨by decide, Or.inr ⟨false, rfl, skips⟩⟩
      · simp only [if_neg done, covers_line_bind, covers_modify_bind, within_buffer] at skips ⊢
        refine ⟨by decide, compacts _ ?_ 325 (by decide)⟩
        refine covers_pure.mpr (Or.inl ⟨rfl, ?_, skips⟩)
        exact advance_lost healthy positive_now (Nat.min_le_right _ _) (unread_advance b _)
    · simp only [if_neg cut] at skips ⊢
      refine compacts _ ?_ 325 (by decide)
      refine covers_pure.mpr (Or.inl ⟨rfl, ?_, skips⟩)
      exact advance_lost healthy positive_now (Nat.min_le_right _ _) (unread_advance b _)

theorem skipMessage_covers {b : ReadBuffer} (capped : 1 ≤ b.maxMessageSize) :
    Covers skipMessage b
      (fun trace b' => b.poisoned = none → Cut b 334 (Lost b) trace b')
      (fun r b' => (r, b') = b.skipMessage) := by
  have here (n : Nat) (early : n < 334) : Cut b 334 (Lost b) [Line.buffer n] b := by
    refine .untouched ?_
    simp
    omega
  unfold skipMessage
  apply nextSize_covers
  · intro trace within
    exact .untouched (within.elsewhere (by decide))
  · intro cause poisoned
    simp [ReadBuffer.skipMessage, ReadBuffer.checkPoisoned, poisoned]
  · intro healthy
    have skips := ReadBuffer.skipMessage.eq_1 b
    unfold sizeOfNext
    simp only [ReadBuffer.checkPoisoned, healthy, ReadBuffer.checkTornSize_eq] at skips
    by_cases short : b.available < headerSize
    · simp only [if_pos short, covers_pure] at skips ⊢
      exact skips.symm
    · simp only [if_neg short, covers_line_bind, covers_get_bind] at skips ⊢
      refine ⟨here 289 (by decide), ?_⟩
      by_cases missing : headerSize + fromLE (b.slice 4) * wordSize ≤ b.maxMessageSize ∧
          b.available < headerSize + fromLE (b.slice 4) * wordSize
      · simp only [if_pos missing, covers_line_bind, covers_pure] at skips ⊢
        exact ⟨here 290 (by decide), skips.symm⟩
      · simp only [if_neg missing, covers_line_bind]
        refine ⟨here 292 (by decide), Covers.bind
          ((guarded_covers (skipNext_covers capped healthy short missing) ?_).mono ?_ ?_)⟩
        · rintro e b' (⟨same, _⟩ | ⟨_, same, _⟩) <;> cases same
        · rintro trace b' ⟨within, poisoned⟩
          exact .poisoned (within.elsewhere (by decide)) poisoned
        · rintro r b' (⟨rfl, lost, skips⟩ | ⟨value, rfl, skips⟩)
          · simp only [After, covers_line_bind, covers_get_bind, covers_pure]
            exact ⟨.returning lost, skips.symm⟩
          · simp only [After, covers_pure]
            exact skips.symm

theorem readBytes_covers (n : Int) (b : ReadBuffer) :
    Covers (readBytes n) b
      (fun trace b' => b.poisoned = none → Cut b 359
        (fun after => ∃ data, b.readBytes n = (.ok (some data), after)) trace b')
      (fun r b' => (r, b') = b.readBytes n) := by
  have here (m : Nat) (rest : List Line) (early : m < 359) : Cut b 359
      (fun after => ∃ data, b.readBytes n = (.ok (some data), after)) (.buffer m :: rest) b := by
    refine .untouched ?_
    simp
    omega
  unfold readBytes
  simp only [covers_line_bind]
  refine ⟨fun _ => here 341 [] (by decide), ?_⟩
  by_cases negative : n < 0
  · simp only [if_pos negative, covers_line_bind, covers_raise]
    exact ⟨fun _ => here 342 [] (by decide), (if_pos negative).symm⟩
  · simp only [if_neg negative]
    apply checked_covers
    · exact ⟨here 343 [] (by decide), here 343 _ (by decide)⟩
    · intro cause poisoned
      simp [ReadBuffer.readBytes, negative, ReadBuffer.checkPoisoned, poisoned]
    · intro healthy
      have reads := ReadBuffer.readBytes.eq_1 b n
      simp only [ReadBuffer.checkPoisoned, healthy, if_neg negative] at reads
      simp only [covers_line_bind, covers_get_bind]
      refine ⟨here 344 [] (by decide), here 345 [] (by decide), ?_⟩
      by_cases short : b.available < n.toNat
      · simp only [if_pos short, covers_line_bind, covers_pure] at reads ⊢
        exact ⟨here 346 [] (by decide), reads.symm⟩
      · simp only [if_neg short, covers_line_bind] at reads ⊢
        refine ⟨here 348 [] (by decide),
          Covers.bind ((guarded_covers (consume_covers _ 349 b) (by simp)).mono ?_ ?_)⟩
        · rintro trace b' ⟨within, poisoned⟩
          exact .poisoned (within.elsewhere (by decide)) poisoned
        · intro r b' same
          cases same
          simp only [After, covers_line_bind, covers_pure]
          exact ⟨.returning ⟨_, reads⟩, reads.symm⟩

theorem peekBytes_covers (n : Int) (b : ReadBuffer) :
    Covers (peekBytes n) b (fun _ b' => b' = b) (fun r b' => (r, b') = (b.peekBytes n, b)) := by
  unfold peekBytes ReadBuffer.peekBytes
  simp only [covers_line_bind, true_and]
  by_cases negative : n < 0
  · simp [negative, covers_line_bind, covers_raise]
  · simp only [if_neg negative]
    refine Covers.call_bind rfl ((checkPoisoned_covers b).mono (fun _ _ held => held.2) ?_)
    intro r b' same
    cases same
    cases b.checkPoisoned with
    | error e => simp [After]
    | ok _ =>
        simp only [After, covers_line_bind, covers_get_bind, true_and]
        by_cases short : b.available < n.toNat
        · simp [short, covers_line_bind, covers_pure]
        · simp [short, covers_line_bind, covers_pure]

inductive Reading (b : ReadBuffer) : Except Exn (Option Bytes) × ReadBuffer → Prop
  | waiting (missing : b.hasMessage = false) : Reading b (.ok none, b)
  | oversized (e : Exn) (kind : e.isDecodeError = true) : Reading b (.error e, b)
  | frame (data : Bytes) (after : ReadBuffer) (arrived : b.hasMessage = true)
      (lost : Lost b after) : Reading b (.ok (some data), after)

theorem readMessage_reading {b : ReadBuffer} (healthy : b.poisoned = none) :
    Reading b b.readMessage := by
  have arrives := ReadBuffer.hasMessage.eq_1 b
  unfold ReadBuffer.readMessage
  simp only [ReadBuffer.checkPoisoned, healthy, ReadBuffer.checkTornSize_eq]
  simp only [if_neg b.slice_untorn] at arrives
  by_cases short : b.available < headerSize
  · simp only [if_pos short] at arrives ⊢
    exact .waiting arrives
  · simp only [if_neg short] at arrives ⊢
    by_cases large : b.maxMessageSize < headerSize + fromLE (b.slice 4) * wordSize
    · simp only [if_pos large]
      exact .oversized _ rfl
    · simp only [if_neg large] at arrives ⊢
      by_cases missing : b.available < headerSize + fromLE (b.slice 4) * wordSize
      · simp only [if_pos missing]
        exact .waiting (arrives.trans (decide_eq_false (not_le.mpr missing)))
      · simp only [if_neg missing]
        refine .frame _ _ (arrives.trans (decide_eq_true (not_lt.mp missing))) ?_
        exact advance_lost healthy (Nat.add_pos_left (by decide) _) (not_lt.mp missing)
          (unread_advance b _)

theorem readMessage_lost {b after : ReadBuffer} {data : Bytes} (healthy : b.poisoned = none)
    (read : b.readMessage = (.ok (some data), after)) : Lost b after := by
  have reading := readMessage_reading healthy
  rw [read] at reading
  cases reading with
  | frame _ _ _ lost => exact lost

theorem readBytes_intact {b after : ReadBuffer} {n : Int} {data : Bytes}
    (healthy : b.poisoned = none) (read : b.readBytes n = (.ok (some data), after)) :
    b.Intact after ↔ ¬ n ≠ 0 := by
  unfold ReadBuffer.readBytes at read
  simp only [ReadBuffer.checkPoisoned, healthy] at read
  split at read
  · cases read
  · rename_i natural
    split at read
    · cases read
    · rename_i complete
      cases read
      by_cases zero : n = 0
      · subst zero
        refine iff_of_true (Or.inr ⟨?_, ?_⟩) (not_not.mpr rfl)
        · rw [unread_maybeCompact, unread_advance]
          rfl
        · exact congrArg ByteQueue.skipping (ReadBuffer.queue_maybeCompact _)
      · have lost := advance_lost (c := b.advance n.toNat) healthy (by omega) (not_lt.mp complete)
          (unread_advance b _)
        exact iff_of_false lost.not_intact (not_not.mpr zero)

theorem feed_quiet (data : Bytes) (b : ReadBuffer) :
    feed data none b = settled (b.feed data) := (feed_covers data b).quiet

theorem readMessage_quiet (b : ReadBuffer) : readMessage none b = settled b.readMessage :=
  (readMessage_covers b).quiet

theorem skipMessage_quiet {b : ReadBuffer} (capped : 1 ≤ b.maxMessageSize) :
    skipMessage none b = settled b.skipMessage := (skipMessage_covers capped).quiet

theorem readBytes_quiet (n : Int) (b : ReadBuffer) :
    readBytes n none b = settled (b.readBytes n) := (readBytes_covers n b).quiet

theorem maybeCompact_quiet (b : ReadBuffer) :
    maybeCompact none b = settled (.ok (), b.maybeCompact) := (maybeCompact_covers b).quiet

end Lines

inductive BufferCall
  | feed (data : Bytes)
  | readMessage
  | skipMessage
  | readBytes (n : Int)
  | maybeCompact
  deriving DecidableEq, Repr

def BufferCall.Interrupted (b : ReadBuffer) : BufferCall → List Line → ReadBuffer → Prop
  | .feed data => InterruptedAt (Lines.feed data) b
  | .readMessage => InterruptedAt Lines.readMessage b
  | .skipMessage => InterruptedAt Lines.skipMessage b
  | .readBytes n => InterruptedAt (Lines.readBytes n) b
  | .maybeCompact => InterruptedAt Lines.maybeCompact b

/-- The lines at which an interrupt loses bytes: those of `feed` that follow the reset of a skip,
and the `return` after a `try` block that has consumed something. -/
def ReadBuffer.Exposed (b : ReadBuffer) : BufferCall → List Line → Prop
  | .feed _, trace => 0 < b.skipRemaining ∧ trace ∈ Lines.feedLines
  | .readMessage, trace => trace = [.buffer 267]
  | .skipMessage, trace => trace = [.buffer 334]
  | .readBytes n, trace => n ≠ 0 ∧ trace = [.buffer 359]
  | .maybeCompact, _ => False

/-- A call that ends with a `return` outside its `try` block is intact up to that line. -/
theorem Lines.Cut.intact_iff {b after : ReadBuffer} {returns : Nat} {Returned : ReadBuffer → Prop}
    {trace : List Line} (cut : Cut b returns Returned trace after) (consumed : Prop)
    (decided : ∀ after, Returned after → (b.Intact after ↔ ¬ consumed)) :
    b.Intact after ↔ ¬ (consumed ∧ trace = [.buffer returns]) := by
  cases cut with
  | untouched elsewhere => simp [ReadBuffer.Intact.refl, elsewhere]
  | poisoned elsewhere poisoned => exact iff_of_true (Or.inl poisoned) (by simp [elsewhere])
  | returning returned => simpa using decided after returned

theorem ReadBuffer.interrupted_intact_iff_exposed {b after : ReadBuffer}
    (capped : 1 ≤ b.maxMessageSize) (healthy : b.poisoned = none) {call : BufferCall} {trace : List Line}
    (interrupted : call.Interrupted b trace after) :
    b.Intact after ↔ ¬ b.Exposed call trace := by
  cases call with
  | feed data => exact (Lines.feed_covers data b).point interrupted healthy
  | readMessage =>
      have cut := (Lines.readMessage_covers b).point interrupted healthy
      have decided := cut.intact_iff True fun after returned => by
        obtain ⟨data, read⟩ := returned
        simp [(Lines.readMessage_lost healthy read).not_intact]
      simpa [Exposed] using decided
  | skipMessage =>
      have cut := (Lines.skipMessage_covers capped).point interrupted healthy
      have decided := cut.intact_iff True fun after lost => by
        simp [lost.not_intact]
      simpa [Exposed] using decided
  | readBytes n =>
      have cut := (Lines.readBytes_covers n b).point interrupted healthy
      apply cut.intact_iff
      rintro after ⟨data, read⟩
      exact Lines.readBytes_intact healthy read
  | maybeCompact =>
      obtain ⟨_, poisoned | rfl⟩ := (Lines.maybeCompact_covers b).point interrupted
      · exact iff_of_true (Or.inl poisoned) id
      · exact iff_of_true (Intact.refl _) id

end DqliteWire
