import DqliteWire.Discard

/-! Which chunks `feed` takes, and what it does with those it refuses. A buffer that is not poisoned
is live, or it is empty and still drops payload of one oversized frame. -/

namespace DqliteWire

open WireLib

namespace ByteQueue

structure Coherent (cap : Nat) (q : ByteQueue) : Prop where
  cap_eq : q.cap = cap
  state : q.poisoned = none → q.Live cap ∨ (q.Discarding cap ∧ q.skipping ≤ cap)

theorem coherent_fresh (cap : Nat) : (fresh cap).Coherent cap where
  cap_eq := rfl
  state := fun _ => Or.inl (live_fresh cap)

theorem Coherent.with_unread {cap : Nat} {q : ByteQueue} (held : q.Coherent cap) {rest : Bytes}
    (shorter : q.unread = [] → rest = []) : { q with unread := rest }.Coherent cap where
  cap_eq := held.cap_eq
  state := by
    intro healthy
    rcases held.state healthy with live | ⟨discarding, small⟩
    · exact Or.inl (live.with_unread rest)
    · obtain ⟨cap_eq, healthy, skips, empty, waiting⟩ := discarding
      exact Or.inr ⟨⟨cap_eq, healthy, skips, shorter empty, waiting⟩, small⟩

theorem Coherent.framing {cap : Nat} {q : ByteQueue} (held : q.Coherent cap)
    (healthy : q.poisoned = none) {op : BufferOp} (call : framingCall op = true)
    (same : (q.step op).2.cap = q.cap)
    (counter : (q.step op).2.skipping ≤ max q.skipping q.cap) : (q.step op).2.Coherent cap where
  cap_eq := same.trans held.cap_eq
  state := by
    intro next
    rcases held.state healthy with live | ⟨discarding, small⟩
    · have bound : (q.step op).2.skipping ≤ cap := by
        rw [live.idle, live.cap_eq] at counter
        simpa using counter
      rcases live.step_cases call with ⟨_, kept, _⟩ | ⟨_, _, _, _, _, _, _, kept, _⟩ |
        ⟨_, _, _, starts⟩ | ⟨_, _, poisoned⟩
      · exact Or.inl kept
      · exact Or.inl kept
      · exact Or.inr ⟨starts, bound⟩
      · exact absurd next poisoned
    · have bound : (q.step op).2.skipping ≤ cap := by
        rw [discarding.cap_eq, max_eq_right small] at counter
        exact counter
      rcases (discarding.step_cases call).2 with goes | poisoned
      · exact Or.inr ⟨goes, bound⟩
      · exact absurd next poisoned

theorem coherent_step {cap : Nat} {q : ByteQueue} (held : q.Coherent cap) (op : BufferOp) :
    (q.step op).2.Coherent cap := by
  cases healthy : q.poisoned with
  | some cause =>
      have poisoned : q.poisoned ≠ none := by simp [healthy]
      by_cases call : framingCall op = true
      · rw [(poisoned_step poisoned call).2.2]
        exact held
      · cases op with
        | readBytes n =>
            simp only [step, readBytes, healthy]
            split <;> exact held
        | peekBytes => exact held
        | poison error =>
            simp only [step, poison, healthy]
            exact held
        | reset | clear =>
            simp only [step, held.cap_eq]
            exact coherent_fresh cap
        | feed | hasMessage | peekHeader | readMessage | skipMessage => exact absurd rfl call
  | none =>
      cases op with
      | feed data =>
          refine held.framing healthy rfl ?_ ?_
          · simp only [step, feed, healthy]
            cases q.overflow data with
            | some error =>
                simp only [reject]
                split
                · rfl
                · split <;> rfl
            | none => rfl
          · simp only [step, feed, healthy]
            cases q.overflow data with
            | some error =>
                simp only [reject]
                split
                · exact Nat.zero_le _
                · split <;> exact le_max_left _ _
            | none => exact (Nat.sub_le _ _).trans (le_max_left _ _)
      | hasMessage => exact held.framing healthy rfl rfl (le_max_left _ _)
      | peekHeader => exact held.framing healthy rfl rfl (le_max_left _ _)
      | readMessage =>
          refine held.framing healthy rfl ?_ ?_ <;>
          · simp only [step, readMessage, healthy]
            cases q.head <;> simp
      | skipMessage =>
          refine held.framing healthy rfl ?_ ?_
          · simp only [step, skipMessage, healthy]
            cases q.head with
            | incomplete | frame => rfl
            | oversized =>
                simp only
                split <;> rfl
          · simp only [step, skipMessage, healthy]
            cases q.head with
            | incomplete | frame => exact le_max_left _ _
            | oversized =>
                simp only
                split
                · exact Nat.zero_le _
                · exact (Nat.sub_le _ _).trans (le_max_right _ _)
      | readBytes n =>
          have taken : { q with unread := q.unread.drop n.toNat }.Coherent cap :=
            held.with_unread fun empty => by rw [empty, List.drop_nil]
          rw [healthy] at taken
          simp only [step, readBytes, healthy]
          split
          · exact held
          · split
            · exact held
            · exact taken
      | peekBytes => exact held
      | poison error =>
          simp only [step, poison, healthy, if_true]
          exact ⟨held.cap_eq, fun none => by cases none⟩
      | reset | clear =>
          simp only [step, held.cap_eq]
          exact coherent_fresh cap

/-- The two guards are one: what the first refuses is too large for the second. -/
theorem Coherent.guards {cap : Nat} {q : ByteQueue} (held : q.Coherent cap)
    (healthy : q.poisoned = none) {data : Bytes} (double : 2 * cap < data.length) :
    cap < q.unread.length + (data.length - q.skipping) := by
  have small : q.skipping ≤ cap := by
    rcases held.state healthy with live | ⟨_, small⟩
    · rw [live.idle]
      exact Nat.zero_le cap
    · exact small
  omega

theorem Coherent.overflow_none {cap : Nat} {q : ByteQueue} (held : q.Coherent cap)
    (healthy : q.poisoned = none) (data : Bytes) :
    q.overflow data = none ↔ q.unread.length + (data.length - q.skipping) ≤ cap := by
  unfold overflow
  rw [held.cap_eq]
  by_cases double : 2 * cap < data.length
  · have large := held.guards healthy double
    rw [if_pos double]
    simp only [reduceCtorEq, false_iff, not_le]
    exact large
  · rw [if_neg double]
    split
    · simp only [reduceCtorEq, false_iff]
      omega
    · simp only [true_iff]
      omega

end ByteQueue

namespace ReadBuffer

theorem coherent_reachable {cap : Nat} {b : ReadBuffer} (reachable : Reachable step (fresh cap) b) :
    b.Bounded ∧ b.queue.Coherent cap := by
  refine reachable_invariant step (fun b => b.Bounded ∧ b.queue.Coherent cap) reachable
    ⟨le_rfl, ByteQueue.coherent_fresh cap⟩ ?_
  rintro b op ⟨bounded, coherent⟩
  obtain ⟨_, kept, next⟩ := step_matches bounded op
  refine ⟨kept, ?_⟩
  rw [next]
  exact ByteQueue.coherent_step coherent op

theorem feed_rejected {b : ReadBuffer} (healthy : b.poisoned = none) {data : Bytes} {e : Exn}
    (raised : (b.feed data).1 = .error e) :
    e.isDecodeError = true ∧ (b.feed data).2 = b.rejectFeed e := by
  have checked : b.checkPoisoned = .ok () := by simp [checkPoisoned, healthy]
  unfold feed at raised ⊢
  simp only [checked] at raised ⊢
  by_cases double : 2 * b.maxMessageSize < data.length
  · rw [if_pos double] at raised ⊢
    cases raised
    exact ⟨rfl, rfl⟩
  · rw [if_neg double] at raised ⊢
    by_cases exceeded : b.maxMessageSize < b.available +
        (if 0 < b.skipRemaining then data.length - b.skipRemaining else data.length)
    · rw [if_pos exceeded] at raised ⊢
      cases raised
      exact ⟨rfl, rfl⟩
    · rw [if_neg exceeded] at raised
      split at raised
      · split at raised <;> cases raised
      · cases raised

theorem rejectFeed_cases {b : ReadBuffer} (healthy : b.poisoned = none) (e : Exn) :
    (b.rejectFeed e).unread = b.unread ∧
      if 0 < b.skipRemaining ∨ b.unread ≠ [] then (b.rejectFeed e).poisoned = some e ∧
          (b.rejectFeed e).skipRemaining = 0 ∧
          (0 < b.skipRemaining → (b.rejectFeed e).poisonAfterSkip = none)
        else b.rejectFeed e = b := by
  have same : (0 < b.skipRemaining ∨ 0 < b.available) ↔ 0 < b.skipRemaining ∨ b.unread ≠ [] := by
    rw [available_eq, List.length_pos_iff]
  by_cases flight : 0 < b.skipRemaining ∨ b.unread ≠ []
  · rw [if_pos flight, rejectFeed, if_pos (same.mpr flight)]
    by_cases skipping : 0 < b.skipRemaining
    · simp [skipping, poison, healthy, unread]
    · have idle : b.skipRemaining = 0 := by omega
      simp [idle, poison, healthy, unread]
  · rw [if_neg flight, rejectFeed, if_neg fun inFlight => flight (same.mp inFlight)]
    exact ⟨rfl, rfl⟩

/-- Exactly the chunks that fit are taken; a taken chunk loses the bytes still to be skipped and
poisons when they are the last of an oversized frame; a refused one changes nothing, unless wire
state is in flight: then it poisons and forgets the skip. -/
theorem feed_acceptance (cap : Nat) (b : ReadBuffer) (reachable : Reachable step (fresh cap) b)
    (healthy : b.poisoned = none) (data : Bytes) :
    ((b.feed data).1 = .ok () ↔ b.available + (data.length - b.skipRemaining) ≤ b.maxMessageSize) ∧
      (2 * b.maxMessageSize < data.length →
        b.maxMessageSize < b.available + (data.length - b.skipRemaining)) ∧
      ((b.feed data).1 = .ok () →
        (b.feed data).2.unread = b.unread ++ data.drop (min data.length b.skipRemaining) ∧
          ((b.feed data).2.poisoned ≠ none ↔ 0 < b.skipRemaining ∧ b.poisonAfterSkip ≠ none ∧
            b.skipRemaining ≤ data.length)) ∧
      ∀ e, (b.feed data).1 = .error e →
        e.isDecodeError = true ∧ (b.feed data).2.unread = b.unread ∧
          if 0 < b.skipRemaining ∨ b.unread ≠ [] then (b.feed data).2.poisoned = some e ∧
              (b.feed data).2.skipRemaining = 0 ∧ (b.feed data).2.poisonAfterSkip = none
            else (b.feed data).2 = b := by
  obtain ⟨bounded, coherent⟩ := coherent_reachable reachable
  have cap_eq : b.maxMessageSize = cap := coherent.cap_eq
  obtain ⟨reply, _, next⟩ := feed_matches bounded data
  have fits := coherent.overflow_none healthy data
  have healthy' : b.queue.poisoned = none := healthy
  simp only [ByteQueue.feed, healthy'] at reply next
  simp only [queue_unread, queue_skipping, ← available_eq] at fits
  rw [cap_eq]
  refine ⟨?_, fun double => ?_, fun taken => ?_, fun e raised => ?_⟩
  · rw [← fits, reply]
    cases b.queue.overflow data <;> simp
  · have large := coherent.guards healthy double
    rwa [queue_unread, queue_skipping, ← available_eq] at large
  · rw [reply] at taken
    cases over_ : b.queue.overflow data with
    | some error =>
        rw [over_] at taken
        cases taken
    | none =>
        rw [over_] at next
        have unread := congrArg ByteQueue.unread next
        have poisoned := congrArg ByteQueue.poisoned next
        simp only [queue_unread, queue_poisoned, ByteQueue.absorb, queue_skipping,
          queue_deferred, healthy] at unread poisoned
        refine ⟨?_, ?_⟩
        · rw [unread]
          rcases le_total data.length b.skipRemaining with all | some_
          · simp [all]
          · rw [min_eq_right some_]
        · rw [poisoned]
          split
          · rename_i fires
            exact ⟨fun _ => ⟨fires.1, fires.2.2, fires.2.1⟩, fun _ => fires.2.2⟩
          · rename_i quiet
            exact ⟨fun none => absurd rfl none, fun done => absurd ⟨done.1, done.2.2, done.2.1⟩ quiet⟩
  · obtain ⟨kind, after⟩ := feed_rejected healthy raised
    obtain ⟨kept, effect⟩ := rejectFeed_cases healthy e
    rw [after]
    refine ⟨kind, kept, ?_⟩
    split at effect
    · rename_i flight
      rw [if_pos flight]
      obtain ⟨poisoned, cleared, forgot⟩ := effect
      refine ⟨poisoned, cleared, ?_⟩
      by_cases skipping : 0 < b.skipRemaining
      · exact forgot skipping
      · rcases coherent.state healthy with live | ⟨discarding, _⟩
        · have undeferred : b.poisonAfterSkip = none := live.undeferred
          have inFlight : 0 < b.skipRemaining ∨ 0 < b.available := by
            rwa [available_eq, List.length_pos_iff]
          simp only [rejectFeed, if_pos inFlight, if_neg skipping]
          rw [poison, if_pos healthy]
          exact undeferred
        · exact absurd discarding.skips skipping
    · rename_i quiet
      rw [if_neg quiet]
      exact effect

/-- The bytes of a capped skip, and one more. -/
theorem feed_acceptance_skip_completes :
    let b := final step (fresh 16) [.feed [9, 0, 0, 0, 0, 0, 0, 0], .skipMessage]
    (b.feed (List.replicate 9 7)).2.unread = [7] ∧ (b.feed (List.replicate 9 7)).2.poisoned ≠ none := by
  intro b
  have taken := (feed_acceptance 16 b ⟨_, rfl⟩ (by decide) (List.replicate 9 7)).2.2.1 (by decide)
  exact ⟨taken.1, taken.2.mpr (by decide)⟩

end ReadBuffer

end DqliteWire
