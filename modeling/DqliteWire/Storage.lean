import DqliteWire.Acceptance

/-! What a read buffer stores. Compaction waits for a threshold and for half of the data to be
consumed, and a feed that only discards does not compact; the cursor is bounded all the same. -/

namespace DqliteWire

open WireLib

namespace ByteQueue

/-- The queue never holds more than the cap. A skip starts at a whole header, so what it still has
to discard is at least a header short of the cap. -/
structure Tight (cap : Nat) (q : ByteQueue) : Prop where
  coherent : q.Coherent cap
  fits : q.unread.length ≤ cap
  counter : q.skipping = 0 ∨ q.skipping + headerSize ≤ cap

theorem tight_fresh (cap : Nat) : (fresh cap).Tight cap :=
  ⟨coherent_fresh cap, Nat.zero_le cap, Or.inl rfl⟩

theorem fits_step {cap : Nat} {q : ByteQueue} (cap_eq : q.cap = cap)
    (fits : q.unread.length ≤ cap) (op : BufferOp) : (q.step op).2.unread.length ≤ cap := by
  have shorter (n : Nat) : (q.unread.drop n).length ≤ cap := by
    rw [List.length_drop]
    omega
  cases op with
  | feed data =>
      simp only [step, feed]
      cases q.poisoned with
      | some cause => exact fits
      | none =>
          simp only
          cases over_ : q.overflow data with
          | some error =>
              simp only [reject]
              split
              · exact fits
              · split <;> exact fits
          | none =>
              unfold overflow at over_
              split at over_
              · cases over_
              · split at over_
                · cases over_
                · simp only [absorb, List.length_append, List.length_drop]
                  omega
  | hasMessage | peekHeader | peekBytes => exact fits
  | readMessage =>
      simp only [step, readMessage]
      cases q.poisoned with
      | some cause => exact fits
      | none =>
          cases found : q.head with
          | incomplete | oversized => simpa [found] using fits
          | frame message rest =>
              obtain ⟨whole, _⟩ := wire.head_frame q.cap found
              rw [whole, List.length_append] at fits
              simp only
              omega
  | skipMessage =>
      simp only [step, skipMessage]
      cases q.poisoned with
      | some cause => exact fits
      | none =>
          cases found : q.head with
          | incomplete => exact fits
          | oversized =>
              simp only
              split
              · exact shorter _
              · exact Nat.zero_le cap
          | frame message rest =>
              obtain ⟨whole, _⟩ := wire.head_frame q.cap found
              rw [whole, List.length_append] at fits
              simp only
              omega
  | readBytes n =>
      simp only [step, readBytes]
      split
      · exact fits
      · cases q.poisoned with
        | some cause => exact fits
        | none =>
            simp only
            split
            · exact fits
            · exact shorter _
  | poison error =>
      simp only [step, poison]
      split <;> exact fits
  | reset | clear => exact Nat.zero_le cap

theorem counter_step {cap : Nat} {q : ByteQueue} (cap_eq : q.cap = cap)
    (counter : q.skipping = 0 ∨ q.skipping + headerSize ≤ cap) (op : BufferOp) :
    (q.step op).2.skipping = 0 ∨ (q.step op).2.skipping + headerSize ≤ cap := by
  cases op with
  | feed data =>
      simp only [step, feed]
      cases q.poisoned with
      | some cause => exact counter
      | none =>
          simp only
          cases q.overflow data with
          | some error =>
              simp only [reject]
              split
              · exact Or.inl rfl
              · split <;> exact counter
          | none =>
              simp only [absorb]
              omega
  | hasMessage | peekHeader | peekBytes => exact counter
  | readMessage =>
      simp only [step, readMessage]
      cases q.poisoned with
      | some cause => exact counter
      | none => cases q.head <;> exact counter
  | skipMessage =>
      simp only [step, skipMessage]
      cases q.poisoned with
      | some cause => exact counter
      | none =>
          cases found : q.head with
          | incomplete | frame => exact counter
          | oversized =>
              have header : headerSize ≤ q.unread.length :=
                ((wire.head_oversized_iff q.cap).mp found).1
              simp only
              split
              · exact Or.inl rfl
              · refine Or.inr ?_
                simp only
                omega
  | readBytes n =>
      simp only [step, readBytes]
      split
      · exact counter
      · cases q.poisoned with
        | some cause => exact counter
        | none =>
            simp only
            split <;> exact counter
  | poison error =>
      simp only [step, poison]
      split <;> exact counter
  | reset | clear => exact Or.inl rfl

theorem tight_step {cap : Nat} {q : ByteQueue} (held : q.Tight cap) (op : BufferOp) :
    (q.step op).2.Tight cap where
  coherent := coherent_step held.coherent op
  fits := fits_step held.coherent.cap_eq held.fits op
  counter := counter_step held.coherent.cap_eq held.counter op

end ByteQueue

namespace ReadBuffer

/-- Where the cursor may stand: below the threshold, or in the first half of the data. -/
def Compacted (b : ReadBuffer) : Prop :=
  b.pos ≤ compactThreshold ∨ b.pos < b.data.length / 2

namespace Compacted

theorem maybeCompact (b : ReadBuffer) : b.maybeCompact.Compacted := by
  unfold ReadBuffer.maybeCompact
  by_cases low : b.pos ≤ compactThreshold
  · rw [if_pos low]
    exact Or.inl low
  · rw [if_neg low]
    by_cases half : b.pos < b.data.length / 2
    · rw [if_pos half]
      exact Or.inr half
    · rw [if_neg half]
      exact Or.inl (Nat.zero_le _)

theorem of_storage {b b' : ReadBuffer} (held : b.Compacted) (data : b'.data = b.data)
    (pos : b'.pos = b.pos) : b'.Compacted := by
  unfold Compacted
  rw [data, pos]
  exact held

theorem extend {b : ReadBuffer} (held : b.Compacted) (data : Bytes) :
    (b.extend data).Compacted := by
  simp only [Compacted, ReadBuffer.extend, List.length_append] at held ⊢
  omega

theorem poison {b : ReadBuffer} (held : b.Compacted) (error : Exn) :
    (b.poison error).Compacted := by
  unfold ReadBuffer.poison
  split
  · exact held.of_storage rfl rfl
  · exact held

theorem rejectFeed {b : ReadBuffer} (held : b.Compacted) (error : Exn) :
    (b.rejectFeed error).Compacted := by
  unfold ReadBuffer.rejectFeed
  split
  · apply Compacted.poison
    split
    · exact held.of_storage rfl rfl
    · exact held
  · exact held

theorem countDiscarded {b : ReadBuffer} (held : b.Compacted) (n : Nat) :
    (b.countDiscarded n).Compacted := by
  unfold ReadBuffer.countDiscarded
  simp only
  split
  · split <;> exact held.of_storage rfl rfl
  · exact held.of_storage rfl rfl

/-- The feed that returns before it compacts leaves the data and the cursor alone. -/
theorem feed {b : ReadBuffer} (held : b.Compacted) (data : Bytes) : (b.feed data).2.Compacted := by
  unfold ReadBuffer.feed
  cases b.checkPoisoned with
  | error e => exact held
  | ok checked =>
      simp only
      by_cases double : 2 * b.maxMessageSize < data.length
      · rw [if_pos double]
        exact held.rejectFeed _
      · rw [if_neg double]
        by_cases exceeded : b.maxMessageSize < b.available +
            (if 0 < b.skipRemaining then data.length - b.skipRemaining else data.length)
        · rw [if_pos exceeded]
          exact held.rejectFeed _
        · rw [if_neg exceeded]
          by_cases skipping : 0 < b.skipRemaining
          · rw [if_pos skipping]
            split
            · exact held.countDiscarded _
            · exact (Compacted.maybeCompact _).extend _
          · rw [if_neg skipping]
            exact (Compacted.maybeCompact _).extend _

theorem checkTornSize {b : ReadBuffer} (held : b.Compacted) (sizeWords : Nat) :
    (b.checkTornSize sizeWords).2.Compacted := by
  unfold ReadBuffer.checkTornSize
  split
  · exact held.poison _
  · exact held

theorem readMessage {b : ReadBuffer} (held : b.Compacted) : b.readMessage.2.Compacted := by
  unfold ReadBuffer.readMessage
  simp only [checkTornSize_eq]
  split
  · exact held
  · split
    · exact held
    · split
      · exact held
      · split
        · exact held
        · exact Compacted.maybeCompact _

theorem peekHeader {b : ReadBuffer} (held : b.Compacted) : b.peekHeader.2.Compacted := by
  unfold ReadBuffer.peekHeader
  simp only [checkTornSize_eq]
  split
  · exact held
  · split
    · exact held
    · split
      · exact held
      · split <;> exact held

/-- Every branch that moves the cursor compacts before it returns. -/
theorem skipMessage {b : ReadBuffer} (held : b.Compacted) : b.skipMessage.2.Compacted := by
  unfold ReadBuffer.skipMessage
  simp only [checkTornSize_eq]
  split
  · exact held
  · split
    · exact held
    · split
      · exact held
      · split
        · exact Compacted.maybeCompact _
        · split
          · split <;> exact Compacted.maybeCompact _
          · exact Compacted.maybeCompact _

theorem readBytes {b : ReadBuffer} (held : b.Compacted) (n : Int) :
    (b.readBytes n).2.Compacted := by
  unfold ReadBuffer.readBytes
  split
  · exact held
  · split
    · exact held
    · split
      · exact held
      · exact Compacted.maybeCompact _

theorem step {b : ReadBuffer} (held : b.Compacted) (op : BufferOp) : (b.step op).2.Compacted := by
  cases op with
  | feed data => exact held.feed data
  | hasMessage | peekBytes => exact held
  | peekHeader => exact held.peekHeader
  | readMessage => exact held.readMessage
  | skipMessage => exact held.skipMessage
  | readBytes n => exact held.readBytes n
  | poison error => exact held.poison error
  | reset | clear => exact Or.inl (Nat.zero_le _)

/-- A cursor so placed leaves at most one cap, or one threshold, of consumed bytes in front of the
unread ones. -/
theorem storage {b : ReadBuffer} (held : b.Compacted) (bounded : b.Bounded) {cap : Nat}
    (fits : b.unread.length ≤ cap) : b.data.length ≤ cap + max compactThreshold cap := by
  have split : b.data.length = b.pos + b.unread.length := by
    simp only [Bounded, unread, List.length_drop] at bounded ⊢
    omega
  rcases held with low | half
  · calc b.data.length ≤ compactThreshold + cap := by omega
      _ ≤ cap + max compactThreshold cap := by omega
  · calc b.data.length ≤ cap + cap := by omega
      _ ≤ cap + max compactThreshold cap := by omega

end Compacted

theorem storage_reachable {cap : Nat} {b : ReadBuffer} (reachable : Reachable step (fresh cap) b) :
    b.Bounded ∧ b.queue.Tight cap ∧ b.Compacted := by
  apply reachable_invariant step (fun b => b.Bounded ∧ b.queue.Tight cap ∧ b.Compacted) reachable
  · exact ⟨le_rfl, ByteQueue.tight_fresh cap, Or.inl (Nat.zero_le _)⟩
  · rintro b op ⟨bounded, tight, compacted⟩
    obtain ⟨_, kept, next⟩ := step_matches bounded op
    refine ⟨kept, ?_, compacted.step op⟩
    rw [next]
    exact ByteQueue.tight_step tight op

/-- Whatever has passed through a buffer, it stores at most two caps, or one cap and a threshold;
and its skip fields say that an oversized frame is being dropped, or nothing at all. -/
theorem representation_invariant (cap : Nat) (b : ReadBuffer)
    (reachable : Reachable step (fresh cap) b) :
    b.pos ≤ b.data.length ∧ b.data.length - b.pos ≤ cap ∧
      b.data.length ≤ cap + max compactThreshold cap ∧
      (b.poisoned = none →
        (0 < b.skipRemaining →
          b.data.length - b.pos = 0 ∧ b.skipRemaining + headerSize ≤ cap ∧
            b.poisonAfterSkip ≠ none) ∧
        (b.skipRemaining = 0 → b.poisonAfterSkip = none)) := by
  obtain ⟨bounded, tight, compacted⟩ := storage_reachable reachable
  have unread : b.unread.length = b.data.length - b.pos := List.length_drop
  refine ⟨bounded, unread ▸ tight.fits, compacted.storage bounded tight.fits, ?_⟩
  intro healthy
  rcases tight.coherent.state healthy with live | ⟨discarding, _⟩
  · have idle : b.skipRemaining = 0 := live.idle
    exact ⟨fun skipping => absurd idle (Nat.pos_iff_ne_zero.mp skipping),
      fun _ => live.undeferred⟩
  · have skips : 0 < b.skipRemaining := discarding.skips
    have empty : b.unread = [] := discarding.empty
    refine ⟨fun _ => ⟨?_, ?_, discarding.waiting⟩, fun idle => absurd idle (by omega)⟩
    · rw [← unread, empty]
      rfl
    · rcases tight.counter with idle | counted
      · exact absurd idle (Nat.pos_iff_ne_zero.mp skips)
      · exact counted

theorem representation_invariant_skipping :
    let b := final step (fresh 16) [.feed [9, 0, 0, 0, 0, 0, 0, 0], .skipMessage, .feed [1, 2]]
    b.skipRemaining = 6 ∧ b.poisonAfterSkip ≠ none ∧ b.data.length ≤ 4112 := by
  intro b
  obtain ⟨_, _, stored, skips⟩ := representation_invariant 16 b ⟨_, rfl⟩
  have skipping : b.skipRemaining = 6 := by decide
  exact ⟨skipping, ((skips (by decide)).1 (by omega)).2.2, stored⟩

end ReadBuffer

end DqliteWire
