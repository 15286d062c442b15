import DqliteWire.Readers

/-! What compaction costs. A buffer copies its unread bytes once it has passed a threshold and half of
what it stores; the bytes passed pay for the bytes copied, and no byte is copied more often than the
storage can be halved. -/

namespace DqliteWire

open WireLib

namespace ReadBuffer

/-- What a call does to the stored bytes: it passes some, calls `_maybe_compact` or not, and appends. -/
structure Motion where
  passed : Nat
  compacts : Bool
  appended : Bytes

def Motion.still : Motion := ⟨0, false, []⟩

/-- A `feed` that only discards returns before it compacts. -/
def motion (b : ReadBuffer) : BufferOp → Motion
  | .feed data =>
    match (b.feed data).1 with
    | .error _ => .still
    | .ok () =>
      if 0 < b.skipRemaining ∧ data.length ≤ b.skipRemaining then .still
      else ⟨0, true, data.drop b.skipRemaining⟩
  | .readMessage =>
    match b.readMessage.1 with
    | .ok (some message) => ⟨message.length, true, []⟩
    | _ => .still
  | .skipMessage =>
    if b.skipMessage.2.available < b.available then
      ⟨b.available - b.skipMessage.2.available, true, []⟩
    else .still
  | .readBytes n =>
    match (b.readBytes n).1 with
    | .ok (some data) => ⟨data.length, true, []⟩
    | _ => .still
  | .hasMessage | .peekHeader | .peekBytes _ | .poison _ | .reset | .clear => .still

def Compacts (b : ReadBuffer) : Prop := compactThreshold < b.pos ∧ b.data.length / 2 ≤ b.pos

instance (b : ReadBuffer) : Decidable b.Compacts := inferInstanceAs (Decidable (_ ∧ _))

theorem maybeCompact_cases (b : ReadBuffer) :
    b.Compacts ∧ b.maybeCompact = { b with data := b.unread, pos := 0 } ∨
      ¬ b.Compacts ∧ b.maybeCompact = b := by
  unfold maybeCompact Compacts
  by_cases low : b.pos ≤ compactThreshold
  · right
    rw [if_pos low]
    exact ⟨fun both => absurd low (by omega), rfl⟩
  · rw [if_neg low]
    by_cases half : b.pos < b.data.length / 2
    · right
      rw [if_pos half]
      exact ⟨fun both => absurd half (by omega), rfl⟩
    · left
      rw [if_neg half]
      exact ⟨⟨by omega, by omega⟩, rfl⟩

def wipes : BufferOp → Bool
  | .reset | .clear => true
  | _ => false

def SameStore (b c : ReadBuffer) : Prop := b.data = c.data ∧ b.pos = c.pos

namespace SameStore

variable {b c : ReadBuffer}

theorem maybeCompact (same : SameStore b c) : SameStore b.maybeCompact c.maybeCompact := by
  obtain ⟨data, pos⟩ := same
  unfold ReadBuffer.maybeCompact
  rw [data, pos]
  split
  · exact ⟨data, pos⟩
  · split
    · exact ⟨data, pos⟩
    · exact ⟨rfl, rfl⟩

theorem extend (same : SameStore b c) (data : Bytes) : SameStore (b.extend data) (c.extend data) :=
  ⟨congrArg (· ++ data) same.1, same.2⟩

end SameStore

theorem poison_store (b : ReadBuffer) (error : Exn) : SameStore (b.poison error) b := by
  unfold poison
  split <;> exact ⟨rfl, rfl⟩

theorem rejectFeed_store (b : ReadBuffer) (error : Exn) : SameStore (b.rejectFeed error) b := by
  unfold rejectFeed
  split
  · split <;> exact poison_store _ error
  · exact ⟨rfl, rfl⟩

theorem countDiscarded_store (b : ReadBuffer) (n : Nat) : SameStore (b.countDiscarded n) b := by
  unfold countDiscarded
  simp only
  split
  · split <;> exact ⟨rfl, rfl⟩
  · exact ⟨rfl, rfl⟩

def Motion.apply (m : Motion) (b : ReadBuffer) : ReadBuffer :=
  (if m.compacts then (b.advance m.passed).maybeCompact else b.advance m.passed).extend m.appended

theorem apply_still (b : ReadBuffer) : SameStore b (Motion.still.apply b) := by
  simp [SameStore, Motion.apply, Motion.still, advance, extend]

theorem advance_zero (b : ReadBuffer) : b.advance 0 = b := rfl

theorem extend_nil_store (b : ReadBuffer) : SameStore b (b.extend []) :=
  ⟨(List.append_nil _).symm, rfl⟩

theorem feed_store (b : ReadBuffer) (data : Bytes) :
    SameStore (b.feed data).2 ((b.motion (.feed data)).apply b) := by
  have motion (x : Except Exn Unit × ReadBuffer) (fed : b.feed data = x) :
      b.motion (.feed data) = match x.1 with
        | .error _ => .still
        | .ok () => if 0 < b.skipRemaining ∧ data.length ≤ b.skipRemaining then .still
          else ⟨0, true, data.drop b.skipRemaining⟩ := by
    rw [← fed]
    rfl
  rw [motion _ rfl]
  unfold feed
  cases b.checkPoisoned with
  | error e => exact apply_still b
  | ok checked =>
      simp only
      by_cases double : 2 * b.maxMessageSize < data.length
      · rw [if_pos double]
        obtain ⟨same, place⟩ := b.rejectFeed_store (chunkTooLarge data.length b.maxMessageSize)
        exact ⟨same.trans (apply_still b).1, place.trans (apply_still b).2⟩
      · rw [if_neg double]
        by_cases exceeded : b.maxMessageSize < b.available +
            (if 0 < b.skipRemaining then data.length - b.skipRemaining else data.length)
        · rw [if_pos exceeded]
          obtain ⟨same, place⟩ := b.rejectFeed_store (bufferTooLarge _ b.maxMessageSize)
          exact ⟨same.trans (apply_still b).1, place.trans (apply_still b).2⟩
        · rw [if_neg exceeded]
          by_cases skipping : 0 < b.skipRemaining
          · rw [if_pos skipping]
            have counted := b.countDiscarded_store (min data.length b.skipRemaining)
            by_cases all : data.length ≤ b.skipRemaining
            · rw [min_eq_left all, List.drop_length, if_pos rfl]
              simp only [if_pos (And.intro skipping all)]
              rw [min_eq_left all] at counted
              exact ⟨counted.1.trans (apply_still b).1, counted.2.trans (apply_still b).2⟩
            · have rest : data.drop (min data.length b.skipRemaining) ≠ [] := by
                rw [min_eq_right (by omega), Ne, List.drop_eq_nil_iff]
                omega
              rw [if_neg rest]
              simp only [if_neg fun both : _ ∧ _ => all both.2]
              rw [min_eq_right (by omega)] at counted ⊢
              exact counted.maybeCompact.extend _
          · rw [if_neg skipping]
            have none : b.skipRemaining = 0 := by omega
            simp only [none, lt_irrefl, false_and, if_false, List.drop_zero]
            exact ⟨rfl, rfl⟩

theorem readMessage_store (b : ReadBuffer) :
    SameStore b.readMessage.2 ((b.motion .readMessage).apply b) := by
  have motion (x : Except Exn (Option Bytes) × ReadBuffer) (read : b.readMessage = x) :
      b.motion .readMessage = match x.1 with
        | .ok (some message) => ⟨message.length, true, []⟩
        | _ => .still := by
    rw [← read]
    rfl
  rw [motion _ rfl]
  unfold readMessage
  cases b.checkPoisoned with
  | error e => exact apply_still b
  | ok checked =>
      simp only [checkTornSize_eq]
      by_cases short : b.available < headerSize
      · rw [if_pos short]
        exact apply_still b
      · rw [if_neg short]
        by_cases large : b.maxMessageSize < headerSize + fromLE (b.slice 4) * wordSize
        · rw [if_pos large]
          exact apply_still b
        · rw [if_neg large]
          by_cases lacking : b.available < headerSize + fromLE (b.slice 4) * wordSize
          · rw [if_pos lacking]
            exact apply_still b
          · rw [if_neg lacking]
            have whole : (b.slice (headerSize + fromLE (b.slice 4) * wordSize)).length =
                headerSize + fromLE (b.slice 4) * wordSize := by
              rw [slice_eq, List.length_take, ← available_eq]
              omega
            simp only [whole]
            exact extend_nil_store _

theorem readBytes_store (b : ReadBuffer) (n : Int) :
    SameStore (b.readBytes n).2 ((b.motion (.readBytes n)).apply b) := by
  have motion (x : Except Exn (Option Bytes) × ReadBuffer) (read : b.readBytes n = x) :
      b.motion (.readBytes n) = match x.1 with
        | .ok (some data) => ⟨data.length, true, []⟩
        | _ => .still := by
    rw [← read]
    rfl
  rw [motion _ rfl]
  unfold readBytes
  by_cases negative : n < 0
  · rw [if_pos negative]
    exact apply_still b
  · rw [if_neg negative]
    cases b.checkPoisoned with
    | error e => exact apply_still b
    | ok checked =>
        simp only
        by_cases lacking : b.available < n.toNat
        · rw [if_pos lacking]
          exact apply_still b
        · rw [if_neg lacking]
          have whole : (b.slice n.toNat).length = n.toNat := by
            rw [slice_eq, List.length_take, ← available_eq]
            omega
          simp only [whole]
          exact extend_nil_store _

theorem Compacted.maybeCompact_eq {b : ReadBuffer} (held : b.Compacted) : b.maybeCompact = b := by
  unfold ReadBuffer.maybeCompact
  rcases held with low | half
  · rw [if_pos low]
  · rw [if_pos half, ite_self]

theorem skipped_store {b c : ReadBuffer} (held : b.Compacted) {n : Nat} (within : n ≤ b.available)
    (same : SameStore c (b.advance n).maybeCompact) :
    SameStore c (Motion.apply (if c.available < b.available then
      ⟨b.available - c.available, true, []⟩ else .still) b) := by
  have left : c.available = b.available - n := by
    calc c.available = (b.advance n).maybeCompact.available := by rw [available, available, same.1, same.2]
      _ = (b.advance n).unread.length := by
        rw [available_eq]
        exact congrArg (fun q => q.unread.length) (queue_maybeCompact (b.advance n))
      _ = b.available - n := by
        simp only [unread, advance, available, List.length_drop]
        omega
  rw [left]
  by_cases none : n = 0
  · rw [none, advance_zero, held.maybeCompact_eq] at same
    rw [none, Nat.sub_zero, if_neg (lt_irrefl _)]
    exact ⟨same.1.trans (apply_still b).1, same.2.trans (apply_still b).2⟩
  · rw [if_pos (by omega), Nat.sub_sub_self within]
    exact ⟨same.1.trans (extend_nil_store _).1, same.2.trans (extend_nil_store _).2⟩

theorem skipMessage_store {b : ReadBuffer} (held : b.Compacted) :
    SameStore b.skipMessage.2 ((b.motion .skipMessage).apply b) := by
  have stays : SameStore b (Motion.apply (if b.available < b.available then
      ⟨b.available - b.available, true, []⟩ else .still) b) := by
    rw [if_neg (lt_irrefl _)]
    exact apply_still b
  simp only [motion]
  unfold skipMessage
  cases b.checkPoisoned with
  | error e => exact stays
  | ok checked =>
      simp only [checkTornSize_eq]
      by_cases short : b.available < headerSize
      · rw [if_pos short]
        exact stays
      · rw [if_neg short]
        by_cases partly : headerSize + fromLE (b.slice 4) * wordSize ≤ b.maxMessageSize ∧
            b.available < headerSize + fromLE (b.slice 4) * wordSize
        · rw [if_pos partly]
          exact stays
        · rw [if_neg partly]
          by_cases normal : headerSize + fromLE (b.slice 4) * wordSize ≤ b.maxMessageSize
          · rw [if_pos normal]
            exact skipped_store held (by omega) ⟨rfl, rfl⟩
          · rw [if_neg normal]
            have within : min (min (headerSize + fromLE (b.slice 4) * wordSize) b.maxMessageSize)
                b.available ≤ b.available := min_le_right _ _
            split
            · split
              · apply skipped_store held within
                apply SameStore.maybeCompact
                exact poison_store _ _
              · apply skipped_store held within
                apply SameStore.maybeCompact
                exact ⟨rfl, rfl⟩
            · apply skipped_store held within
              apply SameStore.maybeCompact
              exact ⟨rfl, rfl⟩

/-- What a call leaves of the stored bytes is what its motion makes of them. -/
theorem step_store {b : ReadBuffer} (held : b.Compacted) {op : BufferOp} (keeps : wipes op = false) :
    SameStore (b.step op).2 ((b.motion op).apply b) := by
  cases op with
  | feed data => exact feed_store b data
  | readMessage => exact readMessage_store b
  | skipMessage => exact skipMessage_store held
  | readBytes n => exact readBytes_store b n
  | hasMessage | peekBytes => exact apply_still b
  | peekHeader =>
      change SameStore b.peekHeader.2 _
      rw [peekHeader_unchanged]
      exact apply_still b
  | poison error =>
      obtain ⟨data, pos⟩ := b.poison_store error
      exact ⟨data.trans (apply_still b).1, pos.trans (apply_still b).2⟩
  | reset | clear => cases keeps

theorem motion_within {b : ReadBuffer} (bounded : b.Bounded) (op : BufferOp) :
    (b.motion op).passed ≤ b.available := by
  cases op with
  | hasMessage | peekHeader | peekBytes | poison | reset | clear => exact Nat.zero_le _
  | feed data =>
      simp only [motion]
      split
      · exact Nat.zero_le _
      · split <;> exact Nat.zero_le _
  | skipMessage =>
      simp only [motion]
      split
      · exact Nat.sub_le _ _
      · exact Nat.zero_le _
  | readMessage =>
      obtain ⟨reply, _, _⟩ := readMessage_matches bounded
      simp only [motion, reply, ByteQueue.readMessage]
      cases b.queue.poisoned with
      | some cause => exact Nat.zero_le _
      | none =>
          cases found : b.queue.head with
          | incomplete | oversized => exact Nat.zero_le _
          | frame message rest =>
              have whole : b.unread = message ++ rest := (wire.head_frame _ found).1
              rw [available_eq, whole, List.length_append]
              exact Nat.le_add_right _ _
  | readBytes n =>
      obtain ⟨reply, _, _⟩ := readBytes_matches bounded n
      simp only [motion, reply, ByteQueue.readBytes]
      split
      · rename_i data read
        split at read
        · cases read
        · split at read
          · cases read
          · split at read
            · cases read
            · simp only [Except.ok.injEq, Option.some.injEq] at read
              rw [← read, available_eq, List.length_take]
              exact min_le_right _ _
      · exact Nat.zero_le _

end ReadBuffer

section Cost

open ReadBuffer

abbrev BufferEvent := Event ReadBuffer BufferOp BufferReply

namespace BufferEvent

def motion (e : BufferEvent) : Motion := e.before.motion e.op

/-- The buffer that the call hands to `_maybe_compact`, if it does. -/
def cursor (e : BufferEvent) : ReadBuffer := e.before.advance e.motion.passed

def rebuilds (e : BufferEvent) : Prop := e.motion.compacts = true ∧ e.cursor.Compacts

instance (e : BufferEvent) : Decidable e.rebuilds := inferInstanceAs (Decidable (_ ∧ _))

def compactions (e : BufferEvent) : Nat := if e.rebuilds then 1 else 0

def copied (e : BufferEvent) : Nat := if e.rebuilds then e.cursor.available else 0

end BufferEvent

def BufferOp.size : BufferOp → Nat
  | .feed data => data.length
  | _ => 0

/-- The data and the cursor after a call: wiped, rebuilt from what is available, or only moved. -/
inductive StorageChange (e : BufferEvent) : Prop
  | wiped (still : e.motion = .still) (home : e.after.pos = 0) (empty : e.after.data = [])
  | rebuilt (rebuilds : e.rebuilds) (home : e.after.pos = 0)
      (size : e.after.data.length = e.cursor.available + e.motion.appended.length)
  | moved (kept : ¬ e.rebuilds) (place : e.after.pos = e.cursor.pos)
      (size : e.after.data.length = e.before.data.length + e.motion.appended.length)

theorem storage_change {b : ReadBuffer} (held : b.Compacted) (op : BufferOp) :
    StorageChange (event ReadBuffer.step b op) := by
  by_cases wiped : wipes op = true
  · cases op with
    | reset | clear => exact .wiped rfl rfl rfl
    | _ => cases wiped
  · obtain ⟨data, pos⟩ := step_store held (Bool.eq_false_iff.mpr wiped)
    unfold Motion.apply at data pos
    by_cases compacts : (b.motion op).compacts = true
    · rw [if_pos compacts] at data pos
      rcases (b.advance (b.motion op).passed).maybeCompact_cases with ⟨full, rebuilt⟩ | ⟨spare, same⟩
      · rw [rebuilt] at data pos
        refine .rebuilt ⟨compacts, full⟩ pos ?_
        have size := congrArg List.length data
        simp only [extend, List.length_append, ← available_eq] at size
        exact size
      · rw [same] at data pos
        refine .moved (fun both => spare both.2) pos ?_
        have size := congrArg List.length data
        simp only [extend, List.length_append, advance] at size
        exact size
    · rw [if_neg compacts] at data pos
      refine .moved (fun both => compacts both.1) pos ?_
      have size := congrArg List.length data
      simp only [extend, List.length_append, advance] at size
      exact size

namespace BufferEvent

variable {e : BufferEvent}

theorem still_kept (still : e.motion = .still) : ¬ e.rebuilds := by
  intro rebuilds
  have compacts := rebuilds.1
  rw [still] at compacts
  cases compacts

/-- The cost is that of `_maybe_compact`: a call that does not wipe leaves what it makes of the cursor, with the
bytes appended, and rebuilds where that is another buffer, whose data are the bytes copied. -/
theorem rebuilds_iff {b : ReadBuffer} (held : b.Compacted) {op : BufferOp} (keeps : wipes op = false) :
    let e : BufferEvent := event ReadBuffer.step b op
    (e.rebuilds ↔ e.motion.compacts = true ∧ e.cursor.maybeCompact ≠ e.cursor) ∧
      (e.rebuilds → e.cursor.maybeCompact.data.length = e.copied) ∧
      SameStore e.after
        ((if e.motion.compacts then e.cursor.maybeCompact else e.cursor).extend e.motion.appended) := by
  intro e
  have moves : e.cursor.Compacts ↔ e.cursor.maybeCompact ≠ e.cursor := by
    rcases e.cursor.maybeCompact_cases with ⟨full, rebuilt⟩ | ⟨spare, same⟩
    · have home : e.cursor.maybeCompact.pos = 0 := by rw [rebuilt]
      refine ⟨fun _ same => ?_, fun _ => full⟩
      have high := full.1
      rw [same] at home
      omega
    · exact ⟨fun full => absurd full spare, fun differs => absurd same differs⟩
  refine ⟨and_congr_right fun _ => moves, fun rebuilds => ?_, step_store held keeps⟩
  rcases e.cursor.maybeCompact_cases with ⟨_, rebuilt⟩ | ⟨spare, _⟩
  · rw [rebuilt, copied, if_pos rebuilds, available_eq]
  · exact absurd rebuilds.2 spare

theorem cursor_pos (e : BufferEvent) : e.cursor.pos = e.before.pos + e.motion.passed := rfl

theorem cursor_available (e : BufferEvent) :
    e.cursor.available = e.before.data.length - (e.before.pos + e.motion.passed) := rfl

/-- The cursor pays for what a compaction copies, less one byte. -/
theorem pays (change : StorageChange e) :
    e.copied + e.after.pos ≤ e.motion.passed + e.compactions + e.before.pos ∧
      (compactThreshold + 1) * e.compactions + e.after.pos ≤ e.motion.passed + e.before.pos := by
  cases change with
  | wiped still home =>
      rw [home, copied, compactions, if_neg (still_kept still), if_neg (still_kept still)]
      omega
  | rebuilt rebuilds home =>
      have high := rebuilds.2.1
      have half : e.before.data.length / 2 ≤ e.cursor.pos := rebuilds.2.2
      rw [cursor_pos] at high half
      rw [home, copied, compactions, if_pos rebuilds, if_pos rebuilds, cursor_available]
      omega
  | moved kept place =>
      rw [place, copied, compactions, if_neg kept, if_neg kept, cursor_pos]
      omega

theorem stored (change : StorageChange e) (within : e.motion.passed ≤ e.before.available) :
    e.motion.passed + e.after.available ≤ e.motion.appended.length + e.before.available := by
  have before : e.before.available = e.before.data.length - e.before.pos := rfl
  have after : e.after.available = e.after.data.length - e.after.pos := rfl
  cases change with
  | wiped still _ empty =>
      rw [after, still, empty]
      simp [Motion.still]
  | rebuilt _ home size =>
      rw [after, home, size, cursor_available]
      omega
  | moved _ place size =>
      rw [after, place, size, cursor_pos]
      omega

end BufferEvent

def storageBound (cap : Nat) : Nat := cap + max compactThreshold cap

structure Stored (cap : Nat) (b : ReadBuffer) : Prop where
  bounded : b.Bounded
  tight : b.queue.Tight cap
  compacted : b.Compacted

namespace Stored

variable {cap : Nat} {b : ReadBuffer}

theorem fresh (cap : Nat) : Stored cap (.fresh cap) := by
  obtain ⟨bounded, tight, compacted⟩ := storage_reachable (reachable_start ReadBuffer.step (ReadBuffer.fresh cap))
  exact ⟨bounded, tight, compacted⟩

theorem step (held : Stored cap b) (op : BufferOp) : Stored cap (b.step op).2 := by
  obtain ⟨_, kept, next⟩ := step_matches held.bounded op
  refine ⟨kept, ?_, held.compacted.step op⟩
  rw [next]
  exact ByteQueue.tight_step held.tight op

theorem length_le (held : Stored cap b) : b.data.length ≤ storageBound cap :=
  held.compacted.storage held.bounded held.tight.fits

theorem change (held : Stored cap b) (op : BufferOp) : StorageChange (event ReadBuffer.step b op) :=
  storage_change held.compacted op

end Stored

theorem appended_le (b : ReadBuffer) (op : BufferOp) : (b.motion op).appended.length ≤ op.size := by
  cases op with
  | feed data =>
      simp only [motion]
      split
      · exact Nat.zero_le _
      · split
        · exact Nat.zero_le _
        · rw [List.length_drop]
          exact Nat.sub_le _ _
  | readMessage | readBytes =>
      simp only [motion]
      split <;> exact Nat.zero_le _
  | skipMessage =>
      simp only [motion]
      split <;> exact Nat.zero_le _
  | hasMessage | peekHeader | peekBytes | poison | reset | clear => exact Nat.zero_le _

/-- Over any run the compactions copy at most as many bytes as were passed, and one more each; there is
at most one for every 4097 bytes passed, and no byte is passed that was not fed. -/
theorem compaction_paid (cap : Nat) (ops : List BufferOp) :
    let past := history ReadBuffer.step (.fresh cap) ops
    let copied := (past.map BufferEvent.copied).sum
    let compactions := (past.map BufferEvent.compactions).sum
    let passed := (past.map fun e => (BufferEvent.motion e).passed).sum
    copied ≤ passed + compactions ∧ (compactThreshold + 1) * compactions ≤ passed ∧
      passed ≤ (ops.map BufferOp.size).sum := by
  intro past copied compactions passed
  have kept : ∀ (b : ReadBuffer) (op : BufferOp), Stored cap b → Stored cap (b.step op).2 :=
    fun _ op held => held.step op
  refine ⟨?_, ?_, ?_⟩
  · have paid := amortized ReadBuffer.step (Stored cap) BufferEvent.copied
      (fun e => (BufferEvent.motion e).passed + BufferEvent.compactions e) ReadBuffer.pos (Stored.fresh cap) kept
      (fun _ op held => (BufferEvent.pays (held.change op)).1) ops
    rw [List.sum_map_add] at paid
    exact (Nat.le_add_right _ _).trans paid
  · have paid := amortized ReadBuffer.step (Stored cap)
      (fun e => (compactThreshold + 1) * BufferEvent.compactions e)
      (fun e => (BufferEvent.motion e).passed) ReadBuffer.pos (Stored.fresh cap) kept
      (fun _ op held => (BufferEvent.pays (held.change op)).2) ops
    rw [List.sum_map_mul_left] at paid
    exact (Nat.le_add_right _ _).trans paid
  · have paid := amortized ReadBuffer.step (Stored cap) (fun e => (BufferEvent.motion e).passed)
      (fun e => e.op.size) ReadBuffer.available (Stored.fresh cap) kept
      (fun b op held => (BufferEvent.stored (held.change op) (motion_within held.bounded op)).trans
        (Nat.add_le_add_right (appended_le b op) _)) ops
    have sizes : (past.map fun e => e.op.size) = ops.map BufferOp.size := by
      rw [← history_ops ReadBuffer.step (.fresh cap) ops, List.map_map]
      rfl
    rw [sizes] at paid
    exact (Nat.le_add_right _ _).trans paid

def storedBytes (past : List BufferEvent) : Nat := (past.map fun e => e.motion.appended.length).sum

/-- Whether a call copies the byte that was stored at place `x`, when `count` bytes have been stored. -/
def BufferEvent.copies (x count : Nat) (e : BufferEvent) : Nat :=
  if e.rebuilds ∧ count ≤ x + e.cursor.available ∧ x < count then 1 else 0

def copiesOf (x : Nat) : Nat → List BufferEvent → Nat
  | _, [] => 0
  | count, e :: later => e.copies x count + copiesOf x (count + e.motion.appended.length) later

theorem copiesOf_concat (x count : Nat) (past : List BufferEvent) (e : BufferEvent) :
    copiesOf x count (past ++ [e]) = copiesOf x count past + e.copies x (count + storedBytes past) := by
  induction past generalizing count with
  | nil => simp [copiesOf, storedBytes]
  | cons first past ih =>
      rw [List.cons_append, copiesOf, copiesOf, ih, storedBytes, storedBytes, List.map_cons, List.sum_cons,
        Nat.add_assoc, Nat.add_assoc]

theorem storedBytes_concat (past : List BufferEvent) (e : BufferEvent) :
    storedBytes (past ++ [e]) = storedBytes past + e.motion.appended.length := by
  simp [storedBytes]

/-- A byte that has been copied `k` times is found below the `k`-th half of the storage, and was above
the threshold before the last time. -/
structure Halved (cap x count : Nat) (k size : Nat) : Prop where
  room : size ≤ count
  place : count ≤ x + size → x < count → 2 ^ k * (x + size - count) < storageBound cap
  copied : k = 0 ∨ 2 ^ k * (compactThreshold + 1) < 2 * storageBound cap
  later : count ≤ x → k = 0

theorem Halved.step {cap x count k : Nat} {e : BufferEvent} (held : Halved cap x count k e.before.data.length)
    (change : StorageChange e) (fits : e.after.data.length ≤ storageBound cap) :
    Halved cap x (count + e.motion.appended.length) (k + e.copies x count)
      e.after.data.length := by
  obtain ⟨room, place, copied, later⟩ := held
  cases change with
  | wiped still _ empty =>
      have none : e.copies x count = 0 := if_neg fun all => e.still_kept still all.1
      rw [none, still, empty, List.length_nil]
      exact ⟨Nat.zero_le _, fun low high => absurd low (by simpa [Motion.still] using high), copied, later⟩
  | moved kept _ size =>
      have none : e.copies x count = 0 := if_neg fun all => kept all.1
      rw [none, size]
      refine ⟨by omega, fun low high => ?_, copied, fun ahead => later (by omega)⟩
      by_cases old : x < count
      · have same : x + (e.before.data.length + e.motion.appended.length) -
            (count + e.motion.appended.length) = x + e.before.data.length - count := by omega
        rw [same]
        exact place (by omega) old
      · rw [Nat.add_zero, later (by omega), pow_zero, one_mul]
        omega
  | rebuilt rebuilds _ size =>
      have high : compactThreshold < e.cursor.pos := rebuilds.2.1
      have half : e.before.data.length / 2 ≤ e.cursor.pos := rebuilds.2.2
      have rest : e.cursor.available = e.before.data.length - e.cursor.pos := rfl
      by_cases now : count ≤ x + e.cursor.available ∧ x < count
      · have once : e.copies x count = 1 := if_pos ⟨rebuilds, now⟩
        have before := place (by omega) now.2
        have twice : 2 ^ (k + 1) = 2 * 2 ^ k := by rw [pow_succ, mul_comm]
        rw [once, size]
        refine ⟨by omega, fun _ _ => ?_, Or.inr ?_, fun ahead => absurd now.2 (by omega)⟩
        · -- the cursor is past half of the data, and so the place is at least halved
          have halved : 2 * (x + (e.cursor.available + e.motion.appended.length) -
              (count + e.motion.appended.length)) ≤ x + e.before.data.length - count := by omega
          calc 2 ^ (k + 1) * (x + (e.cursor.available + e.motion.appended.length) -
                (count + e.motion.appended.length))
              = 2 ^ k * (2 * (x + (e.cursor.available + e.motion.appended.length) -
                (count + e.motion.appended.length))) := by rw [twice, mul_comm 2, mul_assoc]
            _ ≤ 2 ^ k * (x + e.before.data.length - count) := Nat.mul_le_mul_left _ halved
            _ < storageBound cap := before
        · have above : compactThreshold + 1 ≤ x + e.before.data.length - count := by omega
          rw [twice, mul_assoc]
          apply Nat.mul_lt_mul_of_pos_left _ (by decide)
          exact (Nat.mul_le_mul_left _ above).trans_lt before
      · have none : e.copies x count = 0 := if_neg fun all => now all.2
        rw [none, size]
        refine ⟨by omega, fun low high' => ?_, copied, fun ahead => later (by omega)⟩
        rw [Nat.add_zero, later (by omega), pow_zero, one_mul]
        omega

/-- Over any run no byte is copied more often than the storage can be halved before it falls below the
threshold: twice where the cap is two thresholds or less, more often above. -/
theorem byte_copies (cap : Nat) (ops : List BufferOp) (x : Nat) :
    2 ^ copiesOf x 0 (history ReadBuffer.step (.fresh cap) ops) * (compactThreshold + 1) <
      2 * storageBound cap := by
  have held := run_invariant ReadBuffer.step
    (fun past b => Stored cap b ∧ Halved cap x (storedBytes past) (copiesOf x 0 past) b.data.length) (fun _ => True)
    ⟨Stored.fresh cap, ?_⟩ ?_ ops (by simp)
  · rcases held.2.copied with none | some
    · rw [none, pow_zero, one_mul, storageBound]
      have low : compactThreshold ≤ max compactThreshold cap := le_max_left _ _
      have threshold : compactThreshold = 4096 := rfl
      omega
    · exact some
  · exact ⟨Nat.zero_le _, fun _ high => absurd high (Nat.not_lt_zero x), Or.inl rfl, fun _ => rfl⟩
  · intro past b op _ held
    obtain ⟨stored, halved⟩ := held
    have next := stored.step op
    refine ⟨next, ?_⟩
    rw [storedBytes_concat, copiesOf_concat, Nat.zero_add]
    exact halved.step (stored.change op) next.length_le

end Cost

end DqliteWire
