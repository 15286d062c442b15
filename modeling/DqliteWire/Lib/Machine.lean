import Mathlib.Tactic

/-! Runs of a deterministic component whose every operation returns a reply. A history records
each call with the states around it; an invariant may speak of the history and the state. -/

namespace WireLib

structure Event (State Op Reply : Type) where
  before : State
  op : Op
  reply : Reply
  after : State
  deriving DecidableEq, Repr

section Run

variable {State Op Reply : Type} (step : State → Op → Reply × State)

def event (s : State) (op : Op) : Event State Op Reply :=
  ⟨s, op, (step s op).1, (step s op).2⟩

def run : State → List Op → List (Event State Op Reply) × State
  | s, [] => ([], s)
  | s, op :: ops =>
    let rest := run (step s op).2 ops
    (event step s op :: rest.1, rest.2)

def history (s : State) (ops : List Op) : List (Event State Op Reply) := (run step s ops).1

def final (s : State) (ops : List Op) : State := (run step s ops).2

@[simp] theorem history_nil (s : State) : history step s [] = [] := rfl

@[simp] theorem final_nil (s : State) : final step s [] = s := rfl

@[simp] theorem history_cons (s : State) (op : Op) (ops : List Op) :
    history step s (op :: ops) = event step s op :: history step (step s op).2 ops := rfl

@[simp] theorem final_cons (s : State) (op : Op) (ops : List Op) :
    final step s (op :: ops) = final step (step s op).2 ops := rfl

theorem final_append (s : State) (first second : List Op) :
    final step s (first ++ second) = final step (final step s first) second := by
  induction first generalizing s with
  | nil => rfl
  | cons op ops ih => exact ih _

theorem history_append (s : State) (first second : List Op) :
    history step s (first ++ second) =
      history step s first ++ history step (final step s first) second := by
  induction first generalizing s with
  | nil => rfl
  | cons op ops ih => simp [ih]

theorem history_concat (s : State) (ops : List Op) (op : Op) :
    history step s (ops ++ [op]) = history step s ops ++ [event step (final step s ops) op] := by
  rw [history_append]
  rfl

theorem final_concat (s : State) (ops : List Op) (op : Op) :
    final step s (ops ++ [op]) = (step (final step s ops) op).2 := by
  rw [final_append]
  rfl

theorem history_ops (s : State) (ops : List Op) : (history step s ops).map Event.op = ops := by
  induction ops generalizing s with
  | nil => rfl
  | cons op ops ih => simp [ih, event]

/-- The invariant rule: what holds before any call and survives each allowed call holds after
every run, of its history and of its last state. -/
theorem run_invariant (Inv : List (Event State Op Reply) → State → Prop) (Allowed : Op → Prop)
    {start : State} (initially : Inv [] start)
    (preserved : ∀ past s op, Allowed op → Inv past s →
      Inv (past ++ [event step s op]) (step s op).2)
    (ops : List Op) (allowed : ∀ op ∈ ops, Allowed op) :
    Inv (history step start ops) (final step start ops) := by
  induction ops using List.reverseRecOn with
  | nil => exact initially
  | append_singleton ops op ih =>
      have earlier : ∀ o ∈ ops, Allowed o := fun o member => allowed o (by simp [member])
      rw [history_concat, final_concat]
      exact preserved _ _ op (allowed op (by simp)) (ih earlier)

theorem final_invariant (Inv : State → Prop) (Allowed : Op → Prop) {start : State}
    (initially : Inv start) (preserved : ∀ s op, Allowed op → Inv s → Inv (step s op).2)
    (ops : List Op) (allowed : ∀ op ∈ ops, Allowed op) : Inv (final step start ops) :=
  run_invariant step (fun _ s => Inv s) Allowed initially
    (fun _ s op allow held => preserved s op allow held) ops allowed

def Reachable (start s : State) : Prop := ∃ ops, final step start ops = s

theorem reachable_invariant (Inv : State → Prop) {start s : State}
    (reachable : Reachable step start s) (initially : Inv start)
    (preserved : ∀ s op, Inv s → Inv (step s op).2) : Inv s := by
  obtain ⟨ops, rfl⟩ := reachable
  exact final_invariant step Inv (fun _ => True) initially
    (fun s op _ held => preserved s op held) ops (by simp)

theorem reachable_start (start : State) : Reachable step start start := ⟨[], rfl⟩

theorem Reachable.trans {start middle s : State} (first : Reachable step start middle)
    (second : Reachable step middle s) : Reachable step start s := by
  obtain ⟨earlier, rfl⟩ := first
  obtain ⟨later, rfl⟩ := second
  exact ⟨earlier ++ later, final_append step start earlier later⟩

theorem mem_history {start : State} {ops : List Op} {e : Event State Op Reply}
    (member : e ∈ history step start ops) :
    Reachable step start e.before ∧ e = event step e.before e.op := by
  induction ops generalizing start with
  | nil => cases member
  | cons op ops ih =>
      rcases List.mem_cons.mp member with now | later
      · rw [now]
        exact ⟨reachable_start step start, rfl⟩
      · obtain ⟨reachable, shape⟩ := ih later
        exact ⟨Reachable.trans step ⟨[op], rfl⟩ reachable, shape⟩

/-- The potential method: where each call pays for what it costs, with what it brings in or what was
saved before, a run costs no more than it brings in. -/
theorem amortized (Inv : State → Prop) (cost income : Event State Op Reply → Nat) (potential : State → Nat)
    {start : State} (initially : Inv start) (preserved : ∀ s op, Inv s → Inv (step s op).2)
    (pays : ∀ s op, Inv s →
      cost (event step s op) + potential (step s op).2 ≤ income (event step s op) + potential s)
    (ops : List Op) :
    ((history step start ops).map cost).sum + potential (final step start ops) ≤
      ((history step start ops).map income).sum + potential start := by
  induction ops generalizing start with
  | nil => exact le_rfl
  | cons op ops ih =>
      have now := pays start op initially
      have later := ih (preserved start op initially)
      rw [history_cons, final_cons, List.map_cons, List.map_cons, List.sum_cons, List.sum_cons]
      omega

end Run

section Simulation

variable {State Model Op Reply : Type} (step : State → Op → Reply × State)
  (model : Model → Op → Reply × Model)

def replies (past : List (Event State Op Reply)) : List (Op × Reply) :=
  past.map fun e => (e.op, e.reply)

theorem replies_concat (past : List (Event State Op Reply)) (e : Event State Op Reply) :
    replies (past ++ [e]) = replies past ++ [(e.op, e.reply)] := by
  simp [replies]

/-- A step-by-step simulation that returns the same replies is one of whole runs. -/
theorem run_simulation (Related : State → Model → Prop)
    (simulated : ∀ s m op, Related s m →
      (step s op).1 = (model m op).1 ∧ Related (step s op).2 (model m op).2)
    (ops : List Op) {s : State} {m : Model} (related : Related s m) :
    replies (history step s ops) = replies (history model m ops) ∧
      Related (final step s ops) (final model m ops) := by
  induction ops generalizing s m with
  | nil => exact ⟨rfl, related⟩
  | cons op ops ih =>
      obtain ⟨same, next⟩ := simulated s m op related
      obtain ⟨others, last⟩ := ih next
      refine ⟨?_, last⟩
      simp only [replies, history_cons, List.map_cons, event, same] at others ⊢
      rw [others]

end Simulation

section Stutter

variable {State Model Op ModelOp Reply ModelReply : Type} (step : State → Op → Reply × State)
  (model : Model → ModelOp → ModelReply × Model) (shadow : State → Op → List ModelOp)

def shadows : State → List Op → List ModelOp
  | _, [] => []
  | s, op :: ops => shadow s op ++ shadows (step s op).2 ops

/-- A simulation in which each call stands for any number of calls of the model: what is seen of the
run is what is seen of the model. -/
theorem stutter_simulation {Seen : Type} (seen : Event State Op Reply → List Seen)
    (shown : Event Model ModelOp ModelReply → List Seen) (Related : State → Model → Prop)
    (Allowed : Op → Prop)
    (simulated : ∀ s m op, Allowed op → Related s m →
      seen (event step s op) = (history model m (shadow s op)).flatMap shown ∧
        Related (step s op).2 (final model m (shadow s op)))
    (ops : List Op) (allowed : ∀ op ∈ ops, Allowed op) {s : State} {m : Model} (related : Related s m) :
    (history step s ops).flatMap seen =
        (history model m (shadows step shadow s ops)).flatMap shown ∧
      Related (final step s ops) (final model m (shadows step shadow s ops)) := by
  induction ops generalizing s m with
  | nil => exact ⟨rfl, related⟩
  | cons op ops ih =>
      obtain ⟨now, next⟩ := simulated s m op (allowed op (by simp)) related
      obtain ⟨later, last⟩ := ih (fun o member => allowed o (by simp [member])) next
      rw [shadows, history_append, final_append, List.flatMap_append, history_cons,
        List.flatMap_cons, now, later]
      exact ⟨rfl, last⟩

end Stutter

end WireLib
