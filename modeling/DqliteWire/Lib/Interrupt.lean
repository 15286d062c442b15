import Mathlib.Tactic

/-! Programs at the granularity of source lines, and an asynchronous exception that is raised once,
before one of the lines they execute. A countdown says how many more lines run before it comes;
without a countdown it does not come, or has come already. -/

namespace WireLib

/-- What leaves a program: an exception of its own, or the interrupt with the line it was raised
at, under the lines of the calls it was raised in. -/
inductive Thrown (ε ℓ : Type)
  | raised (e : ε)
  | interrupted (trace : List ℓ)
  deriving DecidableEq, Repr

structure Outcome (σ ε ℓ α : Type) where
  result : Except (Thrown ε ℓ) α
  countdown : Option Nat
  state : σ
  deriving DecidableEq, Repr

/-- A program over the state `σ`, with exceptions `ε` and lines `ℓ`. -/
def Interruptible (σ ε ℓ α : Type) : Type := Option Nat → σ → Outcome σ ε ℓ α

namespace Interruptible

variable {σ τ ε ℓ α β : Type}

instance : Monad (Interruptible σ ε ℓ) where
  pure a := fun countdown s => ⟨.ok a, countdown, s⟩
  bind x f := fun countdown s =>
    match x countdown s with
    | ⟨.ok a, countdown, s⟩ => f a countdown s
    | ⟨.error t, countdown, s⟩ => ⟨.error t, countdown, s⟩

/-- The line `l` is about to run: the interrupt comes now, or one line later than before. -/
def line (l : ℓ) : Interruptible σ ε ℓ Unit := fun countdown s =>
  match countdown with
  | some 0 => ⟨.error (.interrupted [l]), none, s⟩
  | some (n + 1) => ⟨.ok (), some n, s⟩
  | none => ⟨.ok (), none, s⟩

def get : Interruptible σ ε ℓ σ := fun countdown s => ⟨.ok s, countdown, s⟩

def modify (f : σ → σ) : Interruptible σ ε ℓ Unit := fun countdown s => ⟨.ok (), countdown, f s⟩

def reraise (t : Thrown ε ℓ) : Interruptible σ ε ℓ α := fun countdown s => ⟨.error t, countdown, s⟩

def raise (e : ε) : Interruptible σ ε ℓ α := reraise (.raised e)

/-- `try: body` with the `except` clauses as one handler. The clauses run what is left of the
countdown, which after the interrupt is nothing. -/
def tryExcept (body : Interruptible σ ε ℓ α) (handler : Thrown ε ℓ → Interruptible σ ε ℓ α) :
    Interruptible σ ε ℓ α := fun countdown s =>
  match body countdown s with
  | ⟨.ok a, countdown, s⟩ => ⟨.ok a, countdown, s⟩
  | ⟨.error t, countdown, s⟩ => handler t countdown s

/-- A line that calls `body`: an interrupt inside of it is one at this line. -/
def call (l : ℓ) (body : Interruptible σ ε ℓ α) : Interruptible σ ε ℓ α := do
  line l
  tryExcept body fun t => match t with
    | .raised e => raise e
    | .interrupted trace => reraise (.interrupted (l :: trace))

def onPart (part : σ → τ) (put : σ → τ → σ) (body : Interruptible τ ε ℓ α) :
    Interruptible σ ε ℓ α := fun countdown s =>
  match body countdown (part s) with
  | ⟨result, countdown, t⟩ => ⟨result, countdown, put s t⟩

def work (l : ℓ) : Nat → Interruptible σ ε ℓ Unit
  | 0 => pure ()
  | n + 1 => do
    line l
    work l n

def compute (l : ℓ) (n : Nat) (value : Except ε α) : Interruptible σ ε ℓ α := do
  work l n
  match value with
  | .ok a => pure a
  | .error e => raise e

/-- The interrupt, at some line of the program, leaves with this trace and this state. -/
def InterruptedAt (x : Interruptible σ ε ℓ α) (s : σ) (trace : List ℓ) (after : σ) : Prop :=
  ∃ countdown left, x (some countdown) s = ⟨.error (.interrupted trace), left, after⟩

def settled (reply : Except ε α × σ) : Outcome σ ε ℓ α :=
  ⟨reply.1.mapError .raised, none, reply.2⟩

def Leaves (onInterrupt : List ℓ → σ → Prop) (o : Outcome σ ε ℓ α) : Prop :=
  ∃ trace s, o = ⟨.error (.interrupted trace), none, s⟩ ∧ onInterrupt trace s

/-- Interrupted as in `onInterrupt`, or through as in `onExit` with the interrupt still to come if
it was to come. -/
def Ends (onInterrupt : List ℓ → σ → Prop) (onExit : Except ε α → σ → Prop) (awaited : Bool) :
    Outcome σ ε ℓ α → Prop
  | ⟨.ok a, countdown, s⟩ => countdown.isSome = awaited ∧ onExit (.ok a) s
  | ⟨.error (.raised e), countdown, s⟩ => countdown.isSome = awaited ∧ onExit (.error e) s
  | ⟨.error (.interrupted trace), countdown, s⟩ =>
    awaited = true ∧ countdown = none ∧ onInterrupt trace s

/-- What leaves the program from `s`, wherever the interrupt comes: every interruption point
satisfies `onInterrupt`, and the run without one `onExit`. -/
def Covers (x : Interruptible σ ε ℓ α) (s : σ) (onInterrupt : List ℓ → σ → Prop)
    (onExit : Except ε α → σ → Prop) : Prop :=
  ∀ countdown, Ends onInterrupt onExit countdown.isSome (x countdown s)

def After (f : α → Interruptible σ ε ℓ β) (onInterrupt : List ℓ → σ → Prop)
    (onExit : Except ε β → σ → Prop) : Except ε α → σ → Prop
  | .ok a, s => Covers (f a) s onInterrupt onExit
  | .error e, s => onExit (.error e) s

def Handled (handler : Thrown ε ℓ → Interruptible σ ε ℓ α) (onInterrupt : List ℓ → σ → Prop)
    (onExit : Except ε α → σ → Prop) : Except ε α → σ → Prop
  | .ok a, s => onExit (.ok a) s
  | .error e, s => Covers (handler (.raised e)) s onInterrupt onExit

section Rules

variable {s : σ} {I J : List ℓ → σ → Prop} {N M : Except ε α → σ → Prop}
  {N' : Except ε β → σ → Prop} {x : Interruptible σ ε ℓ α} {f : α → Interruptible σ ε ℓ β}

theorem covers_pure {a : α} : Covers (pure a : Interruptible σ ε ℓ α) s I N ↔ N (.ok a) s := by
  constructor
  · intro covered
    exact (covered none).2
  · intro held countdown
    exact ⟨rfl, held⟩

theorem covers_raise {e : ε} : Covers (raise e : Interruptible σ ε ℓ α) s I N ↔ N (.error e) s := by
  constructor
  · intro covered
    exact (covered none).2
  · intro held countdown
    exact ⟨rfl, held⟩

theorem covers_line_bind {l : ℓ} {f : Unit → Interruptible σ ε ℓ β} :
    Covers (line l >>= f) s I N' ↔ I [l] s ∧ Covers (f ()) s I N' := by
  constructor
  · intro covered
    refine ⟨(covered (some 0)).2.2, fun countdown => ?_⟩
    cases countdown with
    | none => exact covered none
    | some n => exact covered (some (n + 1))
  · rintro ⟨now, later⟩ countdown
    match countdown with
    | none => exact later none
    | some 0 => exact ⟨rfl, rfl, now⟩
    | some (n + 1) => exact later (some n)

theorem covers_line {l : ℓ} {N : Except ε Unit → σ → Prop} :
    Covers (line l : Interruptible σ ε ℓ Unit) s I N ↔ I [l] s ∧ N (.ok ()) s := by
  constructor
  · intro covered
    exact ⟨(covered (some 0)).2.2, (covered none).2⟩
  · rintro ⟨now, exit⟩ countdown
    match countdown with
    | none => exact ⟨rfl, exit⟩
    | some 0 => exact ⟨rfl, rfl, now⟩
    | some (n + 1) => exact ⟨rfl, exit⟩

theorem covers_get_bind {f : σ → Interruptible σ ε ℓ β} :
    Covers (get >>= f) s I N' ↔ Covers (f s) s I N' := Iff.rfl

theorem covers_modify {g : σ → σ} {N : Except ε Unit → σ → Prop} :
    Covers (modify g : Interruptible σ ε ℓ Unit) s I N ↔ N (.ok ()) (g s) := by
  constructor
  · intro covered
    exact (covered none).2
  · intro held countdown
    exact ⟨rfl, held⟩

theorem covers_modify_bind {g : σ → σ} {f : Unit → Interruptible σ ε ℓ β} :
    Covers (modify g >>= f) s I N' ↔ Covers (f ()) (g s) I N' := Iff.rfl

theorem Covers.mono (covered : Covers x s I N) (points : ∀ trace s, I trace s → J trace s)
    (exits : ∀ r s, N r s → M r s) : Covers x s J M := by
  intro countdown
  have ended := covered countdown
  generalize x countdown s = o at ended ⊢
  rcases o with ⟨(e | trace) | a, left, after⟩
  · exact ⟨ended.1, exits _ _ ended.2⟩
  · exact ⟨ended.1, ended.2.1, points _ _ ended.2.2⟩
  · exact ⟨ended.1, exits _ _ ended.2⟩

theorem Covers.bind (first : Covers x s I (After f I N')) : Covers (x >>= f) s I N' := by
  intro countdown
  have ended := first countdown
  change Ends I N' countdown.isSome (match x countdown s with
    | ⟨.ok a, countdown, s⟩ => f a countdown s
    | ⟨.error t, countdown, s⟩ => ⟨.error t, countdown, s⟩)
  generalize x countdown s = o at ended ⊢
  rcases o with ⟨(e | trace) | a, left, after⟩
  · exact ended
  · exact ended
  · have next := ended.2 left
    rw [ended.1] at next
    exact next

/-- After an interrupt the handler runs undisturbed, and must let the interrupt through. -/
theorem Covers.tryExcept {handler : Thrown ε ℓ → Interruptible σ ε ℓ α}
    (body : Covers x s (fun trace s => Leaves I (handler (.interrupted trace) none s))
      (Handled handler I N)) : Covers (tryExcept x handler) s I N := by
  intro countdown
  have ended := body countdown
  unfold Interruptible.tryExcept
  generalize x countdown s = o at ended ⊢
  rcases o with ⟨(e | trace) | a, left, after⟩
  · have next := ended.2 left
    rw [ended.1] at next
    exact next
  · obtain ⟨awaited, gone, trace', s', same, held⟩ := ended
    simp only [gone, same]
    exact ⟨awaited, rfl, held⟩
  · exact ended

theorem Covers.call {l : ℓ} (entered : I [l] s)
    (inside : Covers x s (fun trace => I (l :: trace)) N) : Covers (call l x) s I N := by
  refine covers_line_bind.mpr ⟨entered, Covers.tryExcept (inside.mono ?_ ?_)⟩
  · intro trace after held
    exact ⟨_, _, rfl, held⟩
  · intro reply after held
    cases reply with
    | ok a => exact held
    | error e => exact covers_raise.mpr held

theorem Covers.call_bind {l : ℓ} (entered : I [l] s)
    (inside : Covers x s (fun trace => I (l :: trace)) (After f I N')) :
    Covers (Interruptible.call l x >>= f) s I N' := (Covers.call entered inside).bind

theorem Covers.onPart {part : σ → τ} {put : σ → τ → σ} {x : Interruptible τ ε ℓ α}
    (inside : Covers x (part s) (fun trace t => I trace (put s t)) fun r t => N r (put s t)) :
    Covers (onPart part put x) s I N := by
  intro countdown
  have ended := inside countdown
  unfold Interruptible.onPart
  generalize x countdown (part s) = o at ended ⊢
  rcases o with ⟨(e | trace) | a, left, after⟩ <;> exact ended

theorem Covers.work {l : ℓ} {N : Except ε Unit → σ → Prop} (point : I [l] s) (exit : N (.ok ()) s)
    (n : Nat) : Covers (work l n) s I N := by
  induction n with
  | zero => exact covers_pure.mpr exit
  | succ n ih => exact covers_line_bind.mpr ⟨point, ih⟩

theorem Covers.compute {l : ℓ} {value : Except ε α} (point : I [l] s) (exit : N value s) (n : Nat) :
    Covers (compute l n value) s I N := by
  refine Covers.bind (Covers.work point ?_ n)
  cases value with
  | ok a => exact covers_pure.mpr exit
  | error e => exact covers_raise.mpr exit

/-- Left alone, the program does what its exit condition says. -/
theorem Covers.quiet {reply : Except ε α × σ} (covered : Covers x s I fun r t => (r, t) = reply) :
    x none s = settled reply := by
  have ended := covered none
  generalize x none s = o at ended ⊢
  rcases o with ⟨(e | trace) | a, left, after⟩
  · obtain ⟨gone, rfl⟩ := ended
    rw [Option.isSome_none, Option.isSome_eq_false_iff, Option.isNone_iff_eq_none] at gone
    rw [gone]
    rfl
  · cases ended.1
  · obtain ⟨gone, rfl⟩ := ended
    rw [Option.isSome_none, Option.isSome_eq_false_iff, Option.isNone_iff_eq_none] at gone
    rw [gone]
    rfl

theorem Covers.point (covered : Covers x s I N) {trace : List ℓ} {after : σ}
    (interrupted : InterruptedAt x s trace after) : I trace after := by
  obtain ⟨countdown, left, leaves⟩ := interrupted
  have ended := covered (some countdown)
  rw [leaves] at ended
  exact ended.2.2

end Rules

section Undisturbed

variable {s : σ} {f : Unit → Interruptible σ ε ℓ β}

@[simp] theorem line_bind_none {l : ℓ} : (line l >>= f) none s = f () none s := rfl

@[simp] theorem get_bind {f : σ → Interruptible σ ε ℓ β} {countdown : Option Nat} :
    (get >>= f) countdown s = f s countdown s := rfl

theorem call_bind_none {l : ℓ} {x : Interruptible σ ε ℓ α} {f : α → Interruptible σ ε ℓ β} {a : α}
    {after : σ} (quiet : x none s = settled (.ok a, after)) :
    (call l x >>= f) none s = f a none after := by
  change (match (match x none s with
    | ⟨.ok a, countdown, s⟩ => (⟨.ok a, countdown, s⟩ : Outcome σ ε ℓ α)
    | ⟨.error t, countdown, s⟩ => _) with
    | ⟨.ok a, countdown, s⟩ => f a countdown s
    | ⟨.error t, countdown, s⟩ => ⟨.error t, countdown, s⟩) = _
  rw [quiet]
  rfl

theorem onPart_none {part : σ → τ} {put : σ → τ → σ} {x : Interruptible τ ε ℓ α}
    {reply : Except ε α} {t : τ} (quiet : x none (part s) = settled (reply, t)) :
    onPart part put x none s = settled (reply, put s t) := by
  unfold onPart
  rw [quiet]
  rfl

end Undisturbed

end Interruptible

end WireLib
