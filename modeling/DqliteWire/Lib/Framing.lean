import Mathlib.Tactic

/-! Length-prefixed framing of a stream. A frame starts with a header of fixed width that
determines the size of the whole frame; a reader with a size cap looks at the head of the stream
only. `cut` is the division of a stream into frames up to the first boundary without one. -/

namespace WireLib

structure Framing (α : Type) where
  header : Nat
  header_pos : 0 < header
  /-- The size the header at the start of the stream claims, the header included. -/
  size : List α → Nat
  header_le_size : ∀ s, header ≤ size s
  size_take : ∀ s, size (s.take header) = size s

inductive Head (α : Type)
  | incomplete
  | oversized
  | frame (frame rest : List α)
  deriving DecidableEq, Repr

namespace Framing

variable {α : Type} (F : Framing α) (cap : Nat)

def head (s : List α) : Head α :=
  if s.length < F.header then .incomplete
  else if cap < F.size s then .oversized
  else if s.length < F.size s then .incomplete
  else .frame (s.take (F.size s)) (s.drop (F.size s))

theorem head_short {s : List α} (short : s.length < F.header) : F.head cap s = .incomplete :=
  if_pos short

theorem head_large {s : List α} (long : F.header ≤ s.length) (large : cap < F.size s) :
    F.head cap s = .oversized := by
  rw [head, if_neg (by omega), if_pos large]

theorem head_lacking {s : List α} (small : F.size s ≤ cap) (lacking : s.length < F.size s) :
    F.head cap s = .incomplete := by
  rw [head, if_neg (show ¬ cap < F.size s by omega), if_pos lacking, ite_self]

theorem head_complete {s : List α} (small : F.size s ≤ cap) (complete : F.size s ≤ s.length) :
    F.head cap s = .frame (s.take (F.size s)) (s.drop (F.size s)) := by
  have wide := F.header_le_size s
  rw [head, if_neg (by omega), if_neg (by omega), if_neg (by omega)]

structure IsFrame (f : List α) : Prop where
  length_eq : f.length = F.size f
  within : f.length ≤ cap

theorem IsFrame.header_le {f : List α} (legal : F.IsFrame cap f) : F.header ≤ f.length := by
  rw [legal.length_eq]
  exact F.header_le_size f

theorem IsFrame.ne_nil {f : List α} (legal : F.IsFrame cap f) : f ≠ [] := by
  intro empty
  have bound := legal.header_le
  have positive := F.header_pos
  simp only [empty, List.length_nil] at bound
  omega

theorem size_append (s t : List α) (bound : F.header ≤ s.length) : F.size (s ++ t) = F.size s := by
  rw [← F.size_take (s ++ t), List.take_append_of_le_length bound, F.size_take]

theorem head_frame {s f rest : List α} (found : F.head cap s = .frame f rest) :
    s = f ++ rest ∧ F.IsFrame cap f := by
  unfold head at found
  split at found
  · cases found
  · split at found
    · cases found
    · split at found
      · cases found
      · rename_i long small complete
        simp only [Head.frame.injEq] at found
        obtain ⟨rfl, rfl⟩ := found
        have width : (s.take (F.size s)).length = F.size s := by
          rw [List.length_take]
          omega
        have same : F.size (s.take (F.size s)) = F.size s := by
          have cut := F.size_append (s.take (F.size s)) (s.drop (F.size s))
            (by rw [width]; exact F.header_le_size s)
          rw [← cut, List.take_append_drop]
        refine ⟨(List.take_append_drop _ s).symm, ?_, ?_⟩
        · rw [width, same]
        · rw [width]
          omega

theorem head_append_frame {f : List α} (legal : F.IsFrame cap f) (rest : List α) :
    F.head cap (f ++ rest) = .frame f rest := by
  have wide := legal.header_le
  have size := F.size_append f rest wide
  have within := legal.within
  have exact_ := legal.length_eq
  have complete : F.size (f ++ rest) ≤ (f ++ rest).length := by
    rw [size, List.length_append]
    omega
  rw [F.head_complete cap (by omega) complete, size, ← exact_]
  simp

theorem head_oversized_append {s : List α} (found : F.head cap s = .oversized) (t : List α) :
    F.head cap (s ++ t) = .oversized := by
  unfold head at found
  split at found
  · cases found
  · split at found
    · rename_i long large
      have size := F.size_append s t (by omega)
      exact F.head_large cap (by rw [List.length_append]; omega) (by omega)
    · split at found <;> cases found

theorem head_oversized_iff {s : List α} :
    F.head cap s = .oversized ↔ F.header ≤ s.length ∧ cap < F.size s := by
  unfold head
  split
  · rename_i short
    simp only [reduceCtorEq, false_iff]
    omega
  · split
    · rename_i long large
      simp only [true_iff]
      omega
    · rename_i long small
      split <;> simp only [reduceCtorEq, false_iff] <;> omega

theorem head_nil : F.head cap ([] : List α) = .incomplete := F.head_short cap F.header_pos

/-- Frames in order and the bytes after the last, up to the first boundary without a frame. -/
def cut (s : List α) : List (List α) × List α :=
  match _found : F.head cap s with
  | .frame f rest =>
    let (frames, tail) := cut rest
    (f :: frames, tail)
  | _ => ([], s)
termination_by s.length
decreasing_by
  obtain ⟨whole, legal⟩ := F.head_frame cap _found
  have wide := legal.header_le
  have positive := F.header_pos
  rw [whole, List.length_append]
  omega

theorem cut_of_frame {s f rest : List α} (found : F.head cap s = .frame f rest) :
    F.cut cap s = (f :: (F.cut cap rest).1, (F.cut cap rest).2) := by
  rw [cut]
  split
  · rename_i g tail same
    rw [found] at same
    cases same
    rfl
  · rename_i none
    exact absurd found (none _ _)

theorem cut_of_not_frame {s : List α} (missing : ∀ f rest, F.head cap s ≠ .frame f rest) :
    F.cut cap s = ([], s) := by
  rw [cut]
  split
  · rename_i f rest found
    exact absurd found (missing f rest)
  · rfl

theorem cut_append_frames (frames : List (List α)) (legal : ∀ f ∈ frames, F.IsFrame cap f)
    (rest : List α) :
    F.cut cap (frames.flatten ++ rest) = (frames ++ (F.cut cap rest).1, (F.cut cap rest).2) := by
  induction frames with
  | nil => simp
  | cons f frames ih =>
      have first := legal f (by simp)
      have others : ∀ g ∈ frames, F.IsFrame cap g := fun g member => legal g (by simp [member])
      rw [List.flatten_cons, List.append_assoc,
        cut_of_frame F cap (F.head_append_frame cap first _), ih others]
      simp

theorem cut_flatten (frames : List (List α)) (legal : ∀ f ∈ frames, F.IsFrame cap f) :
    F.cut cap frames.flatten = (frames, []) := by
  have whole := F.cut_append_frames cap frames legal []
  have none : F.cut cap ([] : List α) = ([], []) := by
    apply cut_of_not_frame
    simp [head_nil]
  rw [List.append_nil, none] at whole
  simpa using whole

/-- The three facts that determine a cut. -/
theorem cut_spec (s : List α) :
    (F.cut cap s).1.flatten ++ (F.cut cap s).2 = s ∧ (∀ f ∈ (F.cut cap s).1, F.IsFrame cap f) ∧
      ∀ f rest, F.head cap (F.cut cap s).2 ≠ .frame f rest := by
  induction s using (measure List.length).wf.induction with
  | _ s ih =>
    cases found : F.head cap s with
    | frame f rest =>
        obtain ⟨whole, legal⟩ := F.head_frame cap found
        have wide := legal.header_le
        have positive := F.header_pos
        have shorter : rest.length < s.length := by
          rw [whole, List.length_append]
          omega
        obtain ⟨joined, frames, last⟩ := ih rest shorter
        rw [cut_of_frame F cap found]
        refine ⟨?_, ?_, last⟩
        · rw [List.flatten_cons, List.append_assoc, joined, ← whole]
        · intro g member
          rcases List.mem_cons.mp member with rfl | later
          · exact legal
          · exact frames g later
    | incomplete =>
        rw [cut_of_not_frame F cap (by simp [found])]
        simp [found]
    | oversized =>
        rw [cut_of_not_frame F cap (by simp [found])]
        simp [found]

theorem cut_length_le (s : List α) : (F.cut cap s).1.length * F.header ≤ s.length := by
  obtain ⟨joined, legal, _⟩ := F.cut_spec cap s
  have shorter : (F.cut cap s).1.flatten.length ≤ s.length := by
    conv_rhs => rw [← joined]
    simp
  have filled : (F.cut cap s).1.length * F.header ≤ (F.cut cap s).1.flatten.length := by
    have each : ∀ n ∈ (F.cut cap s).1.map List.length, F.header ≤ n := by
      intro n member
      obtain ⟨f, inside, rfl⟩ := List.mem_map.mp member
      exact (legal f inside).header_le
    simpa using List.card_nsmul_le_sum _ _ each
  omega

theorem cut_append (s t : List α) :
    F.cut cap (s ++ t) =
      ((F.cut cap s).1 ++ (F.cut cap ((F.cut cap s).2 ++ t)).1,
        (F.cut cap ((F.cut cap s).2 ++ t)).2) := by
  obtain ⟨joined, frames, _⟩ := F.cut_spec cap s
  conv_lhs => rw [← joined, List.append_assoc]
  exact F.cut_append_frames cap _ frames _

theorem cut_prefix {s t : List α} (before : s <+: t) : (F.cut cap s).1 <+: (F.cut cap t).1 := by
  obtain ⟨more, rfl⟩ := before
  rw [cut_append]
  exact List.prefix_append _ _

theorem frames_prefix_cut {taken : List (List α)} (legal : ∀ f ∈ taken, F.IsFrame cap f)
    (rest : List α) {s : List α} (before : taken.flatten ++ rest <+: s) : taken <+: (F.cut cap s).1 := by
  have inside := F.cut_prefix cap before
  rw [F.cut_append_frames cap taken legal] at inside
  exact (List.prefix_append _ _).trans inside

theorem taken_split {taken frames : List (List α)} (legal : ∀ f ∈ taken, F.IsFrame cap f)
    (whole : ∀ f ∈ frames, F.IsFrame cap f) (rest : List α)
    (before : taken.flatten ++ rest <+: frames.flatten) :
    ∃ later, frames = taken ++ later ∧ rest <+: later.flatten := by
  have inside := F.frames_prefix_cut cap legal rest before
  rw [F.cut_flatten cap frames whole] at inside
  obtain ⟨later, rfl⟩ := inside
  refine ⟨later, rfl, ?_⟩
  rw [List.flatten_append] at before
  exact (List.prefix_append_right_inj _).mp before

theorem head_ne_oversized {frames : List (List α)} (legal : ∀ f ∈ frames, F.IsFrame cap f)
    {s : List α} (before : s <+: frames.flatten) : F.head cap s ≠ .oversized := by
  intro found
  obtain ⟨more, joined⟩ := before
  have large := F.head_oversized_append cap found more
  rw [joined] at large
  cases frames with
  | nil => simp [head_nil] at large
  | cons f frames =>
      rw [List.flatten_cons, F.head_append_frame cap (legal f (by simp))] at large
      cases large

end Framing

end WireLib
