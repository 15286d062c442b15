import DqliteWire.Errors

/-! What a decoded ROWS body says: its size against the cap, and the marker it ends with. -/

namespace DqliteWire

open WireLib WireLib.Utf8

def RowMarker.bytes : RowMarker → Bytes
  | .done => rowDoneMarker
  | .part => rowPartMarker

def EndsWith (body : Bytes) (marker : RowMarker) : Prop :=
  8 ≤ body.length ∧ body.drop (body.length - 8) = marker.bytes

instance (body : Bytes) (marker : RowMarker) : Decidable (EndsWith body marker) :=
  inferInstanceAs (Decidable (_ ∧ _))

theorem EndsWith.unique {body : Bytes} {m m' : RowMarker} (first : EndsWith body m)
    (second : EndsWith body m') : m = m' := by
  have same := first.2.symm.trans second.2
  revert same
  cases m <;> cases m' <;> decide

theorem decodeRowHeader_marker {data : Bytes} {count consumed : Nat} {marker : RowMarker}
    (decoded : decodeRowHeader data count = .ok (.inr marker, consumed)) :
    consumed = 8 ∧ 8 ≤ data.length ∧ data.take 8 = marker.bytes := by
  unfold decodeRowHeader at decoded
  simp only at decoded
  split at decoded
  · rename_i found
    cases decoded
    exact ⟨rfl, found.1, found.2⟩
  · split at decoded
    · rename_i found
      cases decoded
      exact ⟨rfl, found.1, found.2⟩
    · obtain ⟨_, _, rest⟩ := bind_eq_ok.mp decoded
      obtain ⟨_, _, last⟩ := bind_eq_ok.mp rest
      cases last

namespace RowsResponse

theorem decodeRows_facts {view : Bytes} {names : List Str} {maxRows : Nat} {errors : Handler}
    {fuel offset : Nat} {rows : List (List WireInput)} {types : List (List ValueType)}
    {r : RowsResponse}
    (decoded : decodeRows view names maxRows errors fuel offset rows types = .ok r)
    (few : rows.length < maxRows) :
    r.rows.length < maxRows ∧ r.columnNames = names ∧
      EndsWith view (if r.hasMore then .part else .done) := by
  induction fuel generalizing offset rows types with
  | zero => cases decoded
  | succ fuel ih =>
      unfold decodeRows at decoded
      split at decoded
      · rename_i inside
        obtain ⟨⟨result, consumed⟩, header, rest⟩ := bind_eq_ok.mp decoded
        cases result with
        | inr marker =>
            obtain ⟨width, enough, same⟩ := decodeRowHeader_marker header
            obtain ⟨_, checked, last⟩ := bind_eq_ok.mp rest
            have finish := not_not.mp (raiseIf_eq_ok.mp checked)
            rw [width] at finish
            cases last
            have start : view.length - 8 = offset := by omega
            have whole : view.drop offset = marker.bytes := by
              rw [← same, List.take_of_length_le]
              rw [List.length_drop]
              omega
            refine ⟨few, rfl, by omega, ?_⟩
            rw [start, whole]
            cases marker <;> rfl
        | inl rowTypes =>
            obtain ⟨⟨values, width⟩, _, rest⟩ := bind_eq_ok.mp rest
            obtain ⟨_, checked, rest⟩ := bind_eq_ok.mp rest
            exact ih rest (not_le.mp (raiseIf_eq_ok.mp checked))
      · cases decoded

/-- What the row loop reads from `offset` on: rows of `count` cells, each behind its header, and the
marker at the end of the view. -/
inductive RowsRead (view : Bytes) (count : Nat) (errors : Handler) :
    Nat → List (List ValueType) → List (List WireValue) → RowMarker → Prop
  | marker {offset : Nat} {marker : RowMarker}
      (header : decodeRowHeader (view.drop offset) count = .ok (.inr marker, 8))
      (finish : offset + 8 = view.length) : RowsRead view count errors offset [] [] marker
  | row {offset consumed width : Nat} {types : List ValueType} {values : List WireValue}
      {allTypes : List (List ValueType)} {rows : List (List WireValue)} {marker : RowMarker}
      (header : decodeRowHeader (view.drop offset) count = .ok (.inl types, consumed))
      (cells : decodeRowValues .view (view.drop (offset + consumed)) types errors =
        .ok (values, width))
      (rest : RowsRead view count errors (offset + consumed + width) allTypes rows marker) :
      RowsRead view count errors offset (types :: allTypes) (values :: rows) marker

theorem decodeRows_read {view : Bytes} {names : List Str} {maxRows : Nat} {errors : Handler}
    {fuel offset : Nat} {rows : List (List WireInput)} {types : List (List ValueType)}
    {r : RowsResponse}
    (decoded : decodeRows view names maxRows errors fuel offset rows types = .ok r) :
    ∃ allTypes values marker, RowsRead view names.length errors offset allTypes values marker ∧
      r = ⟨names, (types ++ allTypes).headD [], types ++ allTypes,
        rows ++ values.map (·.map .value), marker = .part⟩ := by
  induction fuel generalizing offset rows types with
  | zero => cases decoded
  | succ fuel ih =>
      unfold decodeRows at decoded
      split at decoded
      · obtain ⟨⟨result, consumed⟩, header, rest⟩ := bind_eq_ok.mp decoded
        cases result with
        | inr marker =>
            obtain ⟨rfl, _, _⟩ := decodeRowHeader_marker header
            obtain ⟨_, checked, last⟩ := bind_eq_ok.mp rest
            have finish := not_not.mp (raiseIf_eq_ok.mp checked)
            cases last
            exact ⟨[], [], marker, .marker header finish, by simp⟩
        | inl rowTypes =>
            obtain ⟨⟨values, width⟩, cells, rest⟩ := bind_eq_ok.mp rest
            obtain ⟨_, _, rest⟩ := bind_eq_ok.mp rest
            obtain ⟨allTypes, more, marker, read, rfl⟩ := ih rest
            refine ⟨rowTypes :: allTypes, values :: more, marker, .row header cells read, ?_⟩
            simp
      · cases decoded

theorem decodeZeroColumnMarker_bytes {markerView : Bytes} {more : Bool}
    (decoded : decodeZeroColumnMarker markerView = .ok more) :
    markerView = (if more then RowMarker.part else RowMarker.done).bytes := by
  unfold decodeZeroColumnMarker at decoded
  split at decoded
  · cases decoded
    assumption
  · split at decoded
    · cases decoded
      assumption
    · cases decoded

theorem decodeZeroColumns_facts {view : Bytes} {names : List Str} {offset : Nat} {r : RowsResponse}
    (decoded : decodeZeroColumns view names offset = .ok r) :
    r.rows = [] ∧ r.columnNames = names ∧ EndsWith view (if r.hasMore then .part else .done) := by
  obtain ⟨_, enough, rest⟩ := bind_eq_ok.mp decoded
  have room := not_lt.mp (raiseIf_eq_ok.mp enough)
  obtain ⟨more, marked, rest⟩ := bind_eq_ok.mp rest
  obtain ⟨_, checked, last⟩ := bind_eq_ok.mp rest
  have finish := not_not.mp (raiseIf_eq_ok.mp checked)
  cases last
  simp only [wordSize] at room finish
  have start : view.length - 8 = offset := by omega
  have whole : (view.drop offset).take wordSize = view.drop offset := by
    apply List.take_of_length_le
    simp only [List.length_drop, wordSize]
    omega
  refine ⟨rfl, rfl, by omega, ?_⟩
  rw [start, ← whole]
  exact decodeZeroColumnMarker_bytes marked

theorem decodeBody_facts {data : Bytes} {schema maxRows : Nat} {errors : Handler}
    {r : RowsResponse} (decoded : decodeBody data schema maxRows errors = .ok r)
    (positive : 1 ≤ maxRows) :
    r.rows.length < maxRows ∧ EndsWith data (if r.hasMore then .part else .done) := by
  obtain ⟨_, _, rest⟩ := bind_eq_ok.mp decoded
  obtain ⟨count, _, rest⟩ := bind_eq_ok.mp rest
  obtain ⟨_, _, rest⟩ := bind_eq_ok.mp rest
  obtain ⟨_, _, rest⟩ := bind_eq_ok.mp rest
  obtain ⟨⟨names, offset⟩, _, rest⟩ := bind_eq_ok.mp rest
  simp only at rest
  split at rest
  · obtain ⟨none, _, ends⟩ := decodeZeroColumns_facts rest
    rw [none]
    exact ⟨positive, ends⟩
  · obtain ⟨few, _, ends⟩ := decodeRows_facts rest positive
    exact ⟨few, ends⟩

end RowsResponse

end DqliteWire
