import DqliteWire.Totality

/-! Two decoders of one direction and version, the second at least as tolerant as the first. What
the first returns, the second returns; and the second raises `DecodeError` only, except where its
error handler has no decoding side and the row loop comes to a text that is not UTF-8. -/

namespace DqliteWire

open WireLib WireLib.Utf8

def Extends {α : Type} (x y : Except Exn α) : Prop := ∀ a, x = .ok a → y = .ok a

def RaisesTypeError {α : Type} (x : Except Exn α) : Prop := ∃ text, x = .error (.typeError text)

section Rules

variable {α β : Type}

theorem extends_refl (x : Except Exn α) : Extends x x := fun _ same => same

theorem extends_error (e : Exn) (y : Except Exn α) : Extends (.error e) y := by
  intro a same
  cases same

theorem extends_bind {x y : Except Exn α} {f g : α → Except Exn β} (first : Extends x y)
    (next : ∀ a, Extends (f a) (g a)) : Extends (x >>= f) (y >>= g) := by
  intro b same
  obtain ⟨a, read, rest⟩ := bind_eq_ok.mp same
  exact bind_eq_ok.mpr ⟨a, first a read, next a b rest⟩

theorem extends_raiseIf {p q : Prop} [Decidable p] [Decidable q] (e e' : Exn) (weaker : q → p) :
    Extends (raiseIf p e) (raiseIf q e') := by
  intro a passed
  cases a
  exact raiseIf_neg (mt weaker (raiseIf_eq_ok.mp passed))

theorem extends_map {x y : Except Exn α} (f : α → β) (held : Extends x y) :
    Extends (f <$> x) (f <$> y) := by
  intro b same
  obtain ⟨a, read, rfl⟩ := MessageDecoder.map_eq_ok.mp same
  exact MessageDecoder.map_eq_ok.mpr ⟨a, held a read, rfl⟩

theorem ok_not_typeError (a : α) : ¬ RaisesTypeError (.ok a : Except Exn α) := by
  rintro ⟨text, same⟩
  cases same

theorem decodeError_not_typeError (text : Text) :
    ¬ RaisesTypeError (.error (.decodeError text) : Except Exn α) := by
  rintro ⟨text', same⟩
  cases same

theorem not_typeError {x : Except Exn α} (held : ParseErrors .strict x) : ¬ RaisesTypeError x := by
  rintro ⟨text, raised⟩
  exact strict_decodes (held _ raised)

theorem typeError_bind {x : Except Exn α} {f : α → Except Exn β} :
    RaisesTypeError (x >>= f) ↔ RaisesTypeError x ∨ ∃ a, x = .ok a ∧ RaisesTypeError (f a) := by
  cases x with
  | error e => simp [RaisesTypeError, error_bind]
  | ok a => simp [RaisesTypeError, ok_bind]

theorem typeError_next {x : Except Exn α} {f : α → Except Exn β} (held : ParseErrors .strict x) :
    RaisesTypeError (x >>= f) ↔ ∃ a, x = .ok a ∧ RaisesTypeError (f a) :=
  typeError_bind.trans (or_iff_right (not_typeError held))

theorem typeError_guard {p : Prop} [Decidable p] {text : Text} {f : Unit → Except Exn β} :
    RaisesTypeError (raiseIf p (.decodeError text) >>= f) ↔ ¬ p ∧ RaisesTypeError (f ()) := by
  by_cases held : p
  · simp [raiseIf, held, error_bind, RaisesTypeError]
  · simp [raiseIf, held, ok_bind]

theorem typeError_map {x : Except Exn α} {f : α → β} :
    RaisesTypeError (f <$> x) ↔ RaisesTypeError x := by
  cases x with
  | error e => simp [RaisesTypeError, Functor.map, Except.map]
  | ok a => simp [RaisesTypeError, Functor.map, Except.map]

end Rules

def MalformedText (data : Bytes) (maxSize : Nat) : Prop :=
  ∃ utf8 rest, data = utf8 ++ 0 :: rest ∧ (0 : UInt8) ∉ utf8 ∧ utf8.length ≤ maxSize ∧
    ∀ s, Utf8.decode .strict utf8 ≠ .ok s

def MalformedCell (t : ValueType) (data : Bytes) : Prop :=
  (t = .text ∨ t = .iso8601) ∧ MalformedText data maxTextValueSize

inductive MalformedRow (data : Bytes) : Nat → List ValueType → Prop
  | here {offset : Nat} {t : ValueType} {types : List ValueType}
      (cell : MalformedCell t (data.drop offset)) : MalformedRow data offset (t :: types)
  | later {offset consumed : Nat} {t : ValueType} {types : List ValueType} {value : WireValue}
      (read : decodeValue .view (data.drop offset) t = .ok (value, consumed))
      (rest : MalformedRow data (offset + consumed) types) : MalformedRow data offset (t :: types)

/-- Among the rows from an offset on, a malformed one behind rows that read well, before the cap on
rows is reached; `done` rows have been read. -/
inductive MalformedRows (view : Bytes) (count maxRows : Nat) : Nat → Nat → Prop
  | here {done offset consumed : Nat} {types : List ValueType} (inside : offset < view.length)
      (header : decodeRowHeader (view.drop offset) count = .ok (.inl types, consumed))
      (row : MalformedRow (view.drop (offset + consumed)) 0 types) :
      MalformedRows view count maxRows done offset
  | later {done offset consumed width : Nat} {types : List ValueType} {values : List WireValue}
      (inside : offset < view.length)
      (header : decodeRowHeader (view.drop offset) count = .ok (.inl types, consumed))
      (cells : decodeRowValues .view (view.drop (offset + consumed)) types = .ok (values, width))
      (below : done + 1 < maxRows)
      (rest : MalformedRows view count maxRows (done + 1) (offset + consumed + width)) :
      MalformedRows view count maxRows done offset

def MalformedBody (data : Bytes) (schema maxRows : Nat) : Prop :=
  schema = 0 ∧ ∃ count, decodeUint64 data = .ok count ∧ count ≠ 0 ∧ count ≤ maxColumnCount ∧
    count ≤ (data.length - 8 - wordSize) / 8 ∧ ∃ names offset,
      RowsResponse.decodeNames data count 8 = .ok (names, offset) ∧
        MalformedRows data count maxRows 0 offset

/-- A complete ROWS frame of a server within the cap, with such a body. -/
structure ReachesMalformedCell (config : Config) (f : Bytes) : Prop where
  response : config.isRequest = false
  frame : wire.IsFrame config.maxMessageSize f
  rows : (frameHeader f).msgType = ResponseType.rows.code
  body : MalformedBody (frameBody f) (frameHeader f).schema config.maxRows

section Cells

variable {source : Source} {data : Bytes} {errors : Handler}

theorem readText_wellFormed {utf8 : Bytes} {s : Str} (good : Utf8.decode .strict utf8 = .ok s)
    (errors : Handler) (label : String) (dataLen : Nat) :
    readText (bytesDecode errors) label utf8 dataLen = finishText dataLen s utf8.length := by
  rw [readText, decodeUtf8, bytesDecode, decode_of_strict good]
  rfl

theorem readText_malformed {utf8 : Bytes} (bad : ∀ s, Utf8.decode .strict utf8 ≠ .ok s)
    (refuses : errors.RefusesDecoding) (label : String) (dataLen : Nat) :
    RaisesTypeError (readText (bytesDecode errors) label utf8 dataLen) := by
  rw [readText, decodeUtf8, bytesDecode, decode_malformed refuses bad]
  exact ⟨_, rfl⟩

theorem decodeText_extends (maxSize : Nat) (label : String) :
    Extends (decodeText source data maxSize label)
      (decodeText source data maxSize label errors) := by
  rintro ⟨s, n⟩ decoded
  rcases decodeText_cases source data maxSize label with ⟨utf8, _, _, _, _, read⟩ | ⟨_, failed⟩
  · rw [read] at decoded ⊢
    obtain ⟨good, finished⟩ := readText_strict decoded
    rw [readText_wellFormed good]
    exact finished
  · obtain ⟨_, raised⟩ := failed .strict
    rw [raised] at decoded
    cases decoded

/-- Without a decoding side a handler reads the well-formed texts and refuses the others. -/
theorem decodeText_refusing (refuses : errors.RefusesDecoding) (maxSize : Nat) (label : String) :
    Extends (decodeText source data maxSize label errors) (decodeText source data maxSize label) ∧
      (RaisesTypeError (decodeText source data maxSize label errors) ↔
        MalformedText data maxSize) := by
  rcases decodeText_cases source data maxSize label with
    ⟨utf8, rest, split, clean, small, read⟩ | ⟨clean, failed⟩
  · rw [read, read]
    by_cases good : ∃ s, Utf8.decode .strict utf8 = .ok s
    · obtain ⟨s, good⟩ := good
      rw [readText_wellFormed good, readText_wellFormed good]
      refine ⟨extends_refl _, iff_of_false (not_typeError (finishText_errors _ _ _)) ?_⟩
      rintro ⟨other, rest', split', clean', small', bad⟩
      have refused := readText_malformed bad refuses label data.length
      have found := decodeText_found clean' small' source rest' label errors
      rw [← split', read, readText_wellFormed good] at found
      rw [← found] at refused
      exact not_typeError (finishText_errors _ _ _) refused
    · have bad (s : Str) : Utf8.decode .strict utf8 ≠ .ok s := fun same => good ⟨s, same⟩
      have refused := readText_malformed bad refuses label data.length
      refine ⟨?_, iff_of_true refused ⟨utf8, rest, split, clean, small, bad⟩⟩
      obtain ⟨text, raised⟩ := refused
      rw [raised]
      exact extends_error _ _
  · obtain ⟨text, raised⟩ := failed errors
    rw [raised]
    refine ⟨extends_error _ _, iff_of_false (decodeError_not_typeError text) ?_⟩
    rintro ⟨utf8, rest, rfl, _, small, _⟩
    apply clean
    rw [List.take_append, List.mem_append]
    right
    rw [Nat.sub_add_comm small, List.take_succ_cons]
    exact List.mem_cons_self

theorem decodeValue_extends (t : ValueType) :
    Extends (decodeValue source data t) (decodeValue source data t errors) := by
  cases t with
  | text | iso8601 => exact extends_bind (decodeText_extends _ _) fun _ => extends_refl _
  | integer | float | blob | null | unixtime | boolean => exact extends_refl _

theorem decodeValue_refusing (refuses : errors.RefusesDecoding) (t : ValueType) :
    Extends (decodeValue source data t errors) (decodeValue source data t) ∧
      (RaisesTypeError (decodeValue source data t errors) ↔ MalformedCell t data) := by
  have strict : ParseErrors .strict (decodeValue source data t) := decodeValue_errors source data t
  cases t with
  | text | iso8601 =>
      obtain ⟨same, refused⟩ := decodeText_refusing refuses maxTextValueSize _
      refine ⟨extends_bind same fun _ => extends_refl _, ?_⟩
      rw [MalformedCell, ← refused]
      refine (typeError_bind.trans (or_iff_left ?_)).trans (by simp)
      rintro ⟨_, _, read⟩
      exact ok_not_typeError _ read
  | integer | float | blob | null | unixtime | boolean =>
      refine ⟨extends_refl _, iff_of_false (not_typeError strict) ?_⟩
      simp [MalformedCell]

theorem decodeValues_extends (offset : Nat) (types : List ValueType) :
    Extends (decodeValues source .strict data offset types)
      (decodeValues source errors data offset types) := by
  induction types generalizing offset with
  | nil => exact extends_refl _
  | cons t types ih =>
      exact extends_bind (decodeValue_extends t) fun _ =>
        extends_bind (ih _) fun _ => extends_refl _

theorem decodeValues_refusing (refuses : errors.RefusesDecoding) (offset : Nat)
    (types : List ValueType) :
    Extends (decodeValues .view errors data offset types)
        (decodeValues .view .strict data offset types) ∧
      (RaisesTypeError (decodeValues .view errors data offset types) ↔
        MalformedRow data offset types) := by
  induction types generalizing offset with
  | nil =>
      refine ⟨extends_refl _, iff_of_false (ok_not_typeError _) ?_⟩
      rintro ⟨⟩
  | cons t types ih =>
      have cell : Extends (decodeValue .view (data.drop offset) t errors)
            (decodeValue .view (data.drop offset) t) ∧
          (RaisesTypeError (decodeValue .view (data.drop offset) t errors) ↔
            MalformedCell t (data.drop offset)) := decodeValue_refusing refuses t
      obtain ⟨same, refused⟩ := cell
      refine ⟨extends_bind same fun _ => extends_bind (ih _).1 fun _ => extends_refl _, ?_⟩
      constructor
      · intro raised
        rcases typeError_bind.mp raised with cell | ⟨⟨value, consumed⟩, read, rest⟩
        · exact .here (refused.mp cell)
        · rcases typeError_bind.mp rest with row | ⟨_, _, last⟩
          · exact .later (same _ read) ((ih _).2.mp row)
          · exact absurd last (ok_not_typeError _)
      · intro row
        cases row with
        | here cell => exact typeError_bind.mpr (Or.inl (refused.mpr cell))
        | later read rest =>
            have refused_ := (ih _).2.mpr rest
            exact typeError_bind.mpr
              (Or.inr ⟨_, decodeValue_extends t _ read, typeError_bind.mpr (Or.inl refused_)⟩)

end Cells

namespace RowsResponse

variable {view data : Bytes} {names : List Str} {errors : Handler} {maxRows : Nat}

theorem decodeRows_extends {maxRows' : Nat} (larger : maxRows ≤ maxRows') (fuel offset : Nat)
    (rows : List (List WireInput)) (types : List (List ValueType)) :
    Extends (decodeRows view names maxRows .strict fuel offset rows types)
      (decodeRows view names maxRows' errors fuel offset rows types) := by
  induction fuel generalizing offset rows types with
  | zero => exact extends_error _ _
  | succ fuel ih =>
      rw [decodeRows, decodeRows]
      split
      · refine extends_bind (extends_refl _) ?_
        rintro ⟨result, consumed⟩
        cases result with
        | inr marker => exact extends_refl _
        | inl rowTypes =>
            refine extends_bind (decodeValues_extends _ _) ?_
            rintro ⟨values, width⟩
            refine extends_bind (extends_raiseIf _ _ ?_) fun _ => ?_
            · exact fun reached => le_trans larger reached
            exact ih _ _ _
      · exact extends_error _ _

theorem decodeBody_extends {maxRows' : Nat} (larger : maxRows ≤ maxRows') (schema : Nat) :
    Extends (decodeBody data schema maxRows) (decodeBody data schema maxRows' errors) := by
  refine extends_bind (extends_refl _) fun _ => ?_
  refine extends_bind (extends_refl _) fun count => ?_
  refine extends_bind (extends_refl _) fun _ => ?_
  refine extends_bind (extends_refl _) fun _ => ?_
  refine extends_bind (extends_refl _) ?_
  rintro ⟨names, offset⟩
  simp only
  split
  · exact extends_refl _
  · exact decodeRows_extends larger _ _ _ _

theorem decodeRows_typeError (refuses : errors.RefusesDecoding) (positive : 0 < names.length)
    {fuel offset : Nat} (room : view.length ≤ offset + fuel) (rows : List (List WireInput))
    (types : List (List ValueType)) :
    RaisesTypeError (decodeRows view names maxRows errors (fuel + 1) offset rows types) ↔
      MalformedRows view names.length maxRows rows.length offset := by
  induction fuel generalizing offset rows types with
  | zero =>
      have outside : ¬ offset < view.length := by omega
      rw [decodeRows, if_neg outside]
      refine iff_of_false (decodeError_not_typeError _) ?_
      intro malformed
      cases malformed with
      | here inside => exact outside inside
      | later inside => exact outside inside
  | succ fuel ih =>
      have next {types' : List ValueType} {consumed : Nat} (width : Nat) (values : List WireInput)
          (header : decodeRowHeader (view.drop offset) names.length = .ok (.inl types', consumed)) :
          RaisesTypeError (decodeRows view names maxRows errors (fuel + 1)
              (offset + consumed + width) (rows ++ [values]) (types ++ [types'])) ↔
            MalformedRows view names.length maxRows (rows.length + 1)
              (offset + consumed + width) := by
        have moved := decodeRowHeader_consumed positive header
        have step := ih (show view.length ≤ offset + consumed + width + fuel by omega)
          (rows ++ [values]) (types ++ [types'])
        rwa [List.length_append, List.length_singleton] at step
      constructor
      · intro raised
        rw [decodeRows] at raised
        split at raised
        · rename_i inside
          obtain ⟨⟨result, consumed⟩, header, rest⟩ :=
            (typeError_next (decodeRowHeader_errors _ _)).mp raised
          cases result with
          | inr marker =>
              obtain ⟨_, last⟩ := typeError_guard.mp rest
              exact absurd last (ok_not_typeError _)
          | inl types' =>
              rcases typeError_bind.mp rest with row | ⟨⟨values, width⟩, cells, rest⟩
              · exact .here inside header ((decodeValues_refusing refuses _ _).2.mp row)
              · obtain ⟨below, rest⟩ := typeError_guard.mp rest
                rw [List.length_append, List.length_singleton, not_le] at below
                exact .later inside header ((decodeValues_refusing refuses _ _).1 _ cells) below
                  ((next width _ header).mp rest)
        · exact absurd raised (decodeError_not_typeError _)
      · intro malformed
        cases malformed with
        | here inside header row =>
            rw [decodeRows, if_pos inside, header, ok_bind]
            exact typeError_bind.mpr (Or.inl ((decodeValues_refusing refuses _ _).2.mpr row))
        | later inside header cells below rest =>
            rw [decodeRows, if_pos inside, header, ok_bind]
            refine typeError_bind.mpr (Or.inr ⟨_, decodeValues_extends _ _ _ cells, ?_⟩)
            refine typeError_guard.mpr ⟨?_, (next _ _ header).mpr rest⟩
            rwa [List.length_append, List.length_singleton, not_le]

theorem decodeBody_typeError (refuses : errors.RefusesDecoding) (schema : Nat) :
    RaisesTypeError (decodeBody data schema maxRows errors) ↔
      MalformedBody data schema maxRows := by
  constructor
  · intro raised
    obtain ⟨supported, rest⟩ := typeError_guard.mp raised
    obtain ⟨count, counted, rest⟩ := (typeError_next (decodeUint64_errors _ _)).mp rest
    obtain ⟨small, rest⟩ := typeError_guard.mp rest
    obtain ⟨possible, rest⟩ := typeError_guard.mp rest
    obtain ⟨⟨names, offset⟩, named, rest⟩ := (typeError_next (decodeNames_errors _ _ _)).mp rest
    obtain ⟨length, _⟩ := decodeNames_length named
    simp only at rest
    split at rest
    · exact absurd rest (not_typeError (decodeZeroColumns_errors _ _ _))
    · rename_i some_
      rw [decodeRows_typeError refuses (by omega) (by omega), length] at rest
      exact ⟨not_not.mp supported, count, counted, some_, not_lt.mp small, not_lt.mp possible,
        names, offset, named, rest⟩
  · rintro ⟨supported, count, counted, some_, small, possible, names, offset, named, rows⟩
    obtain ⟨length, _⟩ := decodeNames_length named
    refine typeError_guard.mpr ⟨not_not.mpr supported, ?_⟩
    refine (typeError_next (decodeUint64_errors _ _)).mpr ⟨count, counted, ?_⟩
    refine typeError_guard.mpr ⟨not_lt.mpr small, ?_⟩
    refine typeError_guard.mpr ⟨not_lt.mpr possible, ?_⟩
    refine (typeError_next (decodeNames_errors _ _ _)).mpr ⟨_, named, ?_⟩
    simp only [if_neg some_]
    rw [decodeRows_typeError refuses (by omega) (by omega), length]
    exact rows

end RowsResponse

namespace ServersResponse

variable {data : Bytes} (policy : UnknownRolePolicy)

theorem decodeRole_extends (rawRole offset : Nat) :
    Extends (decodeRole rawRole offset .reject) (decodeRole rawRole offset policy) := by
  unfold decodeRole
  split
  · exact extends_refl _
  · exact extends_error _ _

theorem decodeNodes_extends (count offset : Nat) (nodes : List NodeInfo) :
    Extends (decodeNodes data .reject count offset nodes)
      (decodeNodes data policy count offset nodes) := by
  induction count generalizing offset nodes with
  | zero => exact extends_refl _
  | succ count ih =>
      refine extends_bind (extends_refl _) fun nodeId => ?_
      refine extends_bind (extends_refl _) fun ⟨address, consumed⟩ => ?_
      refine extends_bind (extends_refl _) fun _ => ?_
      refine extends_bind (extends_refl _) fun _ => ?_
      refine extends_bind (extends_refl _) fun rawRole => ?_
      refine extends_bind (decodeRole_extends policy _ _) fun role => ?_
      exact extends_bind (extends_refl _) fun node => ih _ _

theorem decodeBody_extends (schema : Nat) :
    Extends (decodeBody data schema) (decodeBody data schema policy) := by
  refine extends_bind (extends_refl _) fun _ => ?_
  refine extends_bind (extends_refl _) fun count => ?_
  refine extends_bind (extends_refl _) fun _ => ?_
  refine extends_bind (extends_refl _) fun _ => ?_
  exact extends_bind (decodeNodes_extends policy _ _ _) fun _ => extends_refl _

end ServersResponse

/-- The arguments of the second decoder are at least as tolerant. -/
structure AsTolerant (c c' : Config) : Prop where
  direction : c'.isRequest = c.isRequest
  version : c'.version = c.version
  strict : c.textErrors = .strict
  rejects : c.unknownRolePolicy = .reject
  size : c.maxMessageSize ≤ c'.maxMessageSize
  rows : c.maxRows ≤ c'.maxRows

namespace MessageDecoder

variable {c c' : Config}

theorem decodeResponseBody_extends (tolerant : AsTolerant c c') (version : Option Nat)
    (t : ResponseType) (body : Bytes) (schema : Nat) :
    Extends (decodeResponseBody c version t body schema)
      (decodeResponseBody c' version t body schema) := by
  cases t with
  | servers =>
      have servers : Extends (ServersResponse.decodeBody body schema)
          (ServersResponse.decodeBody body schema c'.unknownRolePolicy) :=
        ServersResponse.decodeBody_extends _ schema
      rw [← tolerant.rejects] at servers
      exact extends_map _ servers
  | rows =>
      have rows : Extends (RowsResponse.decodeBody body schema c.maxRows)
          (RowsResponse.decodeBody body schema c'.maxRows c'.textErrors) :=
        RowsResponse.decodeBody_extends tolerant.rows schema
      rw [← tolerant.strict] at rows
      exact extends_map _ rows
  | failure | leader | welcome | db | stmt | result | empty | files | metadata =>
      exact extends_refl _

theorem decodeBody_extends (tolerant : AsTolerant c c') (version : Option Nat) (header : Header)
    (body : Bytes) :
    Extends (decodeBody c version header body) (decodeBody c' version header body) := by
  simp only [decodeBody, tolerant.direction]
  split
  · exact extends_refl _
  · split
    · exact extends_refl _
    · refine extends_bind (extends_refl _) fun _ => ?_
      exact extends_map _ (decodeResponseBody_extends tolerant version _ body header.schema)

theorem decodeFrame_extends (tolerant : AsTolerant c c') (version : Option Nat) (f : Bytes) :
    Extends (decodeFrame c version f) (decodeFrame c' version f) := by
  refine extends_bind (extends_refl _) fun _ => ?_
  refine extends_bind (extends_refl _) fun header => ?_
  refine extends_bind (extends_raiseIf _ _ ?_) fun _ => ?_
  · exact fun large => lt_of_le_of_lt tolerant.size large
  refine extends_bind (extends_refl _) fun _ => ?_
  refine extends_bind (extends_refl _) fun _ => ?_
  exact decodeBody_extends tolerant version header _

/-- Only rows are read under the configured handler. -/
theorem decodeResponseBody_not_typeError {t : ResponseType} (other : t ≠ .rows)
    (version : Option Nat) (body : Bytes) (schema : Nat) :
    ¬ RaisesTypeError (decodeResponseBody c version t body schema) := by
  have held := decodeResponseBody_errors body schema { c with textErrors := .strict } version t
  cases t with
  | rows => exact absurd rfl other
  | failure | leader | welcome | servers | db | stmt | result | empty | files | metadata =>
      exact not_typeError held

theorem decodeBody_typeError (refuses : c.textErrors.RefusesDecoding) (version : Option Nat)
    (header : Header) (body : Bytes) :
    RaisesTypeError (decodeBody c version header body) ↔
      c.isRequest = false ∧ header.msgType = ResponseType.rows.code ∧
        MalformedBody body header.schema c.maxRows := by
  cases direction : c.isRequest with
  | true =>
      have held := decodeBody_errors { c with textErrors := .strict } version header body
      refine iff_of_false ?_ (by simp)
      simp only [decodeBody, direction, if_true] at held ⊢
      exact not_typeError held
  | false =>
      have schemaErrors : ParseErrors .strict (checkSchema false header) := checkSchema_errors _ _
      by_cases rows : header.msgType = ResponseType.rows.code
      · rw [decodeBody_response direction version rows, typeError_next schemaErrors]
        constructor
        · rintro ⟨_, _, refused⟩
          exact ⟨rfl, rows, (RowsResponse.decodeBody_typeError refuses _).mp
            (typeError_map.mp (typeError_map.mp refused))⟩
        · rintro ⟨_, _, malformed⟩
          have passed : checkSchema false header = .ok () := by
            rw [checkSchema, malformed.1]
            exact raiseIf_neg (Nat.not_lt_zero _)
          exact ⟨(), passed, typeError_map.mpr (typeError_map.mpr
            ((RowsResponse.decodeBody_typeError refuses _).mpr malformed))⟩
      · refine iff_of_false ?_ fun all => rows all.2.1
        simp only [decodeBody, direction, Bool.false_eq_true, if_false]
        split
        · exact decodeError_not_typeError _
        · rename_i t found
          have code := List.find?_some found
          have other : t ≠ .rows := by
            rintro rfl
            exact rows (of_decide_eq_true code).symm
          intro refused
          obtain ⟨_, _, body_⟩ := (typeError_next schemaErrors).mp refused
          exact decodeResponseBody_not_typeError other version body header.schema
            (typeError_map.mp body_)

theorem decodeFrame_typeError (refuses : c.textErrors.RefusesDecoding) (version : Option Nat)
    (f : Bytes) : RaisesTypeError (decodeFrame c version f) ↔ ReachesMalformedCell c f := by
  constructor
  · intro refused
    rcases decodeFrame_cases c version f with legal | ⟨text, raised⟩
    · rw [decodeFrame_eq legal, decodeBody_typeError refuses] at refused
      obtain ⟨response, rows, body⟩ := refused
      exact ⟨response, legal, rows, body⟩
    · rw [raised] at refused
      exact absurd refused (decodeError_not_typeError text)
  · rintro ⟨response, legal, rows, body⟩
    rw [decodeFrame_eq legal, decodeBody_typeError refuses]
    exact ⟨response, rows, body⟩

end MessageDecoder

/-- What a frame is decoded to under the first arguments it is decoded to under the second; and a
frame that raises `DecodeError` under the first raises nothing else under the second. -/
def Conservative (c c' : Config) (f : Bytes) : Prop :=
  (∀ m, decodeMessage c f = .ok m → decodeMessage c' f = .ok m) ∧
    ((∃ text, decodeMessage c f = .error (.decodeError text)) →
      (∃ m, decodeMessage c' f = .ok m) ∨ ∃ text, decodeMessage c' f = .error (.decodeError text))

theorem decodeMessage_extends {c c' : Config} (tolerant : AsTolerant c c') (f : Bytes) :
    Extends (decodeMessage c f) (decodeMessage c' f) := by
  rw [decodeMessage_eq, decodeMessage_eq, tolerant.version]
  exact MessageDecoder.decodeFrame_extends tolerant _ f

/-- Greater tolerance is conservative exactly where the handler can decode or no malformed cell is
reached. -/
theorem tolerance_conservative_iff {c c' : Config} (tolerant : AsTolerant c c') (f : Bytes) :
    Conservative c c' f ↔ ¬ (c'.textErrors.RefusesDecoding ∧ ReachesMalformedCell c' f) := by
  have same := decodeMessage_extends tolerant f
  constructor
  · rintro ⟨_, total⟩ ⟨refuses, reached⟩
    have refused : RaisesTypeError (decodeMessage c' f) := by
      rw [decodeMessage_eq, MessageDecoder.decodeFrame_typeError refuses]
      exact reached
    obtain ⟨text, raised⟩ := refused
    -- the first decoder cannot have returned, so it raised `DecodeError`
    have stricter : ∃ text, decodeMessage c f = .error (.decodeError text) := by
      cases decoded : decodeMessage c f with
      | ok m =>
          have returned := same m decoded
          rw [raised] at returned
          cases returned
      | error e =>
          have held := decodeMessage_errors c f e decoded
          rw [tolerant.strict] at held
          obtain ⟨text, rfl⟩ := held.decodes strict_decodes
          exact ⟨text, rfl⟩
    rw [raised] at total
    rcases total stricter with ⟨m, returned⟩ | ⟨text', other⟩
    · cases returned
    · cases other
  · intro safe
    refine ⟨same, fun _ => ?_⟩
    cases decoded : decodeMessage c' f with
    | ok m => exact Or.inl ⟨m, rfl⟩
    | error e =>
        have held := decodeMessage_errors c' f e decoded
        right
        cases e with
        | decodeError text => exact ⟨text, rfl⟩
        | typeError text =>
            have refuses : c'.textErrors.RefusesDecoding := held
            refine absurd ⟨refuses, ?_⟩ safe
            rw [← MessageDecoder.decodeFrame_typeError refuses (some c'.version),
              ← decodeMessage_eq, decoded]
            exact ⟨text, rfl⟩
        | _ => exact held.elim

def malformedCellFrame : Bytes :=
  [5, 0, 0, 0, 7, 0, 0, 0] ++ [1, 0, 0, 0, 0, 0, 0, 0] ++ [97, 0, 0, 0, 0, 0, 0, 0] ++
    [3, 0, 0, 0, 0, 0, 0, 0] ++ [0xFF, 0, 0, 0, 0, 0, 0, 0] ++ rowDoneMarker

theorem tolerance_conservative_iff_replace :
    let c' : Config := { Config.default with
      textErrors := .replace
      maxRows := defaultMaxRows + 1
      rows_positive := Nat.succ_pos _ }
    Conservative .default c' malformedCellFrame ↔
      ¬ (c'.textErrors.RefusesDecoding ∧ ReachesMalformedCell c' malformedCellFrame) := by
  intro c'
  have tolerant : AsTolerant .default c' := ⟨rfl, rfl, rfl, rfl, le_rfl, by decide +kernel⟩
  exact tolerance_conservative_iff tolerant malformedCellFrame

/-- The constructor accepts the two handlers. -/
example : Config.ofArgs false protocolVersion ReadBuffer.defaultMaxMessageSize defaultMaxRows
    (some defaultMaxContinuationFrames) (some defaultMaxTotalRows) "reject" "xmlcharrefreplace" =
      .ok { Config.default with textErrors := .xmlcharrefreplace } := rfl

/-- Under a handler that only knows encoding errors the cell raises `TypeError`. -/
theorem tolerance_typeError :
    ¬ ∀ (c c' : Config) (f : Bytes), AsTolerant c c' → Conservative c c' f := by
  intro conservative
  let c' : Config := { Config.default with textErrors := .xmlcharrefreplace }
  obtain ⟨_, total⟩ := conservative .default c' malformedCellFrame
    ⟨rfl, rfl, rfl, rfl, le_rfl, le_rfl⟩
  have strict : decodeMessage .default malformedCellFrame =
      .error (.decodeError
        ["Invalid UTF-8 in ", "TEXT", ": ", .undecodable 0 [0xFF] .invalidStart]) := by
    decide +kernel
  have lenient : decodeMessage c' malformedCellFrame =
      .error (.typeError ["don't know how to handle UnicodeDecodeError in error callback"]) := by
    decide +kernel
  rw [lenient] at total
  rcases total ⟨_, strict⟩ with ⟨m, returned⟩ | ⟨text, other⟩
  · cases returned
  · cases other

end DqliteWire
