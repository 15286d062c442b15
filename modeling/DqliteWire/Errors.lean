import DqliteWire.Codec
import DqliteWire.Fields

/-! Which exceptions parsing can raise: `DecodeError`, and `TypeError` under an error handler that
has no decoding side. Every read is in range, every loop ends, and every constructor that a decoder
calls accepts what it is given. -/

namespace DqliteWire

open WireLib WireLib.Utf8

def Raises {α : Type} (P : Exn → Prop) (x : Except Exn α) : Prop := ∀ e, x = .error e → P e

section Rules

variable {α β : Type} {P Q : Exn → Prop}

theorem raises_ok (a : α) : Raises P (.ok a) := fun _ same => by cases same

theorem raises_error {e : Exn} (held : P e) : Raises P (.error e : Except Exn α) :=
  fun _ same => by cases same; exact held

theorem raises_next {x : Except Exn α} {f : α → Except Exn β} (first : Raises P x)
    (next : ∀ a, x = .ok a → Raises P (f a)) : Raises P (x >>= f) := by
  cases x with
  | error e => exact raises_error (first e rfl)
  | ok a => exact next a rfl

theorem raises_bind {x : Except Exn α} {f : α → Except Exn β} (first : Raises P x)
    (next : ∀ a, Raises P (f a)) : Raises P (x >>= f) :=
  raises_next first fun a _ => next a

theorem raises_raiseIf {condition : Prop} [Decidable condition] {e : Exn} (held : P e) :
    Raises P (raiseIf condition e) := by
  unfold raiseIf
  split
  · exact raises_error held
  · exact raises_ok ()

theorem raises_guard {condition : Prop} [Decidable condition] {e : Exn} {f : Unit → Except Exn β}
    (held : P e) (next : ¬ condition → Raises P (f ())) : Raises P (raiseIf condition e >>= f) :=
  raises_next (raises_raiseIf held) fun _ passed => next (raiseIf_eq_ok.mp passed)

theorem raises_map {x : Except Exn α} (f : α → β) (held : Raises P x) : Raises P (f <$> x) := by
  cases x with
  | error e => exact raises_error (held e rfl)
  | ok a => exact raises_ok _

theorem Raises.mono {x : Except Exn α} (held : Raises P x) (weaker : ∀ e, P e → Q e) : Raises Q x :=
  fun e same => weaker e (held e same)

theorem raises_validated {n : Nat} (bound : n < 256 ^ 8) (name : String) {f : Unit → Except Exn β}
    (next : Raises P (f ())) : Raises P (validateUint64 name n >>= f) := by
  rw [validateUint64_ok bound, ok_bind]
  exact next

theorem raises_validated32 {n : Nat} (bound : n < 256 ^ 4) (name : String) {f : Unit → Except Exn β}
    (next : Raises P (f ())) : Raises P (validateUint32 name n >>= f) := by
  rw [validateUint32, validateUint_ok (lt_of_lt_of_eq bound (by norm_num)), ok_bind]
  exact next

end Rules

def Exn.IsBodyError : Exn → Prop
  | .streamError _ _ _ | .poisonedError _ _ | .serverFailure _ _ | .handshakeError _
  | .continuationError _ | .keyboardInterrupt => False
  | _ => True

/-- What a parser raises when cells are read under the handler. -/
def Exn.OfParsing (errors : Handler) : Exn → Prop
  | .decodeError _ => True
  | .typeError _ => errors.RefusesDecoding
  | _ => False

theorem Exn.OfParsing.body (errors : Handler) {e : Exn} (held : e.OfParsing errors) :
    e.IsBodyError := by
  cases e <;> trivial

theorem Exn.OfParsing.decodes {errors : Handler} (able : ¬ errors.RefusesDecoding) {e : Exn}
    (held : e.OfParsing errors) : ∃ text, e = .decodeError text := by
  cases e with
  | decodeError text => exact ⟨text, rfl⟩
  | typeError text => exact absurd held able
  | _ => exact held.elim

theorem strict_decodes : ¬ Handler.strict.RefusesDecoding := by decide

theorem Exn.OfParsing.of_strict {errors : Handler} {e : Exn} (held : e.OfParsing .strict) :
    e.OfParsing errors := by
  obtain ⟨text, rfl⟩ := held.decodes strict_decodes
  trivial

abbrev ParseErrors {α : Type} (errors : Handler) (x : Except Exn α) : Prop :=
  Raises (Exn.OfParsing errors) x

section Fields

variable {α : Type} {errors : Handler}

theorem unpack_errors {width : Nat} {data : Bytes} (length : data.length = width) :
    ParseErrors errors (unpack width data) := by
  rw [unpack_of_length length]
  exact raises_ok _

theorem byteAt_errors {data : Bytes} {i : Nat} (inside : i < data.length) :
    ParseErrors errors (byteAt data i) := by
  rw [byteAt, List.getElem?_eq_getElem inside]
  exact raises_ok _

theorem decodeWord_errors (data : Bytes) (label : String) :
    ParseErrors errors (decodeWord data label) := by
  refine raises_guard trivial fun room => ?_
  apply unpack_errors
  rw [List.length_take, min_eq_left (not_lt.mp room)]

theorem decodeUint64_errors (data : Bytes) (label : String) :
    ParseErrors errors (decodeUint64 data label) := decodeWord_errors data label

theorem decodeUint64_lt {data : Bytes} {label : String} {n : Nat}
    (read : decodeUint64 data label = .ok n) : n < 256 ^ 8 := (decodeWord_ok read).2.1

theorem decodeUint32_errors (data : Bytes) : ParseErrors errors (decodeUint32 data) := by
  refine raises_guard trivial fun room => ?_
  apply unpack_errors
  rw [List.length_take, min_eq_left (not_lt.mp room)]

theorem decodeInt64_errors (data : Bytes) (label : String) :
    ParseErrors errors (decodeInt64 data label) :=
  raises_bind (decodeWord_errors data label) fun _ => raises_ok _

theorem decodeDouble_errors (data : Bytes) (label : String) :
    ParseErrors errors (decodeDouble data label) :=
  raises_bind (decodeWord_errors data label) fun _ => raises_ok _

theorem decodeUtf8_errors (label : String) (data : Bytes) :
    ParseErrors errors (decodeUtf8 (bytesDecode errors) label data) := by
  unfold decodeUtf8 bytesDecode
  cases decoded : Utf8.decode errors data with
  | ok text => exact raises_ok _
  | error fault =>
      cases fault with
      | invalid start bytes reason => exact raises_error trivial
      | handlerRefusesDecoding => exact raises_error (decode_refuses decoded)

theorem finishText_errors (dataLen : Nat) (text : Str) (nullPos : Nat) :
    ParseErrors errors (finishText dataLen text nullPos) :=
  raises_bind (raises_raiseIf trivial) fun _ => raises_ok _

theorem decodeTextView_errors (label : String) (data : Bytes) (maxSize : Nat) :
    ParseErrors errors (decodeTextView (bytesDecode errors) label data maxSize) := by
  have found (piece : Bytes) (nullPos : Nat) :
      ParseErrors errors (do
        let text ← decodeUtf8 (bytesDecode errors) label piece
        finishText data.length text nullPos) :=
    raises_bind (decodeUtf8_errors label piece) fun _ => finishText_errors _ _ _
  unfold decodeTextView
  simp only
  split
  · exact found _ _
  · split
    · exact raises_error trivial
    · split
      · exact raises_error trivial
      · split
        · exact found _ _
        · split
          · exact raises_error trivial
          · split
            · exact raises_error trivial
            · split
              · split <;> exact raises_error trivial
              · exact found _ _

theorem decodeTextBytes_errors (label : String) (data : Bytes) (maxSize : Nat) :
    ParseErrors errors (decodeTextBytes (bytesDecode errors) label data maxSize) := by
  unfold decodeTextBytes
  simp only
  split
  · split <;> exact raises_error trivial
  · exact raises_bind (decodeUtf8_errors label _) fun _ => finishText_errors _ _ _

theorem decodeText_errors (source : Source) (data : Bytes) (maxSize : Nat) (label : String) :
    ParseErrors errors (decodeText source data maxSize label errors) := by
  cases source with
  | bytes => exact decodeTextBytes_errors label data maxSize
  | view => exact decodeTextView_errors label data maxSize

/-- Only cells are read under the configured handler; every other text is read strictly. -/
theorem decodeText_strict_errors (source : Source) (data : Bytes) (maxSize : Nat) (label : String) :
    ParseErrors errors (decodeText source data maxSize label) :=
  (decodeText_errors source data maxSize label).mono fun _ => Exn.OfParsing.of_strict

theorem decodeBlob_errors (data : Bytes) (cap : Nat) : ParseErrors errors (decodeBlob data cap) :=
  raises_bind (raises_raiseIf trivial) fun _ =>
    raises_bind (decodeUint64_errors _ _) fun _ =>
      raises_bind (raises_raiseIf trivial) fun _ =>
        raises_bind (raises_raiseIf trivial) fun _ => raises_ok _

theorem decodeValue_errors (source : Source) (data : Bytes) (t : ValueType) :
    ParseErrors errors (decodeValue source data t errors) := by
  cases t with
  | integer | unixtime => exact raises_bind (decodeInt64_errors _ _) fun _ => raises_ok _
  | float => exact raises_bind (decodeDouble_errors _ _) fun _ => raises_ok _
  | text | iso8601 => exact raises_bind (decodeText_errors _ _ _ _) fun _ => raises_ok _
  | blob => exact raises_bind (decodeBlob_errors _ _) fun _ => raises_ok _
  | null | boolean => exact raises_bind (decodeUint64_errors _ _) fun _ => raises_ok _

theorem decodeValues_errors (source : Source) (data : Bytes) (types : List ValueType)
    (offset : Nat) : ParseErrors errors (decodeValues source errors data offset types) := by
  induction types generalizing offset with
  | nil => exact raises_ok _
  | cons t types ih =>
      exact raises_bind (decodeValue_errors _ _ _) fun _ =>
        raises_bind (ih _) fun _ => raises_ok _

theorem decodeRowTypes_errors {data : Bytes} {count i : Nat}
    (room : (i + count + 1) / 2 ≤ data.length) : ParseErrors errors (decodeRowTypes data i count) := by
  induction count generalizing i with
  | zero => exact raises_ok _
  | succ count ih =>
      refine raises_bind (byteAt_errors (by omega)) fun byte => ?_
      simp only
      split
      · exact raises_error trivial
      · exact raises_bind (ih (by rwa [Nat.succ_add_eq_add_succ])) fun _ => raises_ok _

theorem decodeRowHeader_errors (data : Bytes) (count : Nat) :
    ParseErrors errors (decodeRowHeader data count) := by
  unfold decodeRowHeader
  simp only
  split
  · exact raises_ok _
  · split
    · exact raises_ok _
    · refine raises_guard trivial fun room => ?_
      have types : (0 + count + 1) / 2 ≤ data.length := by omega
      exact raises_bind (decodeRowTypes_errors types) fun _ => raises_ok _

theorem decodeRowHeader_consumed {data : Bytes} {count consumed : Nat} {types : List ValueType}
    (positive : 0 < count) (decoded : decodeRowHeader data count = .ok (.inl types, consumed)) :
    0 < consumed := by
  unfold decodeRowHeader at decoded
  simp only at decoded
  split at decoded
  · cases decoded
  · split at decoded
    · cases decoded
    · obtain ⟨_, _, tail⟩ := bind_eq_ok.mp decoded
      obtain ⟨_, _, last⟩ := bind_eq_ok.mp tail
      cases last
      omega

end Fields

namespace RowsResponse

variable {errors : Handler}

theorem decodeNames_errors (view : Bytes) (count offset : Nat) :
    ParseErrors errors (decodeNames view count offset) := by
  induction count generalizing offset with
  | zero => exact raises_ok _
  | succ count ih =>
      exact raises_bind (decodeText_strict_errors _ _ _ _) fun _ =>
        raises_bind (ih _) fun _ => raises_ok _

theorem decodeNames_length {view : Bytes} {count offset last : Nat} {names : List Str}
    (decoded : decodeNames view count offset = .ok (names, last)) :
    names.length = count ∧ offset ≤ last := by
  induction count generalizing offset names with
  | zero =>
      cases decoded
      exact ⟨rfl, le_rfl⟩
  | succ count ih =>
      obtain ⟨⟨name, consumed⟩, _, tail⟩ := bind_eq_ok.mp decoded
      obtain ⟨⟨others, _⟩, later, done⟩ := bind_eq_ok.mp tail
      cases done
      obtain ⟨length, le⟩ := ih later
      exact ⟨by rw [List.length_cons, length], le_trans (Nat.le_add_right _ _) le⟩

theorem decodeZeroColumnMarker_errors (markerView : Bytes) :
    ParseErrors errors (decodeZeroColumnMarker markerView) := by
  unfold decodeZeroColumnMarker
  split
  · exact raises_ok _
  · split
    · exact raises_ok _
    · exact raises_error trivial

theorem decodeZeroColumns_errors (view : Bytes) (names : List Str) (offset : Nat) :
    ParseErrors errors (decodeZeroColumns view names offset) := by
  refine raises_guard trivial fun _ => ?_
  refine raises_bind (decodeZeroColumnMarker_errors _) fun _ => ?_
  exact raises_bind (raises_raiseIf trivial) fun _ => raises_ok _

/-- Each turn moves on by at least a byte, so the loop ends before its bound. -/
theorem decodeRows_errors {view : Bytes} {names : List Str} (positive : 0 < names.length)
    (maxRows : Nat) {fuel offset : Nat} (room : view.length ≤ offset + fuel)
    (rows : List (List WireInput)) (types : List (List ValueType)) :
    ParseErrors errors (decodeRows view names maxRows errors (fuel + 1) offset rows types) := by
  induction fuel generalizing offset rows types with
  | zero =>
      rw [decodeRows, if_neg (by omega)]
      exact raises_error trivial
  | succ fuel ih =>
      rw [decodeRows]
      split
      · refine raises_next (decodeRowHeader_errors _ _) fun ⟨result, consumed⟩ header => ?_
        cases result with
        | inr marker => exact raises_bind (raises_raiseIf trivial) fun _ => raises_ok _
        | inl rowTypes =>
            have moved := decodeRowHeader_consumed positive header
            refine raises_bind (decodeValues_errors _ _ _ _) fun ⟨values, width⟩ => ?_
            refine raises_bind (raises_raiseIf trivial) fun _ => ?_
            exact ih (by omega) _ _
      · exact raises_error trivial

theorem decodeBody_errors (data : Bytes) (schema maxRows : Nat) :
    ParseErrors errors (decodeBody data schema maxRows errors) := by
  refine raises_guard trivial fun _ => ?_
  refine raises_bind (decodeUint64_errors _ _) fun count => ?_
  refine raises_guard trivial fun _ => ?_
  refine raises_guard trivial fun _ => ?_
  refine raises_next (decodeNames_errors _ _ _) fun ⟨names, offset⟩ named => ?_
  obtain ⟨length, _⟩ := decodeNames_length named
  simp only
  split
  · exact decodeZeroColumns_errors _ _ _
  · rename_i some_
    exact decodeRows_errors (by omega) _ (by omega) _ _

end RowsResponse

namespace FailureResponse

variable {errors : Handler}

theorem new_errors {code : Nat} (bound : code < 256 ^ 8) (message : Str) :
    ParseErrors errors (new code message) := raises_validated bound _ (raises_ok _)

theorem skipColumnNames_errors (data : Bytes) (count offset : Nat) :
    ParseErrors errors (skipColumnNames data count offset) := by
  induction count generalizing offset with
  | zero => exact raises_ok _
  | succ count ih => exact raises_bind (decodeText_strict_errors _ _ _ _) fun _ => ih _

theorem trailingRecord_errors (data : Bytes) (count : Nat) :
    ParseErrors errors (trailingRecord data count) := by
  refine raises_bind (skipColumnNames_errors _ _ _) fun offset => ?_
  simp only
  split
  · exact raises_ok _
  · exact raises_bind (decodeUint64_errors _ _) fun _ =>
      raises_bind (decodeText_strict_errors _ _ _ _) fun _ => raises_ok _

theorem trailingRecord_code {data : Bytes} {count code offset : Nat} {message : Str}
    (decoded : trailingRecord data count = .ok (some (code, message, offset))) :
    code < 256 ^ 8 := by
  obtain ⟨_, _, tail⟩ := bind_eq_ok.mp decoded
  split at tail
  · cases tail
  · obtain ⟨_, read, tail⟩ := bind_eq_ok.mp tail
    obtain ⟨_, _, last⟩ := bind_eq_ok.mp tail
    cases last
    exact decodeUint64_lt read

theorem recoverTrailingFailureRecord_errors (data : Bytes) (count : Nat) :
    ParseErrors errors (recoverTrailingFailureRecord data count) := by
  unfold recoverTrailingFailureRecord
  split
  · exact raises_ok _
  · split
    · exact raises_ok _
    · rename_i other _ raised
      exact raises_error (trailingRecord_errors data count other raised)
    · exact raises_ok _
    · split <;> exact raises_ok _

theorem recoverTrailingFailureRecord_code {data : Bytes} {count code : Nat} {message : Str}
    (recovered : recoverTrailingFailureRecord data count = .ok (some (code, message))) :
    code < 256 ^ 8 := by
  unfold recoverTrailingFailureRecord at recovered
  split at recovered
  · cases recovered
  · split at recovered
    · cases recovered
    · cases recovered
    · cases recovered
    · rename_i found
      split at recovered <;> cases recovered
      exact trailingRecord_code found

theorem decodeBody_errors (data : Bytes) (schema : Nat) :
    ParseErrors errors (FailureResponse.decodeBody data schema) := by
  refine raises_guard trivial fun _ => ?_
  refine raises_guard trivial fun _ => ?_
  refine raises_next (decodeUint64_errors _ _) fun code read => ?_
  refine raises_bind (decodeText_strict_errors _ _ _ _) fun ⟨message, consumed⟩ => ?_
  simp only
  split
  · refine raises_next (recoverTrailingFailureRecord_errors _ _) fun record recovered => ?_
    cases record with
    | some record => exact new_errors (recoverTrailingFailureRecord_code recovered) _
    | none => exact new_errors (decodeUint64_lt read) _
  · exact new_errors (decodeUint64_lt read) _

end FailureResponse

section Frames

variable {errors : Handler}

theorem EmptyResponse.decodeBody_errors (data : Bytes) (schema : Nat) :
    ParseErrors errors (EmptyResponse.decodeBody data schema) := by
  refine raises_guard trivial fun _ => ?_
  refine raises_guard trivial fun _ => ?_
  exact raises_bind (decodeUint64_errors _ _) fun _ => raises_ok _

theorem checkSchema_errors (isRequest : Bool) (header : Header) :
    ParseErrors errors (MessageDecoder.checkSchema isRequest header) := raises_raiseIf trivial

end Frames

end DqliteWire
