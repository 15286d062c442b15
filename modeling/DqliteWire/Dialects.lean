import DqliteWire.Lib.Utf8Parts
import DqliteWire.ServerText

/-! The leader response has two bodies, and neither says which of them it is: a decoder reads the one its
version names. What each reader makes of either body. -/

namespace DqliteWire

open WireLib WireLib.Utf8 MessageDecoder

/-- Bytes that are one text and nothing else. -/
def TextField (cap : Nat) (s : Str) (data : Bytes) : Prop :=
  ∃ utf8 padding, data = utf8 ++ 0 :: padding ∧ Utf8.encode s = .ok utf8 ∧ (0 : UInt8) ∉ utf8 ∧
    utf8.length ≤ cap ∧ data.length = paddedLength utf8.length

theorem paddedLength_add_word (n : Nat) : paddedLength (8 + n) = 8 + paddedLength n := by
  have completed := mod_padToWord (n + 1)
  have completed' := mod_padToWord (8 + n + 1)
  have short := padToWord_lt (n + 1)
  have short' := padToWord_lt (8 + n + 1)
  unfold paddedLength
  omega

section Texts

variable {cap : Nat} {s : Str} {data : Bytes}

theorem decodeText_whole {label : String} :
    decodeText .bytes data cap label = .ok (s, data.length) ↔ TextField cap s data := by
  constructor
  · intro read
    rcases decodeText_cases .bytes data cap label with
      ⟨utf8, padding, split_, clean, small, found⟩ | ⟨_, missing⟩
    · rw [found] at read
      obtain ⟨strict, finished⟩ := readText_strict read
      obtain ⟨_, _, last⟩ := bind_eq_ok.mp finished
      have length := congrArg Prod.snd (Except.ok.inj last)
      exact ⟨utf8, padding, split_, encode_decode strict, clean, small, length.symm⟩
    · obtain ⟨text, raised⟩ := missing .strict
      rw [raised] at read
      cases read
  · intro field
    obtain ⟨utf8, padding, rfl, valid, clean, small, length⟩ := field
    have decoded : bytesDecode .strict utf8 = .ok s := by
      rw [bytesDecode, Utf8.decode_encode .strict s utf8 valid]
    have whole : ¬ paddedLength utf8.length < utf8.length + 1 + padToWord (utf8.length + 1) := lt_irrefl _
    rw [decodeText_found clean small, readText, decodeUtf8, decoded, length]
    simp only [ok_bind, finishText]
    rw [raiseIf_neg whole]
    rfl

theorem TextField.of_encode {label : String} (encoded : encodeText s (some cap) label = .ok data) :
    TextField cap s data := by
  obtain ⟨read, _, _⟩ := decodeText_encode encoded .bytes [] label .strict
  rw [List.append_nil] at read
  exact decodeText_whole.mp read

theorem TextField.words (field : TextField cap s data) : data.length % 8 = 0 ∧ 8 ≤ data.length := by
  obtain ⟨utf8, _, _, _, _, _, length⟩ := field
  have whole : paddedLength utf8.length % 8 = 0 := mod_padToWord (utf8.length + 1)
  have positive : 1 ≤ paddedLength utf8.length := by
    unfold paddedLength
    omega
  omega

theorem terminated_unique {utf8 utf8' padding padding' : Bytes} (clean : (0 : UInt8) ∉ utf8)
    (clean' : (0 : UInt8) ∉ utf8') (same : utf8 ++ 0 :: padding = utf8' ++ 0 :: padding') : utf8 = utf8' := by
  have found := congrArg findNul same
  rw [findNul_found clean, findNul_found clean'] at found
  exact (List.append_inj same (Option.some.inj found)).1

/-- A word in front of a text: the two are one text where the word spells characters, and none of them
is a NUL. -/
theorem TextField.word_append {word : Bytes} (eight : word.length = 8) {rest : Str}
    (field : TextField cap rest data) :
    TextField cap s (word ++ data) ↔ (0 : UInt8) ∉ word ∧ ∃ first, s = first ++ rest ∧
      Utf8.encode first = .ok word ∧ ∃ utf8, Utf8.encode s = .ok utf8 ∧ utf8.length ≤ cap := by
  have long := field.words.2
  obtain ⟨utf8, padding, rfl, valid, clean, small, length⟩ := field
  constructor
  · intro whole
    obtain ⟨all, padding', same, valid', clean', small', length'⟩ := whole
    -- the first NUL comes behind the word, since the text would end in the word's padding otherwise
    have behind : 8 ≤ all.length := by
      rw [List.length_append, eight] at length'
      have padded := padToWord_lt (all.length + 1)
      have completed := mod_padToWord (all.length + 1)
      unfold paddedLength at length'
      omega
    obtain ⟨tail, rfl⟩ : word <+: all :=
      List.prefix_of_prefix_length_le ⟨_, rfl⟩ ⟨_, same.symm⟩ (by omega)
    rw [List.append_assoc] at same
    have clear : (0 : UInt8) ∉ tail := fun member => clean' (List.mem_append_right word member)
    obtain rfl := terminated_unique clean clear (List.append_cancel_left same)
    obtain ⟨first, split_, spelt⟩ := encode_split valid' valid
    exact ⟨fun member => clean' (List.mem_append_left utf8 member), first, split_, spelt, _, valid', small'⟩
  · rintro ⟨clear, first, rfl, spelt, all, valid', small'⟩
    have whole := encode_append.mpr ⟨word, utf8, spelt, valid, rfl⟩
    obtain rfl := Except.ok.inj (whole.symm.trans valid')
    refine ⟨word ++ utf8, padding, by simp, whole, by simp [clear, clean], small', ?_⟩
    rw [List.length_append, length, List.length_append, eight, paddedLength_add_word]

/-- A text without its first word: a text again where the word ends with a character. -/
theorem TextField.drop_word (field : TextField cap s data) {rest : Str} :
    TextField cap rest (data.drop 8) ↔ ∃ first, s = first ++ rest ∧ Utf8.encode first = .ok (data.take 8) := by
  have eight : (data.take 8).length = 8 := by
    rw [List.length_take, min_eq_left field.words.2]
  constructor
  · intro behind
    rw [← List.take_append_drop 8 data] at field
    obtain ⟨_, first, split_, spelt, _⟩ := (behind.word_append eight).mp field
    exact ⟨first, split_, spelt⟩
  · rintro ⟨first, rfl, spelt⟩
    obtain ⟨utf8, padding, same, valid, clean, small, length⟩ := field
    obtain ⟨u, v, head, last, rfl⟩ := encode_append.mp valid
    obtain rfl := Except.ok.inj (head.symm.trans spelt)
    have tail : data.drop 8 = v ++ 0 :: padding := by
      conv_lhs => rw [same, List.append_assoc]
      exact List.drop_left' eight
    refine ⟨v, padding, tail, last, fun member => clean (List.mem_append_right _ member), ?_, ?_⟩
    · rw [List.length_append] at small
      omega
    · rw [List.length_append, eight, paddedLength_add_word] at length
      rw [List.length_drop, length]
      omega

end Texts

section Bodies

variable {m : LeaderResponse} {data : Bytes}

theorem LeaderResponse.decodeBodyLegacy_iff :
    decodeBodyLegacy data = .ok m ↔ TextField maxAddressSize m.address data ∧ m.nodeId = 0 := by
  constructor
  · intro decoded
    obtain ⟨_, _, tail⟩ := bind_eq_ok.mp decoded
    obtain ⟨⟨address, consumed⟩, text, tail⟩ := bind_eq_ok.mp tail
    obtain ⟨_, whole, built⟩ := bind_eq_ok.mp tail
    obtain rfl : consumed = data.length := not_not.mp (raiseIf_eq_ok.mp whole)
    cases built
    exact ⟨decodeText_whole.mp text, rfl⟩
  · rintro ⟨field, none_⟩
    obtain ⟨nodeId, address⟩ := m
    obtain rfl : nodeId = 0 := none_
    rw [decodeBodyLegacy, raiseIf_neg (not_lt.mpr field.words.2), ok_bind, decodeText_whole.mpr field, ok_bind]
    simp only
    rw [raiseIf_neg (by simp)]
    rfl

theorem LeaderResponse.decodeBody_iff :
    decodeBody data = .ok m ↔ 8 ≤ data.length ∧ TextField maxAddressSize m.address (data.drop 8) ∧
      m.nodeId = fromLE (data.take 8) ∧ ¬ (fromLE (data.take 8) = 0 ∧ m.address ≠ []) := by
  constructor
  · intro decoded
    obtain ⟨_, _, tail⟩ := bind_eq_ok.mp decoded
    obtain ⟨_, long, tail⟩ := bind_eq_ok.mp tail
    obtain ⟨n, word, tail⟩ := bind_eq_ok.mp tail
    obtain ⟨⟨address, consumed⟩, text, tail⟩ := bind_eq_ok.mp tail
    obtain ⟨_, whole, tail⟩ := bind_eq_ok.mp tail
    obtain ⟨_, paired, built⟩ := bind_eq_ok.mp tail
    have room := not_lt.mp (raiseIf_eq_ok.mp long)
    have covered : 8 + consumed = data.length := not_not.mp (raiseIf_eq_ok.mp whole)
    obtain rfl : consumed = (data.drop 8).length := by
      rw [List.length_drop]
      omega
    obtain ⟨_, bound, spelt⟩ := decodeWord_ok word
    obtain ⟨_, _, last⟩ := bind_eq_ok.mp built
    cases last
    have value : fromLE (data.take 8) = n := by rw [spelt, fromLE_toLE 8 n bound]
    rw [value]
    exact ⟨room, decodeText_whole.mp text, rfl, raiseIf_eq_ok.mp paired⟩
  · rintro ⟨room, field, word, paired⟩
    obtain ⟨nodeId, address⟩ := m
    simp only at word field paired
    have eight : (data.take 8).length = 8 := by rw [List.length_take, min_eq_left room]
    have bound := fromLE_lt (data.take 8)
    have spelt := toLE_fromLE (data.take 8)
    rw [eight] at bound spelt
    have read : decodeUint64 data = .ok (fromLE (data.take 8)) := by
      conv_lhs => rw [← List.take_append_drop 8 data, ← spelt]
      exact decodeUint64_toLE bound _ _
    rw [decodeBody, raiseIf_neg (by simp), ok_bind, raiseIf_neg (not_lt.mpr room), ok_bind, read, ok_bind,
      decodeText_whole.mpr field, ok_bind]
    simp only
    rw [raiseIf_neg (by rw [List.length_drop]; omega), ok_bind, raiseIf_neg paired, ok_bind, new,
      validateUint64_ok bound, ok_bind, word]
    rfl

end Bodies

def leaderFrame (body : Bytes) : Bytes :=
  Header.encode ⟨body.length / 8, ResponseType.leader.code, 0, 0⟩ ++ body

section Readers

variable {config : Config} {body : Bytes}

theorem decodeFrame_leader (client : config.isRequest = false) (aligned : body.length % 8 = 0)
    (room : 8 + body.length ≤ config.maxMessageSize)
    (version : Option Nat) :
    decodeFrame config version (leaderFrame body) =
      Message.response <$> decodeResponseBody config version .leader body 0 := by
  have countable : body.length / 8 < 256 ^ 4 := by
    have ceiling : config.maxMessageSize ≤ 4294967295 := config.size_le_ceiling
    have power : (256 : Nat) ^ 4 = 4294967296 := by norm_num
    omega
  have header : frameHeader (leaderFrame body) = ⟨body.length / 8, ResponseType.leader.code, 0, 0⟩ :=
    frameHeader_encode countable (by decide) (by decide) body
  have length : (leaderFrame body).length = headerSize + body.length := by
    rw [leaderFrame, List.length_append, Header.encode_length]
  have legal : wire.IsFrame config.maxMessageSize (leaderFrame body) := by
    refine ⟨?_, ?_⟩
    · rw [length, size_frameHeader, header, Header.bodySize, wordSize, Nat.mul_comm]
      simp only [Nat.mul_div_cancel' (Nat.dvd_of_mod_eq_zero aligned)]
    · rw [length]
      exact room
  rw [decodeFrame_eq legal, header, leaderFrame, frameBody_encode,
    MessageDecoder.decodeBody_response client version (t := .leader) rfl]
  rfl

theorem decodeFrame_leader_legacy (client : config.isRequest = false) (aligned : body.length % 8 = 0)
    (room : 8 + body.length ≤ config.maxMessageSize) {m' : Message} :
    decodeFrame config (some protocolVersionLegacy) (leaderFrame body) = .ok m' ↔
      ∃ m, m' = .response (.leader m) ∧ TextField maxAddressSize m.address body ∧ m.nodeId = 0 := by
  rw [decodeFrame_leader client aligned room, map_eq_ok]
  simp only [decodeResponseBody, if_true, map_eq_ok, LeaderResponse.decodeBodyLegacy_iff]
  constructor
  · rintro ⟨_, ⟨m, accepted, rfl⟩, rfl⟩
    exact ⟨m, rfl, accepted⟩
  · rintro ⟨m, rfl, accepted⟩
    exact ⟨_, ⟨m, accepted, rfl⟩, rfl⟩

theorem decodeFrame_leader_modern (client : config.isRequest = false) (aligned : body.length % 8 = 0)
    (room : 8 + body.length ≤ config.maxMessageSize) {m' : Message} :
    decodeFrame config (some protocolVersion) (leaderFrame body) = .ok m' ↔
      ∃ m, m' = .response (.leader m) ∧ 8 ≤ body.length ∧ TextField maxAddressSize m.address (body.drop 8) ∧
        m.nodeId = fromLE (body.take 8) ∧ ¬ (fromLE (body.take 8) = 0 ∧ m.address ≠ []) := by
  rw [decodeFrame_leader client aligned room, map_eq_ok]
  have modern : some protocolVersion ≠ some protocolVersionLegacy := by decide
  simp only [decodeResponseBody, if_neg modern, map_eq_ok, LeaderResponse.decodeBody_iff]
  constructor
  · rintro ⟨_, ⟨m, accepted, rfl⟩, rfl⟩
    exact ⟨m, rfl, accepted⟩
  · rintro ⟨m, rfl, accepted⟩
    exact ⟨_, ⟨m, accepted, rfl⟩, rfl⟩

theorem LeaderResponse.encodeBodyLegacy_field {m : LeaderResponse} (sent : m.encodeBodyLegacy = .ok body) :
    TextField maxAddressSize m.address body ∧ m.nodeId = 0 := by
  obtain ⟨_, none_, written⟩ := bind_eq_ok.mp sent
  exact ⟨.of_encode written, not_not.mp (raiseIf_eq_ok.mp none_)⟩

theorem LeaderResponse.encodeBody_fields {m : LeaderResponse} (sent : m.encodeBody = .ok body) :
    (body.take 8).length = 8 ∧ TextField maxAddressSize m.address (body.drop 8) := by
  obtain ⟨_, _, tail⟩ := bind_eq_ok.mp sent
  obtain ⟨_, word, tail⟩ := bind_eq_ok.mp tail
  obtain ⟨text, written, last⟩ := bind_eq_ok.mp tail
  obtain ⟨n, _, _, rfl⟩ := encodeUint64_word word
  cases last
  rw [List.take_left' (toLE_length 8 n), List.drop_left' (toLE_length 8 n)]
  exact ⟨toLE_length 8 n, .of_encode written⟩

end Readers

/-- A leader response in the legacy body. A client of the legacy version reads the message; one of the
modern version takes the first eight bytes of the address for the node id, where they are whole characters,
and refuses the message elsewhere. It never reads the message that was sent. -/
theorem legacy_leader_read (config : Config) (client : config.isRequest = false) (m : LeaderResponse)
    (body : Bytes) (sent : m.encodeBodyLegacy = .ok body) (room : 8 + body.length ≤ config.maxMessageSize) :
    decodeFrame config (some protocolVersionLegacy) (leaderFrame body) = .ok (.response (.leader m)) ∧
      (∀ m', decodeFrame config (some protocolVersion) (leaderFrame body) = .ok m' ↔
        ∃ first rest, m.address = first ++ rest ∧ Utf8.encode first = .ok (body.take 8) ∧
          m' = .response (.leader ⟨fromLE (body.take 8), rest⟩)) ∧
      decodeFrame config (some protocolVersion) (leaderFrame body) ≠ .ok (.response (.leader m)) := by
  obtain ⟨field, none_⟩ := LeaderResponse.encodeBodyLegacy_field sent
  obtain ⟨aligned, long⟩ := field.words
  have eight : (body.take 8).length = 8 := by rw [List.length_take, min_eq_left long]
  have misread (m' : Message) : decodeFrame config (some protocolVersion) (leaderFrame body) = .ok m' ↔
      ∃ first rest, m.address = first ++ rest ∧ Utf8.encode first = .ok (body.take 8) ∧
        m' = .response (.leader ⟨fromLE (body.take 8), rest⟩) := by
    rw [decodeFrame_leader_modern client aligned room]
    constructor
    · rintro ⟨⟨nodeId, rest⟩, rfl, _, behind, word, _⟩
      obtain ⟨first, split_, spelt⟩ := field.drop_word.mp behind
      obtain rfl : nodeId = fromLE (body.take 8) := word
      exact ⟨first, rest, split_, spelt, rfl⟩
    · rintro ⟨first, rest, split_, spelt, rfl⟩
      have behind : TextField maxAddressSize rest (body.drop 8) := field.drop_word.mpr ⟨first, split_, spelt⟩
      refine ⟨⟨fromLE (body.take 8), rest⟩, rfl, long, behind, rfl, ?_⟩
      rw [← List.take_append_drop 8 body] at field
      have clean := ((behind.word_append eight).mp field).1
      rintro ⟨zero, _⟩
      -- a node id of zero would be a NUL inside the address
      have spelt := toLE_fromLE (body.take 8)
      rw [eight, zero] at spelt
      exact clean (spelt ▸ by decide)
  refine ⟨?_, misread, ?_⟩
  · exact (decodeFrame_leader_legacy client aligned room).mpr ⟨m, rfl, field, none_⟩
  · intro same
    obtain ⟨first, rest, split_, spelt, equal⟩ := (misread _).mp same
    obtain ⟨nodeId, address⟩ := m
    obtain ⟨_, rfl⟩ := LeaderResponse.mk.inj (Response.leader.inj (Message.response.inj equal))
    obtain rfl : first = [] := List.append_left_eq_self.mp split_.symm
    have empty := congrArg List.length (Except.ok.inj spelt)
    rw [eight] at empty
    cases empty

/-- Of `localhost` in the legacy body, `localhos` becomes the node id and `t` the address. -/
theorem legacy_leader_read_localhost :
    let address : Str := "localhost".toList.map point
    let body : Bytes := [0x6C, 0x6F, 0x63, 0x61, 0x6C, 0x68, 0x6F, 0x73, 0x74, 0, 0, 0, 0, 0, 0, 0]
    decodeFrame (.default false) (some protocolVersionLegacy) (leaderFrame body) =
        .ok (.response (.leader ⟨0, address⟩)) ∧
      (∀ m', decodeFrame (.default false) (some protocolVersion) (leaderFrame body) = .ok m' ↔
        ∃ first rest, address = first ++ rest ∧ Utf8.encode first = .ok (body.take 8) ∧
          m' = .response (.leader ⟨fromLE (body.take 8), rest⟩)) ∧
      decodeFrame (.default false) (some protocolVersion) (leaderFrame body) ≠
        .ok (.response (.leader ⟨0, address⟩)) :=
  legacy_leader_read (.default false) rfl ⟨0, "localhost".toList.map point⟩
    [0x6C, 0x6F, 0x63, 0x61, 0x6C, 0x68, 0x6F, 0x73, 0x74, 0, 0, 0, 0, 0, 0, 0] (by decide +kernel) (by decide)

/-- A leader response in the modern body, as a client of the legacy version reads it: the node id is part of
the address where its bytes are characters, and the message is refused elsewhere. -/
theorem modern_leader_read (config : Config) (client : config.isRequest = false) (m : LeaderResponse)
    (body : Bytes) (sent : m.encodeBody = .ok body) (room : 8 + body.length ≤ config.maxMessageSize)
    (m' : Message) :
    decodeFrame config (some protocolVersionLegacy) (leaderFrame body) = .ok m' ↔
      (0 : UInt8) ∉ body.take 8 ∧ ∃ first, Utf8.encode first = .ok (body.take 8) ∧
        (∃ utf8, Utf8.encode (first ++ m.address) = .ok utf8 ∧ utf8.length ≤ maxAddressSize) ∧
        m' = .response (.leader ⟨0, first ++ m.address⟩) := by
  obtain ⟨eight, field⟩ := LeaderResponse.encodeBody_fields sent
  have aligned : body.length % 8 = 0 := by
    have words := field.words.1
    rw [List.length_drop] at words
    rw [List.length_take] at eight
    omega
  rw [decodeFrame_leader_legacy client aligned room]
  constructor
  · rintro ⟨⟨nodeId, address⟩, rfl, whole, none_⟩
    rw [← List.take_append_drop 8 body] at whole
    obtain ⟨clear, first, rfl, spelt, within⟩ := (field.word_append eight).mp whole
    obtain rfl : nodeId = 0 := none_
    exact ⟨clear, first, spelt, within, rfl⟩
  · rintro ⟨clear, first, spelt, within, rfl⟩
    have whole := (field.word_append eight).mpr ⟨clear, first, rfl, spelt, within⟩
    rw [List.take_append_drop] at whole
    exact ⟨_, rfl, whole, rfl⟩

theorem modern_leader_read_letters :
    let body : Bytes := [0x6C, 0x6F, 0x63, 0x61, 0x6C, 0x68, 0x6F, 0x73, 0x74, 0, 0, 0, 0, 0, 0, 0]
    let heard : Message := .response (.leader ⟨0, "localhost".toList.map point⟩)
    decodeFrame (.default false) (some protocolVersionLegacy) (leaderFrame body) = .ok heard ↔
      (0 : UInt8) ∉ body.take 8 ∧ ∃ first, Utf8.encode first = .ok (body.take 8) ∧
        (∃ utf8, Utf8.encode (first ++ [point 't']) = .ok utf8 ∧ utf8.length ≤ maxAddressSize) ∧
        heard = .response (.leader ⟨0, first ++ [point 't']⟩) :=
  modern_leader_read (.default false) rfl ⟨0x736F686C61636F6C, [point 't']⟩
    [0x6C, 0x6F, 0x63, 0x61, 0x6C, 0x68, 0x6F, 0x73, 0x74, 0, 0, 0, 0, 0, 0, 0] (by decide +kernel)
    (by decide) (.response (.leader ⟨0, "localhost".toList.map point⟩))

end DqliteWire
