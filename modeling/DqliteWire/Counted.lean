import DqliteWire.Reencode

/-! The counted-list responses: what the encoders of FILES and SERVERS write is read back, and what
their decoders accept is written back. -/

namespace DqliteWire

open WireLib WireLib.Utf8

namespace FilesResponse

theorem eq_of_files {m m' : FilesResponse} (same : m.files = m'.files) : m = m' := by
  cases m
  cases m'
  cases same
  rfl

/-- The bytes of `n` entries that are written back: not the padding of the names. -/
def filesMask : Nat → Bytes → Bytes
  | 0, _ => []
  | n + 1, data =>
    let name := textMask data
    let entry := name ++ ones (8 + fromLE ((data.drop name.length).take 8))
    entry ++ filesMask n (data.drop entry.length)

def bodyMask (data : Bytes) : Bytes := ones 8 ++ filesMask (fromLE (data.take 8)) (data.drop 8)

theorem decodeFiles_encode {entries : List (Str × Bytes)} {bytes : Bytes}
    (encoded : encodeFiles entries = .ok bytes) (before rest : Bytes) (known : FilesResponse)
    (distinct : ((known.files ++ entries).map Prod.fst).Nodup) :
    ∃ files, decodeFiles (before ++ bytes ++ rest) entries.length before.length known =
        .ok (files, before.length + bytes.length) ∧ files.files = known.files ++ entries ∧
      16 * entries.length ≤ bytes.length := by
  induction entries generalizing bytes before known with
  | nil =>
      cases encoded
      exact ⟨known, rfl, by simp, Nat.zero_le _⟩
  | cons entry entries ih =>
      obtain ⟨name, content⟩ := entry
      obtain ⟨_, checked, tail⟩ := bind_eq_ok.mp encoded
      obtain ⟨_, capped, tail⟩ := bind_eq_ok.mp tail
      obtain ⟨text, written, tail⟩ := bind_eq_ok.mp tail
      obtain ⟨size, counted, tail⟩ := bind_eq_ok.mp tail
      obtain ⟨others, later, last⟩ := bind_eq_ok.mp tail
      obtain ⟨_, bound, rfl⟩ := encodeUint64_ok counted
      cases last
      rw [Int.toNat_natCast] at bound
      have aligned := raiseIf_eq_ok.mp checked
      have small := raiseIf_eq_ok.mp capped
      obtain ⟨read, _, long⟩ := decodeText_encode written .view
        (toLE 8 content.length ++ content ++ others ++ rest) "filename" .strict
      have fresh : name ∉ known.files.map Prod.fst := by
        rw [List.map_append, List.nodup_append] at distinct
        exact fun member => distinct.2.2 name member name (by simp) rfl
      have distinct' : (((known.insert name content fresh).files ++ entries).map Prod.fst).Nodup := by
        simpa [insert] using distinct
      obtain ⟨files, following, all, room⟩ :=
        ih later (before ++ (text ++ toLE 8 content.length ++ content)) (known.insert name content fresh)
          distinct'
      have here : (before ++ (text ++ toLE 8 content.length ++ content ++ others) ++ rest).drop
          before.length = text ++ (toLE 8 content.length ++ content ++ others ++ rest) := by
        simp only [List.append_assoc, List.drop_left]
      have word : (before ++ (text ++ toLE 8 content.length ++ content ++ others) ++ rest).drop
          (before.length + text.length) = toLE 8 content.length ++ (content ++ others ++ rest) := by
        rw [← List.drop_drop, here, List.drop_left]
        simp only [List.append_assoc]
      have body : (before ++ (text ++ toLE 8 content.length ++ content ++ others) ++ rest).drop
          (before.length + text.length + 8) = content ++ (others ++ rest) := by
        rw [← List.drop_drop, word, List.drop_left' (toLE_length 8 _), List.append_assoc]
      have enough : ¬ (before ++ (text ++ toLE 8 content.length ++ content ++ others) ++ rest).length <
          before.length + text.length + 8 + content.length := by
        simp only [List.length_append, toLE_length]
        omega
      refine ⟨files, ?_, by rw [all]; simp [insert], ?_⟩
      · rw [Int.toNat_natCast]
        simp only [List.length_cons, decodeFiles, here, read, ok_bind, word, decodeUint64_toLE bound,
          raiseIf_neg aligned, raiseIf_neg small, raiseIf_neg enough, body, List.take_left]
        rw [dif_neg fresh]
        simp only [List.length_append, toLE_length, List.append_assoc, Nat.add_assoc] at following ⊢
        exact following
      · simp only [List.length_append, toLE_length, List.length_cons]
        omega

theorem decodeBody_encode {m : FilesResponse} {body : Bytes} (encoded : m.encodeBody = .ok body) :
    decodeBody body = .ok m := by
  obtain ⟨_, few, tail⟩ := bind_eq_ok.mp encoded
  obtain ⟨count, counted, tail⟩ := bind_eq_ok.mp tail
  obtain ⟨bytes, written, last⟩ := bind_eq_ok.mp tail
  obtain ⟨_, bound, rfl⟩ := encodeUint64_ok counted
  cases last
  rw [Int.toNat_natCast] at bound ⊢
  obtain ⟨files, read, all, room⟩ := decodeFiles_encode written (toLE 8 m.files.length) []
    ⟨[], by simp⟩ (by simpa using m.distinct)
  have same : files = m := eq_of_files (by simpa using all)
  have length : (toLE 8 m.files.length ++ bytes).length = 8 + bytes.length := by
    rw [List.length_append, toLE_length]
  rw [List.append_nil, toLE_length] at read
  rw [decodeBody, raiseIf_neg (by simp), ok_bind, decodeUint64_toLE bound, ok_bind]
  simp only [length]
  rw [raiseIf_neg (raiseIf_eq_ok.mp few), ok_bind, raiseIf_neg (by omega), ok_bind, read, ok_bind,
    same]
  simp only
  rw [raiseIf_neg (by simp)]
  rfl

theorem decodeFiles_rewrites {view : Bytes} {n offset last : Nat} {known files : FilesResponse}
    (decoded : decodeFiles view n offset known = .ok (files, last)) :
    ∃ entries bytes, files.files = known.files ++ entries ∧ entries.length = n ∧
      encodeFiles entries = .ok bytes ∧
      Rewrites (filesMask n (view.drop offset)) (view.drop offset) bytes.length bytes ∧
      last = offset + bytes.length := by
  induction n generalizing offset known with
  | zero =>
      cases decoded
      exact ⟨[], [], by simp, rfl, rfl, .nil _, rfl⟩
  | succ n ih =>
      obtain ⟨⟨name, consumed⟩, read, tail⟩ := bind_eq_ok.mp decoded
      obtain ⟨size, counted, tail⟩ := bind_eq_ok.mp tail
      obtain ⟨_, checked, tail⟩ := bind_eq_ok.mp tail
      obtain ⟨_, capped, tail⟩ := bind_eq_ok.mp tail
      obtain ⟨_, enough, tail⟩ := bind_eq_ok.mp tail
      have aligned := raiseIf_eq_ok.mp checked
      have small := raiseIf_eq_ok.mp capped
      have inside := not_lt.mp (raiseIf_eq_ok.mp enough)
      split at tail
      · cases tail
      · obtain ⟨entries, bytes, all, length, written, later, rfl⟩ := ih tail
        obtain ⟨text, named, first⟩ := decodeText_rewrites read "filename"
        obtain ⟨room, bound, word⟩ := decodeWord_ok counted
        rw [← List.drop_drop] at word
        have sized : ((view.drop (offset + consumed + 8)).take size).length = size := by
          rw [List.length_take, List.length_drop]
          omega
        have content : Rewrites (ones (8 + size)) ((view.drop offset).drop consumed) (8 + size)
            (toLE 8 size ++ (view.drop (offset + consumed + 8)).take size) := by
          refine .of_eq (by rw [List.length_drop, List.length_drop]; omega) ?_
          rw [List.take_add, word, List.drop_drop, List.drop_drop, Nat.add_assoc]
        have number : fromLE (((view.drop offset).drop consumed).take 8) = size := by
          rw [word, fromLE_toLE 8 size bound]
        have entry := first.append content
        have offset_ : offset + consumed + 8 + size = offset + (consumed + (8 + size)) := by omega
        rw [offset_, ← List.drop_drop] at later
        have both := entry.append later
        refine ⟨(name, (view.drop (offset + consumed + 8)).take size) :: entries,
          text ++ toLE 8 size ++ (view.drop (offset + consumed + 8)).take size ++ bytes, ?_, ?_, ?_, ?_, ?_⟩
        · rw [all]
          simp [insert]
        · rw [List.length_cons, length]
        · rw [encodeFiles, sized, raiseIf_neg aligned, ok_bind, raiseIf_neg small, ok_bind, named,
            ok_bind, encodeUint64_nat bound, ok_bind, written]
          rfl
        · have width : (text ++ toLE 8 size ++ (view.drop (offset + consumed + 8)).take size ++
              bytes).length = consumed + (8 + size) + bytes.length := by
            simp only [List.length_append, first.length_eq, toLE_length, sized]
            omega
          have mask : filesMask (n + 1) (view.drop offset) = textMask (view.drop offset) ++
              ones (8 + size) ++ filesMask n ((view.drop offset).drop (consumed + (8 + size))) := by
            simp only [filesMask, List.length_append, first.mask_length, number, ones_length]
          rw [width, mask, List.append_assoc text]
          exact both
        · simp only [List.length_append, first.length_eq, toLE_length, sized]
          omega

theorem decodeBody_rewrites {data : Bytes} {schema : Nat} {m : FilesResponse}
    (decoded : decodeBody data schema = .ok m) :
    decodeUint64 data = .ok m.files.length ∧ ∃ bytes, m.encodeBody = .ok bytes ∧
      Rewrites (bodyMask data) data data.length bytes := by
  obtain ⟨_, _, tail⟩ := bind_eq_ok.mp decoded
  obtain ⟨count, counted, tail⟩ := bind_eq_ok.mp tail
  obtain ⟨_, capped, tail⟩ := bind_eq_ok.mp tail
  obtain ⟨_, _, tail⟩ := bind_eq_ok.mp tail
  obtain ⟨⟨files, offset⟩, read, tail⟩ := bind_eq_ok.mp tail
  obtain ⟨_, finished, last⟩ := bind_eq_ok.mp tail
  cases last
  have few := raiseIf_eq_ok.mp capped
  have finish := not_not.mp (raiseIf_eq_ok.mp finished)
  obtain ⟨room, bound, word⟩ := decodeWord_ok counted
  have number : fromLE (data.take 8) = count := by rw [word, fromLE_toLE 8 count bound]
  obtain ⟨entries, bytes, all, length, written, later, rfl⟩ := decodeFiles_rewrites read
  rw [List.nil_append] at all
  have head : Rewrites (ones 8) data 8 (toLE 8 count) := .of_eq room word
  refine ⟨by rw [all, length, counted], toLE 8 count ++ bytes, ?_, ?_⟩
  · rw [encodeBody, all, length, raiseIf_neg few, ok_bind, encodeUint64_nat bound, ok_bind, written]
    rfl
  · have whole := head.append later
    rw [bodyMask, number, ← finish]
    exact whole

end FilesResponse

theorem NodeInfo.new_ok {nodeId : Int} {address : Str} {role : RoleInput} {node : NodeInfo}
    (built : NodeInfo.new nodeId address role = .ok node) :
    node.nodeId = nodeId ∧ node.address = address ∧ nodeId ≠ 0 ∧ address ≠ [] := by
  obtain ⟨_, _, tail⟩ := bind_eq_ok.mp built
  obtain ⟨_, positive, tail⟩ := bind_eq_ok.mp tail
  obtain ⟨_, addressed, tail⟩ := bind_eq_ok.mp tail
  have facts := And.intro (raiseIf_eq_ok.mp positive) (raiseIf_eq_ok.mp addressed)
  split at tail
  · cases tail
    exact ⟨rfl, rfl, facts⟩
  · obtain ⟨_, _, last⟩ := bind_eq_ok.mp tail
    split at last <;> cases last
    exact ⟨rfl, rfl, facts⟩

theorem NodeInfo.new_role {n : Nat} (bound : n < 256 ^ 8) (positive : n ≠ 0) {address : Str}
    (addressed : address ≠ []) (role : NodeRole) :
    NodeInfo.new n address (.role role) = .ok ⟨n, address, role⟩ := by
  have positive' : ¬ (n : Int) = 0 := by exact_mod_cast positive
  simp only [NodeInfo.new, validateUint64_ok bound, ok_bind, raiseIf_neg positive',
    raiseIf_neg addressed]
  rfl

namespace ServersResponse

def nodesMask : Nat → Bytes → Bytes
  | 0, _ => []
  | n + 1, data =>
    let entry := ones 8 ++ textMask (data.drop 8) ++ ones 8
    entry ++ nodesMask n (data.drop entry.length)

def bodyMask (data : Bytes) : Bytes := ones 8 ++ nodesMask (fromLE (data.take 8)) (data.drop 8)

theorem decodeNodes_step {view text : Bytes} {policy : UnknownRolePolicy} {offset id rawRole : Nat}
    {known : List NodeInfo} {address : Str} {role : NodeRole} (bound : id < 256 ^ 8)
    (first : decodeUint64 (view.drop offset) = .ok id)
    (second : decodeText .view (view.drop (offset + 8)) maxAddressSize "server address" =
      .ok (address, text.length))
    (third : decodeUint64 (view.drop (offset + 8 + text.length)) = .ok rawRole)
    (positive : id ≠ 0) (addressed : address ≠ []) (fresh : (id : Int) ∉ known.map NodeInfo.nodeId)
    (ranked : decodeRole rawRole (offset + 8 + text.length + 8) policy = .ok role) (n : Nat) :
    decodeNodes view policy (n + 1) offset known =
      decodeNodes view policy n (offset + 8 + text.length + 8) (known ++ [⟨id, address, role⟩]) := by
  have usable : ¬ (id = 0 ∨ address = []) := not_or.mpr ⟨positive, addressed⟩
  have built := NodeInfo.new_role bound positive addressed role
  rw [decodeNodes, first, ok_bind]
  simp only [second, ok_bind, raiseIf_neg usable, raiseIf_neg fresh]
  rw [third, ok_bind, ranked, ok_bind, built, ok_bind]

theorem decodeNodes_encode {nodes : List NodeInfo} {bytes : Bytes}
    (encoded : encodeNodes nodes = .ok bytes)
    (valid : ∀ node ∈ nodes, node.nodeId ≠ 0 ∧ node.address ≠ []) (before rest : Bytes)
    (known : List NodeInfo) (distinct : ((known ++ nodes).map NodeInfo.nodeId).Nodup)
    (policy : UnknownRolePolicy) :
    decodeNodes (before ++ bytes ++ rest) policy nodes.length before.length known =
        .ok (known ++ nodes, before.length + bytes.length) ∧
      24 * nodes.length ≤ bytes.length := by
  induction nodes generalizing bytes before known with
  | nil =>
      cases encoded
      exact ⟨by simp [decodeNodes], Nat.zero_le _⟩
  | cons node nodes ih =>
      obtain ⟨id, identified, tail⟩ := bind_eq_ok.mp encoded
      obtain ⟨text, written, tail⟩ := bind_eq_ok.mp tail
      obtain ⟨role, ranked, tail⟩ := bind_eq_ok.mp tail
      obtain ⟨others, later, last⟩ := bind_eq_ok.mp tail
      obtain ⟨signed, bound, rfl⟩ := encodeUint64_ok identified
      obtain ⟨_, bound', rfl⟩ := encodeUint64_ok ranked
      cases last
      obtain ⟨nonzero, addressed⟩ := valid node (by simp)
      obtain ⟨n, number⟩ := Int.eq_ofNat_of_zero_le signed
      rw [Int.toNat_natCast] at bound'
      rw [number, Int.toNat_natCast] at bound
      rw [number] at nonzero
      have positive : n ≠ 0 := by exact_mod_cast nonzero
      obtain ⟨read, _, long⟩ := decodeText_encode written .view (toLE 8 node.role.code ++ others ++ rest)
        "server address" .strict
      have fresh : (n : Int) ∉ known.map NodeInfo.nodeId := by
        rw [List.map_append, List.nodup_append] at distinct
        exact fun member => distinct.2.2 n member n (by simp [number]) rfl
      obtain ⟨following, room⟩ := ih later (fun other member => valid other (by simp [member]))
        (before ++ (toLE 8 n ++ text ++ toLE 8 node.role.code)) (known ++ [node])
        (by simpa using distinct)
      rw [number, Int.toNat_natCast, Int.toNat_natCast]
      generalize shape : before ++ (toLE 8 n ++ text ++ toLE 8 node.role.code ++ others) ++ rest = view
      have here : view.drop before.length =
          toLE 8 n ++ (text ++ (toLE 8 node.role.code ++ others ++ rest)) := by
        rw [← shape]
        simp only [List.append_assoc, List.drop_left]
      have address : view.drop (before.length + 8) =
          text ++ (toLE 8 node.role.code ++ others ++ rest) := by
        rw [← List.drop_drop, here, List.drop_left' (toLE_length 8 _)]
      have word : view.drop (before.length + 8 + text.length) =
          toLE 8 node.role.code ++ (others ++ rest) := by
        rw [← List.drop_drop, address, List.drop_left, List.append_assoc]
      have same : NodeInfo.mk n node.address node.role = node := by rw [← number]
      have ranked_ : decodeRole node.role.code (before.length + 8 + text.length + 8) policy =
          .ok node.role := by
        rw [decodeRole, NodeRole.ofCode_code]
      have step := decodeNodes_step bound (by rw [here, decodeUint64_toLE bound])
        (by rw [address]; exact read) (by rw [word, decodeUint64_toLE bound']) positive addressed fresh
        ranked_ nodes.length
      rw [same] at step
      constructor
      · rw [List.length_cons, step]
        simp only [List.append_assoc] at shape following
        rw [shape] at following
        simp only [List.length_append, toLE_length, List.cons_append, List.nil_append,
          Nat.add_assoc] at following ⊢
        exact following
      · simp only [List.length_append, toLE_length, List.length_cons]
        omega

theorem decodeBody_encode {m : ServersResponse} {body : Bytes} (encoded : m.encodeBody = .ok body)
    (valid : ∀ node ∈ m.nodes, node.nodeId ≠ 0 ∧ node.address ≠ [])
    (distinct : (m.nodes.map NodeInfo.nodeId).Nodup) (policy : UnknownRolePolicy) :
    decodeBody body 0 policy = .ok m := by
  obtain ⟨_, few, tail⟩ := bind_eq_ok.mp encoded
  obtain ⟨count, counted, tail⟩ := bind_eq_ok.mp tail
  obtain ⟨bytes, written, last⟩ := bind_eq_ok.mp tail
  obtain ⟨_, bound, rfl⟩ := encodeUint64_ok counted
  cases last
  rw [Int.toNat_natCast] at bound ⊢
  obtain ⟨read, room⟩ := decodeNodes_encode written valid (toLE 8 m.nodes.length) [] []
    (by simpa using distinct) policy
  have length : (toLE 8 m.nodes.length ++ bytes).length = 8 + bytes.length := by
    rw [List.length_append, toLE_length]
  rw [List.append_nil, toLE_length, List.nil_append] at read
  rw [decodeBody, raiseIf_neg (by simp), ok_bind, decodeUint64_toLE bound, ok_bind]
  simp only [length]
  rw [raiseIf_neg (raiseIf_eq_ok.mp few), ok_bind, raiseIf_neg (by omega), ok_bind, read, ok_bind]
  simp only
  rw [raiseIf_neg (by simp)]
  rfl

theorem decodeNodes_rewrites {view : Bytes} {n offset last : Nat} {known nodes : List NodeInfo}
    (decoded : decodeNodes view .reject n offset known = .ok (nodes, last))
    (distinct : (known.map NodeInfo.nodeId).Nodup) :
    (nodes.map NodeInfo.nodeId).Nodup ∧ ∃ entries bytes, nodes = known ++ entries ∧
      entries.length = n ∧ (∀ node ∈ entries, node.nodeId ≠ 0 ∧ node.address ≠ []) ∧
      encodeNodes entries = .ok bytes ∧
      Rewrites (nodesMask n (view.drop offset)) (view.drop offset) bytes.length bytes ∧
      last = offset + bytes.length := by
  induction n generalizing offset known with
  | zero =>
      cases decoded
      exact ⟨distinct, [], [], by simp, rfl, by simp, rfl, .nil _, rfl⟩
  | succ n ih =>
      obtain ⟨id, identified, tail⟩ := bind_eq_ok.mp decoded
      obtain ⟨⟨address, consumed⟩, read, tail⟩ := bind_eq_ok.mp tail
      obtain ⟨_, usable, tail⟩ := bind_eq_ok.mp tail
      obtain ⟨_, single, tail⟩ := bind_eq_ok.mp tail
      obtain ⟨rawRole, ranked, tail⟩ := bind_eq_ok.mp tail
      obtain ⟨role, known_, tail⟩ := bind_eq_ok.mp tail
      obtain ⟨node, built, tail⟩ := bind_eq_ok.mp tail
      obtain ⟨positive, addressed⟩ := not_or.mp (raiseIf_eq_ok.mp usable)
      have fresh := raiseIf_eq_ok.mp single
      obtain ⟨room, bound, word⟩ := decodeWord_ok identified
      obtain ⟨room', bound', word'⟩ := decodeWord_ok ranked
      obtain ⟨text, named, second⟩ := decodeText_rewrites read "server address"
      rw [NodeInfo.new_role bound positive addressed] at built
      obtain rfl := Except.ok.inj built
      have code : role.code = rawRole := by
        unfold decodeRole at known_
        split at known_
        · rename_i found
          cases known_
          exact_mod_cast NodeRole.code_of_ofCode found
        · cases known_
      obtain ⟨distinct', entries, bytes, rfl, length, valid, written, later, rfl⟩ := ih tail (by
        rw [List.map_append, List.nodup_append]
        refine ⟨distinct, by simp, ?_⟩
        rintro other member _ inserted rfl
        simp only [List.map_cons, List.map_nil, List.mem_singleton] at inserted
        exact fresh (inserted ▸ member))
      have first : Rewrites (ones 8) (view.drop offset) 8 (toLE 8 id) := .of_eq room word
      rw [← List.drop_drop] at second
      have third : Rewrites (ones 8) ((view.drop offset).drop (8 + consumed)) 8 (toLE 8 rawRole) := by
        rw [List.drop_drop, ← Nat.add_assoc]
        exact .of_eq room' word'
      have entry := (first.append second).append third
      have offset_ : offset + 8 + consumed + 8 = offset + (8 + consumed + 8) := by omega
      rw [offset_, ← List.drop_drop] at later
      have all := entry.append later
      refine ⟨distinct', ⟨id, address, role⟩ :: entries, toLE 8 id ++ text ++ toLE 8 rawRole ++ bytes,
        by simp, by rw [List.length_cons, length], ?_, ?_, ?_, ?_⟩
      · intro node member
        rcases List.mem_cons.mp member with rfl | rest
        · have nonzero : (id : Int) ≠ 0 := by exact_mod_cast positive
          exact ⟨nonzero, addressed⟩
        · exact valid node rest
      · rw [encodeNodes, encodeUint64_nat bound, ok_bind, named, ok_bind, code,
          encodeUint64_nat bound', ok_bind, written]
        rfl
      · have width : (toLE 8 id ++ text ++ toLE 8 rawRole ++ bytes).length =
            8 + consumed + 8 + bytes.length := by
          simp only [List.length_append, second.length_eq, toLE_length]
        have mask : nodesMask (n + 1) (view.drop offset) = ones 8 ++ textMask ((view.drop offset).drop 8) ++
            ones 8 ++ nodesMask n ((view.drop offset).drop (8 + consumed + 8)) := by
          simp only [nodesMask, List.length_append, second.mask_length, ones_length]
        rw [width, mask]
        exact all
      · simp only [List.length_append, second.length_eq, toLE_length]
        omega

theorem decodeBody_rewrites {data : Bytes} {schema : Nat} {m : ServersResponse}
    (decoded : decodeBody data schema .reject = .ok m) :
    decodeUint64 data = .ok m.nodes.length ∧ (m.nodes.map NodeInfo.nodeId).Nodup ∧
      (∀ node ∈ m.nodes, node.nodeId ≠ 0 ∧ node.address ≠ []) ∧
      ∃ bytes, m.encodeBody = .ok bytes ∧ Rewrites (bodyMask data) data data.length bytes := by
  obtain ⟨_, _, tail⟩ := bind_eq_ok.mp decoded
  obtain ⟨count, counted, tail⟩ := bind_eq_ok.mp tail
  obtain ⟨_, capped, tail⟩ := bind_eq_ok.mp tail
  obtain ⟨_, _, tail⟩ := bind_eq_ok.mp tail
  obtain ⟨⟨nodes, offset⟩, read, tail⟩ := bind_eq_ok.mp tail
  obtain ⟨_, finished, last⟩ := bind_eq_ok.mp tail
  cases last
  have few := raiseIf_eq_ok.mp capped
  have finish := not_not.mp (raiseIf_eq_ok.mp finished)
  obtain ⟨room, bound, word⟩ := decodeWord_ok counted
  have number : fromLE (data.take 8) = count := by rw [word, fromLE_toLE 8 count bound]
  obtain ⟨distinct, entries, bytes, same, length, valid, written, later, rfl⟩ :=
    decodeNodes_rewrites read (by simp)
  rw [List.nil_append] at same
  subst same
  have head : Rewrites (ones 8) data 8 (toLE 8 count) := .of_eq room word
  refine ⟨by rw [length, counted], distinct, valid, toLE 8 count ++ bytes, ?_, ?_⟩
  · rw [encodeBody, length, raiseIf_neg few, ok_bind, encodeUint64_nat bound, ok_bind, written]
    rfl
  · have whole := head.append later
    rw [bodyMask, number, ← finish]
    exact whole

end ServersResponse

/-- FILES messages come back in their order. What either decoder accepts has as many entries as the
first word says, without duplicates, and is written back up to the padding of its texts. -/
theorem counted_lists_faithful :
    (∀ (m : FilesResponse) (body : Bytes), m.encodeBody = .ok body →
        FilesResponse.decodeBody body = .ok m) ∧
      (∀ (data : Bytes) (schema : Nat) (m : FilesResponse),
        FilesResponse.decodeBody data schema = .ok m →
          decodeUint64 data = .ok m.files.length ∧ (m.files.map Prod.fst).Nodup ∧
          ∃ bytes, m.encodeBody = .ok bytes ∧ bytes.length = data.length ∧
            (FilesResponse.bodyMask data).length = data.length ∧
            masked (FilesResponse.bodyMask data) bytes = masked (FilesResponse.bodyMask data) data) ∧
      ∀ (data : Bytes) (schema : Nat) (m : ServersResponse),
        ServersResponse.decodeBody data schema .reject = .ok m →
          decodeUint64 data = .ok m.nodes.length ∧ (m.nodes.map NodeInfo.nodeId).Nodup ∧
          (∀ node ∈ m.nodes, node.nodeId ≠ 0 ∧ node.address ≠ []) ∧
          ∃ bytes, m.encodeBody = .ok bytes ∧ bytes.length = data.length ∧
            (ServersResponse.bodyMask data).length = data.length ∧
            masked (ServersResponse.bodyMask data) bytes =
              masked (ServersResponse.bodyMask data) data := by
  refine ⟨fun m body encoded => FilesResponse.decodeBody_encode encoded, fun data schema m decoded => ?_,
    fun data schema m decoded => ?_⟩
  · obtain ⟨count, bytes, encoded, rewrites⟩ := FilesResponse.decodeBody_rewrites decoded
    have agree := rewrites.agree
    rw [List.take_length] at agree
    exact ⟨count, m.distinct, bytes, encoded, rewrites.length_eq, rewrites.mask_length, agree⟩
  · obtain ⟨count, distinct, valid, bytes, encoded, rewrites⟩ :=
      ServersResponse.decodeBody_rewrites decoded
    have agree := rewrites.agree
    rw [List.take_length] at agree
    exact ⟨count, distinct, valid, bytes, encoded, rewrites.length_eq, rewrites.mask_length, agree⟩

theorem counted_lists_faithful_single :
    FilesResponse.decodeBody ([1, 0, 0, 0, 0, 0, 0, 0] ++ [97, 0, 0, 0, 0, 0, 0, 0] ++ zeros 8) =
        .ok ⟨[([⟨97, by decide⟩], [])], by decide⟩ ∧
      decodeUint64 ([1, 0, 0, 0, 0, 0, 0, 0] ++ [97, 0, 7, 0, 0, 0, 0, 0] ++ zeros 8) = .ok 1 ∧
      decodeUint64 ([1, 0, 0, 0, 0, 0, 0, 0] ++ [5, 0, 0, 0, 0, 0, 0, 0] ++ [97, 0, 7, 0, 0, 0, 0, 0] ++
        zeros 8) = .ok 1 :=
  ⟨counted_lists_faithful.1 ⟨[([⟨97, by decide⟩], [])], by decide⟩ _ (by decide),
    (counted_lists_faithful.2.1 _ 0 ⟨[([⟨97, by decide⟩], [])], by decide⟩ (by decide)).1,
    (counted_lists_faithful.2.2 _ 0 ⟨[⟨5, [⟨97, by decide⟩], .voter⟩]⟩ (by decide +kernel)).1⟩

/-- An encoded SERVERS message is accepted exactly when its node ids are distinct. -/
theorem servers_decode_iff (isoError : Str → Option String) (nodes : List NodeInfo)
    (accepted : ∀ node ∈ nodes, ∃ role, NodeInfo.new node.nodeId node.address role = .ok node)
    (f : Bytes) (encoded : encodeMessage isoError (.response (.servers ⟨nodes⟩)) = .ok f) :
    decodeMessage (.default false) f = .ok (.response (.servers ⟨nodes⟩)) ↔
      (nodes.map NodeInfo.nodeId).Nodup := by
  obtain ⟨frame, small⟩ := encodeMessage_ok encoded
  obtain ⟨body, written, decoded⟩ := decodeFrame_encode_response frame
    (show Response.getSchema _ = 0 from rfl) (Nat.zero_le _)
  rw [decodeMessage_eq, decoded (.default false) _ rfl small]
  simp only [Response.type, MessageDecoder.decodeResponseBody]
  have policy : (Config.default false).unknownRolePolicy = .reject := rfl
  rw [policy]
  constructor
  · intro back
    obtain ⟨_, response, same⟩ := MessageDecoder.map_eq_ok.mp back
    cases same
    obtain ⟨_, servers, same⟩ := MessageDecoder.map_eq_ok.mp response
    cases same
    exact (ServersResponse.decodeBody_rewrites servers).2.1
  · intro distinct
    have valid : ∀ node ∈ nodes, node.nodeId ≠ 0 ∧ node.address ≠ [] := by
      intro node member
      obtain ⟨_, built⟩ := accepted node member
      exact (NodeInfo.new_ok built).2.2
    rw [ServersResponse.decodeBody_encode written valid distinct]
    rfl

theorem servers_decode_iff_pair :
    decodeMessage (.default false) ([7, 0, 0, 0, 3, 0, 0, 0] ++ [2, 0, 0, 0, 0, 0, 0, 0] ++
          [1, 0, 0, 0, 0, 0, 0, 0] ++ [97, 0, 0, 0, 0, 0, 0, 0] ++ zeros 8 ++
          [2, 0, 0, 0, 0, 0, 0, 0] ++ [98, 0, 0, 0, 0, 0, 0, 0] ++ [1, 0, 0, 0, 0, 0, 0, 0]) =
        .ok (.response (.servers ⟨[⟨1, [⟨97, by decide⟩], .voter⟩, ⟨2, [⟨98, by decide⟩], .standby⟩]⟩)) ↔
      ([1, 2] : List Int).Nodup :=
  servers_decode_iff (fun _ => none) [⟨1, [⟨97, by decide⟩], .voter⟩, ⟨2, [⟨98, by decide⟩], .standby⟩]
    (by
      intro node member
      refine ⟨.role node.role, ?_⟩
      revert node
      decide +kernel) _ (by decide +kernel)

/-- Two nodes of one id are encoded and then refused. -/
theorem servers_duplicate_refused :
    NodeInfo.new 1 [⟨97, by decide⟩] (.role .voter) = .ok ⟨1, [⟨97, by decide⟩], .voter⟩ ∧
      NodeInfo.new 1 [⟨98, by decide⟩] (.role .voter) = .ok ⟨1, [⟨98, by decide⟩], .voter⟩ ∧
      encodeMessage (fun _ => none) (.response (.servers
          ⟨[⟨1, [⟨97, by decide⟩], .voter⟩, ⟨1, [⟨98, by decide⟩], .voter⟩]⟩)) =
        .ok ([7, 0, 0, 0, 3, 0, 0, 0] ++ [2, 0, 0, 0, 0, 0, 0, 0] ++ [1, 0, 0, 0, 0, 0, 0, 0] ++
          [97, 0, 0, 0, 0, 0, 0, 0] ++ zeros 8 ++ [1, 0, 0, 0, 0, 0, 0, 0] ++
          [98, 0, 0, 0, 0, 0, 0, 0] ++ zeros 8) ∧
      decodeMessage (.default false) ([7, 0, 0, 0, 3, 0, 0, 0] ++ [2, 0, 0, 0, 0, 0, 0, 0] ++
          [1, 0, 0, 0, 0, 0, 0, 0] ++ [97, 0, 0, 0, 0, 0, 0, 0] ++ zeros 8 ++
          [1, 0, 0, 0, 0, 0, 0, 0] ++ [98, 0, 0, 0, 0, 0, 0, 0] ++ zeros 8) =
        .error (.decodeError ["Duplicate node_id ", (1 : Nat), " in ServersResponse"]) := by
  refine ⟨?_, ?_, ?_, ?_⟩ <;> decide +kernel

end DqliteWire
