-- SUMMARY: What encode writes, decode reads back, up to the precision of the wire.
import Dlep.Core.Codec.Decode

/-!
# Round trip

Decoding what `encode` wrote gives the message back in its normal form: a latency
in whole microseconds, a heartbeat interval in whole milliseconds, an attached
subnet by its network address. The proof goes value by value, then TLV by TLV, with
the bytes that follow left open in every statement, and last over the item list.
-/

namespace Dlep

variable {bytes : List UInt8}

/-! ## Normal forms -/

def Duration.truncMicros (d : Duration) : Duration :=
  ⟨d.nanos / 10 ^ 3 * 10 ^ 3, Nat.lt_of_le_of_lt (Nat.div_mul_le_self _ _) d.lt⟩

def Duration.truncMillis (d : Duration) : Duration :=
  ⟨d.nanos / 10 ^ 6 * 10 ^ 6, Nat.lt_of_le_of_lt (Nat.div_mul_le_self _ _) d.lt⟩

/-- What the wire keeps of an item. -/
def DataItem.norm : DataItem → DataItem
  | .heartbeatInterval d => .heartbeatInterval d.truncMillis
  | .latency d => .latency d.truncMicros
  | .ipv4AttachedSubnet add subnet => .ipv4AttachedSubnet add subnet.trunc
  | .ipv6AttachedSubnet add subnet => .ipv6AttachedSubnet add subnet.trunc
  | item => item

def Message.norm (m : Message) : Message := { m with dataItems := m.dataItems.map DataItem.norm }

def Signal.norm (s : Signal) : Signal := { s with dataItems := s.dataItems.map DataItem.norm }

/-- An unknown item has a type id outside the core range 1 to 20. -/
def DataItem.Typed : DataItem → Prop
  | .unknown raw => ¬ (1 ≤ raw.typeId.id ∧ raw.typeId.id ≤ 20)
  | _ => True

/-- A core item: the codec knows its type. -/
def DataItem.isCore : DataItem → Bool
  | .unknown _ => false
  | _ => true

theorem DataItem.typed_of_isCore {item : DataItem} (h : item.isCore = true) : item.Typed := by
  cases item with
  | unknown raw => cases h
  | _ => exact trivial

/-! ## Values -/

@[simp] theorem toNat_bytes_u16 (n : UInt16) : Bytes.toNat (Bytes.ofNat 2 n.toNat) = n.toNat :=
  Bytes.toNat_ofNat n.toNat_lt

@[simp] theorem toNat_bytes_u64 (n : UInt64) : Bytes.toNat (Bytes.ofNat 8 n.toNat) = n.toNat :=
  Bytes.toNat_ofNat (by simpa using n.toNat_lt)

@[simp] theorem toNat_bytes_v4 (a : Ipv4Addr) : Bytes.toNat (Bytes.ofNat 4 a.toNat) = a.toNat :=
  Bytes.toNat_ofNat (by simpa using a.isLt)

@[simp] theorem toNat_bytes_v6 (a : Ipv6Addr) : Bytes.toNat (Bytes.ofNat 16 a.toNat) = a.toNat :=
  Bytes.toNat_ofNat (by simpa using a.isLt)

@[simp] theorem decodeFlag_encodeFlag (b : Bool) : decodeFlag (encodeFlag b) = b := by
  cases b <;> rfl

@[simp] theorem validateFlags_encodeFlag (b : Bool) : validateFlags (encodeFlag b) = .ok () := by
  cases b <;> rfl

@[simp] theorem stringFromUtf8_textBytes (s : String) : stringFromUtf8 (textBytes s) = .ok s := by
  have hbytes : (⟨(textBytes s).toArray⟩ : ByteArray) = s.toByteArray := rfl
  simp only [stringFromUtf8, hbytes, String.fromUTF8?, s.isValidUTF8, dif_pos]
  rfl

theorem ensureLen_of_le {got needed : ℕ} (h : needed ≤ got) : ensureLen got needed = .ok () :=
  if_neg (Nat.not_lt.mpr h)

@[simp] theorem expectExact_self (kind : DataItemType) (n : ℕ) : expectExact kind n n = .ok () := by
  simp [expectExact]

theorem ofMillis_asMillis {d : Duration} (h : d.asMillis ≤ u32Max) :
    Duration.ofMillis (UInt64.ofNat d.asMillis) = d.truncMillis := by
  have hlt : d.asMillis < 2 ^ 64 := Nat.lt_of_le_of_lt h (by decide)
  unfold Duration.ofMillis Duration.truncMillis
  simp only [UInt64.toNat_ofNat', Nat.mod_eq_of_lt hlt]
  rfl

theorem ofMicros_asMicros {d : Duration} (h : d.asMicros ≤ u64Max) :
    Duration.ofMicros (UInt64.ofNat d.asMicros) = d.truncMicros := by
  have hlt : d.asMicros < 2 ^ 64 := Nat.lt_of_le_of_lt h (by decide)
  unfold Duration.ofMicros Duration.truncMicros
  simp only [UInt64.toNat_ofNat', Nat.mod_eq_of_lt hlt]
  rfl

theorem decodeExtensionIds_encoded (ids : List ExtensionId) :
    decodeExtensionIds (ids.flatMap fun id => Bytes.ofNat 2 id.id.toNat) = ids := by
  induction ids with
  | nil => rfl
  | cons id ids ih =>
    have hid := toNat_bytes_u16 id.id
    obtain ⟨hi, lo, heq⟩ : ∃ hi lo, Bytes.ofNat 2 id.id.toNat = [hi, lo] :=
      List.length_eq_two.mp (Bytes.length_ofNat 2 _)
    rw [heq] at hid
    rw [List.flatMap_cons, heq]
    simp only [List.cons_append, List.nil_append, decodeExtensionIds, ih, hid, UInt16.ofNat_toNat]

theorem octetVector_toList {n : ℕ} (octets : Vector UInt8 n) :
    octetVector n octets.toList = octets := by
  apply Vector.ext
  intro i hi
  simp [octetVector]

theorem IpNet.new_of_prefixLen {w : ℕ} (hw : w < 256) (addr : BitVec w) (n : IpNet w) :
    IpNet.new w addr (UInt8.ofNat n.prefixLen) = some ⟨addr, n.prefixLen⟩ := by
  have hp := n.prefixLen.isLt
  have hval : (UInt8.ofNat n.prefixLen).toNat = n.prefixLen.val := by
    rw [UInt8.toNat_ofNat']
    omega
  unfold IpNet.new
  rw [dif_pos (hval.trans_lt hp)]
  simp only [hval]

/-! ## Items -/

namespace DataItem

theorem Typed.ne {raw : RawDataItem} (h : (DataItem.unknown raw).Typed) {t : DataItemType}
    (ht : 1 ≤ t.id ∧ t.id ≤ 20) : raw.typeId ≠ t := by
  rintro rfl
  exact h ht

theorem decodeU64_encoded (kind : DataItemType) (n : UInt64) (mk : UInt64 → DataItem) :
    decodeU64 kind (Bytes.ofNat 8 n.toNat) mk = .ok (mk n) := by
  simp [decodeU64, bind, Except.bind]

theorem decodePercent_encoded {pct : UInt8} (h : pct ≤ 100) (kind : DataItemType) (field : String) :
    decodePercent kind [pct] field = .ok pct := by
  have hle : ¬ 100 < pct := UInt8.not_lt.mpr h
  simp [decodePercent, checkPercent, hle, bind, Except.bind]

theorem decodeIpv4Net_encoded (add : Bool) (n : Ipv4Net) (flag : UInt8) :
    decodeIpv4Net add (flag :: (Bytes.ofNat 4 n.network.toNat ++ [UInt8.ofNat n.prefixLen])) =
      .ok (.ipv4AttachedSubnet add n.trunc) := by
  have hnet : (⟨n.network, n.prefixLen⟩ : Ipv4Net) = n.trunc := rfl
  simp [decodeIpv4Net, IpNet.new_of_prefixLen, hnet]

theorem decodeIpv6Net_encoded (add : Bool) (n : Ipv6Net) (flag : UInt8) :
    decodeIpv6Net add (flag :: (Bytes.ofNat 16 n.network.toNat ++ [UInt8.ofNat n.prefixLen])) =
      .ok (.ipv6AttachedSubnet add n.trunc) := by
  have hnet : (⟨n.network, n.prefixLen⟩ : Ipv6Net) = n.trunc := rfl
  simp [decodeIpv6Net, IpNet.new_of_prefixLen, hnet]

/-- A value that `encode` wrote is read back as the item's normal form. -/
theorem decode_valueBytes {item : DataItem} (hrange : item.InRange) (htyped : item.Typed) :
    decode ⟨item.typeId, item.valueBytes⟩ = .ok item.norm := by
  cases item <;> unfold decode <;> dsimp only [typeId, valueBytes, norm]
  case unknown raw =>
    repeat (refine (if_neg (htyped.ne (by decide))).trans ?_)
    rfl
  -- Walk down the type ids to the item's own.
  all_goals repeat (refine (if_neg (by decide)).trans ?_)
  all_goals refine (if_pos rfl).trans ?_
  case status | peerType => simp [encodePeerFlags, bind, Except.bind]
  case ipv4ConnectionPoint flags addr port | ipv6ConnectionPoint flags addr port =>
    cases port <;> simp [encodeCpFlags, portBytes, bind, Except.bind]
  case heartbeatInterval d =>
    have hms : Bytes.toNat (Bytes.ofNat 4 d.asMillis) = d.asMillis :=
      Bytes.toNat_ofNat (Nat.lt_of_le_of_lt hrange.2 (by decide))
    have hmin : ¬ d.asMillis < MIN_HEARTBEAT_INTERVAL_MS.toNat := Nat.not_lt.mpr hrange.1
    simp [hms, hmin, ofMillis_asMillis hrange.2, bind, Except.bind]
  case extensionsSupported ids =>
    simp [decodeExtensionIds_encoded]
  case macAddress mac =>
    cases mac <;> simp [MacAddress.asBytes, octetVector_toList]
  case ipv4Address add addr | ipv6Address add addr => simp [bind, Except.bind]
  case ipv4AttachedSubnet add subnet =>
    simp [decodeIpv4Net_encoded, bind, Except.bind]
  case ipv6AttachedSubnet add subnet =>
    simp [decodeIpv6Net_encoded, bind, Except.bind]
  case latency d =>
    have hus : (UInt64.ofNat d.asMicros).toNat = d.asMicros := by
      rw [UInt64.toNat_ofNat']
      exact Nat.mod_eq_of_lt (Nat.lt_of_le_of_lt hrange (by decide))
    have hdecoded := decodeU64_encoded .latency (UInt64.ofNat d.asMicros)
      fun us => .latency (.ofMicros us)
    rwa [hus, ofMicros_asMicros hrange] at hdecoded
  case resources pct | relativeLinkQualityReceive pct | relativeLinkQualityTransmit pct =>
    rw [decodePercent_encoded hrange]
    rfl
  case mtu => simp [bind, Except.bind]
  all_goals exact decodeU64_encoded _ _ _

end DataItem

/-! ## The item loop -/

theorem toNat_length {v : List UInt8} (h : v.length ≤ u16Max) :
    Bytes.toNat (Bytes.ofNat 2 v.length) = v.length :=
  Bytes.toNat_ofNat (Nat.lt_succ_of_le h)

theorem drop_header (n m : ℕ) (rest : List UInt8) :
    (Bytes.ofNat 2 n ++ (Bytes.ofNat 2 m ++ rest)).drop 4 = rest := by
  rw [show 4 = 2 + 2 from rfl, ← List.drop_drop, Bytes.drop_ofNat_append, Bytes.drop_ofNat_append]

/-- A TLV is split off whatever follows it. -/
theorem RawDataItem.decode_written (t : DataItemType) {v : List UInt8} (h : v.length ≤ u16Max)
    (rest : List UInt8) :
    RawDataItem.decode (Bytes.ofNat 2 t.id.toNat ++ Bytes.ofNat 2 v.length ++ v ++ rest) =
      .ok (⟨t, v⟩, rest) := by
  simp only [List.append_assoc, RawDataItem.decode, Bytes.take_ofNat_append,
    Bytes.drop_ofNat_append, toNat_length h, drop_header, toNat_bytes_u16, UInt16.ofNat_toNat]
  rw [ensureLen_of_le (by simp; omega), ensureLen_of_le (by simp)]
  simp [bind, Except.bind]

/-- One turn of the decoding loop. -/
theorem decodeItems_of_raw {body rest : List UInt8} {raw : RawDataItem}
    (h : RawDataItem.decode body = .ok (raw, rest)) :
    decodeItems body = (do
      let item ← DataItem.decode raw
      let items ← decodeItems rest
      .ok (item :: items)) := by
  have hbody : body.isEmpty = false := by
    cases body with
    | nil => cases h
    | cons => rfl
  rw [decodeItems]
  simp only [hbody, Bool.false_eq_true, if_false]
  split
  · rename_i hraw
    cases h.symm.trans hraw
  · rename_i hraw
    cases h.symm.trans hraw
    cases DataItem.decode raw with
    | error e => rfl
    | ok item =>
      cases decodeItems rest with
      | error e => rfl
      | ok items => rfl

theorem decodeItems_encoded {items : List DataItem} (henc : ∀ i ∈ items, i.Encodable)
    (htyped : ∀ i ∈ items, i.Typed) :
    decodeItems (items.flatMap DataItem.tlv) = .ok (items.map DataItem.norm) := by
  induction items with
  | nil =>
    unfold decodeItems
    rfl
  | cons item items ih =>
    obtain ⟨hrange, hlen⟩ := henc item List.mem_cons_self
    rw [List.flatMap_cons, DataItem.tlv,
      decodeItems_of_raw (RawDataItem.decode_written item.typeId hlen _),
      DataItem.decode_valueBytes hrange (htyped item List.mem_cons_self),
      ih (fun i hi => henc i (List.mem_cons_of_mem _ hi))
        fun i hi => htyped i (List.mem_cons_of_mem _ hi)]
    rfl

/-! ## Messages and signals -/

/-- The body that both write, with its length. -/
theorem encodeBody_ok {items : List DataItem} {body : List UInt8} {len : UInt16} {field : String}
    (hbody : encodeItems items [] = .ok body) (hlen : u16Length field body.length = .ok len) :
    (∀ i ∈ items, i.Encodable) ∧ itemsLen items ≤ u16Max ∧ len.toNat = itemsLen items ∧
      body = items.flatMap DataItem.tlv := by
  obtain ⟨hencodable, rfl⟩ := encodeItems_ok hbody
  obtain ⟨hfits, rfl⟩ := u16Length_ok hlen
  rw [length_flatMap_tlv] at hfits ⊢
  exact ⟨hencodable, hfits, toNat_ofNat_u16 hfits, rfl⟩

/-- The bytes of a message that encodes: the header, then the TLVs. -/
theorem Message.encode_eq {m : Message} (h : m.encode = .ok bytes) :
    (∀ i ∈ m.dataItems, i.Encodable) ∧ itemsLen m.dataItems ≤ u16Max ∧
      bytes = Bytes.ofNat 2 m.messageType.id.toNat ++ (Bytes.ofNat 2 (itemsLen m.dataItems) ++
        m.dataItems.flatMap DataItem.tlv) := by
  obtain ⟨body, hbody, h⟩ := bind_eq_ok.mp h
  obtain ⟨len, hlen, h⟩ := bind_eq_ok.mp h
  obtain ⟨hencodable, hfits, hsize, rfl⟩ := encodeBody_ok hbody hlen
  cases h
  exact ⟨hencodable, hfits, by rw [hsize, List.append_assoc]⟩

theorem Signal.encode_eq {s : Signal} (h : s.encode = .ok bytes) :
    (∀ i ∈ s.dataItems, i.Encodable) ∧ itemsLen s.dataItems ≤ u16Max ∧
      bytes = SIGNAL_PREFIX ++ (Bytes.ofNat 2 s.signalType.id.toNat ++
        (Bytes.ofNat 2 (itemsLen s.dataItems) ++ s.dataItems.flatMap DataItem.tlv)) := by
  obtain ⟨body, hbody, h⟩ := bind_eq_ok.mp h
  obtain ⟨len, hlen, h⟩ := bind_eq_ok.mp h
  obtain ⟨hencodable, hfits, hsize, rfl⟩ := encodeBody_ok hbody hlen
  cases h
  exact ⟨hencodable, hfits, by simp only [hsize, List.append_assoc]⟩

/-- The header of a message says where its body ends. -/
theorem Message.decode_written (t : MessageType) {body : List UInt8} (h : body.length ≤ u16Max)
    (rest : List UInt8) :
    Message.decode (Bytes.ofNat 2 t.id.toNat ++ (Bytes.ofNat 2 body.length ++ (body ++ rest))) =
      (decodeItems body).map fun items => ⟨t, items⟩ := by
  simp only [Message.decode, Bytes.take_ofNat_append, Bytes.drop_ofNat_append, toNat_length h,
    drop_header, toNat_bytes_u16, UInt16.ofNat_toNat]
  rw [ensureLen_of_le (by simp; omega), if_neg (by simp), List.take_left]
  cases decodeItems body <;> rfl

/-- A signal is the whole datagram. -/
theorem Signal.decode_written (t : SignalType) {body : List UInt8} (h : body.length ≤ u16Max) :
    Signal.decode (SIGNAL_PREFIX ++ (Bytes.ofNat 2 t.id.toNat ++
      (Bytes.ofNat 2 body.length ++ body))) = (decodeItems body).map fun items => ⟨t, items⟩ := by
  have hprefix : ∀ rest, (SIGNAL_PREFIX ++ rest).take 4 = SIGNAL_PREFIX := fun rest => rfl
  have hdrop : ∀ n rest, (SIGNAL_PREFIX ++ rest).drop (4 + n) = rest.drop n := fun n rest => by
    rw [← List.drop_drop]
    rfl
  simp only [Signal.decode, hprefix, hdrop 0, hdrop 2, hdrop 4, List.drop_zero, drop_header,
    Bytes.drop_ofNat_append, Bytes.take_ofNat_append, toNat_length h, toNat_bytes_u16,
    UInt16.ofNat_toNat]
  rw [ensureLen_of_le (by simp [SIGNAL_PREFIX]; omega), if_neg (by simp), if_neg (by simp)]
  cases decodeItems body <;> rfl

theorem Message.decode_encode {m : Message} (htyped : ∀ i ∈ m.dataItems, i.Typed)
    (h : m.encode = .ok bytes) : Message.decode bytes = .ok m.norm := by
  obtain ⟨hencodable, hfits, rfl⟩ := Message.encode_eq h
  rw [← length_flatMap_tlv] at hfits ⊢
  have hdecode := Message.decode_written m.messageType hfits []
  rw [List.append_nil] at hdecode
  rw [hdecode, decodeItems_encoded hencodable htyped]
  rfl

theorem Signal.decode_encode {s : Signal} (htyped : ∀ i ∈ s.dataItems, i.Typed)
    (h : s.encode = .ok bytes) : Signal.decode bytes = .ok s.norm := by
  obtain ⟨hencodable, hfits, rfl⟩ := Signal.encode_eq h
  rw [← length_flatMap_tlv] at hfits ⊢
  rw [Signal.decode_written s.signalType hfits, decodeItems_encoded hencodable htyped]
  rfl

/-- Decoding what `encode` wrote gives the normal form back, for messages and signals. -/
theorem codec_round_trip :
    (∀ (m : Message) (bytes : List UInt8), (∀ i ∈ m.dataItems, i.Typed) → m.encode = .ok bytes →
      Message.decode bytes = .ok m.norm) ∧
    (∀ (s : Signal) (bytes : List UInt8), (∀ i ∈ s.dataItems, i.Typed) → s.encode = .ok bytes →
      Signal.decode bytes = .ok s.norm) := by
  constructor
  · intro m bytes htyped hencode
    exact Message.decode_encode htyped hencode
  · intro s bytes htyped hencode
    exact Signal.decode_encode htyped hencode

/-- A latency of 1.5 µs and the subnet 10.0.0.5/24 come back as 1 µs and 10.0.0.0/24. -/
theorem codec_round_trip_update :
    Message.decode [0, 3, 0, 22, 0, 16, 0, 8, 0, 0, 0, 0, 0, 0, 0, 1, 0, 10, 0, 6, 1, 10, 0, 0, 0, 24] =
      .ok ⟨.sessionUpdate, [.latency ⟨1000, by decide⟩, .ipv4AttachedSubnet true ⟨0x0A000000, 24⟩]⟩ :=
  codec_round_trip.1
    ⟨.sessionUpdate, [.latency ⟨1500, by decide⟩, .ipv4AttachedSubnet true ⟨0x0A000005, 24⟩]⟩ _
    (by simp [DataItem.Typed]) rfl

end Dlep
