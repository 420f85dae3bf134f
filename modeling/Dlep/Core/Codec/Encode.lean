-- SUMMARY: Encoding of data items, messages and signals, and exactly when it succeeds.
import Mathlib.Algebra.GroupWithZero.Nat
import Dlep.Core.Types
import Dlep.Lib.Bytes

/-!
# Encoding

`DataItem::encode` writes a TLV onto a caller's buffer and restores the buffer
when the value cannot be put on the wire; `Message::encode` and `Signal::encode`
prepend the header to the concatenated TLVs. The buffer is passed explicitly: an
encoder returns its result together with the buffer it leaves behind.

The specification below reads an encoder through two pure functions, the value
bytes an item contributes and the check its value must pass.
-/

namespace Dlep

variable {items : List DataItem}

/-! ## Errors -/

/-- The lengths a data item may take on the wire. -/
inductive ExpectedLen where
  | exact (n : ℕ)
  | atLeast (n : ℕ)
  | oneOf (ns : List ℕ)
  | multiple (n : ℕ)
  deriving DecidableEq, Repr

/-- The codec errors the core encoder and decoder raise. -/
inductive CodecError where
  | truncated (needed got : ℕ)
  | missingSignalPrefix
  | lengthMismatch (declared remaining : ℕ)
  | invalidDataItemLength (kind : DataItemType) (expected : ExpectedLen) (got : ℕ)
  | invalidUtf8 (bytes : List UInt8)
  | outOfRange (field : String) (value : ℕ)
  deriving DecidableEq, Repr

/-! ## Field labels and bounds -/

namespace Field

def dataItemFlags : String := "data_item_flags"
def heartbeatIntervalMs : String := "heartbeat_interval_ms"
def latencyUs : String := "latency_us"
def resources : String := "resources"
def rlqReceive : String := "relative_link_quality_receive"
def rlqTransmit : String := "relative_link_quality_transmit"
def ipv4AttachedSubnetPrefix : String := "ipv4_attached_subnet_prefix"
def ipv6AttachedSubnetPrefix : String := "ipv6_attached_subnet_prefix"
def dataItemValueLength : String := "data_item_value_length"
def signalBodyLength : String := "signal_body_length"
def messageBodyLength : String := "message_body_length"

end Field

def u64Max : ℕ := 2 ^ 64 - 1
def u32Max : ℕ := 2 ^ 32 - 1
def u16Max : ℕ := 2 ^ 16 - 1

/-- The 16-bit length field for `len` bytes. -/
def u16Length (field : String) (len : ℕ) : Except CodecError UInt16 :=
  if len ≤ u16Max then .ok (UInt16.ofNat len) else .error (.outOfRange field len)

theorem u16Length_of_le {field : String} {n : ℕ} (h : n ≤ u16Max) :
    u16Length field n = .ok (UInt16.ofNat n) := by
  simp [u16Length, h]

theorem u16Length_of_lt {field : String} {n : ℕ} (h : u16Max < n) :
    u16Length field n = .error (.outOfRange field n) := by
  simp [u16Length, Nat.not_le.mpr h]

theorem u16Length_ok {field : String} {n : ℕ} {len : UInt16} (h : u16Length field n = .ok len) :
    n ≤ u16Max ∧ len = UInt16.ofNat n := by
  unfold u16Length at h
  split at h
  · cases h
    exact ⟨‹_›, rfl⟩
  · cases h

theorem toNat_ofNat_u16 {n : ℕ} (h : n ≤ u16Max) : (UInt16.ofNat n).toNat = n := by
  simp only [UInt16.toNat_ofNat']
  exact Nat.mod_eq_of_lt (Nat.lt_succ_of_le h)

def checkPercent (field : String) (pct : UInt8) : Except CodecError Unit :=
  if 100 < pct then .error (.outOfRange field pct.toNat) else .ok ()

/-! ## Value bytes -/

def encodeFlag (b : Bool) : UInt8 := if b then 1 else 0

def encodeCpFlags (flags : ConnectionPointFlags) : UInt8 := encodeFlag flags.useTls

def encodePeerFlags (flags : PeerFlags) : UInt8 := encodeFlag flags.smi

def textBytes (s : String) : List UInt8 := s.toUTF8.data.toList

@[simp] theorem length_textBytes (s : String) : (textBytes s).length = s.utf8ByteSize := by
  simp [textBytes]

def portBytes : Option UInt16 → List UInt8
  | none => []
  | some p => Bytes.ofNat 2 p.toNat

/-- An encoder's result, with the buffer it leaves behind. -/
abbrev Written : Type := Except CodecError Unit × List UInt8

/-- `RawDataItem::encode`. The length is checked before anything is written. -/
def RawDataItem.encode (raw : RawDataItem) (out : List UInt8) : Written :=
  match u16Length Field.dataItemValueLength raw.value.length with
  | .error e => (.error e, out)
  | .ok len =>
    (.ok (), out ++ Bytes.ofNat 2 raw.typeId.id.toNat ++ Bytes.ofNat 2 len.toNat ++ raw.value)

namespace DataItem

/-- The wire length of the variants dominated by caller-controlled data. -/
def projectedValueLen : DataItem → Option ℕ
  | .status _ text => some (1 + text.utf8ByteSize)
  | .peerType _ description => some (1 + description.utf8ByteSize)
  | .extensionsSupported ids => some (ids.length * 2)
  | _ => none

private def putPercent (field : String) (pct : UInt8) (out : List UInt8) : Written :=
  match checkPercent field pct with
  | .error e => (.error e, out)
  | .ok () => (.ok (), out ++ [pct])

/-- The value-writing match of `DataItem::encode_into`. -/
def encodeValue : DataItem → List UInt8 → Written
  | .status code text, out => (.ok (), out ++ [code.code] ++ textBytes text)
  | .ipv4ConnectionPoint flags addr port, out =>
    (.ok (), out ++ [encodeCpFlags flags] ++ Bytes.ofNat 4 addr.toNat ++ portBytes port)
  | .ipv6ConnectionPoint flags addr port, out =>
    (.ok (), out ++ [encodeCpFlags flags] ++ Bytes.ofNat 16 addr.toNat ++ portBytes port)
  | .peerType flags description, out =>
    (.ok (), out ++ [encodePeerFlags flags] ++ textBytes description)
  | .heartbeatInterval d, out =>
    let ms := d.asMillis
    if ms < MIN_HEARTBEAT_INTERVAL_MS.toNat then
      (.error (.outOfRange Field.heartbeatIntervalMs (min ms u64Max)), out)
    else if u32Max < ms then
      (.error (.outOfRange Field.heartbeatIntervalMs (min ms u64Max)), out)
    else (.ok (), out ++ Bytes.ofNat 4 ms)
  | .extensionsSupported ids, out =>
    (.ok (), out ++ ids.flatMap fun id => Bytes.ofNat 2 id.id.toNat)
  | .macAddress mac, out => (.ok (), out ++ mac.asBytes)
  | .ipv4Address add addr, out => (.ok (), out ++ [encodeFlag add] ++ Bytes.ofNat 4 addr.toNat)
  | .ipv6Address add addr, out => (.ok (), out ++ [encodeFlag add] ++ Bytes.ofNat 16 addr.toNat)
  | .ipv4AttachedSubnet add subnet, out =>
    (.ok (), out ++ [encodeFlag add] ++ Bytes.ofNat 4 subnet.network.toNat ++
      [UInt8.ofNat subnet.prefixLen])
  | .ipv6AttachedSubnet add subnet, out =>
    (.ok (), out ++ [encodeFlag add] ++ Bytes.ofNat 16 subnet.network.toNat ++
      [UInt8.ofNat subnet.prefixLen])
  | .maxDataRateReceive bps, out => (.ok (), out ++ Bytes.ofNat 8 bps.toNat)
  | .maxDataRateTransmit bps, out => (.ok (), out ++ Bytes.ofNat 8 bps.toNat)
  | .currentDataRateReceive bps, out => (.ok (), out ++ Bytes.ofNat 8 bps.toNat)
  | .currentDataRateTransmit bps, out => (.ok (), out ++ Bytes.ofNat 8 bps.toNat)
  | .latency d, out =>
    let us := d.asMicros
    if u64Max < us then (.error (.outOfRange Field.latencyUs u64Max), out)
    else (.ok (), out ++ Bytes.ofNat 8 us)
  | .resources pct, out => putPercent Field.resources pct out
  | .relativeLinkQualityReceive pct, out => putPercent Field.rlqReceive pct out
  | .relativeLinkQualityTransmit pct, out => putPercent Field.rlqTransmit pct out
  | .mtu value, out => (.ok (), out ++ Bytes.ofNat 2 value.toNat)
  -- `encode_into` returns before this match for an unknown item.
  | .unknown raw, out => (.ok (), out ++ raw.value)

/-- `DataItem::encode_into`: header with a length placeholder, value, then the
patched length. -/
def encodeInto (item : DataItem) (out : List UInt8) : Written :=
  match item with
  | .unknown raw => raw.encode out
  | item =>
    match item.projectedValueLen.mapM (u16Length Field.dataItemValueLength) with
    | .error e => (.error e, out)
    | .ok _ =>
      let out := out ++ Bytes.ofNat 2 item.typeId.id.toNat
      let lenPos := out.length
      let out := out ++ Bytes.ofNat 2 0
      let valueStart := out.length
      match item.encodeValue out with
      | (.error e, out) => (.error e, out)
      | (.ok (), out) =>
        let valueLen := out.length - valueStart
        match u16Length Field.dataItemValueLength valueLen with
        | .error e => (.error e, out)
        | .ok len => (.ok (), Bytes.patch out lenPos (Bytes.ofNat 2 len.toNat))

/-- `DataItem::encode`: on error the buffer is restored to its starting length. -/
def encode (item : DataItem) (out : List UInt8) : Written :=
  match item.encodeInto out with
  | (.ok (), out') => (.ok (), out')
  | (.error e, out') => (.error e, out'.take out.length)

end DataItem

/-! ## What an item contributes -/

namespace DataItem

/-- The value bytes an encodable item puts on the wire. -/
def valueBytes : DataItem → List UInt8
  | .status code text => code.code :: textBytes text
  | .ipv4ConnectionPoint flags addr port =>
    encodeCpFlags flags :: (Bytes.ofNat 4 addr.toNat ++ portBytes port)
  | .ipv6ConnectionPoint flags addr port =>
    encodeCpFlags flags :: (Bytes.ofNat 16 addr.toNat ++ portBytes port)
  | .peerType flags description => encodePeerFlags flags :: textBytes description
  | .heartbeatInterval d => Bytes.ofNat 4 d.asMillis
  | .extensionsSupported ids => ids.flatMap fun id => Bytes.ofNat 2 id.id.toNat
  | .macAddress mac => mac.asBytes
  | .ipv4Address add addr => encodeFlag add :: Bytes.ofNat 4 addr.toNat
  | .ipv6Address add addr => encodeFlag add :: Bytes.ofNat 16 addr.toNat
  | .ipv4AttachedSubnet add subnet =>
    encodeFlag add :: (Bytes.ofNat 4 subnet.network.toNat ++ [UInt8.ofNat subnet.prefixLen])
  | .ipv6AttachedSubnet add subnet =>
    encodeFlag add :: (Bytes.ofNat 16 subnet.network.toNat ++ [UInt8.ofNat subnet.prefixLen])
  | .maxDataRateReceive bps => Bytes.ofNat 8 bps.toNat
  | .maxDataRateTransmit bps => Bytes.ofNat 8 bps.toNat
  | .currentDataRateReceive bps => Bytes.ofNat 8 bps.toNat
  | .currentDataRateTransmit bps => Bytes.ofNat 8 bps.toNat
  | .latency d => Bytes.ofNat 8 d.asMicros
  | .resources pct => [pct]
  | .relativeLinkQualityReceive pct => [pct]
  | .relativeLinkQualityTransmit pct => [pct]
  | .mtu value => Bytes.ofNat 2 value.toNat
  | .unknown raw => raw.value

/-- The range rules on an item's value. -/
def InRange : DataItem → Prop
  | .heartbeatInterval d => MIN_HEARTBEAT_INTERVAL_MS.toNat ≤ d.asMillis ∧ d.asMillis ≤ u32Max
  | .latency d => d.asMicros ≤ u64Max
  | .resources pct => pct ≤ 100
  | .relativeLinkQualityReceive pct => pct ≤ 100
  | .relativeLinkQualityTransmit pct => pct ≤ 100
  | _ => True

instance decidableInRange : DecidablePred InRange := fun item =>
  match item with
  | .heartbeatInterval d => inferInstanceAs
      (Decidable (MIN_HEARTBEAT_INTERVAL_MS.toNat ≤ d.asMillis ∧ d.asMillis ≤ u32Max))
  | .latency d => inferInstanceAs (Decidable (d.asMicros ≤ u64Max))
  | .resources pct => inferInstanceAs (Decidable (pct ≤ 100))
  | .relativeLinkQualityReceive pct => inferInstanceAs (Decidable (pct ≤ 100))
  | .relativeLinkQualityTransmit pct => inferInstanceAs (Decidable (pct ≤ 100))
  | .status .. | .ipv4ConnectionPoint .. | .ipv6ConnectionPoint .. | .peerType ..
  | .extensionsSupported _ | .macAddress _ | .ipv4Address .. | .ipv6Address ..
  | .ipv4AttachedSubnet .. | .ipv6AttachedSubnet .. | .maxDataRateReceive _
  | .maxDataRateTransmit _ | .currentDataRateReceive _ | .currentDataRateTransmit _
  | .mtu _ | .unknown _ => inferInstanceAs (Decidable True)

/-- An item can be put on the wire: its value is in range and fits a 16-bit length. -/
def Encodable (item : DataItem) : Prop :=
  item.InRange ∧ item.valueBytes.length ≤ u16Max

instance decidableEncodable : DecidablePred Encodable := fun item =>
  inferInstanceAs (Decidable (item.InRange ∧ item.valueBytes.length ≤ u16Max))

/-- The TLV of an encodable item. -/
def tlv (item : DataItem) : List UInt8 :=
  Bytes.ofNat 2 item.typeId.id.toNat ++ Bytes.ofNat 2 item.valueBytes.length ++ item.valueBytes

/-- Header and value bytes of one item. -/
def wireLen (item : DataItem) : ℕ := 4 + item.valueBytes.length

@[simp] theorem length_tlv (item : DataItem) : item.tlv.length = item.wireLen := by
  simp [tlv, wireLen]; omega

theorem putPercent_eq (field : String) (pct : UInt8) (out : List UInt8) :
    (pct ≤ 100 → putPercent field pct out = (.ok (), out ++ [pct])) ∧
    (¬ pct ≤ 100 → ∃ e, putPercent field pct out = (.error e, out)) := by
  constructor
  · intro h
    have h' : ¬ 100 < pct := UInt8.not_lt.mpr h
    simp [putPercent, checkPercent, h']
  · intro h
    have h' : 100 < pct := UInt8.not_le.mp h
    simp [putPercent, checkPercent, h']

theorem encodeValue_eq (item : DataItem) (out : List UInt8) :
    (item.InRange → item.encodeValue out = (.ok (), out ++ item.valueBytes)) ∧
    (¬ item.InRange → ∃ e, item.encodeValue out = (.error e, out)) := by
  cases item with
  | heartbeatInterval d =>
    constructor
    · intro h
      have h₁ : ¬ d.asMillis < MIN_HEARTBEAT_INTERVAL_MS.toNat := by have := h.1; omega
      have h₂ : ¬ u32Max < d.asMillis := by have := h.2; omega
      simp [encodeValue, valueBytes, h₁, h₂]
    · intro h
      by_cases h₁ : d.asMillis < MIN_HEARTBEAT_INTERVAL_MS.toNat
      · simp [encodeValue, h₁]
      · have h₂ : u32Max < d.asMillis := by
          by_contra hle
          exact h ⟨by omega, by omega⟩
        simp [encodeValue, h₁, h₂]
  | latency d =>
    constructor
    · intro h
      have h' : ¬ u64Max < d.asMicros := Nat.not_lt.mpr h
      simp [encodeValue, valueBytes, h']
    · intro h
      have h' : u64Max < d.asMicros := Nat.lt_of_not_le h
      simp [encodeValue, h']
  | resources pct => exact putPercent_eq _ pct out
  | relativeLinkQualityReceive pct => exact putPercent_eq _ pct out
  | relativeLinkQualityTransmit pct => exact putPercent_eq _ pct out
  | _ => exact ⟨fun _ => by simp [encodeValue, valueBytes], fun h => absurd trivial h⟩

/-- The projected length of an item is the length of its value. -/
private theorem projectedValueLen_eq {item : DataItem} {n : ℕ}
    (h : item.projectedValueLen = some n) : item.valueBytes.length = n := by
  cases item <;> simp_all [projectedValueLen, valueBytes] <;> omega

private theorem projected_ok {item : DataItem} (h : item.valueBytes.length ≤ u16Max) :
    ∃ r, item.projectedValueLen.mapM (u16Length Field.dataItemValueLength) = Except.ok r := by
  cases hp : item.projectedValueLen with
  | none => exact ⟨none, rfl⟩
  | some n =>
    have hn : n ≤ u16Max := projectedValueLen_eq hp ▸ h
    exact ⟨some (UInt16.ofNat n), by simp [u16Length_of_le hn, Functor.map, Except.map]⟩

private theorem length_append_sub (xs ys : List UInt8) : (xs ++ ys).length - xs.length = ys.length := by
  simp

/-- The length placeholder of a freshly written TLV is patched in place. -/
private theorem patch_placeholder (out ty value : List UInt8) (n : ℕ) :
    Bytes.patch (out ++ ty ++ Bytes.ofNat 2 0 ++ value) (out ++ ty).length (Bytes.ofNat 2 n) =
      out ++ (ty ++ Bytes.ofNat 2 n ++ value) := by
  rw [Bytes.patch_append (out ++ ty) (Bytes.ofNat 2 0) value _ (by simp)]
  simp [List.append_assoc]

/-- An encodable item is appended in full, and nothing before it changes. -/
theorem encode_of_encodable {item : DataItem} (h : item.Encodable) (out : List UInt8) :
    item.encode out = (.ok (), out ++ item.tlv) := by
  obtain ⟨hrange, hlen⟩ := h
  have hinto : item.encodeInto out = (.ok (), out ++ item.tlv) := by
    unfold encodeInto
    split
    · next raw =>
      have hraw : raw.value.length ≤ u16Max := hlen
      simp [RawDataItem.encode, u16Length_of_le hraw, toNat_ofNat_u16 hraw, tlv, valueBytes,
        typeId]
    · obtain ⟨r, hr⟩ := projected_ok hlen
      have hvalue := (encodeValue_eq item
        (out ++ Bytes.ofNat 2 item.typeId.id.toNat ++ Bytes.ofNat 2 0)).1 hrange
      simp only [hr, hvalue, length_append_sub,
        u16Length_of_le hlen, toNat_ofNat_u16 hlen, patch_placeholder, tlv]
  simp [encode, hinto]

/-- An item that is not encodable leaves the buffer as it was. -/
theorem encode_of_not_encodable {item : DataItem} (h : ¬ item.Encodable) (out : List UInt8) :
    ∃ e, item.encode out = (.error e, out) := by
  have hinto : ∃ e rest, item.encodeInto out = (.error e, out ++ rest) := by
    unfold encodeInto
    split
    · next raw =>
      have hraw : u16Max < raw.value.length :=
        Nat.lt_of_not_le fun hle => h ⟨trivial, hle⟩
      exact ⟨.outOfRange Field.dataItemValueLength raw.value.length, [], by
        simp [RawDataItem.encode, u16Length_of_lt hraw]⟩
    · cases hp : item.projectedValueLen.mapM (u16Length Field.dataItemValueLength) with
      | error e => exact ⟨e, [], by simp⟩
      | ok r =>
        have hvalue := encodeValue_eq item
          (out ++ Bytes.ofNat 2 item.typeId.id.toNat ++ Bytes.ofNat 2 0)
        by_cases hrange : item.InRange
        · have hlong : u16Max < item.valueBytes.length :=
            Nat.lt_of_not_le fun hle => h ⟨hrange, hle⟩
          refine ⟨.outOfRange Field.dataItemValueLength item.valueBytes.length,
            Bytes.ofNat 2 item.typeId.id.toNat ++ Bytes.ofNat 2 0 ++ item.valueBytes, ?_⟩
          simp only [hvalue.1 hrange, length_append_sub,
            u16Length_of_lt hlong]
          simp only [List.append_assoc]
        · obtain ⟨e, he⟩ := hvalue.2 hrange
          refine ⟨e, Bytes.ofNat 2 item.typeId.id.toNat ++ Bytes.ofNat 2 0, ?_⟩
          simp only [he]
          simp only [List.append_assoc]
  obtain ⟨e, rest, he⟩ := hinto
  exact ⟨e, by simp [encode, he]⟩

/-- A value that the wire format cannot express. -/
def OutOfRange : DataItem → Prop
  | .heartbeatInterval d => d.asMillis < 1000 ∨ u32Max < d.asMillis
  | .latency d => u64Max < d.asMicros
  | .resources pct => 100 < pct
  | .relativeLinkQualityReceive pct => 100 < pct
  | .relativeLinkQualityTransmit pct => 100 < pct
  | _ => False

theorem not_inRange_iff (item : DataItem) : ¬ item.InRange ↔ item.OutOfRange := by
  cases item with
  | heartbeatInterval d =>
    have hmin : MIN_HEARTBEAT_INTERVAL_MS.toNat = 1000 := rfl
    simp only [InRange, OutOfRange, hmin]
    omega
  | latency d => exact Nat.not_le
  | resources pct | relativeLinkQualityReceive pct | relativeLinkQualityTransmit pct =>
    exact UInt8.not_le
  | _ => exact not_true

theorem not_encodable_iff (item : DataItem) :
    ¬ item.Encodable ↔ u16Max < item.valueBytes.length ∨ item.OutOfRange := by
  rw [Encodable, not_and_or, not_inRange_iff, Nat.not_le, Or.comm]

end DataItem

/-- Encoding an item is all or nothing. It fails when the value is too long or out of range, and
then the buffer is what it was; otherwise the buffer grows by type, length and value. -/
theorem item_encoding_all_or_nothing (item : DataItem) (out : List UInt8) :
    ((∃ e, (item.encode out).1 = .error e) ↔
      65535 < item.valueBytes.length ∨ item.OutOfRange) ∧
    (∀ e, (item.encode out).1 = .error e → (item.encode out).2 = out) ∧
    ((item.encode out).1 = .ok () → item.valueBytes.length ≤ 65535 ∧
      (item.encode out).2 = out ++ (Bytes.ofNat 2 item.typeId.id.toNat ++
        Bytes.ofNat 2 item.valueBytes.length ++ item.valueBytes)) := by
  rw [show 65535 = u16Max from rfl, ← DataItem.not_encodable_iff]
  by_cases h : item.Encodable
  · have hencode := DataItem.encode_of_encodable h out
    rw [hencode]
    refine ⟨iff_of_false nofun (not_not.mpr h), nofun, fun _ => ⟨h.2, rfl⟩⟩
  · obtain ⟨e, hencode⟩ := DataItem.encode_of_not_encodable h out
    rw [hencode]
    exact ⟨iff_of_true ⟨e, rfl⟩ h, fun _ _ => rfl, nofun⟩

/-! ## Messages and signals -/

/-- The encoding loop shared by messages and signals. -/
def encodeItems : List DataItem → List UInt8 → Except CodecError (List UInt8)
  | [], body => .ok body
  | item :: items, body =>
    match item.encode body with
    | (.error e, _) => .error e
    | (.ok (), body) => encodeItems items body

def Message.encode (m : Message) : Except CodecError (List UInt8) := do
  let body ← encodeItems m.dataItems []
  let bodyLen ← u16Length Field.messageBodyLength body.length
  .ok (Bytes.ofNat 2 m.messageType.id.toNat ++ Bytes.ofNat 2 bodyLen.toNat ++ body)

/-- ASCII `"DLEP"`. -/
def SIGNAL_PREFIX : List UInt8 := [68, 76, 69, 80]

def Signal.encode (s : Signal) : Except CodecError (List UInt8) := do
  let body ← encodeItems s.dataItems []
  let bodyLen ← u16Length Field.signalBodyLength body.length
  .ok (SIGNAL_PREFIX ++ Bytes.ofNat 2 s.signalType.id.toNat ++ Bytes.ofNat 2 bodyLen.toNat ++ body)

/-! ## When a message encodes -/

/-- Header and value bytes of a list of items. -/
def itemsLen (items : List DataItem) : ℕ := (items.map DataItem.wireLen).sum

@[simp] theorem itemsLen_nil : itemsLen [] = 0 := rfl

@[simp] theorem itemsLen_cons (item : DataItem) (items : List DataItem) :
    itemsLen (item :: items) = item.wireLen + itemsLen items := by
  simp [itemsLen]

@[simp] theorem itemsLen_append (xs ys : List DataItem) :
    itemsLen (xs ++ ys) = itemsLen xs + itemsLen ys := by
  simp [itemsLen]

theorem encodeItems_of_encodable (h : ∀ i ∈ items, i.Encodable) (body : List UInt8) :
    encodeItems items body = .ok (body ++ items.flatMap DataItem.tlv) := by
  induction items generalizing body with
  | nil => simp [encodeItems]
  | cons i items ih =>
    have hi := DataItem.encode_of_encodable (h i List.mem_cons_self) body
    have hrest := ih (fun j hj => h j (List.mem_cons_of_mem _ hj)) (body ++ i.tlv)
    simp [encodeItems, hi, hrest]

theorem encodeItems_of_not_encodable (h : ¬ ∀ i ∈ items, i.Encodable) (body : List UInt8) :
    ∃ e, encodeItems items body = .error e := by
  induction items generalizing body with
  | nil => exact absurd (by simp) h
  | cons i items ih =>
    by_cases hi : i.Encodable
    · have hrest : ¬ ∀ j ∈ items, j.Encodable := fun hall =>
        h fun j hj => (List.mem_cons.mp hj).elim (fun heq => heq ▸ hi) (hall j)
      simpa [encodeItems, DataItem.encode_of_encodable hi body] using ih hrest (body ++ i.tlv)
    · obtain ⟨e, he⟩ := DataItem.encode_of_not_encodable hi body
      exact ⟨e, by simp [encodeItems, he]⟩

theorem encodeItems_ok {body : List UInt8} (h : encodeItems items [] = .ok body) :
    (∀ i ∈ items, i.Encodable) ∧ body = items.flatMap DataItem.tlv := by
  by_cases hall : ∀ i ∈ items, i.Encodable
  · rw [encodeItems_of_encodable hall, List.nil_append] at h
    cases h
    exact ⟨hall, rfl⟩
  · obtain ⟨e, he⟩ := encodeItems_of_not_encodable hall []
    cases he.symm.trans h

theorem length_flatMap_tlv (items : List DataItem) :
    (items.flatMap DataItem.tlv).length = itemsLen items := by
  induction items with
  | nil => rfl
  | cons i items ih => simp [ih]

/-- A message's `encode` returns bytes. -/
def Message.Encodes (m : Message) : Prop := ∃ bytes, m.encode = .ok bytes

theorem Message.encodes_of_toBool {m : Message} (h : m.encode.toBool = true) : m.Encodes := by
  cases hencode : m.encode with
  | error => simp [hencode, Except.toBool] at h
  | ok bytes => exact ⟨bytes, hencode⟩

/-- A message encodes when each of its items does and the body fits a 16-bit length. -/
theorem Message.encodes_iff (m : Message) :
    m.Encodes ↔ (∀ i ∈ m.dataItems, i.Encodable) ∧ itemsLen m.dataItems ≤ u16Max := by
  by_cases hitems : ∀ i ∈ m.dataItems, i.Encodable
  · have hbody := encodeItems_of_encodable hitems []
    have hlen := length_flatMap_tlv m.dataItems
    by_cases hfit : itemsLen m.dataItems ≤ u16Max
    · simpa [Encodes, encode, hbody, hlen, u16Length_of_le hfit, hfit, bind, Except.bind]
        using hitems
    · have hlong : u16Max < itemsLen m.dataItems := Nat.lt_of_not_le hfit
      simp [Encodes, encode, hbody, hlen, u16Length_of_lt hlong, hfit, bind, Except.bind]
  · obtain ⟨e, he⟩ := encodeItems_of_not_encodable hitems []
    simp only [Encodes, encode, he, bind, Except.bind, reduceCtorEq, exists_false, hitems,
      false_and]

end Dlep
