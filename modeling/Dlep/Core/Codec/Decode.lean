-- SUMMARY: Decoding of data items, messages and signals, and the size bounds decoding guarantees.
import Dlep.Core.Codec.Encode

/-!
# Decoding

`RawDataItem::decode` splits one TLV off a buffer, `DataItem::decode` lifts it
into a typed item, and `Message::decode` / `Signal::decode` iterate both over the
declared body. Indexing into a value is only ever done after its length has been
checked, so the positional reads below never fall back to their default.
-/

namespace Dlep

/-! ## Reading helpers -/

def ensureLen (got needed : ℕ) : Except CodecError Unit :=
  if got < needed then .error (.truncated needed got) else .ok ()

def expectExact (kind : DataItemType) (got expected : ℕ) : Except CodecError Unit :=
  if got = expected then .ok () else .error (.invalidDataItemLength kind (.exact expected) got)

/-- Reserved flag bits must be zero. -/
def validateFlags (byte : UInt8) : Except CodecError Unit :=
  if byte &&& 0xfe ≠ 0 then .error (.outOfRange Field.dataItemFlags byte.toNat) else .ok ()

def decodeFlag (byte : UInt8) : Bool := decide (byte &&& 0x01 ≠ 0)

def decodePercent (kind : DataItemType) (value : List UInt8) (field : String) :
    Except CodecError UInt8 := do
  expectExact kind value.length 1
  let pct := value.getD 0 0
  checkPercent field pct
  .ok pct

/-- `String::from_utf8`. -/
def stringFromUtf8 (bytes : List UInt8) : Except CodecError String :=
  match String.fromUTF8? ⟨bytes.toArray⟩ with
  | some s => .ok s
  | none => .error (.invalidUtf8 bytes)

/-- `Ipv4Net::new` / `Ipv6Net::new`: the prefix may not exceed the address width. -/
def IpNet.new (w : ℕ) (addr : BitVec w) (pfx : UInt8) : Option (IpNet w) :=
  if h : pfx.toNat < w + 1 then some ⟨addr, ⟨pfx.toNat, h⟩⟩ else none

def octetVector (n : ℕ) (bs : List UInt8) : Vector UInt8 n := Vector.ofFn fun i => bs.getD i 0

/-- The identifiers of an Extensions Supported value, two octets each. -/
def decodeExtensionIds : List UInt8 → List ExtensionId
  | hi :: lo :: rest => ⟨UInt16.ofNat (Bytes.toNat [hi, lo])⟩ :: decodeExtensionIds rest
  | _ => []

/-- `RawDataItem::decode`: the TLV and the bytes after it. -/
def RawDataItem.decode (src : List UInt8) : Except CodecError (RawDataItem × List UInt8) := do
  ensureLen src.length 4
  let typeId : DataItemType := ⟨UInt16.ofNat (Bytes.toNat (src.take 2))⟩
  let len := Bytes.toNat ((src.drop 2).take 2)
  let rest := src.drop 4
  ensureLen rest.length len
  .ok (⟨typeId, rest.take len⟩, rest.drop len)

namespace DataItem

def decodeIpv4Net (add : Bool) (v : List UInt8) : Except CodecError DataItem :=
  let pfx := v.getD 5 0
  match IpNet.new 32 (BitVec.ofNat 32 (Bytes.toNat ((v.drop 1).take 4))) pfx with
  | none => .error (.outOfRange Field.ipv4AttachedSubnetPrefix pfx.toNat)
  | some n => .ok (.ipv4AttachedSubnet add n.trunc)

def decodeIpv6Net (add : Bool) (v : List UInt8) : Except CodecError DataItem :=
  let pfx := v.getD 17 0
  match IpNet.new 128 (BitVec.ofNat 128 (Bytes.toNat ((v.drop 1).take 16))) pfx with
  | none => .error (.outOfRange Field.ipv6AttachedSubnetPrefix pfx.toNat)
  | some n => .ok (.ipv6AttachedSubnet add n.trunc)

def decodeU64 (kind : DataItemType) (v : List UInt8) (mk : UInt64 → DataItem) :
    Except CodecError DataItem := do
  expectExact kind v.length 8
  .ok (mk (UInt64.ofNat (Bytes.toNat v)))

/-- `DataItem::decode`. -/
def decode (raw : RawDataItem) : Except CodecError DataItem :=
  let kind := raw.typeId
  let v := raw.value
  let len := v.length
  if kind = .status then
    if len < 1 then .error (.invalidDataItemLength kind (.atLeast 1) len)
    else do
      let text ← stringFromUtf8 (v.drop 1)
      .ok (.status ⟨v.getD 0 0⟩ text)
  else if kind = .ipv4ConnectionPoint then
    if len ≠ 5 ∧ len ≠ 7 then .error (.invalidDataItemLength kind (.oneOf [5, 7]) len)
    else do
      validateFlags (v.getD 0 0)
      .ok (.ipv4ConnectionPoint ⟨decodeFlag (v.getD 0 0)⟩
        (BitVec.ofNat 32 (Bytes.toNat ((v.drop 1).take 4)))
        (if len = 7 then some (UInt16.ofNat (Bytes.toNat (v.drop 5))) else none))
  else if kind = .ipv6ConnectionPoint then
    if len ≠ 17 ∧ len ≠ 19 then .error (.invalidDataItemLength kind (.oneOf [17, 19]) len)
    else do
      validateFlags (v.getD 0 0)
      .ok (.ipv6ConnectionPoint ⟨decodeFlag (v.getD 0 0)⟩
        (BitVec.ofNat 128 (Bytes.toNat ((v.drop 1).take 16)))
        (if len = 19 then some (UInt16.ofNat (Bytes.toNat (v.drop 17))) else none))
  else if kind = .peerType then
    if len < 1 then .error (.invalidDataItemLength kind (.atLeast 1) len)
    else do
      validateFlags (v.getD 0 0)
      let description ← stringFromUtf8 (v.drop 1)
      .ok (.peerType ⟨decodeFlag (v.getD 0 0)⟩ description)
  else if kind = .heartbeatInterval then do
    expectExact kind len 4
    let ms := Bytes.toNat v
    if ms < MIN_HEARTBEAT_INTERVAL_MS.toNat then .error (.outOfRange Field.heartbeatIntervalMs ms)
    else .ok (.heartbeatInterval (.ofMillis (UInt64.ofNat ms)))
  else if kind = .extensionsSupported then
    if len % 2 ≠ 0 then .error (.invalidDataItemLength kind (.multiple 2) len)
    else .ok (.extensionsSupported (decodeExtensionIds v))
  else if kind = .macAddress then
    if len = 6 then .ok (.macAddress (.eui48 (octetVector 6 v)))
    else if len = 8 then .ok (.macAddress (.eui64 (octetVector 8 v)))
    else .error (.invalidDataItemLength kind (.oneOf [6, 8]) len)
  else if kind = .ipv4Address then do
    expectExact kind len 5
    validateFlags (v.getD 0 0)
    .ok (.ipv4Address (decodeFlag (v.getD 0 0)) (BitVec.ofNat 32 (Bytes.toNat (v.drop 1))))
  else if kind = .ipv6Address then do
    expectExact kind len 17
    validateFlags (v.getD 0 0)
    .ok (.ipv6Address (decodeFlag (v.getD 0 0)) (BitVec.ofNat 128 (Bytes.toNat (v.drop 1))))
  else if kind = .ipv4AttachedSubnet then do
    expectExact kind len 6
    validateFlags (v.getD 0 0)
    decodeIpv4Net (decodeFlag (v.getD 0 0)) v
  else if kind = .ipv6AttachedSubnet then do
    expectExact kind len 18
    validateFlags (v.getD 0 0)
    decodeIpv6Net (decodeFlag (v.getD 0 0)) v
  else if kind = .maximumDataRateReceive then decodeU64 kind v .maxDataRateReceive
  else if kind = .maximumDataRateTransmit then decodeU64 kind v .maxDataRateTransmit
  else if kind = .currentDataRateReceive then decodeU64 kind v .currentDataRateReceive
  else if kind = .currentDataRateTransmit then decodeU64 kind v .currentDataRateTransmit
  else if kind = .latency then decodeU64 kind v fun us => .latency (.ofMicros us)
  else if kind = .resources then .resources <$> decodePercent kind v Field.resources
  else if kind = .relativeLinkQualityReceive then
    .relativeLinkQualityReceive <$> decodePercent kind v Field.rlqReceive
  else if kind = .relativeLinkQualityTransmit then
    .relativeLinkQualityTransmit <$> decodePercent kind v Field.rlqTransmit
  else if kind = .mtu then do
    expectExact kind len 2
    .ok (.mtu (UInt16.ofNat (Bytes.toNat v)))
  else .ok (.unknown raw)

end DataItem

/-! ## Messages and signals -/

/-- One `RawDataItem::decode` consumes exactly its four header octets and its value. -/
theorem RawDataItem.decode_length {src rest : List UInt8} {raw : RawDataItem}
    (h : RawDataItem.decode src = .ok (raw, rest)) :
    4 + raw.value.length + rest.length = src.length := by
  unfold RawDataItem.decode at h
  by_cases hhead : src.length < 4
  · simp [ensureLen, hhead, bind, Except.bind] at h
  · by_cases hval : (src.drop 4).length < Bytes.toNat ((src.drop 2).take 2)
    · simp only [ensureLen, hhead, hval, bind, Except.bind, if_true, if_false] at h
      cases h
    · simp only [ensureLen, hhead, hval, bind, Except.bind, if_false] at h
      simp only [Except.ok.injEq, Prod.mk.injEq] at h
      obtain ⟨rfl, rfl⟩ := h
      simp only [List.length_drop] at hval
      simp only [List.length_take, List.length_drop]
      omega

/-- The decoding loop over a declared body. -/
def decodeItems (body : List UInt8) : Except CodecError (List DataItem) :=
  if body.isEmpty then .ok []
  else
    match _hraw : RawDataItem.decode body with
    | .error e => .error e
    | .ok (raw, rest) =>
      match DataItem.decode raw with
      | .error e => .error e
      | .ok item =>
        match decodeItems rest with
        | .error e => .error e
        | .ok items => .ok (item :: items)
termination_by body.length
decreasing_by
  have := RawDataItem.decode_length _hraw
  omega

def Message.decode (src : List UInt8) : Except CodecError Message := do
  ensureLen src.length 4
  let messageType : MessageType := ⟨UInt16.ofNat (Bytes.toNat (src.take 2))⟩
  let declared := Bytes.toNat ((src.drop 2).take 2)
  let src := src.drop 4
  if src.length < declared then .error (.lengthMismatch declared src.length)
  else do
    let dataItems ← decodeItems (src.take declared)
    .ok ⟨messageType, dataItems⟩

def Signal.decode (src : List UInt8) : Except CodecError Signal := do
  ensureLen src.length 8
  if src.take 4 ≠ SIGNAL_PREFIX then .error .missingSignalPrefix
  else
    let signalType : SignalType := ⟨UInt16.ofNat (Bytes.toNat ((src.drop 4).take 2))⟩
    let declared := Bytes.toNat ((src.drop 6).take 2)
    let src := src.drop 8
    if src.length ≠ declared then .error (.lengthMismatch declared src.length)
    else do
      let dataItems ← decodeItems src
      .ok ⟨signalType, dataItems⟩

end Dlep
