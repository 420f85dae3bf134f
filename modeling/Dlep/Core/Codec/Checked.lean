-- SUMMARY: The decoder with every index, slice and split explicit: always inside its buffer, and what it accepts.
import Dlep.Core.Codec.Canonical
import Dlep.Lib.Bounds

/-!
# Decoding arbitrary bytes

The decoder once more, with each read of the source written as a read that can
leave its buffer and with the passes of its loops counted. It is equal to the
decoder without such reads, so none of them is ever out of bounds. A body is
accepted when it is a sequence of TLVs whose values obey the rules of their
items, and what follows the declared body plays no part.
-/

namespace Dlep

open Bounds

/-- A decoding step: a value, an error that is returned, or a read out of bounds. -/
abbrev Reading (α : Type) : Type := Except (Stop CodecError) α

/-- `Buf::get_u16`. -/
def getU16 (src : List UInt8) : Reading (UInt16 × List UInt8) := do
  let (head, rest) ← splitTo src 2
  .ok (UInt16.ofNat (Bytes.toNat head), rest)

/-- The two `get_u16` calls for a type and a length, and what is left after them. -/
def getTypeLen (src : List UInt8) : Reading (UInt16 × ℕ × List UInt8) := do
  let (typeId, src) ← getU16 src
  let (len, src) ← getU16 src
  .ok (typeId, len.toNat, src)

/-- `read_u64_be`. -/
def readU64Be (v : List UInt8) : Reading UInt64 := do
  let head ← slice v 0 8
  let buf ← copyFromSlice 8 head
  .ok (UInt64.ofNat (Bytes.toNat buf))

/-- `Ipv4Addr::new(v[1], v[2], v[3], v[4])`. -/
def readIpv4 (v : List UInt8) : Reading Ipv4Addr := do
  let octets ← indices v 1 4
  .ok (BitVec.ofNat 32 (Bytes.toNat octets))

/-- `Ipv6Addr::from` the sixteen octets at `v[1..17]`. -/
def readIpv6 (v : List UInt8) : Reading Ipv6Addr := do
  let octets ← slice v 1 17
  let octets ← copyFromSlice 16 octets
  .ok (BitVec.ofNat 128 (Bytes.toNat octets))

def readMac (n : ℕ) (v : List UInt8) : Reading (Vector UInt8 n) := do
  let octets ← slice v 0 n
  let octets ← copyFromSlice n octets
  .ok (octetVector n octets)

/-- `(len == full).then(|| u16::from_be_bytes([v[start], v[start + 1]]))`. -/
def readPort (v : List UInt8) (full start : ℕ) : Reading (Option UInt16) :=
  if v.length = full then do
    let octets ← indices v start 2
    .ok (some (UInt16.ofNat (Bytes.toNat octets)))
  else .ok none

/-- The loop `while i < len` over the identifiers of an Extensions Supported value. -/
def readExtensionIds (v : List UInt8) (i : ℕ) (ids : List ExtensionId) :
    Reading (List ExtensionId) :=
  if i < v.length then do
    let pair ← indices v i 2
    readExtensionIds v (i + 2) (ids ++ [⟨UInt16.ofNat (Bytes.toNat pair)⟩])
  else .ok ids
termination_by v.length - i

def readPercent (kind : DataItemType) (v : List UInt8) (field : String) : Reading UInt8 := do
  lift (expectExact kind v.length 1)
  let pct ← index v 0
  lift (checkPercent field pct)
  .ok pct

def readRate (kind : DataItemType) (v : List UInt8) (mk : UInt64 → DataItem) :
    Reading DataItem := do
  lift (expectExact kind v.length 8)
  let value ← readU64Be v
  .ok (mk value)

/-- `RawDataItem::decode`. -/
def RawDataItem.read (src : List UInt8) : Reading (RawDataItem × List UInt8) := do
  lift (ensureLen src.length 4)
  let (typeId, len, src) ← getTypeLen src
  lift (ensureLen src.length len)
  let (value, src) ← splitTo src len
  .ok (⟨⟨typeId⟩, value⟩, src)

/-- `DataItem::decode`. -/
def DataItem.read (raw : RawDataItem) : Reading DataItem :=
  let kind := raw.typeId
  let v := raw.value
  let len := v.length
  if kind = .status then
    if len < 1 then .error (.raised (.invalidDataItemLength kind (.atLeast 1) len))
    else do
      let code ← index v 0
      let bytes ← slice v 1 len
      let text ← lift (stringFromUtf8 bytes)
      .ok (.status ⟨code⟩ text)
  else if kind = .ipv4ConnectionPoint then
    if len ≠ 5 ∧ len ≠ 7 then .error (.raised (.invalidDataItemLength kind (.oneOf [5, 7]) len))
    else do
      let flags ← index v 0
      lift (validateFlags flags)
      let addr ← readIpv4 v
      let port ← readPort v 7 5
      .ok (.ipv4ConnectionPoint ⟨decodeFlag flags⟩ addr port)
  else if kind = .ipv6ConnectionPoint then
    if len ≠ 17 ∧ len ≠ 19 then
      .error (.raised (.invalidDataItemLength kind (.oneOf [17, 19]) len))
    else do
      let flags ← index v 0
      lift (validateFlags flags)
      let addr ← readIpv6 v
      let port ← readPort v 19 17
      .ok (.ipv6ConnectionPoint ⟨decodeFlag flags⟩ addr port)
  else if kind = .peerType then
    if len < 1 then .error (.raised (.invalidDataItemLength kind (.atLeast 1) len))
    else do
      let flags ← index v 0
      lift (validateFlags flags)
      let bytes ← slice v 1 len
      let description ← lift (stringFromUtf8 bytes)
      .ok (.peerType ⟨decodeFlag flags⟩ description)
  else if kind = .heartbeatInterval then do
    lift (expectExact kind len 4)
    let octets ← indices v 0 4
    let ms := Bytes.toNat octets
    if ms < MIN_HEARTBEAT_INTERVAL_MS.toNat then
      .error (.raised (.outOfRange Field.heartbeatIntervalMs ms))
    else .ok (.heartbeatInterval (.ofMillis (UInt64.ofNat ms)))
  else if kind = .extensionsSupported then
    if len % 2 ≠ 0 then .error (.raised (.invalidDataItemLength kind (.multiple 2) len))
    else do
      let ids ← readExtensionIds v 0 []
      .ok (.extensionsSupported ids)
  else if kind = .macAddress then
    if len = 6 then do
      let octets ← readMac 6 v
      .ok (.macAddress (.eui48 octets))
    else if len = 8 then do
      let octets ← readMac 8 v
      .ok (.macAddress (.eui64 octets))
    else .error (.raised (.invalidDataItemLength kind (.oneOf [6, 8]) len))
  else if kind = .ipv4Address then do
    lift (expectExact kind len 5)
    let flags ← index v 0
    lift (validateFlags flags)
    let addr ← readIpv4 v
    .ok (.ipv4Address (decodeFlag flags) addr)
  else if kind = .ipv6Address then do
    lift (expectExact kind len 17)
    let flags ← index v 0
    lift (validateFlags flags)
    let addr ← readIpv6 v
    .ok (.ipv6Address (decodeFlag flags) addr)
  else if kind = .ipv4AttachedSubnet then do
    lift (expectExact kind len 6)
    let flags ← index v 0
    lift (validateFlags flags)
    let addr ← readIpv4 v
    let pfx ← index v 5
    match IpNet.new 32 addr pfx with
    | none => .error (.raised (.outOfRange Field.ipv4AttachedSubnetPrefix pfx.toNat))
    | some n => .ok (.ipv4AttachedSubnet (decodeFlag flags) n.trunc)
  else if kind = .ipv6AttachedSubnet then do
    lift (expectExact kind len 18)
    let flags ← index v 0
    lift (validateFlags flags)
    let addr ← readIpv6 v
    let pfx ← index v 17
    match IpNet.new 128 addr pfx with
    | none => .error (.raised (.outOfRange Field.ipv6AttachedSubnetPrefix pfx.toNat))
    | some n => .ok (.ipv6AttachedSubnet (decodeFlag flags) n.trunc)
  else if kind = .maximumDataRateReceive then readRate kind v .maxDataRateReceive
  else if kind = .maximumDataRateTransmit then readRate kind v .maxDataRateTransmit
  else if kind = .currentDataRateReceive then readRate kind v .currentDataRateReceive
  else if kind = .currentDataRateTransmit then readRate kind v .currentDataRateTransmit
  else if kind = .latency then readRate kind v fun us => .latency (.ofMicros us)
  else if kind = .resources then .resources <$> readPercent kind v Field.resources
  else if kind = .relativeLinkQualityReceive then
    .relativeLinkQualityReceive <$> readPercent kind v Field.rlqReceive
  else if kind = .relativeLinkQualityTransmit then
    .relativeLinkQualityTransmit <$> readPercent kind v Field.rlqTransmit
  else if kind = .mtu then do
    lift (expectExact kind len 2)
    let octets ← indices v 0 2
    .ok (.mtu (UInt16.ofNat (Bytes.toNat octets)))
  else .ok (.unknown raw)

/-! ## No read is out of bounds -/

section Reads

variable {v : List UInt8}

theorem getU16_of_le (h : 2 ≤ v.length) :
    getU16 v = .ok (UInt16.ofNat (Bytes.toNat (v.take 2)), v.drop 2) := by
  rw [getU16, splitTo_of_le h]
  rfl

theorem toNat_two_bytes (h : 2 ≤ v.length) :
    (UInt16.ofNat (Bytes.toNat (v.take 2))).toNat = Bytes.toNat (v.take 2) := by
  have hlt := Bytes.toNat_lt (v.take 2)
  rw [List.length_take_of_le h] at hlt
  exact toNat_ofNat_u16 (Nat.le_of_lt_succ hlt)

theorem getTypeLen_of_le (h : 4 ≤ v.length) :
    getTypeLen v = .ok (UInt16.ofNat (Bytes.toNat (v.take 2)), Bytes.toNat ((v.drop 2).take 2),
      v.drop 4) := by
  have htail : 2 ≤ (v.drop 2).length := by
    rw [List.length_drop]
    omega
  have hdrop : (v.drop 2).drop 2 = v.drop 4 := List.drop_drop
  rw [getTypeLen, getU16_of_le (by omega), ok_bind]
  simp only [getU16_of_le htail, ok_bind, toNat_two_bytes htail, hdrop]

theorem readU64Be_of_length (h : v.length = 8) : readU64Be v = .ok (UInt64.ofNat (Bytes.toNat v)) := by
  have htake : v.take 8 = v := List.take_of_length_le h.le
  rw [readU64Be, slice_of_le (Nat.zero_le 8) h.ge]
  simp only [List.drop_zero, Nat.sub_zero, htake, ok_bind, copyFromSlice_of_length h]

theorem readIpv4_of_le (h : 5 ≤ v.length) :
    readIpv4 v = .ok (BitVec.ofNat 32 (Bytes.toNat ((v.drop 1).take 4))) := by
  rw [readIpv4, indices_of_le (by omega)]
  rfl

theorem readIpv6_of_le (h : 17 ≤ v.length) :
    readIpv6 v = .ok (BitVec.ofNat 128 (Bytes.toNat ((v.drop 1).take 16))) := by
  have hlen : ((v.drop 1).take 16).length = 16 := by
    simp only [List.length_take, List.length_drop]
    omega
  rw [readIpv6, slice_of_le (by decide) h]
  simp only [Nat.add_one_sub_one, ok_bind, copyFromSlice_of_length hlen]

theorem readMac_of_length {n : ℕ} (h : v.length = n) : readMac n v = .ok (octetVector n v) := by
  have htake : v.take n = v := List.take_of_length_le h.le
  rw [readMac, slice_of_le (Nat.zero_le n) h.ge]
  simp only [List.drop_zero, Nat.sub_zero, htake, ok_bind, copyFromSlice_of_length h]

theorem readPort_eq {full start : ℕ} (h : full = start + 2) :
    readPort v full start = .ok (if v.length = full then
      some (UInt16.ofNat (Bytes.toNat (v.drop start))) else none) := by
  rw [readPort]
  split
  · rename_i hlen
    have hall : (v.drop start).take 2 = v.drop start :=
      List.take_of_length_le (by rw [List.length_drop]; omega)
    rw [indices_of_le (by omega), ok_bind, hall]
  · rfl

/-- An even number of octets is left at each pass, so the pair is inside the value. -/
theorem readExtensionIds_eq {i : ℕ} (ids : List ExtensionId) (h : (v.length - i) % 2 = 0) :
    readExtensionIds v i ids = .ok (ids ++ decodeExtensionIds (v.drop i)) := by
  fun_induction readExtensionIds v i ids with
  | case1 i ids hlt ih =>
    have hhi : i + 1 < v.length := by omega
    have hpair : v.drop i = v[i] :: v[i + 1] :: v.drop (i + 2) := by
      rw [List.drop_eq_getElem_cons hlt, List.drop_eq_getElem_cons hhi]
    rw [indices_of_le (by omega), ok_bind, ih _ (by omega), hpair, decodeExtensionIds,
      List.append_assoc]
    rfl
  | case2 i ids hge =>
    rw [List.drop_eq_nil_of_le (Nat.le_of_not_lt hge)]
    simp [decodeExtensionIds]

theorem readPercent_eq (kind : DataItemType) (field : String) :
    readPercent kind v field = lift (decodePercent kind v field) := by
  refine lift_bind fun _ hlen => ?_
  have hlen : v.length = 1 := expectExact_ok hlen
  rw [index_of_lt 0 (by omega), ok_bind]
  exact lift_bind fun _ _ => rfl

theorem readRate_eq (kind : DataItemType) (mk : UInt64 → DataItem) :
    readRate kind v mk = lift (DataItem.decodeU64 kind v mk) := by
  refine lift_bind fun _ hlen => ?_
  rw [readU64Be_of_length (expectExact_ok hlen)]
  rfl

end Reads

theorem RawDataItem.read_eq (src : List UInt8) :
    RawDataItem.read src = lift (RawDataItem.decode src) := by
  refine lift_bind fun _ hhead => ?_
  rw [getTypeLen_of_le (ensureLen_ok hhead), ok_bind]
  refine lift_bind fun _ hvalue => ?_
  rw [splitTo_of_le (ensureLen_ok hvalue)]
  rfl

/-- `DataItem::decode` reads inside the value it is given. -/
theorem DataItem.read_eq (raw : RawDataItem) : DataItem.read raw = lift (DataItem.decode raw) := by
  refine lift_ite (fun _ => ?status) fun _ => lift_ite (fun _ => ?v4Point) fun _ =>
    lift_ite (fun _ => ?v6Point) fun _ => lift_ite (fun _ => ?peerType) fun _ =>
    lift_ite (fun _ => ?heartbeat) fun _ => lift_ite (fun _ => ?extensions) fun _ =>
    lift_ite (fun _ => ?mac) fun _ => lift_ite (fun _ => ?v4Addr) fun _ =>
    lift_ite (fun _ => ?v6Addr) fun _ => lift_ite (fun _ => ?v4Net) fun _ =>
    lift_ite (fun _ => ?v6Net) fun _ => lift_ite (fun _ => readRate_eq ..) fun _ =>
    lift_ite (fun _ => readRate_eq ..) fun _ => lift_ite (fun _ => readRate_eq ..) fun _ =>
    lift_ite (fun _ => readRate_eq ..) fun _ => lift_ite (fun _ => readRate_eq ..) fun _ =>
    lift_ite (fun _ => ?_) fun _ => lift_ite (fun _ => ?_) fun _ =>
    lift_ite (fun _ => ?_) fun _ => lift_ite (fun _ => ?mtu) fun _ => rfl
  case status =>
    refine lift_ite (fun _ => rfl) fun hlen => ?_
    have hlen : 1 ≤ raw.value.length := Nat.le_of_not_lt hlen
    have hall : (raw.value.drop 1).take (raw.value.length - 1) = raw.value.drop 1 :=
      List.take_of_length_le (List.length_drop ..).le
    simp only [index_of_lt 0 hlen, slice_of_le hlen le_rfl, ok_bind, hall]
    exact lift_bind fun _ _ => rfl
  case v4Point =>
    refine lift_ite (fun _ => rfl) fun hlen => ?_
    have hlen : 5 ≤ raw.value.length := by omega
    rw [index_of_lt 0 (by omega), ok_bind]
    refine lift_bind fun _ _ => ?_
    rw [readIpv4_of_le hlen, ok_bind, readPort_eq rfl]
    rfl
  case v6Point =>
    refine lift_ite (fun _ => rfl) fun hlen => ?_
    have hlen : 17 ≤ raw.value.length := by omega
    rw [index_of_lt 0 (by omega), ok_bind]
    refine lift_bind fun _ _ => ?_
    rw [readIpv6_of_le hlen, ok_bind, readPort_eq rfl]
    rfl
  case peerType =>
    refine lift_ite (fun _ => rfl) fun hlen => ?_
    have hlen : 1 ≤ raw.value.length := Nat.le_of_not_lt hlen
    have hall : (raw.value.drop 1).take (raw.value.length - 1) = raw.value.drop 1 :=
      List.take_of_length_le (List.length_drop ..).le
    rw [index_of_lt 0 hlen, ok_bind]
    refine lift_bind fun _ _ => ?_
    rw [slice_of_le hlen le_rfl, ok_bind, hall]
    exact lift_bind fun _ _ => rfl
  case heartbeat =>
    refine lift_bind fun _ hlen => ?_
    have hlen : raw.value.length = 4 := expectExact_ok hlen
    have hall : (raw.value.drop 0).take 4 = raw.value := List.take_of_length_le hlen.le
    rw [indices_of_le (by omega), ok_bind, hall]
    exact lift_ite (fun _ => rfl) fun _ => rfl
  case extensions =>
    refine lift_ite (fun _ => rfl) fun hlen => ?_
    rw [readExtensionIds_eq [] (by simpa using hlen)]
    rfl
  case mac =>
    refine lift_ite (fun hlen => ?_) fun _ => lift_ite (fun hlen => ?_) fun _ => rfl
    · rw [readMac_of_length hlen]
      rfl
    · rw [readMac_of_length hlen]
      rfl
  case v4Addr =>
    refine lift_bind fun _ hlen => ?_
    have hlen : raw.value.length = 5 := expectExact_ok hlen
    have hall : (raw.value.drop 1).take 4 = raw.value.drop 1 :=
      List.take_of_length_le (by rw [List.length_drop, hlen])
    rw [index_of_lt 0 (by omega), ok_bind]
    refine lift_bind fun _ _ => ?_
    rw [readIpv4_of_le hlen.ge, hall]
    rfl
  case v6Addr =>
    refine lift_bind fun _ hlen => ?_
    have hlen : raw.value.length = 17 := expectExact_ok hlen
    have hall : (raw.value.drop 1).take 16 = raw.value.drop 1 :=
      List.take_of_length_le (by rw [List.length_drop, hlen])
    rw [index_of_lt 0 (by omega), ok_bind]
    refine lift_bind fun _ _ => ?_
    rw [readIpv6_of_le hlen.ge, hall]
    rfl
  case v4Net =>
    refine lift_bind fun _ hlen => ?_
    have hlen : raw.value.length = 6 := expectExact_ok hlen
    rw [index_of_lt 0 (by omega), ok_bind]
    refine lift_bind fun _ _ => ?_
    rw [readIpv4_of_le (by omega), ok_bind, index_of_lt 0 (by omega), ok_bind, decodeIpv4Net]
    cases IpNet.new 32 _ (raw.value.getD 5 0) <;> rfl
  case v6Net =>
    refine lift_bind fun _ hlen => ?_
    have hlen : raw.value.length = 18 := expectExact_ok hlen
    rw [index_of_lt 0 (by omega), ok_bind]
    refine lift_bind fun _ _ => ?_
    rw [readIpv6_of_le (by omega), ok_bind, index_of_lt 0 (by omega), ok_bind, decodeIpv6Net]
    cases IpNet.new 128 _ (raw.value.getD 17 0) <;> rfl
  case mtu =>
    refine lift_bind fun _ hlen => ?_
    have hlen : raw.value.length = 2 := expectExact_ok hlen
    have hall : (raw.value.drop 0).take 2 = raw.value := List.take_of_length_le hlen.le
    rw [indices_of_le (by omega), hall]
    rfl
  all_goals
    rw [readPercent_eq]
    exact lift_map ..

theorem RawDataItem.read_length {src rest : List UInt8} {raw : RawDataItem}
    (h : RawDataItem.read src = .ok (raw, rest)) :
    4 + raw.value.length + rest.length = src.length := by
  rw [RawDataItem.read_eq] at h
  exact RawDataItem.decode_length (lift_eq_ok.mp h)

/-! ## The loop over a body -/

/-- A run of a decoder: its result, how often its loop was entered and how many of these passes
came to their end. -/
structure Decoding (α : Type) where
  result : Reading α
  entered : ℕ
  completed : ℕ

namespace Decoding

variable {α β : Type}

def map (f : α → β) (run : Decoding α) : Decoding β :=
  ⟨f <$> run.result, run.entered, run.completed⟩

/-- A run that ends before its loop. -/
def stopped (e : Stop CodecError) : Decoding α := ⟨.error e, 0, 0⟩

end Decoding

/-- The loop `while body.has_remaining()`. -/
def readItems (body : List UInt8) : Decoding (List DataItem) :=
  if body.isEmpty then ⟨.ok [], 0, 0⟩
  else
    match _hraw : RawDataItem.read body with
    | .error e => ⟨.error e, 1, 0⟩
    | .ok (raw, rest) =>
      match DataItem.read raw with
      | .error e => ⟨.error e, 1, 0⟩
      | .ok item =>
        let next := readItems rest
        ⟨(item :: ·) <$> next.result, next.entered + 1, next.completed + 1⟩
termination_by body.length
decreasing_by
  have := RawDataItem.read_length _hraw
  omega

theorem decodeItems_of_error {body : List UInt8} {e : CodecError} (hbody : ¬ body.isEmpty)
    (h : RawDataItem.decode body = .error e) : decodeItems body = .error e := by
  rw [decodeItems, if_neg hbody]
  split
  · rename_i hraw
    cases h.symm.trans hraw
    rfl
  · rename_i hraw
    cases h.symm.trans hraw

theorem readItems_result (body : List UInt8) :
    (readItems body).result = lift (decodeItems body) := by
  fun_induction readItems body with
  | case1 body hempty =>
    rw [decodeItems, if_pos hempty]
    rfl
  | case2 body hempty stop hraw =>
    rw [RawDataItem.read_eq] at hraw
    obtain ⟨e, hdecode, rfl⟩ := lift_eq_error.mp hraw
    rw [decodeItems_of_error hempty hdecode]
    rfl
  | case3 body hempty raw rest hraw stop hitem =>
    rw [RawDataItem.read_eq] at hraw
    rw [DataItem.read_eq] at hitem
    obtain ⟨e, hdecode, rfl⟩ := lift_eq_error.mp hitem
    rw [decodeItems_of_raw (lift_eq_ok.mp hraw), hdecode]
    rfl
  | case4 body hempty raw rest hraw item hitem next ih =>
    rw [RawDataItem.read_eq] at hraw
    rw [DataItem.read_eq] at hitem
    rw [decodeItems_of_raw (lift_eq_ok.mp hraw), lift_eq_ok.mp hitem, ih, lift_map]
    cases decodeItems rest <;> rfl

/-- A completed pass consumes at least a TLV header, and a pass is only entered with octets left. -/
theorem readItems_passes (body : List UInt8) :
    4 * (readItems body).completed ≤ body.length ∧
      4 * (readItems body).entered ≤ body.length + 3 := by
  fun_induction readItems body with
  | case1 body hempty => simp
  | case2 body hempty _ _ | case3 body hempty _ _ _ _ _ =>
    have hpos : body.length ≠ 0 := by simpa using hempty
    dsimp only
    omega
  | case4 body hempty raw rest hraw item hitem next ih =>
    have hlength := RawDataItem.read_length hraw
    dsimp only [next] at ih ⊢
    omega

/-! ## Messages and signals -/

/-- `Message::decode` up to its loop: the type and the declared body. -/
def Message.readHeader (src : List UInt8) : Reading (MessageType × List UInt8) := do
  lift (ensureLen src.length 4)
  let (messageType, declared, src) ← getTypeLen src
  if src.length < declared then .error (.raised (.lengthMismatch declared src.length))
  else do
    let (body, _) ← splitTo src declared
    .ok (⟨messageType⟩, body)

/-- `Message::decode`. -/
def Message.read (src : List UInt8) : Decoding Message :=
  match Message.readHeader src with
  | .error stop => .stopped stop
  | .ok (messageType, body) => (readItems body).map fun items => ⟨messageType, items⟩

/-- `Signal::decode` up to its loop. -/
def Signal.readHeader (src : List UInt8) : Reading (SignalType × List UInt8) := do
  lift (ensureLen src.length 8)
  let (pfx, src) ← splitTo src 4
  if pfx ≠ SIGNAL_PREFIX then .error (.raised .missingSignalPrefix)
  else do
    let (signalType, declared, src) ← getTypeLen src
    if src.length ≠ declared then .error (.raised (.lengthMismatch declared src.length))
    else do
      let (body, _) ← splitTo src declared
      .ok (⟨signalType⟩, body)

/-- `Signal::decode`. -/
def Signal.read (src : List UInt8) : Decoding Signal :=
  match Signal.readHeader src with
  | .error stop => .stopped stop
  | .ok (signalType, body) => (readItems body).map fun items => ⟨signalType, items⟩

/-- The length field of a message header. -/
def Message.declaredLen (src : List UInt8) : ℕ := Bytes.toNat ((src.drop 2).take 2)

/-- The length field of a signal header. -/
def Signal.declaredLen (src : List UInt8) : ℕ := Bytes.toNat ((src.drop 6).take 2)

section

variable {src : List UInt8}

/-- The declared body of a message is there. -/
def Message.Framed (src : List UInt8) : Prop := 4 + declaredLen src ≤ src.length

/-- A signal is its header and its declared body. -/
def Signal.Framed (src : List UInt8) : Prop :=
  src.take 4 = SIGNAL_PREFIX ∧ 8 + declaredLen src = src.length

theorem Message.readHeader_of_framed (h : Framed src) :
    readHeader src = .ok (⟨UInt16.ofNat (Bytes.toNat (src.take 2))⟩,
      (src.drop 4).take (declaredLen src)) := by
  unfold Framed at h
  have hbody : declaredLen src ≤ (src.drop 4).length := by
    rw [List.length_drop]
    omega
  have hhead : 4 ≤ src.length := by omega
  rw [readHeader, ensureLen_of_le hhead, lift_ok, ok_bind, getTypeLen_of_le hhead, ok_bind]
  dsimp only
  rw [← declaredLen, if_neg (Nat.not_lt.mpr hbody), splitTo_of_le hbody]
  rfl

theorem Message.decode_of_framed (h : Framed src) :
    Message.decode src = (decodeItems ((src.drop 4).take (declaredLen src))).map
      fun items => ⟨⟨UInt16.ofNat (Bytes.toNat (src.take 2))⟩, items⟩ := by
  unfold Framed at h
  have hbody : declaredLen src ≤ (src.drop 4).length := by
    rw [List.length_drop]
    omega
  rw [Message.decode, ensureLen_of_le (by omega), ok_bind]
  rw [← declaredLen, if_neg (Nat.not_lt.mpr hbody)]
  cases decodeItems ((src.drop 4).take (declaredLen src)) <;> rfl

/-- A message shorter than its header says is refused before the loop. -/
theorem Message.readHeader_of_not_framed (h : ¬ Framed src) :
    ∃ e, readHeader src = .error (.raised e) ∧ Message.decode src = .error e := by
  unfold Framed at h
  by_cases hhead : src.length < 4
  · refine ⟨.truncated 4 src.length, ?_, ?_⟩
    · rw [readHeader, ensureLen, if_pos hhead]
      rfl
    · rw [Message.decode, ensureLen, if_pos hhead]
      rfl
  · have hhead : 4 ≤ src.length := Nat.le_of_not_lt hhead
    have hbody : (src.drop 4).length < declaredLen src := by
      rw [List.length_drop]
      omega
    refine ⟨.lengthMismatch (declaredLen src) (src.drop 4).length, ?_, ?_⟩
    · rw [readHeader, ensureLen_of_le hhead, lift_ok, ok_bind, getTypeLen_of_le hhead, ok_bind]
      exact if_pos hbody
    · rw [Message.decode, ensureLen_of_le hhead, ok_bind]
      exact if_pos hbody

theorem Signal.readHeader_of_framed (h : Framed src) :
    readHeader src = .ok (⟨UInt16.ofNat (Bytes.toNat ((src.drop 4).take 2))⟩, src.drop 8) := by
  obtain ⟨hpfx, hlen⟩ := h
  have hhead : 4 ≤ (src.drop 4).length := by
    rw [List.length_drop]
    omega
  have hdrop₆ : (src.drop 4).drop 2 = src.drop 6 := List.drop_drop
  have hdrop₈ : (src.drop 4).drop 4 = src.drop 8 := List.drop_drop
  have hbody : (src.drop 8).length = declaredLen src := by
    rw [List.length_drop]
    omega
  rw [readHeader, ensureLen_of_le (by omega), lift_ok, ok_bind, splitTo_of_le (by omega), ok_bind]
  dsimp only
  rw [if_neg (not_not.mpr hpfx), getTypeLen_of_le hhead, ok_bind, hdrop₆, hdrop₈, ← declaredLen]
  dsimp only
  rw [if_neg (not_not.mpr hbody), splitTo_of_le hbody.ge, ok_bind, List.take_of_length_le hbody.le]

theorem Signal.decode_of_framed (h : Framed src) :
    Signal.decode src = (decodeItems (src.drop 8)).map
      fun items => ⟨⟨UInt16.ofNat (Bytes.toNat ((src.drop 4).take 2))⟩, items⟩ := by
  obtain ⟨hpfx, hlen⟩ := h
  have hbody : (src.drop 8).length = declaredLen src := by
    rw [List.length_drop]
    omega
  rw [Signal.decode, ensureLen_of_le (by omega), ok_bind, if_neg (not_not.mpr hpfx)]
  rw [← declaredLen, if_neg (not_not.mpr hbody)]
  cases decodeItems (src.drop 8) <;> rfl

/-- A datagram that is no signal of the declared length is refused before the loop. -/
theorem Signal.readHeader_of_not_framed (h : ¬ Framed src) :
    ∃ e, readHeader src = .error (.raised e) ∧ Signal.decode src = .error e := by
  by_cases hhead : src.length < 8
  · refine ⟨.truncated 8 src.length, ?_, ?_⟩
    · rw [readHeader, ensureLen, if_pos hhead]
      rfl
    · rw [Signal.decode, ensureLen, if_pos hhead]
      rfl
  have hhead : 8 ≤ src.length := Nat.le_of_not_lt hhead
  rw [readHeader, Signal.decode, ensureLen_of_le hhead, lift_ok, ok_bind, ok_bind,
    splitTo_of_le (by omega), ok_bind]
  by_cases hpfx : src.take 4 = SIGNAL_PREFIX
  · have hbody : (src.drop 8).length ≠ declaredLen src := by
      rw [List.length_drop]
      intro hlen
      exact h ⟨hpfx, by omega⟩
    have hdrop₆ : (src.drop 4).drop 2 = src.drop 6 := List.drop_drop
    have hdrop₈ : (src.drop 4).drop 4 = src.drop 8 := List.drop_drop
    refine ⟨.lengthMismatch (declaredLen src) (src.drop 8).length, ?_, ?_⟩
    · dsimp only
      rw [if_neg (not_not.mpr hpfx), getTypeLen_of_le (by rw [List.length_drop]; omega), ok_bind,
        hdrop₆, hdrop₈]
      exact if_pos hbody
    · rw [if_neg (not_not.mpr hpfx)]
      exact if_pos hbody
  · exact ⟨.missingSignalPrefix, if_pos hpfx, if_pos hpfx⟩

end

end Dlep
