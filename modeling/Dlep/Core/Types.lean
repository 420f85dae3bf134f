-- SUMMARY: Wire identifiers, addresses, metrics, data items and messages of the DLEP core crate.
import Mathlib.Data.Nat.Notation
import Dlep.Lib.FinMap

/-!
# Core types

The data model of `dlep-core`: the 16-bit identifier newtypes, status codes,
MAC and IP addresses, link metrics, typed data items, messages and signals.
Fixed-width fields keep their width, a duration carries the bound of its seconds
counter, and an IP network carries the bound of its prefix length.
-/

namespace Dlep

/-! ## Standard library types -/

/-- A sequence of fallible steps succeeds through a successful first step. -/
theorem bind_eq_ok {ε α β : Type} {x : Except ε α} {f : α → Except ε β} {b : β} :
    (x >>= f) = .ok b ↔ ∃ a, x = .ok a ∧ f a = .ok b := by
  cases x <;> simp [bind, Except.bind]

/-- A `std::time::Duration`: nanoseconds, with a 64-bit count of whole seconds. -/
structure Duration where
  nanos : ℕ
  lt : nanos < 2 ^ 64 * 10 ^ 9
  deriving DecidableEq, Repr

namespace Duration

def zero : Duration := ⟨0, by decide⟩

def ofMillis (ms : UInt64) : Duration :=
  ⟨ms.toNat * 10 ^ 6, by have := ms.toNat_lt; omega⟩

def ofMicros (us : UInt64) : Duration :=
  ⟨us.toNat * 10 ^ 3, by have := us.toNat_lt; omega⟩

def asMillis (d : Duration) : ℕ := d.nanos / 10 ^ 6

def asMicros (d : Duration) : ℕ := d.nanos / 10 ^ 3

def checkedMul (d : Duration) (n : ℕ) : Option Duration :=
  if h : d.nanos * n < 2 ^ 64 * 10 ^ 9 then some ⟨d.nanos * n, h⟩ else none

/-- `Duration::MAX`. -/
def max : Duration := ⟨2 ^ 64 * 10 ^ 9 - 1, by decide⟩

def saturatingMul (d : Duration) (n : ℕ) : Duration := (d.checkedMul n).getD max

end Duration

abbrev Ipv4Addr : Type := BitVec 32
abbrev Ipv6Addr : Type := BitVec 128

/-- An `ipnet` network: an address, host bits included, and a prefix length. -/
structure IpNet (w : ℕ) where
  addr : BitVec w
  prefixLen : Fin (w + 1)
  deriving DecidableEq, Repr

abbrev Ipv4Net : Type := IpNet 32
abbrev Ipv6Net : Type := IpNet 128

namespace IpNet

variable {w : ℕ}

def netmask (n : IpNet w) : BitVec w := ~~~(BitVec.allOnes w >>> n.prefixLen.val)

/-- The network address: host bits cleared. -/
def network (n : IpNet w) : BitVec w := n.addr &&& n.netmask

def trunc (n : IpNet w) : IpNet w := ⟨n.network, n.prefixLen⟩

@[simp] theorem trunc_prefixLen (n : IpNet w) : n.trunc.prefixLen = n.prefixLen := rfl

@[simp] theorem trunc_trunc (n : IpNet w) : n.trunc.trunc = n.trunc := by
  simp [trunc, network, netmask, BitVec.and_assoc]

end IpNet

/-- A `std::net::SocketAddr`. -/
inductive SocketAddr where
  | v4 (ip : Ipv4Addr) (port : UInt16)
  | v6 (ip : Ipv6Addr) (port : UInt16) (flowinfo scopeId : UInt32)
  deriving DecidableEq, Repr

/-! ## Identifiers -/

structure SignalType where
  id : UInt16
  deriving DecidableEq, Repr

structure MessageType where
  id : UInt16
  deriving DecidableEq, Repr

structure DataItemType where
  id : UInt16
  deriving DecidableEq, Repr

structure ExtensionId where
  id : UInt16
  deriving DecidableEq, Repr

namespace SignalType

def peerDiscovery : SignalType := ⟨1⟩
def peerOffer : SignalType := ⟨2⟩

end SignalType

namespace MessageType

def sessionInitialization : MessageType := ⟨1⟩
def sessionInitializationResponse : MessageType := ⟨2⟩
def sessionUpdate : MessageType := ⟨3⟩
def sessionUpdateResponse : MessageType := ⟨4⟩
def sessionTermination : MessageType := ⟨5⟩
def sessionTerminationResponse : MessageType := ⟨6⟩
def destinationUp : MessageType := ⟨7⟩
def destinationUpResponse : MessageType := ⟨8⟩
def destinationAnnounce : MessageType := ⟨9⟩
def destinationAnnounceResponse : MessageType := ⟨10⟩
def destinationDown : MessageType := ⟨11⟩
def destinationDownResponse : MessageType := ⟨12⟩
def destinationUpdate : MessageType := ⟨13⟩
def linkCharacteristicsRequest : MessageType := ⟨14⟩
def linkCharacteristicsResponse : MessageType := ⟨15⟩
def heartbeat : MessageType := ⟨16⟩

end MessageType

namespace DataItemType

def status : DataItemType := ⟨1⟩
def ipv4ConnectionPoint : DataItemType := ⟨2⟩
def ipv6ConnectionPoint : DataItemType := ⟨3⟩
def peerType : DataItemType := ⟨4⟩
def heartbeatInterval : DataItemType := ⟨5⟩
def extensionsSupported : DataItemType := ⟨6⟩
def macAddress : DataItemType := ⟨7⟩
def ipv4Address : DataItemType := ⟨8⟩
def ipv6Address : DataItemType := ⟨9⟩
def ipv4AttachedSubnet : DataItemType := ⟨10⟩
def ipv6AttachedSubnet : DataItemType := ⟨11⟩
def maximumDataRateReceive : DataItemType := ⟨12⟩
def maximumDataRateTransmit : DataItemType := ⟨13⟩
def currentDataRateReceive : DataItemType := ⟨14⟩
def currentDataRateTransmit : DataItemType := ⟨15⟩
def latency : DataItemType := ⟨16⟩
def resources : DataItemType := ⟨17⟩
def relativeLinkQualityReceive : DataItemType := ⟨18⟩
def relativeLinkQualityTransmit : DataItemType := ⟨19⟩
def mtu : DataItemType := ⟨20⟩

/-- The four Layer 3 address items, ids 8 to 11. -/
def isAddress (t : DataItemType) : Bool := decide (8 ≤ t.id) && decide (t.id ≤ 11)

/-- The nine metric items, ids 12 to 20. -/
def isMetric (t : DataItemType) : Bool := decide (12 ≤ t.id) && decide (t.id ≤ 20)

end DataItemType

/-- RFC 8175 §7.3.1 minimum, in milliseconds. -/
def MIN_HEARTBEAT_INTERVAL_MS : UInt32 := 1000

def DEFAULT_PORT : UInt16 := 854

/-! ## Status codes -/

structure StatusCode where
  code : UInt8
  deriving DecidableEq, Repr

namespace StatusCode

def success : StatusCode := ⟨0⟩
def requestDenied : StatusCode := ⟨2⟩
def unknownMessage : StatusCode := ⟨128⟩
def unexpectedMessage : StatusCode := ⟨129⟩
def invalidData : StatusCode := ⟨130⟩
def invalidDestination : StatusCode := ⟨131⟩
def timedOut : StatusCode := ⟨132⟩
def shuttingDown : StatusCode := ⟨255⟩

def terminatesSession (s : StatusCode) : Bool := decide (128 ≤ s.code)

end StatusCode

/-! ## MAC addresses -/

inductive MacAddressFormat where
  | eui48
  | eui64
  deriving DecidableEq, Repr

inductive MacAddress where
  | eui48 (octets : Vector UInt8 6)
  | eui64 (octets : Vector UInt8 8)
  deriving DecidableEq, Repr

def MacAddress.asBytes : MacAddress → List UInt8
  | .eui48 o => o.toList
  | .eui64 o => o.toList

def MacAddress.len : MacAddress → ℕ
  | .eui48 _ => 6
  | .eui64 _ => 8

@[simp] theorem MacAddress.length_asBytes (m : MacAddress) : m.asBytes.length = m.len := by
  cases m <;> simp [asBytes, len]

def MacAddressFormat.accepts : MacAddressFormat → MacAddress → Bool
  | .eui48, .eui48 _ => true
  | .eui64, .eui64 _ => true
  | _, _ => false

/-! ## Link metrics -/

structure LinkMetrics where
  maxDataRateRxBps : UInt64
  maxDataRateTxBps : UInt64
  currentDataRateRxBps : UInt64
  currentDataRateTxBps : UInt64
  latency : Duration
  resources : Option UInt8
  rlqRx : Option UInt8
  rlqTx : Option UInt8
  mtu : Option UInt16
  deriving DecidableEq, Repr

namespace LinkMetrics

/-- `LinkMetrics::default()`. -/
def default : LinkMetrics :=
  ⟨0, 0, 0, 0, .zero, none, none, none, none⟩

/-- Every supplied optional field was declared at initialization. -/
def supportedBy (m initial : LinkMetrics) : Bool :=
  (m.resources.isNone || initial.resources.isSome)
    && (m.rlqRx.isNone || initial.rlqRx.isSome)
    && (m.rlqTx.isNone || initial.rlqTx.isSome)
    && (m.mtu.isNone || initial.mtu.isSome)

end LinkMetrics

structure LinkCharacteristics where
  currentDataRateRxBps : Option UInt64
  currentDataRateTxBps : Option UInt64
  latency : Option Duration
  deriving DecidableEq, Repr

namespace LinkCharacteristics

/-- `LinkCharacteristics::default()`. -/
def default : LinkCharacteristics := ⟨none, none, none⟩

def isEmpty (c : LinkCharacteristics) : Bool :=
  c.currentDataRateRxBps.isNone && c.currentDataRateTxBps.isNone && c.latency.isNone

end LinkCharacteristics

/-! ## Data items -/

/-- An untyped TLV. -/
structure RawDataItem where
  typeId : DataItemType
  value : List UInt8
  deriving DecidableEq, Repr

structure PeerFlags where
  smi : Bool
  deriving DecidableEq, Repr

/-- `PeerFlags::default()`. -/
def PeerFlags.default : PeerFlags := ⟨false⟩

structure ConnectionPointFlags where
  useTls : Bool
  deriving DecidableEq, Repr

inductive DataItem where
  | status (code : StatusCode) (text : String)
  | ipv4ConnectionPoint (flags : ConnectionPointFlags) (addr : Ipv4Addr) (port : Option UInt16)
  | ipv6ConnectionPoint (flags : ConnectionPointFlags) (addr : Ipv6Addr) (port : Option UInt16)
  | peerType (flags : PeerFlags) (description : String)
  | heartbeatInterval (d : Duration)
  | extensionsSupported (ids : List ExtensionId)
  | macAddress (mac : MacAddress)
  | ipv4Address (add : Bool) (addr : Ipv4Addr)
  | ipv6Address (add : Bool) (addr : Ipv6Addr)
  | ipv4AttachedSubnet (add : Bool) (subnet : Ipv4Net)
  | ipv6AttachedSubnet (add : Bool) (subnet : Ipv6Net)
  | maxDataRateReceive (bps : UInt64)
  | maxDataRateTransmit (bps : UInt64)
  | currentDataRateReceive (bps : UInt64)
  | currentDataRateTransmit (bps : UInt64)
  | latency (d : Duration)
  | resources (pct : UInt8)
  | relativeLinkQualityReceive (pct : UInt8)
  | relativeLinkQualityTransmit (pct : UInt8)
  | mtu (mtu : UInt16)
  | unknown (raw : RawDataItem)
  deriving DecidableEq, Repr

def DataItem.typeId : DataItem → DataItemType
  | .status .. => .status
  | .ipv4ConnectionPoint .. => .ipv4ConnectionPoint
  | .ipv6ConnectionPoint .. => .ipv6ConnectionPoint
  | .peerType .. => .peerType
  | .heartbeatInterval _ => .heartbeatInterval
  | .extensionsSupported _ => .extensionsSupported
  | .macAddress _ => .macAddress
  | .ipv4Address .. => .ipv4Address
  | .ipv6Address .. => .ipv6Address
  | .ipv4AttachedSubnet .. => .ipv4AttachedSubnet
  | .ipv6AttachedSubnet .. => .ipv6AttachedSubnet
  | .maxDataRateReceive _ => .maximumDataRateReceive
  | .maxDataRateTransmit _ => .maximumDataRateTransmit
  | .currentDataRateReceive _ => .currentDataRateReceive
  | .currentDataRateTransmit _ => .currentDataRateTransmit
  | .latency _ => .latency
  | .resources _ => .resources
  | .relativeLinkQualityReceive _ => .relativeLinkQualityReceive
  | .relativeLinkQualityTransmit _ => .relativeLinkQualityTransmit
  | .mtu _ => .mtu
  | .unknown r => r.typeId

/-! ## Messages and signals -/

structure Message where
  messageType : MessageType
  dataItems : List DataItem
  deriving DecidableEq, Repr

namespace Message

def new (messageType : MessageType) : Message := ⟨messageType, []⟩

def withItem (m : Message) (item : DataItem) : Message :=
  { m with dataItems := m.dataItems ++ [item] }

@[simp] theorem new_messageType (t : MessageType) : (new t).messageType = t := rfl
@[simp] theorem new_dataItems (t : MessageType) : (new t).dataItems = [] := rfl
@[simp] theorem withItem_messageType (m : Message) (i : DataItem) :
    (m.withItem i).messageType = m.messageType := rfl
@[simp] theorem withItem_dataItems (m : Message) (i : DataItem) :
    (m.withItem i).dataItems = m.dataItems ++ [i] := rfl

end Message

structure Signal where
  signalType : SignalType
  dataItems : List DataItem
  deriving DecidableEq, Repr

end Dlep
