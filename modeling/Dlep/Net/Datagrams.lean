-- SUMMARY: The discovery socket: which datagrams it hands up, with which metadata, and what it sends.
import Dlep.Core.Codec.RoundTrip
import Dlep.Core.Net
import Dlep.Net.Monitor

/-!
# Discovery datagrams

`discovery.rs` of the network crate. The kernel reports a datagram together with
control messages: the ingress interface, a local address and the TTL or hop limit.
The socket drops what arrived on another interface or from beyond the link before
it decodes anything, and reports missing metadata as an error.
-/

namespace Dlep

/-! ## The socket -/

structure Ipv4Interface where
  index : UInt32
  address : Ipv4Addr
  deriving DecidableEq, Repr

structure Ipv6Interface where
  index : UInt32
  address : Ipv6Addr
  deriving DecidableEq, Repr

/-- `DiscoverySocket`: the group it sends to and the interface it was bound to. -/
structure DiscoverySocket where
  group : SocketAddr
  interface : Option Ipv4Interface
  interfaceV6 : Option Ipv6Interface
  deriving DecidableEq, Repr

/-- `interface_index`. -/
def DiscoverySocket.interfaceIndex (socket : DiscoverySocket) : Option UInt32 :=
  (socket.interface.map Ipv4Interface.index).or (socket.interfaceV6.map Ipv6Interface.index)

/-- The control messages the receive loop reads. An IPv6 interface index is a `u32` or a
`c_int`, by the C library. -/
inductive ControlMessage where
  | ipv4PacketInfo (ifindex : Int32) (specDst : Ipv4Addr)
  | ipv6PacketInfo (ifindex : ℤ)
  | ipv4Ttl (t : Int32)
  | ipv6HopLimit (t : Int32)
  deriving DecidableEq, Repr

/-- What `recvmsg` reports: the bytes sent, the sender if it is an IP address, and the
control messages; `controlTruncated` is `MSG_CTRUNC`. -/
structure Datagram where
  payload : List UInt8
  source : Option SocketAddr
  controls : List ControlMessage
  controlTruncated : Bool
  deriving DecidableEq, Repr

/-- The size of the receive buffer; a longer datagram sets `MSG_TRUNC`. -/
def PAYLOAD_SIZE : ℕ := 1500

structure ReceivedSignal where
  signal : Signal
  source : SocketAddr
  ttl : UInt8
  localAddr : IpAddr
  interfaceIndex : UInt32
  deriving DecidableEq, Repr

/-- The errors of a receive. The first two are of kind `InvalidData`. -/
inductive RecvError where
  | truncated
  | malformed (error : CodecError)
  | noSender
  | noInterfaceIndex
  | noTtl
  | noPacketInfo
  deriving DecidableEq, Repr

/-- `e.kind() == ErrorKind::InvalidData`. -/
def RecvError.isInvalidData : RecvError → Bool
  | .truncated | .malformed _ => true
  | _ => false

/-- What becomes of a datagram: handed up, dropped without a trace, or an error. -/
inductive Reception where
  | received (r : ReceivedSignal)
  | filtered
  | failed (error : RecvError)
  deriving DecidableEq, Repr

/-! ## Receiving -/

/-- `ifindex_from_pktinfo`. -/
def ifindexFromPktinfo (raw : ℤ) : Option UInt32 :=
  if 0 ≤ raw ∧ raw < 2 ^ 32 then some (UInt32.ofNat raw.toNat) else none

/-- `set_scope_id`, on a link-local IPv6 address only. -/
def SocketAddr.scopeLinkLocal (index : UInt32) : SocketAddr → SocketAddr
  | .v6 ip port flowinfo scopeId =>
    .v6 ip port flowinfo (if ip.isUnicastLinkLocal then index else scopeId)
  | addr => addr

/-- What the receive loop has read from the control messages. -/
structure Ancillary where
  source : SocketAddr
  ttl : Option UInt8
  localAddr : Option IpAddr
  interfaceIndex : Option UInt32
  deriving DecidableEq, Repr

/-- One control message. IPv6 packet information names the destination, which may be a
group, so the local address is the interface's. -/
def DiscoverySocket.readControl (socket : DiscoverySocket) (a : Ancillary) :
    ControlMessage → Ancillary
  | .ipv4PacketInfo ifindex specDst =>
    { a with localAddr := some (.v4 specDst), interfaceIndex := some ifindex.toUInt32 }
  | .ipv6PacketInfo ifindex =>
    let index := ifindexFromPktinfo ifindex
    { a with
      interfaceIndex := index
      localAddr := socket.interfaceV6.map fun i => .v6 i.address
      source :=
        match index with
        | some index => a.source.scopeLinkLocal index
        | none => a.source }
  | .ipv4Ttl t => { a with ttl := some t.toUInt32.toUInt8 }
  | .ipv6HopLimit t => { a with ttl := some t.toUInt32.toUInt8 }

def REQUIRED_TTL : UInt8 := 255

/-- `is_gtsm_valid`. -/
def isGtsmValid (ttl : UInt8) : Bool := decide (ttl = REQUIRED_TTL)

/-- The interface was selected and the datagram arrived on another one. -/
def DiscoverySocket.foreign (socket : DiscoverySocket) (index : UInt32) : Bool :=
  socket.interfaceIndex.any fun selected => decide (selected ≠ index)

/-- `recv_with_metadata`, for one datagram. -/
def DiscoverySocket.receive (socket : DiscoverySocket) (d : Datagram) : Reception :=
  if PAYLOAD_SIZE < d.payload.length ∨ d.controlTruncated then .failed .truncated
  else
    match d.source with
    | none => .failed .noSender
    | some source =>
      let a := d.controls.foldl socket.readControl ⟨source, none, none, none⟩
      match a.interfaceIndex.filter fun index => decide (index ≠ 0) with
      | none => .failed .noInterfaceIndex
      | some index =>
        if socket.foreign index then .filtered
        else
          match a.ttl with
          | none => .failed .noTtl
          | some ttl =>
            if !isGtsmValid ttl then .filtered
            else
              match Signal.decode d.payload with
              | .error e => .failed (.malformed e)
              | .ok signal =>
                match a.localAddr with
                | none => .failed .noPacketInfo
                | some localAddr => .received ⟨signal, a.source, ttl, localAddr, index⟩

namespace ControlMessage

def ttl : ControlMessage → Option (Option UInt8)
  | .ipv4Ttl t | .ipv6HopLimit t => some (some t.toUInt32.toUInt8)
  | _ => none

/-- The interface index that packet information names, if it names one. -/
def index : ControlMessage → Option (Option UInt32)
  | .ipv4PacketInfo ifindex _ => some (some ifindex.toUInt32)
  | .ipv6PacketInfo ifindex => some (ifindexFromPktinfo ifindex)
  | _ => none

def localAddr (socket : DiscoverySocket) : ControlMessage → Option (Option IpAddr)
  | .ipv4PacketInfo _ specDst => some (some (.v4 specDst))
  | .ipv6PacketInfo _ => some (socket.interfaceV6.map fun i => .v6 i.address)
  | _ => none

/-- The interface through which IPv6 packet information says the sender is reached. -/
def scope : ControlMessage → Option UInt32
  | .ipv6PacketInfo ifindex => ifindexFromPktinfo ifindex
  | _ => none

end ControlMessage

/-- Which datagrams are handed up, and as what: whole ones that decode, with TTL 255, on the
selected interface. Of each kind of metadata the last control message counts. -/
structure DiscoverySocket.Admits (socket : DiscoverySocket) (d : Datagram) (r : ReceivedSignal) :
    Prop where
  whole : d.payload.length ≤ PAYLOAD_SIZE
  untruncated : d.controlTruncated = false
  decoded : Signal.decode d.payload = .ok r.signal
  source : ∃ sender, d.source = some sender ∧
    r.source = (d.controls.filterMap ControlMessage.scope).foldl (·.scopeLinkLocal ·) sender
  ttl : (d.controls.filterMap ControlMessage.ttl).getLast? = some (some r.ttl)
  onLink : r.ttl = REQUIRED_TTL
  index : (d.controls.filterMap ControlMessage.index).getLast? = some (some r.interfaceIndex)
  named : r.interfaceIndex ≠ 0
  selected : ∀ index, socket.interfaceIndex = some index → r.interfaceIndex = index
  localAddr : (d.controls.filterMap (ControlMessage.localAddr socket)).getLast? = some (some r.localAddr)

section

variable {socket : DiscoverySocket} {d : Datagram} {r : ReceivedSignal}

/-- A field that each control message leaves or overwrites holds what the last one wrote. -/
theorem DiscoverySocket.foldl_readControl (socket : DiscoverySocket) {α : Type} (field : Ancillary → Option α)
    (written : ControlMessage → Option (Option α))
    (h : ∀ a c, field (socket.readControl a c) = (written c).getD (field a))
    (controls : List ControlMessage) (a : Ancillary) :
    field (controls.foldl socket.readControl a) =
      (controls.filterMap written).getLast?.getD (field a) := by
  induction controls generalizing a with
  | nil => rfl
  | cons c controls ih =>
    rw [List.foldl_cons, ih, h, List.filterMap_cons]
    cases written c with
    | none => rfl
    | some w =>
      rw [List.getLast?_cons]
      rfl

theorem DiscoverySocket.foldl_source (controls : List ControlMessage) (a : Ancillary) :
    (controls.foldl socket.readControl a).source =
      (controls.filterMap ControlMessage.scope).foldl (·.scopeLinkLocal ·) a.source := by
  induction controls generalizing a with
  | nil => rfl
  | cons c controls ih =>
    rw [List.foldl_cons, ih, List.filterMap_cons]
    cases c with
    | ipv6PacketInfo ifindex =>
      simp only [readControl, ControlMessage.scope]
      cases ifindexFromPktinfo ifindex <;> rfl
    | _ => rfl

theorem getD_none_eq_some {α : Type} {o : Option (Option α)} {a : α} :
    o.getD none = some a ↔ o = some (some a) := by
  cases o <;> simp

/-- A signal is handed up exactly as `Admits` says. -/
theorem DiscoverySocket.receive_eq_received :
    socket.receive d = .received r ↔ socket.Admits d r := by
  have httl := socket.foldl_readControl Ancillary.ttl ControlMessage.ttl
    (by rintro a (_ | _ | _ | _) <;> rfl) d.controls
  have hindex := socket.foldl_readControl Ancillary.interfaceIndex ControlMessage.index
    (by rintro a (_ | _ | _ | _) <;> rfl) d.controls
  have hlocal := socket.foldl_readControl Ancillary.localAddr
    (ControlMessage.localAddr socket) (by rintro a (_ | _ | _ | _) <;> rfl) d.controls
  unfold receive
  constructor
  · intro h
    split at h
    · cases h
    · rename_i hwhole
      split at h
      · cases h
      · rename_i sender hsender
        dsimp only at h
        split at h
        · cases h
        · rename_i index hnamed
          obtain ⟨hnamed, hne⟩ := Option.filter_eq_some_iff.mp hnamed
          split at h
          · cases h
          · rename_i hforeign
            split at h
            · cases h
            · rename_i ttl hsome
              split at h
              · cases h
              · rename_i hvalid
                split at h
                · cases h
                · rename_i signal hdecode
                  split at h
                  · cases h
                  · rename_i localAddr hreported
                    cases h
                    rw [not_or, Nat.not_lt, Bool.not_eq_true] at hwhole
                    refine ⟨hwhole.1, hwhole.2, hdecode, ⟨sender, hsender, foldl_source _ _⟩, ?_,
                      by simpa [isGtsmValid] using hvalid, ?_, by simpa using hne, ?_, ?_⟩
                    · exact getD_none_eq_some.mp ((httl _).symm.trans hsome)
                    · exact getD_none_eq_some.mp ((hindex _).symm.trans hnamed)
                    · intro selected hselected
                      have hsame : selected = index := by simpa [foreign, hselected] using hforeign
                      exact hsame.symm
                    · exact getD_none_eq_some.mp ((hlocal _).symm.trans hreported)
  · rintro ⟨hwhole, huntruncated, hdecode, ⟨sender, hsender, hsource⟩, httl', honLink, hindex', hnamed,
      hselected, hlocal'⟩
    have hforeign : socket.foreign r.interfaceIndex = false := by
      unfold foreign
      cases h : socket.interfaceIndex with
      | none => rfl
      | some index => simp [hselected index h]
    have hfilter : (some r.interfaceIndex).filter (fun index => decide (index ≠ 0)) =
        some r.interfaceIndex := by
      simp [Option.filter, hnamed]
    have hvalid : isGtsmValid r.ttl = true := decide_eq_true honLink
    rw [if_neg (by simp [hwhole, huntruncated]), hsender]
    simp only [httl, hindex, hlocal, httl', hindex', hlocal', Option.getD_some, hfilter, hforeign,
      hvalid, hdecode, foldl_source, ← hsource, Bool.false_eq_true, if_false, Bool.not_true]

end

/-! ## Sending -/

/-- `send_unicast`, up to the system call: the bytes it hands to the kernel. -/
def DiscoverySocket.sendUnicast (socket : DiscoverySocket) (signal : Signal) (dest : SocketAddr) :
    Option (List UInt8) :=
  if dest.isIpv6 ≠ socket.interfaceV6.isSome then none
  else
    match signal.encode with
    | .ok bytes => some bytes
    | .error _ => none

theorem DiscoverySocket.encode_of_sendUnicast {socket : DiscoverySocket} {signal : Signal}
    {dest : SocketAddr} {bytes : List UInt8} (h : socket.sendUnicast signal dest = some bytes) :
    signal.encode = .ok bytes := by
  unfold sendUnicast at h
  split at h
  · cases h
  · split at h
    · rename_i hencode
      cases h
      exact hencode
    · cases h

/-- `send_to_group`. -/
def DiscoverySocket.sendToGroup (socket : DiscoverySocket) (signal : Signal) :
    Option (List UInt8) := socket.sendUnicast signal socket.group

end Dlep
