-- SUMMARY: The modem's discovery state machine and its Peer Offers: valid, unchanged on the wire, naming one endpoint.
import Dlep.Core.Codec.RoundTrip
import Dlep.Fsm.Discovery

/-!
# Offers of a modem

The modem's side of discovery (`discovery_modem.rs`). A modem answers every valid
Peer Discovery with a Peer Offer that carries its description and one Connection
Point. Both signals are their own normal form, so the peer decodes what was built.
-/

namespace Dlep

/-! ## The state machine -/

/-- The Connection Point of an endpoint. -/
def SocketAddr.connectionPoint (useTls : Bool) : SocketAddr → DataItem
  | .v4 addr port => .ipv4ConnectionPoint ⟨useTls⟩ addr (some port)
  | .v6 addr port _ _ => .ipv6ConnectionPoint ⟨useTls⟩ addr (some port)

/-- `build_peer_offer`. -/
def buildPeerOffer (peerDescription : String) (tcpEndpoint : SocketAddr) (useTls : Bool) : Signal :=
  ⟨.peerOffer, [.peerType .default peerDescription, tcpEndpoint.connectionPoint useTls]⟩

inductive ModemDiscoveryState where
  | listening
  | offerBurst
  deriving DecidableEq, Repr

structure ModemDiscoveryFsm where
  state : ModemDiscoveryState
  tcpEndpoint : SocketAddr
  peerDescription : String
  useTls : Bool
  deriving DecidableEq, Repr

namespace ModemDiscoveryFsm

def new (tcpEndpoint : SocketAddr) (peerDescription : String) (useTls : Bool) :
    ModemDiscoveryFsm := ⟨.listening, tcpEndpoint, peerDescription, useTls⟩

/-- The offer of this modem. -/
def offer (fsm : ModemDiscoveryFsm) : Signal :=
  buildPeerOffer fsm.peerDescription fsm.tcpEndpoint fsm.useTls

def step (fsm : ModemDiscoveryFsm) : FsmEvent → ModemDiscoveryFsm × List FsmAction
  | .recvSignal signal source =>
    if signal.signalType ≠ .peerDiscovery then (fsm, [])
    else if !validSignal signal then (fsm, [])
    else ({ fsm with state := .offerBurst }, [.sendSignal fsm.offer (.unicast source)])
  | .appShutdown _ => ({ fsm with state := .listening }, [])
  | _ => (fsm, [])

end ModemDiscoveryFsm

/-! ## The signals on the wire -/

section

variable {description : String} {endpoint : SocketAddr} {useTls : Bool} {bytes : List UInt8}

/-- An encodable item that the grammar has and that was not seen goes through. -/
theorem validItems_cons {items : List DataItem} {item : DataItem} {offer peerType after : Bool}
    {seen : List (List UInt8)} (hafter : afterItem offer peerType item = some after)
    (hencodable : item.Encodable) (hnew : item.tlv ∉ seen) :
    validItems offer peerType seen (item :: items) =
      validItems offer after (item.tlv :: seen) items := by
  rw [validItems, hafter]
  simp only [DataItem.encode_of_encodable hencodable, List.nil_append, if_neg hnew]

theorem validSignal_peerDiscovery
    (h : DataItem.Encodable (.peerType .default description)) :
    validSignal (buildPeerDiscovery description) = true := by
  unfold validSignal buildPeerDiscovery
  rw [validItems_cons rfl h (List.not_mem_nil)]
  rfl

/-- TLVs of different types differ. -/
theorem tlv_ne {a b : DataItem} (h : a.typeId.id ≠ b.typeId.id) : a.tlv ≠ b.tlv := by
  intro heq
  have htake := congrArg (List.take 2) heq
  simp only [DataItem.tlv, List.append_assoc, Bytes.take_ofNat_append] at htake
  have hnat := congrArg Bytes.toNat htake
  rw [toNat_bytes_u16, toNat_bytes_u16] at hnat
  exact h (UInt16.toNat_inj.mp hnat)

theorem tlv_connectionPoint_ne (endpoint : SocketAddr) (useTls : Bool) (description : String) :
    (endpoint.connectionPoint useTls).tlv ≠ (DataItem.peerType .default description).tlv := by
  refine tlv_ne ?_
  cases endpoint <;> simp [SocketAddr.connectionPoint, DataItem.typeId, DataItemType.peerType,
    DataItemType.ipv4ConnectionPoint, DataItemType.ipv6ConnectionPoint]

theorem validSignal_peerOffer
    (h : ∀ i ∈ (buildPeerOffer description endpoint useTls).dataItems, i.Encodable) :
    validSignal (buildPeerOffer description endpoint useTls) = true := by
  obtain ⟨htype, hpoint⟩ := List.forall_mem_cons.mp h
  have hpoint := List.forall_mem_singleton.mp hpoint
  have hafter : afterItem true true (endpoint.connectionPoint useTls) = some true := by
    cases endpoint <;> rfl
  unfold validSignal
  have hseen : (endpoint.connectionPoint useTls).tlv ∉ [(DataItem.peerType .default description).tlv] :=
    fun hmem => tlv_connectionPoint_ne endpoint useTls description (List.mem_singleton.mp hmem)
  rw [buildPeerOffer, validItems_cons rfl htype (List.not_mem_nil)]
  exact (validItems_cons hafter hpoint hseen).trans rfl

/-- A Peer Discovery comes out of the wire as it went in, and valid. -/
theorem peerDiscovery_round_trip
    (h : (buildPeerDiscovery description).encode = .ok bytes) :
    Signal.decode bytes = .ok (buildPeerDiscovery description) ∧
      validSignal (buildPeerDiscovery description) = true := by
  have hencodable := (Signal.encode_eq h).1
  refine ⟨Signal.decode_encode ?_ h, validSignal_peerDiscovery ?_⟩
  · exact List.forall_mem_singleton.mpr trivial
  · exact List.forall_mem_singleton.mp hencodable

/-- A Peer Offer comes out of the wire as it went in, and valid. -/
theorem peerOffer_round_trip
    (h : (buildPeerOffer description endpoint useTls).encode = .ok bytes) :
    Signal.decode bytes = .ok (buildPeerOffer description endpoint useTls) ∧
      validSignal (buildPeerOffer description endpoint useTls) = true := by
  have htyped : (endpoint.connectionPoint useTls).Typed := by cases endpoint <;> trivial
  have hnorm : (buildPeerOffer description endpoint useTls).norm =
      buildPeerOffer description endpoint useTls := by
    cases endpoint <;> rfl
  refine ⟨?_, validSignal_peerOffer (Signal.encode_eq h).1⟩
  rw [← hnorm]
  exact Signal.decode_encode
    (List.forall_mem_cons.mpr ⟨trivial, List.forall_mem_singleton.mpr htyped⟩) h

end

/-! ## The endpoint of an offer -/

/-- The address a router makes of an advertised endpoint in an offer from `source`. -/
def SocketAddr.readFrom (source : SocketAddr) : SocketAddr → SocketAddr
  | .v4 ip port => .v4 ip port
  | .v6 ip port _ _ =>
    .v6 ip port 0 <|
      match source with
      | .v6 _ _ _ scopeId => if ip.isUnicastLinkLocal then scopeId else 0
      | .v4 .. => 0

/-- A modem's offer names its one endpoint, if that can be dialled. -/
theorem offerEndpoints_peerOffer (description : String) (endpoint source : SocketAddr)
    (useTls : Bool) :
    offerEndpoints (buildPeerOffer description endpoint useTls) source =
      [⟨SocketAddr.readFrom source endpoint, useTls⟩].filter OfferEndpoint.usable := by
  have hcandidates : candidates (buildPeerOffer description endpoint useTls) source =
      [⟨SocketAddr.readFrom source endpoint, useTls⟩] := by
    cases endpoint <;> rfl
  rw [offerEndpoints, hcandidates]
  cases h : OfferEndpoint.usable ⟨SocketAddr.readFrom source endpoint, useTls⟩ <;>
    simp only [List.filter, h] <;> rfl

theorem extractPeerDescription_peerOffer (description : String) (endpoint : SocketAddr)
    (useTls : Bool) :
    extractPeerDescription (buildPeerOffer description endpoint useTls) = some description := rfl

end Dlep
