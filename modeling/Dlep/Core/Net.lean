-- SUMMARY: Address predicates of the standard library and the parts of a socket address.
import Dlep.Core.Types

/-!
# Addresses and endpoints

The predicates on IP addresses that discovery and the packet monitor use, as the
standard library defines them, and reading and setting parts of a socket address.
-/

namespace Dlep

namespace Ipv4Addr

def isUnspecified (a : Ipv4Addr) : Bool := decide (a = 0)

/-- `224.0.0.0/4`. -/
def isMulticast (a : Ipv4Addr) : Bool := decide (224 ≤ a.toNat / 2 ^ 24 ∧ a.toNat / 2 ^ 24 ≤ 239)

end Ipv4Addr

namespace Ipv6Addr

def isUnspecified (a : Ipv6Addr) : Bool := decide (a = 0)

/-- `ff00::/8`. -/
def isMulticast (a : Ipv6Addr) : Bool := decide (a >>> 112 &&& 0xff00 = 0xff00)

/-- `fe80::/10`. -/
def isUnicastLinkLocal (a : Ipv6Addr) : Bool := decide (a >>> 112 &&& 0xffc0 = 0xfe80)

end Ipv6Addr

namespace SocketAddr

def port : SocketAddr → UInt16
  | .v4 _ port => port
  | .v6 _ port _ _ => port

def setPort : SocketAddr → UInt16 → SocketAddr
  | .v4 ip _, port => .v4 ip port
  | .v6 ip _ flowinfo scopeId, port => .v6 ip port flowinfo scopeId

def isIpv6 : SocketAddr → Bool
  | .v4 .. => false
  | .v6 .. => true

/-- `addr.ip().is_unspecified()`. -/
def isUnspecified : SocketAddr → Bool
  | .v4 ip _ => ip.isUnspecified
  | .v6 ip _ _ _ => ip.isUnspecified

/-- `addr.ip().is_multicast()`. -/
def isMulticast : SocketAddr → Bool
  | .v4 ip _ => ip.isMulticast
  | .v6 ip _ _ _ => ip.isMulticast

end SocketAddr

end Dlep
