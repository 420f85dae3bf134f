-- SUMMARY: The packet parser of the TCP monitor: which packets break the hop limit rule, and on which connection.
import Dlep.Core.Net
import Dlep.Lib.Bounds
import Dlep.Lib.Bytes

/-!
# Packets with a low hop limit

`low_ttl_connection` of `tcp_monitor.rs` gets IP packets as they came from the
network and looks for TCP segments whose hop limit is not 255. Every read of the
source is explicit: one that the source writes as an index or a slice can leave
its buffer, one that it writes with `get` ends the inspection. The parser accepts
a grammar of packets: an IP header, for IPv6 a chain of extension headers, and a
TCP header, all of them inside the declared length.
-/

namespace Dlep

variable {packet : List UInt8} {interface : UInt32} {kind next : UInt8} {header : List UInt8}
  {c : Connection}

open Bounds

/-- `Connection`; its field `local` is `localAddr` here. -/
structure Connection where
  localAddr : SocketAddr
  peer : SocketAddr
  deriving DecidableEq, Repr

inductive IpAddr where
  | v4 (ip : Ipv4Addr)
  | v6 (ip : Ipv6Addr)
  deriving DecidableEq, Repr

/-! ## The parser -/

/-- A step of the inspection: a value, the answer `None`, or a read out of bounds. -/
abbrev Inspection (α : Type) : Type := Except (Stop Unit) α

/-- `return None`. -/
def ignored {α : Type} : Inspection α := .error (.raised ())

/-- `xs.get(i)?`. -/
def getByte (xs : List UInt8) (i : ℕ) : Inspection UInt8 :=
  match xs[i]? with
  | some b => .ok b
  | none => ignored

/-- `xs.get(lo..hi)?`. -/
def getRange (xs : List UInt8) (lo hi : ℕ) : Inspection (List UInt8) :=
  if lo ≤ hi ∧ hi ≤ xs.length then .ok ((xs.take hi).drop lo) else ignored

/-- `u16::from_be_bytes([xs[i], xs[i + 1]])`. -/
def readU16 (xs : List UInt8) (i : ℕ) : Inspection ℕ := do
  let octets ← indices xs i 2
  .ok (Bytes.toNat octets)

/-- The size of an extension header. -/
def headerSize (kind : UInt8) (header : List UInt8) : Inspection ℕ :=
  if kind = 0 ∨ kind = 43 ∨ kind = 60 then do
    let len ← getByte header 1
    .ok ((len.toNat + 1) * 8)
  else if kind = 51 then do
    let len ← getByte header 1
    let size := (len.toNat + 2) * 4
    if size < 12 ∨ size % 8 ≠ 0 then ignored else .ok size
  else if kind = 44 then do
    let high ← getByte header 2
    let low ← getByte header 3
    if Bytes.toNat [high, low] &&& 0xfff8 ≠ 0 then ignored else .ok 8
  else ignored

/-- One pass of the loop over the extension headers: the kind of the next header, and the size. -/
def passHeader (packet : List UInt8) (length : ℕ) (kind : UInt8) (offset : ℕ) :
    Inspection (UInt8 × ℕ) := do
  let header ← getRange packet offset length
  let next ← getByte header 0
  let size ← headerSize kind header
  .ok (next, size)

theorem getByte_eq_ok {xs : List UInt8} {i : ℕ} {b : UInt8} :
    getByte xs i = .ok b ↔ xs[i]? = some b := by
  unfold getByte
  split
  · rename_i h
    simp [h]
  · rename_i h
    simp [h, ignored]

theorem getRange_eq_ok {xs header : List UInt8} {lo hi : ℕ} :
    getRange xs lo hi = .ok header ↔
      (lo ≤ hi ∧ hi ≤ xs.length) ∧ (xs.take hi).drop lo = header := by
  unfold getRange
  split
  · rename_i h
    simp [h]
  · rename_i h
    simp [h, ignored]

theorem le_of_headerSize {kind : UInt8} {size : ℕ} (h : headerSize kind header = .ok size) :
    8 ≤ size := by
  unfold headerSize at h
  split at h
  · obtain ⟨len, -, h⟩ := bind_eq_ok.mp h
    cases h
    omega
  · split at h
    · obtain ⟨len, -, h⟩ := bind_eq_ok.mp h
      dsimp only at h
      split at h
      · cases h
      · cases h
        omega
    · split at h
      · obtain ⟨high, -, h⟩ := bind_eq_ok.mp h
        obtain ⟨low, -, h⟩ := bind_eq_ok.mp h
        split at h
        · cases h
        · cases h
          exact le_rfl
      · cases h

theorem passHeader_eq_ok {length offset size : ℕ} :
    passHeader packet length kind offset = .ok (next, size) ↔
      (offset ≤ length ∧ length ≤ packet.length) ∧
      getByte ((packet.take length).drop offset) 0 = .ok next ∧
      headerSize kind ((packet.take length).drop offset) = .ok size := by
  unfold passHeader
  simp only [bind_eq_ok, getRange_eq_ok]
  constructor
  · rintro ⟨header, ⟨hrange, rfl⟩, first, hfirst, n, hsize, h⟩
    cases h
    exact ⟨hrange, hfirst, hsize⟩
  · rintro ⟨hrange, hfirst, hsize⟩
    exact ⟨_, ⟨hrange, rfl⟩, _, hfirst, _, hsize, rfl⟩

theorem passHeader_lt {length offset size : ℕ}
    (h : passHeader packet length kind offset = .ok (next, size)) :
    length - (offset + size) < length - offset := by
  obtain ⟨-, hfirst, hsize⟩ := passHeader_eq_ok.mp h
  obtain ⟨hin, -⟩ := List.getElem?_eq_some_iff.mp (getByte_eq_ok.mp hfirst)
  have hpos := le_of_headerSize hsize
  simp only [List.length_drop, List.length_take] at hin
  omega

/-- The loop `while next != 6`, up to the offset of the TCP header. Each pass goes on at least eight
bytes further, and none starts at the end. -/
def skipHeaders (packet : List UInt8) (length : ℕ) (next : UInt8) (offset : ℕ) : Inspection ℕ :=
  if next = 6 then .ok offset
  else
    match _h : passHeader packet length next offset with
    | .error stop => .error stop
    | .ok (following, size) => skipHeaders packet length following (offset + size)
termination_by length - offset
decreasing_by exact passHeader_lt _h

/-- `Ipv4Addr::new` of four bytes. -/
def readV4 (packet : List UInt8) (i : ℕ) : Inspection IpAddr := do
  let octets ← indices packet i 4
  .ok (.v4 (BitVec.ofNat 32 (Bytes.toNat octets)))

/-- `Ipv6Addr::from` of a slice. -/
def readV6 (packet : List UInt8) (lo hi : ℕ) : Inspection IpAddr := do
  let octets ← slice packet lo hi
  -- `<[u8; 16]>::try_from(…).ok()?`
  if octets.length = 16 then .ok (.v6 (BitVec.ofNat 128 (Bytes.toNat octets))) else ignored

/-- The branch for IPv4. -/
def inspectV4 (packet : List UInt8) : Inspection (IpAddr × IpAddr × ℕ) :=
  if packet.length < 20 then ignored
  else do
    let ttl ← index packet 8
    if ttl = 255 then ignored
    else do
      let protocol ← index packet 9
      if protocol ≠ 6 then ignored
      else do
        let length ← readU16 packet 2
        let first ← index packet 0
        let offset := (first &&& 15).toNat * 4
        if offset < 20 ∨ length < offset + 20 ∨ length > packet.length then ignored
        else do
          let fragment ← readU16 packet 6
          if fragment &&& 0x1fff ≠ 0 then ignored
          else do
            let source ← readV4 packet 12
            let dest ← readV4 packet 16
            .ok (source, dest, offset)

/-- The branch for IPv6. -/
def inspectV6 (packet : List UInt8) : Inspection (IpAddr × IpAddr × ℕ) :=
  if packet.length < 40 then ignored
  else do
    let hopLimit ← index packet 7
    if hopLimit = 255 then ignored
    else do
      let payload ← readU16 packet 4
      let length := 40 + payload
      if length > packet.length then ignored
      else do
        let next ← index packet 6
        let offset ← skipHeaders packet length next 40
        if offset + 20 > length then ignored
        else do
          let source ← readV6 packet 8 24
          let dest ← readV6 packet 24 40
          .ok (source, dest, offset)

/-- The closure `addr`: a link-local address is meant on the interface. -/
def scopedAddr (interface : UInt32) (port : UInt16) : IpAddr → SocketAddr
  | .v4 ip => .v4 ip port
  | .v6 ip => .v6 ip port 0 (if ip.isUnicastLinkLocal then interface else 0)

/-- The end of the inspection: the TCP header. -/
def inspectTcp (packet : List UInt8) (interface : UInt32) (source dest : IpAddr) (offset : ℕ) :
    Inspection Connection := do
  let tcp ← getRange packet offset (offset + 20)
  let dataOffset ← index tcp 12
  if dataOffset >>> 4 < 5 then ignored
  else do
    let destPort ← readU16 tcp 2
    let sourcePort ← readU16 tcp 0
    .ok ⟨scopedAddr interface (.ofNat destPort) dest, scopedAddr interface (.ofNat sourcePort) source⟩

/-- The addresses of a packet and the offset of its TCP header, by the version of IP. -/
def inspectIp (version : UInt8) (packet : List UInt8) : Inspection (IpAddr × IpAddr × ℕ) :=
  if version = 4 then inspectV4 packet
  else if version = 6 then inspectV6 packet
  else ignored

/-- `low_ttl_connection`. -/
def lowTtlConnection (packet : List UInt8) (interface : UInt32) : Inspection Connection := do
  let first ← getByte packet 0
  let (source, dest, offset) ← inspectIp (first >>> 4) packet
  inspectTcp packet interface source dest offset

/-! ## The grammar of packets -/

/-- The `n` bytes at `i`. -/
def field (xs : List UInt8) (i n : ℕ) : List UInt8 := (xs.drop i).take n

/-- The number in the `n` bytes at `i`. -/
def number (xs : List UInt8) (i n : ℕ) : ℕ := Bytes.toNat (field xs i n)

/-- An extension header of a kind, and the kind of the header after it. -/
inductive ExtensionHeader : UInt8 → UInt8 → List UInt8 → Prop
  /-- Hop-by-hop options, a routing header or destination options. -/
  | options {kind next len : UInt8} {body : List UInt8}
      (hkind : kind = 0 ∨ kind = 43 ∨ kind = 60)
      (hlen : (next :: len :: body).length = 8 * (len.toNat + 1)) :
      ExtensionHeader kind next (next :: len :: body)
  | authentication {next len : UInt8} {body : List UInt8}
      (hlen : (next :: len :: body).length = 4 * (len.toNat + 2))
      (hfixed : 12 ≤ (next :: len :: body).length) (hmultiple : 8 ∣ (next :: len :: body).length) :
      ExtensionHeader 51 next (next :: len :: body)
  /-- The header of a first fragment. -/
  | fragment {next reserved high low : UInt8} {identification : List UInt8}
      (hlen : (next :: reserved :: high :: low :: identification).length = 8)
      (hfirst : Bytes.toNat [high, low] / 8 = 0) :
      ExtensionHeader 44 next (next :: reserved :: high :: low :: identification)

/-- Any number of extension headers up to TCP. -/
inductive HeaderChain : UInt8 → List UInt8 → Prop
  | tcp : HeaderChain 6 []
  | cons {kind next : UInt8} {header rest : List UInt8}
      (hheader : ExtensionHeader kind next header) (hrest : HeaderChain next rest) :
      HeaderChain kind (header ++ rest)

/-- The twenty bytes that every TCP header has. -/
structure TcpHeader (segment : List UInt8) : Prop where
  length : segment.length = 20
  dataOffset : 5 ≤ (segment.getD 12 0 >>> 4).toNat

structure Ipv4Header (header : List UInt8) : Prop where
  version : header.getD 0 0 >>> 4 = 4
  ihl : 5 ≤ (header.getD 0 0 &&& 15).toNat
  length : header.length = 4 * (header.getD 0 0 &&& 15).toNat

structure Ipv6Header (header : List UInt8) : Prop where
  version : header.getD 0 0 >>> 4 = 6
  length : header.length = 40

/-- The connection of a TCP header between two addresses. -/
def connectionOf (interface : UInt32) (source dest : IpAddr) (segment : List UInt8) : Connection :=
  ⟨scopedAddr interface (.ofNat (number segment 2 2)) dest,
    scopedAddr interface (.ofNat (number segment 0 2)) source⟩

/-- A packet with a TCP header and a hop limit other than 255, and its connection. -/
inductive LowTtl (interface : UInt32) : List UInt8 → Connection → Prop
  | v4 {header segment data trailing : List UInt8}
      (hheader : Ipv4Header header) (hsegment : TcpHeader segment)
      (hlength : number header 2 2 = header.length + segment.length + data.length)
      (hfragment : number header 6 2 % 2 ^ 13 = 0)
      (httl : header.getD 8 0 ≠ 255) (hprotocol : header.getD 9 0 = 6) :
      LowTtl interface (header ++ (segment ++ data) ++ trailing)
        (connectionOf interface (.v4 (.ofNat 32 (number header 12 4)))
          (.v4 (.ofNat 32 (number header 16 4))) segment)
  | v6 {header extensions segment data trailing : List UInt8}
      (hheader : Ipv6Header header) (hextensions : HeaderChain (header.getD 6 0) extensions)
      (hsegment : TcpHeader segment)
      (hlength : number header 4 2 = extensions.length + segment.length + data.length)
      (hhops : header.getD 7 0 ≠ 255) :
      LowTtl interface (header ++ (extensions ++ (segment ++ data)) ++ trailing)
        (connectionOf interface (.v6 (.ofNat 128 (number header 8 16)))
          (.v6 (.ofNat 128 (number header 24 16))) segment)

/-- The length that an IP header declares. -/
def declaredLength (packet : List UInt8) : Option ℕ :=
  if packet.getD 0 0 >>> 4 = 4 then some (number packet 2 2)
  else if packet.getD 0 0 >>> 4 = 6 then some (40 + number packet 4 2)
  else none

/-! ## The chain of headers -/

/-- A mask of the high bits of a number clears the low ones. -/
theorem and_high_mask {n k m : ℕ} (h : n < 2 ^ (k + m)) :
    n &&& (2 ^ m - 1) * 2 ^ k = n / 2 ^ k * 2 ^ k := by
  have hlow : (n &&& (2 ^ m - 1) * 2 ^ k) % 2 ^ k = 0 := by
    rw [Nat.and_mod_two_pow, Nat.mul_mod_left, Nat.and_zero]
  have hhigh : (n &&& (2 ^ m - 1) * 2 ^ k) / 2 ^ k = n / 2 ^ k := by
    rw [Nat.and_div_two_pow, Nat.mul_div_cancel _ (Nat.two_pow_pos k)]
    refine Nat.and_two_pow_sub_one_of_lt_two_pow ?_
    rw [Nat.div_lt_iff_lt_mul (Nat.two_pow_pos k), ← Nat.pow_add, Nat.add_comm]
    exact h
  rw [← hhigh]
  exact (Nat.div_mul_cancel (Nat.dvd_of_mod_eq_zero hlow)).symm

theorem and_fff8_eq_zero {n : ℕ} (h : n < 2 ^ 16) : n &&& 0xfff8 = 0 ↔ n / 8 = 0 := by
  have hmask : n &&& 0xfff8 = n / 8 * 8 := @and_high_mask n 3 13 h
  omega

theorem pair_lt (high low : UInt8) : Bytes.toNat [high, low] < 2 ^ 16 :=
  lt_of_lt_of_eq (Bytes.toNat_lt _) (by simp)

theorem exists_four {xs : List UInt8} (h : 4 ≤ xs.length) :
    ∃ a b c d rest, xs = a :: b :: c :: d :: rest := by
  match xs, h with
  | a :: b :: c :: d :: rest, _ => exact ⟨a, b, c, d, rest, rfl⟩

/-- A complete extension header is passed as a whole. -/
theorem headerSize_of_header (h : ExtensionHeader kind next header) (rest : List UInt8) :
    getByte (header ++ rest) 0 = .ok next ∧ headerSize kind (header ++ rest) = .ok header.length := by
  cases h with
  | @options _ _ len body hkind hlen =>
    refine ⟨rfl, ?_⟩
    rw [headerSize, if_pos hkind, hlen, Nat.mul_comm]
    rfl
  | @authentication _ len body hlen hfixed hmultiple =>
    refine ⟨rfl, ?_⟩
    have hlong : ¬ ((len.toNat + 2) * 4 < 12 ∨ (len.toNat + 2) * 4 % 8 ≠ 0) := by omega
    rw [hlen, Nat.mul_comm]
    exact if_neg hlong
  | @fragment _ reserved high low identification hlen hfirst =>
    refine ⟨rfl, ?_⟩
    rw [hlen]
    exact if_neg (not_not.mpr ((and_fff8_eq_zero (pair_lt high low)).mpr hfirst))

/-- What is passed is a complete extension header if it ends inside the window. -/
theorem header_of_headerSize {window : List UInt8} {size : ℕ} (hnext : getByte window 0 = .ok next)
    (hsize : headerSize kind window = .ok size) (hfit : size ≤ window.length) :
    ExtensionHeader kind next (window.take size) := by
  have hmin := le_of_headerSize hsize
  obtain ⟨a, b, c, d, rest, rfl⟩ := exists_four ((show 4 ≤ size by omega).trans hfit)
  obtain ⟨n, rfl⟩ : ∃ n, size = n + 4 := ⟨size - 4, by omega⟩
  obtain rfl : a = next := Except.ok.inj hnext
  have hlen : ((a :: b :: c :: d :: rest).take (n + 4)).length = n + 4 := List.length_take_of_le hfit
  simp only [List.take_succ_cons] at hlen ⊢
  unfold headerSize at hsize
  split at hsize
  · rename_i hkind
    have hvalue : (b.toNat + 1) * 8 = n + 4 := Except.ok.inj hsize
    exact .options hkind (by omega)
  · split at hsize
    · rename_i hkind
      obtain ⟨len, hb, hsize⟩ := bind_eq_ok.mp hsize
      cases hb
      dsimp only at hsize
      split at hsize
      · cases hsize
      · have hvalue : (b.toNat + 2) * 4 = n + 4 := Except.ok.inj hsize
        subst hkind
        exact .authentication (by omega) (by omega) (by omega)
    · split at hsize
      · rename_i hkind
        obtain ⟨high, hc, hsize⟩ := bind_eq_ok.mp hsize
        obtain ⟨low, hd, hsize⟩ := bind_eq_ok.mp hsize
        cases hc
        cases hd
        split at hsize
        · cases hsize
        · rename_i hfirst
          have hvalue : 8 = n + 4 := Except.ok.inj hsize
          subst hkind
          exact .fragment (by omega) ((and_fff8_eq_zero (pair_lt c d)).mp (not_not.mp hfirst))
      · cases hsize

theorem ExtensionHeader.ne_tcp (h : ExtensionHeader kind next header) : kind ≠ 6 := by
  rintro rfl
  cases h with
  | options hkind => rcases hkind with hkind | hkind | hkind <;> cases hkind

theorem skipHeaders_tcp (packet : List UInt8) (length offset : ℕ) :
    skipHeaders packet length 6 offset = .ok offset := by
  rw [skipHeaders, if_pos rfl]

/-- A pass over a complete header. -/
theorem skipHeaders_cons {packet header rest : List UInt8} {length offset : ℕ}
    (hlength : length ≤ packet.length) (hoffset : offset ≤ length)
    (hwindow : (packet.take length).drop offset = header ++ rest)
    (hheader : ExtensionHeader kind next header) :
    skipHeaders packet length kind offset =
      skipHeaders packet length next (offset + header.length) := by
  have hpass : passHeader packet length kind offset = .ok (next, header.length) :=
    passHeader_eq_ok.mpr ⟨⟨hoffset, hlength⟩, hwindow ▸ headerSize_of_header hheader rest⟩
  rw [skipHeaders, if_neg hheader.ne_tcp]
  split
  · rename_i h
    cases h.symm.trans hpass
  · rename_i h
    cases h.symm.trans hpass
    rfl

/-- A chain is skipped up to its TCP header. -/
theorem skipHeaders_of_chain {packet extensions rest : List UInt8} {length offset : ℕ}
    {kind : UInt8} (hlength : length ≤ packet.length) (hoffset : offset ≤ length)
    (hwindow : (packet.take length).drop offset = extensions ++ rest)
    (hchain : HeaderChain kind extensions) :
    skipHeaders packet length kind offset = .ok (offset + extensions.length) := by
  induction hchain generalizing offset with
  | tcp => exact skipHeaders_tcp packet length offset
  | @cons kind next header extensions hheader hrest ih =>
    have hsizes := congrArg List.length hwindow
    simp only [List.length_drop, List.length_take, List.length_append] at hsizes
    rw [List.append_assoc] at hwindow
    have hnext : (packet.take length).drop (offset + header.length) = extensions ++ rest := by
      rw [← List.drop_drop, hwindow, List.drop_left]
    rw [skipHeaders_cons hlength hoffset hwindow hheader, ih (by omega) hnext, List.length_append,
      Nat.add_assoc]

/-- What is skipped is a chain if it ends inside the declared length. -/
theorem chain_of_skipHeaders {length offset stop : ℕ} {kind : UInt8} (hstop : stop ≤ length)
    (hlength : length ≤ packet.length) (h : skipHeaders packet length kind offset = .ok stop) :
    ∃ extensions, HeaderChain kind extensions ∧ stop = offset + extensions.length ∧
      (packet.take length).drop offset = extensions ++ (packet.take length).drop stop := by
  fun_induction skipHeaders packet length kind offset with
  | case1 offset =>
    cases h
    exact ⟨[], .tcp, rfl, rfl⟩
  | case2 => cases h
  | case3 kind offset hkind next size hpass ih =>
    obtain ⟨extensions, hchain, hlen, hwindow⟩ := ih h
    obtain ⟨-, hnext, hsize⟩ := passHeader_eq_ok.mp hpass
    have hfit : size ≤ ((packet.take length).drop offset).length := by
      simp only [List.length_drop, List.length_take]
      omega
    refine ⟨((packet.take length).drop offset).take size ++ extensions,
      .cons (header_of_headerSize hnext hsize hfit) hchain, ?_, ?_⟩
    · rw [List.length_append, List.length_take_of_le hfit]
      omega
    · rw [List.append_assoc, ← hwindow, ← List.drop_drop, List.take_append_drop]

/-! ## Reads inside the packet -/

theorem readU16_of_le {xs : List UInt8} {i : ℕ} (h : i + 2 ≤ xs.length) :
    readU16 xs i = .ok (number xs i 2) := by
  rw [readU16, indices_of_le h]
  rfl

theorem readV4_of_le {i : ℕ} (h : i + 4 ≤ packet.length) :
    readV4 packet i = .ok (.v4 (.ofNat 32 (number packet i 4))) := by
  rw [readV4, indices_of_le h]
  rfl

theorem readV6_of_le {i : ℕ} (h : i + 16 ≤ packet.length) :
    readV6 packet i (i + 16) = .ok (.v6 (.ofNat 128 (number packet i 16))) := by
  have hfield : (field packet i 16).length = 16 := by
    simp only [field, List.length_take, List.length_drop]
    omega
  rw [readV6, slice_of_le (by omega) h, Nat.add_sub_cancel_left]
  exact if_pos hfield

/-- What the branch for IPv4 asks of a packet. -/
structure V4Fields (packet : List UInt8) : Prop where
  fixed : 20 ≤ packet.length
  ttl : packet.getD 8 0 ≠ 255
  protocol : packet.getD 9 0 = 6
  ihl : 20 ≤ (packet.getD 0 0 &&& 15).toNat * 4
  tcp : (packet.getD 0 0 &&& 15).toNat * 4 + 20 ≤ number packet 2 2
  length : number packet 2 2 ≤ packet.length
  fragment : number packet 6 2 &&& 0x1fff = 0

theorem inspectV4_cases (packet : List UInt8) :
    (V4Fields packet ∧ inspectV4 packet = .ok (.v4 (.ofNat 32 (number packet 12 4)),
      .v4 (.ofNat 32 (number packet 16 4)), (packet.getD 0 0 &&& 15).toNat * 4)) ∨
    (¬ V4Fields packet ∧ inspectV4 packet = ignored) := by
  unfold inspectV4
  split
  · rename_i hfixed
    exact .inr ⟨fun h => absurd h.fixed (by omega), rfl⟩
  · have hfixed : 20 ≤ packet.length := by omega
    simp only [index_of_lt 0 (show 8 < packet.length by omega),
      index_of_lt 0 (show 9 < packet.length by omega),
      index_of_lt 0 (show 0 < packet.length by omega),
      readU16_of_le (show 2 + 2 ≤ packet.length by omega),
      readU16_of_le (show 6 + 2 ≤ packet.length by omega),
      readV4_of_le (show 12 + 4 ≤ packet.length by omega),
      readV4_of_le (show 16 + 4 ≤ packet.length by omega), ok_bind]
    split
    · exact .inr ⟨fun h => h.ttl ‹_›, rfl⟩
    · split
      · exact .inr ⟨fun h => ‹packet.getD 9 0 ≠ 6› h.protocol, rfl⟩
      · split
        · rename_i hlengths
          refine .inr ⟨fun h => ?_, rfl⟩
          have hihl := h.ihl
          have htcp := h.tcp
          have hlength := h.length
          omega
        · rename_i httl hprotocol hlengths
          split
          · exact .inr ⟨fun h => ‹number packet 6 2 &&& 0x1fff ≠ 0› h.fragment, rfl⟩
          · rename_i hfragment
            exact .inl ⟨⟨hfixed, httl, not_not.mp hprotocol, by omega, by omega, by omega,
              not_not.mp hfragment⟩, rfl⟩

/-- What the branch for IPv6 asks of a packet with its TCP header at an offset. -/
structure V6Fields (packet : List UInt8) (offset : ℕ) : Prop where
  fixed : 40 ≤ packet.length
  hopLimit : packet.getD 7 0 ≠ 255
  length : 40 + number packet 4 2 ≤ packet.length
  headers : skipHeaders packet (40 + number packet 4 2) (packet.getD 6 0) 40 = .ok offset
  tcp : offset + 20 ≤ 40 + number packet 4 2

theorem getByte_inside (xs : List UInt8) (i : ℕ) : getByte xs i ≠ .error .outOfBounds := by
  unfold getByte
  split
  · exact nofun
  · exact nofun

theorem getRange_inside (xs : List UInt8) (lo hi : ℕ) :
    getRange xs lo hi ≠ .error .outOfBounds := by
  unfold getRange
  split
  · exact nofun
  · exact nofun

theorem headerSize_inside (kind : UInt8) (header : List UInt8) :
    headerSize kind header ≠ .error .outOfBounds := by
  unfold headerSize
  split
  · exact bind_ne_outOfBounds (getByte_inside _ _) fun _ _ => nofun
  · split
    · refine bind_ne_outOfBounds (getByte_inside _ _) fun len _ => ?_
      dsimp only
      split
      · exact nofun
      · exact nofun
    · split
      · refine bind_ne_outOfBounds (getByte_inside _ _) fun high _ => ?_
        refine bind_ne_outOfBounds (getByte_inside _ _) fun low _ => ?_
        split
        · exact nofun
        · exact nofun
      · exact nofun

theorem passHeader_inside (packet : List UInt8) (length : ℕ) (kind : UInt8) (offset : ℕ) :
    passHeader packet length kind offset ≠ .error .outOfBounds :=
  bind_ne_outOfBounds (getRange_inside _ _ _) fun _ _ =>
    bind_ne_outOfBounds (getByte_inside _ _) fun _ _ =>
      bind_ne_outOfBounds (headerSize_inside _ _) fun _ _ => nofun

theorem skipHeaders_inside (packet : List UInt8) (length : ℕ) (kind : UInt8) (offset : ℕ) :
    skipHeaders packet length kind offset ≠ .error .outOfBounds := by
  fun_induction skipHeaders packet length kind offset with
  | case1 => exact nofun
  | case2 kind offset _ stop hpass =>
    intro h
    cases h
    exact passHeader_inside packet length kind offset hpass
  | case3 _ _ _ _ _ _ ih => exact ih

theorem eq_ignored {α : Type} {stop : Stop Unit} (h : stop ≠ .outOfBounds) :
    (.error stop : Inspection α) = ignored := by
  cases stop with
  | raised => rfl
  | outOfBounds => exact absurd rfl h

theorem inspectV6_cases (packet : List UInt8) :
    (∃ offset, V6Fields packet offset ∧
      inspectV6 packet = .ok (.v6 (.ofNat 128 (number packet 8 16)),
        .v6 (.ofNat 128 (number packet 24 16)), offset)) ∨
    ((∀ offset, ¬ V6Fields packet offset) ∧ inspectV6 packet = ignored) := by
  unfold inspectV6
  split
  · rename_i hfixed
    exact .inr ⟨fun _ h => absurd h.fixed (by omega), rfl⟩
  · have hfixed : 40 ≤ packet.length := by omega
    simp only [index_of_lt 0 (show 7 < packet.length by omega),
      index_of_lt 0 (show 6 < packet.length by omega),
      readU16_of_le (show 4 + 2 ≤ packet.length by omega),
      readV6_of_le (show 8 + 16 ≤ packet.length by omega),
      readV6_of_le (show 24 + 16 ≤ packet.length by omega), ok_bind]
    split
    · exact .inr ⟨fun _ h => h.hopLimit ‹_›, rfl⟩
    · rename_i hhops
      split
      · rename_i hlength
        exact .inr ⟨fun _ h => absurd h.length (by omega), rfl⟩
      · rename_i hlength
        cases hskip : skipHeaders packet (40 + number packet 4 2) (packet.getD 6 0) 40 with
        | error stop =>
          refine .inr ⟨fun _ h => (nomatch hskip.symm.trans h.headers), eq_ignored ?_⟩
          rintro rfl
          exact skipHeaders_inside _ _ _ _ hskip
        | ok offset =>
          rw [ok_bind]
          split
          · rename_i htcp
            refine .inr ⟨fun _ h => ?_, rfl⟩
            cases hskip.symm.trans h.headers
            exact absurd h.tcp (by omega)
          · exact .inl ⟨offset, ⟨hfixed, hhops, by omega, hskip, by omega⟩, rfl⟩

theorem length_field (xs : List UInt8) (i n : ℕ) : (field xs i n).length = min n (xs.length - i) := by
  rw [field, List.length_take, List.length_drop]

theorem inspectTcp_cases (packet : List UInt8) (interface : UInt32) (source dest : IpAddr)
    (offset : ℕ) :
    (TcpHeader (field packet offset 20) ∧ inspectTcp packet interface source dest offset =
      .ok (connectionOf interface source dest (field packet offset 20))) ∨
    (¬ TcpHeader (field packet offset 20) ∧
      inspectTcp packet interface source dest offset = ignored) := by
  unfold inspectTcp
  by_cases hfit : offset + 20 ≤ packet.length
  · have hlen : (field packet offset 20).length = 20 := by
      rw [length_field]
      omega
    have hrange : getRange packet offset (offset + 20) = .ok (field packet offset 20) := by
      rw [getRange, if_pos ⟨by omega, hfit⟩, List.drop_take, Nat.add_sub_cancel_left]
      rfl
    simp only [hrange, index_of_lt 0 (show 12 < (field packet offset 20).length by omega),
      readU16_of_le (show 2 + 2 ≤ (field packet offset 20).length by omega),
      readU16_of_le (show 0 + 2 ≤ (field packet offset 20).length by omega), ok_bind]
    split
    · rename_i hdata
      rw [UInt8.lt_iff_toNat_lt] at hdata
      exact .inr ⟨fun h => absurd h.dataOffset (Nat.not_le.mpr hdata), rfl⟩
    · rename_i hdata
      rw [UInt8.lt_iff_toNat_lt] at hdata
      exact .inl ⟨⟨hlen, Nat.not_lt.mp hdata⟩, rfl⟩
  · have hrange : getRange packet offset (offset + 20) = ignored :=
      if_neg fun h => hfit h.2
    refine .inr ⟨fun h => hfit ?_, by rw [hrange]; rfl⟩
    have hlen := h.length
    rw [length_field] at hlen
    omega

/-! ## The whole inspection -/

/-- A packet whose TCP header the inspection expects at an offset, and its addresses. -/
inductive Located (packet : List UInt8) : IpAddr → IpAddr → ℕ → Prop
  | v4 (hversion : packet.getD 0 0 >>> 4 = 4) (hfields : V4Fields packet) :
      Located packet (.v4 (.ofNat 32 (number packet 12 4))) (.v4 (.ofNat 32 (number packet 16 4)))
        ((packet.getD 0 0 &&& 15).toNat * 4)
  | v6 {offset : ℕ} (hversion : packet.getD 0 0 >>> 4 = 6) (hfields : V6Fields packet offset) :
      Located packet (.v6 (.ofNat 128 (number packet 8 16)))
        (.v6 (.ofNat 128 (number packet 24 16))) offset

theorem inspectIp_inside (version : UInt8) (packet : List UInt8) :
    inspectIp version packet ≠ .error .outOfBounds := by
  unfold inspectIp
  split
  · rcases inspectV4_cases packet with ⟨-, h⟩ | ⟨-, h⟩
    · rw [h]
      exact nofun
    · rw [h]
      exact nofun
  · split
    · rcases inspectV6_cases packet with ⟨offset, -, h⟩ | ⟨-, h⟩
      · rw [h]
        exact nofun
      · rw [h]
        exact nofun
    · exact nofun

theorem inspectTcp_inside (packet : List UInt8) (interface : UInt32) (source dest : IpAddr)
    (offset : ℕ) : inspectTcp packet interface source dest offset ≠ .error .outOfBounds := by
  rcases inspectTcp_cases packet interface source dest offset with ⟨-, h⟩ | ⟨-, h⟩
  · rw [h]
    exact nofun
  · rw [h]
    exact nofun

theorem lowTtlConnection_inside (packet : List UInt8) (interface : UInt32) :
    lowTtlConnection packet interface ≠ .error .outOfBounds :=
  bind_ne_outOfBounds (getByte_inside _ _) fun _ _ =>
    bind_ne_outOfBounds (inspectIp_inside _ _) fun _ _ => inspectTcp_inside _ _ _ _ _

theorem located_of_inspectIp {source dest : IpAddr} {offset : ℕ}
    (h : inspectIp (packet.getD 0 0 >>> 4) packet = .ok (source, dest, offset)) :
    Located packet source dest offset := by
  unfold inspectIp at h
  split at h
  · rename_i hversion
    rcases inspectV4_cases packet with ⟨hfields, hok⟩ | ⟨-, hignored⟩
    · cases hok.symm.trans h
      exact .v4 hversion hfields
    · cases hignored.symm.trans h
  · split at h
    · rename_i hversion
      rcases inspectV6_cases packet with ⟨offset, hfields, hok⟩ | ⟨-, hignored⟩
      · cases hok.symm.trans h
        exact .v6 hversion hfields
      · cases hignored.symm.trans h
    · cases h

theorem inspectIp_of_located {source dest : IpAddr} {offset : ℕ}
    (h : Located packet source dest offset) :
    inspectIp (packet.getD 0 0 >>> 4) packet = .ok (source, dest, offset) := by
  cases h with
  | v4 hversion hfields =>
    rw [inspectIp, if_pos hversion]
    rcases inspectV4_cases packet with ⟨-, hok⟩ | ⟨hnot, -⟩
    · exact hok
    · exact absurd hfields hnot
  | v6 hversion hfields =>
    rw [inspectIp, if_neg (by rw [hversion]; decide), if_pos hversion]
    rcases inspectV6_cases packet with ⟨offset, hfields', hok⟩ | ⟨hnot, -⟩
    · cases hfields.headers.symm.trans hfields'.headers
      exact hok
    · exact absurd hfields (hnot _)

theorem lowTtlConnection_eq_ok :
    lowTtlConnection packet interface = .ok c ↔
      ∃ source dest offset, Located packet source dest offset ∧
        TcpHeader (field packet offset 20) ∧
        c = connectionOf interface source dest (field packet offset 20) := by
  unfold lowTtlConnection
  simp only [bind_eq_ok]
  constructor
  · rintro ⟨first, hfirst, ⟨source, dest, offset⟩, hip, htcp⟩
    have hversion : packet.getD 0 0 = first := by
      rw [List.getD_eq_getElem?_getD, getByte_eq_ok.mp hfirst]
      rfl
    rw [← hversion] at hip
    refine ⟨source, dest, offset, located_of_inspectIp hip, ?_⟩
    rcases inspectTcp_cases packet interface source dest offset with ⟨hheader, hok⟩ | ⟨-, hignored⟩
    · exact ⟨hheader, (Except.ok.inj (hok.symm.trans htcp)).symm⟩
    · cases hignored.symm.trans htcp
  · rintro ⟨source, dest, offset, hlocated, hheader, rfl⟩
    refine ⟨packet.getD 0 0, ?_, ⟨source, dest, offset⟩, inspectIp_of_located hlocated, ?_⟩
    · refine getByte_eq_ok.mpr ?_
      cases packet with
      | nil =>
        cases hlocated with
        | v4 hversion => cases hversion
        | v6 hversion => cases hversion
      | cons first rest => rfl
    · rcases inspectTcp_cases packet interface source dest offset with ⟨-, hok⟩ | ⟨hnot, -⟩
      · exact hok
      · exact absurd hheader hnot

/-! ## The inspection and the grammar -/

theorem getD_append_left {i : ℕ} (h : i < header.length) (rest : List UInt8) :
    (header ++ rest).getD i 0 = header.getD i 0 := by
  rw [List.getD_eq_getElem?_getD, List.getD_eq_getElem?_getD, List.getElem?_append_left h]

theorem number_append_left {i n : ℕ} (h : i + n ≤ header.length) (rest : List UInt8) :
    number (header ++ rest) i n = number header i n := by
  unfold number field
  rw [List.drop_append_of_le_length (by omega), List.take_append_of_le_length]
  rw [List.length_drop]
  omega

theorem field_between (header segment rest : List UInt8) :
    field (header ++ (segment ++ rest)) header.length segment.length = segment := by
  rw [field, List.drop_left, List.take_left]

theorem and_1fff (n : ℕ) : n &&& 0x1fff = n % 2 ^ 13 := Nat.and_two_pow_sub_one_eq_mod n 13

theorem located_v4 {header segment data trailing : List UInt8} (hheader : Ipv4Header header)
    (hsegment : TcpHeader segment)
    (hlength : number header 2 2 = header.length + segment.length + data.length)
    (hfragment : number header 6 2 % 2 ^ 13 = 0)
    (httl : header.getD 8 0 ≠ 255) (hprotocol : header.getD 9 0 = 6) :
    Located (header ++ (segment ++ data) ++ trailing) (.v4 (.ofNat 32 (number header 12 4)))
      (.v4 (.ofNat 32 (number header 16 4))) header.length := by
  rw [List.append_assoc]
  generalize hrest : segment ++ data ++ trailing = rest
  have hsizes := congrArg List.length hrest
  simp only [List.length_append] at hsizes
  have hfixed : 20 ≤ header.length := by
    have hihl := hheader.ihl
    have hsize := hheader.length
    omega
  have hnumber : ∀ i n, i + n ≤ 20 → number (header ++ rest) i n = number header i n :=
    fun i n h => number_append_left (h.trans hfixed) rest
  have hbyte : ∀ i < 20, (header ++ rest).getD i 0 = header.getD i 0 :=
    fun i h => getD_append_left (lt_of_lt_of_le h hfixed) rest
  have hlocated := @Located.v4 (header ++ rest) (by rw [hbyte 0 (by decide)]; exact hheader.version)
  rw [hnumber 12 4 (by decide), hnumber 16 4 (by decide), hbyte 0 (by decide), Nat.mul_comm,
    ← hheader.length] at hlocated
  refine hlocated ⟨?_, ?_, ?_, ?_, ?_, ?_, ?_⟩
  · rw [List.length_append]
    omega
  · rwa [hbyte 8 (by decide)]
  · rwa [hbyte 9 (by decide)]
  · rw [hbyte 0 (by decide), Nat.mul_comm, ← hheader.length]
    exact hfixed
  · rw [hbyte 0 (by decide), Nat.mul_comm, ← hheader.length, hnumber 2 2 (by decide), hlength,
      hsegment.length]
    omega
  · rw [hnumber 2 2 (by decide), hlength, List.length_append]
    omega
  · rwa [hnumber 6 2 (by decide), and_1fff]

theorem located_v6 {header extensions segment data trailing : List UInt8}
    (hheader : Ipv6Header header) (hextensions : HeaderChain (header.getD 6 0) extensions)
    (hsegment : TcpHeader segment)
    (hlength : number header 4 2 = extensions.length + segment.length + data.length)
    (hhops : header.getD 7 0 ≠ 255) :
    Located (header ++ (extensions ++ (segment ++ data)) ++ trailing)
      (.v6 (.ofNat 128 (number header 8 16))) (.v6 (.ofNat 128 (number header 24 16)))
      (40 + extensions.length) := by
  have hwindow : ((header ++ (extensions ++ (segment ++ data)) ++ trailing).take
      (40 + number header 4 2)).drop 40 = extensions ++ (segment ++ data) := by
    rw [List.take_left' (by simp only [List.length_append, hheader.length, hlength]; omega),
      List.drop_left' hheader.length]
  have hsizes : (header ++ (extensions ++ (segment ++ data)) ++ trailing).length =
      40 + number header 4 2 + trailing.length := by
    simp only [List.length_append, hheader.length, hlength]
    omega
  revert hwindow hsizes
  rw [List.append_assoc]
  generalize extensions ++ (segment ++ data) ++ trailing = rest
  intro hwindow hsizes
  have hnumber : ∀ i n, i + n ≤ 40 → number (header ++ rest) i n = number header i n :=
    fun i n h => number_append_left (h.trans_eq hheader.length.symm) rest
  have hbyte : ∀ i < 40, (header ++ rest).getD i 0 = header.getD i 0 :=
    fun i h => getD_append_left (lt_of_lt_of_eq h hheader.length.symm) rest
  have hlocated := @Located.v6 (header ++ rest) (40 + extensions.length)
    (by rw [hbyte 0 (by decide)]; exact hheader.version)
  rw [hnumber 8 16 (by decide), hnumber 24 16 (by decide)] at hlocated
  refine hlocated ⟨?_, ?_, ?_, ?_, ?_⟩
  · omega
  · rwa [hbyte 7 (by decide)]
  · rw [hnumber 4 2 (by decide)]
    omega
  · rw [hnumber 4 2 (by decide), hbyte 6 (by decide)]
    exact skipHeaders_of_chain (by omega) (by omega) hwindow hextensions
  · rw [hnumber 4 2 (by decide), hlength, hsegment.length]
    omega

theorem lowTtlConnection_of_lowTtl (h : LowTtl interface packet c) :
    lowTtlConnection packet interface = .ok c := by
  refine lowTtlConnection_eq_ok.mpr ?_
  cases h with
  | @v4 header segment data trailing hheader hsegment hlength hfragment httl hprotocol =>
    have hfield : field (header ++ (segment ++ data) ++ trailing) header.length 20 = segment := by
      rw [List.append_assoc, List.append_assoc, ← hsegment.length]
      exact field_between header segment _
    refine ⟨_, _, _, located_v4 hheader hsegment hlength hfragment httl hprotocol, ?_, ?_⟩
    · rwa [hfield]
    · rw [hfield]
  | @v6 header extensions segment data trailing hheader hextensions hsegment hlength hhops =>
    have hfield : field (header ++ (extensions ++ (segment ++ data)) ++ trailing)
        (40 + extensions.length) 20 = segment := by
      have h := field_between (header ++ extensions) segment (data ++ trailing)
      rw [List.length_append, hheader.length, hsegment.length] at h
      simpa only [List.append_assoc] using h
    refine ⟨_, _, _, located_v6 hheader hextensions hsegment hlength hhops, ?_, ?_⟩
    · rwa [hfield]
    · rw [hfield]

/-- A packet is its header, what the header declares after it, and the rest. -/
theorem window_split {lo hi : ℕ} (packet : List UInt8) (h : lo ≤ hi) :
    packet.take lo ++ (packet.take hi).drop lo ++ packet.drop hi = packet := by
  have hhead : packet.take lo = (packet.take hi).take lo := by
    rw [List.take_take, Nat.min_eq_left h]
  rw [hhead, List.take_append_drop, List.take_append_drop]

theorem segment_split {lo hi : ℕ} (packet : List UInt8) (h : lo + 20 ≤ hi) :
    field packet lo 20 ++ (packet.take hi).drop (lo + 20) = (packet.take hi).drop lo := by
  have hsegment : field packet lo 20 = ((packet.take hi).drop lo).take 20 := by
    rw [field, List.drop_take, List.take_take, Nat.min_eq_left (by omega)]
  rw [hsegment, ← List.drop_drop, List.take_append_drop]

theorem number_take {i n lo : ℕ} (h : i + n ≤ lo) (hlo : lo ≤ packet.length) :
    number (packet.take lo) i n = number packet i n := by
  have hnumber := @number_append_left (packet.take lo) i n
    (by rwa [List.length_take_of_le hlo]) (packet.drop lo)
  rw [List.take_append_drop] at hnumber
  exact hnumber.symm

theorem getD_take {i lo : ℕ} (h : i < lo) (hlo : lo ≤ packet.length) :
    (packet.take lo).getD i 0 = packet.getD i 0 := by
  have hbyte := @getD_append_left (packet.take lo) i
    (by rwa [List.length_take_of_le hlo]) (packet.drop lo)
  rw [List.take_append_drop] at hbyte
  exact hbyte.symm

theorem lowTtl_v4 (hversion : packet.getD 0 0 >>> 4 = 4) (hfields : V4Fields packet)
    (hsegment : TcpHeader (field packet ((packet.getD 0 0 &&& 15).toNat * 4) 20)) :
    LowTtl interface packet (connectionOf interface (.v4 (.ofNat 32 (number packet 12 4)))
      (.v4 (.ofNat 32 (number packet 16 4)))
      (field packet ((packet.getD 0 0 &&& 15).toNat * 4) 20)) := by
  obtain ⟨hfixed, httl, hprotocol, hihl, htcp, hlength, hfragment⟩ := hfields
  generalize hoffset : (packet.getD 0 0 &&& 15).toNat * 4 = offset at *
  have hin : offset ≤ packet.length := by omega
  have hsize : (packet.take offset).length = offset := List.length_take_of_le hin
  have hbyte : ∀ i < 20, (packet.take offset).getD i 0 = packet.getD i 0 :=
    fun i h => getD_take (by omega) hin
  have hnumber : ∀ i n, i + n ≤ 20 → number (packet.take offset) i n = number packet i n :=
    fun i n h => number_take (by omega) hin
  have hlow := @LowTtl.v4 interface (packet.take offset) (field packet offset 20)
    ((packet.take (number packet 2 2)).drop (offset + 20)) (packet.drop (number packet 2 2))
    ⟨by rwa [hbyte 0 (by decide)], by rw [hbyte 0 (by decide)]; omega,
      by rw [hbyte 0 (by decide), hsize]; omega⟩ hsegment
  rw [segment_split packet htcp, window_split packet (by omega), hnumber 2 2 (by decide),
    hnumber 6 2 (by decide), hnumber 12 4 (by decide), hnumber 16 4 (by decide),
    hbyte 8 (by decide), hbyte 9 (by decide), ← and_1fff] at hlow
  refine hlow ?_ hfragment httl hprotocol
  rw [hsize, hsegment.length, List.length_drop, List.length_take_of_le hlength]
  omega

theorem lowTtl_v6 {offset : ℕ} (hversion : packet.getD 0 0 >>> 4 = 6)
    (hfields : V6Fields packet offset) (hsegment : TcpHeader (field packet offset 20)) :
    LowTtl interface packet (connectionOf interface (.v6 (.ofNat 128 (number packet 8 16)))
      (.v6 (.ofNat 128 (number packet 24 16))) (field packet offset 20)) := by
  obtain ⟨hfixed, hhops, hlength, hheaders, htcp⟩ := hfields
  obtain ⟨extensions, hchain, hoffset, hwindow⟩ := chain_of_skipHeaders (by omega) hlength hheaders
  have hsize : (packet.take 40).length = 40 := List.length_take_of_le hfixed
  have hbyte : ∀ i < 40, (packet.take 40).getD i 0 = packet.getD i 0 :=
    fun i h => getD_take h hfixed
  have hnumber : ∀ i n, i + n ≤ 40 → number (packet.take 40) i n = number packet i n :=
    fun i n h => number_take h hfixed
  have hlow := @LowTtl.v6 interface (packet.take 40) extensions (field packet offset 20)
    ((packet.take (40 + number packet 4 2)).drop (offset + 20))
    (packet.drop (40 + number packet 4 2))
    ⟨by rwa [hbyte 0 (by decide)], hsize⟩ (by rwa [hbyte 6 (by decide)]) hsegment
  rw [segment_split packet htcp, ← hwindow, window_split packet (by omega),
    hnumber 4 2 (by decide), hnumber 8 16 (by decide), hnumber 24 16 (by decide),
    hbyte 7 (by decide)] at hlow
  refine hlow ?_ hhops
  rw [hsegment.length, List.length_drop, List.length_take_of_le hlength]
  omega

theorem lowTtl_iff : lowTtlConnection packet interface = .ok c ↔ LowTtl interface packet c := by
  refine ⟨fun h => ?_, lowTtlConnection_of_lowTtl⟩
  obtain ⟨source, dest, offset, hlocated, hsegment, rfl⟩ := lowTtlConnection_eq_ok.mp h
  cases hlocated with
  | v4 hversion hfields => exact lowTtl_v4 hversion hfields hsegment
  | v6 hversion hfields => exact lowTtl_v6 hversion hfields hsegment

theorem LowTtl.take {length : ℕ} (h : LowTtl interface packet c)
    (hlength : declaredLength packet = some length) : LowTtl interface (packet.take length) c := by
  cases h with
  | @v4 header segment data trailing hheader hsegment htotal hfragment httl hprotocol =>
    have hihl := hheader.ihl
    have hsize := hheader.length
    rw [List.append_assoc, declaredLength, getD_append_left (by omega), hheader.version,
      if_pos rfl, number_append_left (by omega), htotal] at hlength
    rw [List.take_left' (by rw [← Option.some.inj hlength]; simp only [List.length_append]; omega),
      ← List.append_nil (header ++ _)]
    exact .v4 hheader hsegment htotal hfragment httl hprotocol
  | @v6 header extensions segment data trailing hheader hextensions hsegment hpayload hhops =>
    have hsize := hheader.length
    rw [List.append_assoc, declaredLength, getD_append_left (by omega), hheader.version,
      if_neg (by decide), if_pos rfl, number_append_left (by omega), hpayload] at hlength
    rw [List.take_left' (by rw [← Option.some.inj hlength]; simp only [List.length_append]; omega),
      ← List.append_nil (header ++ _)]
    exact .v6 hheader hextensions hsegment hpayload hhops

theorem LowTtl.append (h : LowTtl interface packet c) (rest : List UInt8) :
    LowTtl interface (packet ++ rest) c := by
  cases h with
  | v4 hheader hsegment hlength hfragment httl hprotocol =>
    rw [List.append_assoc _ _ rest]
    exact .v4 hheader hsegment hlength hfragment httl hprotocol
  | v6 hheader hextensions hsegment hlength hhops =>
    rw [List.append_assoc _ _ rest]
    exact .v6 hheader hextensions hsegment hlength hhops

/-- Inspections that stay inside their packets are the same if they give the same values. -/
theorem inspection_ext {α : Type} {x y : Inspection α} (hx : x ≠ .error .outOfBounds)
    (hy : y ≠ .error .outOfBounds) (h : ∀ a, x = .ok a ↔ y = .ok a) : x = y := by
  cases x with
  | ok a => exact ((h a).mp rfl).symm
  | error stop =>
    cases y with
    | ok a => cases (h a).mpr rfl
    | error stop' =>
      exact (eq_ignored fun hs => hx (congrArg _ hs)).trans
        (eq_ignored fun hs => hy (congrArg _ hs)).symm

/-- The inspection stays inside the packet and accepts the packets of the grammar, with the
connection that their headers name; what follows the declared length plays no part. -/
theorem low_ttl_connection_exact (packet : List UInt8) (interface : UInt32) :
    lowTtlConnection packet interface ≠ .error .outOfBounds ∧
    (∀ c, lowTtlConnection packet interface = .ok c ↔ LowTtl interface packet c) ∧
    ∀ length, declaredLength packet = some length →
      lowTtlConnection (packet.take length) interface = lowTtlConnection packet interface := by
  refine ⟨lowTtlConnection_inside packet interface, fun c => lowTtl_iff, fun length hlength => ?_⟩
  refine inspection_ext (lowTtlConnection_inside _ _) (lowTtlConnection_inside _ _) fun c => ?_
  rw [lowTtl_iff, lowTtl_iff]
  refine ⟨fun h => ?_, fun h => h.take hlength⟩
  have hwhole := h.append (packet.drop length)
  rwa [List.take_append_drop] at hwhole

end Dlep
