-- SUMMARY: Decoded bytes re-encode to themselves, but for the host bits of attached subnets.
import Dlep.Core.Codec.RoundTrip

/-!
# Canonical bytes

The converse of the round trip: whatever bytes decode, encoding the result writes the
same bytes again, with the host bits of attached subnets cleared. So the parsers
ignore no other bit and accept no second spelling of an item. Every item parser is
inverted on its own; the loop over TLVs and the headers follow.
-/

namespace Dlep

variable {items : List DataItem} {b : List UInt8}

/-! ## Clearing host bits -/

/-- Clear the host bits of a subnet value: a flag octet, `n` address octets and the
prefix length. -/
def clearHostBits (n : ℕ) (v : List UInt8) : List UInt8 :=
  let host := 8 * n - (v.getD (n + 1) 0).toNat
  v.take 1 ++ Bytes.ofNat n (Bytes.toNat ((v.drop 1).take n) / 2 ^ host * 2 ^ host) ++ v.drop (n + 1)

/-- An attached subnet loses its host bits; every other TLV stays as it is. -/
def RawDataItem.zeroHostBits (raw : RawDataItem) : RawDataItem :=
  if raw.typeId = .ipv4AttachedSubnet then { raw with value := clearHostBits 4 raw.value }
  else if raw.typeId = .ipv6AttachedSubnet then { raw with value := clearHostBits 16 raw.value }
  else raw

/-- Clear the host bits of every subnet TLV of a body. -/
def zeroHostBits (body : List UInt8) : List UInt8 :=
  match _hraw : RawDataItem.decode body with
  | .error _ => body
  | .ok (raw, rest) => body.take 4 ++ raw.zeroHostBits.value ++ zeroHostBits rest
termination_by body.length
decreasing_by
  have := RawDataItem.decode_length _hraw
  omega

/-- The declared frame of a message with its subnets' host bits cleared. -/
def Message.canonicalBytes (b : List UInt8) : List UInt8 :=
  b.take 4 ++ zeroHostBits ((b.drop 4).take (Bytes.toNat ((b.drop 2).take 2)))

/-- A datagram with its subnets' host bits cleared. -/
def Signal.canonicalBytes (b : List UInt8) : List UInt8 := b.take 8 ++ zeroHostBits (b.drop 8)

/-! ## Values -/

theorem encodeFlag_decodeFlag {byte : UInt8} (h : validateFlags byte = .ok ()) :
    encodeFlag (decodeFlag byte) = byte := by
  -- Checked for all 256 octets.
  have hall : ∀ x : BitVec 8, x &&& 0xfe#8 = 0#8 →
      encodeFlag (decodeFlag ⟨x⟩) = ⟨x⟩ := by
    decide
  unfold validateFlags at h
  split at h
  · cases h
  · rename_i hmask
    exact hall byte.toBitVec (by simpa [← UInt8.toBitVec_inj] using hmask)

theorem textBytes_of_stringFromUtf8 {bytes : List UInt8} {s : String}
    (h : stringFromUtf8 bytes = .ok s) : textBytes s = bytes := by
  simp only [stringFromUtf8, String.fromUTF8?] at h
  split at h
  · rename_i t ht
    split at ht
    · cases ht
      cases h
      rfl
    · cases ht
  · cases h

theorem ensureLen_ok {got needed : ℕ} (h : ensureLen got needed = .ok ()) : needed ≤ got := by
  unfold ensureLen at h
  split at h
  · cases h
  · exact Nat.not_lt.mp ‹_›

theorem expectExact_ok {kind : DataItemType} {got expected : ℕ}
    (h : expectExact kind got expected = .ok ()) : got = expected := by
  unfold expectExact at h
  split at h
  · assumption
  · cases h

theorem checkPercent_ok {field : String} {pct : UInt8} (h : checkPercent field pct = .ok ()) :
    pct ≤ 100 := by
  unfold checkPercent at h
  split at h
  · cases h
  · exact UInt8.not_lt.mp ‹_›

/-- A value is its first octet and the rest. -/
theorem head_cons_drop {v : List UInt8} (h : v ≠ []) : v.getD 0 0 :: v.drop 1 = v := by
  cases v with
  | nil => exact absurd rfl h
  | cons b v => rfl

namespace IpNet

variable {w : ℕ}

theorem network_eq_shift (n : IpNet w) :
    n.network = (n.addr >>> (w - n.prefixLen.val)) <<< (w - n.prefixLen.val) := by
  apply BitVec.eq_of_getLsbD_eq
  intro i hi
  have hp := n.prefixLen.isLt
  simp only [network, netmask, BitVec.getLsbD_and, BitVec.getLsbD_not, BitVec.getLsbD_ushiftRight,
    BitVec.getLsbD_allOnes, BitVec.getLsbD_shiftLeft]
  by_cases h : i < w - n.prefixLen.val
  · have hhost : n.prefixLen.val + i < w := by omega
    simp [h, hhost]
  · have hnet : ¬ n.prefixLen.val + i < w := by omega
    have hback : w - n.prefixLen.val + (i - (w - n.prefixLen.val)) = i := by omega
    simp [h, hnet, hi, hback]

theorem network_trunc (n : IpNet w) : n.trunc.network = n.network :=
  congrArg IpNet.addr n.trunc_trunc

/-- The network address is the address without its low `w - prefix` bits. -/
theorem toNat_network (n : IpNet w) :
    n.network.toNat = n.addr.toNat / 2 ^ (w - n.prefixLen.val) * 2 ^ (w - n.prefixLen.val) := by
  have hlt : n.addr.toNat / 2 ^ (w - n.prefixLen.val) * 2 ^ (w - n.prefixLen.val) < 2 ^ w :=
    Nat.lt_of_le_of_lt (Nat.div_mul_le_self _ _) n.addr.isLt
  rw [network_eq_shift, BitVec.toNat_shiftLeft, BitVec.toNat_ushiftRight,
    Nat.shiftRight_eq_div_pow, Nat.shiftLeft_eq, Nat.mod_eq_of_lt hlt]

end IpNet

section

variable {v : List UInt8}

theorem ofNat_toNat_of_length {n : ℕ} (h : v.length = n) : Bytes.ofNat n (Bytes.toNat v) = v := by
  subst h
  exact Bytes.ofNat_toNat v

theorem bytes_u16 (h : v.length = 2) :
    Bytes.ofNat 2 (UInt16.ofNat (Bytes.toNat v)).toNat = v := by
  have hlt := Bytes.toNat_lt v
  rw [h] at hlt
  rw [UInt16.toNat_ofNat', Nat.mod_eq_of_lt (by simpa using hlt), ofNat_toNat_of_length h]

theorem bytes_u64 (h : v.length = 8) :
    Bytes.ofNat 8 (UInt64.ofNat (Bytes.toNat v)).toNat = v := by
  have hlt := Bytes.toNat_lt v
  rw [h] at hlt
  rw [UInt64.toNat_ofNat', Nat.mod_eq_of_lt (by simpa using hlt), ofNat_toNat_of_length h]

theorem bytes_v4 (h : v.length = 4) :
    Bytes.ofNat 4 (BitVec.ofNat 32 (Bytes.toNat v)).toNat = v := by
  have hlt := Bytes.toNat_lt v
  rw [h] at hlt
  rw [BitVec.toNat_ofNat, Nat.mod_eq_of_lt (by simpa using hlt), ofNat_toNat_of_length h]

theorem bytes_v6 (h : v.length = 16) :
    Bytes.ofNat 16 (BitVec.ofNat 128 (Bytes.toNat v)).toNat = v := by
  have hlt := Bytes.toNat_lt v
  rw [h] at hlt
  rw [BitVec.toNat_ofNat, Nat.mod_eq_of_lt (by simpa using hlt), ofNat_toNat_of_length h]

theorem toList_octetVector {n : ℕ} (h : v.length = n) : (octetVector n v).toList = v := by
  subst h
  refine List.ext_getElem (by simp) fun i h₁ h₂ => ?_
  simp [octetVector]

theorem flatMap_decodeExtensionIds (h : v.length % 2 = 0) :
    ((decodeExtensionIds v).flatMap fun id => Bytes.ofNat 2 id.id.toNat) = v := by
  induction v using decodeExtensionIds.induct with
  | case1 hi lo rest ih =>
    have hrest : rest.length % 2 = 0 := by
      simp only [List.length_cons] at h
      omega
    have hid : Bytes.ofNat 2 (UInt16.ofNat (Bytes.toNat [hi, lo])).toNat = [hi, lo] := bytes_u16 rfl
    rw [decodeExtensionIds, List.flatMap_cons, hid, ih hrest]
    rfl
  | case2 bytes hshort =>
    cases bytes with
    | nil => rfl
    | cons b bytes =>
      cases bytes with
      | nil => simp at h
      | cons b' bytes => exact absurd rfl (hshort b b' bytes)

end

@[simp] theorem asMillis_ofMillis (ms : UInt64) : (Duration.ofMillis ms).asMillis = ms.toNat := by
  simp [Duration.ofMillis, Duration.asMillis]

@[simp] theorem asMicros_ofMicros (us : UInt64) : (Duration.ofMicros us).asMicros = us.toNat := by
  simp [Duration.ofMicros, Duration.asMicros]

@[simp] theorem truncMillis_ofMillis (ms : UInt64) :
    (Duration.ofMillis ms).truncMillis = .ofMillis ms := by
  simp [Duration.ofMillis, Duration.truncMillis]

@[simp] theorem truncMicros_ofMicros (us : UInt64) :
    (Duration.ofMicros us).truncMicros = .ofMicros us := by
  simp [Duration.ofMicros, Duration.truncMicros]

/-! ## Items -/

/-- What a decoded item has to do with the TLV it was read from. -/
structure DataItem.Reads (raw : RawDataItem) (item : DataItem) : Prop where
  type : item.typeId = raw.typeId
  value : item.valueBytes = raw.zeroHostBits.value
  length : item.valueBytes.length = raw.value.length
  range : item.InRange
  normal : item.norm = item
  typed : item.Typed

namespace DataItem

variable {raw : RawDataItem} {item : DataItem}

theorem Reads.of_plain {t : DataItemType} (hkind : raw.typeId = t)
    (hplain : t ≠ .ipv4AttachedSubnet ∧ t ≠ .ipv6AttachedSubnet) (htype : item.typeId = t)
    (hvalue : item.valueBytes = raw.value) (hrange : item.InRange) (hnormal : item.norm = item)
    (htyped : item.Typed) : item.Reads raw := by
  have hraw : raw.zeroHostBits = raw := by
    unfold RawDataItem.zeroHostBits
    rw [hkind, if_neg hplain.1, if_neg hplain.2]
  exact ⟨htype.trans hkind.symm, by rw [hraw, hvalue], by rw [hvalue], hrange, hnormal, htyped⟩

theorem decodeU64_ok {kind : DataItemType} {v : List UInt8} {mk : UInt64 → DataItem}
    (h : decodeU64 kind v mk = .ok item) :
    v.length = 8 ∧ item = mk (UInt64.ofNat (Bytes.toNat v)) := by
  obtain ⟨⟨⟩, hlen, h⟩ := bind_eq_ok.mp h
  cases h
  exact ⟨expectExact_ok hlen, rfl⟩

theorem decodePercent_ok {kind : DataItemType} {v : List UInt8} {field : String} {pct : UInt8}
    (h : decodePercent kind v field = .ok pct) : v = [pct] ∧ pct ≤ 100 := by
  obtain ⟨⟨⟩, hlen, h⟩ := bind_eq_ok.mp h
  obtain ⟨⟨⟩, hpct, h⟩ := bind_eq_ok.mp h
  cases h
  obtain ⟨b, rfl⟩ := List.length_eq_one_iff.mp (expectExact_ok hlen)
  exact ⟨rfl, checkPercent_ok hpct⟩

section

variable {v : List UInt8} {n : ℕ}

theorem take_one (h : v ≠ []) : v.take 1 = [v.getD 0 0] := by
  cases v with
  | nil => exact absurd rfl h
  | cons b v => rfl

/-- The value of a connection point, with or without its port. -/
theorem bytes_connectionPoint (hlen : v.length = n + 1 ∨ v.length = n + 3)
    (hflag : validateFlags (v.getD 0 0) = .ok ()) {a : ℕ}
    (haddr : Bytes.ofNat n a = (v.drop 1).take n) :
    encodeFlag (decodeFlag (v.getD 0 0)) :: (Bytes.ofNat n a ++ portBytes
      (if v.length = n + 3 then some (UInt16.ofNat (Bytes.toNat (v.drop (n + 1)))) else none)) = v := by
  have hne : v ≠ [] := by
    rintro rfl
    simp at hlen
  have hport : portBytes (if v.length = n + 3 then
      some (UInt16.ofNat (Bytes.toNat (v.drop (n + 1)))) else none) = v.drop (n + 1) := by
    split
    · exact bytes_u16 (by simp; omega)
    · exact (List.drop_eq_nil_of_le (by omega)).symm
  rw [hport, haddr, encodeFlag_decodeFlag hflag, Nat.add_comm n 1, ← List.drop_drop,
    List.take_append_drop]
  exact head_cons_drop hne

/-- The value of an attached subnet: encoding clears the host bits. -/
theorem bytes_subnet {w : ℕ} (hw : w = 8 * n) (hlen : v.length = n + 2)
    (hflag : validateFlags (v.getD 0 0) = .ok ()) {net : IpNet w}
    (hnet : IpNet.new w (BitVec.ofNat w (Bytes.toNat ((v.drop 1).take n))) (v.getD (n + 1) 0) =
      some net) :
    encodeFlag (decodeFlag (v.getD 0 0)) ::
        (Bytes.ofNat n net.trunc.network.toNat ++ [UInt8.ofNat net.trunc.prefixLen]) =
      clearHostBits n v := by
  subst hw
  unfold IpNet.new at hnet
  split at hnet
  · cases hnet
    have hne : v ≠ [] := by
      rintro rfl
      simp at hlen
    have hprefix : v.drop (n + 1) = [v.getD (n + 1) 0] := by
      have hlast : n + 1 < v.length := by omega
      rw [List.drop_eq_getElem_cons hlast, List.drop_eq_nil_of_le (by omega)]
      simp [hlast]
    have hlt : Bytes.toNat ((v.drop 1).take n) < 2 ^ (8 * n) := by
      have hbytes := Bytes.toNat_lt ((v.drop 1).take n)
      have hn : ((v.drop 1).take n).length = n := by
        simp only [List.length_take, List.length_drop]
        omega
      rwa [hn, show 256 = 2 ^ 8 from rfl, ← Nat.pow_mul] at hbytes
    unfold clearHostBits
    dsimp only
    rw [take_one hne, hprefix, encodeFlag_decodeFlag hflag, IpNet.network_trunc,
      IpNet.toNat_network, IpNet.trunc_prefixLen, BitVec.toNat_ofNat, Nat.mod_eq_of_lt hlt,
      UInt8.ofNat_toNat]
    rfl
  · cases hnet

end

/-- The types that the decoder knows. -/
def coreTypes : List DataItemType :=
  [.status, .ipv4ConnectionPoint, .ipv6ConnectionPoint, .peerType, .heartbeatInterval,
    .extensionsSupported, .macAddress, .ipv4Address, .ipv6Address, .ipv4AttachedSubnet,
    .ipv6AttachedSubnet, .maximumDataRateReceive, .maximumDataRateTransmit,
    .currentDataRateReceive, .currentDataRateTransmit, .latency, .resources,
    .relativeLinkQualityReceive, .relativeLinkQualityTransmit, .mtu]

theorem mem_coreTypes {t : DataItemType} (h : 1 ≤ t.id ∧ t.id ≤ 20) : t ∈ coreTypes := by
  have hall : ∀ n < 21, 1 ≤ n → (⟨UInt16.ofNat n⟩ : DataItemType) ∈ coreTypes := by decide
  have hlo : 1 ≤ t.id.toNat := by simpa using UInt16.le_iff_toNat_le.mp h.1
  have hhi : t.id.toNat ≤ 20 := by simpa using UInt16.le_iff_toNat_le.mp h.2
  have hmem := hall t.id.toNat (by omega) hlo
  rwa [UInt16.ofNat_toNat] at hmem

theorem map_eq_ok {ε α β : Type} {x : Except ε α} {f : α → β} {b : β} (h : f <$> x = .ok b) :
    ∃ a, x = .ok a ∧ f a = b := by
  cases x with
  | error e => cases h
  | ok a =>
    cases h
    exact ⟨a, rfl, rfl⟩

/-- Every item parser, inverted. -/
theorem decode_reads (h : decode raw = .ok item) : item.Reads raw := by
  unfold decode at h
  dsimp only at h
  by_cases hStatus : raw.typeId = .status
  · rw [if_pos hStatus] at h
    split at h
    · cases h
    · rename_i hlen
      obtain ⟨text, htext, h⟩ := bind_eq_ok.mp h
      cases h
      refine .of_plain hStatus (by decide) rfl ?_ trivial rfl trivial
      show _ :: textBytes text = _
      rw [textBytes_of_stringFromUtf8 htext]
      exact head_cons_drop (by rintro heq; simp [heq] at hlen)
  rw [if_neg hStatus] at h
  by_cases hIpv4ConnectionPoint : raw.typeId = .ipv4ConnectionPoint
  · rw [if_pos hIpv4ConnectionPoint] at h
    split at h
    · cases h
    · rename_i hlen
      obtain ⟨⟨⟩, hflag, h⟩ := bind_eq_ok.mp h
      cases h
      refine .of_plain hIpv4ConnectionPoint (by decide) rfl ?_ trivial rfl trivial
      refine bytes_connectionPoint (by omega) hflag (bytes_v4 ?_)
      simp only [List.length_take, List.length_drop]
      omega
  rw [if_neg hIpv4ConnectionPoint] at h
  by_cases hIpv6ConnectionPoint : raw.typeId = .ipv6ConnectionPoint
  · rw [if_pos hIpv6ConnectionPoint] at h
    split at h
    · cases h
    · rename_i hlen
      obtain ⟨⟨⟩, hflag, h⟩ := bind_eq_ok.mp h
      cases h
      refine .of_plain hIpv6ConnectionPoint (by decide) rfl ?_ trivial rfl trivial
      refine bytes_connectionPoint (by omega) hflag (bytes_v6 ?_)
      simp only [List.length_take, List.length_drop]
      omega
  rw [if_neg hIpv6ConnectionPoint] at h
  by_cases hPeerType : raw.typeId = .peerType
  · rw [if_pos hPeerType] at h
    split at h
    · cases h
    · rename_i hlen
      obtain ⟨⟨⟩, hflag, h⟩ := bind_eq_ok.mp h
      obtain ⟨text, htext, h⟩ := bind_eq_ok.mp h
      cases h
      refine .of_plain hPeerType (by decide) rfl ?_ trivial rfl trivial
      show encodeFlag (decodeFlag _) :: textBytes text = _
      rw [textBytes_of_stringFromUtf8 htext, encodeFlag_decodeFlag hflag]
      exact head_cons_drop (by rintro heq; simp [heq] at hlen)
  rw [if_neg hPeerType] at h
  by_cases hHeartbeatInterval : raw.typeId = .heartbeatInterval
  · rw [if_pos hHeartbeatInterval] at h
    obtain ⟨⟨⟩, hlen, h⟩ := bind_eq_ok.mp h
    have hlen := expectExact_ok hlen
    split at h
    · cases h
    · rename_i hmin
      cases h
      have hlt := Bytes.toNat_lt raw.value
      rw [hlen] at hlt
      have hms : (UInt64.ofNat (Bytes.toNat raw.value)).toNat = Bytes.toNat raw.value := by
        rw [UInt64.toNat_ofNat']
        exact Nat.mod_eq_of_lt (Nat.lt_trans hlt (by decide))
      refine .of_plain hHeartbeatInterval (by decide) rfl ?_ ⟨?_, ?_⟩ (by simp [norm]) trivial
      · show Bytes.ofNat 4 _ = _
        rw [asMillis_ofMillis, hms, ofNat_toNat_of_length hlen]
      · rw [asMillis_ofMillis, hms]
        exact Nat.not_lt.mp hmin
      · rw [asMillis_ofMillis, hms]
        exact Nat.le_of_lt_succ hlt
  rw [if_neg hHeartbeatInterval] at h
  by_cases hExtensionsSupported : raw.typeId = .extensionsSupported
  · rw [if_pos hExtensionsSupported] at h
    split at h
    · cases h
    · rename_i hlen
      cases h
      refine .of_plain hExtensionsSupported (by decide) rfl ?_ trivial rfl trivial
      exact flatMap_decodeExtensionIds (by omega)
  rw [if_neg hExtensionsSupported] at h
  by_cases hMacAddress : raw.typeId = .macAddress
  · rw [if_pos hMacAddress] at h
    split at h
    · rename_i hlen
      cases h
      exact .of_plain hMacAddress (by decide) rfl (toList_octetVector hlen) trivial rfl trivial
    · split at h
      · rename_i hlen
        cases h
        exact .of_plain hMacAddress (by decide) rfl (toList_octetVector hlen) trivial rfl trivial
      · cases h
  rw [if_neg hMacAddress] at h
  by_cases hIpv4Address : raw.typeId = .ipv4Address
  · rw [if_pos hIpv4Address] at h
    obtain ⟨⟨⟩, hlen, h⟩ := bind_eq_ok.mp h
    obtain ⟨⟨⟩, hflag, h⟩ := bind_eq_ok.mp h
    have hlen := expectExact_ok hlen
    cases h
    refine .of_plain hIpv4Address (by decide) rfl ?_ trivial rfl trivial
    show encodeFlag (decodeFlag _) :: Bytes.ofNat 4 _ = _
    rw [encodeFlag_decodeFlag hflag, bytes_v4 (by simp [hlen])]
    exact head_cons_drop (by rintro heq; simp [heq] at hlen)
  rw [if_neg hIpv4Address] at h
  by_cases hIpv6Address : raw.typeId = .ipv6Address
  · rw [if_pos hIpv6Address] at h
    obtain ⟨⟨⟩, hlen, h⟩ := bind_eq_ok.mp h
    obtain ⟨⟨⟩, hflag, h⟩ := bind_eq_ok.mp h
    have hlen := expectExact_ok hlen
    cases h
    refine .of_plain hIpv6Address (by decide) rfl ?_ trivial rfl trivial
    show encodeFlag (decodeFlag _) :: Bytes.ofNat 16 _ = _
    rw [encodeFlag_decodeFlag hflag, bytes_v6 (by simp [hlen])]
    exact head_cons_drop (by rintro heq; simp [heq] at hlen)
  rw [if_neg hIpv6Address] at h
  by_cases hIpv4AttachedSubnet : raw.typeId = .ipv4AttachedSubnet
  · rw [if_pos hIpv4AttachedSubnet] at h
    obtain ⟨⟨⟩, hlen, h⟩ := bind_eq_ok.mp h
    obtain ⟨⟨⟩, hflag, h⟩ := bind_eq_ok.mp h
    have hlen := expectExact_ok hlen
    unfold decodeIpv4Net at h
    dsimp only at h
    split at h
    · cases h
    · rename_i net hnet
      cases h
      refine ⟨hIpv4AttachedSubnet.symm, ?_, by simp [valueBytes, hlen], trivial, by simp [norm], trivial⟩
      rw [RawDataItem.zeroHostBits, if_pos hIpv4AttachedSubnet]
      exact bytes_subnet rfl hlen hflag hnet
  rw [if_neg hIpv4AttachedSubnet] at h
  by_cases hIpv6AttachedSubnet : raw.typeId = .ipv6AttachedSubnet
  · rw [if_pos hIpv6AttachedSubnet] at h
    obtain ⟨⟨⟩, hlen, h⟩ := bind_eq_ok.mp h
    obtain ⟨⟨⟩, hflag, h⟩ := bind_eq_ok.mp h
    have hlen := expectExact_ok hlen
    unfold decodeIpv6Net at h
    dsimp only at h
    split at h
    · cases h
    · rename_i net hnet
      cases h
      refine ⟨hIpv6AttachedSubnet.symm, ?_, by simp [valueBytes, hlen], trivial, by simp [norm], trivial⟩
      rw [RawDataItem.zeroHostBits, if_neg (by rw [hIpv6AttachedSubnet]; decide), if_pos hIpv6AttachedSubnet]
      exact bytes_subnet rfl hlen hflag hnet
  rw [if_neg hIpv6AttachedSubnet] at h
  by_cases hMaximumDataRateReceive : raw.typeId = .maximumDataRateReceive
  · rw [if_pos hMaximumDataRateReceive] at h
    obtain ⟨hlen, rfl⟩ := decodeU64_ok h
    exact .of_plain hMaximumDataRateReceive (by decide) rfl (bytes_u64 hlen) trivial rfl trivial
  rw [if_neg hMaximumDataRateReceive] at h
  by_cases hMaximumDataRateTransmit : raw.typeId = .maximumDataRateTransmit
  · rw [if_pos hMaximumDataRateTransmit] at h
    obtain ⟨hlen, rfl⟩ := decodeU64_ok h
    exact .of_plain hMaximumDataRateTransmit (by decide) rfl (bytes_u64 hlen) trivial rfl trivial
  rw [if_neg hMaximumDataRateTransmit] at h
  by_cases hCurrentDataRateReceive : raw.typeId = .currentDataRateReceive
  · rw [if_pos hCurrentDataRateReceive] at h
    obtain ⟨hlen, rfl⟩ := decodeU64_ok h
    exact .of_plain hCurrentDataRateReceive (by decide) rfl (bytes_u64 hlen) trivial rfl trivial
  rw [if_neg hCurrentDataRateReceive] at h
  by_cases hCurrentDataRateTransmit : raw.typeId = .currentDataRateTransmit
  · rw [if_pos hCurrentDataRateTransmit] at h
    obtain ⟨hlen, rfl⟩ := decodeU64_ok h
    exact .of_plain hCurrentDataRateTransmit (by decide) rfl (bytes_u64 hlen) trivial rfl trivial
  rw [if_neg hCurrentDataRateTransmit] at h
  by_cases hLatency : raw.typeId = .latency
  · rw [if_pos hLatency] at h
    obtain ⟨hlen, rfl⟩ := decodeU64_ok h
    refine .of_plain hLatency (by decide) rfl ?_ ?_ (by simp [norm]) trivial
    · show Bytes.ofNat 8 _ = _
      rw [asMicros_ofMicros, bytes_u64 hlen]
    · show Duration.asMicros _ ≤ _
      rw [asMicros_ofMicros]
      exact Nat.le_of_lt_succ (UInt64.toNat_lt _)
  rw [if_neg hLatency] at h
  by_cases hResources : raw.typeId = .resources
  · rw [if_pos hResources] at h
    obtain ⟨pct, hpct, rfl⟩ := map_eq_ok h
    obtain ⟨hvalue, hle⟩ := decodePercent_ok hpct
    exact .of_plain hResources (by decide) rfl hvalue.symm hle rfl trivial
  rw [if_neg hResources] at h
  by_cases hRelativeLinkQualityReceive : raw.typeId = .relativeLinkQualityReceive
  · rw [if_pos hRelativeLinkQualityReceive] at h
    obtain ⟨pct, hpct, rfl⟩ := map_eq_ok h
    obtain ⟨hvalue, hle⟩ := decodePercent_ok hpct
    exact .of_plain hRelativeLinkQualityReceive (by decide) rfl hvalue.symm hle rfl trivial
  rw [if_neg hRelativeLinkQualityReceive] at h
  by_cases hRelativeLinkQualityTransmit : raw.typeId = .relativeLinkQualityTransmit
  · rw [if_pos hRelativeLinkQualityTransmit] at h
    obtain ⟨pct, hpct, rfl⟩ := map_eq_ok h
    obtain ⟨hvalue, hle⟩ := decodePercent_ok hpct
    exact .of_plain hRelativeLinkQualityTransmit (by decide) rfl hvalue.symm hle rfl trivial
  rw [if_neg hRelativeLinkQualityTransmit] at h
  by_cases hMtu : raw.typeId = .mtu
  · rw [if_pos hMtu] at h
    obtain ⟨⟨⟩, hlen, h⟩ := bind_eq_ok.mp h
    cases h
    exact .of_plain hMtu (by decide) rfl (bytes_u16 (expectExact_ok hlen)) trivial rfl trivial
  rw [if_neg hMtu] at h
  cases h
  have hunknown : raw.typeId ∉ coreTypes := by
    simp only [coreTypes, List.mem_cons, List.not_mem_nil, or_false, not_or]
    exact ⟨hStatus, hIpv4ConnectionPoint, hIpv6ConnectionPoint, hPeerType, hHeartbeatInterval,
      hExtensionsSupported, hMacAddress, hIpv4Address, hIpv6Address, hIpv4AttachedSubnet,
      hIpv6AttachedSubnet, hMaximumDataRateReceive, hMaximumDataRateTransmit,
      hCurrentDataRateReceive, hCurrentDataRateTransmit, hLatency, hResources,
      hRelativeLinkQualityReceive, hRelativeLinkQualityTransmit, hMtu⟩
  have htyped : (unknown raw).Typed := fun hcore => hunknown (mem_coreTypes hcore)
  exact .of_plain rfl ⟨hIpv4AttachedSubnet, hIpv6AttachedSubnet⟩ rfl rfl trivial rfl htyped

end DataItem

/-! ## The item loop -/

/-- What a TLV split off a buffer looks like on the wire. -/
theorem RawDataItem.decode_ok {src rest : List UInt8} {raw : RawDataItem}
    (h : RawDataItem.decode src = .ok (raw, rest)) :
    src = Bytes.ofNat 2 raw.typeId.id.toNat ++ Bytes.ofNat 2 raw.value.length ++ raw.value ++ rest ∧
      raw.value.length ≤ u16Max := by
  obtain ⟨⟨⟩, hhead, h⟩ := bind_eq_ok.mp h
  obtain ⟨⟨⟩, hvalue, h⟩ := bind_eq_ok.mp h
  have hhead : 4 ≤ src.length := ensureLen_ok hhead
  have hvalue := ensureLen_ok hvalue
  cases h
  have hlow : ((src.drop 2).take 2).length = 2 := by
    simp only [List.length_take, List.length_drop]
    omega
  have hlen : ((src.drop 4).take (Bytes.toNat ((src.drop 2).take 2))).length =
      Bytes.toNat ((src.drop 2).take 2) := by
    rw [List.length_take]
    omega
  have htype : (src.take 2).length = 2 := by
    rw [List.length_take]
    omega
  refine ⟨?_, ?_⟩
  · dsimp only
    rw [bytes_u16 htype, hlen, ofNat_toNat_of_length hlow, List.append_assoc, List.append_assoc,
      List.take_append_drop, show 4 = 2 + 2 from rfl, ← List.drop_drop, List.take_append_drop,
      List.take_append_drop]
  · dsimp only
    have hlt := Bytes.toNat_lt ((src.drop 2).take 2)
    rw [hlow] at hlt
    rw [hlen]
    exact Nat.le_of_lt_succ hlt

theorem zeroHostBits_nil : zeroHostBits [] = [] := by
  unfold zeroHostBits
  rfl

theorem zeroHostBits_of_raw {body rest : List UInt8} {raw : RawDataItem}
    (h : RawDataItem.decode body = .ok (raw, rest)) :
    zeroHostBits body = body.take 4 ++ raw.zeroHostBits.value ++ zeroHostBits rest := by
  rw [zeroHostBits]
  split
  · rename_i hraw
    cases h.symm.trans hraw
  · rename_i hraw
    cases h.symm.trans hraw
    rfl

/-- A body that decodes is empty, or starts with a TLV that does. -/
theorem decodeItems_ok {body : List UInt8} (h : decodeItems body = .ok items) :
    body = [] ∧ items = [] ∨
      ∃ raw rest item tail, RawDataItem.decode body = .ok (raw, rest) ∧
        DataItem.decode raw = .ok item ∧ decodeItems rest = .ok tail ∧ items = item :: tail := by
  by_cases hempty : body = []
  · subst hempty
    rw [decodeItems] at h
    cases h
    exact .inl ⟨rfl, rfl⟩
  · cases hraw : RawDataItem.decode body with
    | error e =>
      rw [decodeItems] at h
      simp only [List.isEmpty_iff, hempty, if_false] at h
      split at h
      · cases h
      · rename_i hok
        cases hraw.symm.trans hok
    | ok result =>
      obtain ⟨raw, rest⟩ := result
      rw [decodeItems_of_raw hraw] at h
      obtain ⟨item, hitem, h⟩ := bind_eq_ok.mp h
      obtain ⟨tail, htail, h⟩ := bind_eq_ok.mp h
      cases h
      exact .inr ⟨raw, rest, item, tail, rfl, hitem, htail, rfl⟩

/-- The items of a body are in normal form and encode to the body without its host bits. -/
theorem decodeItems_canonical {body : List UInt8} (h : decodeItems body = .ok items) :
    (∀ i ∈ items, i.Encodable ∧ i.Typed ∧ i.norm = i) ∧
      items.flatMap DataItem.tlv = zeroHostBits body ∧ (zeroHostBits body).length = body.length := by
  induction items generalizing body with
  | nil =>
    rcases decodeItems_ok h with ⟨rfl, -⟩ | ⟨_, _, _, _, _, _, _, hcons⟩
    · simp [zeroHostBits_nil]
    · cases hcons
  | cons item items ih =>
    rcases decodeItems_ok h with ⟨-, hnil⟩ | ⟨raw, rest, _, _, hraw, hitem, hrest, hcons⟩
    · cases hnil
    cases hcons
    obtain ⟨hall, hbytes, hlen⟩ := ih hrest
    have hreads := DataItem.decode_reads hitem
    obtain ⟨hbody, hfits⟩ := RawDataItem.decode_ok hraw
    have htake : body.take 4 =
        Bytes.ofNat 2 raw.typeId.id.toNat ++ Bytes.ofNat 2 raw.value.length := by
      rw [hbody, List.append_assoc]
      exact List.take_left' (by simp)
    have htlv : item.tlv = body.take 4 ++ raw.zeroHostBits.value := by
      rw [DataItem.tlv, htake, hreads.length, hreads.type, hreads.value]
    refine ⟨?_, ?_, ?_⟩
    · refine List.forall_mem_cons.mpr ⟨⟨⟨hreads.range, ?_⟩, hreads.typed, hreads.normal⟩, hall⟩
      rwa [hreads.length]
    · rw [List.flatMap_cons, htlv, hbytes, zeroHostBits_of_raw hraw]
    · have hsize : item.tlv.length = 4 + raw.value.length := by
        rw [DataItem.length_tlv, DataItem.wireLen, hreads.length]
      have hconsumed := RawDataItem.decode_length hraw
      rw [zeroHostBits_of_raw hraw, ← htlv, List.length_append, hlen, hsize]
      omega

/-- A body that decodes goes on with whatever follows it. -/
theorem decodeItems_append {body : List UInt8} (h : decodeItems body = .ok items)
    (more : List UInt8) : decodeItems (body ++ more) = (decodeItems more).map (items ++ ·) := by
  induction items generalizing body with
  | nil =>
    rcases decodeItems_ok h with ⟨rfl, -⟩ | ⟨_, _, _, _, _, _, _, hcons⟩
    · rw [List.nil_append]
      cases decodeItems more <;> rfl
    · cases hcons
  | cons item items ih =>
    rcases decodeItems_ok h with ⟨-, hnil⟩ | ⟨raw, rest, _, _, hraw, hitem, hrest, hcons⟩
    · cases hnil
    cases hcons
    obtain ⟨hbody, hfits⟩ := RawDataItem.decode_ok hraw
    have hmore : RawDataItem.decode (body ++ more) = .ok (raw, rest ++ more) := by
      rw [hbody, List.append_assoc]
      exact RawDataItem.decode_written raw.typeId hfits (rest ++ more)
    rw [decodeItems_of_raw hmore, hitem, ih hrest]
    cases decodeItems more <;> rfl

/-! ## Messages and signals -/

/-- What a decoded message says about the bytes it came from. -/
theorem Message.decode_ok {m : Message} (h : Message.decode b = .ok m) :
    4 ≤ b.length ∧ Bytes.toNat ((b.drop 2).take 2) ≤ (b.drop 4).length ∧
      m.messageType = ⟨UInt16.ofNat (Bytes.toNat (b.take 2))⟩ ∧
      decodeItems ((b.drop 4).take (Bytes.toNat ((b.drop 2).take 2))) = .ok m.dataItems := by
  obtain ⟨⟨⟩, hhead, h⟩ := bind_eq_ok.mp h
  dsimp only at h
  split at h
  · cases h
  · rename_i hdeclared
    obtain ⟨items, hitems, h⟩ := bind_eq_ok.mp h
    cases h
    exact ⟨ensureLen_ok hhead, Nat.not_lt.mp hdeclared, rfl, hitems⟩

theorem Signal.decode_ok {s : Signal} (h : Signal.decode b = .ok s) :
    8 ≤ b.length ∧ b.take 4 = SIGNAL_PREFIX ∧
      Bytes.toNat ((b.drop 6).take 2) = (b.drop 8).length ∧
      s.signalType = ⟨UInt16.ofNat (Bytes.toNat ((b.drop 4).take 2))⟩ ∧
      decodeItems (b.drop 8) = .ok s.dataItems := by
  obtain ⟨⟨⟩, hhead, h⟩ := bind_eq_ok.mp h
  split at h
  · cases h
  · rename_i hprefix
    dsimp only at h
    split at h
    · cases h
    · rename_i hdeclared
      obtain ⟨items, hitems, h⟩ := bind_eq_ok.mp h
      cases h
      exact ⟨ensureLen_ok hhead, not_not.mp hprefix, (not_not.mp hdeclared).symm, rfl, hitems⟩

/-- Two octets are the number they spell. -/
theorem two_bytes {v : List UInt8} (h : 2 ≤ v.length) :
    Bytes.ofNat 2 (Bytes.toNat (v.take 2)) = v.take 2 :=
  ofNat_toNat_of_length (by rw [List.length_take]; omega)

theorem two_bytes_u16 {v : List UInt8} (h : 2 ≤ v.length) :
    Bytes.ofNat 2 (UInt16.ofNat (Bytes.toNat (v.take 2))).toNat = v.take 2 :=
  bytes_u16 (by rw [List.length_take]; omega)

theorem take_add_two (n : ℕ) (v : List UInt8) : v.take (n + 2) = v.take n ++ (v.drop n).take 2 := by
  rw [List.take_add]

theorem Message.encode_of_decode {m : Message} (h : Message.decode b = .ok m) :
    m.encode = .ok (Message.canonicalBytes b) := by
  obtain ⟨hhead, hdeclared, htype, hitems⟩ := Message.decode_ok h
  obtain ⟨hall, hbytes, hlen⟩ := decodeItems_canonical hitems
  have hsize : (m.dataItems.flatMap DataItem.tlv).length = Bytes.toNat ((b.drop 2).take 2) := by
    rw [hbytes, hlen, List.length_take]
    omega
  have hfits : Bytes.toNat ((b.drop 2).take 2) ≤ u16Max := by
    have hlt := Bytes.toNat_lt ((b.drop 2).take 2)
    rw [List.length_take, List.length_drop, Nat.min_eq_left (by omega)] at hlt
    exact Nat.le_of_lt_succ hlt
  simp only [Message.encode, encodeItems_of_encodable fun i hi => (hall i hi).1, List.nil_append,
    hsize, u16Length_of_le hfits, toNat_ofNat_u16 hfits, htype, bind, Except.bind]
  rw [two_bytes_u16 (by omega), two_bytes (by rw [List.length_drop]; omega), hbytes,
    ← take_add_two]
  rfl

theorem Signal.encode_of_decode {s : Signal} (h : Signal.decode b = .ok s) :
    s.encode = .ok (Signal.canonicalBytes b) := by
  obtain ⟨hhead, hprefix, hdeclared, htype, hitems⟩ := Signal.decode_ok h
  obtain ⟨hall, hbytes, hlen⟩ := decodeItems_canonical hitems
  have hsize : (s.dataItems.flatMap DataItem.tlv).length = Bytes.toNat ((b.drop 6).take 2) := by
    rw [hbytes, hlen, hdeclared]
  have hfits : Bytes.toNat ((b.drop 6).take 2) ≤ u16Max := by
    have hlt := Bytes.toNat_lt ((b.drop 6).take 2)
    rw [List.length_take, List.length_drop, Nat.min_eq_left (by omega)] at hlt
    exact Nat.le_of_lt_succ hlt
  simp only [Signal.encode, encodeItems_of_encodable fun i hi => (hall i hi).1, List.nil_append,
    hsize, u16Length_of_le hfits, toNat_ofNat_u16 hfits, htype, bind, Except.bind]
  rw [two_bytes_u16 (by rw [List.length_drop]; omega), two_bytes (by rw [List.length_drop]; omega),
    hbytes, ← hprefix, ← take_add_two, ← take_add_two]
  rfl

theorem map_norm_of_decode (h : ∀ i ∈ items, i.Encodable ∧ i.Typed ∧ i.norm = i) :
    items.map DataItem.norm = items :=
  (List.map_congr_left fun i hi => (h i hi).2.2).trans (List.map_id _)

/-- Bytes that decode are, up to the host bits of their subnets, the encoding of what they
decode to, and that encoding decodes to the same. So two frames that decode to the same
message differ in host bits only. -/
theorem decoded_bytes_reencode :
    (∀ (b : List UInt8) (m : Message), Message.decode b = .ok m →
      m.encode = .ok (Message.canonicalBytes b) ∧
        Message.decode (Message.canonicalBytes b) = .ok m) ∧
    (∀ (b : List UInt8) (s : Signal), Signal.decode b = .ok s →
      s.encode = .ok (Signal.canonicalBytes b) ∧
        Signal.decode (Signal.canonicalBytes b) = .ok s) ∧
    (∀ (b c : List UInt8) (m : Message), Message.decode b = .ok m → Message.decode c = .ok m →
      Message.canonicalBytes b = Message.canonicalBytes c) ∧
    (∀ (b c : List UInt8) (s : Signal), Signal.decode b = .ok s → Signal.decode c = .ok s →
      Signal.canonicalBytes b = Signal.canonicalBytes c) := by
  refine ⟨?_, ?_, ?_, ?_⟩
  · intro b m h
    have hencode := Message.encode_of_decode h
    obtain ⟨-, -, -, hitems⟩ := Message.decode_ok h
    have hall := (decodeItems_canonical hitems).1
    have hdecode := Message.decode_encode (fun i hi => (hall i hi).2.1) hencode
    rw [Message.norm, map_norm_of_decode hall] at hdecode
    exact ⟨hencode, hdecode⟩
  · intro b s h
    have hencode := Signal.encode_of_decode h
    obtain ⟨-, -, -, -, hitems⟩ := Signal.decode_ok h
    have hall := (decodeItems_canonical hitems).1
    have hdecode := Signal.decode_encode (fun i hi => (hall i hi).2.1) hencode
    rw [Signal.norm, map_norm_of_decode hall] at hdecode
    exact ⟨hencode, hdecode⟩
  · intro b c m hb hc
    have heq := (Message.encode_of_decode hb).symm.trans (Message.encode_of_decode hc)
    exact Except.ok.inj heq
  · intro b c s hb hc
    have heq := (Signal.encode_of_decode hb).symm.trans (Signal.encode_of_decode hc)
    exact Except.ok.inj heq

/-- A subnet with host bits set, followed by an octet of the next frame. -/
theorem decoded_bytes_reencode_subnet :
    Message.encode ⟨.sessionUpdate, [.ipv4AttachedSubnet true ⟨0x0A000000, 24⟩]⟩ =
        .ok (Message.canonicalBytes [0, 3, 0, 10, 0, 10, 0, 6, 1, 10, 0, 0, 5, 24, 255]) ∧
      Message.canonicalBytes [0, 3, 0, 10, 0, 10, 0, 6, 1, 10, 0, 0, 5, 24, 255] =
        [0, 3, 0, 10, 0, 10, 0, 6, 1, 10, 0, 0, 0, 24] :=
  ⟨(decoded_bytes_reencode.1 [0, 3, 0, 10, 0, 10, 0, 6, 1, 10, 0, 0, 5, 24, 255] _
    (by decide +kernel)).1, by decide +kernel⟩

end Dlep
