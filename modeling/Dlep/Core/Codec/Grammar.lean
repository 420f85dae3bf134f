-- SUMMARY: Which bodies decode: TLVs without a gap, each with a value that obeys the rules of its item.
import Dlep.Core.Codec.Checked

/-!
# What the decoder accepts

The rules of the items are stated as predicates on a type and a value, apart from
the decoder. A body decodes exactly when it is a sequence of TLVs that obey them.
-/

namespace Dlep

open Bounds

/-! ## The rules of the items -/

/-- Octets that spell a text. -/
def IsText (bytes : List UInt8) : Prop := ∃ text, textBytes text = bytes

/-- Only the lowest bit of a flag octet may be set. -/
def FlagsValid (v : List UInt8) : Prop := v.getD 0 0 = 0 ∨ v.getD 0 0 = 1

/-- The length, flag, text and range rules for the value of each item. -/
def RawDataItem.Valid (raw : RawDataItem) : Prop :=
  let v := raw.value
  let len := v.length
  if raw.typeId = .status then 1 ≤ len ∧ IsText (v.drop 1)
  else if raw.typeId = .ipv4ConnectionPoint then (len = 5 ∨ len = 7) ∧ FlagsValid v
  else if raw.typeId = .ipv6ConnectionPoint then (len = 17 ∨ len = 19) ∧ FlagsValid v
  else if raw.typeId = .peerType then 1 ≤ len ∧ FlagsValid v ∧ IsText (v.drop 1)
  else if raw.typeId = .heartbeatInterval then len = 4 ∧ 1000 ≤ Bytes.toNat v
  else if raw.typeId = .extensionsSupported then len % 2 = 0
  else if raw.typeId = .macAddress then len = 6 ∨ len = 8
  else if raw.typeId = .ipv4Address then len = 5 ∧ FlagsValid v
  else if raw.typeId = .ipv6Address then len = 17 ∧ FlagsValid v
  else if raw.typeId = .ipv4AttachedSubnet then len = 6 ∧ FlagsValid v ∧ v.getD 5 0 ≤ 32
  else if raw.typeId = .ipv6AttachedSubnet then len = 18 ∧ FlagsValid v ∧ v.getD 17 0 ≤ 128
  else if raw.typeId = .maximumDataRateReceive then len = 8
  else if raw.typeId = .maximumDataRateTransmit then len = 8
  else if raw.typeId = .currentDataRateReceive then len = 8
  else if raw.typeId = .currentDataRateTransmit then len = 8
  else if raw.typeId = .latency then len = 8
  else if raw.typeId = .resources then len = 1 ∧ v.getD 0 0 ≤ 100
  else if raw.typeId = .relativeLinkQualityReceive then len = 1 ∧ v.getD 0 0 ≤ 100
  else if raw.typeId = .relativeLinkQualityTransmit then len = 1 ∧ v.getD 0 0 ≤ 100
  else if raw.typeId = .mtu then len = 2
  else True

section

variable {v : List UInt8}

theorem stringFromUtf8_iff (bytes : List UInt8) : Succeeds (stringFromUtf8 bytes) ↔ IsText bytes := by
  constructor
  · rintro ⟨text, h⟩
    exact ⟨text, textBytes_of_stringFromUtf8 h⟩
  · rintro ⟨text, rfl⟩
    exact ⟨text, stringFromUtf8_textBytes text⟩

theorem expectExact_iff {kind : DataItemType} {got expected : ℕ} :
    expectExact kind got expected = .ok () ↔ got = expected := by
  constructor
  · exact expectExact_ok
  · rintro rfl
    exact expectExact_self kind got

theorem validateFlags_iff : validateFlags (v.getD 0 0) = .ok () ↔ FlagsValid v := by
  constructor
  · intro h
    rw [FlagsValid, ← encodeFlag_decodeFlag h]
    cases decodeFlag (v.getD 0 0) with
    | true => exact .inr rfl
    | false => exact .inl rfl
  · intro h
    rcases h with h | h
    · rw [h]
      rfl
    · rw [h]
      rfl

theorem checkPercent_iff {field : String} {pct : UInt8} :
    checkPercent field pct = .ok () ↔ pct ≤ 100 := by
  constructor
  · exact checkPercent_ok
  · intro h
    exact if_neg (UInt8.not_lt.mpr h)

theorem decodePercent_iff (kind : DataItemType) (field : String) :
    Succeeds (decodePercent kind v field) ↔ v.length = 1 ∧ v.getD 0 0 ≤ 100 := by
  refine succeeds_check expectExact_iff fun _ => ?_
  refine (succeeds_check checkPercent_iff fun _ => ?_).trans (and_true _).to_iff
  exact iff_of_true (succeeds_ok _) trivial

theorem decodeU64_iff (kind : DataItemType) (mk : UInt64 → DataItem) :
    Succeeds (DataItem.decodeU64 kind v mk) ↔ v.length = 8 := by
  refine (succeeds_check expectExact_iff fun _ => ?_).trans (and_true _).to_iff
  exact iff_of_true (succeeds_ok _) trivial

/-- A subnet is refused when its prefix is longer than its address. -/
theorem IpNet.new_cases (w : ℕ) (addr : BitVec w) (pfx : UInt8) :
    (pfx.toNat ≤ w ∧ ∃ n, IpNet.new w addr pfx = some n) ∨
      (¬ pfx.toNat ≤ w ∧ IpNet.new w addr pfx = none) := by
  unfold IpNet.new
  split
  · exact .inl ⟨Nat.le_of_lt_succ ‹_›, _, rfl⟩
  · exact .inr ⟨fun hle => ‹¬ _› (Nat.lt_succ_of_le hle), rfl⟩

theorem decodeIpv4Net_iff (add : Bool) :
    Succeeds (DataItem.decodeIpv4Net add v) ↔ v.getD 5 0 ≤ 32 := by
  unfold DataItem.decodeIpv4Net
  dsimp only
  rcases IpNet.new_cases 32 (BitVec.ofNat 32 (Bytes.toNat ((v.drop 1).take 4))) (v.getD 5 0) with
    ⟨hle, n, hnew⟩ | ⟨hlt, hnew⟩
  · rw [hnew]
    exact iff_of_true (succeeds_ok _) hle
  · rw [hnew]
    exact iff_of_false (not_succeeds_error _) hlt

theorem decodeIpv6Net_iff (add : Bool) :
    Succeeds (DataItem.decodeIpv6Net add v) ↔ v.getD 17 0 ≤ 128 := by
  unfold DataItem.decodeIpv6Net
  dsimp only
  rcases IpNet.new_cases 128 (BitVec.ofNat 128 (Bytes.toNat ((v.drop 1).take 16)))
    (v.getD 17 0) with ⟨hle, n, hnew⟩ | ⟨hlt, hnew⟩
  · rw [hnew]
    exact iff_of_true (succeeds_ok _) hle
  · rw [hnew]
    exact iff_of_false (not_succeeds_error _) hlt

/-- An item of which nothing but its flag octet can be wrong. -/
theorem flags_iff (item : DataItem) :
    Succeeds (do validateFlags (v.getD 0 0); .ok item) ↔ FlagsValid v := by
  refine (succeeds_check validateFlags_iff fun _ => ?_).trans (and_true _).to_iff
  exact iff_of_true (succeeds_ok item) trivial

end

theorem DataItem.decode_iff (raw : RawDataItem) : Succeeds (DataItem.decode raw) ↔ raw.Valid := by
  refine succeeds_ite (fun _ => ?status) fun _ => succeeds_ite (fun _ => ?v4Point) fun _ =>
    succeeds_ite (fun _ => ?v6Point) fun _ => succeeds_ite (fun _ => ?peerType) fun _ =>
    succeeds_ite (fun _ => ?heartbeat) fun _ => succeeds_ite (fun _ => ?extensions) fun _ =>
    succeeds_ite (fun _ => ?mac) fun _ => succeeds_ite (fun _ => ?v4Addr) fun _ =>
    succeeds_ite (fun _ => ?v6Addr) fun _ => succeeds_ite (fun _ => ?v4Net) fun _ =>
    succeeds_ite (fun _ => ?v6Net) fun _ => succeeds_ite (fun _ => decodeU64_iff ..) fun _ =>
    succeeds_ite (fun _ => decodeU64_iff ..) fun _ =>
    succeeds_ite (fun _ => decodeU64_iff ..) fun _ =>
    succeeds_ite (fun _ => decodeU64_iff ..) fun _ =>
    succeeds_ite (fun _ => decodeU64_iff ..) fun _ =>
    succeeds_ite (fun _ => succeeds_map.trans (decodePercent_iff ..)) fun _ =>
    succeeds_ite (fun _ => succeeds_map.trans (decodePercent_iff ..)) fun _ =>
    succeeds_ite (fun _ => succeeds_map.trans (decodePercent_iff ..)) fun _ =>
    succeeds_ite (fun _ => ?mtu) fun _ => iff_of_true (succeeds_ok _) trivial
  case status =>
    refine (succeeds_unless fun _ => succeeds_bind_ok.trans (stringFromUtf8_iff _)).trans ?_
    rw [Nat.not_lt]
  case v4Point =>
    refine (succeeds_unless fun _ => flags_iff _).trans ?_
    rw [← or_iff_not_and_not]
  case v6Point =>
    refine (succeeds_unless fun _ => flags_iff _).trans ?_
    rw [← or_iff_not_and_not]
  case peerType =>
    refine (succeeds_unless fun _ => succeeds_check validateFlags_iff fun _ =>
      succeeds_bind_ok.trans (stringFromUtf8_iff _)).trans ?_
    rw [Nat.not_lt]
  case heartbeat =>
    refine succeeds_check expectExact_iff fun _ => ?_
    refine (succeeds_unless fun _ => iff_of_true (succeeds_ok _) trivial).trans ?_
    rw [and_true, Nat.not_lt]
    rfl
  case extensions =>
    refine (succeeds_unless fun _ => iff_of_true (succeeds_ok _) trivial).trans ?_
    rw [and_true, not_not]
  case mac =>
    split_ifs with h₆ h₈
    · exact iff_of_true (succeeds_ok _) (.inl h₆)
    · exact iff_of_true (succeeds_ok _) (.inr h₈)
    · exact iff_of_false (not_succeeds_error _) (not_or.mpr ⟨h₆, h₈⟩)
  case v4Addr => exact succeeds_check expectExact_iff fun _ => flags_iff _
  case v6Addr => exact succeeds_check expectExact_iff fun _ => flags_iff _
  case v4Net =>
    exact succeeds_check expectExact_iff fun _ => succeeds_check validateFlags_iff fun _ =>
      decodeIpv4Net_iff _
  case v6Net =>
    exact succeeds_check expectExact_iff fun _ => succeeds_check validateFlags_iff fun _ =>
      decodeIpv6Net_iff _
  case mtu =>
    refine (succeeds_check expectExact_iff fun _ => ?_).trans (and_true _).to_iff
    exact iff_of_true (succeeds_ok _) trivial

/-! ## Bodies -/

/-- The octets of a TLV. -/
def RawDataItem.bytes (raw : RawDataItem) : List UInt8 :=
  Bytes.ofNat 2 raw.typeId.id.toNat ++ Bytes.ofNat 2 raw.value.length ++ raw.value

/-- The TLVs fill the body without a gap or a remainder, and each value has the length that its
two octets say. -/
structure Tiles (raws : List RawDataItem) (body : List UInt8) : Prop where
  body_eq : body = raws.flatMap RawDataItem.bytes
  fits : ∀ raw ∈ raws, raw.value.length ≤ 65535

/-- The TLVs of a body that decodes. -/
theorem tiles_of_decodeItems {body : List UInt8} {items : List DataItem}
    (h : decodeItems body = .ok items) :
    ∃ raws, Tiles raws body ∧ ∀ raw ∈ raws, raw.Valid := by
  induction items generalizing body with
  | nil =>
    rcases decodeItems_ok h with ⟨rfl, -⟩ | ⟨_, _, _, _, _, _, _, hcons⟩
    · exact ⟨[], ⟨rfl, nofun⟩, nofun⟩
    · cases hcons
  | cons item items ih =>
    rcases decodeItems_ok h with ⟨-, hnil⟩ | ⟨raw, rest, _, _, hraw, hitem, hrest, hcons⟩
    · cases hnil
    cases hcons
    obtain ⟨raws, htiles, hvalid⟩ := ih hrest
    obtain ⟨hbody, hfits⟩ := RawDataItem.decode_ok hraw
    refine ⟨raw :: raws, ⟨?_, ?_⟩, ?_⟩
    · rw [hbody, List.flatMap_cons, ← htiles.body_eq, RawDataItem.bytes]
    · exact List.forall_mem_cons.mpr ⟨hfits, htiles.fits⟩
    · exact List.forall_mem_cons.mpr ⟨(DataItem.decode_iff raw).mp ⟨item, hitem⟩, hvalid⟩

/-- Valid TLVs are decoded one by one. -/
theorem decodeItems_of_tiles {raws : List RawDataItem} {body : List UInt8} (h : Tiles raws body)
    (hvalid : ∀ raw ∈ raws, raw.Valid) : Succeeds (decodeItems body) := by
  obtain ⟨rfl, hfits⟩ := h
  induction raws with
  | nil => exact ⟨[], by rw [decodeItems]; rfl⟩
  | cons raw raws ih =>
    obtain ⟨hfit, hfits⟩ := List.forall_mem_cons.mp hfits
    obtain ⟨hraw, hraws⟩ := List.forall_mem_cons.mp hvalid
    obtain ⟨item, hitem⟩ := (DataItem.decode_iff raw).mpr hraw
    obtain ⟨items, hitems⟩ := ih hraws hfits
    have hwritten := RawDataItem.decode_written raw.typeId hfit (raws.flatMap RawDataItem.bytes)
    refine ⟨item :: items, ?_⟩
    rw [List.flatMap_cons, RawDataItem.bytes, decodeItems_of_raw hwritten, hitem, hitems]
    rfl

theorem decodeItems_iff (body : List UInt8) :
    Succeeds (decodeItems body) ↔ ∃ raws, Tiles raws body ∧ ∀ raw ∈ raws, raw.Valid := by
  constructor
  · rintro ⟨items, h⟩
    exact tiles_of_decodeItems h
  · rintro ⟨raws, htiles, hvalid⟩
    exact decodeItems_of_tiles htiles hvalid

/-! ## Messages and signals -/

/-- A run over a declared body that stays inside its buffers, whose loop ends within one pass per
four octets, and that succeeds exactly when the body is framed and made of valid TLVs. -/
structure Decoding.Exact {α : Type} (run : Decoding α) (framed : Prop) (body : List UInt8)
    (declared : ℕ) : Prop where
  inBounds : run.result ≠ .error .outOfBounds
  completed : run.completed ≤ declared / 4
  /-- One more pass may be entered, for up to three octets that are no TLV. -/
  entered : run.entered ≤ (declared + 3) / 4
  accepts : Succeeds run.result ↔ framed ∧ ∃ raws, Tiles raws body ∧ ∀ raw ∈ raws, raw.Valid

theorem Decoding.exact_stopped {α : Type} {framed : Prop} (hframed : ¬ framed) (e : CodecError)
    (body : List UInt8) (declared : ℕ) :
    (stopped (.raised e) : Decoding α).Exact framed body declared where
  inBounds := nofun
  completed := Nat.zero_le _
  entered := Nat.zero_le _
  accepts := iff_of_false (not_succeeds_error _) fun h => hframed h.1

theorem Decoding.exact_readItems {α : Type} {framed : Prop} (hframed : framed)
    (f : List DataItem → α) {body : List UInt8} {declared : ℕ} (hbody : body.length ≤ declared) :
    ((readItems body).map f).Exact framed body declared := by
  obtain ⟨hcompleted, hentered⟩ := readItems_passes body
  have hresult : ((readItems body).map f).result = lift (f <$> decodeItems body) := by
    rw [map, readItems_result, lift_map]
  refine ⟨?_, ?_, ?_, ?_⟩
  · rw [hresult]
    exact lift_ne_outOfBounds _
  · dsimp only [map]
    omega
  · dsimp only [map]
    omega
  · rw [hresult, succeeds_lift, succeeds_map, decodeItems_iff]
    exact (and_iff_right hframed).symm

theorem Message.read_result (src : List UInt8) :
    (Message.read src).result = lift (Message.decode src) := by
  unfold Message.read
  by_cases h : Framed src
  · rw [readHeader_of_framed h, decode_of_framed h]
    dsimp only [Decoding.map]
    rw [readItems_result, lift_map]
    rfl
  · obtain ⟨e, hread, hdecode⟩ := readHeader_of_not_framed h
    rw [hread, hdecode]
    rfl

theorem Signal.read_result (src : List UInt8) :
    (Signal.read src).result = lift (Signal.decode src) := by
  unfold Signal.read
  by_cases h : Framed src
  · rw [readHeader_of_framed h, decode_of_framed h]
    dsimp only [Decoding.map]
    rw [readItems_result, lift_map]
    rfl
  · obtain ⟨e, hread, hdecode⟩ := readHeader_of_not_framed h
    rw [hread, hdecode]
    rfl

theorem Message.read_exact (src : List UInt8) :
    (Message.read src).Exact (Framed src) ((src.drop 4).take (declaredLen src))
      (declaredLen src) := by
  unfold Message.read
  by_cases h : Framed src
  · rw [readHeader_of_framed h]
    exact Decoding.exact_readItems h _ (List.length_take_le ..)
  · obtain ⟨e, hread, -⟩ := readHeader_of_not_framed h
    rw [hread]
    exact Decoding.exact_stopped h e _ _

theorem Signal.read_exact (src : List UInt8) :
    (Signal.read src).Exact (Framed src) (src.drop 8) (declaredLen src) := by
  unfold Signal.read
  by_cases h : Framed src
  · rw [readHeader_of_framed h]
    refine Decoding.exact_readItems h _ ?_
    rw [List.length_drop, ← h.2]
    omega
  · obtain ⟨e, hread, -⟩ := readHeader_of_not_framed h
    rw [hread]
    exact Decoding.exact_stopped h e _ _

/-- What follows the declared body is not looked at. -/
theorem Message.read_append {src : List UInt8} (h : Framed src) (more : List UInt8) :
    Message.read (src ++ more) = Message.read src := by
  have hframed : 4 + declaredLen src ≤ src.length := h
  have hlen : declaredLen (src ++ more) = declaredLen src := by
    unfold declaredLen
    rw [List.drop_append_of_le_length (by omega),
      List.take_append_of_le_length (by rw [List.length_drop]; omega)]
  have htype : (src ++ more).take 2 = src.take 2 := List.take_append_of_le_length (by omega)
  have hbody : ((src ++ more).drop 4).take (declaredLen src) =
      (src.drop 4).take (declaredLen src) := by
    rw [List.drop_append_of_le_length (by omega),
      List.take_append_of_le_length (by rw [List.length_drop]; omega)]
  have happend : Framed (src ++ more) := by
    rw [Framed, hlen, List.length_append]
    omega
  rw [Message.read, readHeader_of_framed happend, Message.read, readHeader_of_framed h, hlen, htype,
    hbody]

/-- Decoding any octets stays inside them, takes at most one pass per four declared octets and
succeeds exactly for a declared body that valid TLVs fill. Each TLV is consumed as a whole, and
what follows the declared body changes nothing. -/
theorem decoding_safe_and_exact (src : List UInt8) :
    ((Message.read src).result = lift (Message.decode src) ∧
      (Message.read src).Exact (Message.Framed src)
        ((src.drop 4).take (Message.declaredLen src)) (Message.declaredLen src) ∧
      (Message.Framed src → ∀ more, Message.read (src ++ more) = Message.read src)) ∧
    ((Signal.read src).result = lift (Signal.decode src) ∧
      (Signal.read src).Exact (Signal.Framed src) (src.drop 8) (Signal.declaredLen src)) ∧
    (∀ raw rest, RawDataItem.read src = .ok (raw, rest) →
      src = raw.bytes ++ rest ∧ src.length = 4 + raw.value.length + rest.length) := by
  refine ⟨⟨Message.read_result src, Message.read_exact src, Message.read_append⟩,
    ⟨Signal.read_result src, Signal.read_exact src⟩, ?_⟩
  intro raw rest hread
  have hlength := RawDataItem.read_length hread
  rw [RawDataItem.read_eq] at hread
  exact ⟨(RawDataItem.decode_ok (lift_eq_ok.mp hread)).1, hlength.symm⟩

end Dlep
