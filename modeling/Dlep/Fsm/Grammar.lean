-- SUMMARY: Which messages pass the grammar check: distinct, encodable, allowed items, and the required ones.
import Dlep.Fsm.Metrics
import Dlep.Fsm.Accepted

/-!
# Messages that pass validation

The converse of what validation establishes: a message whose items are typed,
encodable, allowed and pairwise distinct, with the required ones among them, passes
`validate_message`. The builders' item lists are such lists.
-/

namespace Dlep

/-! ## Distinct items -/

namespace DataItem

variable {i j : DataItem}

theorem tlv_ne_of_typeId_ne (h : i.typeId ≠ j.typeId) : i.tlv ≠ j.tlv := by
  intro heq
  refine h ?_
  simp only [tlv, List.append_assoc] at heq
  obtain ⟨htype, -⟩ := List.append_inj heq (by simp)
  have hid := Bytes.ofNat_inj i.typeId.id.toNat_lt j.typeId.id.toNat_lt htype
  cases hi : i.typeId
  cases hj : j.typeId
  rw [hi, hj] at hid
  exact congrArg DataItemType.mk (UInt16.toNat_inj.mp hid)

theorem valueBytes_eq_of_tlv (h : i.tlv = j.tlv) : i.valueBytes = j.valueBytes := by
  simp only [tlv, List.append_assoc] at h
  obtain ⟨-, h⟩ := List.append_inj h (by simp)
  exact (List.append_inj h (by simp)).2

/-- Items that the item loop tells apart. -/
def Distinct (i j : DataItem) : Prop :=
  i.typeId ≠ j.typeId ∨ i.typeId.isAddress = true ∧ i.tlv ≠ j.tlv

theorem Distinct.tlv_ne (h : Distinct i j) : i.tlv ≠ j.tlv := by
  rcases h with h | ⟨-, h⟩
  · exact tlv_ne_of_typeId_ne h
  · exact h

theorem Distinct.typeId_ne (h : Distinct i j) (hi : i.typeId.isAddress = false) :
    i.typeId ≠ j.typeId := by
  rcases h with h | ⟨ha, -⟩
  · exact h
  · cases hi.symm.trans ha

end DataItem

/-! ## The item loop -/

/-- An item that the loop lets through on its own. -/
structure DataItem.Admitted (mt : MessageType) (router initializing : Bool) (i : DataItem) :
    Prop where
  typed : ∀ raw, i ≠ .unknown raw
  allowed : allowedItem mt router i.typeId = true
  encodable : i.Encodable
  additive : initializing = true → isRemoval i = false

section

variable {msg : Message} {router initializing : Bool} {localExtensions : List ExtensionId}

/-- One admitted item that was not met before. -/
theorem checkItems_cons {i : DataItem} {items : List DataItem} {types : List DataItemType}
    {addresses : List (List UInt8)} (h : i.Admitted msg.messageType router initializing)
    (htype : i.typeId.isAddress = false → i.typeId ∉ types)
    (haddress : i.typeId.isAddress = true → i.tlv ∉ addresses) :
    checkItems msg router initializing localExtensions (i :: items) types addresses =
      checkItems msg router initializing localExtensions items
        (if i.typeId.isAddress then types else i.typeId :: types)
        (if i.typeId.isAddress then i.tlv :: addresses else addresses) := by
  have hencode := DataItem.encode_of_encodable h.encodable []
  rw [List.nil_append] at hencode
  rw [checkItems.eq_3 _ _ _ _ _ _ _ _ h.typed]
  simp only [h.allowed, hencode, Bool.not_true, Bool.false_eq_true, if_false]
  cases ha : i.typeId.isAddress with
  | true =>
    have hnew : addresses.contains i.tlv = false := by simpa using haddress ha
    have hadd : (initializing && isRemoval i) = false := by
      cases initializing with
      | false => rfl
      | true => simpa using h.additive rfl
    simp only [if_true, hnew, hadd, Bool.false_eq_true, if_false]
  | false =>
    have hnew : types.contains i.typeId = false := by simpa using htype ha
    simp only [Bool.false_eq_true, if_false, hnew]

/-- The loop passes over admitted, pairwise distinct items and collects their types. -/
theorem checkItems_ok (localExtensions : List ExtensionId) {items : List DataItem} {types : List DataItemType}
    {addresses : List (List UInt8)}
    (hitems : ∀ i ∈ items, i.Admitted msg.messageType router initializing)
    (hdistinct : items.Pairwise DataItem.Distinct)
    (htypes : ∀ i ∈ items, i.typeId.isAddress = false → i.typeId ∉ types)
    (haddresses : ∀ i ∈ items, i.typeId.isAddress = true → i.tlv ∉ addresses) :
    ∃ types', checkItems msg router initializing localExtensions items types addresses =
        .ok types' ∧ (∀ t ∈ types, t ∈ types') ∧
      ∀ i ∈ items, i.typeId.isAddress = false → i.typeId ∈ types' := by
  induction items generalizing types addresses with
  | nil => exact ⟨types, rfl, fun _ h => h, by simp⟩
  | cons i items ih =>
    obtain ⟨hhead, htail⟩ := List.pairwise_cons.mp hdistinct
    rw [checkItems_cons (hitems i List.mem_cons_self) (htypes i List.mem_cons_self)
      (haddresses i List.mem_cons_self)]
    have htypes' : ∀ j ∈ items, j.typeId.isAddress = false →
        j.typeId ∉ if i.typeId.isAddress then types else i.typeId :: types := by
      intro j hj hja
      have hj' := htypes j (List.mem_cons_of_mem _ hj) hja
      split
      · exact hj'
      · rename_i hia
        rw [List.mem_cons, not_or]
        exact ⟨((hhead j hj).typeId_ne (by simpa using hia)).symm, hj'⟩
    have haddresses' : ∀ j ∈ items, j.typeId.isAddress = true →
        j.tlv ∉ if i.typeId.isAddress then i.tlv :: addresses else addresses := by
      intro j hj hja
      have hj' := haddresses j (List.mem_cons_of_mem _ hj) hja
      split
      · rw [List.mem_cons, not_or]
        exact ⟨(hhead j hj).tlv_ne.symm, hj'⟩
      · exact hj'
    obtain ⟨types', hok, hkept, hcollected⟩ :=
      ih (fun j hj => hitems j (List.mem_cons_of_mem _ hj)) htail htypes' haddresses'
    refine ⟨types', hok, fun t ht => hkept t ?_, fun j hj hja => ?_⟩
    · split
      · exact ht
      · exact List.mem_cons_of_mem _ ht
    · rcases List.mem_cons.mp hj with rfl | hj
      · exact hkept _ (by simp [hja])
      · exact hcollected j hj hja

/-! ## Well-formed messages -/

/-- A list of items that can be put on the wire and told apart there. -/
structure Writable (items : List DataItem) : Prop where
  typed : ∀ i ∈ items, ∀ raw, i ≠ .unknown raw
  encodable : ∀ i ∈ items, i.Encodable
  distinct : items.Pairwise DataItem.Distinct

/-- A message that passes the grammar check of a role in its phase. -/
structure Message.WellFormed (msg : Message) (router initializing : Bool) : Prop where
  core : msg.messageType.isCore = true
  expected : expectedType msg.messageType router initializing = true
  writable : Writable msg.dataItems
  allowed : ∀ i ∈ msg.dataItems, allowedItem msg.messageType router i.typeId = true
  additive : initializing = true → ∀ i ∈ msg.dataItems, isRemoval i = false
  required : ∀ t ∈ requiredItems msg.messageType,
    t.isAddress = false ∧ ∃ i ∈ msg.dataItems, i.typeId = t
  requested : msg.messageType = .linkCharacteristicsRequest → ∃ i ∈ msg.dataItems,
    i.typeId ∈ [DataItemType.currentDataRateReceive, .currentDataRateTransmit, .latency]

theorem Message.WellFormed.validate (h : msg.WellFormed router initializing) :
    validateMessage msg router initializing localExtensions = .ok () := by
  have hadmitted : ∀ i ∈ msg.dataItems, i.Admitted msg.messageType router initializing :=
    fun i hi => ⟨h.writable.typed i hi, h.allowed i hi, h.writable.encodable i hi,
      fun hinit => h.additive hinit i hi⟩
  obtain ⟨types, hok, -, hcollected⟩ := checkItems_ok localExtensions hadmitted
    h.writable.distinct (fun _ _ _ => List.not_mem_nil) fun _ _ _ => List.not_mem_nil
  have hrequired : ((requiredItems msg.messageType).any fun t => !types.contains t) = false := by
    simp only [List.any_eq_false, Bool.not_eq_true, Bool.not_eq_false', List.contains_iff_mem]
    intro t ht
    obtain ⟨hta, i, hi, rfl⟩ := h.required t ht
    exact hcollected i hi hta
  simp only [validateMessage, h.core, h.expected, hok, hrequired, Bool.not_true,
    Bool.false_eq_true, if_false]
  split
  · rename_i hlink
    simp only [Bool.and_eq_true, decide_eq_true_eq, Bool.not_eq_true', List.any_eq_false] at hlink
    obtain ⟨i, hi, hmem⟩ := h.requested hlink.1
    have hia : i.typeId.isAddress = false := by
      simp only [List.mem_cons, List.not_mem_nil, or_false] at hmem
      rcases hmem with hmem | hmem | hmem <;> rw [hmem] <;> rfl
    exact absurd hmem (hlink.2 _ (hcollected i hi hia))
  · rfl

end

/-! ## Writable lists -/

theorem Writable.nil : Writable [] := ⟨by simp, by simp, .nil⟩

theorem Writable.of_types {items : List DataItem} (htyped : ∀ i ∈ items, ∀ raw, i ≠ .unknown raw)
    (hencodable : ∀ i ∈ items, i.Encodable) (hnodup : (items.map DataItem.typeId).Nodup) :
    Writable items :=
  ⟨htyped, hencodable, (List.pairwise_map.mp hnodup).imp .inl⟩

/-- Two writable lists whose types a test separates. -/
theorem Writable.append {xs ys : List DataItem} (hx : Writable xs) (hy : Writable ys)
    (p : DataItemType → Bool) (hpx : ∀ i ∈ xs, p i.typeId = true)
    (hpy : ∀ i ∈ ys, p i.typeId = false) : Writable (xs ++ ys) := by
  refine ⟨?_, ?_, List.pairwise_append.mpr ⟨hx.distinct, hy.distinct, ?_⟩⟩
  · exact List.forall_mem_append.mpr ⟨hx.typed, hy.typed⟩
  · exact List.forall_mem_append.mpr ⟨hx.encodable, hy.encodable⟩
  · intro i hi j hj
    refine .inl fun heq => ?_
    have h := hpx i hi
    rw [heq, hpy j hj] at h
    cases h

namespace DataItem

variable {i : DataItem}

theorem typeId_isMetric (h : i.isMetricItem = true) : i.typeId.isMetric = true := by
  cases i <;> first
    | rfl
    | cases h

theorem typeId_isAddress (h : i.isAddressItem = true) : i.typeId.isAddress = true := by
  cases i <;> first
    | rfl
    | cases h

theorem encodable_of_isAddressItem (h : i.isAddressItem = true) : i.Encodable := by
  cases i <;> first
    | (cases h; done)
    | exact ⟨trivial, by simp [valueBytes, u16Max]⟩

theorem typed_of_isAddressItem (h : i.isAddressItem = true) : ∀ raw, i ≠ .unknown raw := by
  rintro raw rfl
  cases h

end DataItem

theorem isMetric_eq_false_of_isAddress {t : DataItemType} (h : t.isAddress = true) :
    t.isMetric = false := by
  simp only [DataItemType.isAddress, DataItemType.isMetric, Bool.and_eq_true, decide_eq_true_eq,
    Bool.and_eq_false_iff, decide_eq_false_iff_not] at h ⊢
  left
  intro h'
  exact absurd (UInt16.le_trans h' h.2) (by decide)

/-- The item types of metrics with the given optional fields. -/
def shapeTypes (resources rlqRx rlqTx mtu : Bool) : List DataItemType :=
  [.maximumDataRateReceive, .maximumDataRateTransmit, .currentDataRateReceive,
    .currentDataRateTransmit, .latency] ++
    (if resources then [.resources] else []) ++
    (if rlqRx then [.relativeLinkQualityReceive] else []) ++
    (if rlqTx then [.relativeLinkQualityTransmit] else []) ++ (if mtu then [.mtu] else [])

theorem nodup_shapeTypes : ∀ resources rlqRx rlqTx mtu,
    (shapeTypes resources rlqRx rlqTx mtu).Nodup := by
  decide

/-- The types of the items that carry the metrics. -/
def LinkMetrics.types (m : LinkMetrics) : List DataItemType :=
  shapeTypes m.resources.isSome m.rlqRx.isSome m.rlqTx.isSome m.mtu.isSome

theorem mem_shapeTypes {resources rlqRx rlqTx mtu : Bool} {t : DataItemType} :
    t ∈ shapeTypes resources rlqRx rlqTx mtu ↔ t ∈ shapeTypes false false false false ∨
      resources = true ∧ t = .resources ∨ rlqRx = true ∧ t = .relativeLinkQualityReceive ∨
      rlqTx = true ∧ t = .relativeLinkQualityTransmit ∨ mtu = true ∧ t = .mtu := by
  cases resources <;> cases rlqRx <;> cases rlqTx <;> cases mtu <;>
    simp [shapeTypes, or_assoc]

namespace LinkMetrics

theorem mem_types_of_mandatory (m : LinkMetrics) {t : DataItemType}
    (h : t ∈ shapeTypes false false false false) : t ∈ m.types := mem_shapeTypes.mpr (.inl h)

theorem types_of_sameShape {a b : LinkMetrics} (h : a.SameShape b) : a.types = b.types := by
  rw [types, types, h.resources, h.rlqRx, h.rlqTx, h.mtu]

/-- Supported metrics have declared types only. -/
theorem types_of_supported {m initial : LinkMetrics} (h : m.supportedBy initial = true) :
    ∀ t ∈ m.types, t ∈ initial.types := by
  simp only [supportedBy, Bool.and_eq_true, Bool.or_eq_true, Option.isNone_iff_eq_none] at h
  obtain ⟨⟨⟨h₁, h₂⟩, h₃⟩, h₄⟩ := h
  intro t ht
  unfold types at ht ⊢
  rw [mem_shapeTypes] at ht ⊢
  rcases ht with ht | ⟨hs, rfl⟩ | ⟨hs, rfl⟩ | ⟨hs, rfl⟩ | ⟨hs, rfl⟩
  · exact .inl ht
  · exact .inr (.inl ⟨h₁.resolve_left (by rintro h; simp [h] at hs), rfl⟩)
  · exact .inr (.inr (.inl ⟨h₂.resolve_left (by rintro h; simp [h] at hs), rfl⟩))
  · exact .inr (.inr (.inr (.inl ⟨h₃.resolve_left (by rintro h; simp [h] at hs), rfl⟩)))
  · exact .inr (.inr (.inr (.inr ⟨h₄.resolve_left (by rintro h; simp [h] at hs), rfl⟩)))

end LinkMetrics

theorem map_typeId_metricItems (m : LinkMetrics) : (metricItems m).map DataItem.typeId = m.types := by
  obtain ⟨_, _, _, _, _, res, rx, tx, mtu⟩ := m
  cases res <;> cases rx <;> cases tx <;> cases mtu <;> rfl

/-- Metrics within the ranges of their items. -/
def LinkMetrics.Encodable (m : LinkMetrics) : Prop := ∀ i ∈ metricItems m, i.Encodable

theorem LinkMetrics.Encodable.overlay {base m : LinkMetrics} (hbase : base.Encodable)
    (hm : m.Encodable) : (base.overlay m).Encodable := by
  intro i hi
  have hmem : i ∈ metricItems m ∨ i ∈ metricItems base := by
    simp only [metricItems, LinkMetrics.overlay, List.mem_append, List.mem_cons, List.not_mem_nil,
      or_false, Option.mem_toList, Option.map_eq_some_iff, Option.or_eq_some_iff] at hi ⊢
    grind
  rcases hmem with hmem | hmem
  · exact hm i hmem
  · exact hbase i hmem

theorem writable_metricItems {m : LinkMetrics} (h : m.Encodable) : Writable (metricItems m) := by
  refine .of_types (fun i hi raw hraw => ?_) h ?_
  · have hmetric := isMetricItem_of_mem hi
    rw [hraw] at hmetric
    cases hmetric
  · rw [map_typeId_metricItems]
    exact nodup_shapeTypes _ _ _ _

/-! ### Addresses -/

theorem encodeFlag_inj {a b : Bool} (h : encodeFlag a = encodeFlag b) : a = b := by
  cases a <;> cases b <;> first
    | rfl
    | cases h

namespace DataItem

variable {a b : Bool}

theorem ipv4Address_inj {x y : Ipv4Addr} (h : (ipv4Address a x).tlv = (ipv4Address b y).tlv) :
    a = b ∧ x = y := by
  have hv := valueBytes_eq_of_tlv h
  simp only [valueBytes, List.cons.injEq] at hv
  exact ⟨encodeFlag_inj hv.1, BitVec.eq_of_toNat_eq (Bytes.ofNat_inj x.isLt y.isLt hv.2)⟩

theorem ipv6Address_inj {x y : Ipv6Addr} (h : (ipv6Address a x).tlv = (ipv6Address b y).tlv) :
    a = b ∧ x = y := by
  have hv := valueBytes_eq_of_tlv h
  simp only [valueBytes, List.cons.injEq] at hv
  exact ⟨encodeFlag_inj hv.1, BitVec.eq_of_toNat_eq (Bytes.ofNat_inj x.isLt y.isLt hv.2)⟩

/-- Two subnets in network form are told apart by what their items carry. -/
theorem subnet_inj {w n : ℕ} {x y : IpNet w} (hw : 2 ^ w = 256 ^ n) (hfit : w < 256)
    (hx : x.trunc = x) (hy : y.trunc = y)
    (h : encodeFlag a :: (Bytes.ofNat n x.network.toNat ++ [UInt8.ofNat x.prefixLen]) =
      encodeFlag b :: (Bytes.ofNat n y.network.toNat ++ [UInt8.ofNat y.prefixLen])) :
    a = b ∧ x = y := by
  rw [List.cons.injEq] at h
  obtain ⟨hnet, hlen⟩ := List.append_inj h.2 (by simp)
  have hnet := BitVec.eq_of_toNat_eq
    (Bytes.ofNat_inj (hw ▸ x.network.isLt) (hw ▸ y.network.isLt) hnet)
  have hlen : x.prefixLen = y.prefixLen := by
    have hval := congrArg UInt8.toNat (List.singleton_inj.mp hlen)
    rw [UInt8.toNat_ofNat', UInt8.toNat_ofNat'] at hval
    have := x.prefixLen.isLt
    have := y.prefixLen.isLt
    exact Fin.ext (by omega)
  refine ⟨encodeFlag_inj h.1, ?_⟩
  rw [← hx, ← hy, IpNet.trunc, IpNet.trunc, hnet, hlen]

theorem ipv4AttachedSubnet_inj {x y : Ipv4Net} (hx : x.trunc = x) (hy : y.trunc = y)
    (h : (ipv4AttachedSubnet a x).tlv = (ipv4AttachedSubnet b y).tlv) : a = b ∧ x = y :=
  subnet_inj (n := 4) (by decide) (by decide) hx hy (valueBytes_eq_of_tlv h)

theorem ipv6AttachedSubnet_inj {x y : Ipv6Net} (hx : x.trunc = x) (hy : y.trunc = y)
    (h : (ipv6AttachedSubnet a x).tlv = (ipv6AttachedSubnet b y).tlv) : a = b ∧ x = y :=
  subnet_inj (n := 16) (by decide) (by decide) hx hy (valueBytes_eq_of_tlv h)

end DataItem

/-- One family of address items, told apart by a reader that inverts it. -/
theorem writable_family {α : Type} {f : α → DataItem} {xs : List α}
    (haddress : ∀ x, (f x).isAddressItem = true) (hnodup : xs.Nodup)
    (hinj : ∀ x ∈ xs, ∀ y ∈ xs, (f x).tlv = (f y).tlv → x = y) : Writable (xs.map f) := by
  refine ⟨fun i hi => ?_, fun i hi => ?_, ?_⟩
  · obtain ⟨x, -, rfl⟩ := List.mem_map.mp hi
    exact DataItem.typed_of_isAddressItem (haddress x)
  · obtain ⟨x, -, rfl⟩ := List.mem_map.mp hi
    exact DataItem.encodable_of_isAddressItem (haddress x)
  · refine List.pairwise_map.mpr (List.Pairwise.imp_of_mem ?_ hnodup)
    intro x y hx hy hne
    exact .inr ⟨DataItem.typeId_isAddress (haddress x), fun htlv => hne (hinj x hx y hy htlv)⟩

theorem DestinationAddrs.WellFormed.trunc_v4Subnets {d : DestinationAddrs} (h : d.WellFormed) :
    d.v4Subnets.map IpNet.trunc = d.v4Subnets := congrArg DestinationAddrs.v4Subnets h.canonical

theorem DestinationAddrs.WellFormed.trunc_v6Subnets {d : DestinationAddrs} (h : d.WellFormed) :
    d.v6Subnets.map IpNet.trunc = d.v6Subnets := congrArg DestinationAddrs.v6Subnets h.canonical

namespace AddressChanges

variable {d : DestinationAddrs}

/-- A well-formed set in network form is written as it is stored. -/
theorem sideItems_eq (h : d.WellFormed) (add : Bool) :
    sideItems add d = d.v4.map (.ipv4Address add) ++ d.v6.map (.ipv6Address add) ++
      d.v4Subnets.map (.ipv4AttachedSubnet add) ++ d.v6Subnets.map (.ipv6AttachedSubnet add) := by
  have h₄ : d.v4Subnets.map (fun s => DataItem.ipv4AttachedSubnet add s.trunc) =
      d.v4Subnets.map (.ipv4AttachedSubnet add) := by
    nth_rewrite 2 [← h.trunc_v4Subnets]
    rw [List.map_map]
    rfl
  have h₆ : d.v6Subnets.map (fun s => DataItem.ipv6AttachedSubnet add s.trunc) =
      d.v6Subnets.map (.ipv6AttachedSubnet add) := by
    nth_rewrite 2 [← h.trunc_v6Subnets]
    rw [List.map_map]
    rfl
  rw [sideItems, h₄, h₆]

theorem upAddressItems_eq (h : d.WellFormed) : upAddressItems d = sideItems true d :=
  (sideItems_eq h true).symm

private theorem trunc_of_mem {w : ℕ} {ns : List (IpNet w)} (h : ns.map IpNet.trunc = ns) :
    ∀ n ∈ ns, n.trunc = n := by
  intro n hn
  rw [← h] at hn
  obtain ⟨m, -, rfl⟩ := List.mem_map.mp hn
  exact m.trunc_trunc

/-- The items of a well-formed set. -/
theorem writable_sideItems (h : d.WellFormed) (add : Bool) : Writable (sideItems add d) := by
  have ht₄ := trunc_of_mem h.trunc_v4Subnets
  have ht₆ := trunc_of_mem h.trunc_v6Subnets
  have h₁ : Writable (d.v4.map (.ipv4Address add)) :=
    writable_family (fun _ => rfl) h.v4 fun _ _ _ _ heq => (DataItem.ipv4Address_inj heq).2
  have h₂ : Writable (d.v6.map (.ipv6Address add)) :=
    writable_family (fun _ => rfl) h.v6 fun _ _ _ _ heq => (DataItem.ipv6Address_inj heq).2
  have h₃ : Writable (d.v4Subnets.map (.ipv4AttachedSubnet add)) :=
    writable_family (fun _ => rfl) h.v4Subnets fun x hx y hy heq =>
      (DataItem.ipv4AttachedSubnet_inj (ht₄ x hx) (ht₄ y hy) heq).2
  have h₄ : Writable (d.v6Subnets.map (.ipv6AttachedSubnet add)) :=
    writable_family (fun _ => rfl) h.v6Subnets fun x hx y hy heq =>
      (DataItem.ipv6AttachedSubnet_inj (ht₆ x hx) (ht₆ y hy) heq).2
  rw [sideItems_eq h]
  refine ((h₁.append h₂ (fun t => t.id < 9) ?_ ?_).append h₃ (fun t => t.id < 10) ?_ ?_).append h₄
    (fun t => t.id < 11) ?_ ?_
  · exact List.forall_mem_map.mpr fun _ _ => rfl
  · exact List.forall_mem_map.mpr fun _ _ => rfl
  · rw [List.forall_mem_append]
    exact ⟨List.forall_mem_map.mpr fun _ _ => rfl, List.forall_mem_map.mpr fun _ _ => rfl⟩
  · exact List.forall_mem_map.mpr fun _ _ => rfl
  · rw [List.forall_mem_append, List.forall_mem_append]
    exact ⟨⟨List.forall_mem_map.mpr fun _ _ => rfl, List.forall_mem_map.mpr fun _ _ => rfl⟩,
      List.forall_mem_map.mpr fun _ _ => rfl⟩
  · exact List.forall_mem_map.mpr fun _ _ => rfl

/-- The value of an address item starts with its flag. -/
theorem flag_of_mem_sideItems {add : Bool} {i : DataItem} (h : i ∈ sideItems add d) :
    ∃ rest, i.valueBytes = encodeFlag add :: rest := by
  simp only [sideItems, List.mem_append, List.mem_map] at h
  rcases h with ((⟨_, -, rfl⟩ | ⟨_, -, rfl⟩) | ⟨_, -, rfl⟩) | ⟨_, -, rfl⟩ <;> exact ⟨_, rfl⟩

/-- The items of well-formed changes: removals and additions differ in their flag. -/
theorem writable_changes {c : AddressChanges} (hremoved : c.removed.WellFormed)
    (hadded : c.added.WellFormed) :
    Writable (sideItems false c.removed ++ sideItems true c.added) := by
  have hr := writable_sideItems hremoved false
  have ha := writable_sideItems hadded true
  refine ⟨?_, ?_, List.pairwise_append.mpr ⟨hr.distinct, ha.distinct, ?_⟩⟩
  · exact List.forall_mem_append.mpr ⟨hr.typed, ha.typed⟩
  · exact List.forall_mem_append.mpr ⟨hr.encodable, ha.encodable⟩
  · intro i hi j hj
    refine .inr ⟨DataItem.typeId_isAddress (isAddressItem_of_mem_sideItems hi), fun htlv => ?_⟩
    obtain ⟨_, hiv⟩ := flag_of_mem_sideItems hi
    obtain ⟨_, hjv⟩ := flag_of_mem_sideItems hj
    have hv := DataItem.valueBytes_eq_of_tlv htlv
    rw [hiv, hjv, List.cons.injEq] at hv
    cases encodeFlag_inj hv.1

end AddressChanges

end Dlep
