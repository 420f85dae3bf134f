-- SUMMARY: What the message builders write and the extractors read back.
import Dlep.Fsm.Modem
import Dlep.Fsm.Router

/-!
# Contents of built messages

Every message a state machine sends comes from a builder. This file says what each
reader of the receiving side finds in it: the MAC address, the status, the
metrics, the address changes.
-/

namespace Dlep

variable {i : DataItem}

/-! ## Metric items -/

/-- A typed metric item. -/
def DataItem.isMetricItem : DataItem → Bool
  | .maxDataRateReceive _ | .maxDataRateTransmit _ | .currentDataRateReceive _
  | .currentDataRateTransmit _ | .latency _ | .resources _ | .relativeLinkQualityReceive _
  | .relativeLinkQualityTransmit _ | .mtu _ => true
  | _ => false

theorem isMetricItem_of_mem {m : LinkMetrics} (h : i ∈ metricItems m) : i.isMetricItem = true := by
  simp only [metricItems, List.mem_append, List.mem_cons, List.not_mem_nil, or_false,
    Option.mem_toList, Option.map_eq_some_iff] at h
  rcases h with ((((rfl | rfl | rfl | rfl | rfl) | ⟨_, -, rfl⟩) | ⟨_, -, rfl⟩) | ⟨_, -, rfl⟩) | ⟨_, -, rfl⟩
    <;> rfl

/-- A reader that skips metric items does not see what `push_metric_items` adds. -/
theorem findSome?_pushMetricItems {α : Type} {f : DataItem → Option α}
    (hf : ∀ i, i.isMetricItem = true → f i = none) (msg : Message) (m : LinkMetrics) :
    (pushMetricItems msg m).dataItems.findSome? f = msg.dataItems.findSome? f := by
  have hnone : (metricItems m).findSome? f = none :=
    List.findSome?_eq_none_iff.mpr fun i hi => hf i (isMetricItem_of_mem hi)
  rw [pushMetricItems, List.findSome?_append, hnone, Option.or_none]

@[simp] theorem extractDestinationMac_pushMetricItems (msg : Message) (m : LinkMetrics) :
    extractDestinationMac (pushMetricItems msg m) = extractDestinationMac msg :=
  findSome?_pushMetricItems (fun i hi => by cases i <;> first | rfl | cases hi) msg m

@[simp] theorem extractStatus_pushMetricItems (msg : Message) (m : LinkMetrics) :
    extractStatus (pushMetricItems msg m) = extractStatus msg :=
  findSome?_pushMetricItems (fun i hi => by cases i <;> first | rfl | cases hi) msg m

theorem extractDestinationMac_buildSessionInitializationResponse (config : SessionConfig) :
    extractDestinationMac (buildSessionInitializationResponse config) = none := by
  rw [buildSessionInitializationResponse, extractDestinationMac_pushMetricItems,
    pushExtensionsSupported]
  split <;> rfl

/-! ## Address items -/

/-- An address or attached-subnet item. -/
def DataItem.isAddressItem : DataItem → Bool
  | .ipv4Address .. | .ipv6Address .. | .ipv4AttachedSubnet .. | .ipv6AttachedSubnet .. => true
  | _ => false

theorem isAddressItem_of_mem_sideItems {add : Bool} {d : DestinationAddrs}
    (h : i ∈ AddressChanges.sideItems add d) : i.isAddressItem = true := by
  simp only [AddressChanges.sideItems, List.mem_append, List.mem_map] at h
  rcases h with ((⟨_, -, rfl⟩ | ⟨_, -, rfl⟩) | ⟨_, -, rfl⟩) | ⟨_, -, rfl⟩ <;> rfl

theorem isAddressItem_of_mem_upAddressItems {d : DestinationAddrs} (h : i ∈ upAddressItems d) :
    i.isAddressItem = true := by
  simp only [upAddressItems, List.mem_append, List.mem_map] at h
  rcases h with ((⟨_, -, rfl⟩ | ⟨_, -, rfl⟩) | ⟨_, -, rfl⟩) | ⟨_, -, rfl⟩ <;> rfl

/-- A reader that skips address items does not see what `append_to` adds. -/
theorem findSome?_appendTo {α : Type} {f : DataItem → Option α}
    (hf : ∀ i, i.isAddressItem = true → f i = none) (c : AddressChanges) (msg : Message) :
    (c.appendTo msg).dataItems.findSome? f = msg.dataItems.findSome? f := by
  have hside : ∀ add d, (AddressChanges.sideItems add d).findSome? f = none := fun add d =>
    List.findSome?_eq_none_iff.mpr fun i hi => hf i (isAddressItem_of_mem_sideItems hi)
  rw [AddressChanges.appendTo, List.findSome?_append, List.findSome?_append, hside, hside,
    Option.or_none, Option.or_none]

@[simp] theorem extractDestinationMac_appendTo (c : AddressChanges) (msg : Message) :
    extractDestinationMac (c.appendTo msg) = extractDestinationMac msg :=
  findSome?_appendTo (fun i hi => by cases i <;> first | rfl | cases hi) c msg

@[simp] theorem extractStatus_appendTo (c : AddressChanges) (msg : Message) :
    extractStatus (c.appendTo msg) = extractStatus msg :=
  findSome?_appendTo (fun i hi => by cases i <;> first | rfl | cases hi) c msg

theorem findSome?_upAddressItems {α : Type} {f : DataItem → Option α}
    (hf : ∀ i, i.isAddressItem = true → f i = none) (d : DestinationAddrs) :
    (upAddressItems d).findSome? f = none :=
  List.findSome?_eq_none_iff.mpr fun i hi => hf i (isAddressItem_of_mem_upAddressItems hi)

theorem extractStatus_buildDestinationUp (mac : MacAddress) (metrics : LinkMetrics)
    (addrs : DestinationAddrs) : extractStatus (buildDestinationUp mac metrics addrs) = none := by
  rw [buildDestinationUp, extractStatus_pushMetricItems, extractStatus, List.findSome?_append,
    findSome?_upAddressItems fun i hi => by cases i <;> first | rfl | cases hi]
  rfl

/-- An Up carries no status of its own, so the trailing one is found. -/
theorem extractStatus_announceSuccess (mac : MacAddress) (d : ModemDestination) :
    extractStatus (ModemSessionFsm.announceSuccess mac d) = some .success := by
  have hup := extractStatus_buildDestinationUp mac d.metrics d.addrs
  rw [extractStatus] at hup
  rw [extractStatus, ModemSessionFsm.announceSuccess, List.findSome?_append, hup]
  rfl

/-- The reader of address changes skips everything but address items. -/
theorem skipped_of_not_address (h : i.isAddressItem = false) : AddressChanges.Skipped i := by
  cases i <;> first
    | exact fun _ => rfl
    | cases h

theorem skipped_of_metric (h : i.isMetricItem = true) : AddressChanges.Skipped i := by
  cases i <;> first
    | exact fun _ => rfl
    | cases h

@[simp] theorem fromMessage_pushMetricItems (msg : Message) (m : LinkMetrics) :
    AddressChanges.fromMessage (pushMetricItems msg m) = AddressChanges.fromMessage msg := by
  rw [AddressChanges.fromMessage, pushMetricItems, List.foldl_append]
  exact AddressChanges.foldl_absorb_of_skipped
    (fun i hi => skipped_of_metric (isMetricItem_of_mem hi)) _

theorem fromMessage_buildSessionUpdate (m : LinkMetrics) :
    AddressChanges.fromMessage (buildSessionUpdate m) = .default :=
  fromMessage_pushMetricItems _ m

/-! ## Message types -/

/-- What an acknowledged Up left to report is a Destination Update. -/
theorem messageType_deferredUpdate {mac : MacAddress} {d : ModemDestination} {m : Message}
    (h : ModemSessionFsm.deferredUpdate mac d = some m) : m.messageType = .destinationUpdate := by
  simp only [ModemSessionFsm.deferredUpdate] at h
  split at h
  · cases h
    split <;> rfl
  · cases h

theorem messageType_pushExtensionsSupported (m : Message) (ids : List ExtensionId) :
    (pushExtensionsSupported m ids).messageType = m.messageType := by
  unfold pushExtensionsSupported
  split <;> rfl

theorem messageType_buildSessionInitializationResponse (config : SessionConfig) :
    (buildSessionInitializationResponse config).messageType = .sessionInitializationResponse :=
  messageType_pushExtensionsSupported _ _

theorem messageType_buildSessionInitialization (config : SessionConfig) :
    (buildSessionInitialization config).messageType = .sessionInitialization :=
  messageType_pushExtensionsSupported _ _

theorem extractDestinationMac_deferredUpdate {mac : MacAddress} {d : ModemDestination} {m : Message}
    (h : ModemSessionFsm.deferredUpdate mac d = some m) : extractDestinationMac m = some mac := by
  simp only [ModemSessionFsm.deferredUpdate] at h
  split at h
  · cases h
    split <;> rfl
  · cases h

/-! ## Acknowledged destinations -/

@[simp] theorem ModemSessionFsm.announced_acknowledge (mac : MacAddress) (d : ModemDestination) :
    (acknowledge mac d).announced = true := by
  unfold acknowledge
  split <;> rfl

@[simp] theorem ModemSessionFsm.metrics_acknowledge (mac : MacAddress) (d : ModemDestination) :
    (acknowledge mac d).metrics = d.metrics := by
  unfold acknowledge
  split <;> rfl

end Dlep
