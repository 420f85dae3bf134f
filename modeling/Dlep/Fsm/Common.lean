-- SUMMARY: Session configuration, message builders and extractors shared by both session state machines.
import Dlep.Core.Codec.Encode
import Dlep.Fsm.Events

/-!
# Shared session code

The types, builders and extractors of `session_common.rs`. A builder's items are
written as one list, so that the readers below compute on it.
-/

namespace Dlep

/-! ## Configuration -/

structure SessionConfig where
  macAddressFormat : MacAddressFormat
  peerDescription : String
  initialMetrics : LinkMetrics
  heartbeatIntervalMs : UInt32
  sessionInitTimeout : Duration
  terminationTimeoutOverride : Option Duration
  advertisedExtensions : List ExtensionId
  deferLinkCharacteristics : Bool
  deriving DecidableEq, Repr

/-- `SessionConfig::default()`. -/
def SessionConfig.default : SessionConfig where
  macAddressFormat := .eui48
  peerDescription := "dlep-router"
  initialMetrics := .default
  heartbeatIntervalMs := 60000
  sessionInitTimeout := .ofMillis 5000
  terminationTimeoutOverride := none
  advertisedExtensions := []
  deferLinkCharacteristics := false

/-- The local interval, raised to the RFC minimum. -/
def localHeartbeatInterval (config : SessionConfig) : Duration :=
  .ofMillis (max config.heartbeatIntervalMs MIN_HEARTBEAT_INTERVAL_MS).toUInt64

/-- The effective termination-response deadline. -/
def SessionConfig.terminationTimeout (config : SessionConfig) : Duration :=
  config.terminationTimeoutOverride.getD ((localHeartbeatInterval config).saturatingMul 4)

/-! ## Metric items -/

/-- The items `push_metric_items` appends. -/
def metricItems (m : LinkMetrics) : List DataItem :=
  [.maxDataRateReceive m.maxDataRateRxBps, .maxDataRateTransmit m.maxDataRateTxBps,
    .currentDataRateReceive m.currentDataRateRxBps,
    .currentDataRateTransmit m.currentDataRateTxBps, .latency m.latency] ++
    (m.resources.map DataItem.resources).toList ++
    (m.rlqRx.map DataItem.relativeLinkQualityReceive).toList ++
    (m.rlqTx.map DataItem.relativeLinkQualityTransmit).toList ++
    (m.mtu.map DataItem.mtu).toList

def pushMetricItems (msg : Message) (m : LinkMetrics) : Message :=
  { msg with dataItems := msg.dataItems ++ metricItems m }

/-- One iteration of `merge_link_metrics`. -/
def mergeItem (acc : LinkMetrics × Bool) : DataItem → LinkMetrics × Bool
  | .maxDataRateReceive v => ({ acc.1 with maxDataRateRxBps := v }, true)
  | .maxDataRateTransmit v => ({ acc.1 with maxDataRateTxBps := v }, true)
  | .currentDataRateReceive v => ({ acc.1 with currentDataRateRxBps := v }, true)
  | .currentDataRateTransmit v => ({ acc.1 with currentDataRateTxBps := v }, true)
  | .latency v => ({ acc.1 with latency := v }, true)
  | .resources v => ({ acc.1 with resources := some v }, true)
  | .relativeLinkQualityReceive v => ({ acc.1 with rlqRx := some v }, true)
  | .relativeLinkQualityTransmit v => ({ acc.1 with rlqTx := some v }, true)
  | .mtu v => ({ acc.1 with mtu := some v }, true)
  | _ => acc

/-- Apply the supplied fields; the flag says whether there was one. -/
def mergeLinkMetrics (msg : Message) (m : LinkMetrics) : LinkMetrics × Bool :=
  msg.dataItems.foldl mergeItem (m, false)

/-! ## Builders -/

def buildSessionTermination (reason : StatusCode) : Message :=
  (Message.new .sessionTermination).withItem (.status reason "")

def buildSessionTerminationResponse : Message := .new .sessionTerminationResponse

def buildSessionUpdate (metrics : LinkMetrics) : Message :=
  pushMetricItems (.new .sessionUpdate) metrics

def buildSessionUpdateResponse (status : StatusCode) : Message :=
  (Message.new .sessionUpdateResponse).withItem (.status status "")

def buildLinkCharacteristicsRequest (mac : MacAddress) (requested : LinkCharacteristics) :
    Message where
  messageType := .linkCharacteristicsRequest
  dataItems := [.macAddress mac] ++
    (requested.currentDataRateRxBps.map DataItem.currentDataRateReceive).toList ++
    (requested.currentDataRateTxBps.map DataItem.currentDataRateTransmit).toList ++
    (requested.latency.map DataItem.latency).toList

def buildLinkCharacteristicsResponse (mac : MacAddress) (status : StatusCode)
    (metrics : LinkMetrics) : Message :=
  pushMetricItems
    (((Message.new .linkCharacteristicsResponse).withItem (.macAddress mac)).withItem
      (.status status "")) metrics

def buildDestinationAnnounce (mac : MacAddress) : Message :=
  (Message.new .destinationAnnounce).withItem (.macAddress mac)

def buildDestinationAnnounceResponse (mac : MacAddress) (status : StatusCode) : Message :=
  ((Message.new .destinationAnnounceResponse).withItem (.macAddress mac)).withItem
    (.status status "")

def buildHeartbeat : Message := .new .heartbeat

/-- The address items of a Destination Up: additions only, subnets as stored. -/
def upAddressItems (addrs : DestinationAddrs) : List DataItem :=
  addrs.v4.map (.ipv4Address true) ++ addrs.v6.map (.ipv6Address true) ++
    addrs.v4Subnets.map (.ipv4AttachedSubnet true) ++
    addrs.v6Subnets.map (.ipv6AttachedSubnet true)

def buildDestinationUp (mac : MacAddress) (metrics : LinkMetrics) (addrs : DestinationAddrs) :
    Message :=
  pushMetricItems ⟨.destinationUp, [.macAddress mac] ++ upAddressItems addrs⟩ metrics

def buildDestinationUpResponse (mac : MacAddress) (status : StatusCode) : Message :=
  ((Message.new .destinationUpResponse).withItem (.macAddress mac)).withItem (.status status "")

def buildDestinationUpdate (mac : MacAddress) (metrics : LinkMetrics) : Message :=
  pushMetricItems ((Message.new .destinationUpdate).withItem (.macAddress mac)) metrics

/-- The API reason stays local: Status is not allowed in Destination Down. -/
def buildDestinationDown (mac : MacAddress) (_reason : StatusCode) : Message :=
  (Message.new .destinationDown).withItem (.macAddress mac)

def buildDestinationDownResponse (mac : MacAddress) (status : StatusCode) : Message :=
  ((Message.new .destinationDownResponse).withItem (.macAddress mac)).withItem (.status status "")

/-- Omitted, not sent with zero length, when nothing is advertised. -/
def pushExtensionsSupported (msg : Message) (ids : List ExtensionId) : Message :=
  if ids.isEmpty then msg else msg.withItem (.extensionsSupported ids)

/-! ## Extractors -/

def extractStatus (msg : Message) : Option StatusCode :=
  msg.dataItems.findSome? fun
    | .status code _ => some code
    | _ => none

def extractHeartbeatInterval (msg : Message) : Option Duration :=
  msg.dataItems.findSome? fun
    | .heartbeatInterval d => some d
    | _ => none

def extractExtensionsSupported (msg : Message) : Option (List ExtensionId) :=
  msg.dataItems.findSome? fun
    | .extensionsSupported ids => some ids
    | _ => none

def extractDestinationMac (msg : Message) : Option MacAddress :=
  msg.dataItems.findSome? fun
    | .macAddress m => some m
    | _ => none

/-- One iteration of `extract_link_characteristics`. -/
def requestItem (requested : LinkCharacteristics) : DataItem → LinkCharacteristics
  | .currentDataRateReceive v => { requested with currentDataRateRxBps := some v }
  | .currentDataRateTransmit v => { requested with currentDataRateTxBps := some v }
  | .latency v => { requested with latency := some v }
  | _ => requested

def extractLinkCharacteristics (msg : Message) : LinkCharacteristics :=
  msg.dataItems.foldl requestItem .default

/-- The types of a message's items that are metrics. -/
def metricTypes (msg : Message) : List DataItemType :=
  (msg.dataItems.map DataItem.typeId).filter DataItemType.isMetric

/-! ## Heartbeat reset -/

/-- Re-arm the missed deadline at twice the peer's interval. -/
def heartbeatResetAction (timerId : TimerId) (peerInterval : Option Duration) : Option FsmAction :=
  match peerInterval with
  | none => none
  | some d =>
    if d.nanos < (Duration.ofMillis MIN_HEARTBEAT_INTERVAL_MS.toUInt64).nanos then none
    else (d.checkedMul 2).map fun missedDeadline => .resetHeartbeat timerId missedDeadline

theorem eq_resetHeartbeat_of_mem {timerId : TimerId} {peerInterval : Option Duration} {a : FsmAction}
    (h : a ∈ (heartbeatResetAction timerId peerInterval).toList) :
    ∃ missedDeadline, a = .resetHeartbeat timerId missedDeadline := by
  have h := Option.mem_toList.mp h
  unfold heartbeatResetAction at h
  split at h
  · cases h
  · split at h
    · cases h
    · obtain ⟨d, -, rfl⟩ := Option.map_eq_some_iff.mp h
      exact ⟨d, rfl⟩

@[simp] theorem sentMessages_heartbeatReset (timerId : TimerId) (peerInterval : Option Duration) :
    sentMessages (heartbeatResetAction timerId peerInterval).toList = [] := by
  refine List.filterMap_eq_nil_iff.mpr fun a ha => ?_
  obtain ⟨d, rfl⟩ := eq_resetHeartbeat_of_mem ha
  rfl

@[simp] theorem emittedEvents_heartbeatReset (timerId : TimerId)
    (peerInterval : Option Duration) :
    emittedEvents (heartbeatResetAction timerId peerInterval).toList = [] := by
  refine List.filterMap_eq_nil_iff.mpr fun a ha => ?_
  obtain ⟨d, rfl⟩ := eq_resetHeartbeat_of_mem ha
  rfl

/-! ## Local session addresses -/

def validateLocalAddressUpdate (localAddrs : DestinationAddrs) (changes : AddressChanges) :
    Except CommandError Unit :=
  match changes.validate with
  | .error _ => .error .invalidInput
  | .ok () =>
    let desired := changes.applyLenient localAddrs
    match ((AddressChanges.between localAddrs desired).appendTo (.new .sessionUpdate)).encode with
    | .error _ => .error .invalidInput
    | .ok _ => .ok ()

/-- Originate an address-only Session Update: the tracker and the local set after
the call, and its actions. -/
def applyLocalAddressUpdate (tx : TransactionTracker) (localAddrs : DestinationAddrs)
    (changes : AddressChanges) :
    Outcome (TransactionTracker × DestinationAddrs × List FsmAction) :=
  let validation : Except CommandError Unit :=
    if tx.sessionBusy then .error .busy else validateLocalAddressUpdate localAddrs changes
  match validation with
  | .error reason =>
    .ok (tx, localAddrs, [.emit (.commandRejected ⟨⟨.sessionAddresses, none⟩, reason⟩)])
  | .ok () =>
    let desired := changes.applyLenient localAddrs
    let effective := AddressChanges.between localAddrs desired
    if effective.isEmpty then .ok (tx, localAddrs, [])
    else do
      let message := effective.appendTo (.new .sessionUpdate)
      let tx ← expectOk "checked transaction" (tx.openSession .sessionUpdate)
      .ok (tx, desired, [.sendMessage message])

/-- A change that passes its checks has no effect, or its effect is announced. -/
theorem applyLocalAddressUpdate_ok {tx : TransactionTracker} {localAddrs : DestinationAddrs}
    {changes : AddressChanges} (hidle : tx.sessionPending = none)
    (hvalid : validateLocalAddressUpdate localAddrs changes = .ok ()) :
    applyLocalAddressUpdate tx localAddrs changes = .ok (tx, localAddrs, []) ∨
    applyLocalAddressUpdate tx localAddrs changes =
      .ok ({ tx with sessionPending := some ⟨.sessionUpdate⟩ }, changes.applyLenient localAddrs,
        [.sendMessage ((AddressChanges.between localAddrs
          (changes.applyLenient localAddrs)).appendTo (.new .sessionUpdate))]) := by
  simp only [applyLocalAddressUpdate, tx.sessionBusy_eq_false_iff.mpr hidle, hvalid,
    Bool.false_eq_true, if_false, TransactionTracker.openSession_of_idle hidle, expectOk_ok, bind,
    Except.bind]
  split
  · exact .inl rfl
  · exact .inr rfl

end Dlep
