-- SUMMARY: MAC addresses of the other format never enter a session state machine, nor its messages and events.
import Dlep.Fsm.Content
import Dlep.Fsm.Transactions

/-!
# The format of MAC addresses

A session has one format of MAC addresses, a local policy. Commands and received
messages are checked against it before they have an effect, so every address that
a state machine stores, sends or reports has the format. The one exception is a
rejected command, which is reported with the address it came with.
-/

namespace Dlep

variable {format : MacAddressFormat} {msg : Message}

/-! ## Addresses of messages and events -/

def DataItem.mac : DataItem → Option MacAddress
  | .macAddress mac => some mac
  | _ => none

/-- The MAC addresses in a message. -/
def Message.macs (msg : Message) : List MacAddress := msg.dataItems.filterMap DataItem.mac

/-- The MAC address that an event reports, a rejected command's own apart. -/
def EmittedEvent.mac : EmittedEvent → Option MacAddress
  | .destinationUp mac _ _ => some mac
  | .destinationDown mac _ => some mac
  | .destinationUpdate mac _ => some mac
  | .destinationAddressesUpdate mac _ _ => some mac
  | .linkCharacteristicsResponse mac _ _ _ => some mac
  | .linkCharacteristicsRequested mac _ _ _ => some mac
  | .destinationAnnounced mac _ => some mac
  | .commandRejected _ | .sessionUp _ | .sessionDown _ | .peerDiscovered _ _
  | .sessionAddressesUpdate _ _ | .sessionMetricsUpdate _ => none

/-- Every MAC address that a list of actions sends or reports has the format. -/
structure MacAddressFormat.Covers (format : MacAddressFormat) (actions : List FsmAction) : Prop where
  sent : ∀ msg ∈ sentMessages actions, ∀ mac ∈ msg.macs, format.accepts mac = true
  emitted : ∀ event ∈ emittedEvents actions, ∀ mac ∈ event.mac, format.accepts mac = true

theorem validateMacFormat_eq_ok :
    validateMacFormat msg format = .ok () ↔ ∀ mac ∈ msg.macs, format.accepts mac = true := by
  unfold validateMacFormat Message.macs
  split
  · rename_i hbad
    obtain ⟨item, hitem, hbad⟩ := List.any_eq_true.mp hbad
    refine iff_of_false nofun fun h => ?_
    cases item with
    | macAddress mac => simp [h mac (List.mem_filterMap.mpr ⟨_, hitem, rfl⟩)] at hbad
    | _ => cases hbad
  · rename_i hgood
    refine iff_of_true rfl fun mac hmac => ?_
    obtain ⟨item, hitem, hsome⟩ := List.mem_filterMap.mp hmac
    cases item with
    | macAddress mac' =>
      cases hsome
      by_contra hformat
      exact hgood (List.any_eq_true.mpr ⟨_, hitem, by simpa using hformat⟩)
    | _ => cases hsome

theorem mem_macs_of_extract {mac : MacAddress} (h : extractDestinationMac msg = some mac) :
    mac ∈ msg.macs := by
  obtain ⟨item, hitem, hsome⟩ := List.exists_of_findSome?_eq_some h
  refine List.mem_filterMap.mpr ⟨item, hitem, ?_⟩
  cases item with
  | macAddress mac' => exact hsome
  | _ => cases hsome

theorem accepts_of_extract {mac : MacAddress} (hformat : validateMacFormat msg format = .ok ())
    (hmac : extractDestinationMac msg = some mac) : format.accepts mac = true :=
  validateMacFormat_eq_ok.mp hformat mac (mem_macs_of_extract hmac)

/-! ## Built messages -/

theorem mac_of_metric {i : DataItem} (h : i.isMetricItem = true) : i.mac = none := by
  cases i <;> first
    | rfl
    | cases h

theorem mac_of_address {i : DataItem} (h : i.isAddressItem = true) : i.mac = none := by
  cases i <;> first
    | rfl
    | cases h

theorem filterMap_mac {items : List DataItem} (h : ∀ i ∈ items, i.mac = none) :
    items.filterMap DataItem.mac = [] := List.filterMap_eq_nil_iff.mpr h

@[simp] theorem macs_new (mt : MessageType) : (Message.new mt).macs = [] := rfl

@[simp] theorem macs_withItem (msg : Message) (item : DataItem) :
    (msg.withItem item).macs = msg.macs ++ item.mac.toList := by
  rw [Message.macs, Message.withItem, List.filterMap_append]
  refine congrArg (msg.macs ++ ·) ?_
  cases h : item.mac with
  | none => simp [h]
  | some mac => simp [h]

@[simp] theorem mac_macAddress (mac : MacAddress) : (DataItem.macAddress mac).mac = some mac := rfl

@[simp] theorem mac_status (code : StatusCode) (text : String) :
    (DataItem.status code text).mac = none := rfl

@[simp] theorem macs_pushMetricItems (msg : Message) (m : LinkMetrics) :
    (pushMetricItems msg m).macs = msg.macs := by
  rw [Message.macs, pushMetricItems, List.filterMap_append,
    filterMap_mac fun i hi => mac_of_metric (isMetricItem_of_mem hi), List.append_nil]
  rfl

@[simp] theorem macs_appendTo (c : AddressChanges) (msg : Message) :
    (c.appendTo msg).macs = msg.macs := by
  have hside : ∀ add d, (AddressChanges.sideItems add d).filterMap DataItem.mac = [] :=
    fun add d => filterMap_mac fun i hi => mac_of_address (isAddressItem_of_mem_sideItems hi)
  rw [Message.macs, AddressChanges.appendTo, List.filterMap_append, List.filterMap_append, hside,
    hside, List.append_nil, List.append_nil]
  rfl

@[simp] theorem macs_pushExtensionsSupported (msg : Message) (ids : List ExtensionId) :
    (pushExtensionsSupported msg ids).macs = msg.macs := by
  unfold pushExtensionsSupported
  split
  · rfl
  · exact (macs_withItem msg _).trans (List.append_nil _)

@[simp] theorem macs_buildDestinationUp (mac : MacAddress) (m : LinkMetrics)
    (addrs : DestinationAddrs) : (buildDestinationUp mac m addrs).macs = [mac] := by
  have hnone : (upAddressItems addrs).filterMap DataItem.mac = [] :=
    filterMap_mac fun i hi => mac_of_address (isAddressItem_of_mem_upAddressItems hi)
  rw [buildDestinationUp, macs_pushMetricItems, Message.macs, List.filterMap_append, hnone]
  rfl

@[simp] theorem macs_announceSuccess (mac : MacAddress) (d : ModemDestination) :
    (ModemSessionFsm.announceSuccess mac d).macs = [mac] := by
  have hup := macs_buildDestinationUp mac d.metrics d.addrs
  rw [Message.macs] at hup
  rw [Message.macs, ModemSessionFsm.announceSuccess, List.filterMap_append, hup]
  rfl

@[simp] theorem macs_buildDestinationUpdate (mac : MacAddress) (m : LinkMetrics) :
    (buildDestinationUpdate mac m).macs = [mac] := macs_pushMetricItems _ m

theorem macs_deferredUpdate {mac : MacAddress} {d : ModemDestination}
    (h : ModemSessionFsm.deferredUpdate mac d = some msg) : msg.macs = [mac] := by
  simp only [ModemSessionFsm.deferredUpdate] at h
  split at h
  · cases h
    rw [macs_appendTo]
    split
    · exact macs_buildDestinationUpdate mac d.metrics
    · rfl
  · cases h

theorem filterMap_fillStatusText (text : String) (items : List DataItem) :
    (fillStatusText text items).filterMap DataItem.mac = items.filterMap DataItem.mac := by
  induction items with
  | nil => rfl
  | cons item items ih =>
    cases item with
    | status code text' => rfl
    | _ => simp only [fillStatusText, List.filterMap_cons, ih]

@[simp] theorem macs_buildLinkCharacteristicsResponse (mac : MacAddress) (status : StatusCode)
    (m : LinkMetrics) : (buildLinkCharacteristicsResponse mac status m).macs = [mac] :=
  macs_pushMetricItems _ m

@[simp] theorem macs_buildLinkCharacteristicsReply (mac : MacAddress) (status : StatusCode)
    (text : String) (m : LinkMetrics) :
    (buildLinkCharacteristicsReply mac status text m).macs = [mac] := by
  rw [Message.macs, buildLinkCharacteristicsReply, filterMap_fillStatusText]
  exact macs_buildLinkCharacteristicsResponse mac status m

@[simp] theorem macs_buildLinkCharacteristicsRequest (mac : MacAddress)
    (requested : LinkCharacteristics) :
    (buildLinkCharacteristicsRequest mac requested).macs = [mac] := by
  obtain ⟨rx, tx, latency⟩ := requested
  cases rx <;> cases tx <;> cases latency <;> rfl

@[simp] theorem macs_buildSessionInitialization (config : SessionConfig) :
    (buildSessionInitialization config).macs = [] := macs_pushExtensionsSupported _ _

@[simp] theorem macs_buildSessionInitializationResponse (config : SessionConfig) :
    (buildSessionInitializationResponse config).macs = [] := by
  rw [buildSessionInitializationResponse, macs_pushMetricItems, macs_pushExtensionsSupported]
  rfl

/-! ## Stored addresses -/

/-- The MAC addresses that a state machine stores have the format. -/
structure MacAddressFormat.Keeps {ν : Type} (format : MacAddressFormat)
    (destinations : FinMap MacAddress ν) (tx : TransactionTracker) (deferred : Finset MacAddress) :
    Prop where
  destinations : ∀ mac d, destinations.lookup mac = some d → format.accepts mac = true
  transactions : ∀ mac kind, tx.pending mac = some kind → format.accepts mac = true
  deferred : ∀ mac ∈ deferred, format.accepts mac = true

namespace MacAddressFormat.Keeps

variable {ν : Type} {format : MacAddressFormat} {destinations : FinMap MacAddress ν}
  {tx : TransactionTracker} {deferred : Finset MacAddress} {mac : MacAddress}

theorem insert (h : format.Keeps destinations tx deferred) (hmac : format.accepts mac = true)
    (d : ν) : format.Keeps (destinations.insert mac d) tx deferred :=
  ⟨FinMap.of_lookup_insert h.destinations hmac, h.transactions, h.deferred⟩

theorem erase (h : format.Keeps destinations tx deferred) (mac : MacAddress) :
    format.Keeps (destinations.erase mac) tx deferred :=
  ⟨FinMap.of_lookup_erase h.destinations, h.transactions, h.deferred⟩

theorem mapValues (h : format.Keeps destinations tx deferred) (f : ν → ν) :
    format.Keeps (destinations.mapValues f) tx deferred :=
  ⟨FinMap.of_lookup_mapValues h.destinations, h.transactions, h.deferred⟩

theorem opened (h : format.Keeps destinations tx deferred) (hmac : format.accepts mac = true)
    (kind : RequestKind) : format.Keeps destinations (tx.withPending mac kind) deferred := by
  refine ⟨h.destinations, fun mac' kind' hk => ?_, h.deferred⟩
  rw [TransactionTracker.pending_withPending] at hk
  split at hk
  · rename_i heq
    rw [heq]
    exact hmac
  · exact h.transactions mac' kind' hk

theorem closed (h : format.Keeps destinations tx deferred) (mac : MacAddress) :
    format.Keeps destinations (tx.closeDestination mac) deferred := by
  refine ⟨h.destinations, fun mac' kind' hk => ?_, h.deferred⟩
  rw [TransactionTracker.pending_closeDestination] at hk
  split at hk
  · cases hk
  · exact h.transactions mac' kind' hk

/-- The session's own transaction is about no destination. -/
theorem session (h : format.Keeps destinations tx deferred) (request : Option PendingRequest) :
    format.Keeps destinations { tx with sessionPending := request } deferred :=
  ⟨h.destinations, h.transactions, h.deferred⟩

theorem deferring (h : format.Keeps destinations tx deferred) (hmac : format.accepts mac = true) :
    format.Keeps destinations tx (Insert.insert mac deferred) := by
  refine ⟨h.destinations, h.transactions, fun mac' hmem => ?_⟩
  rcases Finset.mem_insert.mp hmem with rfl | hmem
  · exact hmac
  · exact h.deferred mac' hmem

theorem answered (h : format.Keeps destinations tx deferred) (mac : MacAddress) :
    format.Keeps destinations tx (deferred.erase mac) :=
  ⟨h.destinations, h.transactions, fun mac' hmem => h.deferred mac' (Finset.mem_of_mem_erase hmem)⟩

end MacAddressFormat.Keeps

/-- The end of a session names no destination. -/
theorem Ending.covers {fault : StatusCode → String → Prop} {leak : Prop} {v : LifeView}
    {event : FsmEvent} {phase : Phase} {reason : StatusCode} {actions : List FsmAction}
    (h : Ending fault leak v event phase reason actions) : format.Covers actions := by
  refine ⟨fun m hm => ?_, fun e he => ?_⟩
  · rcases h.sent m hm with rfl | ⟨_, _, -, rfl⟩ <;> simp [buildSessionTerminationResponse]
  · obtain ⟨_, rfl⟩ := h.emitted e he
    simp [EmittedEvent.mac]

/-! ## The modem -/

namespace ModemSessionFsm

variable {s s' : ModemSessionFsm} {event : FsmEvent} {actions : List FsmAction}

def InFormat (s : ModemSessionFsm) : Prop :=
  s.config.macAddressFormat.Keeps s.destinations s.tx s.pendingLinkRequests

theorem inFormat_withConfig (config : SessionConfig) : (withConfig config).InFormat :=
  ⟨by simp [withConfig], by simp [withConfig], by simp [withConfig]⟩

theorem Transition.inFormat (h : s.Transition event s' actions) (hs : s.InFormat) :
    s'.InFormat := by
  cases h with
  | rejected | ignored | alive | beat | accepted | initialized | ends
  | announceDenied | linkDenied | sessionUpdated | sessionAddressesKept => exact hs
  | added _ hp =>
    cases hp with
    | add hformat => exact (hs.opened hformat _).insert hformat _
  | acknowledged _ _ _ _ _ hd | refused _ _ _ _ _ _ hd =>
    exact (hs.closed _).insert (hs.destinations _ _ hd) _
  | metricsDeferred _ _ hd | metricsSent _ _ hd | addressesKept _ _ hd | addressesSent _ _ hd
  | withdrawn _ _ _ _ hd | announceGranted _ _ _ _ hd =>
    exact hs.insert (hs.destinations _ _ hd) _
  | forgotten => exact hs.erase _
  | dropSent _ _ hd => exact hs.opened (hs.destinations _ _ hd) _
  | dropAnswered => exact (hs.closed _).erase _
  | linkDeferred _ _ _ _ hd => exact hs.deferring (hs.destinations _ _ hd)
  | linkAnswered _ _ hd => exact (hs.answered _).insert (hs.destinations _ _ hd) _
  | sessionAnswered => exact hs.session _
  | sessionMetricsSent =>
    have hsession := hs.session (some ⟨.sessionUpdate⟩)
    unfold InFormat
    dsimp only
    exact hsession.mapValues _
  | sessionAddressesSent => exact hs.session _

theorem Transition.covers (h : s.Transition event s' actions) (hs : s.InFormat) :
    s.config.macAddressFormat.Covers actions := by
  cases h with
  | ignored | accepted | metricsDeferred | addressesKept | forgotten
  | sessionAddressesKept | alive | dropAnswered | refused | sessionAnswered =>
    exact ⟨by simp, by simp⟩
  | rejected => exact ⟨by simp, by simp [EmittedEvent.mac]⟩
  | ends h => exact h.covers
  | beat => exact ⟨by simp [buildHeartbeat], by simp⟩
  | initialized =>
    refine ⟨by simp [sessionUpActions], ?_⟩
    simp only [sessionUpActions, emittedEvents_append, emittedEvents_reset]
    split <;> simp [EmittedEvent.mac]
  | added _ hp =>
    cases hp with
    | add hformat => exact ⟨by simp [hformat], by simp⟩
  | @acknowledged _ mac d _ _ _ _ _ hd =>
    cases hdeferred : deferredUpdate mac d with
    | none => exact ⟨by simp, by simp⟩
    | some msg =>
      exact ⟨by simp [macs_deferredUpdate hdeferred, hs.destinations _ _ hd], by simp⟩
  | metricsSent _ _ hd | addressesSent _ _ hd | linkAnswered _ _ hd =>
    exact ⟨by simp [hs.destinations _ _ hd], by simp⟩
  | dropSent _ _ hd => exact ⟨by simp [buildDestinationDown, hs.destinations _ _ hd], by simp⟩
  | withdrawn _ _ _ _ hd =>
    exact ⟨by simp [buildDestinationDownResponse, hs.destinations _ _ hd],
      by simp [EmittedEvent.mac, hs.destinations _ _ hd]⟩
  | announceDenied _ ha _ hmac =>
    have hformat := accepts_of_extract ha.format hmac
    exact ⟨by simp [buildDestinationAnnounceResponse, hformat], by simp [EmittedEvent.mac, hformat]⟩
  | announceGranted _ _ _ _ hd =>
    exact ⟨by simp [hs.destinations _ _ hd], by simp [EmittedEvent.mac, hs.destinations _ _ hd]⟩
  | linkDeferred _ _ _ _ hd =>
    exact ⟨by simp, by simp [EmittedEvent.mac, hs.destinations _ _ hd]⟩
  | linkDenied _ _ _ _ hd =>
    exact ⟨by simp [hs.destinations _ _ hd], by simp [EmittedEvent.mac, hs.destinations _ _ hd]⟩
  | sessionUpdated =>
    refine ⟨by simp [buildSessionUpdateResponse], ?_⟩
    simp only [emittedEvents_append, emittedEvents_reset]
    split <;> simp [EmittedEvent.mac]
  | sessionMetricsSent => exact ⟨by simp [buildSessionUpdate], by simp⟩
  | sessionAddressesSent => exact ⟨by simp, by simp⟩

theorem run_inFormat {config : SessionConfig} {events : List FsmEvent} {t : ModemSessionFsm}
    {trace : List Entry} (h : run config events = .ok (t, trace)) :
    t.InFormat ∧ t.config = config ∧ ∀ e ∈ trace, config.macAddressFormat.Covers e.output := by
  refine lawful.run_history ?_ (consistent_withConfig config)
    ⟨inFormat_withConfig config, rfl, by simp⟩ h
  rintro s trace event s' actions hc ⟨hs, rfl, htrace⟩ ht
  exact ⟨ht.inFormat hs, ht.config_eq,
    List.forall_mem_append.mpr ⟨htrace, List.forall_mem_singleton.mpr (ht.covers hs)⟩⟩

end ModemSessionFsm

/-! ## The router -/

namespace RouterSessionFsm

variable {s s' : RouterSessionFsm} {event : FsmEvent} {actions : List FsmAction}

def InFormat (s : RouterSessionFsm) : Prop :=
  s.config.macAddressFormat.Keeps s.destinations s.tx ∅

theorem inFormat_withConfig (config : SessionConfig) : (withConfig config).InFormat :=
  ⟨by simp [withConfig], by simp [withConfig], by simp⟩

theorem Permits.mac {kind : CommandKind} {mac : MacAddress} (h : s.Permits event)
    (hcmd : event.command = some ⟨kind, some mac⟩) : s.config.macAddressFormat.accepts mac = true := by
  cases h with
  | drop hformat | announce hformat | requestLink hformat =>
    cases hcmd
    exact hformat
  | sessionAddresses => cases hcmd

theorem Transition.inFormat (h : s.Transition event s' actions) (hs : s.InFormat) :
    s'.InFormat := by
  cases h with
  | rejected | ignored | alive | beat | connected | initialized | ends
  | sessionAddressesKept => exact hs
  | upReceived _ ha _ hmac => exact hs.insert (accepts_of_extract ha.format hmac) _
  | updateReceived _ _ _ _ hd => exact hs.insert (hs.destinations _ _ hd) _
  | downReceived => exact hs.erase _
  | dropSent _ hp | announceSent _ hp | linkSent _ hp => exact hs.opened (hp.mac rfl) _
  | dropAnswered => exact (hs.closed _).erase _
  | announceGranted _ ha _ hmac =>
    exact (hs.closed _).insert (accepts_of_extract ha.format hmac) _
  | announceDenied => exact hs.closed _
  | linkAnswered _ _ _ _ hd => exact (hs.closed _).insert (hs.destinations _ _ hd) _
  | sessionUpdated =>
    unfold InFormat
    dsimp only
    split
    · exact hs.mapValues _
    · exact hs
  | sessionAnswered => exact hs.session _
  | sessionAddressesSent => exact hs.session _

theorem Transition.covers (h : s.Transition event s' actions) :
    s.config.macAddressFormat.Covers actions := by
  cases h with
  | ignored | sessionAddressesKept | alive | sessionAnswered | announceDenied =>
    exact ⟨by simp, by simp⟩
  | rejected => exact ⟨by simp, by simp [EmittedEvent.mac]⟩
  | ends h => exact h.covers
  | beat => exact ⟨by simp [buildHeartbeat], by simp⟩
  | connected => exact ⟨by simp, by simp⟩
  | initialized =>
    refine ⟨by simp [sessionUpActions], ?_⟩
    simp only [sessionUpActions, emittedEvents_append, emittedEvents_reset]
    split <;> simp [EmittedEvent.mac]
  | upReceived _ ha _ hmac =>
    have hformat := accepts_of_extract ha.format hmac
    exact ⟨by simp [buildDestinationUpResponse, hformat], by simp [EmittedEvent.mac, hformat]⟩
  | updateReceived _ ha _ hmac =>
    have hformat := accepts_of_extract ha.format hmac
    refine ⟨by simp, ?_⟩
    simp only [emittedEvents_append, emittedEvents_reset]
    split <;> split <;> simp [EmittedEvent.mac, hformat]
  | downReceived _ ha _ hmac =>
    have hformat := accepts_of_extract ha.format hmac
    exact ⟨by simp [buildDestinationDownResponse, hformat], by simp [EmittedEvent.mac, hformat]⟩
  | dropSent _ hp => exact ⟨by simp [buildDestinationDown, hp.mac rfl], by simp⟩
  | announceSent _ hp => exact ⟨by simp [buildDestinationAnnounce, hp.mac rfl], by simp⟩
  | linkSent _ hp => exact ⟨by simp [hp.mac rfl], by simp⟩
  | dropAnswered _ ha _ hmac | announceGranted _ ha _ hmac | linkAnswered _ ha _ hmac =>
    have hformat := accepts_of_extract ha.format hmac
    exact ⟨by simp, by simp [EmittedEvent.mac, hformat]⟩
  | sessionUpdated =>
    refine ⟨by simp [buildSessionUpdateResponse], ?_⟩
    simp only [emittedEvents_append, emittedEvents_reset]
    split <;> split <;> simp [EmittedEvent.mac]
  | sessionAddressesSent => exact ⟨by simp, by simp⟩

theorem run_inFormat {config : SessionConfig} {events : List FsmEvent} {t : RouterSessionFsm}
    {trace : List Entry} (h : run config events = .ok (t, trace)) :
    t.InFormat ∧ t.config = config ∧ ∀ e ∈ trace, config.macAddressFormat.Covers e.output := by
  refine lawful.run_history ?_ (consistent_withConfig config)
    ⟨inFormat_withConfig config, rfl, by simp⟩ h
  rintro s trace event s' actions hc ⟨hs, rfl, htrace⟩ ht
  exact ⟨ht.inFormat hs, ht.config_eq,
    List.forall_mem_append.mpr ⟨htrace, List.forall_mem_singleton.mpr ht.covers⟩⟩

end RouterSessionFsm

end Dlep
