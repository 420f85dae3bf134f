-- SUMMARY: Every message the builders produce passes the receiver's checks on form: grammar, MAC format, statuses, metrics.
import Dlep.Fsm.Grammar
import Dlep.Fsm.Observation

/-!
# Admissible messages

The receiver's checks that do not depend on its state: the grammar of the phase the
message belongs to, the MAC format, the absence of a fatal status, and the declared
metric types. Every message that either side sends from a sound state passes them.
-/

namespace Dlep

open MessageType

/-- The message passes the checks on form of a role. -/
structure Message.Admissible (msg : Message) (router : Bool) (format : MacAddressFormat) :
    Prop where
  benign : fatalStatus msg = none
  wellFormed : msg.WellFormed router msg.initializes
  format : ∀ mac, .macAddress mac ∈ msg.dataItems → format.accepts mac = true

/-- The metrics of a message are declared ones; a complete report has all of them. -/
structure Message.Declared (msg : Message) (initial : LinkMetrics) : Prop where
  within : ∀ t ∈ metricTypes msg, t ∈ initial.types
  complete : msg.messageType ∈ [linkCharacteristicsResponse, sessionInitializationResponse] →
    ∀ t ∈ initial.types, t ∈ metricTypes msg

theorem Message.Admissible.validateMacFormat {msg : Message} {router : Bool}
    {format : MacAddressFormat} (h : msg.Admissible router format) :
    validateMacFormat msg format = .ok () := by
  refine if_neg fun hany => ?_
  obtain ⟨i, hi, hbad⟩ := List.any_eq_true.mp hany
  cases i with
  | macAddress mac => simp [h.format mac hi] at hbad
  | _ => cases hbad

/-! ## Assembled messages -/

/-- An item written out in a builder. -/
structure DataItem.Plain (mt : MessageType) (router : Bool) (format : MacAddressFormat)
    (i : DataItem) : Prop where
  allowed : allowedItem mt router i.typeId = true
  benign : ∀ code text, i = .status code text →
    mt = sessionTermination ∨ code.terminatesSession = false
  format : ∀ mac, i = .macAddress mac → format.accepts mac = true
  additive : isRemoval i = false

/-- The types whose messages may carry metrics, to a router. -/
def metricMessages : List MessageType :=
  [sessionInitializationResponse, sessionUpdate, destinationUp, destinationUpdate,
    destinationAnnounceResponse, linkCharacteristicsResponse]

/-- The types whose messages may carry address changes within a session. -/
def addressMessages : List MessageType :=
  [sessionUpdate, destinationUp, destinationUpdate, destinationAnnounceResponse]

theorem allowedItem_metric {mt : MessageType} (h : mt ∈ metricMessages) {t : DataItemType}
    (ht : t.isMetric = true) : allowedItem mt true t = true := by
  simp only [metricMessages, List.mem_cons, List.not_mem_nil, or_false] at h
  rcases h with rfl | rfl | rfl | rfl | rfl | rfl
  · exact Bool.or_eq_true_iff.mpr (.inr ht)
  · exact Bool.or_eq_true_iff.mpr (.inr ht)
  · exact Bool.or_eq_true_iff.mpr (.inr ht)
  · exact Bool.or_eq_true_iff.mpr (.inr ht)
  · exact Bool.or_eq_true_iff.mpr (.inr ht)
  · exact Bool.or_eq_true_iff.mpr (.inr ht)

theorem allowedItem_address {mt : MessageType} (h : mt ∈ addressMessages) (router : Bool)
    {t : DataItemType} (ht : t.isAddress = true) : allowedItem mt router t = true := by
  simp only [addressMessages, List.mem_cons, List.not_mem_nil, or_false] at h
  rcases h with rfl | rfl | rfl | rfl
  · exact Bool.or_eq_true_iff.mpr (.inl ht)
  · exact Bool.or_eq_true_iff.mpr (.inl (Bool.or_eq_true_iff.mpr (.inr ht)))
  · exact Bool.or_eq_true_iff.mpr (.inl (Bool.or_eq_true_iff.mpr (.inr ht)))
  · exact Bool.or_eq_true_iff.mpr (.inl (Bool.or_eq_true_iff.mpr (.inr ht)))

/-- An item of a built message: plain, a metric or an address. -/
inductive DataItem.Built (mt : MessageType) (router : Bool) (format : MacAddressFormat)
    (i : DataItem) : Prop where
  | plain (h : i.Plain mt router format)
  | metric (h : i.isMetricItem = true) (hmt : metricMessages.contains mt = true)
      (hrole : router = true)
  | address (h : i.isAddressItem = true) (hmt : addressMessages.contains mt = true)

/-- A message of such items, complete for its type. -/
structure Message.Assembled (msg : Message) (router : Bool) (format : MacAddressFormat) :
    Prop where
  core : msg.messageType.isCore = true
  expected : expectedType msg.messageType router msg.initializes = true
  writable : Writable msg.dataItems
  items : ∀ i ∈ msg.dataItems, i.Built msg.messageType router format
  required : ∀ t ∈ requiredItems msg.messageType,
    t.isAddress = false ∧ ∃ i ∈ msg.dataItems, i.typeId = t
  requested : msg.messageType = .linkCharacteristicsRequest → ∃ i ∈ msg.dataItems,
    i.typeId ∈ [DataItemType.currentDataRateReceive, .currentDataRateTransmit, .latency]

theorem isRemoval_of_metric {i : DataItem} (h : i.isMetricItem = true) : isRemoval i = false := by
  cases i <;> first
    | rfl
    | cases h

section

variable {msg : Message} {router : Bool} {format : MacAddressFormat} {config : SessionConfig}
  {code : StatusCode} {text : String} {mt : MessageType} {items : List DataItem}
  {c : AddressChanges} {i : DataItem}

theorem fatalStatus_eq_none (h : ∀ i ∈ msg.dataItems, ∀ code text, i = .status code text →
    msg.messageType = sessionTermination ∨ code.terminatesSession = false) :
    fatalStatus msg = none := by
  unfold fatalStatus
  split
  · rfl
  · rename_i hne
    refine List.find?_eq_none.mpr fun i hi => ?_
    cases i with
    | status code text =>
      rcases h _ hi code text rfl with ht | hbenign
      · exact absurd ht hne
      · simp [hbenign]
    | _ => nofun

theorem not_initializes_of_address (h : msg.messageType ∈ addressMessages) :
    msg.initializes = false := by
  have hall : ∀ mt ∈ addressMessages,
      decide (mt ∈ [sessionInitialization, sessionInitializationResponse]) = false := by decide
  exact hall _ h

theorem Message.Assembled.admissible (h : msg.Assembled router format) :
    msg.Admissible router format := by
  refine ⟨fatalStatus_eq_none fun i hi code text hstatus => ?_,
    ⟨h.core, h.expected, h.writable, fun i hi => ?_, fun hinit i hi => ?_, h.required,
      h.requested⟩, fun mac hi => ?_⟩
  · cases h.items i hi with
    | plain hplain => exact hplain.benign code text hstatus
    | metric hm =>
      rw [hstatus] at hm
      cases hm
    | address ha =>
      rw [hstatus] at ha
      cases ha
  · cases h.items i hi with
    | plain hplain => exact hplain.allowed
    | metric hm hmt hrole =>
      subst hrole
      exact allowedItem_metric (List.contains_iff_mem.mp hmt) (DataItem.typeId_isMetric hm)
    | address ha hmt =>
      exact allowedItem_address (List.contains_iff_mem.mp hmt) router (DataItem.typeId_isAddress ha)
  · cases h.items i hi with
    | plain hplain => exact hplain.additive
    | metric hm => exact isRemoval_of_metric hm
    | address ha hmt =>
      cases (not_initializes_of_address (List.contains_iff_mem.mp hmt)).symm.trans hinit
  · cases h.items _ hi with
    | plain hplain => exact hplain.format mac rfl
    | metric hm => cases hm
    | address ha => cases ha

/-! ### Plain messages -/

theorem plain_mac {mac : MacAddress} (hallowed : allowedItem mt router .macAddress = true)
    (hmac : format.accepts mac = true) : (DataItem.macAddress mac).Built mt router format :=
  .plain ⟨hallowed, nofun, fun _ h => by cases h; exact hmac, rfl⟩

theorem plain_status (hallowed : allowedItem mt router .status = true)
    (hbenign : mt = sessionTermination ∨ code.terminatesSession = false) :
    (DataItem.status code text).Built mt router format :=
  .plain ⟨hallowed, fun _ _ h => by cases h; exact hbenign, nofun, rfl⟩

theorem encodable_mac (mac : MacAddress) : (DataItem.macAddress mac).Encodable := by
  refine ⟨trivial, ?_⟩
  cases mac <;> simp [DataItem.valueBytes, MacAddress.len, u16Max]

theorem encodable_status_empty (code : StatusCode) : (DataItem.status code "").Encodable :=
  ⟨trivial, by simp [DataItem.valueBytes, u16Max]⟩

theorem writable_mac (mac : MacAddress) : Writable [.macAddress mac] :=
  ⟨List.forall_mem_singleton.mpr nofun, List.forall_mem_singleton.mpr (encodable_mac mac),
    List.pairwise_singleton _ _⟩

theorem writable_status (h : (DataItem.status code text).Encodable) :
    Writable [.status code text] :=
  ⟨List.forall_mem_singleton.mpr nofun, List.forall_mem_singleton.mpr h,
    List.pairwise_singleton _ _⟩

theorem writable_mac_status (mac : MacAddress) (h : (DataItem.status code text).Encodable) :
    Writable [.macAddress mac, .status code text] :=
  (writable_mac mac).append (writable_status h) (fun t => t = .macAddress)
    (List.forall_mem_singleton.mpr rfl) (List.forall_mem_singleton.mpr rfl)

/-- A type whose messages within a session consist of items of exactly the given types,
apart from metrics and addresses. -/
def fits (mt : MessageType) (router : Bool) (ts : List DataItemType) : Bool :=
  mt.isCore && expectedType mt router false
    && mt ∉ [sessionInitialization, sessionInitializationResponse, linkCharacteristicsRequest]
    && ts.all (allowedItem mt router) && requiredItems mt = ts

theorem assembled_of_fits (hfits : fits mt router (items.map DataItem.typeId) = true)
    (hwritable : Writable items) (hitems : ∀ i ∈ items, i.Built mt router format)
    (hplain : ∀ i ∈ items, i.typeId.isAddress = false) :
    (Message.mk mt items).Assembled router format := by
  simp only [fits, Bool.and_eq_true, decide_eq_true_eq, List.mem_cons, List.not_mem_nil, or_false,
    not_or] at hfits
  obtain ⟨⟨⟨⟨hcore, hexpected⟩, hne₁, hne₂, hne₃⟩, -⟩, hrequired⟩ := hfits
  have hinit : (Message.mk mt items).initializes = false := by
    simp [Message.initializes, hne₁, hne₂]
  refine ⟨hcore, by rw [hinit]; exact hexpected, hwritable, hitems, ?_, fun h => absurd h hne₃⟩
  intro t ht
  rw [hrequired] at ht
  obtain ⟨i, hi, rfl⟩ := List.mem_map.mp ht
  exact ⟨hplain i hi, i, hi, rfl⟩

theorem assembled_bare (mt : MessageType) (hfits : fits mt router [] = true) :
    (Message.new mt).Assembled router format :=
  assembled_of_fits hfits .nil (by simp) (by simp)

theorem assembled_mac (mt : MessageType) {mac : MacAddress}
    (hfits : fits mt router [.macAddress] = true) (hmac : format.accepts mac = true) :
    (Message.mk mt [.macAddress mac]).Assembled router format := by
  refine assembled_of_fits hfits (writable_mac mac) (List.forall_mem_singleton.mpr ?_)
    (List.forall_mem_singleton.mpr rfl)
  refine plain_mac ?_ hmac
  simp only [fits, List.all_cons, Bool.and_eq_true] at hfits
  exact hfits.1.2.1

theorem assembled_status (mt : MessageType) (hfits : fits mt router [.status] = true)
    (hencodable : (DataItem.status code text).Encodable)
    (hbenign : mt = sessionTermination ∨ code.terminatesSession = false) :
    (Message.mk mt [.status code text]).Assembled router format := by
  refine assembled_of_fits hfits (writable_status hencodable) (List.forall_mem_singleton.mpr ?_)
    (List.forall_mem_singleton.mpr rfl)
  refine plain_status ?_ hbenign
  simp only [fits, List.all_cons, Bool.and_eq_true] at hfits
  exact hfits.1.2.1

theorem assembled_mac_status (mt : MessageType) {mac : MacAddress}
    (hfits : fits mt router [.macAddress, .status] = true) (hmac : format.accepts mac = true)
    (hencodable : (DataItem.status code text).Encodable) (hbenign : code.terminatesSession = false)
    :
    (Message.mk mt [.macAddress mac, .status code text]).Assembled router format := by
  have hallowed := hfits
  simp only [fits, List.all_cons, Bool.and_eq_true] at hallowed
  refine assembled_of_fits hfits (writable_mac_status mac hencodable) ?_ ?_
  · exact List.forall_mem_cons.mpr ⟨plain_mac hallowed.1.2.1 hmac,
      List.forall_mem_singleton.mpr (plain_status hallowed.1.2.2.1 (.inr hbenign))⟩
  · exact List.forall_mem_cons.mpr ⟨rfl, List.forall_mem_singleton.mpr rfl⟩

theorem plain_of_metric (h : i.isMetricItem = true)
    (hallowed : allowedItem mt router i.typeId = true) : i.Plain mt router format := by
  refine ⟨hallowed, ?_, ?_, isRemoval_of_metric h⟩
  · rintro code text rfl
    cases h
  · rintro mac rfl
    cases h

/-! ### Metrics and addresses -/

theorem typeId_metricItems {m : LinkMetrics} : ∀ i ∈ metricItems m, i.typeId.isMetric = true :=
  fun _ hi => DataItem.typeId_isMetric (isMetricItem_of_mem hi)

theorem isAddress_eq_false_of_isMetric {t : DataItemType} (h : t.isMetric = true) :
    t.isAddress = false := by
  cases ha : t.isAddress with
  | false => rfl
  | true => cases (isMetric_eq_false_of_isAddress ha).symm.trans h

/-- More items than the required ones do no harm. -/
theorem Message.Assembled.more (h : msg.Assembled router format) (hwritable : Writable items)
    (hitems : ∀ i ∈ items, i.Built msg.messageType router format)
    (hkept : ∀ i ∈ msg.dataItems, i ∈ items) :
    (Message.mk msg.messageType items).Assembled router format := by
  refine ⟨h.core, h.expected, hwritable, hitems, fun t ht => ?_, fun ht => ?_⟩
  · obtain ⟨ha, i, hi, hti⟩ := h.required t ht
    exact ⟨ha, i, hkept i hi, hti⟩
  · obtain ⟨i, hi, hti⟩ := h.requested ht
    exact ⟨i, hkept i hi, hti⟩

theorem Message.Assembled.pushMetricItems {m : LinkMetrics} (h : msg.Assembled true format)
    (hmt : metricMessages.contains msg.messageType = true) (hm : m.Encodable)
    (hnot : ∀ i ∈ msg.dataItems, i.typeId.isMetric = false) :
    (pushMetricItems msg m).Assembled true format := by
  refine h.more ?_ ?_ fun i hi => List.mem_append_left _ hi
  · exact h.writable.append (writable_metricItems hm) (fun t => !t.isMetric)
      (fun i hi => by rw [hnot i hi]; rfl) fun i hi => by rw [typeId_metricItems i hi]; rfl
  · exact List.forall_mem_append.mpr
      ⟨h.items, fun i hi => .metric (isMetricItem_of_mem hi) hmt rfl⟩

theorem Message.Assembled.addresses (h : msg.Assembled router format)
    (hmt : addressMessages.contains msg.messageType = true) (hwritable : Writable items)
    (hitems : ∀ i ∈ items, i.isAddressItem = true)
    (hnot : ∀ i ∈ msg.dataItems, i.typeId.isAddress = false) :
    (Message.mk msg.messageType (msg.dataItems ++ items)).Assembled router format := by
  refine h.more ?_ ?_ fun i hi => List.mem_append_left _ hi
  · exact h.writable.append hwritable (fun t => !t.isAddress)
      (fun i hi => by rw [hnot i hi]; rfl)
      fun i hi => by rw [DataItem.typeId_isAddress (hitems i hi)]; rfl
  · exact List.forall_mem_append.mpr ⟨h.items, fun i hi => .address (hitems i hi) hmt⟩

theorem Message.Assembled.appendTo (h : msg.Assembled router format)
    (hmt : addressMessages.contains msg.messageType = true) (hremoved : c.removed.WellFormed)
    (hadded : c.added.WellFormed) (hnot : ∀ i ∈ msg.dataItems, i.typeId.isAddress = false) :
    (c.appendTo msg).Assembled router format := by
  rw [AddressChanges.appendTo, List.append_assoc]
  exact h.addresses hmt (AddressChanges.writable_changes hremoved hadded)
    (List.forall_mem_append.mpr
      ⟨fun _ => isAddressItem_of_mem_sideItems, fun _ => isAddressItem_of_mem_sideItems⟩) hnot

/-! ## The messages of the builders -/

variable {mac : MacAddress} {metrics : LinkMetrics} {addrs : DestinationAddrs}

theorem assembled_buildDestinationUp (hmac : format.accepts mac = true) (hm : metrics.Encodable)
    (ha : addrs.WellFormed) : (buildDestinationUp mac metrics addrs).Assembled true format := by
  have hbase : (Message.mk destinationUp ([.macAddress mac] ++ upAddressItems addrs)).Assembled
      true format := by
    rw [AddressChanges.upAddressItems_eq ha]
    exact (assembled_mac destinationUp (by decide) hmac).addresses rfl
      (AddressChanges.writable_sideItems ha true) (fun _ => isAddressItem_of_mem_sideItems)
      (List.forall_mem_singleton.mpr rfl)
  refine hbase.pushMetricItems rfl hm ?_
  exact List.forall_mem_append.mpr ⟨List.forall_mem_singleton.mpr rfl, fun i hi =>
    isMetric_eq_false_of_isAddress
      (DataItem.typeId_isAddress (isAddressItem_of_mem_upAddressItems hi))⟩

/-- What an Up may carry, an Announce Response may. -/
theorem DataItem.Built.announced (h : i.Built destinationUp true format) :
    i.Built destinationAnnounceResponse true format := by
  cases h with
  | plain h =>
    refine .plain ⟨?_, fun code text hi => .inr ((h.benign code text hi).resolve_left (by decide)),
      h.format, h.additive⟩
    have hup : (decide (i.typeId = .macAddress) || i.typeId.isAddress || i.typeId.isMetric) = true :=
      h.allowed
    show (decide (i.typeId ∈ [.macAddress, .status]) || i.typeId.isAddress || i.typeId.isMetric) =
      true
    simp only [Bool.or_eq_true, decide_eq_true_eq, List.mem_cons] at hup ⊢
    rcases hup with (h | h) | h
    · exact .inl (.inl (.inl h))
    · exact .inl (.inr h)
    · exact .inr h
  | metric h => exact .metric h rfl rfl
  | address h => exact .address h rfl

/-- The Announce Response of a known destination: an Up's items and a trailing status. -/
theorem assembled_announceSuccess {d : ModemDestination} (hmac : format.accepts mac = true)
    (hm : d.metrics.Encodable) (ha : d.addrs.WellFormed) :
    (ModemSessionFsm.announceSuccess mac d).Assembled true format := by
  have hup := assembled_buildDestinationUp hmac hm ha
  have hbase : (Message.mk destinationAnnounceResponse
      [.macAddress mac, .status .success ""]).Assembled true format :=
    assembled_mac_status _ (by decide) hmac (encodable_status_empty _) rfl
  refine hbase.more ?_ ?_ ?_
  · refine hup.writable.append (writable_status (encodable_status_empty _)) (fun t => t ≠ .status)
      (fun i hi => ?_) (List.forall_mem_singleton.mpr rfl)
    have hallowed := hup.admissible.wellFormed.allowed i hi
    refine decide_eq_true fun heq => ?_
    rw [heq] at hallowed
    cases hallowed
  · refine List.forall_mem_append.mpr ⟨fun i hi => (hup.items i hi).announced, ?_⟩
    exact List.forall_mem_singleton.mpr (plain_status rfl (.inr rfl))
  · exact List.forall_mem_cons.mpr ⟨List.mem_append_left _ List.mem_cons_self,
      List.forall_mem_singleton.mpr (List.mem_append_right _ List.mem_cons_self)⟩

theorem assembled_buildDestinationAnnounceResponse (hmac : format.accepts mac = true) :
    (buildDestinationAnnounceResponse mac .requestDenied).Assembled true format :=
  assembled_mac_status destinationAnnounceResponse (by decide) hmac (encodable_status_empty _) rfl

theorem assembled_buildDestinationUpdate (hmac : format.accepts mac = true)
    (hm : metrics.Encodable) : (buildDestinationUpdate mac metrics).Assembled true format :=
  (assembled_mac destinationUpdate (by decide) hmac).pushMetricItems rfl hm
    (List.forall_mem_singleton.mpr rfl)

theorem assembled_addressUpdate (hmac : format.accepts mac = true) (hremoved : c.removed.WellFormed)
    (hadded : c.added.WellFormed) :
    (c.appendTo ((Message.new .destinationUpdate).withItem (.macAddress mac))).Assembled true
      format :=
  (assembled_mac destinationUpdate (by decide) hmac).appendTo rfl hremoved hadded
    (List.forall_mem_singleton.mpr rfl)

theorem assembled_deferredUpdate {d : ModemDestination} {m : Message}
    (hmac : format.accepts mac = true) (hm : d.metrics.Encodable)
    (hadv : d.advertisedAddrs.WellFormed) (ha : d.addrs.WellFormed)
    (h : ModemSessionFsm.deferredUpdate mac d = some m) : m.Assembled true format := by
  have hremoved := AddressChanges.wellFormed_difference hadv d.addrs
  have hadded := AddressChanges.wellFormed_difference ha d.advertisedAddrs
  simp only [ModemSessionFsm.deferredUpdate] at h
  split at h
  · cases h
    split
    · refine (assembled_buildDestinationUpdate hmac hm).appendTo rfl hremoved hadded ?_
      exact List.forall_mem_append.mpr ⟨List.forall_mem_singleton.mpr rfl, fun i hi =>
        isAddress_eq_false_of_isMetric (typeId_metricItems i hi)⟩
    · exact assembled_addressUpdate hmac hremoved hadded
  · cases h

theorem assembled_buildLinkCharacteristicsReply {status : StatusCode}
    (hmac : format.accepts mac = true) (hm : metrics.Encodable)
    (hencodable : (DataItem.status status text).Encodable)
    (hbenign : status.terminatesSession = false) :
    (buildLinkCharacteristicsReply mac status text metrics).Assembled true format :=
  (assembled_mac_status linkCharacteristicsResponse (by decide) hmac hencodable
    hbenign).pushMetricItems rfl hm
    (List.forall_mem_cons.mpr ⟨rfl, List.forall_mem_singleton.mpr rfl⟩)

theorem assembled_buildSessionUpdate (hm : metrics.Encodable) :
    (buildSessionUpdate metrics).Assembled true format :=
  (assembled_bare sessionUpdate (by decide)).pushMetricItems rfl hm (by simp)

/-! ### Messages of both sides -/

theorem assembled_sessionAddresses (router : Bool) (hremoved : c.removed.WellFormed)
    (hadded : c.added.WellFormed) : (c.appendTo (.new .sessionUpdate)).Assembled router format := by
  refine Message.Assembled.appendTo (assembled_bare _ ?_) rfl hremoved hadded (by simp)
  cases router <;> decide

theorem assembled_buildHeartbeat (router : Bool) : buildHeartbeat.Assembled router format := by
  refine assembled_bare .heartbeat ?_
  cases router <;> decide

theorem assembled_buildSessionUpdateResponse (router : Bool) :
    (buildSessionUpdateResponse .success).Assembled router format := by
  refine assembled_status sessionUpdateResponse ?_ (encodable_status_empty _) (.inr rfl)
  cases router <;> decide

theorem assembled_sessionTermination (router : Bool) (h : (DataItem.status code text).Encodable) :
    ((Message.new .sessionTermination).withItem (.status code text)).Assembled router format := by
  refine assembled_status sessionTermination ?_ h (.inl rfl)
  cases router <;> decide

theorem assembled_buildDestinationDown {reason : StatusCode} (router : Bool)
    (hmac : format.accepts mac = true) : (buildDestinationDown mac reason).Assembled router format := by
  refine assembled_mac destinationDown ?_ hmac
  cases router <;> decide

theorem assembled_buildDestinationDownResponse (router : Bool)
    (hmac : format.accepts mac = true) :
    (buildDestinationDownResponse mac .success).Assembled router format := by
  refine assembled_mac_status destinationDownResponse ?_ hmac (encodable_status_empty _) rfl
  cases router <;> decide

/-! ### Messages of the router -/

theorem assembled_buildDestinationUpResponse (hmac : format.accepts mac = true) :
    (buildDestinationUpResponse mac .success).Assembled false format :=
  assembled_mac_status destinationUpResponse (by decide) hmac (encodable_status_empty _) rfl

theorem assembled_buildDestinationAnnounce (hmac : format.accepts mac = true) :
    (buildDestinationAnnounce mac).Assembled false format :=
  assembled_mac destinationAnnounce (by decide) hmac

/-- The item types of a request for the given characteristics. -/
def characteristicTypes (rx tx latency : Bool) : List DataItemType :=
  [.macAddress] ++ (if rx then [.currentDataRateReceive] else []) ++
    (if tx then [.currentDataRateTransmit] else []) ++ (if latency then [.latency] else [])

theorem characteristicTypes_ok : ∀ rx tx latency, (characteristicTypes rx tx latency).Nodup ∧
    (∀ t ∈ characteristicTypes rx tx latency, allowedItem linkCharacteristicsRequest false t = true) ∧
    ((rx || tx || latency) = true → ∃ t ∈ characteristicTypes rx tx latency,
      t ∈ [DataItemType.currentDataRateReceive, .currentDataRateTransmit, .latency]) := by
  decide

theorem map_typeId_request (mac : MacAddress) (requested : LinkCharacteristics) :
    (buildLinkCharacteristicsRequest mac requested).dataItems.map DataItem.typeId =
      characteristicTypes requested.currentDataRateRxBps.isSome requested.currentDataRateTxBps.isSome
        requested.latency.isSome := by
  obtain ⟨rx, tx, latency⟩ := requested
  cases rx <;> cases tx <;> cases latency <;> rfl

theorem mem_request {requested : LinkCharacteristics}
    (h : i ∈ (buildLinkCharacteristicsRequest mac requested).dataItems) :
    i = .macAddress mac ∨ i.isMetricItem = true := by
  simp only [buildLinkCharacteristicsRequest, List.mem_append, List.mem_singleton,
    Option.mem_toList, Option.map_eq_some_iff] at h
  rcases h with ((rfl | ⟨_, -, rfl⟩) | ⟨_, -, rfl⟩) | ⟨_, -, rfl⟩
  · exact .inl rfl
  · exact .inr rfl
  · exact .inr rfl
  · exact .inr rfl

theorem assembled_buildLinkCharacteristicsRequest {requested : LinkCharacteristics}
    (hmac : format.accepts mac = true) (hrequested : requested.isEmpty = false)
    (hencodes : (buildLinkCharacteristicsRequest mac requested).Encodes) :
    (buildLinkCharacteristicsRequest mac requested).Assembled false format := by
  obtain ⟨hnodup, hallowed, hsome⟩ := characteristicTypes_ok requested.currentDataRateRxBps.isSome
    requested.currentDataRateTxBps.isSome requested.latency.isSome
  rw [← map_typeId_request mac] at hnodup hallowed hsome
  refine ⟨rfl, rfl, .of_types ?_ ((Message.encodes_iff _).mp hencodes).1 hnodup, ?_, ?_, fun _ => ?_⟩
  · intro i hi raw hraw
    rw [hraw] at hi
    rcases mem_request hi with h | h <;> cases h
  · intro i hi
    have hok := hallowed i.typeId (List.mem_map_of_mem hi)
    rcases mem_request hi with rfl | hm
    · exact plain_mac rfl hmac
    · exact .plain (plain_of_metric hm hok)
  · exact List.forall_mem_singleton.mpr ⟨rfl, .macAddress mac, List.mem_cons_self, rfl⟩
  · have hany : (requested.currentDataRateRxBps.isSome || requested.currentDataRateTxBps.isSome ||
        requested.latency.isSome) = true := by
      simp only [LinkCharacteristics.isEmpty] at hrequested
      cases h₁ : requested.currentDataRateRxBps <;> cases h₂ : requested.currentDataRateTxBps <;>
        cases h₃ : requested.latency <;> simp_all
    obtain ⟨t, ht, htype⟩ := hsome hany
    obtain ⟨i, hi, rfl⟩ := List.mem_map.mp ht
    exact ⟨i, hi, htype⟩

/-! ### Initialization -/

/-- The items that both initialization messages start with. -/
def openingItems (config : SessionConfig) : List DataItem :=
  (pushExtensionsSupported (Message.mk sessionInitialization
    [.heartbeatInterval (localHeartbeatInterval config),
      .peerType .default config.peerDescription]) config.advertisedExtensions).dataItems

theorem buildSessionInitialization_eq (config : SessionConfig) :
    buildSessionInitialization config = ⟨sessionInitialization, openingItems config⟩ := by
  unfold openingItems buildSessionInitialization pushExtensionsSupported
  split <;> rfl

theorem buildSessionInitializationResponse_eq (config : SessionConfig) :
    buildSessionInitializationResponse config = ⟨sessionInitializationResponse,
      .status .success "" :: openingItems config ++ metricItems config.initialMetrics⟩ := by
  unfold openingItems buildSessionInitializationResponse pushExtensionsSupported
  split <;> rfl

/-- The items of an initialization message apart from status and metrics. -/
structure OpeningItem (i : DataItem) : Prop where
  typed : ∀ raw, i ≠ .unknown raw
  type : i.typeId ∈ [DataItemType.heartbeatInterval, .peerType, .extensionsSupported]
  plain : (∀ code text, i ≠ .status code text) ∧ (∀ mac, i ≠ .macAddress mac) ∧ isRemoval i = false

theorem mem_openingItems : ∀ i ∈ openingItems config, OpeningItem i := by
  have hbase : ∀ i ∈ [DataItem.heartbeatInterval (localHeartbeatInterval config),
      .peerType .default config.peerDescription], OpeningItem i := by
    refine List.forall_mem_cons.mpr ⟨?_, List.forall_mem_singleton.mpr ?_⟩
    · exact ⟨nofun, .head _, nofun, nofun, rfl⟩
    · exact ⟨nofun, .tail _ (.head _), nofun, nofun, rfl⟩
  unfold openingItems pushExtensionsSupported
  split
  · exact hbase
  · refine List.forall_mem_append.mpr ⟨hbase, List.forall_mem_singleton.mpr ?_⟩
    exact ⟨nofun, .tail _ (.tail _ (.head _)), nofun, nofun, rfl⟩

theorem nodup_openingItems (config : SessionConfig) :
    ((openingItems config).map DataItem.typeId).Nodup := by
  unfold openingItems pushExtensionsSupported
  split
  · show [DataItemType.heartbeatInterval, .peerType].Nodup
    decide
  · show [DataItemType.heartbeatInterval, .peerType, .extensionsSupported].Nodup
    decide

theorem exists_openingItem {t : DataItemType} (h : t ∈ [DataItemType.peerType, .heartbeatInterval])
    :
    ∃ i ∈ openingItems config, i.typeId = t := by
  have hbase : ∀ i ∈ [DataItem.heartbeatInterval (localHeartbeatInterval config),
      .peerType .default config.peerDescription], i ∈ openingItems config := by
    intro i hi
    unfold openingItems pushExtensionsSupported
    split
    · exact hi
    · exact List.mem_append_left _ hi
  simp only [List.mem_cons, List.not_mem_nil, or_false] at h
  rcases h with rfl | rfl
  · exact ⟨_, hbase _ (.tail _ (.head _)), rfl⟩
  · exact ⟨_, hbase _ (.head _), rfl⟩

theorem OpeningItem.built (h : OpeningItem i)
    (hmt : ∀ t ∈ [DataItemType.heartbeatInterval, .peerType, .extensionsSupported],
      allowedItem mt router t = true) : i.Built mt router format :=
  .plain ⟨hmt _ h.type, fun code text hi => absurd hi (h.plain.1 code text),
    fun mac hi => absurd hi (h.plain.2.1 mac), h.plain.2.2⟩

theorem writable_openingItems (h : ∀ i ∈ openingItems config, i.Encodable) :
    Writable (openingItems config) :=
  .of_types (fun i hi => (mem_openingItems i hi).typed) h (nodup_openingItems config)

theorem assembled_buildSessionInitialization (h : (buildSessionInitialization config).Encodes) :
    (buildSessionInitialization config).Assembled false format := by
  have hencodable := ((Message.encodes_iff _).mp h).1
  rw [buildSessionInitialization_eq] at hencodable ⊢
  have hallowed : ∀ t ∈ [DataItemType.heartbeatInterval, .peerType, .extensionsSupported],
      allowedItem sessionInitialization false t = true := by decide
  refine ⟨rfl, rfl, writable_openingItems hencodable,
    fun i hi => (mem_openingItems i hi).built hallowed, fun t ht => ?_, nofun⟩
  have ht : t ∈ [DataItemType.peerType, .heartbeatInterval] := ht
  have haddress : ∀ t ∈ [DataItemType.peerType, .heartbeatInterval], t.isAddress = false := by
    decide
  exact ⟨haddress t ht, exists_openingItem ht⟩

theorem mem_types_metricItems {m : LinkMetrics} {t : DataItemType} (h : t ∈ m.types) :
    ∃ i ∈ metricItems m, i.typeId = t := by
  rw [← map_typeId_metricItems] at h
  exact List.mem_map.mp h

theorem assembled_buildSessionInitializationResponse
    (h : (buildSessionInitializationResponse config).Encodes) :
    (buildSessionInitializationResponse config).Assembled true format := by
  have hencodable := ((Message.encodes_iff _).mp h).1
  rw [buildSessionInitializationResponse_eq] at hencodable ⊢
  obtain ⟨hopening, hmetrics⟩ := List.forall_mem_append.mp hencodable
  obtain ⟨hstatus, hopening⟩ := List.forall_mem_cons.mp hopening
  have hnot : ∀ t ∈ [DataItemType.heartbeatInterval, .peerType, .extensionsSupported],
      decide (t = .status) = false ∧ (!t.isMetric) = true := by decide
  have hallowed : ∀ t ∈ [DataItemType.heartbeatInterval, .peerType, .extensionsSupported],
      allowedItem sessionInitializationResponse true t = true := by decide
  refine ⟨rfl, rfl, ?_, ?_, fun t ht => ?_, nofun⟩
  · have hhead : Writable (.status .success "" :: openingItems config) :=
      (writable_status hstatus).append (writable_openingItems hopening) (fun t => t = .status)
        (List.forall_mem_singleton.mpr rfl) fun i hi => (hnot _ (mem_openingItems i hi).type).1
    refine hhead.append (writable_metricItems hmetrics) (fun t => !t.isMetric) ?_ ?_
    · exact List.forall_mem_cons.mpr ⟨rfl, fun i hi => (hnot _ (mem_openingItems i hi).type).2⟩
    · exact fun i hi => by rw [typeId_metricItems i hi]; rfl
  · refine List.forall_mem_append.mpr ⟨List.forall_mem_cons.mpr ⟨?_, fun i hi => ?_⟩, fun i hi => ?_⟩
    · exact plain_status rfl (.inr rfl)
    · exact (mem_openingItems i hi).built hallowed
    · exact .metric (isMetricItem_of_mem hi) rfl rfl
  · have haddress : ∀ t ∈ requiredItems sessionInitializationResponse, t.isAddress = false := by
      decide
    have hsplit : ∀ t ∈ requiredItems sessionInitializationResponse, t = .status ∨
        t ∈ [DataItemType.peerType, .heartbeatInterval] ∨ t ∈ shapeTypes false false false false := by
      decide
    refine ⟨haddress t ht, ?_⟩
    rcases hsplit t ht with rfl | ht | ht
    · exact ⟨_, List.mem_cons_self, rfl⟩
    · obtain ⟨i, hi, hti⟩ : ∃ i ∈ openingItems config, i.typeId = t := exists_openingItem ht
      exact ⟨i, List.mem_append_left _ (List.mem_cons_of_mem _ hi), hti⟩
    · obtain ⟨i, hi, hti⟩ := mem_types_metricItems (config.initialMetrics.mem_types_of_mandatory ht)
      exact ⟨i, List.mem_append_right _ hi, hti⟩

end

/-! ## Declared metrics -/

section

variable {msg : Message} {m initial : LinkMetrics}

theorem metricTypes_eq_nil (h : ∀ i ∈ msg.dataItems, i.typeId.isMetric = false) :
    metricTypes msg = [] := by
  refine List.filter_eq_nil_iff.mpr fun t ht => ?_
  obtain ⟨i, hi, rfl⟩ := List.mem_map.mp ht
  rw [h i hi]
  exact Bool.false_ne_true

theorem metricTypes_pushMetricItems (h : ∀ i ∈ msg.dataItems, i.typeId.isMetric = false)
    (m : LinkMetrics) : metricTypes (pushMetricItems msg m) = m.types := by
  have hnil := metricTypes_eq_nil h
  unfold metricTypes at hnil ⊢
  rw [pushMetricItems, List.map_append, List.filter_append, hnil, List.nil_append,
    map_typeId_metricItems, ← map_typeId_metricItems]
  refine List.filter_eq_self.mpr fun t ht => ?_
  obtain ⟨i, hi, rfl⟩ := List.mem_map.mp ht
  exact typeId_metricItems i hi

theorem metricTypes_append {items : List DataItem} (mt : MessageType)
    (h : ∀ i ∈ items, i.typeId.isMetric = false) :
    metricTypes ⟨mt, msg.dataItems ++ items⟩ = metricTypes msg := by
  have hnil : metricTypes ⟨mt, items⟩ = [] := metricTypes_eq_nil h
  unfold metricTypes at hnil ⊢
  rw [List.map_append, List.filter_append, hnil, List.append_nil]

theorem metricTypes_appendTo (c : AddressChanges) (msg : Message) :
    metricTypes (c.appendTo msg) = metricTypes msg := by
  rw [AddressChanges.appendTo, List.append_assoc]
  refine metricTypes_append _ (List.forall_mem_append.mpr ⟨fun i hi => ?_, fun i hi => ?_⟩)
  · exact isMetric_eq_false_of_isAddress
      (DataItem.typeId_isAddress (isAddressItem_of_mem_sideItems hi))
  · exact isMetric_eq_false_of_isAddress
      (DataItem.typeId_isAddress (isAddressItem_of_mem_sideItems hi))

/-! ### The builders -/

variable {mac : MacAddress}

theorem not_metric_mac (mac : MacAddress) :
    ∀ i ∈ [DataItem.macAddress mac], i.typeId.isMetric = false :=
  List.forall_mem_singleton.mpr rfl

theorem metricTypes_buildDestinationUp (addrs : DestinationAddrs) :
    metricTypes (buildDestinationUp mac m addrs) = m.types := by
  refine metricTypes_pushMetricItems ?_ m
  exact List.forall_mem_append.mpr ⟨not_metric_mac mac, fun i hi =>
    isMetric_eq_false_of_isAddress
      (DataItem.typeId_isAddress (isAddressItem_of_mem_upAddressItems hi))⟩

theorem metricTypes_announceSuccess (d : ModemDestination) :
    metricTypes (ModemSessionFsm.announceSuccess mac d) = d.metrics.types := by
  rw [ModemSessionFsm.announceSuccess, metricTypes_append _ (List.forall_mem_singleton.mpr rfl)]
  exact metricTypes_buildDestinationUp d.addrs

theorem metricTypes_buildDestinationUpdate : metricTypes (buildDestinationUpdate mac m) = m.types :=
  metricTypes_pushMetricItems (not_metric_mac mac) m

/-- The metrics that an acknowledged Up left to report, if any. -/
theorem metricTypes_deferredUpdate {d : ModemDestination}
    (h : ModemSessionFsm.deferredUpdate mac d = some msg) :
    metricTypes msg = d.metrics.types ∨ metricTypes msg = [] := by
  simp only [ModemSessionFsm.deferredUpdate] at h
  split at h
  · cases h
    rw [metricTypes_appendTo]
    split
    · exact .inl metricTypes_buildDestinationUpdate
    · exact .inr rfl
  · cases h

theorem metricTypes_buildLinkCharacteristicsReply (status : StatusCode) (text : String) :
    metricTypes (buildLinkCharacteristicsReply mac status text m) = m.types := by
  have hplain : ∀ i ∈ [DataItem.macAddress mac, .status status text], i.typeId.isMetric = false :=
    List.forall_mem_cons.mpr ⟨rfl, List.forall_mem_singleton.mpr rfl⟩
  show metricTypes (pushMetricItems
    ⟨linkCharacteristicsResponse, [.macAddress mac, .status status text]⟩ m) = m.types
  exact metricTypes_pushMetricItems hplain m

theorem metricTypes_buildSessionUpdate : metricTypes (buildSessionUpdate m) = m.types :=
  metricTypes_pushMetricItems (by simp) m

theorem metricTypes_buildSessionInitializationResponse (config : SessionConfig) :
    metricTypes (buildSessionInitializationResponse config) = config.initialMetrics.types := by
  rw [buildSessionInitializationResponse_eq]
  show metricTypes (pushMetricItems ⟨_, .status .success "" :: openingItems config⟩ _) = _
  refine metricTypes_pushMetricItems ?_ _
  have hnot : ∀ t ∈ [DataItemType.heartbeatInterval, .peerType, .extensionsSupported],
      t.isMetric = false := by decide
  exact List.forall_mem_cons.mpr ⟨rfl, fun i hi => hnot _ (mem_openingItems i hi).type⟩

/-! ### Declarations -/

/-- A report in the shape of the session is complete. -/
theorem declared_of_sameShape (h : metricTypes msg = m.types) (hshape : m.SameShape initial) :
    msg.Declared initial := by
  rw [LinkMetrics.types_of_sameShape hshape] at h
  exact ⟨fun t ht => h ▸ ht, fun _ t ht => h ▸ ht⟩

/-- A partial report stays within the declared metrics. -/
theorem declared_of_within (h : ∀ t ∈ metricTypes msg, t ∈ initial.types)
    (ht : [linkCharacteristicsResponse, sessionInitializationResponse].contains
      msg.messageType = false) : msg.Declared initial :=
  ⟨h, fun hmem => by simp_all⟩

end

end Dlep
