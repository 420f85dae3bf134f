-- SUMMARY: Every message a state machine sends encodes, unless the modem's address items outgrow the 16-bit length.
import Mathlib.Algebra.Order.BigOperators.Group.List
import Mathlib.Algebra.Order.Group.Nat
import Dlep.Core.Codec.Canonical
import Dlep.Fsm.Fit
import Dlep.Fsm.Welcome

/-!
# Messages sent encode

A message encodes when the values of its items are in range and the items fit the
16-bit length of the header. The state machines store values in range, so only the
length can fail. The preflight of `check_command` encodes a message before it accepts
a command, but for a destination it encodes the Destination Up with the resulting
addresses. What is sent later is another message: the difference to the addresses
last reported, or the Announce Response, which is the Up with a status.
-/

namespace Dlep

variable {msg : Message}

open MessageType

/-! ## Lengths -/

/-- The octets of the items that carry the addresses. -/
def DestinationAddrs.wireLen (a : DestinationAddrs) : ℕ :=
  9 * a.v4.length + 21 * a.v6.length + 10 * a.v4Subnets.length + 22 * a.v6Subnets.length

/-- The octets of the items that carry both sides of a change. -/
def AddressChanges.wireLen (c : AddressChanges) : ℕ := c.removed.wireLen + c.added.wireLen

/-- The octets of the items that carry the metrics. -/
def LinkMetrics.wireLen (m : LinkMetrics) : ℕ := itemsLen (metricItems m)

/-- Items of one length, one for each element. -/
theorem itemsLen_map {α : Type} {f : α → DataItem} {n : ℕ} (h : ∀ a, (f a).wireLen = n)
    (as : List α) : itemsLen (as.map f) = n * as.length := by
  induction as with
  | nil => rfl
  | cons a as ih =>
    rw [List.map_cons, itemsLen_cons, h, ih, List.length_cons, Nat.mul_succ, Nat.add_comm]

/-- Address items take the same octets whatever the add flag and the form of the subnets. -/
theorem itemsLen_addressItems (add : Bool) (f₄ : Ipv4Net → Ipv4Net) (f₆ : Ipv6Net → Ipv6Net)
    (a : DestinationAddrs) :
    itemsLen (a.v4.map (.ipv4Address add) ++ a.v6.map (.ipv6Address add) ++
      a.v4Subnets.map (fun s => .ipv4AttachedSubnet add (f₄ s)) ++
      a.v6Subnets.map (fun s => .ipv6AttachedSubnet add (f₆ s))) = a.wireLen := by
  simp only [itemsLen_append]
  rw [itemsLen_map (n := 9), itemsLen_map (n := 21), itemsLen_map (n := 10), itemsLen_map (n := 22)]
  · rfl
  all_goals
    intro
    simp [DataItem.wireLen, DataItem.valueBytes]

theorem itemsLen_sideItems (add : Bool) (a : DestinationAddrs) :
    itemsLen (AddressChanges.sideItems add a) = a.wireLen :=
  itemsLen_addressItems add IpNet.trunc IpNet.trunc a

theorem itemsLen_upAddressItems (a : DestinationAddrs) :
    itemsLen (upAddressItems a) = a.wireLen := itemsLen_addressItems true id id a

theorem wireLen_canonical (a : DestinationAddrs) : a.canonical.wireLen = a.wireLen := by
  simp [DestinationAddrs.wireLen, DestinationAddrs.canonical]

theorem wireLen_mac_le (mac : MacAddress) : (DataItem.macAddress mac).wireLen ≤ 12 := by
  cases mac <;> simp [DataItem.wireLen, DataItem.valueBytes, MacAddress.len]

theorem wireLen_metrics_le (m : LinkMetrics) : m.wireLen ≤ 81 := by
  obtain ⟨_, _, _, _, _, res, rx, tx, mtu⟩ := m
  cases res <;> cases rx <;> cases tx <;> cases mtu <;>
    simp [LinkMetrics.wireLen, metricItems, DataItem.wireLen, DataItem.valueBytes]

/-! ## Items that fit -/

/-- Items with values in range that take at most `n` octets. -/
structure FitIn (items : List DataItem) (n : ℕ) : Prop where
  encodable : ∀ i ∈ items, i.Encodable
  length : itemsLen items ≤ n

namespace FitIn

variable {items more : List DataItem} {n k : ℕ}

theorem nil : FitIn [] 0 := ⟨fun _ hi => absurd hi List.not_mem_nil, le_rfl⟩

theorem one {i : DataItem} (h : i.Encodable) : FitIn [i] i.wireLen :=
  ⟨List.forall_mem_singleton.mpr h, by simp⟩

theorem append (h : FitIn items n) (hmore : FitIn more k) : FitIn (items ++ more) (n + k) := by
  refine ⟨List.forall_mem_append.mpr ⟨h.encodable, hmore.encodable⟩, ?_⟩
  rw [itemsLen_append]
  exact Nat.add_le_add h.length hmore.length

theorem mono (h : FitIn items n) (hn : n ≤ k) : FitIn items k := ⟨h.encodable, h.length.trans hn⟩

/-- Items that fit the 16-bit length make a message that encodes. -/
theorem encodes {mt : MessageType} (h : FitIn items n) (hn : n ≤ u16Max) :
    (Message.mk mt items).Encodes :=
  (Message.encodes_iff _).mpr ⟨h.encodable, h.length.trans hn⟩

theorem mac (mac : MacAddress) : FitIn [.macAddress mac] (DataItem.macAddress mac).wireLen :=
  one (encodable_mac mac)

theorem status (code : StatusCode) : FitIn [.status code ""] 5 := one (encodable_status_empty code)

theorem metrics {m : LinkMetrics} (h : m.Encodable) : FitIn (metricItems m) m.wireLen := ⟨h, le_rfl⟩

theorem upAddresses (a : DestinationAddrs) : FitIn (upAddressItems a) a.wireLen :=
  ⟨fun _ hi => DataItem.encodable_of_isAddressItem (isAddressItem_of_mem_upAddressItems hi),
    (itemsLen_upAddressItems a).le⟩

theorem side (add : Bool) (a : DestinationAddrs) :
    FitIn (AddressChanges.sideItems add a) a.wireLen :=
  ⟨fun _ hi => DataItem.encodable_of_isAddressItem (isAddressItem_of_mem_sideItems hi),
    (itemsLen_sideItems add a).le⟩

theorem appendTo {msg : Message} (h : FitIn msg.dataItems n) (c : AddressChanges) :
    FitIn (c.appendTo msg).dataItems (n + c.wireLen) := by
  have hitems := (h.append (side false c.removed)).append (side true c.added)
  rw [Nat.add_assoc] at hitems
  exact hitems

/-- One item of a message that encodes. -/
theorem of_mem {msg : Message} {i : DataItem} (h : msg.Encodes) (hi : i ∈ msg.dataItems) :
    FitIn [i] u16Max := by
  obtain ⟨hencodable, hlength⟩ := (Message.encodes_iff msg).mp h
  refine ⟨List.forall_mem_singleton.mpr (hencodable i hi), ?_⟩
  have hle : i.wireLen ≤ itemsLen msg.dataItems :=
    List.le_sum_of_mem (List.mem_map_of_mem hi)
  simpa using hle.trans hlength

end FitIn

/-! ## Short messages -/

theorem encodes_mac (mt : MessageType) (mac : MacAddress) :
    (Message.mk mt [.macAddress mac]).Encodes :=
  (FitIn.mac mac).encodes ((wireLen_mac_le mac).trans (by decide))

theorem encodes_mac_status (mt : MessageType) (mac : MacAddress) (code : StatusCode) :
    (Message.mk mt [.macAddress mac, .status code ""]).Encodes := by
  have hmac := wireLen_mac_le mac
  refine ((FitIn.mac mac).append (.status code)).encodes ?_
  unfold u16Max
  omega

theorem encodes_status (mt : MessageType) (code : StatusCode) :
    (Message.mk mt [.status code ""]).Encodes := (FitIn.status code).encodes (by decide)

theorem encodes_bare (mt : MessageType) : (Message.new mt).Encodes :=
  FitIn.nil.encodes (Nat.zero_le _)

theorem encodes_buildSessionUpdate {m : LinkMetrics} (h : m.Encodable) :
    (buildSessionUpdate m).Encodes :=
  (FitIn.metrics h).encodes ((wireLen_metrics_le m).trans (by decide))

theorem encodes_buildDestinationUpdate (mac : MacAddress) {m : LinkMetrics} (h : m.Encodable) :
    (buildDestinationUpdate mac m).Encodes := by
  have hmac := wireLen_mac_le mac
  have hm := wireLen_metrics_le m
  refine ((FitIn.mac mac).append (.metrics h)).encodes ?_
  unfold u16Max
  omega

theorem encodes_buildLinkCharacteristicsResponse (mac : MacAddress) (status : StatusCode)
    {m : LinkMetrics} (h : m.Encodable) :
    (buildLinkCharacteristicsResponse mac status m).Encodes := by
  have hmac := wireLen_mac_le mac
  have hm := wireLen_metrics_le m
  refine (((FitIn.mac mac).append (.status status)).append (.metrics h)).encodes ?_
  unfold u16Max
  omega

/-- The set a checked local update sends was encoded by the check. -/
theorem encodes_of_validateLocalAddressUpdate {a : DestinationAddrs} {c : AddressChanges}
    (h : validateLocalAddressUpdate a c = .ok ()) :
    ((AddressChanges.between a (c.applyLenient a)).appendTo (.new .sessionUpdate)).Encodes := by
  unfold validateLocalAddressUpdate at h
  split at h
  · cases h
  · dsimp only at h
    split at h
    · cases h
    · rename_i bytes hencode
      exact ⟨bytes, hencode⟩

/-- A fatal status is an item of the message that carries it. -/
theorem mem_of_fatalStatus {item : DataItem} (h : fatalStatus msg = some item) :
    item ∈ msg.dataItems := by
  unfold fatalStatus at h
  split at h
  · cases h
  · exact List.mem_of_find?_eq_some h

/-- A refusal of a message that encodes fits a message of its own. -/
theorem fitIn_refuse {receiving : Prop} [Decidable receiving] {check : Except StatusCode Unit}
    {item : DataItem} (h : refuse receiving check msg = some item) (hmsg : msg.Encodes) :
    FitIn [item] u16Max := by
  rcases (refuse_eq_some h).2 with hf | ⟨-, code, -, rfl⟩
  · exact .of_mem hmsg (mem_of_fatalStatus hf)
  · exact (FitIn.status _).mono (by decide)

theorem Ending.encodes {fault : StatusCode → String → Prop} {leak : Prop} {v : LifeView}
    {event : FsmEvent} {phase : Phase} {reason : StatusCode} {actions : List FsmAction}
    (h : Ending fault leak v event phase reason actions)
    (hfault : ∀ code text, fault code text → FitIn [.status code text] u16Max) :
    ∀ m ∈ sentMessages actions, m.Encodes := by
  intro m hm
  rcases h.sent m hm with rfl | ⟨code, text, rfl | htext, rfl⟩
  · exact encodes_bare _
  · exact encodes_status _ _
  · exact (hfault code text htext).encodes le_rfl

/-! ## The modem -/

namespace ModemSessionFsm

/-- The step would send more address items than a message holds. In each case the
preflight of the commands before it encoded another message. -/
inductive Overflows (s : ModemSessionFsm) : FsmEvent → Prop where
  | update {mac changes d} (hp : s.Permits (.appUpdateAddresses mac changes))
      (hd : s.destinations.lookup mac = some d) (hannounced : d.announced = true)
      (hlength : u16Max < (DataItem.macAddress mac).wireLen +
        (AddressChanges.between d.advertisedAddrs (changes.applyLenient d.addrs)).wireLen) :
      Overflows s (.appUpdateAddresses mac changes)
  | acknowledgement {msg mac d} (ha : s.Accepts msg) (ht : msg.messageType = .destinationUpResponse)
      (hmac : extractDestinationMac msg = some mac) (hstatus : extractStatus msg = some .success)
      (hd : s.destinations.lookup mac = some d)
      (hlength : u16Max < (DataItem.macAddress mac).wireLen +
        (if d.pendingMetrics then d.metrics.wireLen else 0) +
        (AddressChanges.between d.advertisedAddrs d.addrs).wireLen) :
      Overflows s (.recvMessage msg)
  | announcement {msg mac d} (ha : s.Accepts msg) (ht : msg.messageType = .destinationAnnounce)
      (hmac : extractDestinationMac msg = some mac) (hd : s.destinations.lookup mac = some d)
      (hlength : u16Max <
        (DataItem.macAddress mac).wireLen + d.addrs.wireLen + d.metrics.wireLen + 5) :
      Overflows s (.recvMessage msg)

variable {s s' : ModemSessionFsm} {event : FsmEvent} {actions : List FsmAction}

theorem fitIn_deferredUpdate {mac : MacAddress} {d : ModemDestination} {m : Message}
    (hd : d.metrics.Encodable) (h : deferredUpdate mac d = some m) :
    FitIn m.dataItems ((DataItem.macAddress mac).wireLen +
      (if d.pendingMetrics then d.metrics.wireLen else 0) +
      (AddressChanges.between d.advertisedAddrs d.addrs).wireLen) := by
  unfold deferredUpdate at h
  dsimp only at h
  split at h
  · cases h
    refine FitIn.appendTo ?_ _
    split
    · exact (FitIn.mac mac).append (.metrics hd)
    · exact FitIn.mac mac
  · cases h

theorem itemsLen_announceSuccess (mac : MacAddress) (d : ModemDestination) :
    itemsLen (announceSuccess mac d).dataItems =
      (DataItem.macAddress mac).wireLen + d.addrs.wireLen + d.metrics.wireLen + 5 := by
  simp only [announceSuccess, buildDestinationUp, pushMetricItems, itemsLen_append, itemsLen_cons,
    itemsLen_nil, itemsLen_upAddressItems]
  rfl

theorem fitIn_announceSuccess (mac : MacAddress) {d : ModemDestination} (hd : d.metrics.Encodable) :
    FitIn (announceSuccess mac d).dataItems
      ((DataItem.macAddress mac).wireLen + d.addrs.wireLen + d.metrics.wireLen + 5) :=
  (((FitIn.mac mac).append (.upAddresses d.addrs)).append (.metrics hd)).append (.status .success)

/-- The Up the preflight encoded and the Up that is sent differ in the form of the
subnets only. -/
theorem encodes_buildDestinationUp_canonical {mac : MacAddress} {m : LinkMetrics}
    {a : DestinationAddrs} (hm : m.Encodable) (h : (buildDestinationUp mac m a).Encodes) :
    (buildDestinationUp mac m a.canonical).Encodes := by
  refine (((FitIn.mac mac).append (.upAddresses a.canonical)).append (.metrics hm)).encodes ?_
  have hlength := ((Message.encodes_iff _).mp h).2
  simp only [buildDestinationUp, pushMetricItems, itemsLen_append, itemsLen_cons, itemsLen_nil,
    itemsLen_upAddressItems] at hlength
  rw [wireLen_canonical]
  exact hlength

/-- Everything a sound modem sends encodes, unless the step overflows. -/
theorem Transition.encodes (h : s.Transition event s' actions) (hs : s.Sound)
    (hinit : (buildSessionInitializationResponse s.config).Encodes)
    (hrecv : ∀ msg, event = .recvMessage msg → msg.Encodes) (hfits : ¬ s.Overflows event) :
    ∀ m ∈ sentMessages actions, m.Encodes := by
  cases h with
  | rejected | ignored | alive | accepted | refused | metricsDeferred | addressesKept | forgotten
  | dropAnswered | linkDeferred | sessionAnswered | sessionAddressesKept => simp
  | beat => exact List.forall_mem_singleton.mpr (encodes_bare _)
  | initialized =>
    rw [sentMessages_sessionUpActions]
    exact List.forall_mem_singleton.mpr hinit
  | ends h =>
    refine h.encodes ?_
    rintro code text ⟨-, ⟨-, rfl⟩ | ⟨msg, hevent, hrefused⟩⟩
    · exact (FitIn.status code).mono (by decide)
    · exact fitIn_refuse hrefused (hrecv msg hevent)
  | added _ hp =>
    cases hp with
    | add _ _ _ hmetrics _ hencodes =>
      exact List.forall_mem_singleton.mpr
        (encodes_buildDestinationUp_canonical (encodable_effective hs.session hmetrics) hencodes)
  | @acknowledged _ mac d _ ha ht hmac hstatus hd =>
    intro m hm
    have hm : deferredUpdate mac d = some m := by simpa using hm
    exact (fitIn_deferredUpdate (hs.cell _ _ hd).metrics hm).encodes
      (Nat.le_of_not_lt fun hlength =>
        hfits (.acknowledgement ha ht hmac hstatus hd hlength))
  | metricsSent _ hp =>
    cases hp with
    | updateMetrics _ _ hmetrics =>
      exact List.forall_mem_singleton.mpr
        (encodes_buildDestinationUpdate _ (encodable_of_valid hmetrics))
  | addressesSent _ hp hd hannounced =>
    exact List.forall_mem_singleton.mpr (((FitIn.mac _).appendTo _).encodes
      (Nat.le_of_not_lt fun hlength => hfits (.update hp hd hannounced hlength)))
  | dropSent => exact List.forall_mem_singleton.mpr (encodes_mac _ _)
  | @withdrawn _ mac =>
    have hsent : (buildDestinationDownResponse mac .success).Encodes := encodes_mac_status _ _ _
    simpa using hsent
  | @announceDenied _ mac =>
    have hsent : (buildDestinationAnnounceResponse mac .requestDenied).Encodes :=
      encodes_mac_status _ _ _
    simpa using hsent
  | @announceGranted _ mac d _ ha ht hmac hd =>
    have hsent : (announceSuccess mac d).Encodes :=
      (fitIn_announceSuccess mac (hs.cell _ _ hd).metrics).encodes
        (Nat.le_of_not_lt fun hlength => hfits (.announcement ha ht hmac hd hlength))
    simpa using hsent
  | linkDenied _ _ _ _ hd =>
    simpa using encodes_buildLinkCharacteristicsResponse _ .requestDenied (hs.cell _ _ hd).metrics
  | linkAnswered _ hp hd =>
    cases hp with
    | linkResponse _ _ hd' _ _ hencodes =>
      cases hd.symm.trans hd'
      exact List.forall_mem_singleton.mpr hencodes
  | sessionUpdated =>
    have hsent : (buildSessionUpdateResponse .success).Encodes := encodes_status _ _
    simpa using hsent
  | sessionMetricsSent _ hp =>
    cases hp with
    | sessionUpdate _ hmetrics =>
      exact List.forall_mem_singleton.mpr (encodes_buildSessionUpdate (encodable_of_valid hmetrics))
  | sessionAddressesSent _ hp =>
    cases hp with
    | sessionAddresses _ hvalid =>
      exact List.forall_mem_singleton.mpr (encodes_of_validateLocalAddressUpdate hvalid)

end ModemSessionFsm

/-! ## The router -/

namespace RouterSessionFsm

variable {s s' : RouterSessionFsm} {event : FsmEvent} {actions : List FsmAction}

/-- The router's own explanation of a failed initialization. -/
theorem InitFailure.fitIn {msg : Message} {code : StatusCode} {text : String}
    (h : s.InitFailure msg code text) : FitIn [.status code text] u16Max := by
  have hlength : "initialization did not succeed".utf8ByteSize + 5 ≤ u16Max := by decide
  rw [h.text]
  refine ⟨List.forall_mem_singleton.mpr ⟨trivial, ?_⟩, ?_⟩
  · have hvalue : "initialization did not succeed".utf8ByteSize + 1 ≤ u16Max := by omega
    simpa [DataItem.valueBytes] using hvalue
  · simp [DataItem.wireLen, DataItem.valueBytes]
    omega

/-- Everything a router sends encodes. -/
theorem Transition.encodes (h : s.Transition event s' actions)
    (hinit : (buildSessionInitialization s.config).Encodes)
    (hrecv : ∀ msg, event = .recvMessage msg → msg.Encodes) :
    ∀ m ∈ sentMessages actions, m.Encodes := by
  cases h with
  | rejected | ignored | alive | updateReceived | dropAnswered | announceGranted | announceDenied
  | linkAnswered | sessionAnswered | sessionAddressesKept => simp
  | initialized => simp [sentMessages_sessionUpActions]
  | beat => exact List.forall_mem_singleton.mpr (encodes_bare _)
  | connected => exact List.forall_mem_singleton.mpr hinit
  | ends h =>
    refine h.encodes ?_
    rintro code text (⟨-, rfl⟩ | ⟨msg, hevent, hrefused | hfailure⟩)
    · exact (FitIn.status code).mono (by decide)
    · exact fitIn_refuse hrefused (hrecv msg hevent)
    · exact hfailure.fitIn
  | @upReceived _ mac =>
    have hsent : (buildDestinationUpResponse mac .success).Encodes := encodes_mac_status _ _ _
    simpa using hsent
  | @downReceived _ mac =>
    have hsent : (buildDestinationDownResponse mac .success).Encodes := encodes_mac_status _ _ _
    simpa using hsent
  | dropSent => exact List.forall_mem_singleton.mpr (encodes_mac _ _)
  | announceSent => exact List.forall_mem_singleton.mpr (encodes_mac _ _)
  | linkSent _ hp =>
    cases hp with
    | requestLink _ _ _ _ hencodes => exact List.forall_mem_singleton.mpr hencodes
  | sessionUpdated =>
    have hsent : (buildSessionUpdateResponse .success).Encodes := encodes_status _ _
    simpa using hsent
  | sessionAddressesSent _ hp =>
    cases hp with
    | sessionAddresses _ hvalid =>
      exact List.forall_mem_singleton.mpr (encodes_of_validateLocalAddressUpdate hvalid)

end RouterSessionFsm

/-! ## Runs -/

theorem Message.encodes_of_decode {bytes : List UInt8} (h : Message.decode bytes = .ok msg) :
    msg.Encodes := ⟨_, Message.encode_of_decode h⟩

theorem sendMessage_mem_iff {m : Message} {actions : List FsmAction} :
    .sendMessage m ∈ actions ↔ m ∈ sentMessages actions := by
  constructor
  · intro h
    exact List.mem_filterMap.mpr ⟨_, h, rfl⟩
  · intro h
    obtain ⟨a, ha, hm⟩ := List.mem_filterMap.mp h
    cases a <;> cases hm
    exact ha

theorem RouterSessionFsm.run_encodes {config : SessionConfig} {events : List FsmEvent}
    {s : RouterSessionFsm} {trace : List Entry} (hrun : run config events = .ok (s, trace))
    (hinit : (buildSessionInitialization config).Encodes) :
    ∀ e ∈ trace, (∀ msg, e.input = .recvMessage msg → msg.Encodes) →
      ∀ m ∈ sentMessages e.output, m.Encodes := by
  suffices hJ : s.config = config ∧ ∀ e ∈ trace, (∀ msg, e.input = .recvMessage msg → msg.Encodes) →
      ∀ m ∈ sentMessages e.output, m.Encodes from hJ.2
  refine lawful.run_history ?_ (consistent_withConfig config) ⟨rfl, by simp⟩ hrun
  rintro s trace event s' actions - ⟨rfl, htrace⟩ ht
  exact ⟨ht.config_eq, List.forall_mem_append.mpr ⟨htrace, List.forall_mem_singleton.mpr
    fun hrecv => ht.encodes hinit hrecv⟩⟩

theorem ModemSessionFsm.run_encodes {config : SessionConfig} {events : List FsmEvent}
    {s : ModemSessionFsm} {trace : List Entry} (hrun : run config events = .ok (s, trace))
    (hinit : (buildSessionInitializationResponse config).Encodes) :
    ∀ e ∈ trace, (∀ msg, e.input = .recvMessage msg → msg.Encodes) →
      ¬ e.before.Overflows e.input → ∀ m ∈ sentMessages e.output, m.Encodes := by
  suffices hJ : s.config = config ∧ s.Sound ∧ ∀ e ∈ trace,
      (∀ msg, e.input = .recvMessage msg → msg.Encodes) → ¬ e.before.Overflows e.input →
        ∀ m ∈ sentMessages e.output, m.Encodes from hJ.2.2
  refine lawful.run_history ?_ (consistent_withConfig config)
    ⟨rfl, sound_withConfig hinit, by simp⟩ hrun
  rintro s trace event s' actions - ⟨rfl, hs, htrace⟩ ht
  exact ⟨ht.config_eq, ht.sound hs, List.forall_mem_append.mpr ⟨htrace,
    List.forall_mem_singleton.mpr fun hrecv hfits => ht.encodes hs hinit hrecv hfits⟩⟩

/-- Every message a state machine asks to send encodes, whatever the commands and the
decoded messages it is fed. The modem needs the address items of a destination to fit:
its preflight measures another message than the one it later sends. -/
theorem sent_messages_encode (config : SessionConfig) (events : List FsmEvent)
    (hdecoded : ∀ msg, .recvMessage msg ∈ events → ∃ bytes, Message.decode bytes = .ok msg) :
    ((buildSessionInitialization config).Encodes →
      ∃ s trace, RouterSessionFsm.run config events = .ok (s, trace) ∧
        ∀ e ∈ trace, ∀ m, .sendMessage m ∈ e.output → m.Encodes) ∧
    ((buildSessionInitializationResponse config).Encodes →
      ∃ s trace, ModemSessionFsm.run config events = .ok (s, trace) ∧
        ∀ e ∈ trace, ¬ e.before.Overflows e.input →
          ∀ m, .sendMessage m ∈ e.output → m.Encodes) := by
  have hrecv : ∀ event ∈ events, ∀ msg, event = .recvMessage msg → msg.Encodes := by
    rintro event hevent msg rfl
    obtain ⟨bytes, hbytes⟩ := hdecoded msg hevent
    exact Message.encodes_of_decode hbytes
  constructor
  · intro hinit
    obtain ⟨s, trace, hrun⟩ := RouterSessionFsm.run_ok config events
    refine ⟨s, trace, hrun, fun e he m hm => ?_⟩
    have hinput := Machine.run_inputs hrun ▸ List.mem_map_of_mem he
    exact RouterSessionFsm.run_encodes hrun hinit e he (hrecv _ hinput) m
      (sendMessage_mem_iff.mp hm)
  · intro hinit
    obtain ⟨s, trace, hrun⟩ := ModemSessionFsm.run_ok config events
    refine ⟨s, trace, hrun, fun e he hfits m hm => ?_⟩
    have hinput := Machine.run_inputs hrun ▸ List.mem_map_of_mem he
    exact ModemSessionFsm.run_encodes hrun hinit e he (hrecv _ hinput) hfits m
      (sendMessage_mem_iff.mp hm)

/-! ## A destination that outgrows its announcement -/

namespace ModemSessionFsm

variable {s : ModemSessionFsm} {mac : MacAddress} {d : ModemDestination}

/-- A router may refuse the Up of a destination. -/
theorem refusal_upResponse (hs : s.state = .inSession)
    (hmac : s.config.macAddressFormat.accepts mac = true)
    (hup : s.tx.pending mac = some .destinationUp) :
    s.refusal (buildDestinationUpResponse mac .requestDenied) = none := by
  have hform : (buildDestinationUpResponse mac .requestDenied).Assembled false
      s.config.macAddressFormat :=
    assembled_mac_status destinationUpResponse (by decide) hmac (encodable_status_empty _) rfl
  have hwelcome : s.Welcomes (buildDestinationUpResponse mac .requestDenied) :=
    { form := hform.admissible
      opened := rfl
      addresses := fun h => absurd (a := destinationUpResponse = sessionUpdate) h (by decide)
      undeferred := fun _ _ h => absurd
        (a := destinationUpResponse ∈ [destinationDown, linkCharacteristicsRequest]) h (by decide) }
  have hsuits : (buildDestinationUpResponse mac .requestDenied).Suits s.tx s.isAnnounced :=
    { sessionAnswer := fun h =>
        absurd (a := destinationUpResponse = sessionUpdateResponse) h (by decide)
      answer := by
        intro _ _ hm hkind
        cases hm
        cases hkind
        exact hup
      update := fun _ _ h => absurd (a := destinationUpResponse = destinationUpdate) h (by decide)
      up := fun _ _ _ h => absurd
        (a := destinationUpResponse ∈ [destinationDown, linkCharacteristicsRequest]) h (by decide)
      down := fun _ _ _ h => absurd
        (a := destinationUpResponse ∈ [destinationUp, destinationAnnounce]) h (by decide) }
  rcases hwelcome.refusal hs hsuits with hok | ⟨-, _, _, _, hrole, -⟩
  · exact hok
  · cases hrole

/-- A router may announce a destination that is not up. -/
theorem refusal_announce (hs : s.state = .inSession)
    (hmac : s.config.macAddressFormat.accepts mac = true) (hidle : s.tx.pending mac = none)
    (hnew : s.isAnnounced mac = false) :
    s.refusal (buildDestinationAnnounce mac) = none := by
  have hwelcome : s.Welcomes (buildDestinationAnnounce mac) :=
    { form := (assembled_buildDestinationAnnounce hmac).admissible
      opened := rfl
      addresses := fun h => absurd (a := destinationAnnounce = sessionUpdate) h (by decide)
      undeferred := fun _ _ h => absurd
        (a := destinationAnnounce ∈ [destinationDown, linkCharacteristicsRequest]) h (by decide) }
  have hsuits : (buildDestinationAnnounce mac).Suits s.tx s.isAnnounced :=
    { sessionAnswer := fun h =>
        absurd (a := destinationAnnounce = sessionUpdateResponse) h (by decide)
      answer := fun _ kind _ h =>
        absurd (a := responseKind destinationAnnounce = some kind) h (by cases kind <;> decide)
      update := fun _ _ h => absurd (a := destinationAnnounce = destinationUpdate) h (by decide)
      up := fun _ _ _ h => absurd
        (a := destinationAnnounce ∈ [destinationDown, linkCharacteristicsRequest]) h (by decide)
      down := by
        intro _ hm _ _
        cases hm
        exact hnew }
  rcases hwelcome.refusal hs hsuits with hok | ⟨-, _, kind, own, hrole, hown⟩
  · exact hok
  · cases hrole
    cases hidle.symm.trans hown

/-- A permitted Add opens the destination and reports it. -/
theorem step_add {metrics : LinkMetrics} {addrs : DestinationAddrs}
    (hs : s.state = .inSession) (hp : s.Permits (.appAddDestination mac metrics addrs)) :
    ∃ actions, s.step (.appAddDestination mac metrics addrs) = .ok
      ({ s with
          tx := s.tx.withPending mac .destinationUp
          destinations := s.destinations.insert mac
            { announced := false, pendingMetrics := false,
              metrics := effectiveMetrics s.sessionMetrics metrics,
              addrs := addrs.canonical, advertisedAddrs := addrs.canonical } }, actions) := by
  cases hp with
  | add hformat hidle hnew hmetrics hvalid hencodes =>
    obtain ⟨bytes, hbytes⟩ := hencodes
    have hlookup : s.tx.perDestination.lookup mac = none := by
      simpa [TransactionTracker.pending] using hidle
    have hcheck : s.checkCommand (.appAddDestination mac metrics addrs) = .ok (.ok ()) := by
      simp [checkCommand, hs, FsmEvent.command, checkScope, hformat, checkLink, hlookup,
        checkArguments, hnew, hmetrics, hvalid, hbytes, bind, Except.bind]
    simp [step, FsmEvent.command, hcheck, dispatch, hs, onAddDestination,
      TransactionTracker.openDestination_of_idle hidle, bind, Except.bind]

theorem step_refused (hs : s.state = .inSession)
    (hmac : s.config.macAddressFormat.accepts mac = true)
    (hup : s.tx.pending mac = some .destinationUp) (hd : s.destinations.lookup mac = some d) :
    ∃ actions, s.step (.recvMessage (buildDestinationUpResponse mac .requestDenied)) = .ok
      ({ s with
          tx := s.tx.closeDestination mac
          destinations := s.destinations.insert mac { d with announced := false } }, actions) := by
  have hextract : extractDestinationMac (buildDestinationUpResponse mac .requestDenied) =
    some mac := rfl
  have hstatus : (extractStatus (buildDestinationUpResponse mac .requestDenied)).getD .success =
    .requestDenied := rfl
  have hstep : s.step (.recvMessage (buildDestinationUpResponse mac .requestDenied)) =
      s.onDestinationUpResponse (buildDestinationUpResponse mac .requestDenied) := by
    simp only [step, FsmEvent.command, refusal_upResponse hs hmac hup, dispatch, hs]
    rfl
  have hdenied : StatusCode.requestDenied ≠ .success := by decide
  simp only [hstep, onDestinationUpResponse, hextract, hstatus, hd, if_neg hdenied]
  exact ⟨_, rfl⟩

theorem step_announced (hs : s.state = .inSession)
    (hmac : s.config.macAddressFormat.accepts mac = true) (hidle : s.tx.pending mac = none)
    (hd : s.destinations.lookup mac = some d) (hnew : d.announced = false) :
    ∃ s' actions, s.step (.recvMessage (buildDestinationAnnounce mac)) = .ok (s', actions) ∧
      .sendMessage (announceSuccess mac d) ∈ actions := by
  have hextract : extractDestinationMac (buildDestinationAnnounce mac) = some mac := rfl
  have hdown : s.isAnnounced mac = false := by simp [isAnnounced, hd, hnew]
  have hstep : s.step (.recvMessage (buildDestinationAnnounce mac)) =
      s.onDestinationAnnounce (buildDestinationAnnounce mac) := by
    simp only [step, FsmEvent.command, refusal_announce hs hmac hidle hdown, dispatch, hs]
    rfl
  simp only [hstep, onDestinationAnnounce, hextract, hd, expectSome_some, bind, Except.bind]
  exact ⟨_, _, rfl, by simp⟩

/-- A default modem that waits for the router's initialization, and one in session. -/
def opened : ModemSessionFsm := { withConfig .default with state := .awaitingSessionInit }

def joined : ModemSessionFsm := opened.initialized (buildSessionInitialization .default)

theorem step_joined : ∃ actions,
    opened.step (.recvMessage (buildSessionInitialization .default)) = .ok (joined, actions) := by
  have hok : opened.refusal (buildSessionInitialization .default) = none := by decide +kernel
  simp only [step, FsmEvent.command, hok]
  exact ⟨_, rfl⟩

/-- A destination of a default modem that the router has not accepted. -/
def unannounced (addrs : DestinationAddrs) : ModemDestination where
  announced := false
  pendingMetrics := false
  metrics := SessionConfig.default.initialMetrics
  addrs := addrs.canonical
  advertisedAddrs := addrs.canonical

theorem itemsLen_announce_unannounced (mac : MacAddress) (addrs : DestinationAddrs) :
    itemsLen (announceSuccess mac (unannounced addrs)).dataItems =
      (DataItem.macAddress mac).wireLen + addrs.wireLen +
        SessionConfig.default.initialMetrics.wireLen + 5 := by
  rw [itemsLen_announceSuccess, ← wireLen_canonical addrs]
  rfl

/-- The router refuses a destination and announces it later. -/
def refusedThenAnnounced (mac : MacAddress) (addrs : DestinationAddrs) : List FsmEvent :=
  [.tcpAccepted, .recvMessage (buildSessionInitialization .default),
    .appAddDestination mac SessionConfig.default.initialMetrics addrs,
    .recvMessage (buildDestinationUpResponse mac .requestDenied),
    .recvMessage (buildDestinationAnnounce mac)]

/-- The router is answered with what the Up held and a status. -/
theorem run_refusedThenAnnounced {addrs : DestinationAddrs}
    (hmac : SessionConfig.default.macAddressFormat.accepts mac = true)
    (hvalid : (AddressChanges.mk addrs .default).validate = .ok ())
    (hfits : (buildDestinationUp mac SessionConfig.default.initialMetrics addrs).Encodes) :
    ∃ s trace, run .default (refusedThenAnnounced mac addrs) = .ok (s, trace) ∧
      ∃ e ∈ trace, .sendMessage (announceSuccess mac (unannounced addrs)) ∈ e.output := by
  have heffective : effectiveMetrics joined.sessionMetrics SessionConfig.default.initialMetrics =
      SessionConfig.default.initialMetrics := by decide +kernel
  have hp : joined.Permits
      (.appAddDestination mac SessionConfig.default.initialMetrics addrs) := by
    refine .add hmac rfl rfl (by decide +kernel) hvalid ?_
    rw [heffective]
    exact hfits
  obtain ⟨_, hjoin⟩ := step_joined
  obtain ⟨_, hadd⟩ := step_add rfl hp
  rw [heffective] at hadd
  have hknown := Finmap.lookup_insert (a := mac) (b := unannounced addrs) joined.destinations
  obtain ⟨_, hrefuse⟩ := step_refused (d := unannounced addrs)
    (s := { joined with
      tx := joined.tx.withPending mac .destinationUp
      destinations := joined.destinations.insert mac (unannounced addrs) })
    rfl hmac (by simp) hknown
  obtain ⟨s, _, hannounce, hsent⟩ := step_announced (d := unannounced addrs)
    (s := { joined with
      tx := (joined.tx.withPending mac .destinationUp).closeDestination mac
      destinations := (joined.destinations.insert mac (unannounced addrs)).insert mac
        (unannounced addrs) })
    rfl hmac (by simp) (Finmap.lookup_insert _) rfl
  have hend : Machine.run step s [] = .ok (s, []) := rfl
  have hrun := Machine.run_cons_of_step hadd
    (Machine.run_cons_of_step hrefuse (Machine.run_cons_of_step hannounce hend))
  exact ⟨s, _, Machine.run_cons_of_step rfl (Machine.run_cons_of_step hjoin hrun),
    _, .tail _ (.tail _ (.tail _ (.tail _ (.head _)))), hsent⟩

end ModemSessionFsm

/-- The first `n` IPv4 addresses and two IPv6 addresses. -/
def manyAddresses (n : ℕ) : DestinationAddrs where
  v4 := (List.range n).map (BitVec.ofNat 32)
  v6 := [0, 1]
  v4Subnets := []
  v6Subnets := []

theorem wireLen_manyAddresses (n : ℕ) : (manyAddresses n).wireLen = 9 * n + 42 := by
  simp [manyAddresses, DestinationAddrs.wireLen]

theorem validate_manyAddresses {n : ℕ} (hn : n ≤ 2 ^ 32) :
    (AddressChanges.mk (manyAddresses n) .default).validate = .ok () := by
  have hnodup : ((List.range n).map (BitVec.ofNat 32)).Nodup := by
    refine List.Nodup.map_on ?_ List.nodup_range
    intro a ha b hb hab
    have ha := List.mem_range.mp ha
    have hb := List.mem_range.mp hb
    have hab := congrArg BitVec.toNat hab
    simp only [BitVec.toNat_ofNat] at hab
    omega
  have hv4 : Delta.wellFormed ((List.range n).map (BitVec.ofNat 32)) [] = true :=
    (Delta.wellFormed_iff _ _).mpr ⟨hnodup, List.nodup_nil, fun _ _ => List.not_mem_nil⟩
  have hv6 : Delta.wellFormed ([0, 1] : List Ipv6Addr) [] = true := by decide
  unfold AddressChanges.validate
  exact if_pos (by
    simp only [Bool.and_eq_true]
    exact ⟨⟨⟨hv4, hv6⟩, rfl⟩, rfl⟩)

/-- A message that decodes from its own encoding. -/
theorem Message.decodes_of_roundTrip
    (h : (msg.encode.toOption.bind fun bytes => (Message.decode bytes).toOption) = some msg) :
    ∃ bytes, Message.decode bytes = .ok msg := by
  obtain ⟨bytes, -, hdecode⟩ := Option.bind_eq_some_iff.mp h
  refine ⟨bytes, ?_⟩
  cases hresult : Message.decode bytes with
  | error e =>
    rw [hresult] at hdecode
    cases hdecode
  | ok m =>
    rw [hresult] at hdecode
    cases hdecode
    rfl

/-- The messages of a run with one destination are outputs of the decoder. -/
theorem decodes_refusedThenAnnounced (addrs : DestinationAddrs) :
    ∀ msg, .recvMessage msg ∈ ModemSessionFsm.refusedThenAnnounced
        (.eui48 #v[2, 0, 0, 0, 0, 1]) addrs → ∃ bytes, Message.decode bytes = .ok msg := by
  intro msg hmsg
  have hcases : msg = buildSessionInitialization .default ∨
      msg = buildDestinationUpResponse (.eui48 #v[2, 0, 0, 0, 0, 1]) .requestDenied ∨
      msg = buildDestinationAnnounce (.eui48 #v[2, 0, 0, 0, 0, 1]) := by
    simpa [ModemSessionFsm.refusedThenAnnounced] using hmsg
  rcases hcases with rfl | rfl | rfl
  · exact Message.decodes_of_roundTrip (by decide +kernel)
  · exact Message.decodes_of_roundTrip (by decide +kernel)
  · exact Message.decodes_of_roundTrip (by decide +kernel)

/-- The Up of a new destination encodes. -/
theorem sent_messages_encode_added :
    ∃ s trace, ModemSessionFsm.run .default (ModemSessionFsm.refusedThenAnnounced
        (.eui48 #v[2, 0, 0, 0, 0, 1]) (manyAddresses 1)) = .ok (s, trace) ∧
      ∃ e ∈ trace, ∃ m, .sendMessage m ∈ e.output ∧ m.messageType = destinationUp ∧ m.Encodes := by
  have hview : (ModemSessionFsm.run .default (ModemSessionFsm.refusedThenAnnounced
      (.eui48 #v[2, 0, 0, 0, 0, 1]) (manyAddresses 1))).map (fun r => r.2.any fun e =>
        decide (e.input.command.map CommandInfo.kind = some .addDestination) &&
          (sentMessages e.output).any fun m => decide (m.messageType = destinationUp)) =
      .ok true := by decide +kernel
  obtain ⟨s, trace, hrun, hencodes⟩ := (sent_messages_encode .default _
    (decodes_refusedThenAnnounced (manyAddresses 1))).2
    (Message.encodes_of_toBool (by decide +kernel))
  rw [hrun] at hview
  have hany := Except.ok.inj hview
  simp only [List.any_eq_true, Bool.and_eq_true, decide_eq_true_eq] at hany
  obtain ⟨e, he, hcommand, m, hm, ht⟩ := hany
  have hfits : ¬ e.before.Overflows e.input := by
    intro hover
    generalize e.input = event at hover hcommand
    cases hover <;> cases hcommand
  exact ⟨s, trace, hrun, e, he, m, sendMessage_mem_iff.mpr hm, ht,
    hencodes e he hfits m (sendMessage_mem_iff.mpr hm)⟩

/-- A destination with 7269 IPv4 and two IPv6 addresses, refused and announced later. -/
def overlongEvents : List FsmEvent :=
  ModemSessionFsm.refusedThenAnnounced (.eui48 #v[2, 0, 0, 0, 0, 1]) (manyAddresses 7269)

/-- The Up takes 65533 octets and passes the preflight. The Announce Response takes 65538
and does not encode. -/
theorem sent_messages_encode_overlong :
    (buildSessionInitializationResponse .default).Encodes ∧
    (∀ msg, .recvMessage msg ∈ overlongEvents → ∃ bytes, Message.decode bytes = .ok msg) ∧
    ∃ s trace, ModemSessionFsm.run .default overlongEvents = .ok (s, trace) ∧
      ∃ e ∈ trace, ∃ m, .sendMessage m ∈ e.output ∧ ¬ m.Encodes := by
  have hmac : (DataItem.macAddress (.eui48 #v[2, 0, 0, 0, 0, 1])).wireLen = 10 := by decide
  have hmetrics : SessionConfig.default.initialMetrics.wireLen = 60 := by decide +kernel
  have hencodable : SessionConfig.default.initialMetrics.Encodable := by
    unfold LinkMetrics.Encodable
    decide +kernel
  refine ⟨Message.encodes_of_toBool (by decide +kernel), decodes_refusedThenAnnounced _, ?_⟩
  have hfits : (buildDestinationUp (.eui48 #v[2, 0, 0, 0, 0, 1])
      SessionConfig.default.initialMetrics (manyAddresses 7269)).Encodes := by
    refine (((FitIn.mac _).append (.upAddresses _)).append (.metrics hencodable)).encodes ?_
    rw [hmac, hmetrics, wireLen_manyAddresses]
    decide
  obtain ⟨s, trace, hrun, e, he, hsent⟩ := ModemSessionFsm.run_refusedThenAnnounced
    (by decide) (validate_manyAddresses (by decide)) hfits
  refine ⟨s, trace, hrun, e, he, _, hsent, fun hencodes => ?_⟩
  have hlength := ((Message.encodes_iff _).mp hencodes).2
  rw [ModemSessionFsm.itemsLen_announce_unannounced, hmac, wireLen_manyAddresses, hmetrics]
    at hlength
  exact absurd hlength (by decide)

end Dlep
