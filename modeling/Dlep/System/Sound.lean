-- SUMMARY: Every message under way passes the receiver's checks on form, in every reachable state.
import Dlep.Fsm.Fit
import Dlep.System.Mirror

/-!
# Sound traffic

What the two sides store is fit to be sent: metrics in range and in the session's
shape, well-formed address sets, MAC addresses in the session's format. So every
message under way passes the receiver's checks on form.
-/

namespace Dlep

variable {format : MacAddressFormat} {msg : Message} {router : Bool}

/-! ## Messages under way -/

/-- A received message that makes the receiver say nothing unfit. -/
structure Message.Harmless (msg : Message) (format : MacAddressFormat) : Prop where
  benign : fatalStatus msg = none
  format : ∀ mac, extractDestinationMac msg = some mac → format.accepts mac = true

/-- A message on its way to a role: it passes the checks on form, or answers a
termination. -/
def Message.Passes (msg : Message) (router : Bool) (format : MacAddressFormat) : Prop :=
  msg = buildSessionTerminationResponse ∨ msg.Admissible router format

theorem macAddress_mem_of_extract {mac : MacAddress} (h : extractDestinationMac msg = some mac) :
    .macAddress mac ∈ msg.dataItems := by
  obtain ⟨i, hi, hmac⟩ := List.exists_of_findSome?_eq_some h
  cases i with
  | macAddress m =>
    cases hmac
    exact hi
  | _ => cases hmac

theorem Message.Admissible.harmless (h : msg.Admissible router format) : msg.Harmless format :=
  ⟨h.benign, fun mac hmac => h.format mac (macAddress_mem_of_extract hmac)⟩

theorem harmless_terminationResponse (format : MacAddressFormat) :
    buildSessionTerminationResponse.Harmless format := ⟨rfl, nofun⟩

theorem Message.Passes.harmless (h : msg.Passes router format) : msg.Harmless format := by
  rcases h with rfl | h
  · exact harmless_terminationResponse format
  · exact h.harmless

theorem Message.Assembled.passes (h : msg.Assembled router format) : msg.Passes router format :=
  .inr h.admissible

theorem Ending.passes {fault : StatusCode → String → Prop} {leak : Prop} {v : LifeView}
    {event : FsmEvent} {phase : Phase} {reason : StatusCode} {actions : List FsmAction}
    (h : Ending fault leak v event phase reason actions)
    (hfault : ∀ code text, fault code text → (DataItem.status code text).Encodable) :
    ∀ msg ∈ sentMessages actions, msg.Passes router format := by
  intro msg hmsg
  rcases h.sent msg hmsg with rfl | ⟨code, text, rfl | htext, rfl⟩
  · exact .inl rfl
  · exact (assembled_sessionTermination router (encodable_status_empty code)).passes
  · exact (assembled_sessionTermination router (hfault code text htext)).passes

namespace ModemSessionFsm

variable {s s' : ModemSessionFsm} {event : FsmEvent} {actions : List FsmAction}

/-- Everything a sound modem sends passes a router's checks on form. -/
theorem Transition.passes (h : s.Transition event s' actions) (hs : s.Sound)
    (hinit : (buildSessionInitializationResponse s.config).Encodes)
    (hrecv : ∀ msg, event = .recvMessage msg → msg.Harmless s.config.macAddressFormat) :
    ∀ msg ∈ sentMessages actions, msg.Passes true s.config.macAddressFormat := by
  cases h with
  | rejected | ignored | alive | accepted | refused | metricsDeferred | addressesKept | forgotten
  | dropAnswered | linkDeferred | sessionAnswered | sessionAddressesKept => simp
  | ends h =>
    refine h.passes ?_
    rintro code text ⟨-, ⟨-, rfl⟩ | ⟨msg, hevent, hrefused⟩⟩
    · exact encodable_status_empty code
    · rw [refuse_text hrefused (hrecv msg hevent).benign]
      exact encodable_status_empty code
  | beat => exact List.forall_mem_singleton.mpr (assembled_buildHeartbeat true).passes
  | initialized =>
    rw [sentMessages_sessionUpActions]
    exact List.forall_mem_singleton.mpr (assembled_buildSessionInitializationResponse hinit).passes
  | added _ hp =>
    cases hp with
    | add hformat _ _ hmetrics hvalid =>
      exact List.forall_mem_singleton.mpr (assembled_buildDestinationUp hformat
        (encodable_effective hs.session hmetrics)
        (AddressChanges.wellFormed_of_validate hvalid)).passes
  | @acknowledged _ mac d _ _ _ _ _ hd =>
    have hfit := hs.cell _ _ hd
    intro msg hmsg
    have hmsg : deferredUpdate mac d = some msg := by simpa using hmsg
    exact (assembled_deferredUpdate hfit.format hfit.metrics hfit.advertised hfit.addrs hmsg).passes
  | metricsSent _ hp hd =>
    cases hp with
    | updateMetrics _ _ hmetrics =>
      exact List.forall_mem_singleton.mpr
        (assembled_buildDestinationUpdate (hs.cell _ _ hd).format
          (encodable_of_valid hmetrics)).passes
  | addressesSent _ _ hd =>
    have hfit := hs.cell _ _ hd
    have haddrs := AddressChanges.wellFormed_applyLenient hfit.addrs
    exact List.forall_mem_singleton.mpr (assembled_addressUpdate hfit.format
      (AddressChanges.wellFormed_difference hfit.advertised _)
      (AddressChanges.wellFormed_difference (haddrs _) _)).passes
  | dropSent _ _ hd =>
    exact List.forall_mem_singleton.mpr
      (assembled_buildDestinationDown true (hs.cell _ _ hd).format).passes
  | withdrawn _ _ _ _ hd =>
    simpa using (assembled_buildDestinationDownResponse true (hs.cell _ _ hd).format).passes
  | announceDenied _ _ _ hmac =>
    simpa using (assembled_buildDestinationAnnounceResponse ((hrecv _ rfl).format _ hmac)).passes
  | announceGranted _ _ _ _ hd =>
    have hfit := hs.cell _ _ hd
    simpa using (assembled_announceSuccess hfit.format hfit.metrics hfit.addrs).passes
  | @linkDenied _ mac d _ _ _ _ hd =>
    have hfit := hs.cell _ _ hd
    -- The default answer is the reply without an explanation.
    have hreply : (buildLinkCharacteristicsResponse mac .requestDenied d.metrics).Passes true
        s.config.macAddressFormat :=
      (assembled_buildLinkCharacteristicsReply hfit.format hfit.metrics
        (encodable_status_empty _) rfl).passes
    simpa using hreply
  | linkAnswered _ hp hd =>
    have hfit := hs.cell _ _ hd
    cases hp with
    | linkResponse hformat hknown hdeferred hstatus hmetrics hencodes =>
      have hitem := ((Message.encodes_iff _).mp hencodes).1 _ (.tail _ (.head _))
      exact List.forall_mem_singleton.mpr (assembled_buildLinkCharacteristicsReply hfit.format
        (encodable_answer hfit.metrics
          (.linkResponse hformat hknown hdeferred hstatus hmetrics hencodes)) hitem hstatus).passes
  | sessionUpdated =>
    have hsent : (buildSessionUpdateResponse .success).Passes true s.config.macAddressFormat :=
      (assembled_buildSessionUpdateResponse true).passes
    simpa using hsent
  | sessionMetricsSent _ hp =>
    cases hp with
    | sessionUpdate _ hmetrics =>
      exact List.forall_mem_singleton.mpr
        (assembled_buildSessionUpdate (encodable_of_valid hmetrics)).passes
  | sessionAddressesSent =>
    have haddrs := AddressChanges.wellFormed_applyLenient hs.uniform.addresses
    exact List.forall_mem_singleton.mpr (assembled_sessionAddresses true
      (AddressChanges.wellFormed_difference hs.uniform.addresses _)
      (AddressChanges.wellFormed_difference (haddrs _) _)).passes

end ModemSessionFsm

namespace RouterSessionFsm

variable {s s' : RouterSessionFsm} {event : FsmEvent} {actions : List FsmAction}

theorem Transition.wellFormed_localAddresses (h : s.Transition event s' actions)
    (hs : s.localAddresses.WellFormed) : s'.localAddresses.WellFormed := by
  cases h with
  | sessionAddressesSent => exact AddressChanges.wellFormed_applyLenient hs _
  | _ => exact hs

/-- Everything a router with well-formed addresses sends passes a modem's checks on form. -/
theorem Transition.passes (h : s.Transition event s' actions)
    (haddresses : s.localAddresses.WellFormed) (hinit : (buildSessionInitialization s.config).Encodes)
    (hrecv : ∀ msg, event = .recvMessage msg → msg.Harmless s.config.macAddressFormat) :
    ∀ msg ∈ sentMessages actions, msg.Passes false s.config.macAddressFormat := by
  cases h with
  | rejected | ignored | alive | updateReceived | dropAnswered | announceGranted | announceDenied
  | linkAnswered | sessionAnswered | sessionAddressesKept => simp
  | initialized => simp [sentMessages_sessionUpActions]
  | ends h =>
    refine h.passes ?_
    rintro code text (⟨-, rfl⟩ | ⟨msg, hevent, hrefused | hfailure⟩)
    · exact encodable_status_empty code
    · rw [refuse_text hrefused (hrecv msg hevent).benign]
      exact encodable_status_empty code
    · rw [hfailure.text]
      have hfits : ("initialization did not succeed".toUTF8.size : Nat) + 1 ≤ u16Max := by decide
      exact ⟨trivial, by simpa [DataItem.valueBytes] using hfits⟩
  | beat => exact List.forall_mem_singleton.mpr (assembled_buildHeartbeat false).passes
  | connected =>
    exact List.forall_mem_singleton.mpr (assembled_buildSessionInitialization hinit).passes
  | upReceived _ _ _ hmac =>
    simpa using (assembled_buildDestinationUpResponse ((hrecv _ rfl).format _ hmac)).passes
  | downReceived _ _ _ hmac =>
    simpa using
      (assembled_buildDestinationDownResponse false ((hrecv _ rfl).format _ hmac)).passes
  | dropSent _ hp =>
    cases hp with
    | drop hformat =>
      exact List.forall_mem_singleton.mpr
        (assembled_buildDestinationDown false hformat).passes
  | announceSent _ hp =>
    cases hp with
    | announce hformat =>
      exact List.forall_mem_singleton.mpr
        (assembled_buildDestinationAnnounce hformat).passes
  | linkSent _ hp =>
    cases hp with
    | requestLink hformat _ _ hrequested hencodes =>
      exact List.forall_mem_singleton.mpr
        (assembled_buildLinkCharacteristicsRequest hformat hrequested hencodes).passes
  | sessionUpdated =>
    have hsent : (buildSessionUpdateResponse .success).Passes false s.config.macAddressFormat :=
      (assembled_buildSessionUpdateResponse false).passes
    simpa using hsent
  | sessionAddressesSent =>
    have haddrs := AddressChanges.wellFormed_applyLenient haddresses
    exact List.forall_mem_singleton.mpr (assembled_sessionAddresses false
      (AddressChanges.wellFormed_difference haddresses _)
      (AddressChanges.wellFormed_difference (haddrs _) _)).passes

end RouterSessionFsm

/-! ## Sound systems -/

theorem message_mem_frames {actions : List FsmAction} (h : .message msg ∈ frames actions) :
    msg ∈ sentMessages actions := by
  obtain ⟨a, ha, hframe⟩ := List.mem_filterMap.mp h
  refine List.mem_filterMap.mpr ⟨a, ha, ?_⟩
  cases a <;> cases hframe
  rfl

/-- Both sides keep their configuration and store what is fit to be sent, and every
message under way passes its receiver's checks on form. -/
structure System.Sound (rc mc : SessionConfig) (sys : System) : Prop where
  routerConfig : sys.router.config = rc
  modemConfig : sys.modem.config = mc
  router : sys.router.localAddresses.WellFormed
  modem : sys.modem.Sound
  toRouter : ∀ msg, .message msg ∈ sys.toRouter →
    msg.Passes true mc.macAddressFormat ∧ msg.Declared mc.initialMetrics
  toModem : ∀ msg, .message msg ∈ sys.toModem → msg.Passes false rc.macAddressFormat

namespace System

variable {rc mc : SessionConfig} {sys sys' : System} {input : Input} {actions : List FsmAction}

theorem sound_start (hr : (buildSessionInitialization rc).Encodes)
    (hm : (buildSessionInitializationResponse mc).Encodes) : (start rc mc).Sound rc mc where
  routerConfig := rfl
  modemConfig := rfl
  router := DestinationAddrs.wellFormed_default
  modem := by
    have h := ModemSessionFsm.sound_withConfig hm
    exact ⟨⟨h.uniform.session, h.uniform.cell, h.uniform.addresses⟩, h.session, h.cell⟩
  toRouter := by simp [start]
  toModem msg hmsg := by
    cases List.mem_singleton.mp hmsg
    exact (assembled_buildSessionInitialization hr).passes

/-- A frame at the head of a queue brings a message of the queue. -/
theorem mem_of_event {frame : Frame} {queue rest : List Frame} {msg : Message}
    (hqueue : queue = frame :: rest) (hevent : frame.event = .recvMessage msg) :
    .message msg ∈ queue := by
  cases frame with
  | close => cases hevent
  | message m =>
    cases hevent
    rw [hqueue]
    exact List.mem_cons_self

theorem Sound.routerMoves {event : FsmEvent} {router : RouterSessionFsm} {rest : List Frame}
    (hs : sys.Sound rc mc) (hr : (buildSessionInitialization rc).Encodes)
    (hformat : rc.macAddressFormat = mc.macAddressFormat)
    (ht : sys.router.Transition event router actions)
    (hevent : ∀ msg, event = .recvMessage msg → .message msg ∈ sys.toRouter)
    (hrest : ∀ f ∈ rest, f ∈ sys.toRouter) :
    System.Sound rc mc
      { sys with router, toRouter := rest, toModem := sys.toModem ++ frames actions } where
  routerConfig := ht.config_eq.trans hs.routerConfig
  modemConfig := hs.modemConfig
  router := ht.wellFormed_localAddresses hs.router
  modem := hs.modem
  toRouter msg hmsg := hs.toRouter msg (hrest _ hmsg)
  toModem msg hmsg := by
    rcases List.mem_append.mp hmsg with hmsg | hmsg
    · exact hs.toModem msg hmsg
    · rw [← hs.routerConfig]
      refine ht.passes hs.router (by rw [hs.routerConfig]; exact hr) (fun m hm => ?_) msg
        (message_mem_frames hmsg)
      rw [hs.routerConfig, hformat]
      exact (hs.toRouter m (hevent m hm)).1.harmless

theorem Sound.modemMoves {event : FsmEvent} {modem : ModemSessionFsm} {rest : List Frame}
    (hs : sys.Sound rc mc) (hm : (buildSessionInitializationResponse mc).Encodes)
    (hformat : rc.macAddressFormat = mc.macAddressFormat)
    (ht : sys.modem.Transition event modem actions)
    (hevent : ∀ msg, event = .recvMessage msg → .message msg ∈ sys.toModem)
    (hrest : ∀ f ∈ rest, f ∈ sys.toModem) :
    System.Sound rc mc
      { sys with modem, toModem := rest, toRouter := sys.toRouter ++ frames actions } where
  routerConfig := hs.routerConfig
  modemConfig := ht.config_eq.trans hs.modemConfig
  router := hs.router
  modem := ht.sound hs.modem
  toModem msg hmsg := hs.toModem msg (hrest _ hmsg)
  toRouter msg hmsg := by
    rcases List.mem_append.mp hmsg with hmsg | hmsg
    · exact hs.toRouter msg hmsg
    · have hsent := message_mem_frames hmsg
      rw [← hs.modemConfig]
      refine ⟨ht.passes hs.modem (by rw [hs.modemConfig]; exact hm) (fun m hm => ?_) msg hsent,
        ht.declared hs.modem.uniform msg hsent⟩
      rw [hs.modemConfig, ← hformat]
      exact (hs.toModem m (hevent m hm)).harmless

/-- Every move keeps a sound system sound. -/
theorem Moves.sound (h : sys.Moves input sys' actions) (hr : (buildSessionInitialization rc).Encodes)
    (hm : (buildSessionInitializationResponse mc).Encodes)
    (hformat : rc.macAddressFormat = mc.macAddressFormat) (hs : sys.Sound rc mc) :
    sys'.Sound rc mc := by
  cases h with
  | nothing => exact hs
  | @routerLocal event _ _ ht =>
    exact hs.routerMoves hr hformat ht (fun _ hm => absurd hm (not_message_of_local event.2))
      fun _ hf => hf
  | @modemLocal event _ _ ht =>
    exact hs.modemMoves hm hformat ht (fun _ hm => absurd hm (not_message_of_local event.2))
      fun _ hf => hf
  | routerReceives hqueue ht =>
    exact hs.routerMoves hr hformat ht (fun _ => mem_of_event hqueue)
      fun _ hf => hqueue ▸ List.mem_cons_of_mem _ hf
  | modemReceives hqueue ht =>
    exact hs.modemMoves hm hformat ht (fun _ => mem_of_event hqueue)
      fun _ hf => hqueue ▸ List.mem_cons_of_mem _ hf

end System

end Dlep
