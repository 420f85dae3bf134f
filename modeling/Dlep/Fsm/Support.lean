-- SUMMARY: Optional metric support is fixed by the Session Initialization Response, on both sides and for the whole session.
import Dlep.Core.Codec.Canonical
import Dlep.Fsm.Admissible
import Dlep.Fsm.MetricHistory
import Dlep.Fsm.Transactions

/-!
# Metric support

The Session Initialization Response declares the metrics of the session. The modem
answers for its own configuration: no command brings in an optional field that it did
not declare, and none loses one. The router answers for what the peer declared: it
accepts no metric of another type, and merging never drops a field.
-/

namespace Dlep

/-! ## The modem -/

namespace ModemSessionFsm

/-- All metrics have the optional fields declared at initialization, and the
modem's own address set is well formed. -/
structure Uniform (s : ModemSessionFsm) : Prop where
  session : s.sessionMetrics.SameShape s.config.initialMetrics
  cell : ∀ mac d, s.destinations.lookup mac = some d →
    d.metrics.SameShape s.config.initialMetrics
  addresses : s.localAddresses.WellFormed

variable {s s' : ModemSessionFsm} {event : FsmEvent} {actions : List FsmAction}

theorem uniform_withConfig (config : SessionConfig) : (withConfig config).Uniform :=
  ⟨.refl _, by simp [withConfig], DestinationAddrs.wellFormed_default⟩

theorem supported_of_valid {m : LinkMetrics} (h : s.validMetrics m = true) :
    m.supportedBy s.config.initialMetrics = true := by
  simp only [validMetrics, Bool.and_eq_true] at h
  exact h.1

theorem sameShape_effective {base m : LinkMetrics}
    (h : base.SameShape s.config.initialMetrics) (hm : s.validMetrics m = true) :
    (effectiveMetrics base m).SameShape s.config.initialMetrics := by
  rw [effectiveMetrics_eq]
  exact LinkMetrics.sameShape_overlay h (supported_of_valid hm)

theorem Transition.uniform (h : s.Transition event s' actions) (hu : s.Uniform) : s'.Uniform := by
  cases h with
  | rejected | ignored | alive | beat | accepted | initialized | ends
  | dropSent | announceDenied | linkDeferred | linkDenied | sessionUpdated | sessionAnswered
  | sessionAddressesKept => exact ⟨hu.session, hu.cell, hu.addresses⟩
  | added _ hp =>
    cases hp with
    | add _ _ _ hmetrics =>
      exact ⟨hu.session,
        FinMap.of_lookup_insert hu.cell (sameShape_effective hu.session hmetrics), hu.addresses⟩
  | acknowledged _ _ _ _ _ hd =>
    refine ⟨hu.session, FinMap.of_lookup_insert hu.cell ?_, hu.addresses⟩
    rw [metrics_acknowledge]
    exact hu.cell _ _ hd
  | refused _ _ _ _ _ _ hd | withdrawn _ _ _ _ hd | announceGranted _ _ _ _ hd
  | addressesKept _ _ hd | addressesSent _ _ hd =>
    have hshape := hu.cell _ _ hd
    exact ⟨hu.session, FinMap.of_lookup_insert hu.cell hshape, hu.addresses⟩
  | metricsDeferred _ hp hd | metricsSent _ hp hd =>
    cases hp with
    | updateMetrics _ _ hmetrics =>
      exact ⟨hu.session, FinMap.of_lookup_insert hu.cell (sameShape_effective (hu.cell _ _ hd) hmetrics),
        hu.addresses⟩
  | forgotten | dropAnswered => exact ⟨hu.session, FinMap.of_lookup_erase hu.cell, hu.addresses⟩
  | @linkAnswered mac status text metrics d _ hp hd =>
    refine ⟨hu.session, FinMap.of_lookup_insert hu.cell ?_, hu.addresses⟩
    cases hp with
    | linkResponse _ _ _ _ hmetrics =>
      cases metrics with
      | none => exact hu.cell _ _ hd
      | some m => exact sameShape_effective (hu.cell _ _ hd) (hmetrics m rfl)
  | sessionMetricsSent _ hp =>
    cases hp with
    | sessionUpdate _ hmetrics =>
      exact ⟨sameShape_effective hu.session hmetrics, FinMap.of_lookup_mapValues fun mac d hd =>
        sameShape_effective (hu.cell mac d hd) hmetrics, hu.addresses⟩
  | sessionAddressesSent =>
    exact ⟨hu.session, hu.cell, AddressChanges.wellFormed_applyLenient hu.addresses _⟩

/-- The metrics of an answered link request keep the session's shape. -/
theorem sameShape_answer {mac : MacAddress} {d : ModemDestination} {status : StatusCode}
    {text : String} {answer : Option LinkMetrics}
    (hshape : d.metrics.SameShape s.config.initialMetrics)
    (hp : s.Permits (.appLinkCharacteristicsResponse mac status text answer)) :
    ((answer.map (effectiveMetrics d.metrics)).getD d.metrics).SameShape
      s.config.initialMetrics := by
  cases hp with
  | linkResponse _ _ _ _ hmetrics =>
    cases answer with
    | none => exact hshape
    | some m => exact sameShape_effective hshape (hmetrics m rfl)

/-- What a uniform modem sends stays within the metrics it declared, and its Link
Characteristics Responses have them all. -/
theorem Transition.declared (h : s.Transition event s' actions) (hu : s.Uniform) :
    ∀ msg ∈ sentMessages actions, msg.Declared s.config.initialMetrics := by
  cases h with
  | rejected | ignored | alive | accepted | refused | metricsDeferred | addressesKept | forgotten
  | dropAnswered | linkDeferred | sessionAnswered | sessionAddressesKept => simp
  | ends h =>
    intro msg hmsg
    rcases h.sent msg hmsg with rfl | ⟨_, _, -, rfl⟩
    all_goals exact declared_of_within (List.forall_mem_nil _) rfl
  | initialized =>
    rw [sentMessages_sessionUpActions]
    exact List.forall_mem_singleton.mpr (declared_of_sameShape
      (metricTypes_buildSessionInitializationResponse _) (.refl _))
  | added _ hp =>
    cases hp with
    | add _ _ _ hmetrics =>
      exact List.forall_mem_singleton.mpr (declared_of_sameShape
        (metricTypes_buildDestinationUp _) (sameShape_effective hu.session hmetrics))
  | @acknowledged _ mac d _ _ _ _ _ hd =>
    intro msg hmsg
    have hmsg : deferredUpdate mac d = some msg := by simpa using hmsg
    rcases metricTypes_deferredUpdate hmsg with htypes | htypes
    · exact declared_of_sameShape htypes (hu.cell _ _ hd)
    · exact declared_of_within (by simp [htypes]) (by rw [messageType_deferredUpdate hmsg]; rfl)
  | metricsSent _ hp =>
    cases hp with
    | updateMetrics _ _ hmetrics =>
      refine List.forall_mem_singleton.mpr (declared_of_within ?_ rfl)
      rw [metricTypes_buildDestinationUpdate]
      exact LinkMetrics.types_of_supported (supported_of_valid hmetrics)
  | @announceGranted _ mac d _ _ _ _ hd =>
    have hsent : (announceSuccess mac d).Declared s.config.initialMetrics :=
      declared_of_sameShape (metricTypes_announceSuccess d) (hu.cell _ _ hd)
    simpa using hsent
  | @linkDenied _ mac d _ _ _ _ hd =>
    have hsent : (buildLinkCharacteristicsResponse mac .requestDenied d.metrics).Declared
        s.config.initialMetrics :=
      declared_of_sameShape (metricTypes_buildLinkCharacteristicsReply _ _) (hu.cell _ _ hd)
    simpa using hsent
  | linkAnswered _ hp hd =>
    exact List.forall_mem_singleton.mpr (declared_of_sameShape
      (metricTypes_buildLinkCharacteristicsReply _ _) (sameShape_answer (hu.cell _ _ hd) hp))
  | sessionMetricsSent _ hp =>
    cases hp with
    | sessionUpdate _ hmetrics =>
      refine List.forall_mem_singleton.mpr (declared_of_within ?_ rfl)
      rw [metricTypes_buildSessionUpdate]
      exact LinkMetrics.types_of_supported (supported_of_valid hmetrics)
  | addressesSent | sessionAddressesSent =>
    refine List.forall_mem_singleton.mpr (declared_of_within ?_ rfl)
    rw [metricTypes_appendTo]
    exact List.forall_mem_nil _
  | sessionUpdated =>
    have hsent : (buildSessionUpdateResponse .success).Declared s.config.initialMetrics :=
      declared_of_within (List.forall_mem_nil _) rfl
    simpa using hsent
  | @withdrawn _ mac =>
    have hsent : (buildDestinationDownResponse mac .success).Declared s.config.initialMetrics :=
      declared_of_within (List.forall_mem_nil _) rfl
    simpa using hsent
  | @announceDenied _ mac =>
    have hsent : (buildDestinationAnnounceResponse mac .requestDenied).Declared
        s.config.initialMetrics := declared_of_within (List.forall_mem_nil _) rfl
    simpa using hsent
  | beat | dropSent =>
    exact List.forall_mem_singleton.mpr (declared_of_within (List.forall_mem_nil _) rfl)

/-- A run's states are uniform, and everything it sends is declared. -/
structure Declares (s : ModemSessionFsm) (config : SessionConfig) (trace : List Entry) : Prop where
  config_eq : s.config = config
  uniform : s.Uniform
  sent : ∀ e ∈ trace, ∀ msg ∈ sentMessages e.output, msg.Declared config.initialMetrics

theorem Declares.step {config : SessionConfig} {trace : List Entry} (h : s.Declares config trace)
    (ht : s.Transition event s' actions) :
    s'.Declares config (trace ++ [⟨s, event, actions, s'⟩]) := by
  refine ⟨ht.config_eq.trans h.config_eq, ht.uniform h.uniform, ?_⟩
  intro e he
  rcases List.mem_append.mp he with he | he
  · exact h.sent e he
  · cases List.mem_singleton.mp he
    exact h.config_eq ▸ ht.declared h.uniform

theorem run_declares {config : SessionConfig} {events : List FsmEvent} {t : ModemSessionFsm}
    {trace : List Entry} (h : run config events = .ok (t, trace)) : t.Declares config trace :=
  lawful.run_history (fun _ _ _ _ _ _ hdeclares ht => Declares.step hdeclares ht)
    (consistent_withConfig config) ⟨rfl, uniform_withConfig config, fun _ he => by cases he⟩ h

end ModemSessionFsm

/-! ## The router -/

theorem MetricField.isMetric_type (f : MetricField) : f.type.isMetric = true := by
  cases f <;> decide

/-- A field that a message carries is among its metric types. -/
theorem mem_metricTypes_of_carried {f : MetricField} {msg : Message}
    (h : (f.carried msg).isSome = true) : f.type ∈ metricTypes msg := by
  obtain ⟨i, hi, ht, -⟩ := MetricField.carried_isSome_iff.mp h
  exact List.mem_filter.mpr ⟨List.mem_map.mpr ⟨i, hi, ht⟩, f.isMetric_type⟩

/-- A decoded message has no raw item in place of a metric. -/
theorem carried_of_decode {bytes : List UInt8} {f : MetricField} {msg : Message}
    (hdecode : Message.decode bytes = .ok msg) (h : f.type ∈ metricTypes msg) :
    (f.carried msg).isSome = true := by
  obtain ⟨-, -, -, hitems⟩ := Message.decode_ok hdecode
  obtain ⟨i, hi, ht⟩ := List.mem_map.mp (List.mem_filter.mp h).1
  refine MetricField.carried_isSome_iff.mpr ⟨i, hi, ht, ?_⟩
  rintro raw rfl
  have htyped : (DataItem.unknown raw).Typed := ((decodeItems_canonical hitems).1 _ hi).2.1
  exact htyped.ne (by cases f <;> decide) ht

/-- The metrics that are present are those of the given types. -/
def LinkMetrics.Has (m : LinkMetrics) (types : Finset DataItemType) : Prop :=
  ∀ f : MetricField, (f.get m).isSome = true ↔ f.type ∈ types

/-- Merging a message that stays within the types keeps them. -/
theorem LinkMetrics.Has.merge {m : LinkMetrics} {types : Finset DataItemType} {msg : Message}
    (h : m.Has types) (hmsg : ∀ t ∈ metricTypes msg, t ∈ types) :
    (mergeLinkMetrics msg m).1.Has types := by
  intro f
  rw [get_mergeLinkMetrics, Option.isSome_or, Bool.or_eq_true, h f]
  refine ⟨fun hf => hf.elim (fun hcarried => ?_) id, .inr⟩
  exact hmsg f.type (mem_metricTypes_of_carried hcarried)

namespace RouterSessionFsm

/-- All metrics have the fields that the peer declared. -/
structure Uniform (s : RouterSessionFsm) : Prop where
  session : s.sessionMetrics.Has s.sessionMetricTypes
  cell : ∀ mac d, s.destinations.lookup mac = some d → d.metrics.Has s.sessionMetricTypes

variable {s s' : RouterSessionFsm} {event : FsmEvent} {actions : List FsmAction} {msg : Message}

/-- After the handshake the declared types do not change, and no step leaves them. -/
theorem Transition.uniform (h : s.Transition event s' actions)
    (hs : s.state ≠ .sessionInitPending) (hu : s.Uniform) :
    s'.Uniform ∧ s'.sessionMetricTypes = s.sessionMetricTypes := by
  cases h with
  | initialized hpending => exact absurd hpending hs
  | upReceived _ ha | announceGranted _ ha =>
    exact ⟨⟨hu.session, FinMap.of_lookup_insert hu.cell (hu.session.merge ha.declared)⟩, rfl⟩
  | updateReceived _ ha _ _ hd | linkAnswered _ ha _ _ hd =>
    exact ⟨⟨hu.session, FinMap.of_lookup_insert hu.cell ((hu.cell _ _ hd).merge ha.declared)⟩, rfl⟩
  | downReceived | dropAnswered => exact ⟨⟨hu.session, FinMap.of_lookup_erase hu.cell⟩, rfl⟩
  | sessionUpdated _ ha =>
    refine ⟨⟨hu.session.merge ha.declared, ?_⟩, rfl⟩
    dsimp only
    split
    · exact FinMap.of_lookup_mapValues fun mac d hd => (hu.cell mac d hd).merge ha.declared
    · exact hu.cell
  | _ => exact ⟨⟨hu.session, hu.cell⟩, rfl⟩

/-- The handshake's last step has the fields of the message that it accepts. -/
theorem uniform_initialized {bytes : List UInt8} (hf : s.Fresh) (hs : s.state = .sessionInitPending)
    (hok : s.refusal msg = none) (ht : msg.messageType = .sessionInitializationResponse)
    (hdecode : Message.decode bytes = .ok msg) : (s.initialized msg).Uniform := by
  have hempty : s = { withConfig s.config with state := s.state } := hf (.inr hs)
  refine ⟨fun f => ?_, fun mac d hd => ?_⟩
  · show (f.get (mergeLinkMetrics msg s.sessionMetrics).1).isSome = true ↔ _
    rw [hempty, show (withConfig s.config).sessionMetrics = .default from rfl,
      get_initialized (init_of_refusal hs hok).1 ht f]
    refine ⟨fun h => List.mem_toFinset.mpr (mem_metricTypes_of_carried h), fun h => ?_⟩
    exact carried_of_decode hdecode (List.mem_toFinset.mp h)
  · have hd : s.destinations.lookup mac = some d := hd
    rw [hempty] at hd
    simp [withConfig] at hd

/-- The step that accepts the Session Initialization Response. -/
structure Opens (e : Entry) (msg : Message) : Prop where
  input : e.input = .recvMessage msg
  before : e.before.state = .sessionInitPending
  after : e.after.state = .inSession

/-- Once a Session Initialization Response is accepted, its metric types stay. -/
structure Fixes (s : RouterSessionFsm) (trace : List Entry) : Prop where
  fresh : s.Fresh
  fixed : ∀ e ∈ trace, ∀ bytes msg, Opens e msg → Message.decode bytes = .ok msg →
    (s.state ≠ .closed ∧ s.state ≠ .sessionInitPending) ∧ s.Uniform ∧
      s.sessionMetricTypes = (metricTypes msg).toFinset

theorem Fixes.step {trace : List Entry} (h : s.Fixes trace) (ht : s.Transition event s' actions) :
    s'.Fixes (trace ++ [⟨s, event, actions, s'⟩]) := by
  refine ⟨ht.fresh h.fresh, ?_⟩
  intro e he bytes msg hopens hdecode
  rcases List.mem_append.mp he with he | he
  · obtain ⟨hbegun, hu, htypes⟩ := h.fixed e he bytes msg hopens hdecode
    obtain ⟨hu', htypes'⟩ := ht.uniform hbegun.2 hu
    refine ⟨?_, hu', htypes'.trans htypes⟩
    constructor <;> intro hs'
    · exact (ht.notBegun (.inl hs')).elim hbegun.1 hbegun.2
    · exact (ht.notBegun (.inr hs')).elim hbegun.1 hbegun.2
  · cases List.mem_singleton.mp he
    obtain ⟨hinput, hs, hs'⟩ := hopens
    dsimp only at hinput hs hs'
    refine ⟨⟨by rw [hs']; simp, by rw [hs']; simp⟩, ?_⟩
    subst hinput
    cases ht with
    | initialized _ hok htype => exact ⟨uniform_initialized h.fresh hs hok htype hdecode, rfl⟩
    | ignored => cases hs.symm.trans hs'
    | rejected hcmd => cases hcmd
    | ends h => rcases h.gone with rfl | rfl <;> cases hs'
    | _ hsession => cases hs.symm.trans hsession

theorem run_fixes {config : SessionConfig} {events : List FsmEvent} {t : RouterSessionFsm}
    {trace : List Entry} (h : run config events = .ok (t, trace)) : t.Fixes trace :=
  lawful.run_history (fun _ _ _ _ _ _ hfixes ht => Fixes.step hfixes ht)
    (consistent_withConfig config) ⟨fresh_withConfig config, fun _ he => by cases he⟩ h

end RouterSessionFsm

theorem MetricField.type_mem_shapeTypes (f : MetricField) : ∀ resources rlqRx rlqTx mtu,
    f.type ∈ shapeTypes resources rlqRx rlqTx mtu ↔
      (match f with
        | .resources => resources
        | .rlqRx => rlqRx
        | .rlqTx => rlqTx
        | .mtu => mtu
        | _ => true) = true := by
  cases f <;> decide

theorem LinkMetrics.has_types (m : LinkMetrics) : m.Has m.types.toFinset := by
  intro f
  rw [List.mem_toFinset, types, f.type_mem_shapeTypes]
  cases f <;> rfl

/-- A session has the optional metrics that its Session Initialization Response
declares: the modem's own response, and the one that the router accepts. All metrics of
a modem have these fields, in its session and in its destinations; what it sends carries
no other metric, and its Link Characteristics Responses carry them all. A router has
them from the step that accepts the decoded response on. -/
theorem metric_support_fixed (config : SessionConfig) (events : List FsmEvent) :
    (∃ s trace, ModemSessionFsm.run config events = .ok (s, trace) ∧
      let declared := (metricTypes (buildSessionInitializationResponse config)).toFinset
      config.initialMetrics.Has declared ∧ s.sessionMetrics.Has declared ∧
      (∀ mac d, s.destinations.lookup mac = some d → d.metrics.Has declared) ∧
      ∀ e ∈ trace, ∀ msg ∈ sentMessages e.output, (metricTypes msg).toFinset ⊆ declared ∧
        (msg.messageType = .linkCharacteristicsResponse →
          (metricTypes msg).toFinset = declared)) ∧
    ∃ s trace, RouterSessionFsm.run config events = .ok (s, trace) ∧
      ∀ e ∈ trace, ∀ bytes msg, RouterSessionFsm.Opens e msg → Message.decode bytes = .ok msg →
        let declared := (metricTypes msg).toFinset
        s.sessionMetrics.Has declared ∧
        ∀ mac d, s.destinations.lookup mac = some d → d.metrics.Has declared := by
  constructor
  · obtain ⟨s, trace, hrun⟩ := ModemSessionFsm.run_ok config events
    have hd := ModemSessionFsm.run_declares hrun
    have hhas : ∀ m : LinkMetrics, m.SameShape s.config.initialMetrics →
        m.Has (metricTypes (buildSessionInitializationResponse config)).toFinset := by
      intro m hm
      rw [metricTypes_buildSessionInitializationResponse, ← hd.config_eq,
        ← LinkMetrics.types_of_sameShape hm]
      exact m.has_types
    refine ⟨s, trace, hrun, hhas _ (hd.config_eq ▸ .refl _), hhas _ hd.uniform.session,
      fun mac d hd' => hhas _ (hd.uniform.cell mac d hd'), fun e he msg hmsg => ?_⟩
    have hsent := hd.sent e he msg hmsg
    rw [metricTypes_buildSessionInitializationResponse]
    refine ⟨fun t ht => ?_, fun htype => ?_⟩
    · exact List.mem_toFinset.mpr (hsent.within t (List.mem_toFinset.mp ht))
    · ext t
      rw [List.mem_toFinset, List.mem_toFinset]
      exact ⟨hsent.within t, hsent.complete (by simp [htype]) t⟩
  · obtain ⟨s, trace, hrun⟩ := RouterSessionFsm.run_ok config events
    refine ⟨s, trace, hrun, fun e he bytes msg hopens hdecode => ?_⟩
    obtain ⟨-, hu, htypes⟩ := (RouterSessionFsm.run_fixes hrun).fixed e he bytes msg hopens hdecode
    exact ⟨htypes ▸ hu.session, fun mac d hd => htypes ▸ hu.cell mac d hd⟩

/-- A router that accepts a decoded response with an MTU has one in its session. -/
theorem metric_support_fixed_mtu :
    ∃ config msg bytes s trace e,
      RouterSessionFsm.run config [.tcpConnected, .recvMessage msg] = .ok (s, trace) ∧
      e ∈ trace ∧ RouterSessionFsm.Opens e msg ∧ Message.decode bytes = .ok msg ∧
      DataItemType.mtu ∈ metricTypes msg ∧ (MetricField.mtu.get s.sessionMetrics).isSome = true := by
  let config : SessionConfig :=
    { SessionConfig.default with initialMetrics := { LinkMetrics.default with mtu := some 1500 } }
  let msg := buildSessionInitializationResponse config
  obtain ⟨-, s, trace, hrun, hfixed⟩ :=
    metric_support_fixed config [.tcpConnected, .recvMessage msg]
  have hview : (RouterSessionFsm.run config [.tcpConnected, .recvMessage msg]).map (fun r =>
      r.2.map fun e => (e.before.state, e.after.state)) =
        .ok [(.closed, .sessionInitPending), (.sessionInitPending, .inSession)] := by
    decide +kernel
  rw [hrun] at hview
  have hstates := Except.ok.inj hview
  have hinputs : trace.map (·.input) = [.tcpConnected, .recvMessage msg] := Machine.run_inputs hrun
  obtain ⟨e₁, rest, rfl, -, hrest⟩ := List.map_eq_cons_iff.mp hinputs
  obtain ⟨e₂, rest, rfl, hinput, -⟩ := List.map_eq_cons_iff.mp hrest
  simp only [List.map_cons, List.cons.injEq, Prod.mk.injEq] at hstates
  have hopens : RouterSessionFsm.Opens e₂ msg := ⟨hinput, hstates.2.1.1, hstates.2.1.2⟩
  obtain ⟨bytes, hencode⟩ : msg.Encodes := Message.encodes_of_toBool (by decide +kernel)
  have hdecode : Message.decode bytes = .ok msg := by
    have hnorm : msg.norm = msg := by decide +kernel
    have htyped : ∀ i ∈ msg.dataItems, i.Typed := by
      have hall : msg.dataItems.all DataItem.isCore = true := by decide +kernel
      exact fun i hi => DataItem.typed_of_isCore (List.all_eq_true.mp hall i hi)
    rw [← hnorm]
    exact Message.decode_encode htyped hencode
  have hmtu : DataItemType.mtu ∈ metricTypes msg := by decide +kernel
  refine ⟨config, msg, bytes, s, _, e₂, hrun, by simp, hopens, hdecode, hmtu, ?_⟩
  exact ((hfixed e₂ (by simp) bytes msg hopens hdecode).1 .mtu).mpr (List.mem_toFinset.mpr hmtu)

end Dlep
