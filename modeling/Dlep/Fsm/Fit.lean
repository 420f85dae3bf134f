-- SUMMARY: What the modem stores is fit to be sent: metrics in range, well-formed address sets, MACs in format.
import Dlep.Fsm.Support

/-!
# A modem fit to report

The metrics the modem stores are in range and in the session's shape, its address sets
are well formed, and its destinations' MAC addresses have the session's format. Every
transition keeps this, so what the modem puts into a message passes the encoder's
checks on values.
-/

namespace Dlep

/-! ## Fit addresses and metrics -/

theorem AddressChanges.wellFormed_of_validate {c : AddressChanges} (h : c.validate = .ok ()) :
    c.added.canonical.WellFormed := ((validate_iff c).mp h).1

theorem LinkMetrics.encodable_of_buildSessionUpdate {m : LinkMetrics}
    (h : (buildSessionUpdate m).Encodes) : m.Encodable := ((Message.encodes_iff _).mp h).1

namespace ModemSessionFsm

variable {mac : MacAddress} {d : ModemDestination}

theorem encodable_of_valid {s : ModemSessionFsm} {m : LinkMetrics} (h : s.validMetrics m = true) :
    m.Encodable := by
  simp only [validMetrics, Bool.and_eq_true] at h
  refine LinkMetrics.encodable_of_buildSessionUpdate ?_
  cases hencode : (buildSessionUpdate m).encode with
  | ok bytes => exact ⟨bytes, hencode⟩
  | error e =>
    rw [hencode] at h
    cases h.2

/-! ## A sound modem -/

/-- A destination entry that is fit to be reported. -/
structure Fit (format : MacAddressFormat) (mac : MacAddress) (d : ModemDestination) : Prop where
  metrics : d.metrics.Encodable
  addrs : d.addrs.WellFormed
  advertised : d.advertisedAddrs.WellFormed
  format : format.accepts mac = true

structure Sound (s : ModemSessionFsm) : Prop where
  uniform : s.Uniform
  session : s.sessionMetrics.Encodable
  cell : ∀ mac d, s.destinations.lookup mac = some d → Fit s.config.macAddressFormat mac d

variable {s s' : ModemSessionFsm} {event : FsmEvent} {actions : List FsmAction}

theorem encodable_effective {base m : LinkMetrics} (hbase : base.Encodable)
    (hm : s.validMetrics m = true) : (effectiveMetrics base m).Encodable := by
  rw [effectiveMetrics_eq]
  exact hbase.overlay (encodable_of_valid hm)

theorem fit_acknowledge {format : MacAddressFormat} (h : Fit format mac d) :
    Fit format mac (acknowledge mac d) := by
  unfold acknowledge
  split
  · exact ⟨h.metrics, h.addrs, h.addrs, h.format⟩
  · exact ⟨h.metrics, h.addrs, h.advertised, h.format⟩

theorem encodable_answer {status : StatusCode} {text : String} {answer : Option LinkMetrics}
    (hd : d.metrics.Encodable)
    (hp : s.Permits (.appLinkCharacteristicsResponse mac status text answer)) :
    ((answer.map (effectiveMetrics d.metrics)).getD d.metrics).Encodable := by
  cases hp with
  | linkResponse _ _ _ _ hmetrics =>
    cases answer with
    | none => exact hd
    | some m => exact encodable_effective hd (hmetrics m rfl)

theorem Transition.sound (h : s.Transition event s' actions) (hs : s.Sound) : s'.Sound := by
  have hu := h.uniform hs.uniform
  cases h with
  | rejected | ignored | alive | beat | accepted | initialized | ends | dropSent | announceDenied
  | linkDeferred | linkDenied | sessionUpdated | sessionAnswered | sessionAddressesKept
  | sessionAddressesSent => exact ⟨hu, hs.session, hs.cell⟩
  | added _ hp =>
    cases hp with
    | add hformat _ _ hmetrics hvalid =>
      have haddrs := AddressChanges.wellFormed_of_validate hvalid
      exact ⟨hu, hs.session, FinMap.of_lookup_insert hs.cell
        ⟨encodable_effective hs.session hmetrics, haddrs, haddrs, hformat⟩⟩
  | acknowledged _ _ _ _ _ hd =>
    exact ⟨hu, hs.session, FinMap.of_lookup_insert hs.cell (fit_acknowledge (hs.cell _ _ hd))⟩
  | refused _ _ _ _ _ _ hd => exact ⟨hu, hs.session, FinMap.of_lookup_insert hs.cell (hs.cell _ _ hd)⟩
  | withdrawn _ _ _ _ hd =>
    have hfit := hs.cell _ _ hd
    exact ⟨hu, hs.session, FinMap.of_lookup_insert hs.cell
      ⟨hfit.metrics, hfit.addrs, hfit.advertised, hfit.format⟩⟩
  | announceGranted _ _ _ _ hd =>
    have hfit := hs.cell _ _ hd
    exact ⟨hu, hs.session, FinMap.of_lookup_insert hs.cell
      ⟨hfit.metrics, hfit.addrs, hfit.addrs, hfit.format⟩⟩
  | addressesKept _ _ hd =>
    have hfit := hs.cell _ _ hd
    exact ⟨hu, hs.session, FinMap.of_lookup_insert hs.cell ⟨hfit.metrics,
      AddressChanges.wellFormed_applyLenient hfit.addrs _, hfit.advertised, hfit.format⟩⟩
  | addressesSent _ _ hd =>
    have hfit := hs.cell _ _ hd
    have haddrs := AddressChanges.wellFormed_applyLenient hfit.addrs
    exact ⟨hu, hs.session, FinMap.of_lookup_insert hs.cell
      ⟨hfit.metrics, haddrs _, haddrs _, hfit.format⟩⟩
  | metricsDeferred _ hp hd | metricsSent _ hp hd =>
    have hfit := hs.cell _ _ hd
    cases hp with
    | updateMetrics _ _ hmetrics =>
      exact ⟨hu, hs.session, FinMap.of_lookup_insert hs.cell
        ⟨encodable_effective hfit.metrics hmetrics, hfit.addrs, hfit.advertised, hfit.format⟩⟩
  | forgotten | dropAnswered => exact ⟨hu, hs.session, FinMap.of_lookup_erase hs.cell⟩
  | linkAnswered _ hp hd =>
    have hfit := hs.cell _ _ hd
    exact ⟨hu, hs.session, FinMap.of_lookup_insert hs.cell
      ⟨encodable_answer hfit.metrics hp, hfit.addrs, hfit.advertised, hfit.format⟩⟩
  | sessionMetricsSent _ hp =>
    cases hp with
    | sessionUpdate _ hmetrics =>
      refine ⟨hu, encodable_effective hs.session hmetrics, FinMap.of_lookup_mapValues fun mac d hd => ?_⟩
      have hfit := hs.cell mac d hd
      exact ⟨encodable_effective hfit.metrics hmetrics, hfit.addrs, hfit.advertised, hfit.format⟩

end ModemSessionFsm

/-- The modem starts with the metrics of its configuration. -/
theorem ModemSessionFsm.sound_withConfig {config : SessionConfig}
    (h : (buildSessionInitializationResponse config).Encodes) : (withConfig config).Sound := by
  refine ⟨uniform_withConfig config, fun i hi => ?_, by simp [withConfig]⟩
  refine ((Message.encodes_iff _).mp h).1 i ?_
  rw [buildSessionInitializationResponse_eq]
  exact List.mem_append_right _ hi

end Dlep
