-- SUMMARY: The router mirrors the modem: after the messages under way, its view is the modem's announced state.
import Dlep.Fsm.Support
import Dlep.System.Coupling
import Dlep.System.Learning

/-!
# The router mirrors the modem

Replay the messages under way on the router's view. `Mirrored` says that the result
is what the modem has announced: every destination that is up or being reported,
with the modem's metrics, the session metrics and the modem's own addresses. Every
step of the modem keeps it, because what the step sends makes up for what it
changes.
-/

namespace Dlep

/-! ## Expected news -/

namespace RouterSessionFsm

/-- The view has room for the news: a report is of an unknown destination, any other
news about a destination of a known one, and address changes fit. -/
def Expects (v : RouterSessionFsm) (msg : Message) : Prop :=
  match msg.news with
  | .session => ((AddressChanges.fromMessage msg).applyStrict v.peerAddresses).1 = .ok ()
  | .report mac => v.destinations.lookup mac = none
  | .update mac | .characteristics mac | .removal mac =>
    (v.destinations.lookup mac).isSome = true
  | .nothing => True

section

variable {v : RouterSessionFsm} {msg : Message} {mac : MacAddress} {d : RouterDestination}

theorem expects_nothing (hn : msg.news = .nothing) : v.Expects msg := by
  simp only [Expects, hn]

theorem expects_report (hn : msg.news = .report mac) (h : v.destinations.lookup mac = none) :
    v.Expects msg := by
  simpa only [Expects, hn] using h

theorem expects_update (hn : msg.news = .update mac) (h : v.destinations.lookup mac = some d) :
    v.Expects msg := by
  simp only [Expects, hn, h, Option.isSome_some]

theorem expects_characteristics (hn : msg.news = .characteristics mac)
    (h : v.destinations.lookup mac = some d) : v.Expects msg := by
  simp only [Expects, hn, h, Option.isSome_some]

theorem expects_removal (hn : msg.news = .removal mac) (h : v.destinations.lookup mac = some d) :
    v.Expects msg := by
  simp only [Expects, hn, h, Option.isSome_some]

theorem expects_session (hn : msg.news = .session)
    (h : ((AddressChanges.fromMessage msg).applyStrict v.peerAddresses).1 = .ok ()) :
    v.Expects msg := by
  simpa only [Expects, hn] using h

end

/-- Every message of a queue is expected when its turn comes. -/
def ExpectsAll : RouterSessionFsm → List Message → Prop := Machine.Expected Expects learn

end RouterSessionFsm

/-! ## The mirror -/

open RouterSessionFsm (learn)

/-- How the view of one destination relates to the modem's transaction and entry. -/
inductive CellMirrored : Option RouterDestination → Option RequestKind → Option ModemDestination →
    Prop where
  | unknown : CellMirrored none none none
  | idle {d} (h : d.announced = false) : CellMirrored none none (some d)
  /-- While an Up is unanswered the entry may run ahead of the report, and remembers it. -/
  | asking {x d} (h : d.announced = false) (hshape : x.metrics.SameShape d.metrics)
      (hmetrics : d.pendingMetrics = false → x.metrics = d.metrics) :
      CellMirrored (some x) (some .destinationUp) (some d)
  | granted {x d} (h : d.announced = true) (hmetrics : x.metrics = d.metrics) :
      CellMirrored (some x) none (some d)
  | dropping {d} (h : d.announced = true) : CellMirrored none (some .destinationDown) (some d)

/-- Only the announcement and the metrics of the entry matter. -/
theorem CellMirrored.of_metrics {known : Option RouterDestination} {pending : Option RequestKind}
    {d e : ModemDestination} (h : CellMirrored known pending (some d))
    (hann : e.announced = d.announced) (hpend : e.pendingMetrics = d.pendingMetrics)
    (hmetrics : e.metrics = d.metrics) : CellMirrored known pending (some e) := by
  cases h with
  | idle h => exact .idle (hann.trans h)
  | asking h hshape hm => exact .asking (hann.trans h) (hmetrics ▸ hshape) (hmetrics ▸ hpend ▸ hm)
  | granted h hm => exact .granted (hann.trans h) (hmetrics ▸ hm)
  | dropping h => exact .dropping (hann.trans h)

/-- Both sides apply a session-wide metric update alike. -/
theorem CellMirrored.remeasure {known : Option RouterDestination} {pending : Option RequestKind}
    {entry : Option ModemDestination} (h : CellMirrored known pending entry) {msg : Message}
    {metrics : LinkMetrics}
    (hmerge : ∀ base, mergeLinkMetrics msg base = (base.overlay metrics, true)) :
    CellMirrored (known.map (RouterSessionFsm.remeasured msg)) pending (entry.map fun d =>
      { d with metrics := ModemSessionFsm.effectiveMetrics d.metrics metrics }) := by
  have hrouter : ∀ x, (RouterSessionFsm.remeasured msg x).metrics = x.metrics.overlay metrics := by
    intro x
    simp only [RouterSessionFsm.remeasured, hmerge]
  simp only [effectiveMetrics_eq]
  cases h with
  | unknown => exact .unknown
  | idle h => exact .idle h
  | asking h hshape hm =>
    refine .asking h ?_ fun hp => ?_
    · rw [hrouter]
      exact hshape.overlay metrics
    · rw [hrouter, hm hp]
  | granted h hm => exact .granted h (by rw [hrouter, hm])
  | dropping h => exact .dropping h

structure Mirrored (v : RouterSessionFsm) (m : ModemSessionFsm) : Prop where
  session : v.sessionMetrics = m.sessionMetrics
  peer : v.peerAddresses.SameAs m.localAddresses
  cell : ∀ mac,
    CellMirrored (v.destinations.lookup mac) (m.tx.pending mac) (m.destinations.lookup mac)

/-- What the modem sent brings the view to its new state. -/
structure Informs (v : RouterSessionFsm) (m : ModemSessionFsm) (sent : List Message) : Prop where
  expected : v.ExpectsAll sent
  mirrored : Mirrored (sent.foldl learn v) m

section

variable {v v' : RouterSessionFsm} {m m' : ModemSessionFsm} {mac : MacAddress} {msg : Message}
  {actions : List FsmAction}

theorem Informs.silent (h : sentMessages actions = []) (hM : Mirrored v m) :
    Informs v m (sentMessages actions) := by
  rw [h]
  exact ⟨trivial, hM⟩

theorem Informs.one (h : sentMessages actions = [msg]) (he : v.Expects msg)
    (hM : Mirrored (v.learn msg) m) : Informs v m (sentMessages actions) := by
  rw [h]
  exact ⟨⟨he, trivial⟩, hM⟩

/-- A message without news changes nothing. -/
theorem Informs.aside (h : sentMessages actions = [msg]) (hn : msg.news = .nothing)
    (hM : Mirrored v m) : Informs v m (sentMessages actions) := by
  refine .one h ?_ ?_
  · exact RouterSessionFsm.expects_nothing hn
  · rwa [RouterSessionFsm.learn_of_nothing hn]

/-- A change at one destination, told by a message about it. -/
theorem Informs.about (hM : Mirrored v m) (mac : MacAddress) (h : sentMessages actions = [msg])
    (hn : msg.news.destination = some mac) (he : v.Expects msg)
    (hsession : m'.sessionMetrics = m.sessionMetrics)
    (haddresses : m'.localAddresses = m.localAddresses)
    (helsewhere : ∀ x, x ≠ mac → m'.tx.pending x = m.tx.pending x ∧
      m'.destinations.lookup x = m.destinations.lookup x)
    (hhere : CellMirrored ((v.learn msg).destinations.lookup mac) (m'.tx.pending mac)
      (m'.destinations.lookup mac)) : Informs v m' (sentMessages actions) := by
  obtain ⟨h₁, h₂, h₃⟩ := RouterSessionFsm.learn_frame hn v
  refine .one h he ⟨?_, ?_, fun x => ?_⟩
  · rw [h₁, hsession]
    exact hM.session
  · rw [h₂, haddresses]
    exact hM.peer
  · by_cases hx : x = mac
    · subst hx
      exact hhere
    · rw [h₃ x hx, (helsewhere x hx).1, (helsewhere x hx).2]
      exact hM.cell x

/-- A change at one destination that the view need not follow. -/
theorem Informs.silent_about (hM : Mirrored v m) (mac : MacAddress) (h : sentMessages actions = [])
    (hsession : m'.sessionMetrics = m.sessionMetrics)
    (haddresses : m'.localAddresses = m.localAddresses)
    (helsewhere : ∀ x, x ≠ mac → m'.tx.pending x = m.tx.pending x ∧
      m'.destinations.lookup x = m.destinations.lookup x)
    (hhere : CellMirrored (v.destinations.lookup mac) (m'.tx.pending mac)
      (m'.destinations.lookup mac)) : Informs v m' (sentMessages actions) := by
  refine .silent h ⟨?_, ?_, fun x => ?_⟩
  · rw [hsession]
    exact hM.session
  · rw [haddresses]
    exact hM.peer
  · by_cases hx : x = mac
    · subst hx
      exact hhere
    · rw [(helsewhere x hx).1, (helsewhere x hx).2]
      exact hM.cell x

/-! ### Reading one cell -/

variable {d : ModemDestination}

theorem Mirrored.unknown (hM : Mirrored v m) (hd : m.destinations.lookup mac = none) :
    v.destinations.lookup mac = none := by
  have h := hM.cell mac
  rw [hd] at h
  generalize v.destinations.lookup mac = known, m.tx.pending mac = pending at h ⊢
  cases h
  rfl

theorem Mirrored.idle (hM : Mirrored v m) (hd : m.destinations.lookup mac = some d)
    (hnew : d.announced = false) (hidle : m.tx.pending mac = none) :
    v.destinations.lookup mac = none := by
  have h := hM.cell mac
  rw [hd, hidle] at h
  generalize v.destinations.lookup mac = known at h ⊢
  cases h with
  | idle => rfl
  | granted hann => cases hnew.symm.trans hann

theorem Mirrored.asking (hM : Mirrored v m) (hd : m.destinations.lookup mac = some d)
    (hup : m.tx.pending mac = some .destinationUp) :
    ∃ x, v.destinations.lookup mac = some x ∧ d.announced = false ∧
      x.metrics.SameShape d.metrics ∧ (d.pendingMetrics = false → x.metrics = d.metrics) := by
  have h := hM.cell mac
  rw [hd, hup] at h
  generalize v.destinations.lookup mac = known at h ⊢
  cases h with
  | asking hann hshape hmetrics => exact ⟨_, rfl, hann, hshape, hmetrics⟩

theorem Mirrored.granted (hM : Mirrored v m) (hd : m.destinations.lookup mac = some d)
    (hann : d.announced = true) (hidle : m.tx.pending mac = none) :
    ∃ x, v.destinations.lookup mac = some x ∧ x.metrics = d.metrics := by
  have h := hM.cell mac
  rw [hd, hidle] at h
  generalize v.destinations.lookup mac = known at h ⊢
  cases h with
  | idle hnew => cases hnew.symm.trans hann
  | granted _ hmetrics => exact ⟨_, rfl, hmetrics⟩

theorem Mirrored.dropping (hM : Mirrored v m)
    (hdown : m.tx.pending mac = some .destinationDown) : v.destinations.lookup mac = none := by
  have h := hM.cell mac
  rw [hdown] at h
  generalize v.destinations.lookup mac = known, m.destinations.lookup mac = entry at h ⊢
  cases h
  rfl

end

/-! ## Every step informs -/

namespace ModemSessionFsm

variable {v : RouterSessionFsm} {s s' : ModemSessionFsm} {event : FsmEvent}
  {actions : List FsmAction} {mac : MacAddress} {d : ModemDestination} {metrics : LinkMetrics}

open RouterSessionFsm (learn_report learn_update learn_characteristics learn_removal learn_session
  reported updated remeasured expects_report expects_update expects_characteristics
  expects_removal expects_session mapValues_remeasured_of_not_metric)

/-- A report of metrics in the session's shape is stored as it is. -/
theorem reported_metrics {msg : Message} (hu : s.Uniform) (hM : Mirrored v s) (mac : MacAddress)
    (hmerge : ∀ base, mergeLinkMetrics msg base = (base.overlay metrics, true))
    (hshape : metrics.SameShape s.config.initialMetrics) :
    (v.reported mac msg).metrics = metrics := by
  simp only [reported, hmerge, hM.session]
  exact LinkMetrics.overlay_of_sameShape (hu.session.trans hshape.symm)

theorem news_of_deferredUpdate {msg : Message} (h : deferredUpdate mac d = some msg) :
    msg.news = .update mac := by
  simp only [Message.news, messageType_deferredUpdate h, extractDestinationMac_deferredUpdate h]
  rfl

/-- The update that an acknowledged Up releases makes up for the metrics that changed
meanwhile. -/
theorem overlay_deferredUpdate {msg : Message} {x : LinkMetrics}
    (h : deferredUpdate mac d = some msg) (hshape : x.SameShape d.metrics)
    (hmetrics : d.pendingMetrics = false → x = d.metrics) :
    (mergeLinkMetrics msg x).1 = d.metrics := by
  simp only [deferredUpdate] at h
  split at h
  · cases h
    rw [mergeLinkMetrics_appendTo]
    split
    · rw [mergeLinkMetrics_buildDestinationUpdate]
      exact LinkMetrics.overlay_of_sameShape hshape
    · rename_i hpending
      exact hmetrics (by simpa using hpending)
  · cases h

/-- Without such an update the report still is what the entry holds. -/
theorem pendingMetrics_of_deferredUpdate (h : deferredUpdate mac d = none) :
    d.pendingMetrics = false := by
  simp only [deferredUpdate] at h
  split at h
  · cases h
  · rename_i hpending
    simp only [Bool.or_eq_true, not_or, Bool.not_eq_true] at hpending
    exact hpending.1

theorem informs_acknowledged (hM : Mirrored v s) (hd : s.destinations.lookup mac = some d)
    (hup : s.tx.pending mac = some .destinationUp)
    (hsent : sentMessages actions = (deferredUpdate mac d).toList) :
    Informs v
      { s with
        tx := s.tx.closeDestination mac
        destinations := s.destinations.insert mac (acknowledge mac d) }
      (sentMessages actions) := by
  obtain ⟨x, hx, -, hshape, hmetrics⟩ := hM.asking hd hup
  have helsewhere : ∀ y, y ≠ mac → (s.tx.closeDestination mac).pending y = s.tx.pending y ∧
      (s.destinations.insert mac (acknowledge mac d)).lookup y = s.destinations.lookup y :=
    fun y hy => ⟨by simp [hy], Finmap.lookup_insert_of_ne _ hy⟩
  cases hmsg : deferredUpdate mac d with
  | none =>
    rw [hmsg] at hsent
    refine .silent_about hM mac hsent rfl rfl helsewhere ?_
    rw [hx]
    simp only [Finmap.lookup_insert, TransactionTracker.pending_closeDestination, if_true]
    refine .granted (announced_acknowledge mac d) ?_
    rw [metrics_acknowledge]
    exact hmetrics (pendingMetrics_of_deferredUpdate hmsg)
  | some msg =>
    rw [hmsg] at hsent
    have hn := news_of_deferredUpdate hmsg
    refine .about hM mac hsent (by rw [hn]; rfl) (expects_update hn hx) rfl rfl helsewhere ?_
    rw [learn_update hn hx]
    simp only [Finmap.lookup_insert, TransactionTracker.pending_closeDestination, if_true]
    refine .granted (announced_acknowledge mac d) ?_
    rw [metrics_acknowledge]
    exact overlay_deferredUpdate hmsg hshape hmetrics

theorem Transition.informs (h : s.Transition event s' actions) (hs : s.state = .inSession)
    (hs' : s'.state = .inSession) (hu : s.Uniform) (hM : Mirrored v s)
    (hok : ∀ msg, event = .recvMessage msg → msg.messageType = .destinationUpResponse →
      extractStatus msg = some .success) : Informs v s' (sentMessages actions) := by
  cases h with
  | accepted hs₀ | initialized hs₀ => cases hs.symm.trans hs₀
  | ends h => rcases h.gone with rfl | rfl <;> cases hs'
  | rejected | ignored | alive | sessionAddressesKept | linkDeferred | sessionAnswered =>
    exact .silent (by simp) ⟨hM.session, hM.peer, hM.cell⟩
  | beat => exact .aside rfl rfl hM
  | sessionUpdated =>
    have hn : (buildSessionUpdateResponse .success).news = .nothing := rfl
    exact .aside (by simp) hn ⟨hM.session, hM.peer, hM.cell⟩
  | @added mac metrics addrs _ hp =>
    cases hp with
    | add _ _ hnew hmetrics =>
      refine .about hM mac rfl rfl (hM.unknown hnew) rfl rfl
        (fun x hx => ⟨by simp [hx], Finmap.lookup_insert_of_ne _ hx⟩) ?_
      have heq := reported_metrics hu hM mac
        (fun base => mergeLinkMetrics_buildDestinationUp mac _ base addrs.canonical)
        (sameShape_effective hu.session hmetrics)
      rw [learn_report (show Message.news _ = .report mac from rfl)]
      simp only [Finmap.lookup_insert, TransactionTracker.pending_withPending, if_true]
      exact .asking rfl (by rw [heq]; exact .refl _) fun _ => heq
  | acknowledged _ _ _ _ _ hd _ hup =>
    exact informs_acknowledged hM hd hup (by simp)
  | refused _ _ ht _ hstatus hfail =>
    cases hstatus.symm.trans (hok _ rfl ht)
    exact absurd rfl hfail
  | @metricsDeferred mac metrics d _ hp hd hnew =>
    refine .silent_about hM mac rfl rfl rfl (fun x hx => ⟨rfl, Finmap.lookup_insert_of_ne _ hx⟩) ?_
    cases hp with
    | updateMetrics hup _ hmetrics =>
      simp only [Finmap.lookup_insert]
      rcases hup with hidle | hup
      · rw [hM.idle hd hnew hidle, hidle]
        exact .idle hnew
      · obtain ⟨x, hx, -, hshape, -⟩ := hM.asking hd hup
        have hcell := hu.cell mac d hd
        rw [hx, hup]
        exact .asking hnew (hshape.trans (hcell.trans (sameShape_effective hcell hmetrics).symm)) nofun
  | @metricsSent mac metrics d _ hp hd hann hidle =>
    obtain ⟨x, hx, hmetrics⟩ := hM.granted hd hann hidle
    have hn : (buildDestinationUpdate mac metrics).news = .update mac := rfl
    refine .about hM mac rfl rfl (expects_update hn hx) rfl rfl
      (fun x hx => ⟨rfl, Finmap.lookup_insert_of_ne _ hx⟩) ?_
    rw [learn_update hn hx, hidle]
    simp only [Finmap.lookup_insert]
    refine .granted hann ?_
    simp only [updated, mergeLinkMetrics_buildDestinationUpdate, effectiveMetrics_eq, hmetrics]
  | @addressesKept mac changes d _ hp hd hkept =>
    refine .silent_about hM mac rfl rfl rfl (fun x hx => ⟨rfl, Finmap.lookup_insert_of_ne _ hx⟩) ?_
    simp only [Finmap.lookup_insert]
    have hcell := hM.cell mac
    rw [hd] at hcell
    exact hcell.of_metrics rfl rfl rfl
  | @addressesSent mac changes d _ hp hd hann hidle =>
    obtain ⟨x, hx, hmetrics⟩ := hM.granted hd hann hidle
    refine .about hM mac rfl rfl (expects_update rfl hx) rfl rfl
      (fun x hx => ⟨rfl, Finmap.lookup_insert_of_ne _ hx⟩) ?_
    rw [learn_update (show Message.news _ = .update mac from rfl) hx, hidle]
    simp only [Finmap.lookup_insert]
    refine .granted hann ?_
    simp only [updated, mergeLinkMetrics_appendTo]
    exact hmetrics
  | @forgotten mac reason d _ hp hd hnew hidle hlink =>
    refine .silent_about hM mac rfl rfl rfl (fun x hx => ⟨rfl, Finmap.lookup_erase_ne hx⟩) ?_
    rw [hM.idle hd hnew hidle, hidle]
    simp only [Finmap.lookup_erase]
    exact .unknown
  | @dropSent mac reason d _ hp hd hann hidle hlink =>
    obtain ⟨x, hx, -⟩ := hM.granted hd hann hidle
    refine .about hM mac rfl rfl (expects_removal rfl hx) rfl rfl
      (fun x hx => ⟨by simp [hx], rfl⟩) ?_
    rw [learn_removal (show Message.news _ = .removal mac from rfl), hd]
    simp only [Finmap.lookup_erase, TransactionTracker.pending_withPending, if_true]
    exact .dropping hann
  | @withdrawn msg mac d _ _ _ _ hd hann hidle hlink =>
    obtain ⟨x, hx, -⟩ := hM.granted hd hann hidle
    have hn : (buildDestinationDownResponse mac .success).news = .removal mac := rfl
    refine .about hM mac (by simp) (by rw [hn]; rfl) (expects_removal hn hx) rfl rfl
      (fun x hx => ⟨rfl, Finmap.lookup_insert_of_ne _ hx⟩) ?_
    rw [learn_removal hn, hidle]
    simp only [Finmap.lookup_erase, Finmap.lookup_insert]
    exact .idle rfl
  | @dropAnswered msg mac _ _ _ _ hdown =>
    refine .silent_about hM mac (by simp) rfl rfl
      (fun x hx => ⟨by simp [hx], Finmap.lookup_erase_ne hx⟩) ?_
    rw [hM.dropping hdown]
    simp only [Finmap.lookup_erase, TransactionTracker.pending_closeDestination, if_true]
    exact .unknown
  | @announceDenied msg mac => exact .aside (by simp; rfl) rfl hM
  | @announceGranted msg mac d _ _ _ _ hd hnew hidle =>
    have hn : (announceSuccess mac d).news = .report mac := by
      simp only [Message.news, extractStatus_announceSuccess]
      rfl
    refine .about hM mac (by simp) (by rw [hn]; rfl) (expects_report hn (hM.idle hd hnew hidle))
      rfl rfl (fun x hx => ⟨rfl, Finmap.lookup_insert_of_ne _ hx⟩) ?_
    rw [learn_report hn, hidle]
    simp only [Finmap.lookup_insert]
    exact .granted rfl (reported_metrics hu hM mac
      (fun base => mergeLinkMetrics_announceSuccess mac d base) (hu.cell mac d hd))
  | @linkDenied msg mac d _ _ _ _ hd hann hidle hlink hdefer =>
    obtain ⟨x, hx, hmetrics⟩ := hM.granted hd hann hidle
    have hn : (buildLinkCharacteristicsResponse mac .requestDenied d.metrics).news =
      .characteristics mac := rfl
    refine .about hM mac (by simp) (by rw [hn]; rfl) (expects_characteristics hn hx) rfl rfl
      (fun x hx => ⟨rfl, rfl⟩) ?_
    rw [learn_characteristics hn hx, hd, hidle]
    simp only [Finmap.lookup_insert]
    refine .granted hann ?_
    simp only [remeasured, mergeLinkMetrics_buildLinkCharacteristicsResponse, hmetrics]
    exact LinkMetrics.overlay_of_sameShape (.refl _)
  | @linkAnswered mac status text metrics d _ hp hd hann hidle hlink =>
    obtain ⟨x, hx, hmetrics⟩ := hM.granted hd hann hidle
    refine .about hM mac rfl rfl (expects_characteristics rfl hx) rfl rfl
      (fun x hx => ⟨rfl, Finmap.lookup_insert_of_ne _ hx⟩) ?_
    rw [learn_characteristics (show Message.news _ = .characteristics mac from rfl) hx, hidle]
    simp only [Finmap.lookup_insert]
    refine .granted hann ?_
    simp only [remeasured, mergeLinkMetrics_buildLinkCharacteristicsReply, hmetrics]
    exact LinkMetrics.overlay_of_sameShape
      ((hu.cell mac d hd).trans (sameShape_answer (hu.cell mac d hd) hp).symm)
  | @sessionMetricsSent metrics _ hp =>
    have hskip : AddressChanges.fromMessage (buildSessionUpdate metrics) = .default :=
      fromMessage_buildSessionUpdate metrics
    refine .one rfl (expects_session rfl (by rw [hskip, AddressChanges.applyStrict_default])) ?_
    rw [learn_session rfl, hskip]
    refine ⟨?_, ?_, fun mac => ?_⟩
    · simp only [mergeLinkMetrics_buildSessionUpdate, effectiveMetrics_eq, hM.session]
    · rw [AddressChanges.applyLenient_default]
      exact hM.peer
    · simp only [FinMap.lookup_mapValues, TransactionTracker.pending_with_sessionPending]
      exact (hM.cell mac).remeasure (mergeLinkMetrics_buildSessionUpdate metrics)
  | @sessionAddressesSent changes _ hp =>
    have hnew := AddressChanges.wellFormed_applyLenient hu.addresses changes
    have hread := fromMessage_addressUpdate hu.addresses hnew
    have hstrict := AddressChanges.applyStrict_between hu.addresses hnew hM.peer
    refine .one rfl (expects_session rfl (by rw [hread, hstrict])) ?_
    rw [learn_session rfl, hread, mapValues_remeasured_of_not_metric not_metric_of_mem_addressUpdate]
    refine ⟨?_, ?_, fun mac => ?_⟩
    · rw [mergeLinkMetrics_appendTo]
      exact hM.session
    · exact AddressChanges.applyLenient_between hu.addresses hnew hM.peer
    · simp only [TransactionTracker.pending_with_sessionPending]
      exact hM.cell mac

end ModemSessionFsm

end Dlep
