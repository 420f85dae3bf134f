-- SUMMARY: The order of a message's data items does not matter: steps on permuted messages agree.
import Dlep.Fsm.Permuted

/-!
# The order of data items

A step on a message and one on its permutation end in the same state and return the same
actions, up to the order in which addresses are listed. Each handler reads the message
through the extractors, which agree once the message is accepted.
-/

namespace Dlep

/-! ## Outputs up to the order of addresses -/

/-- The same event, its address lists compared as sets. -/
inductive EmittedEvent.SameAs : EmittedEvent → EmittedEvent → Prop where
  | refl (e : EmittedEvent) : SameAs e e
  | destinationUp (mac : MacAddress) (metrics : LinkMetrics) {a a' : DestinationAddrs}
      (h : a.SameAs a') : SameAs (.destinationUp mac metrics a) (.destinationUp mac metrics a')
  | destinationAddressesUpdate (mac : MacAddress) {c c' : AddressChanges} {a a' : DestinationAddrs}
      (hc : c.SameAs c') (ha : a.SameAs a') :
      SameAs (.destinationAddressesUpdate mac c a) (.destinationAddressesUpdate mac c' a')
  | sessionAddressesUpdate {c c' : AddressChanges} {a a' : DestinationAddrs} (hc : c.SameAs c')
      (ha : a.SameAs a') : SameAs (.sessionAddressesUpdate c a) (.sessionAddressesUpdate c' a')
  | destinationAnnounced (mac : MacAddress) {c c' : AddressChanges} (hc : c.SameAs c') :
      SameAs (.destinationAnnounced mac c) (.destinationAnnounced mac c')

/-- The same action: only the address lists inside an event may differ in order. -/
inductive FsmAction.SameAs : FsmAction → FsmAction → Prop where
  | refl (a : FsmAction) : SameAs a a
  | emit {e e' : EmittedEvent} (h : e.SameAs e') : SameAs (.emit e) (.emit e')

/-- The same actions in the same order. -/
abbrev SameActions (actions actions' : List FsmAction) : Prop :=
  List.Forall₂ FsmAction.SameAs actions actions'

namespace SameActions

theorem refl (actions : List FsmAction) : SameActions actions actions :=
  List.forall₂_same.mpr fun a _ => .refl a

theorem append {a a' b b' : List FsmAction} (ha : SameActions a a') (hb : SameActions b b') :
    SameActions (a ++ b) (a' ++ b') := List.rel_append ha hb

theorem emit {e e' : EmittedEvent} (h : e.SameAs e') : SameActions [.emit e] [.emit e'] :=
  .cons (.emit h) .nil

end SameActions

/-- The same panic, or states and actions that differ in the order of addresses only. -/
inductive SameResult {σ : Type} (Same : σ → σ → Prop) :
    Outcome (σ × List FsmAction) → Outcome (σ × List FsmAction) → Prop where
  | ok {s s' : σ} {actions actions' : List FsmAction} (hs : Same s s')
      (hactions : SameActions actions actions') :
      SameResult Same (.ok (s, actions)) (.ok (s', actions'))
  | error (p : Panic) : SameResult Same (.error p) (.error p)

theorem SameResult.refl {σ : Type} {Same : σ → σ → Prop} (hrefl : ∀ s, Same s s)
    (r : Outcome (σ × List FsmAction)) : SameResult Same r r := by
  cases r with
  | error p => exact .error p
  | ok out => exact .ok (hrefl _) (.refl _)

theorem SameResult.bind {σ α : Type} {Same : σ → σ → Prop} (x : Outcome α)
    {f g : α → Outcome (σ × List FsmAction)} (h : ∀ a, x = .ok a → SameResult Same (f a) (g a)) :
    SameResult Same (x >>= f) (x >>= g) := by
  cases x with
  | error p => exact .error p
  | ok a => exact h a rfl

/-! ## The modem -/

namespace ModemSessionFsm

variable {s : ModemSessionFsm} {m m' : Message}

/-- The same state but for the order of the peer's addresses. -/
structure SameAs (s t : ModemSessionFsm) : Prop where
  peer : s.peerAddresses.SameAs t.peerAddresses
  rest : t = { s with peerAddresses := t.peerAddresses }

theorem SameAs.refl (s : ModemSessionFsm) : s.SameAs s := ⟨.refl _, rfl⟩

theorem onSessionInitialization_alike (h : m.Alike m') :
    SameResult SameAs (s.onSessionInitialization m) (s.onSessionInitialization m') := by
  have hpeer := h.permuted.changes.added
  unfold onSessionInitialization initialized
  simp only [← h.heartbeatInterval, ← h.extensions, hpeer.isEmpty_eq]
  refine .ok ⟨hpeer, rfl⟩ (.append (.refl _) ?_)
  split
  · exact .refl _
  · exact .emit (.sessionAddressesUpdate ⟨hpeer, .refl _⟩ hpeer)

theorem onDestinationAnnounce_alike (h : m.Alike m') :
    SameResult SameAs (s.onDestinationAnnounce m) (s.onDestinationAnnounce m') := by
  have hannounced : ∀ mac, SameActions
      [.emit (.destinationAnnounced mac (AddressChanges.fromMessage m))]
      [.emit (.destinationAnnounced mac (AddressChanges.fromMessage m'))] :=
    fun mac => .emit (.destinationAnnounced mac h.permuted.changes)
  unfold onDestinationAnnounce
  rw [← h.mac]
  refine .bind _ fun mac _ => ?_
  cases s.destinations.lookup mac with
  | none => exact .ok (.refl _) (.append (.cons (.refl _) (hannounced mac)) (.refl _))
  | some d => exact .ok (.refl _) (.append (.cons (.refl _) (hannounced mac)) (.refl _))

theorem onSessionUpdate_alike (h : m.Alike m') :
    SameResult SameAs (s.onSessionUpdate m) (s.onSessionUpdate m') := by
  obtain ⟨hresult, hpeer⟩ := h.permuted.applyStrict s.peerAddresses
  unfold onSessionUpdate
  dsimp only
  rw [← hresult, ← h.permuted.changes.isEmpty_eq]
  refine .bind _ fun _ _ => .ok ⟨hpeer, rfl⟩ ?_
  refine .append (.append (.refl _) ?_) (.refl _)
  split
  · exact .refl _
  · exact .emit (.sessionAddressesUpdate h.permuted.changes hpeer)

theorem onMessage_alike (h : m.Alike m') : SameResult SameAs (s.onMessage m) (s.onMessage m') := by
  have hterm : s.onSessionTermination m' = s.onSessionTermination m := by
    unfold onSessionTermination
    rw [h.status]
  have hup : s.onDestinationUpResponse m' = s.onDestinationUpResponse m := by
    unfold onDestinationUpResponse
    rw [h.status, h.mac]
  have hdown : s.onDestinationDown m' = s.onDestinationDown m := by
    unfold onDestinationDown
    rw [h.mac]
  have hdropped : s.onDestinationDownResponse m' = s.onDestinationDownResponse m := by
    unfold onDestinationDownResponse
    rw [h.mac]
  have hlink : s.onLinkCharacteristicsRequest m' = s.onLinkCharacteristicsRequest m := by
    unfold onLinkCharacteristicsRequest
    rw [h.mac, h.requested]
  unfold onMessage
  simp only [h.permuted.messageType, hterm, hup, hdown, hdropped, hlink]
  -- Only two arms read addresses; the others give equal results.
  by_cases hsession : m.messageType = .sessionUpdate
  · simp only [hsession]
    exact onSessionUpdate_alike h
  · by_cases hannounce : m.messageType = .destinationAnnounce
    · simp only [hannounce]
      exact onDestinationAnnounce_alike h
    · simp only [hsession, hannounce, if_false]
      exact .refl .refl _

/-- A message and its permutation lead to the same result. -/
theorem step_perm (s : ModemSessionFsm) (h : m.Permuted m')
    (hone : m.dataItems.countP DataItem.isFatal ≤ 1) :
    SameResult SameAs (s.step (.recvMessage m)) (s.step (.recvMessage m')) := by
  have hrefusal := s.refusal_perm h hone
  simp only [step, FsmEvent.command, ← hrefusal]
  cases hok : s.refusal m with
  | some status => exact .refl .refl _
  | none =>
    cases hs : s.state with
    | awaitingSessionInit =>
      simp only [dispatch, hs, h.messageType]
      split
      · exact onSessionInitialization_alike (h.alike (valid_of_refusal (.inl hs) hok))
      · exact .refl .refl _
    | inSession =>
      simp only [dispatch, hs]
      exact onMessage_alike (h.alike (valid_of_refusal (.inr hs) hok))
    | _ =>
      simp only [dispatch, hs, h.messageType]
      exact .refl .refl _

end ModemSessionFsm

/-! ## The router -/

/-- The same destination but for the order of its addresses. -/
structure RouterDestination.SameAs (d e : RouterDestination) : Prop where
  up : d.up = e.up
  metrics : d.metrics = e.metrics
  addrs : d.addrs.SameAs e.addrs

theorem RouterDestination.SameAs.refl (d : RouterDestination) : d.SameAs d := ⟨rfl, rfl, .refl _⟩

namespace RouterSessionFsm

variable {s : RouterSessionFsm} {m m' : Message}

/-- The same state but for the order of the peer's and the destinations' addresses. -/
structure SameAs (s t : RouterSessionFsm) : Prop where
  peer : s.peerAddresses.SameAs t.peerAddresses
  destinations : ∀ mac, Option.Rel RouterDestination.SameAs (s.destinations.lookup mac)
    (t.destinations.lookup mac)
  rest : t = { s with peerAddresses := t.peerAddresses, destinations := t.destinations }

theorem sameDestinations (destinations : FinMap MacAddress RouterDestination) (mac : MacAddress) :
    Option.Rel RouterDestination.SameAs (destinations.lookup mac) (destinations.lookup mac) := by
  cases destinations.lookup mac with
  | none => exact .none
  | some d => exact .some (.refl d)

theorem SameAs.refl (s : RouterSessionFsm) : s.SameAs s :=
  ⟨.refl _, sameDestinations s.destinations, rfl⟩

theorem sameDestinations_insert (destinations : FinMap MacAddress RouterDestination)
    (k : MacAddress) {d e : RouterDestination} (h : d.SameAs e) (mac : MacAddress) :
    Option.Rel RouterDestination.SameAs ((destinations.insert k d).lookup mac)
      ((destinations.insert k e).lookup mac) := by
  rw [FinMap.lookup_insert_eq, FinMap.lookup_insert_eq]
  split
  · exact .some h
  · exact sameDestinations destinations mac

theorem destinationAddressChanges_perm (mac : MacAddress) (h : m.Permuted m') :
    (s.destinationAddressChanges mac m).SameAs (s.destinationAddressChanges mac m') := by
  refine ⟨fun a => ?_, h.changes.removed⟩
  rw [mem_destinationAddressChanges, mem_destinationAddressChanges, h.changes.added a,
    h.changes.removed a]

/-- The addresses a destination gets do not depend on the order of the items. -/
theorem applied_perm (mac : MacAddress) (h : m.Permuted m') (base : DestinationAddrs) :
    ((s.destinationAddressChanges mac m).applyLenient base).SameAs
      ((s.destinationAddressChanges mac m').applyLenient base) := by
  have hchanges := destinationAddressChanges_perm (s := s) mac h
  intro a
  rw [AddressChanges.mem_applyLenient, AddressChanges.mem_applyLenient,
    canonical_destinationAddressChanges, canonical_destinationAddressChanges, hchanges.added a,
    hchanges.removed a]

theorem reported_alike (mac : MacAddress) (h : m.Alike m') :
    (s.reported mac m).SameAs (s.reported mac m') := by
  refine ⟨rfl, ?_, applied_perm mac h.permuted _⟩
  unfold reported
  rw [h.metrics]

theorem onSessionInitializationResponse_alike (h : m.Alike m') :
    SameResult SameAs (s.onSessionInitializationResponse m)
      (s.onSessionInitializationResponse m') := by
  have hpeer := h.permuted.changes.added
  have htypes := List.toFinset_eq_of_perm _ _ h.permuted.metricTypes_perm
  unfold onSessionInitializationResponse initialized
  simp only [← h.status, ← h.metrics, ← h.heartbeatInterval, ← h.extensions, hpeer.isEmpty_eq,
    ← htypes]
  split
  · exact .refl .refl _
  · refine .ok ⟨hpeer, sameDestinations _, rfl⟩ (.append (.refl _) ?_)
    split
    · exact .refl _
    · exact .emit (.sessionAddressesUpdate ⟨hpeer, .refl _⟩ hpeer)

theorem onDestinationUp_alike (h : m.Alike m') :
    SameResult SameAs (s.onDestinationUp m) (s.onDestinationUp m') := by
  unfold onDestinationUp
  rw [← h.mac]
  refine .bind _ fun mac _ => ?_
  have hd := reported_alike (s := s) mac h
  refine .ok ⟨.refl _, sameDestinations_insert _ mac hd, rfl⟩ ?_
  refine .append (.cons (.refl _) (SameActions.emit ?_)) (.refl _)
  rw [hd.metrics]
  exact .destinationUp mac _ hd.addrs

theorem onDestinationAnnounceResponse_alike (h : m.Alike m') :
    SameResult SameAs (s.onDestinationAnnounceResponse m)
      (s.onDestinationAnnounceResponse m') := by
  unfold onDestinationAnnounceResponse
  rw [← h.mac, ← h.status]
  refine .bind _ fun mac _ => ?_
  dsimp only
  split
  · have hd := reported_alike (s := { s with tx := s.tx.closeDestination mac }) mac h
    refine .ok ⟨.refl _, sameDestinations_insert _ mac hd, rfl⟩ (.append (.emit ?_) (.refl _))
    rw [hd.metrics]
    exact .destinationUp mac _ hd.addrs
  · exact .refl .refl _

theorem sameAs_between (old : DestinationAddrs) {new new' : DestinationAddrs}
    (h : new.SameAs new') :
    (AddressChanges.between old new).SameAs (AddressChanges.between old new') := by
  constructor <;> intro a
  · simp only [AddressChanges.mem_between_added, h a]
  · simp only [AddressChanges.mem_between_removed, h a]

theorem onDestinationUpdate_alike (h : m.Alike m') :
    SameResult SameAs (s.onDestinationUpdate m) (s.onDestinationUpdate m') := by
  unfold onDestinationUpdate
  rw [← h.mac]
  refine .bind _ fun mac _ => .bind _ fun d _ => ?_
  have haddrs := applied_perm (s := s) mac h.permuted d.addrs
  have heffective := sameAs_between d.addrs haddrs
  simp only [← h.metrics, ← heffective.isEmpty_eq]
  refine .ok ⟨.refl _, sameDestinations_insert _ mac ⟨rfl, rfl, haddrs⟩, rfl⟩ ?_
  refine .append (.append (.refl _) ?_) (.refl _)
  split
  · exact .refl _
  · exact .emit (.destinationAddressesUpdate mac heffective haddrs)

theorem onSessionUpdate_alike (h : m.Alike m') :
    SameResult SameAs (s.onSessionUpdate m) (s.onSessionUpdate m') := by
  obtain ⟨hresult, hpeer⟩ := h.permuted.applyStrict s.peerAddresses
  unfold onSessionUpdate
  simp only [← hresult, ← h.permuted.changes.isEmpty_eq, ← h.metrics]
  refine .bind _ fun _ _ => .ok ⟨hpeer, sameDestinations _, rfl⟩ ?_
  refine .append (.append (.append (.refl _) ?_) (.refl _)) (.refl _)
  split
  · exact .refl _
  · exact .emit (.sessionAddressesUpdate h.permuted.changes hpeer)

theorem onMessage_alike (h : m.Alike m') : SameResult SameAs (s.onMessage m) (s.onMessage m') := by
  have hterm : s.onSessionTermination m' = s.onSessionTermination m := by
    unfold onSessionTermination
    rw [h.status]
  have hdown : s.onDestinationDown m' = s.onDestinationDown m := by
    unfold onDestinationDown
    rw [h.mac, h.status]
  have hdropped : s.onDestinationDownResponse m' = s.onDestinationDownResponse m := by
    unfold onDestinationDownResponse
    rw [h.mac, h.status]
  have hlink : s.onLinkCharacteristicsResponse m' = s.onLinkCharacteristicsResponse m := by
    unfold onLinkCharacteristicsResponse
    simp only [h.mac, h.statusItem, h.metrics]
  unfold onMessage
  simp only [h.permuted.messageType, hterm, hdown, hdropped, hlink]
  by_cases hup : m.messageType = .destinationUp
  · simp only [hup]
    exact onDestinationUp_alike h
  by_cases hupdate : m.messageType = .destinationUpdate
  · simp only [hupdate]
    exact onDestinationUpdate_alike h
  by_cases hsession : m.messageType = .sessionUpdate
  · simp only [hsession]
    exact onSessionUpdate_alike h
  by_cases hannounce : m.messageType = .destinationAnnounceResponse
  · simp only [hannounce]
    exact onDestinationAnnounceResponse_alike h
  -- No other arm reads addresses.
  simp only [hup, hupdate, hsession, hannounce, if_false]
  exact .refl .refl _

/-- A message and its permutation lead to the same result. -/
theorem step_perm (s : RouterSessionFsm) (h : m.Permuted m')
    (hone : m.dataItems.countP DataItem.isFatal ≤ 1) :
    SameResult SameAs (s.step (.recvMessage m)) (s.step (.recvMessage m')) := by
  have hrefusal := s.refusal_perm h hone
  simp only [step, FsmEvent.command, ← hrefusal]
  cases hok : s.refusal m with
  | some status => exact .refl .refl _
  | none =>
    cases hs : s.state with
    | sessionInitPending =>
      simp only [dispatch, hs, h.messageType]
      split
      · exact onSessionInitializationResponse_alike (h.alike (valid_of_refusal (.inl hs) hok))
      · exact .refl .refl _
    | inSession =>
      simp only [dispatch, hs]
      exact onMessage_alike (h.alike (valid_of_refusal (.inr hs) hok))
    | _ =>
      simp only [dispatch, hs, h.messageType]
      exact .refl .refl _

end RouterSessionFsm

/-! ## The order of items is irrelevant -/

theorem SameResult.of_ok {σ : Type} {Same : σ → σ → Prop} {r : Outcome (σ × List FsmAction)}
    {s : σ} {actions : List FsmAction} (h : SameResult Same (.ok (s, actions)) r) :
    ∃ s' actions', r = .ok (s', actions') ∧ Same s s' ∧ SameActions actions actions' := by
  cases h with
  | ok hs hactions => exact ⟨_, _, rfl, hs, hactions⟩

/-- In every reachable state of either machine, a message with at most one fatal status and
any permutation of it are both accepted or refused with the same status, and their steps
give the same state and the same actions, address lists being compared as sets. -/
theorem item_order_irrelevant (config : SessionConfig) (events : List FsmEvent) (m m' : Message)
    (h : m.Permuted m') (hone : m.dataItems.countP DataItem.isFatal ≤ 1) :
    (∃ s trace, RouterSessionFsm.run config events = .ok (s, trace) ∧
      s.refusal m = s.refusal m' ∧ ∃ t t' actions actions',
        s.step (.recvMessage m) = .ok (t, actions) ∧
        s.step (.recvMessage m') = .ok (t', actions') ∧
        t.SameAs t' ∧ SameActions actions actions') ∧
    (∃ s trace, ModemSessionFsm.run config events = .ok (s, trace) ∧
      s.refusal m = s.refusal m' ∧ ∃ t t' actions actions',
        s.step (.recvMessage m) = .ok (t, actions) ∧
        s.step (.recvMessage m') = .ok (t', actions') ∧
        t.SameAs t' ∧ SameActions actions actions') := by
  constructor
  · obtain ⟨s, trace, hrun⟩ := RouterSessionFsm.run_ok config events
    obtain ⟨t, actions, hstep, -⟩ :=
      RouterSessionFsm.step_spec (RouterSessionFsm.run_walk hrun).1 (.recvMessage m)
    obtain ⟨t', actions', hstep', hsame, hactions⟩ := (hstep ▸ s.step_perm h hone).of_ok
    exact ⟨s, trace, hrun, s.refusal_perm h hone, t, t', actions, actions', hstep, hstep', hsame,
      hactions⟩
  · obtain ⟨s, trace, hrun⟩ := ModemSessionFsm.run_ok config events
    obtain ⟨t, actions, hstep, -⟩ :=
      ModemSessionFsm.step_spec (ModemSessionFsm.run_walk hrun).1 (.recvMessage m)
    obtain ⟨t', actions', hstep', hsame, hactions⟩ := (hstep ▸ s.step_perm h hone).of_ok
    exact ⟨s, trace, hrun, s.refusal_perm h hone, t, t', actions, actions', hstep, hstep', hsame,
      hactions⟩

/-- A Destination Up with two addresses. -/
def upInOrder (first second : Ipv4Addr) : Message :=
  ⟨.destinationUp, [.ipv4Address true first, .macAddress (.eui48 (.replicate 6 1)),
    .ipv4Address true second]⟩

/-- A router in session accepts it in both orders. -/
theorem item_order_irrelevant_up :
    ∃ s trace t t' actions actions', RouterSessionFsm.run .default
        [.tcpConnected, .recvMessage (buildSessionInitializationResponse .default)] = .ok (s, trace) ∧
      s.refusal (upInOrder 7 8) = none ∧ s.refusal (upInOrder 8 7) = none ∧
      s.step (.recvMessage (upInOrder 7 8)) = .ok (t, actions) ∧
      s.step (.recvMessage (upInOrder 8 7)) = .ok (t', actions') ∧
      t.SameAs t' ∧ SameActions actions actions' ∧
      (t.destinations.lookup (.eui48 (.replicate 6 1))).map (·.addrs) =
        some ⟨[7, 8], [], [], []⟩ := by
  have hperm : (upInOrder 7 8).Permuted (upInOrder 8 7) := ⟨rfl, by decide⟩
  obtain ⟨⟨s, trace, hrun, hrefusal, t, t', actions, actions', hstep, hstep', hsame, hactions⟩, -⟩ :=
    item_order_irrelevant .default
      [.tcpConnected, .recvMessage (buildSessionInitializationResponse .default)] _ _ hperm (by decide)
  have hview : (do
      let (s, _) ← RouterSessionFsm.run .default
        [.tcpConnected, .recvMessage (buildSessionInitializationResponse .default)]
      let (t, _) ← s.step (.recvMessage (upInOrder 7 8))
      .ok (s.refusal (upInOrder 7 8),
        (t.destinations.lookup (.eui48 (.replicate 6 1))).map (·.addrs))) =
      Except.ok (none, some ⟨[7, 8], [], [], []⟩) := by
    decide +kernel
  simp only [hrun, hstep, bind, Except.bind] at hview
  obtain ⟨haccepted, haddrs⟩ := Prod.mk.inj (Except.ok.inj hview)
  exact ⟨s, trace, t, t', actions, actions', hrun, haccepted, hrefusal ▸ haccepted, hstep, hstep',
    hsame, hactions, haddrs⟩

end Dlep
