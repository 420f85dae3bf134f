-- SUMMARY: What each side learns from an accepted message, as a function of the message alone.
import Dlep.Fsm.Metrics
import Dlep.System.Model

/-!
# Learning from the peer

The router's destinations, session metrics and peer addresses come from the modem's
messages only, the modem's peer addresses from the router's. `learn` and `learnPeer`
say what one message adds; an accepted message has exactly that effect, and a step
on a local event has none.
-/

namespace Dlep

/-! ## Peer addresses -/

/-- The peer's addresses after a message: only a Session Update changes them. -/
def learnPeer (peer : DestinationAddrs) (msg : Message) : DestinationAddrs :=
  if msg.messageType = .sessionUpdate then (AddressChanges.fromMessage msg).applyLenient peer
  else peer

theorem learnPeer_of_ne {msg : Message} (h : msg.messageType ≠ .sessionUpdate)
    (peer : DestinationAddrs) : learnPeer peer msg = peer := if_neg h

/-- Changes that a strict receiver accepts are applied as by a lenient one. -/
theorem AddressChanges.applyStrict_ok {c : AddressChanges} {d e : DestinationAddrs}
    (h : c.applyStrict d = (.ok (), e)) : e = c.applyLenient d := by
  rw [applyStrict_eq] at h
  split at h
  · cases h
    rfl
  · cases h

/-- A Session Update fits the addresses that the peer is known by. -/
def PeerExpects (peer : DestinationAddrs) (msg : Message) : Prop :=
  msg.messageType = .sessionUpdate →
    ((AddressChanges.fromMessage msg).applyStrict peer).1 = .ok ()

/-- Every message of a queue fits when its turn comes. -/
def PeerExpectsAll : DestinationAddrs → List Message → Prop := Machine.Expected PeerExpects learnPeer

/-! ## News for the router -/

/-- What a message tells the router. -/
inductive News where
  | session
  | report (mac : MacAddress)
  | update (mac : MacAddress)
  | characteristics (mac : MacAddress)
  | removal (mac : MacAddress)
  | nothing
  deriving DecidableEq

/-- The destination that news is about. -/
def News.destination : News → Option MacAddress
  | .report mac | .update mac | .characteristics mac | .removal mac => some mac
  | .session | .nothing => none

def Message.news (msg : Message) : News :=
  let mt := msg.messageType
  if mt = .sessionUpdate then .session
  else
    match extractDestinationMac msg with
    | none => .nothing
    | some mac =>
      if mt = .destinationUp then .report mac
      else if mt = .destinationAnnounceResponse then
        if extractStatus msg = some .success then .report mac else .nothing
      else if mt = .destinationUpdate then .update mac
      else if mt = .linkCharacteristicsResponse then .characteristics mac
      else if mt = .destinationDown ∨ mt = .destinationDownResponse then .removal mac
      else .nothing

/-- The message types with news for the router. -/
def newsTypes : List MessageType :=
  [.sessionUpdate, .destinationUp, .destinationAnnounceResponse, .destinationUpdate,
    .linkCharacteristicsResponse, .destinationDown, .destinationDownResponse]

theorem Message.news_of_not_mem {msg : Message} (h : msg.messageType ∉ newsTypes) :
    msg.news = .nothing := by
  simp only [newsTypes, List.mem_cons, List.not_mem_nil, or_false, not_or] at h
  obtain ⟨h₁, h₂, h₃, h₄, h₅, h₆, h₇⟩ := h
  cases hmac : extractDestinationMac msg <;>
    simp only [Message.news, hmac, h₁, h₂, h₃, h₄, h₅, h₆, h₇, or_self, if_false]

namespace RouterSessionFsm

/-- The destination after an update of its metrics and addresses. -/
def updated (s : RouterSessionFsm) (mac : MacAddress) (msg : Message) (d : RouterDestination) :
    RouterDestination :=
  { d with
    metrics := (mergeLinkMetrics msg d.metrics).1
    addrs := (s.destinationAddressChanges mac msg).applyLenient d.addrs }

/-- The destination after an update of its metrics alone. -/
def remeasured (msg : Message) (d : RouterDestination) : RouterDestination :=
  { d with metrics := (mergeLinkMetrics msg d.metrics).1 }

/-- The router after the news of a message. -/
def learn (s : RouterSessionFsm) (msg : Message) : RouterSessionFsm :=
  match msg.news with
  | .session =>
    { s with
      peerAddresses := (AddressChanges.fromMessage msg).applyLenient s.peerAddresses
      sessionMetrics := (mergeLinkMetrics msg s.sessionMetrics).1
      destinations := s.destinations.mapValues (remeasured msg) }
  | .report mac => { s with destinations := s.destinations.insert mac (s.reported mac msg) }
  | .update mac =>
    match s.destinations.lookup mac with
    | none => s
    | some d => { s with destinations := s.destinations.insert mac (s.updated mac msg d) }
  | .characteristics mac =>
    match s.destinations.lookup mac with
    | none => s
    | some d => { s with destinations := s.destinations.insert mac (remeasured msg d) }
  | .removal mac => { s with destinations := s.destinations.erase mac }
  | .nothing => s

/-- The part of the router's state that only news changes. -/
def learned (s : RouterSessionFsm) : RouterSessionFsm :=
  { s with tx := .default, localAddresses := .default }

variable {s s' : RouterSessionFsm} {msg : Message} {mac : MacAddress}

theorem learned_learn (s : RouterSessionFsm) (msg : Message) :
    (s.learn msg).learned = s.learned.learn msg := by
  unfold learn
  split <;> try rfl
  · dsimp only [learned]
    split <;> rfl
  · dsimp only [learned]
    split <;> rfl

theorem learn_of_nothing (h : msg.news = .nothing) (s : RouterSessionFsm) : s.learn msg = s := by
  simp only [learn, h]

theorem learn_report (h : msg.news = .report mac) (s : RouterSessionFsm) :
    s.learn msg = { s with destinations := s.destinations.insert mac (s.reported mac msg) } := by
  simp only [learn, h]

theorem learn_removal (h : msg.news = .removal mac) (s : RouterSessionFsm) :
    s.learn msg = { s with destinations := s.destinations.erase mac } := by
  simp only [learn, h]

theorem learn_update {d : RouterDestination} (h : msg.news = .update mac)
    (hd : s.destinations.lookup mac = some d) :
    s.learn msg = { s with destinations := s.destinations.insert mac (s.updated mac msg d) } := by
  simp only [learn, h, hd]

theorem learn_characteristics {d : RouterDestination} (h : msg.news = .characteristics mac)
    (hd : s.destinations.lookup mac = some d) :
    s.learn msg = { s with destinations := s.destinations.insert mac (remeasured msg d) } := by
  simp only [learn, h, hd]

theorem learn_session (h : msg.news = .session) (s : RouterSessionFsm) :
    s.learn msg =
      { s with
        peerAddresses := (AddressChanges.fromMessage msg).applyLenient s.peerAddresses
        sessionMetrics := (mergeLinkMetrics msg s.sessionMetrics).1
        destinations := s.destinations.mapValues (remeasured msg) } := by
  simp only [learn, h]

/-- News about one destination changes that destination alone. -/
theorem learn_frame (h : msg.news.destination = some mac) (s : RouterSessionFsm) :
    (s.learn msg).sessionMetrics = s.sessionMetrics ∧
      (s.learn msg).peerAddresses = s.peerAddresses ∧
      ∀ x, x ≠ mac → (s.learn msg).destinations.lookup x = s.destinations.lookup x := by
  unfold learn
  split <;> rename_i hn <;> rw [hn] at h <;> cases h
  · exact ⟨rfl, rfl, fun x hx => Finmap.lookup_insert_of_ne _ hx⟩
  · split
    · exact ⟨rfl, rfl, fun _ _ => rfl⟩
    · exact ⟨rfl, rfl, fun x hx => Finmap.lookup_insert_of_ne _ hx⟩
  · split
    · exact ⟨rfl, rfl, fun _ _ => rfl⟩
    · exact ⟨rfl, rfl, fun x hx => Finmap.lookup_insert_of_ne _ hx⟩
  · exact ⟨rfl, rfl, fun x hx => Finmap.lookup_erase_ne hx⟩

/-! ## What the router's steps learn -/

variable {event : FsmEvent} {actions : List FsmAction}

theorem mapValues_remeasured_of_not_metric (h : ∀ i ∈ msg.dataItems, i.isMetricItem = false)
    (destinations : FinMap MacAddress RouterDestination) :
    destinations.mapValues (remeasured msg) = destinations := by
  refine Finmap.ext_lookup fun m => ?_
  rw [FinMap.lookup_mapValues]
  cases destinations.lookup m with
  | none => rfl
  | some d => simp [remeasured, mergeLinkMetrics_of_not_metric h]

/-- A local step that stays in the session learns nothing. -/
theorem Transition.learned_local (h : s.Transition event s' actions) (hl : event.isLocal = true)
    (hs : s.state = .inSession) (hs' : s'.state = .inSession) : s'.learned = s.learned := by
  cases h with
  | rejected | ignored | alive | beat | dropSent | announceSent | linkSent | sessionAddressesKept
  | sessionAddressesSent => rfl
  | connected hs₀ | initialized hs₀ => cases hs.symm.trans hs₀
  | ends h => rcases h.gone with rfl | rfl <;> cases hs'
  | upReceived | updateReceived | downReceived | dropAnswered | announceGranted | announceDenied
  | linkAnswered | sessionUpdated | sessionAnswered => cases hl

/-- An accepted message teaches the router its news. -/
theorem Transition.learned_received (h : s.Transition (.recvMessage msg) s' actions)
    (hs : s.state = .inSession) (hs' : s'.state = .inSession) :
    s'.learned = (s.learn msg).learned := by
  cases h with
  | rejected hcmd => cases hcmd
  | ignored h => cases h.received (phase_view hs)
  | alive _ hevent =>
    rcases hevent with h | ⟨_, h, -, ht⟩
    · cases h
    · cases h
      rw [learn_of_nothing (Message.news_of_not_mem (by rw [ht]; decide))]
  | initialized hs₀ => cases hs.symm.trans hs₀
  | ends h => rcases h.gone with rfl | rfl <;> cases hs'
  | upReceived _ _ ht hmac =>
    rw [learn_report (by simp only [Message.news, ht, hmac]; rfl)]
  | updateReceived _ _ ht hmac hd =>
    rw [learn_update (by simp only [Message.news, ht, hmac]; rfl) hd]
    rfl
  | downReceived _ _ ht hmac =>
    rw [learn_removal (by simp only [Message.news, ht, hmac]; rfl)]
  | dropAnswered _ _ ht hmac =>
    rw [learn_removal (by simp only [Message.news, ht, hmac]; rfl)]
    rfl
  | announceGranted _ _ ht hmac hstatus =>
    rw [learn_report (by simp only [Message.news, ht, hmac, hstatus]; rfl)]
    rfl
  | announceDenied _ _ ht hmac hstatus =>
    rw [learn_of_nothing (by simp only [Message.news, ht, hmac, hstatus]; rfl)]
    rfl
  | linkAnswered _ _ ht hmac hd =>
    rw [learn_characteristics (by simp only [Message.news, ht, hmac]; rfl) hd]
    rfl
  | sessionUpdated _ _ ht hpeer =>
    rw [learn_session (by simp only [Message.news, ht, if_true])]
    rw [AddressChanges.applyStrict_ok hpeer]
    split
    · rfl
    · rename_i hflag
      rw [mapValues_remeasured_of_not_metric (mergeLinkMetrics_of_flag (by simpa using hflag))]
  | sessionAnswered _ _ ht =>
    rw [learn_of_nothing (Message.news_of_not_mem (by rw [ht]; decide))]
    rfl

end RouterSessionFsm

/-! ## What each side tells about its own addresses -/

/-- An address update carries the difference of the two sets. -/
theorem fromMessage_addressUpdate {old new : DestinationAddrs} (hold : old.WellFormed)
    (hnew : new.WellFormed) :
    AddressChanges.fromMessage ((AddressChanges.between old new).appendTo (.new .sessionUpdate)) =
      .between old new := by
  rw [AddressChanges.fromMessage_appendTo _ (by simp), AddressChanges.canonical_between hold hnew]

theorem not_metric_of_mem_addressUpdate {c : AddressChanges} :
    ∀ i ∈ (c.appendTo (.new .sessionUpdate)).dataItems, i.isMetricItem = false := by
  intro i hi
  simp only [AddressChanges.appendTo, Message.new_dataItems, List.nil_append, List.mem_append] at hi
  rcases hi with hi | hi <;> exact not_metric_of_mem_sideItems hi

/-- A peer that holds the old addresses holds the new ones after the update. -/
theorem learnPeer_addressUpdate {old new peer : DestinationAddrs} (hold : old.WellFormed)
    (hnew : new.WellFormed) (hpeer : peer.SameAs old) :
    (learnPeer peer ((AddressChanges.between old new).appendTo (.new .sessionUpdate))).SameAs
      new := by
  unfold learnPeer
  rw [fromMessage_addressUpdate hold hnew]
  exact AddressChanges.applyLenient_between hold hnew hpeer

/-- The messages that a router sends keep its peer informed of its addresses. -/
structure RouterTells (old new : DestinationAddrs) (sent : List Message) : Prop where
  wellFormed : old.WellFormed → new.WellFormed
  peer : ∀ peer, old.WellFormed → peer.SameAs old → (sent.foldl learnPeer peer).SameAs new
  expected : ∀ peer, old.WellFormed → peer.SameAs old → PeerExpectsAll peer sent
  /-- A router never refuses a destination. -/
  accepts : ∀ msg ∈ sent, msg.messageType = .destinationUpResponse →
    extractStatus msg = some .success

section

variable {old new : DestinationAddrs} {actions : List FsmAction} {msg : Message}

theorem RouterTells.silent (h : sentMessages actions = []) :
    RouterTells old old (sentMessages actions) := by
  rw [h]
  exact ⟨fun h => h, fun _ _ h => h, fun _ _ _ => trivial, by simp⟩

theorem RouterTells.other (h : sentMessages actions = [msg])
    (hne : msg.messageType ≠ .sessionUpdate)
    (hok : msg.messageType = .destinationUpResponse → extractStatus msg = some .success) :
    RouterTells old old (sentMessages actions) := by
  rw [h]
  refine ⟨fun h => h, fun peer _ h => ?_, fun _ _ _ => ⟨fun ht => absurd ht hne, trivial⟩,
    by simpa using hok⟩
  rw [List.foldl_cons, List.foldl_nil, learnPeer_of_ne hne]
  exact h

end

namespace RouterSessionFsm

variable {s s' : RouterSessionFsm} {event : FsmEvent} {actions : List FsmAction}

theorem Transition.tells (h : s.Transition event s' actions) (hs : s.state = .inSession)
    (hs' : s'.state = .inSession) :
    RouterTells s.localAddresses s'.localAddresses (sentMessages actions) := by
  cases h with
  | rejected | ignored | alive | dropAnswered | announceGranted | announceDenied | linkAnswered
  | sessionAnswered | sessionAddressesKept | updateReceived => exact .silent (by simp)
  | connected hs₀ | initialized hs₀ => cases hs.symm.trans hs₀
  | ends h => rcases h.gone with rfl | rfl <;> cases hs'
  | beat | dropSent | announceSent | linkSent =>
    exact .other rfl (fun h => by cases h) fun h => by cases h
  | upReceived => exact .other (by simp; rfl) (fun h => by cases h) fun _ => rfl
  | downReceived => exact .other (by simp; rfl) (fun h => by cases h) fun h => by cases h
  | sessionUpdated =>
    have hne : (buildSessionUpdateResponse .success).messageType ≠ .sessionUpdate :=
      fun h => by cases h
    exact .other (by simp) hne fun h => by cases h
  | sessionAddressesSent =>
    refine ⟨fun h => AddressChanges.wellFormed_applyLenient h _, fun peer hwf hpeer => ?_,
      fun peer hwf hpeer => ⟨fun _ => ?_, trivial⟩, ?_⟩
    · exact learnPeer_addressUpdate hwf (AddressChanges.wellFormed_applyLenient hwf _) hpeer
    · have hnew := AddressChanges.wellFormed_applyLenient hwf
      rw [fromMessage_addressUpdate hwf (hnew _), AddressChanges.applyStrict_between hwf (hnew _) hpeer]
    · simp only [sentMessages_sendMessage, sentMessages_nil, List.mem_singleton]
      rintro _ rfl h
      cases h

end RouterSessionFsm

namespace ModemSessionFsm

variable {s s' : ModemSessionFsm} {event : FsmEvent} {actions : List FsmAction}

/-- A local step that stays in the session leaves the peer's addresses. -/
theorem Transition.peer_local (h : s.Transition event s' actions) (hl : event.isLocal = true)
    (hs : s.state = .inSession) : s'.peerAddresses = s.peerAddresses := by
  cases h with
  | initialized hs₀ => cases hs.symm.trans hs₀
  | sessionUpdated => cases hl
  | _ => rfl

/-- An accepted message changes the peer's addresses as `learnPeer` says. -/
theorem Transition.peer_received {msg : Message} (h : s.Transition (.recvMessage msg) s' actions)
    (hs : s.state = .inSession) (hs' : s'.state = .inSession) :
    s'.peerAddresses = learnPeer s.peerAddresses msg := by
  cases h with
  | rejected hcmd => cases hcmd
  | ignored h => cases h.received (phase_view hs)
  | alive _ hevent =>
    rcases hevent with h | ⟨_, h, -, ht⟩
    · cases h
    · cases h
      rw [learnPeer_of_ne (by rw [ht]; decide)]
  | initialized hs₀ => cases hs.symm.trans hs₀
  | ends h => rcases h.gone with rfl | rfl <;> cases hs'
  | acknowledged _ _ ht | refused _ _ ht | withdrawn _ _ ht | dropAnswered _ _ ht
  | announceDenied _ _ ht | announceGranted _ _ ht | linkDeferred _ _ ht | linkDenied _ _ ht
  | sessionAnswered _ _ ht => rw [learnPeer_of_ne (by rw [ht]; decide)]
  | sessionUpdated _ _ ht hpeer =>
    rw [AddressChanges.applyStrict_ok hpeer, learnPeer, if_pos ht]

end ModemSessionFsm

end Dlep
