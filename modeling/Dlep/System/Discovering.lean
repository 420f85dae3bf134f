-- SUMMARY: Discovery between a router and the modems of a link: what is reported, answered and suppressed in every run.
import Dlep.Daemon.Discovery

/-!
# Discovery on a link

One router and any number of modems share a link that loses, repeats and reorders
datagrams and reports any metadata with them. The only bytes on the link are those
the tasks sent. A modem checks its connected routers when it reads a probe and waits
for its socket before the offer leaves, so its accept loop may run in between. Then
every endpoint the router reports is the listener of one of the modems, an offer
answers a probe read while its router had no connection, and a delivered offer is
reported exactly when its address can be dialled.
-/

namespace Dlep

open DiscoveryTask (Probing SameModem)

/-! ## The router's task alone -/

/-- The router's task as a machine: it has no connected routers to ask. -/
def routerTurn (t : DiscoveryTask RouterDiscoveryFsm) (input : DiscoveryInput) :
    Outcome (DiscoveryTask RouterDiscoveryFsm × List DiscoveryEffect) :=
  .ok (t.turn (fun _ => false) input)

def DiscoveryEffect.isSent : DiscoveryEffect → Bool
  | .sent .. => true
  | .discovered _ => false

/-- The input is an expiry of the discovery timer. -/
def DiscoveryInput.isProbeTimer : DiscoveryInput → Bool
  | .timer _ kind => decide (kind = .discovery)
  | _ => false

/-- What the router reports of a signal: a valid offer, with its usable endpoints. -/
structure Reportable (r : ReceivedSignal) (offer : PeerOffer) : Prop where
  type : r.signal.signalType = .peerOffer
  valid : validSignal r.signal = true
  endpoints : offer.endpoints ≠ []
  offer : offer = PeerOffer.scoped r.interfaceIndex
    ⟨offerEndpoints r.signal r.source, extractPeerDescription r.signal⟩

section

variable {config : RouterDiscoveryConfig} {socket : DiscoverySocket}
  {t : DiscoveryTask RouterDiscoveryFsm}

theorem mem_sent {effect : DiscoveryEffect} {dest : SocketAddr} {sent : Option (List UInt8)}
    (hmem : effect ∈ (sent.map (.sent dest)).toList) :
    ∃ bytes, sent = some bytes ∧ effect = .sent dest bytes := by
  obtain ⟨bytes, hbytes, heq⟩ := Option.map_eq_some_iff.mp (Option.mem_toList.mp hmem)
  exact ⟨bytes, hbytes, heq.symm⟩

theorem isSent_probe (config : RouterDiscoveryConfig) (socket : DiscoverySocket) :
    (config.probe socket).filter DiscoveryEffect.isSent = config.probe socket := by
  unfold RouterDiscoveryConfig.probe
  cases socket.sendToGroup (buildPeerDiscovery config.peerDescription) <;> rfl

theorem isSent_report (r : ReceivedSignal) : r.report.filter DiscoveryEffect.isSent = [] := by
  unfold ReceivedSignal.report
  split <;> rfl

/-- What a running router sends on an input. -/
theorem sent_routerResponse (h : Probing config socket t) (input : DiscoveryInput) :
    (t.routerResponse config input).filter DiscoveryEffect.isSent =
      if input.isProbeTimer then config.probe socket else [] := by
  cases input with
  | datagram now d =>
    simp only [DiscoveryTask.routerResponse]
    split
    · rfl
    · split
      · exact isSent_report _
      · rfl
  | timer id kind =>
    simp only [DiscoveryTask.routerResponse, DiscoveryInput.isProbeTimer]
    by_cases hkind : kind = .discovery
    · simp only [hkind, if_true, decide_true, h.bound, isSent_probe]
    · simp [hkind]
  | shutdown => rfl

theorem mem_report {r : ReceivedSignal} {offer : PeerOffer} :
    .discovered offer ∈ r.report ↔ Reportable r offer := by
  have hsome : (PeerOffer.scoped r.interfaceIndex
      ⟨offerEndpoints r.signal r.source, extractPeerDescription r.signal⟩).endpoints ≠ [] ↔
        offerEndpoints r.signal r.source ≠ [] := by
    simp [PeerOffer.scoped]
  unfold ReceivedSignal.report
  constructor
  · intro hmem
    split at hmem
    · rename_i hreport
      cases List.mem_singleton.mp hmem
      exact ⟨hreport.1, hreport.2.1, hsome.mpr hreport.2.2, rfl⟩
    · cases hmem
  · rintro ⟨htype, hvalid, hendpoints, rfl⟩
    rw [if_pos ⟨htype, hvalid, hsome.mp hendpoints⟩]
    exact List.mem_singleton.mpr rfl

/-- What a running router reports on an input. -/
theorem mem_routerResponse (h : Probing config socket t) {input : DiscoveryInput}
    {offer : PeerOffer} : .discovered offer ∈ t.routerResponse config input ↔
      ∃ now d r, input = .datagram now d ∧ t.receiveAfter ≤ now ∧ socket.receive d = .received r ∧
        Reportable r offer := by
  cases input with
  | datagram now d =>
    simp only [DiscoveryTask.routerResponse, h.bound]
    by_cases hnow : now < t.receiveAfter
    · rw [if_pos hnow]
      refine iff_of_false (by simp) ?_
      rintro ⟨_, _, _, ⟨⟩, hready, -⟩
      omega
    · rw [if_neg hnow]
      cases hreceive : socket.receive d with
      | received r =>
        rw [mem_report]
        refine ⟨fun hr => ⟨now, d, r, rfl, Nat.not_lt.mp hnow, hreceive, hr⟩, ?_⟩
        rintro ⟨_, _, _, ⟨⟩, -, hreceive', hr⟩
        cases hreceive.symm.trans hreceive'
        exact hr
      | filtered | failed =>
        refine iff_of_false (by simp) ?_
        rintro ⟨_, _, _, ⟨⟩, -, hreceive', -⟩
        cases hreceive.symm.trans hreceive'
  | timer id kind =>
    refine iff_of_false (fun hmem => ?_) (by simp)
    simp only [DiscoveryTask.routerResponse] at hmem
    split at hmem
    · obtain ⟨_, -, heq⟩ := mem_sent hmem
      cases heq
    · cases hmem
  | shutdown => exact iff_of_false (by simp [DiscoveryTask.routerResponse]) (by simp)

end

abbrev RouterEntry : Type :=
  Machine.Entry (DiscoveryTask RouterDiscoveryFsm) DiscoveryInput (List DiscoveryEffect)

/-- The router's task after the recorded steps: the first shutdown request ends it. -/
structure ProbeRun (config : RouterDiscoveryConfig) (socket : DiscoverySocket)
    (t : DiscoveryTask RouterDiscoveryFsm) (trace : List RouterEntry) : Prop where
  probing : Probing config socket t
  running : t.running = true ↔ ∀ e ∈ trace, e.input ≠ .shutdown

/-- What a step of the router's task may do, given the steps before it. -/
structure ProbeStep (config : RouterDiscoveryConfig) (socket : DiscoverySocket)
    (past : List RouterEntry) (e : RouterEntry) : Prop where
  /-- After a shutdown request nothing happens. -/
  silent : ∀ e' ∈ past, e'.input = .shutdown → e.output = []
  /-- Before it the probe is sent once per expiry, and nothing else. -/
  sent : (∀ e' ∈ past, e'.input ≠ .shutdown) → e.output.filter DiscoveryEffect.isSent =
    if e.input.isProbeTimer then config.probe socket else []
  /-- And what is reported are the valid offers with a usable endpoint that the socket hands up,
  outside of its back-off. -/
  reported : (∀ e' ∈ past, e'.input ≠ .shutdown) → ∀ offer, .discovered offer ∈ e.output ↔
    ∃ now d r, e.input = .datagram now d ∧ e.before.receiveAfter ≤ now ∧
      socket.receive d = .received r ∧ socket.Admits d r ∧ Reportable r offer

theorem ProbeRun.turn {config : RouterDiscoveryConfig} {socket : DiscoverySocket}
    {t t' : DiscoveryTask RouterDiscoveryFsm} {trace : List RouterEntry} {input : DiscoveryInput}
    {effects : List DiscoveryEffect} (h : ProbeRun config socket t trace)
    (hturn : routerTurn t input = .ok (t', effects)) :
    ProbeRun config socket t' (trace ++ [⟨t, input, effects, t'⟩]) ∧
      ProbeStep config socket trace ⟨t, input, effects, t'⟩ := by
  obtain ⟨heffects, hprobing, hruns⟩ := h.probing.turn input
  rw [Except.ok.inj hturn] at heffects hprobing hruns
  refine ⟨⟨hprobing, ?_⟩, ?_⟩
  · rw [hruns, List.forall_mem_append, ← h.running]
    simp
  · dsimp only at heffects
    subst heffects
    cases hrunning : t.running with
    | false =>
      -- The task has returned.
      have hover : ¬ ∀ e ∈ trace, e.input ≠ .shutdown := fun hall => by
        rw [h.running.mpr hall] at hrunning
        cases hrunning
      exact ⟨fun _ _ _ => rfl, fun hall => absurd hall hover, fun hall => absurd hall hover⟩
    | true =>
      refine ⟨fun e he hshutdown => ?_, fun _ => sent_routerResponse h.probing input,
        fun _ offer => (mem_routerResponse h.probing).trans ?_⟩
      · exact absurd hshutdown (h.running.mp hrunning e he)
      · simp only [DiscoverySocket.receive_eq_received, and_self_left]

/-- An advertised address as a router uses it: link-local ones through the interface the
offer came in on. -/
def SocketAddr.seenOn (index : UInt32) : SocketAddr → SocketAddr
  | .v4 ip port => .v4 ip port
  | .v6 ip port _ _ => .v6 ip port 0 (if ip.isUnicastLinkLocal then index else 0)

theorem scopeLinkLocal_readFrom (index : UInt32) (source endpoint : SocketAddr) :
    (SocketAddr.readFrom source endpoint).scopeLinkLocal index = endpoint.seenOn index := by
  cases endpoint with
  | v4 ip port => rfl
  | v6 ip port flowinfo scopeId =>
    cases source <;> cases h : ip.isUnicastLinkLocal <;>
      simp [SocketAddr.readFrom, SocketAddr.scopeLinkLocal, SocketAddr.seenOn, h]

theorem usable_readFrom (source endpoint : SocketAddr) (useTls : Bool) :
    OfferEndpoint.usable ⟨SocketAddr.readFrom source endpoint, useTls⟩ =
      OfferEndpoint.usable ⟨endpoint, useTls⟩ := by
  cases endpoint <;> rfl

/-- What a router reports of a modem's offer. -/
def reportOf (description : String) (endpoint : SocketAddr) (useTls : Bool) (index : UInt32) :
    List DiscoveryEffect :=
  if OfferEndpoint.usable ⟨endpoint, useTls⟩ then
    [.discovered ⟨[⟨endpoint.seenOn index, useTls⟩], some description⟩]
  else []

section

variable {bytes : List UInt8} {d : Datagram} {r : ReceivedSignal} {socket : DiscoverySocket}

theorem report_peerOffer {description : String} {endpoint : SocketAddr} {useTls : Bool}
    (hsignal : r.signal = buildPeerOffer description endpoint useTls)
    (hvalid : validSignal r.signal = true) :
    r.report = reportOf description endpoint useTls r.interfaceIndex := by
  rw [hsignal] at hvalid
  have htype : (buildPeerOffer description endpoint useTls).signalType = .peerOffer := rfl
  unfold ReceivedSignal.report reportOf
  rw [hsignal, offerEndpoints_peerOffer]
  cases husable : OfferEndpoint.usable ⟨endpoint, useTls⟩ with
  | false => simp [List.filter, usable_readFrom, husable]
  | true =>
    simp [List.filter, usable_readFrom, husable, hvalid, PeerOffer.scoped,
      scopeLinkLocal_readFrom, extractPeerDescription_peerOffer, htype]

/-! ## The link -/

/-- The fixed parts of a modem's discovery. -/
structure ModemSetup where
  socket : DiscoverySocket
  tcpEndpoint : SocketAddr
  peerDescription : String
  useTls : Bool

/-- The offer to the routers that reach the modem at `localAddr`. -/
def ModemSetup.offerAt (setup : ModemSetup) (localAddr : IpAddr) : Signal :=
  buildPeerOffer setup.peerDescription (setup.tcpEndpoint.reachableAt localAddr) setup.useTls

/-- The bytes of the offer that answers a signal, if it can be sent. -/
def ModemSetup.answer (setup : ModemSetup) (r : ReceivedSignal) : List DiscoveryEffect :=
  ((setup.socket.sendUnicast (setup.offerAt r.localAddr) r.source).map (.sent r.source)).toList

/-- The task is that of the modem. -/
structure ModemSetup.Runs (setup : ModemSetup) (t : DiscoveryTask ModemDiscoveryFsm) : Prop where
  tcpEndpoint : t.fsm.tcpEndpoint = setup.tcpEndpoint
  peerDescription : t.fsm.peerDescription = setup.peerDescription
  useTls : t.fsm.useTls = setup.useTls
  socket : t.socket = setup.socket

theorem ModemSetup.Runs.same {setup : ModemSetup} {t t' : DiscoveryTask ModemDiscoveryFsm}
    (h : setup.Runs t) (hsame : SameModem t t') : setup.Runs t' :=
  ⟨hsame.tcpEndpoint.trans h.tcpEndpoint, hsame.peerDescription.trans h.peerDescription,
    hsame.useTls.trans h.useTls, hsame.socket.trans h.socket⟩

theorem ModemSetup.Runs.answer {setup : ModemSetup} {t : DiscoveryTask ModemDiscoveryFsm}
    (h : setup.Runs t) (r : ReceivedSignal) : t.fsm.answer t.socket r = setup.answer r := by
  unfold ModemDiscoveryFsm.answer ModemSetup.answer ModemSetup.offerAt
  rw [h.tcpEndpoint, h.peerDescription, h.useTls, h.socket]

/-- A probe of the router. -/
theorem encode_of_probe {config : RouterDiscoveryConfig} {dest : SocketAddr}
    (hmem : .sent dest bytes ∈ config.probe socket) :
    (buildPeerDiscovery config.peerDescription).encode = .ok bytes := by
  obtain ⟨b, hb, heq⟩ := mem_sent hmem
  cases heq
  exact DiscoverySocket.encode_of_sendUnicast hb

end

/-- A modem: its discovery task, what that waits to send, its table of connected routers, and the
guards that its connections hold. -/
structure ModemParty where
  task : DiscoveryTask ModemDiscoveryFsm
  pending : List DiscoveryEffect
  routers : ConnectedRouters
  guards : List RouterAddress

structure Link (M : Type) where
  router : DiscoveryTask RouterDiscoveryFsm
  modem : M → ModemParty
  /-- Everything ever sent: any of it may arrive at any time. -/
  packets : List (List UInt8)

/-- The bytes an effect puts on the link. -/
def DiscoveryEffect.bytes : DiscoveryEffect → Option (List UInt8)
  | .sent _ bytes => some bytes
  | .discovered _ => none

/-- A datagram carries bytes that were sent. -/
def DiscoveryInput.carried (packets : List (List UInt8)) : DiscoveryInput → Bool
  | .datagram _ d => packets.contains d.payload
  | _ => true

namespace Link

variable {M : Type} {input : DiscoveryInput} {r : ReceivedSignal} {d : Datagram}

inductive Input (M : Type) where
  | router (input : DiscoveryInput)
  | modem (m : M) (input : DiscoveryInput)
  /-- The socket of a modem takes what its task waits to send. -/
  | sends (m : M)
  | accept (m : M) (peer : SocketAddr)
  | release (m : M) (address : RouterAddress)

/-- One input; a datagram that nobody sent and a guard that nobody holds do nothing. A modem's
turn is cut where it waits for its socket, and its task reads nothing until it has sent. The
router shares nothing with others, so its turn needs no cut: what it sends may arrive late. -/
def step [DecidableEq M] (link : Link M) : Input M → Outcome (Link M × List DiscoveryEffect)
  | .router input =>
    if input.carried link.packets then
      let (task, effects) := link.router.turn (fun _ => false) input
      .ok ({ link with
        router := task, packets := link.packets ++ effects.filterMap DiscoveryEffect.bytes }, effects)
    else .ok (link, [])
  | .modem m input =>
    let party := link.modem m
    if party.pending = [] ∧ input.carried link.packets then
      let (task, effects) := party.task.turn party.routers.contains input
      .ok ({ link with
        modem := Function.update link.modem m { party with task := task, pending := effects } }, [])
    else .ok (link, [])
  | .sends m =>
    let party := link.modem m
    .ok ({ link with
      modem := Function.update link.modem m { party with pending := [] }
      packets := link.packets ++ party.pending.filterMap DiscoveryEffect.bytes }, party.pending)
  | .accept m peer =>
    let party := link.modem m
    let (routers, address) := party.routers.register peer
    .ok ({ link with
      modem := Function.update link.modem m
        { party with routers := routers, guards := address :: party.guards } }, [])
  | .release m address => do
    let party := link.modem m
    if address ∈ party.guards then
      let routers ← party.routers.release address
      .ok ({ link with
        modem := Function.update link.modem m
          { party with routers := routers, guards := party.guards.erase address } }, [])
    else .ok (link, [])

/-- Every task as its daemon spawns it. -/
def start (config : RouterDiscoveryConfig) (socket : DiscoverySocket) (setup : M → ModemSetup)
    (now : ℕ) : Link M where
  router := (DiscoveryTask.spawn (RouterDiscoveryFsm.withConfig config) socket now
    (some .appStartDiscovery)).1
  modem m :=
    { task := (DiscoveryTask.spawn (ModemDiscoveryFsm.new (setup m).tcpEndpoint
        (setup m).peerDescription (setup m).useTls) (setup m).socket now none).1
      pending := []
      routers := .default
      guards := [] }
  packets := (config.probe socket).filterMap DiscoveryEffect.bytes

abbrev Entry (M : Type) : Type := Machine.Entry (Link M) (Input M) (List DiscoveryEffect)

/-- The socket of a running modem that has nothing to send hands up `r` from a datagram of the
link. -/
structure Reads (setup : M → ModemSetup) (link : Link M) (m : M) (now : ℕ) (d : Datagram)
    (r : ReceivedSignal) : Prop where
  running : (link.modem m).task.running = true
  idle : (link.modem m).pending = []
  ready : (link.modem m).task.receiveAfter ≤ now
  packet : d.payload ∈ link.packets
  received : (setup m).socket.receive d = .received r
  admitted : (setup m).socket.Admits d r

/-- Modem `m` read a probe of the router, as `r`, in the step `e`. -/
def ReadProbe (config : RouterDiscoveryConfig) (setup : M → ModemSetup) (e : Entry M) (m : M)
    (r : ReceivedSignal) : Prop :=
  r.signal = buildPeerDiscovery config.peerDescription ∧
    ∃ now d, e.input = .modem m (.datagram now d) ∧ Reads setup e.before m now d r

/-- Modem `m` read a probe of the router, and its kernel reported `localAddr`. -/
def Met (config : RouterDiscoveryConfig) (setup : M → ModemSetup) (trace : List (Entry M)) (m : M)
    (localAddr : IpAddr) : Prop :=
  ∃ e ∈ trace, ∃ r, ReadProbe config setup e m r ∧ r.localAddr = localAddr

/-- The bytes are the offer of modem `m` to `dest`, which had no connection with it when the modem
read its probe. -/
def Answers (config : RouterDiscoveryConfig) (setup : M → ModemSetup) (trace : List (Entry M))
    (m : M) (dest : SocketAddr) (bytes : List UInt8) : Prop :=
  ∃ e ∈ trace, ∃ r, ReadProbe config setup e m r ∧ dest = r.source ∧
    routerAddress dest ∉ (e.before.modem m).guards ∧
    ((setup m).offerAt r.localAddr).encode = .ok bytes

/-- What holds of the link after the recorded steps. -/
structure Sound (config : RouterDiscoveryConfig) (socket : DiscoverySocket) (setup : M → ModemSetup)
    (link : Link M) (trace : List (Entry M)) : Prop where
  router : Probing config socket link.router
  modem : ∀ m, (setup m).Runs (link.modem m).task
  counts : ∀ m, (link.modem m).routers.Counts (link.modem m).guards
  pending : ∀ m, ∀ effect ∈ (link.modem m).pending, ∃ dest bytes, effect = .sent dest bytes ∧
    Answers config setup trace m dest bytes
  /-- All bytes are a probe, or the offer of a modem that read one. -/
  packets : ∀ p ∈ link.packets, (buildPeerDiscovery config.peerDescription).encode = .ok p ∨
    ∃ m dest, Answers config setup trace m dest p

/-- What a step may do, given the steps before it. -/
structure Lawful (config : RouterDiscoveryConfig) (socket : DiscoverySocket) (setup : M → ModemSetup)
    (past : List (Entry M)) (e : Entry M) : Prop where
  /-- A reported endpoint is the listener of a modem that read a probe, as its offer came in. -/
  discovered : ∀ offer, .discovered offer ∈ e.output → ∃ now d r m localAddr,
    e.input = .router (.datagram now d) ∧ socket.receive d = .received r ∧ socket.Admits d r ∧
    Met config setup past m localAddr ∧ r.signal = (setup m).offerAt localAddr ∧
    offer = ⟨[⟨((setup m).tcpEndpoint.reachableAt localAddr).seenOn r.interfaceIndex,
      (setup m).useTls⟩], some (setup m).peerDescription⟩
  /-- A modem sends only such answers. -/
  sent : ∀ m, e.input = .sends m → ∀ effect ∈ e.output, ∃ dest bytes, effect = .sent dest bytes ∧
    Answers config setup past m dest bytes
  /-- A probe of a connected router is dropped. -/
  suppressed : ∀ m now d r, e.input = .modem m (.datagram now d) →
    (setup m).socket.receive d = .received r → r.signal.signalType = .peerDiscovery →
    routerAddress r.source ∈ (e.before.modem m).guards → e.after = e.before

variable {config : RouterDiscoveryConfig} {socket : DiscoverySocket} {setup : M → ModemSetup}
  {link link' : Link M} {trace : List (Entry M)} {effects : List DiscoveryEffect}

theorem step_router [DecidableEq M] (hcarried : input.carried link.packets = true) :
    link.step (.router input) = .ok ({ link with
      router := (link.router.turn (fun _ => false) input).1
      packets := link.packets ++
        (link.router.turn (fun _ => false) input).2.filterMap DiscoveryEffect.bytes },
      (link.router.turn (fun _ => false) input).2) := if_pos hcarried

theorem step_modem [DecidableEq M] {m : M} (hidle : (link.modem m).pending = [])
    (hcarried : input.carried link.packets = true) :
    link.step (.modem m input) = .ok ({ link with
      modem := Function.update link.modem m { link.modem m with
        task := ((link.modem m).task.turn (link.modem m).routers.contains input).1
        pending := ((link.modem m).task.turn (link.modem m).routers.contains input).2 } }, []) :=
  if_pos ⟨hidle, hcarried⟩

theorem Answers.snoc {m : M} {dest : SocketAddr} {bytes : List UInt8}
    (h : Answers config setup trace m dest bytes) (e : Entry M) :
    Answers config setup (trace ++ [e]) m dest bytes := by
  obtain ⟨e', he', hanswers⟩ := h
  exact ⟨e', List.mem_append_left _ he', hanswers⟩

/-- A sound link stays so while nothing is done, whatever is recorded. -/
theorem Sound.snoc (h : Sound config socket setup link trace) (e : Entry M) :
    Sound config socket setup link (trace ++ [e]) where
  router := h.router
  modem := h.modem
  counts := h.counts
  pending m effect hmem := by
    obtain ⟨dest, bytes, heq, hanswers⟩ := h.pending m effect hmem
    exact ⟨dest, bytes, heq, hanswers.snoc e⟩
  packets p hp := (h.packets p hp).imp_right fun ⟨m, dest, hanswers⟩ => ⟨m, dest, hanswers.snoc e⟩

theorem mem_bytes {p : List UInt8} (hp : p ∈ effects.filterMap DiscoveryEffect.bytes) :
    ∃ dest, .sent dest p ∈ effects := by
  obtain ⟨effect, hmem, heq⟩ := List.mem_filterMap.mp hp
  cases effect with
  | sent dest bytes =>
    cases heq
    exact ⟨dest, hmem⟩
  | discovered offer => cases heq

/-- What is sent is on the link. -/
theorem Sound.send (h : Sound config socket setup link trace)
    (hsent : ∀ dest p, .sent dest p ∈ effects →
      (buildPeerDiscovery config.peerDescription).encode = .ok p ∨
        ∃ m dest, Answers config setup trace m dest p) :
    Sound config socket setup { link with
      packets := link.packets ++ effects.filterMap DiscoveryEffect.bytes } trace := by
  refine ⟨h.router, h.modem, h.counts, h.pending, fun p hp => ?_⟩
  rcases List.mem_append.mp hp with hp | hp
  · exact h.packets p hp
  · obtain ⟨dest, hmem⟩ := mem_bytes hp
    exact hsent dest p hmem

/-- One of the modems is replaced. -/
theorem Sound.party [DecidableEq M] (h : Sound config socket setup link trace) (m : M)
    (party : ModemParty) (hcounts : party.routers.Counts party.guards)
    (hruns : (setup m).Runs party.task)
    (hpending : ∀ effect ∈ party.pending, ∃ dest bytes, effect = .sent dest bytes ∧
      Answers config setup trace m dest bytes) :
    Sound config socket setup { link with modem := Function.update link.modem m party } trace := by
  refine ⟨h.router, fun m' => ?_, fun m' => ?_, fun m' => ?_, h.packets⟩
  all_goals
    dsimp only
    by_cases heq : m' = m
    · subst heq
      rwa [Function.update_self]
    rw [Function.update_of_ne heq]
  · exact h.modem m'
  · exact h.counts m'
  · exact h.pending m'

/-- A signal that arrives over the link is a probe, or the offer of a modem that read one. -/
theorem Sound.signal (h : Sound config socket setup link trace) {s : DiscoverySocket}
    (hpacket : d.payload ∈ link.packets) (hadmits : s.Admits d r) :
    validSignal r.signal = true ∧ (r.signal = buildPeerDiscovery config.peerDescription ∨
      ∃ m localAddr, Met config setup trace m localAddr ∧
        r.signal = (setup m).offerAt localAddr) := by
  have hdecode := hadmits.decoded
  rcases h.packets _ hpacket with hprobe | ⟨m, dest, e, he, r', hread, -, -, hoffer⟩
  · obtain ⟨hprobe, hvalid⟩ := peerDiscovery_round_trip hprobe
    have hsignal := Except.ok.inj (hdecode.symm.trans hprobe)
    exact ⟨hsignal ▸ hvalid, .inl hsignal⟩
  · obtain ⟨hoffer, hvalid⟩ := peerOffer_round_trip hoffer
    have hsignal := Except.ok.inj (hdecode.symm.trans hoffer)
    exact ⟨hsignal ▸ hvalid, .inr ⟨m, r'.localAddr, ⟨e, he, r', hread, rfl⟩, hsignal⟩⟩

/-- What the running router reports of a signal from the link. -/
theorem Sound.report (h : Sound config socket setup link trace) (hpacket : d.payload ∈ link.packets)
    (hadmits : socket.Admits d r) :
    (r.signal = buildPeerDiscovery config.peerDescription ∧ r.report = []) ∨
      ∃ m localAddr, Met config setup trace m localAddr ∧ r.signal = (setup m).offerAt localAddr ∧
        r.report = reportOf (setup m).peerDescription
          ((setup m).tcpEndpoint.reachableAt localAddr) (setup m).useTls r.interfaceIndex := by
  obtain ⟨hvalid, hprobe | ⟨m, localAddr, hmet, hoffer⟩⟩ := h.signal hpacket hadmits
  · refine .inl ⟨hprobe, if_neg fun hreport => ?_⟩
    have htype := hreport.1
    rw [hprobe] at htype
    cases htype
  · exact .inr ⟨m, localAddr, hmet, hoffer, report_peerOffer hoffer hvalid⟩

/-- The router's part of a step. -/
theorem Sound.router_turn (h : Sound config socket setup link trace)
    (hcarried : input.carried link.packets = true) :
    (∀ dest bytes, .sent dest bytes ∈ (link.router.turn (fun _ => false) input).2 →
      (buildPeerDiscovery config.peerDescription).encode = .ok bytes) ∧
    ∀ offer, .discovered offer ∈ (link.router.turn (fun _ => false) input).2 →
      ∃ now d r m localAddr, input = .datagram now d ∧ socket.receive d = .received r ∧
        socket.Admits d r ∧ Met config setup trace m localAddr ∧
        r.signal = (setup m).offerAt localAddr ∧
        offer = ⟨[⟨((setup m).tcpEndpoint.reachableAt localAddr).seenOn r.interfaceIndex,
          (setup m).useTls⟩], some (setup m).peerDescription⟩ := by
  obtain ⟨heffects, -, -⟩ := h.router.turn input
  rw [heffects]
  split
  swap
  · exact ⟨by simp, by simp⟩
  constructor
  · intro dest bytes hmem
    have hsent : .sent dest bytes ∈
        (link.router.routerResponse config input).filter DiscoveryEffect.isSent :=
      List.mem_filter.mpr ⟨hmem, rfl⟩
    rw [sent_routerResponse h.router input] at hsent
    split at hsent
    · exact encode_of_probe hsent
    · cases hsent
  · intro offer hmem
    obtain ⟨now, d, r, rfl, -, hreceive, hreportable⟩ := (mem_routerResponse h.router).mp hmem
    have hadmits := DiscoverySocket.receive_eq_received.mp hreceive
    have hpacket : d.payload ∈ link.packets := by simpa [DiscoveryInput.carried] using hcarried
    have hreport := mem_report.mpr hreportable
    obtain ⟨-, hnone⟩ | ⟨m, localAddr, hmet, hoffer, heq⟩ := h.report hpacket hadmits
    · rw [hnone] at hreport
      cases hreport
    · rw [heq, reportOf] at hreport
      split at hreport
      · cases List.mem_singleton.mp hreport
        exact ⟨now, d, r, m, localAddr, rfl, hreceive, hadmits, hmet, hoffer, rfl⟩
      · cases hreport

/-- What a modem makes of a signal from the link. -/
theorem Sound.turn_reads (h : Sound config socket setup link trace) {m : M} {now : ℕ}
    (hreads : Reads setup link m now d r) :
    ((link.modem m).task.turn (link.modem m).routers.contains (.datagram now d)).2 =
      if r.signal = buildPeerDiscovery config.peerDescription ∧
          routerAddress r.source ∉ (link.modem m).guards then
        (setup m).answer r
      else [] := by
  have hruns := h.modem m
  have hcontains := (h.counts m).contains r.source
  have hsignal : r.signal.signalType = .peerDiscovery ∧ validSignal r.signal = true ↔
      r.signal = buildPeerDiscovery config.peerDescription := by
    obtain ⟨hvalid, hprobe | ⟨m', localAddr, -, hoffer⟩⟩ := h.signal hreads.packet hreads.admitted
    · exact iff_of_true ⟨by rw [hprobe]; rfl, hvalid⟩ hprobe
    · -- An offer is no Peer Discovery.
      rw [hoffer]
      exact iff_of_false (fun h => by cases h.1) (fun h => by cases congrArg Signal.signalType h)
  rw [(DiscoveryTask.turn_modem _ _).1, if_pos hreads.running]
  simp only [DiscoveryTask.modemResponse, Nat.not_lt.mpr hreads.ready, if_false, hruns.socket,
    hreads.received]
  rw [← hruns.socket, hruns.answer]
  refine if_congr ?_ rfl rfl
  rw [← hsignal, ← hcontains, and_assoc, Bool.not_eq_true]

/-- A modem answers nothing else. -/
theorem Sound.reads_of_turn (h : Sound config socket setup link trace) {m : M}
    (hidle : (link.modem m).pending = []) (hcarried : input.carried link.packets = true)
    {effect : DiscoveryEffect}
    (hmem : effect ∈ ((link.modem m).task.turn (link.modem m).routers.contains input).2) :
    ∃ now d r, input = .datagram now d ∧ Reads setup link m now d r := by
  rw [(DiscoveryTask.turn_modem _ _).1] at hmem
  split at hmem
  swap
  · cases hmem
  rename_i hrunning
  cases input with
  | timer | shutdown => cases hmem
  | datagram now d =>
    simp only [DiscoveryTask.modemResponse] at hmem
    split at hmem
    · cases hmem
    · rename_i hready
      split at hmem
      · rename_i r hreceive
        rw [(h.modem m).socket] at hreceive
        exact ⟨now, d, r, rfl, hrunning, hidle, Nat.not_lt.mp hready,
          by simpa [DiscoveryInput.carried] using hcarried, hreceive,
          DiscoverySocket.receive_eq_received.mp hreceive⟩
      · cases hmem

/-- What a modem waits to send answers the probe that it read. -/
theorem Sound.answers_of_turn (h : Sound config socket setup link trace) {m : M}
    (hidle : (link.modem m).pending = []) (hcarried : input.carried link.packets = true)
    (link' : Link M) :
    ∀ effect ∈ ((link.modem m).task.turn (link.modem m).routers.contains input).2,
      ∃ dest bytes, effect = .sent dest bytes ∧
        Answers config setup (trace ++ [⟨link, .modem m input, [], link'⟩]) m dest bytes := by
  intro effect hmem
  obtain ⟨now, d, r, rfl, hreads⟩ := h.reads_of_turn hidle hcarried hmem
  rw [h.turn_reads hreads] at hmem
  split at hmem
  · rename_i hprobe
    obtain ⟨bytes, hbytes, rfl⟩ := mem_sent hmem
    exact ⟨r.source, bytes, rfl, _, List.mem_append_right _ (List.mem_singleton.mpr rfl), r,
      ⟨hprobe.1, now, d, rfl, hreads⟩, rfl, hprobe.2, DiscoverySocket.encode_of_sendUnicast hbytes⟩
  · cases hmem

/-- A probe of a connected router changes nothing. -/
theorem Sound.step_suppressed [DecidableEq M] (h : Sound config socket setup link trace) {m : M}
    {now : ℕ} (hreceive : (setup m).socket.receive d = .received r)
    (htype : r.signal.signalType = .peerDiscovery)
    (hheld : routerAddress r.source ∈ (link.modem m).guards) :
    link.step (.modem m (.datagram now d)) = .ok (link, []) := by
  have hturn : (link.modem m).task.turn (link.modem m).routers.contains (.datagram now d) =
      ((link.modem m).task, []) := by
    rw [← (h.modem m).socket] at hreceive
    simp [DiscoveryTask.turn, DiscoveryTask.onDatagram, hreceive, htype,
      ((h.counts m).contains r.source).mpr hheld]
  simp only [Link.step, hturn]
  split
  · rename_i hidle
    rw [← hidle.1, Function.update_eq_self]
  · rfl

/-- A step that records no report, no sending and no reading. -/
theorem Lawful.quiet {e : Entry M} (hoffers : ∀ offer, .discovered offer ∉ e.output)
    (hsends : ∀ m, e.input ≠ .sends m) (hreads : ∀ m input, e.input ≠ .modem m input) :
    Lawful config socket setup trace e :=
  ⟨fun offer hmem => absurd hmem (hoffers offer), fun m h => absurd h (hsends m),
    fun m _ _ _ h => absurd h (hreads m _)⟩

/-- Every step succeeds, keeps the link sound and is lawful. -/
theorem Sound.step [DecidableEq M] (h : Sound config socket setup link trace) (input : Input M) :
    ∃ link' effects, link.step input = .ok (link', effects) ∧
      Sound config socket setup link' (trace ++ [⟨link, input, effects, link'⟩]) ∧
      Lawful config socket setup trace ⟨link, input, effects, link'⟩ := by
  cases input with
  | router input =>
    by_cases hcarried : input.carried link.packets = true
    · obtain ⟨hsent, hdiscovered⟩ := h.router_turn hcarried
      have hturned : Sound config socket setup
          { link with router := (link.router.turn (fun _ => false) input).1 } trace :=
        ⟨(h.router.turn input).2.1, h.modem, h.counts, h.pending, h.packets⟩
      refine ⟨_, _, step_router hcarried, (hturned.send fun dest p hmem => .inl (hsent dest p hmem)).snoc _,
        fun offer hmem => ?_, by simp, by simp⟩
      obtain ⟨now, d, r, m, localAddr, rfl, hreport⟩ := hdiscovered offer hmem
      exact ⟨now, d, r, m, localAddr, rfl, hreport⟩
    · exact ⟨_, _, if_neg hcarried, h.snoc _, .quiet (by simp) (by simp) (by simp)⟩
  | modem m input =>
    have hsuppressed : ∀ link' m' now d r, Input.modem m input = .modem m' (.datagram now d) →
        (setup m').socket.receive d = .received r → r.signal.signalType = .peerDiscovery →
        routerAddress r.source ∈ (link.modem m').guards →
        link.step (.modem m input) = .ok (link', []) → link' = link := by
      rintro link' m' now d r ⟨⟩ hreceive htype hheld hstep
      cases (h.step_suppressed hreceive htype hheld).symm.trans hstep
      rfl
    by_cases hidle : (link.modem m).pending = [] ∧ input.carried link.packets = true
    · have hstep := step_modem hidle.1 hidle.2
      refine ⟨_, _, hstep, (h.snoc _).party m ⟨_, _, _, _⟩ (h.counts m)
        ((h.modem m).same (DiscoveryTask.turn_modem _ _).2) (h.answers_of_turn hidle.1 hidle.2 _),
        by simp, by simp, fun m' now d r heq hreceive htype hheld => ?_⟩
      exact hsuppressed _ m' now d r heq hreceive htype hheld hstep
    · have hstep : link.step (.modem m input) = .ok (link, []) := if_neg hidle
      exact ⟨_, _, hstep, h.snoc _, by simp, by simp, fun _ _ _ _ _ _ _ _ => rfl⟩
  | sends m =>
    have hsent : Sound config socket setup { link with
        packets := link.packets ++ (link.modem m).pending.filterMap DiscoveryEffect.bytes } trace :=
      h.send fun dest p hmem => by
        obtain ⟨_, _, heq, hanswers⟩ := h.pending m _ hmem
        cases heq
        exact .inr ⟨m, dest, hanswers⟩
    refine ⟨_, _, rfl, (hsent.party m ⟨_, [], _, _⟩ (h.counts m) (h.modem m) (by simp)).snoc _,
      fun offer hmem => ?_, fun m' heq => ?_, by simp⟩
    · obtain ⟨_, _, heq, -⟩ := h.pending m _ hmem
      cases heq
    · cases heq
      exact h.pending m
  | accept m peer =>
    exact ⟨_, _, rfl, (h.party m ⟨_, _, _, _⟩ ((h.counts m).register peer) (h.modem m)
      (h.pending m)).snoc _, .quiet (by simp) (by simp) (by simp)⟩
  | release m address =>
    simp only [Link.step]
    split
    · rename_i hheld
      obtain ⟨routers, hrelease, hcounts⟩ := (h.counts m).release hheld
      rw [hrelease]
      exact ⟨_, _, rfl, (h.party m ⟨_, _, _, _⟩ hcounts (h.modem m) (h.pending m)).snoc _,
        .quiet (by simp) (by simp) (by simp)⟩
    · exact ⟨_, _, rfl, h.snoc _, .quiet (by simp) (by simp) (by simp)⟩

theorem Sound.of_step [DecidableEq M] (h : Sound config socket setup link trace) {input : Input M}
    (hstep : link.step input = .ok (link', effects)) :
    Sound config socket setup link' (trace ++ [⟨link, input, effects, link'⟩]) ∧
      Lawful config socket setup trace ⟨link, input, effects, link'⟩ := by
  obtain ⟨_, _, hsteps, hsound⟩ := h.step input
  cases hsteps.symm.trans hstep
  exact hsound

/-! ## Runs of the link -/

section

variable (config : RouterDiscoveryConfig) (socket : DiscoverySocket) (setup : M → ModemSetup)
  (now : ℕ)

theorem sound_start : Sound config socket setup (start config socket setup now) [] := by
  refine ⟨(DiscoveryTask.spawn_router config socket now).2, fun m => ⟨rfl, rfl, rfl, rfl⟩,
    fun m => ConnectedRouters.counts_default, fun m effect hmem => ?_, fun p hp => ?_⟩
  · cases hmem
  · obtain ⟨dest, hmem⟩ := mem_bytes hp
    exact .inl (encode_of_probe hmem)

variable [DecidableEq M] (inputs : List (Input M))

/-- Every sequence of inputs is a run, and its end is sound. -/
theorem run_sound :
    ∃ link trace, Machine.run step (start config socket setup now) inputs = .ok (link, trace) ∧
      Sound config socket setup link trace ∧
      ∀ past e, past ++ [e] <+: trace → Lawful config socket setup past e := by
  have hstart := sound_start config socket setup now
  obtain ⟨link, trace, hrun⟩ := Machine.run_total
    (I := fun link => ∃ trace, Sound config socket setup link trace)
    (fun link input ⟨trace, h⟩ =>
      have ⟨link', effects, hstep, hsound, _⟩ := h.step input
      ⟨link', effects, hstep, _, hsound⟩) inputs ⟨[], hstart⟩
  refine ⟨link, trace, hrun, ?_, ?_⟩
  · exact Machine.run_history (fun link trace input link' effects h hstep => (h.of_step hstep).1)
      hstart hrun
  · exact Machine.run_points (J := Sound config socket setup)
      (fun link trace input link' effects h hstep => h.of_step hstep) hstart hrun

/-- In every run on a link that loses, repeats and reorders datagrams and reports any metadata,
each endpoint the router reports is the listener of a modem whose socket handed up one of its
probes: at the address the kernel reported with that probe, if it listens on all of them. -/
theorem reports_only_listeners :
    ∃ link trace, Machine.run step (start config socket setup now) inputs = .ok (link, trace) ∧
      ∀ past e, past ++ [e] <+: trace → ∀ offer, .discovered offer ∈ e.output →
        ∃ now d r m localAddr, e.input = .router (.datagram now d) ∧
          socket.receive d = .received r ∧ socket.Admits d r ∧ Met config setup past m localAddr ∧
          r.signal = (setup m).offerAt localAddr ∧
          offer = ⟨[⟨((setup m).tcpEndpoint.reachableAt localAddr).seenOn r.interfaceIndex,
            (setup m).useTls⟩], some (setup m).peerDescription⟩ := by
  obtain ⟨link, trace, hrun, -, hlawful⟩ := run_sound config socket setup now inputs
  exact ⟨link, trace, hrun, fun past e hpoint => (hlawful past e hpoint).discovered⟩

end

section

variable [DecidableEq M]

end

end Link

end Dlep
