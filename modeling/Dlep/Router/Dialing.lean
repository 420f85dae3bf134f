-- SUMMARY: The connection driver never dials a peer twice at once and never loses one, in every run of its loop.
import Dlep.Router.Peers

/-!
# Dialling

The top of the loop reads the registry's snapshot, suspends the deadlines of what is being
dialled and starts queued peers. A read establishes the invariant anew from the registry,
so that every run keeps it.
-/

namespace Dlep

namespace ConnectionDriver

variable {d : ConnectionDriver} {peer : SocketAddr} {now : Instant} {i : ℕ}
  {x : ConnectAttempts.Attempt} {f : ConnectionDriver}

/-! ## The top of the loop -/

theorem dueAt_foldl_suspend (peers : List SocketAddr) (q : ReconnectQueue) :
    (peers.foldl ReconnectQueue.suspend q).dueAt peer =
      if peer ∈ peers then none else q.dueAt peer := by
  induction peers generalizing q with
  | nil => simp
  | cons addr peers ih =>
    rw [List.foldl_cons, ih, ReconnectQueue.dueAt_suspend]
    by_cases hmem : peer ∈ peers
    · simp [hmem]
    · by_cases heq : peer = addr <;> simp [hmem, heq]

theorem contains_foldl_suspend (peers : List SocketAddr) (q : ReconnectQueue) :
    (peers.foldl ReconnectQueue.suspend q).contains peer = q.contains peer := by
  induction peers generalizing q with
  | nil => rfl
  | cons addr peers ih => rw [List.foldl_cons, ih, ReconnectQueue.contains_suspend]

theorem dueAt_suspendReserved : d.suspendReserved.reconnect.dueAt peer =
    if peer ∈ d.attempts.reserved then none else d.reconnect.dueAt peer := by
  unfold suspendReserved
  rw [dueAt_foldl_suspend]
  simp only [Finset.mem_sort]

/-- What holds at the top once the deadlines of dialled peers are suspended. -/
structure Steady (d : ConnectionDriver) : Prop where
  consistent : d.Consistent
  reconciled : d.Reconciled
  quiet : ∀ peer ∈ d.attempts.reserved, d.reconnect.dueAt peer = none

theorem Reconciled.suspendReserved (h : d.Reconciled) (hc : d.Consistent) :
    d.suspendReserved.Steady := by
  have hdue : ∀ peer, (d.reconnect.dueAt peer).isSome = true → peer ∈ d.attempts.reserved ∨
      (d.suspendReserved.reconnect.dueAt peer).isSome = true := by
    intro peer hsome
    rw [dueAt_suspendReserved]
    split
    · rename_i hin
      exact .inl hin
    · exact .inr hsome
  have hplaced : ∀ peer, d.Placed peer → Placed
      { d with attempts := d.attempts, reconnect := d.suspendReserved.reconnect } peer := by
    rintro peer (hin | hsome | hin)
    · exact .inl hin
    · exact (hdue peer hsome).imp_right .inl
    · exact .inr (.inr hin)
  have hfits : d.Fits d.attempts d.suspendReserved.reconnect d.startup := by
    refine ⟨hc.attempts, h.apart, fun peer hin => ⟨(hc.offered peer hin).1, h.fresh peer hin⟩, ?_,
      ?_, fun peer hin => (hc.queued peer hin).imp_right (hplaced peer), ?_⟩
    · intro peer hin
      rw [dueAt_suspendReserved]
      split
      · rfl
      · exact h.quiet peer hin
    · intro peer hin
      rcases h.awaited peer hin with hmem | hmem | hsome
      · exact .inl hmem
      · exact .inr (.inl hmem)
      · exact .inr (hdue peer hsome)
    · intro peer hin hmem
      refine hplaced peer (hc.retried peer hin ?_)
      rwa [ConnectionDriver.suspendReserved, contains_foldl_suspend] at hmem
  obtain ⟨hc', hr'⟩ := hfits.update hc h
  refine ⟨hc', hr', fun peer hin => ?_⟩
  rw [dueAt_suspendReserved]
  exact if_pos hin

/-- The head of the startup queue may go once it has a place. -/
theorem Steady.pop {rest : List SocketAddr} (h : Steady { d with startup := peer :: rest })
    (hplaced : peer ∈ d.pinned → d.Placed peer) : Steady { d with startup := rest } := by
  have hc := h.consistent
  have hr := h.reconciled
  refine ⟨⟨hc.valid, hc.pinned, hc.modes, hc.attempts, hc.idle, hc.offered, ?_, hc.retried,
    hc.remembered⟩, ⟨hr.connected, hr.tracked, hr.known, hr.fresh, hr.apart, hr.quiet, hr.awaited⟩,
    h.quiet⟩
  intro other hin
  rcases hc.queued other hin with hmem | hwhy
  · rcases List.mem_cons.mp hmem with rfl | hmem
    · exact .inr (hplaced hin)
    · exact .inl hmem
  · exact .inr hwhy

/-- A static peer that is neither connected nor in the retry queue may be dialled. -/
theorem Steady.start {startup : List SocketAddr} (h : Steady { d with startup })
    (hconnected : peer ∉ d.connected) (hqueue : d.reconnect.contains peer = false) :
    Steady { d with attempts := (d.attempts.startStatic peer).1, startup } := by
  have hc := h.consistent
  have hr := h.reconciled
  have hstart := hc.attempts.startStatic peer
  have hfits : Fits { d with startup } (d.attempts.startStatic peer).1 d.reconnect startup := by
    refine ⟨hstart.sound, ?_, ?_, hr.quiet, ?_, ?_, ?_⟩
    · intro other hin
      rcases hstart.new other hin with hin | hin
      · exact hr.apart other hin
      · rw [List.mem_singleton.mp hin]
        exact hconnected
    · intro other hin
      have hold := (hstart.offered other hin).resolve_right fun hnone => nomatch hnone.1
      exact ⟨(hc.offered other hold).1, hr.fresh other hold⟩
    · exact fun other hin => (hr.awaited other hin).imp_right
        fun hwhy => hwhy.imp_left (hstart.reserved other)
    · exact fun other hin => (hc.queued other hin).imp_right
        fun hwhy => hwhy.imp_left (hstart.reserved other)
    · exact fun other hin hmem => (hc.retried other hin hmem).imp_left (hstart.reserved other)
  obtain ⟨hc', hr'⟩ := hfits.update hc hr
  refine ⟨hc', hr', fun other hin => ?_⟩
  rcases hstart.new other hin with hin | hin
  · exact h.quiet other hin
  · rw [List.mem_singleton.mp hin]
    exact ReconnectQueue.dueAt_of_not_contains hqueue

theorem Steady.startQueued (queue : List SocketAddr) {capacity : ℕ}
    (h : Steady { d with startup := queue }) (hcapacity : capacity ≤ d.attempts.capacity) :
    (d.startQueued capacity queue).Steady := by
  induction queue generalizing d capacity with
  | nil => exact h
  | cons peer rest ih =>
    unfold ConnectionDriver.startQueued
    split
    · exact h
    · rename_i hpos
      have hfree : 0 < d.attempts.capacity := (Nat.pos_of_ne_zero hpos).trans_le hcapacity
      split
      · rename_i hstart
        obtain ⟨hconnected, hqueue, -⟩ := hstart
        have hqueue' : d.reconnect.contains peer = false := by simpa using hqueue
        have hcap := (h.consistent.attempts.startStatic peer).capacity
        refine ih ?_ ?_
        · refine (h.start hconnected hqueue').pop fun _ => ?_
          exact .inl (ConnectAttempts.mem_reserved_startStatic hfree peer)
        · change d.attempts.capacity ≤ (d.attempts.startStatic peer).1.capacity + 1 at hcap
          change capacity - 1 ≤ (d.attempts.startStatic peer).1.capacity
          omega
      · rename_i hskip
        refine ih (h.pop fun hpinned => ?_) hcapacity
        -- Skipped: it is connected, in the retry queue, or already dialled.
        by_cases hconnected : peer ∈ d.connected
        · exact .inr (.inr (h.consistent.mem_watched h.reconciled hpinned hconnected))
        · cases hqueue : d.reconnect.contains peer with
          | true => exact h.consistent.retried peer hpinned hqueue
          | false =>
            refine .inl (ConnectAttempts.reserved_of_not_started hfree ?_)
            simpa [hconnected, hqueue] using hskip

/-! ## Reading the snapshot -/

/-- What reconciliation leaves of a peer in the snapshot. -/
structure Settles (d : ConnectionDriver) (peer : SocketAddr) (state : PeerConnectionState) : Prop where
  active : 0 < state.activeSessions → peer ∈ d.connected ∧ d.reconnect.dueAt peer = none
  inactive : state.activeSessions = 0 →
    peer ∉ d.connected ∧ (d.reconnect.dueAt peer).isSome = true

theorem settles_reconcilePeer (addr : SocketAddr) (state : PeerConnectionState) :
    (reconcilePeer now d addr state).Settles addr state := by
  unfold reconcilePeer
  dsimp only
  split
  · rename_i hpos
    refine ⟨fun _ => ⟨Finset.mem_insert_self _ _, ?_⟩, fun hzero => absurd hzero hpos.ne'⟩
    simp
  · rename_i hzero
    exact ⟨fun hpos => absurd hpos hzero,
      fun _ => ⟨Finset.notMem_erase _ _, ReconnectQueue.schedule_self⟩⟩

/-- The same is known of `peer`. -/
structure SameAt (peer : SocketAddr) (d f : ConnectionDriver) : Prop where
  connected : peer ∈ f.connected ↔ peer ∈ d.connected
  dueAt : f.reconnect.dueAt peer = d.reconnect.dueAt peer
  contains : f.reconnect.contains peer = d.reconnect.contains peer

theorem SameAt.refl (peer : SocketAddr) (d : ConnectionDriver) : SameAt peer d d :=
  ⟨.rfl, rfl, rfl⟩

theorem SameAt.trans {d₁ d₂ : ConnectionDriver} (h : SameAt peer d d₁) (h' : SameAt peer d₁ d₂) :
    SameAt peer d d₂ :=
  ⟨h'.connected.trans h.connected, h'.dueAt.trans h.dueAt, h'.contains.trans h.contains⟩

theorem Settles.sameAt {state : PeerConnectionState} (h : d.Settles peer state)
    (hsame : SameAt peer d f) : f.Settles peer state := by
  refine ⟨fun hpos => ?_, fun hzero => ?_⟩
  · rw [hsame.connected, hsame.dueAt]
    exact h.active hpos
  · rw [hsame.connected, hsame.dueAt]
    exact h.inactive hzero

theorem sameAt_reconcilePeer {addr : SocketAddr} (hne : peer ≠ addr)
    (state : PeerConnectionState) : SameAt peer d (reconcilePeer now d addr state) := by
  -- A new session's backoff is forgotten, of its own peer only.
  have hforget : ∀ q : ReconnectQueue, q = d.reconnect.forget addr ∨ q = d.reconnect →
      q.dueAt peer = d.reconnect.dueAt peer ∧ q.contains peer = d.reconnect.contains peer := by
    rintro q (rfl | rfl)
    · unfold ReconnectQueue.dueAt ReconnectQueue.contains ReconnectQueue.forget
      rw [FinMap.lookup_erase_eq, if_neg hne]
      exact ⟨rfl, rfl⟩
    · exact ⟨rfl, rfl⟩
  unfold reconcilePeer
  dsimp only
  obtain ⟨hdue, hcontains⟩ := hforget
    (if (d.establishments.lookup addr).getD 0 ≠ state.establishmentCount then
      d.reconnect.forget addr else d.reconnect) (ite_eq_or_eq _ _ _)
  split
  · refine ⟨by simp [hne], ?_, ?_⟩
    · rw [ReconnectQueue.dueAt_suspend, if_neg hne, hdue]
    · rw [ReconnectQueue.contains_suspend, hcontains]
  · refine ⟨by simp [hne], ?_, ?_⟩
    · rw [ReconnectQueue.dueAt_schedule_of_ne hne, hdue]
    · rw [ReconnectQueue.contains_schedule_of_ne hne, hcontains]

theorem frame_reconcilePeer (addr : SocketAddr) (state : PeerConnectionState) :
    reconcilePeer now d addr state = { d with
      connected := (reconcilePeer now d addr state).connected
      reconnect := (reconcilePeer now d addr state).reconnect
      establishments := (reconcilePeer now d addr state).establishments } := by
  unfold reconcilePeer
  dsimp only
  split <;> rfl

/-- What the loop of `reconcile_connections` does to each peer. -/
structure Reconciles (states : FinMap SocketAddr PeerConnectionState) (peers : List SocketAddr)
    (d f : ConnectionDriver) : Prop where
  frame : f = { d with
    connected := f.connected, reconnect := f.reconnect, establishments := f.establishments }
  settles : ∀ peer ∈ peers, ∀ state, states.lookup peer = some state → f.Settles peer state
  same : ∀ peer, peer ∉ peers → SameAt peer d f

theorem reconciles_foldl (states : FinMap SocketAddr PeerConnectionState)
    (peers : List SocketAddr) (d : ConnectionDriver) :
    Reconciles states peers d (peers.foldl
      (fun d peer =>
        match states.lookup peer with
        | none => d
        | some state => reconcilePeer now d peer state) d) := by
  induction peers generalizing d with
  | nil => exact ⟨rfl, nofun, fun _ _ => .refl _ _⟩
  | cons addr peers ih =>
    rw [List.foldl_cons]
    cases hstate : states.lookup addr with
    | none =>
      obtain ⟨hframe, hsettles, hsame⟩ := ih d
      refine ⟨hframe, fun peer hin state hlookup => ?_, fun peer hnot => ?_⟩
      · rcases List.mem_cons.mp hin with rfl | hin
        · cases hstate.symm.trans hlookup
        · exact hsettles peer hin state hlookup
      · exact hsame peer fun hin => hnot (List.mem_cons_of_mem _ hin)
    | some state =>
      obtain ⟨hframe, hsettles, hsame⟩ := ih (reconcilePeer now d addr state)
      refine ⟨?_, fun peer hin state' hlookup => ?_, fun peer hnot => ?_⟩
      · rw [hframe, frame_reconcilePeer]
      · by_cases hmem : peer ∈ peers
        · exact hsettles peer hmem state' hlookup
        · have heq := (List.mem_cons.mp hin).resolve_right hmem
          subst heq
          cases hstate.symm.trans hlookup
          exact (settles_reconcilePeer peer state).sameAt (hsame peer hmem)
      · rw [List.mem_cons, not_or] at hnot
        exact (sameAt_reconcilePeer hnot.1 state).trans (hsame peer hnot.2)

theorem reconciles_reconcileConnections (states : FinMap SocketAddr PeerConnectionState)
    (d : ConnectionDriver) (now : Instant) :
    Reconciles states (states.keys.sort (· ≤ ·)) d (d.reconcileConnections states now) :=
  reconciles_foldl states _ d

/-- What is in the snapshot or static is kept. -/
theorem pruneReconnectState_of_kept (d : ConnectionDriver)
    (states : FinMap SocketAddr PeerConnectionState)
    (hkept : (states.lookup peer).isSome = true ∨ peer ∈ d.pinned) :
    (d.pruneReconnectState states).reconnect.dueAt peer = d.reconnect.dueAt peer ∧
      (d.pruneReconnectState states).reconnect.contains peer = d.reconnect.contains peer := by
  have hlookup : (d.pruneReconnectState states).reconnect.entries.lookup peer =
      d.reconnect.entries.lookup peer := by
    unfold pruneReconnectState
    rw [FinMap.lookup_retain]
    cases d.reconnect.entries.lookup peer with
    | none => rfl
    | some entry =>
      refine Option.filter_some_pos ?_
      simpa using hkept
  unfold ReconnectQueue.dueAt ReconnectQueue.contains
  rw [hlookup]
  exact ⟨rfl, rfl⟩

/-- The parts of the driver after it has read the registry's snapshot. -/
structure Reads (d f : ConnectionDriver) : Prop where
  mode : f.mode = d.mode
  pinned : f.pinned = d.pinned
  startup : f.startup = d.startup
  registry : f.registry = d.registry
  snapshot : f.snapshot = d.registry.watched
  refresh : f.refresh = false
  attempts : f.attempts = d.attempts.retainRetries fun peer =>
    (d.registry.watched.lookup peer).isSome || decide (peer ∈ d.pinned)
  settles : ∀ peer state, d.registry.watched.lookup peer = some state → f.Settles peer state
  gone : ∀ peer, d.registry.watched.lookup peer = none → peer ∉ f.connected
  static : ∀ peer ∈ d.pinned, d.registry.watched.lookup peer = none →
    f.reconnect.dueAt peer = d.reconnect.dueAt peer ∧
      f.reconnect.contains peer = d.reconnect.contains peer

theorem reads_readSnapshot (d : ConnectionDriver) (now : Instant) : d.Reads (d.readSnapshot now) := by
  have hrec := reconciles_reconcileConnections d.registry.watched
    ((d.pruneReconnectState d.registry.watched).retainRetries d.registry.watched) now
  unfold readSnapshot
  dsimp only
  generalize ((d.pruneReconnectState d.registry.watched).retainRetries
    d.registry.watched).reconcileConnections d.registry.watched now = f at hrec
  obtain ⟨hframe, hsettles, hsame⟩ := hrec
  have hpeers : ∀ peer, peer ∈ d.registry.watched.keys.sort (· ≤ ·) ↔
      ∃ state, d.registry.watched.lookup peer = some state := by
    intro peer
    rw [Finset.mem_sort, FinMap.mem_keys_iff]
  have hgone : ∀ peer, d.registry.watched.lookup peer = none →
      peer ∉ d.registry.watched.keys.sort (· ≤ ·) := by
    intro peer hnone hin
    obtain ⟨state, hstate⟩ := (hpeers peer).mp hin
    cases hnone.symm.trans hstate
  refine ⟨?_, ?_, ?_, ?_, rfl, rfl, ?_, fun peer state hstate => ?_, fun peer hnone => ?_,
    fun peer hpinned hnone => ?_⟩
  · rw [hframe]
    rfl
  · rw [hframe]
    rfl
  · rw [hframe]
    rfl
  · rw [hframe]
    rfl
  · rw [hframe]
    rfl
  · obtain ⟨h₁, h₂⟩ := hsettles peer ((hpeers peer).mpr ⟨state, hstate⟩) state hstate
    exact ⟨h₁, h₂⟩
  · change peer ∉ f.connected
    rw [(hsame peer (hgone peer hnone)).connected]
    simp [ConnectionDriver.retainRetries, pruneReconnectState, hnone]
  · obtain ⟨-, hdue, hcontains⟩ := hsame peer (hgone peer hnone)
    obtain ⟨hdue', hcontains'⟩ := pruneReconnectState_of_kept d d.registry.watched
      (.inr hpinned)
    exact ⟨hdue.trans hdue', hcontains.trans hcontains'⟩

/-- An endpoint of the watched snapshot is active exactly while a session holds a tracker. -/
theorem Consistent.active_iff (hc : d.Consistent) {state : PeerConnectionState}
    (hstate : d.registry.watched.lookup peer = some state) :
    0 < state.activeSessions ↔ peer ∈ d.registry.trackers := by
  rw [hc.valid.watched] at hstate
  rw [hc.valid.tracks.active peer state hstate, List.count_pos_iff]

theorem Consistent.mem_watched_of_tracked (hc : d.Consistent)
    (hin : peer ∈ d.registry.trackers) : ∃ state, d.registry.watched.lookup peer = some state := by
  rw [hc.valid.watched]
  exact hc.valid.tracks.live peer hin

theorem Reads.connected_iff (hf : d.Reads f) :
    peer ∈ f.connected ↔
      ∃ state, f.snapshot.lookup peer = some state ∧ 0 < state.activeSessions := by
  rw [hf.snapshot]
  constructor
  · intro hin
    cases hstate : d.registry.watched.lookup peer with
    | none => exact absurd hin (hf.gone peer hstate)
    | some state =>
      refine ⟨state, rfl, Nat.pos_of_ne_zero fun hzero => ?_⟩
      exact ((hf.settles peer state hstate).inactive hzero).1 hin
  · rintro ⟨state, hstate, hpos⟩
    exact ((hf.settles peer state hstate).active hpos).1

/-- A static peer keeps its place through a read. -/
theorem Reads.placed (hf : d.Reads f) (hc : d.Consistent) (hpinned : peer ∈ d.pinned)
    (h : d.Placed peer) : f.Placed peer := by
  unfold Placed
  rw [hf.attempts, hf.registry]
  cases hstate : d.registry.watched.lookup peer with
  | some state => exact .inr (.inr ((FinMap.mem_keys_iff _ _).mpr ⟨state, hstate⟩))
  | none =>
    rw [(hf.static peer hpinned hstate).1]
    exact h.imp_left fun hin => hc.attempts.mem_retainRetries hin (by simp [hpinned])

theorem Reads.consistent (hf : d.Reads f) (hc : d.Consistent) : f.Consistent := by
  have hdrops := hc.attempts.retainRetries fun peer =>
    (d.registry.watched.lookup peer).isSome || decide (peer ∈ d.pinned)
  rw [← hf.attempts] at hdrops
  refine ⟨?_, ?_, ?_, hdrops.sound, ?_, ?_, ?_, ?_, ?_⟩
  · rw [hf.registry]
    exact hc.valid
  · rw [hf.pinned, hf.registry]
    exact hc.pinned
  · rw [hf.mode, hf.pinned]
    exact hc.modes
  · rw [hf.registry]
    exact fun peer hin => hc.idle peer (hdrops.reserved peer hin)
  · rw [hf.mode, hf.registry]
    exact fun peer hin => hc.offered peer (hdrops.offered peer hin)
  · rw [hf.pinned, hf.startup]
    exact fun peer hin => (hc.queued peer hin).imp_right (hf.placed hc hin)
  · rw [hf.pinned]
    intro peer hin hmem
    cases hstate : d.registry.watched.lookup peer with
    | some state =>
      refine .inr (.inr ?_)
      rw [hf.registry]
      exact (FinMap.mem_keys_iff _ _).mpr ⟨state, hstate⟩
    | none =>
      rw [(hf.static peer hin hstate).2] at hmem
      exact hf.placed hc hin (hc.retried peer hin hmem)
  · rw [hf.snapshot, hf.registry]
    exact fun _ _ => id

theorem Reads.reconciled (hf : d.Reads f) (hc : d.Consistent) : f.Reconciled := by
  have hdrops := hc.attempts.retainRetries fun peer =>
    (d.registry.watched.lookup peer).isSome || decide (peer ∈ d.pinned)
  rw [← hf.attempts] at hdrops
  have hquiet : ∀ peer ∈ f.connected, ∃ state, d.registry.watched.lookup peer = some state ∧
      0 < state.activeSessions := by
    intro peer hin
    obtain ⟨state, hstate, hpos⟩ := hf.connected_iff.mp hin
    rw [hf.snapshot] at hstate
    exact ⟨state, hstate, hpos⟩
  refine ⟨fun peer => hf.connected_iff, ?_, ?_, ?_, ?_, ?_, ?_⟩
  · rw [hf.registry]
    intro peer hin
    obtain ⟨state, hstate⟩ := hc.mem_watched_of_tracked hin
    exact ((hf.settles peer state hstate).active ((hc.active_iff hstate).mpr hin)).1
  · rw [hf.registry, hf.snapshot]
    exact fun _ => id
  · rw [hf.snapshot]
    exact fun peer hin => (hc.offered peer (hdrops.offered peer hin)).2
  · intro peer hin hmem
    obtain ⟨state, hstate, hpos⟩ := hquiet peer hmem
    exact hc.idle peer (hdrops.reserved peer hin) ((hc.active_iff hstate).mp hpos)
  · intro peer hin
    obtain ⟨state, hstate, hpos⟩ := hquiet peer hin
    exact ((hf.settles peer state hstate).active hpos).2
  · rw [hf.snapshot]
    intro peer hin
    obtain ⟨state, hstate⟩ := (FinMap.mem_keys_iff _ _).mp hin
    rcases Nat.eq_zero_or_pos state.activeSessions with hzero | hpos
    · exact .inr (.inr ((hf.settles peer state hstate).inactive hzero).2)
    · exact .inl ((hf.settles peer state hstate).active hpos).1

/-! ## Every move -/

theorem startQueued_frame (queue : List SocketAddr) (d : ConnectionDriver) (capacity : ℕ) :
    (d.startQueued capacity queue).refresh = d.refresh ∧
      (d.startQueued capacity queue).registry = d.registry ∧
      (d.startQueued capacity queue).pinned = d.pinned := by
  induction queue generalizing d capacity with
  | nil => exact ⟨rfl, rfl, rfl⟩
  | cons peer rest ih =>
    unfold startQueued
    split
    · exact ⟨rfl, rfl, rfl⟩
    · split
      · exact ih _ _
      · exact ih _ _

/-- What a move that succeeds promises: it keeps the invariant and the static peers, and uses
up at most one count of the registry. -/
structure Moves (d d' : ConnectionDriver) : Prop where
  keeps : d'.Keeps
  pinned : d'.pinned = d.pinned
  used : d'.registry.used ≤ d.registry.used + 1

theorem Keeps.moves {d' : ConnectionDriver} (hd' : d'.Keeps) (hr : d'.registry = d.registry)
    (hpinned : d'.pinned = d.pinned) : d.Moves d' := by
  refine ⟨hd', hpinned, ?_⟩
  rw [hr]
  exact Nat.le_succ _

theorem Keeps.turn (hd : d.Keeps) (now : Instant) (budget budget' : ℕ) :
    d.Moves (d.turn now budget budget') := by
  have hread : ∃ f, (if d.refresh || d.changed then d.readSnapshot now else d) = f ∧
      f.Consistent ∧ f.Reconciled ∧ f.refresh = false ∧ f.registry = d.registry ∧
      f.pinned = d.pinned := by
    split
    · have hf := reads_readSnapshot d now
      exact ⟨_, rfl, hf.consistent hd.consistent, hf.reconciled hd.consistent, hf.refresh,
        hf.registry, hf.pinned⟩
    · rename_i hold
      have hrefresh : d.refresh = false := by
        rw [Bool.or_eq_true, not_or] at hold
        simpa using hold.1
      exact ⟨_, rfl, hd.consistent, (hd.reconciled hrefresh).1, hrefresh, rfl, rfl⟩
  obtain ⟨f, heq, hc, hr, hrefresh, hregistry, hpinned⟩ := hread
  unfold ConnectionDriver.turn
  dsimp only
  rw [heq]
  have hsteady := (hr.suspendReserved hc).startQueued f.suspendReserved.startup
    (Nat.min_le_left f.suspendReserved.attempts.capacity budget)
  obtain ⟨hrefresh', hregistry', hpinned'⟩ := startQueued_frame f.suspendReserved.startup
    f.suspendReserved (min f.suspendReserved.attempts.capacity budget)
  refine Keeps.moves ⟨hsteady.consistent.bookkeep _ _ _ _,
    fun _ => ⟨hsteady.reconciled.bookkeep _ _ _ _, hsteady.quiet⟩, fun _ => ?_⟩ ?_ ?_
  · exact hrefresh'.trans hrefresh
  · exact hregistry'.trans hregistry
  · exact hpinned'.trans hpinned

theorem Keeps.succeed {addr : SocketAddr} (hd : d.Keeps) (hx : d.attempts.attempts[i]? = some x)
    (haddr : addr ∈ x.endpoints) (now : Instant) :
    (∃ d', d.succeed i x addr now = .ok d' ∧ d.Moves d') ∨
      d.succeed i x addr now = .error .overflow ∧ 2 ^ 64 ≤ d.registry.used + 1 := by
  have hv := hd.consistent.valid
  unfold ConnectionDriver.succeed
  rcases hv.register_step addr now with ⟨r', result, hok, hperforms⟩ | ⟨hover, hbig⟩
  · rw [hok]
    cases result with
    | error e =>
      exact .inl ⟨_, rfl, hd.shrinks (hv.register_refused hok) true, rfl, hperforms.used⟩
    | ok u => exact .inl ⟨_, rfl, hd.completed hx haddr (hv.register_ok hok), rfl, hperforms.used⟩
  · rw [hover]
    exact .inr ⟨rfl, hbig⟩

theorem discovered_frame (d : ConnectionDriver) (offer : List OfferEndpoint) (budget : ℕ) :
    (d.discovered offer budget).registry = d.registry ∧
      (d.discovered offer budget).pinned = d.pinned := by
  unfold ConnectionDriver.discovered
  split
  · exact ⟨rfl, rfl⟩
  · split
    · exact ⟨rfl, rfl⟩
    · dsimp only
      split <;> exact ⟨rfl, rfl⟩

theorem Keeps.branch (hd : d.Keeps) (hwait : d.phase = .waiting) (move : DriverMove) :
    (∃ d', d.branch move = .ok d' ∧ d.Moves d') ∨
      d.branch move = .error .overflow ∧ 2 ^ 64 ≤ d.registry.used + 1 := by
  have hrefresh := hd.ready hwait
  cases move with
  | background call | turn now budget budget' => exact .inl ⟨d, rfl, hd.moves rfl rfl⟩
  | capacityFreed | otherEvent => exact .inl ⟨_, rfl, hd.wake.moves rfl rfl⟩
  | closed => exact .inl ⟨_, rfl, hd.closed.moves rfl rfl⟩
  | statesChanged =>
    refine .inl ⟨_, rfl, ?_⟩
    split
    · exact hd.statesChanged.moves rfl rfl
    · exact hd.moves rfl rfl
  | succeeded i addr now =>
    unfold ConnectionDriver.branch
    dsimp only
    cases hx : d.attempts.attempts[i]? with
    | none => exact .inl ⟨d, rfl, hd.moves rfl rfl⟩
    | some x =>
      dsimp only
      split
      · rename_i haddr
        exact hd.succeed hx haddr now
      · exact .inl ⟨d, rfl, hd.moves rfl rfl⟩
  | failed i now =>
    unfold ConnectionDriver.branch
    dsimp only
    cases hx : d.attempts.attempts[i]? with
    | none => exact .inl ⟨d, rfl, hd.moves rfl rfl⟩
    | some x => exact .inl ⟨_, rfl, (hd.fail hx hrefresh now).moves rfl rfl⟩
  | retryTick now budget =>
    unfold ConnectionDriver.branch
    dsimp only
    split
    · obtain ⟨d', hok, hd', hr, hpinned⟩ := hd.retry hrefresh now budget
      exact .inl ⟨d', hok, hd'.moves hr hpinned⟩
    · exact .inl ⟨d, rfl, hd.moves rfl rfl⟩
  | peerDiscovered offer budget =>
    refine .inl ⟨_, rfl, ?_⟩
    split
    · rename_i hmode
      obtain ⟨hr, hpinned⟩ := discovered_frame d offer budget
      exact (hd.discovered hrefresh hmode offer budget).moves hr hpinned
    · exact hd.moves rfl rfl

theorem Keeps.step (hd : d.Keeps) (move : DriverMove) :
    (∃ d', d.step move = .ok (d', ()) ∧ d.Moves d') ∨
      d.step move = .error .overflow ∧ 2 ^ 64 ≤ d.registry.used + 1 := by
  have hselect : (∃ d', d.select move = .ok d' ∧ d.Moves d') ∨
      d.select move = .error .overflow ∧ 2 ^ 64 ≤ d.registry.used + 1 := by
    unfold select
    split
    · rename_i hwait
      exact hd.branch hwait move
    · exact .inl ⟨d, rfl, hd.moves rfl rfl⟩
  cases move with
  | background call =>
    unfold ConnectionDriver.step
    rcases hd.consistent.valid.step_cases call.call with ⟨r', result, hok, hperforms⟩ | ⟨hover, hbig⟩
    · have hkeeps := hd.shrinks (hd.consistent.valid.background call hok)
        (d.changed || d.registry.publishes call.call)
      refine .inl ⟨_, ?_, hkeeps, rfl, hperforms.used⟩
      simp only [hok, bind, Except.bind]
    · refine .inr ⟨?_, hbig⟩
      simp only [hover, bind, Except.bind]
  | turn now budget budget' =>
    refine .inl ⟨_, rfl, ?_⟩
    split
    · exact hd.turn now budget budget'
    · exact hd.moves rfl rfl
  | _ =>
    unfold ConnectionDriver.step
    rcases hselect with ⟨d', hok, hmoves⟩ | ⟨hover, hbig⟩
    · refine .inl ⟨d', ?_, hmoves⟩
      simp only [hok, bind, Except.bind]
    · refine .inr ⟨?_, hbig⟩
      simp only [hover, bind, Except.bind]

/-! ## Every run -/

theorem keeps_start (mode : DiscoveryMode) (configured : List SocketAddr)
    {registry : ConnectionRegistry} (hr : registry.Valid)
    (hpinned : registry.pinned = configured.toFinset) : (start mode configured registry).Keeps := by
  refine ⟨⟨hr, ?_, ?_, ConnectAttempts.sound_default, nofun, ?_, ?_, nofun, ?_⟩, nofun, ?_⟩
  · intro peer hin
    rw [show (start mode configured registry).registry.pinned = _ from hpinned]
    cases mode with
    | static => exact hin
    | discovery => cases hin
  · rintro rfl
    rfl
  · rintro peer ⟨x, hx, -⟩
    cases hx
  · exact fun peer hin => .inl (List.mem_toFinset.mp hin)
  · rintro peer - hin
    simp [start] at hin
  · intro hwait
    simp only [start] at hwait
    split at hwait <;> cases hwait

/-- What the driver promises where it waits, for the static peers it was given. -/
structure Waits (static : List SocketAddr) (d : ConnectionDriver) : Prop where
  few : d.attempts.attempts.length ≤ MAX_CONNECT_ATTEMPTS
  disjoint : d.attempts.attempts.Pairwise fun x y => ∀ peer ∈ x.endpoints, peer ∉ y.endpoints
  reserved : ∀ peer, peer ∈ d.attempts.reserved ↔
    ∃ x ∈ d.attempts.attempts, peer ∈ x.endpoints
  quiet : ∀ peer, peer ∈ d.attempts.reserved ∨ peer ∈ d.connected →
    d.reconnect.dueAt peer = none
  awaited : ∀ peer, peer ∈ static ∨
      (∃ state, d.snapshot.lookup peer = some state ∧ state.activeSessions = 0) →
    peer ∈ d.startup ∨ peer ∈ d.attempts.reserved ∨ peer ∈ d.connected ∨
      ∃ at_, d.reconnect.dueAt peer = some at_

theorem Keeps.waits (hd : d.Keeps) (hwait : d.phase = .waiting) {static : List SocketAddr}
    (hstatic : d.pinned = static.toFinset) : d.Waits static := by
  have hc := hd.consistent
  obtain ⟨h, hquiet⟩ := hd.reconciled (hd.ready hwait)
  have hknown : ∀ peer ∈ d.snapshot.keys, peer ∈ d.startup ∨ peer ∈ d.attempts.reserved ∨
      peer ∈ d.connected ∨ ∃ at_, d.reconnect.dueAt peer = some at_ := by
    intro peer hin
    rcases h.awaited peer hin with hmem | hmem | hsome
    · exact .inr (.inr (.inl hmem))
    · exact .inr (.inl hmem)
    · exact .inr (.inr (.inr (Option.isSome_iff_exists.mp hsome)))
  refine ⟨hc.attempts.few, hc.attempts.disjoint, hc.attempts.reserved, ?_, ?_⟩
  · rintro peer (hin | hin)
    · exact hquiet peer hin
    · exact h.quiet peer hin
  · rintro peer (hin | ⟨state, hstate, -⟩)
    · have hpinned : peer ∈ d.pinned := by
        rw [hstatic]
        exact List.mem_toFinset.mpr hin
      rcases hc.queued peer hpinned with hmem | hmem | hsome | hmem
      · exact .inl hmem
      · exact .inr (.inl hmem)
      · exact .inr (.inr (.inr (Option.isSome_iff_exists.mp hsome)))
      · exact hknown peer (h.known peer hmem)
    · exact hknown peer ((FinMap.mem_keys_iff _ _).mpr ⟨state, hstate⟩)

/-- What a run keeps, with the counts that the registry may have used. -/
structure Runs (static : List SocketAddr) (before : ℕ) (d : ConnectionDriver) (trace : Trace) :
    Prop where
  keeps : d.Keeps
  pinned : d.pinned = static.toFinset
  used : d.registry.used ≤ before + trace.length

theorem Runs.snoc {static : List SocketAddr} {before : ℕ} {trace : Trace} {move : DriverMove}
    {d' : ConnectionDriver} {out : Unit} (h : Runs static before d trace)
    (hstep : d.step move = .ok (d', out)) :
    Runs static before d' (trace ++ [⟨d, move, out, d'⟩]) := by
  rcases h.keeps.step move with ⟨d'', hok, hmoves⟩ | ⟨hover, -⟩
  · cases hstep.symm.trans hok
    refine ⟨hmoves.keeps, hmoves.pinned.trans h.pinned, ?_⟩
    rw [List.length_append, List.length_singleton]
    exact hmoves.used.trans (Nat.succ_le_succ h.used)
  · cases hstep.symm.trans hover

theorem runs_of_run {limits : RouterLimits} {mode : DiscoveryMode} {configured : List SocketAddr}
    {calls : List RegistryCall} {registry : ConnectionRegistry}
    {past : ConnectionRegistry.Trace} {moves : List DriverMove} {trace : Trace}
    (hpast : ConnectionRegistry.run limits configured.toFinset calls = .ok (registry, past))
    (hrun : run mode configured registry moves = .ok (d, trace)) :
    Runs (staticPeers mode configured) calls.length d trace := by
  have hk := ConnectionRegistry.kept_of_run hpast
  refine Machine.run_history (J := Runs (staticPeers mode configured) calls.length)
    (fun d trace move d' out h hstep => h.snoc hstep)
    ⟨keeps_start mode configured hk.valid hk.pinned_eq, rfl, ?_⟩ hrun
  rw [List.length_nil, Nat.add_zero, ← Machine.run_inputs hpast, List.length_map]
  exact hk.used

end ConnectionDriver

open ConnectionDriver in
/-- Wherever the loop waits, no endpoint is dialled twice, what is dialled or connected has no
deadline, and every static peer and every inactive endpoint of the last snapshot has a place
from which it is dialled again. Only a counter of the registry could overflow, after 2 ^ 64
calls. -/
theorem driver_keeps_every_peer (limits : RouterLimits) (mode : DiscoveryMode)
    (configured : List SocketAddr) (calls : List RegistryCall) (registry : ConnectionRegistry)
    (past : ConnectionRegistry.Trace)
    (hpast : ConnectionRegistry.run limits configured.toFinset calls = .ok (registry, past))
    (moves : List DriverMove) :
    (∀ d trace, run mode configured registry moves = .ok (d, trace) → d.phase = .waiting →
      d.Waits (staticPeers mode configured)) ∧
    ∀ panic, run mode configured registry moves = .error panic →
      panic = .overflow ∧ 2 ^ 64 ≤ calls.length + moves.length := by
  constructor
  · intro d trace hrun hwait
    have h := runs_of_run hpast hrun
    exact h.keeps.waits hwait h.pinned
  · intro panic herror
    obtain ⟨first, move, rest, d, trace, rfl, hrun, hstep⟩ := Machine.run_error herror
    have h := runs_of_run hpast hrun
    have hlength : trace.length = first.length := by
      rw [← Machine.run_inputs hrun, List.length_map]
    rcases h.keeps.step move with ⟨d', hok, -⟩ | ⟨hover, hbig⟩
    · cases hstep.symm.trans hok
    · refine ⟨Except.error.inj (hstep.symm.trans hover), ?_⟩
      have hused := h.used
      rw [List.length_append, List.length_cons]
      omega

/-- Of two peers, one cannot be reached at first, and the session of the other ends. -/
def troubledMoves : List DriverMove :=
  [.turn 0 1 1, .failed 0 0, .turn 0 1 1, .succeeded 0 (.v4 2 854) 0, .turn 0 1 1,
    .retryTick 1000000000 1, .turn 1000000000 1 1, .background (.established (.v4 2 854)),
    .background (.drop (.v4 2 854) 0 2000000000), .statesChanged, .turn 2000000000 1 1]

/-- The first is dialled again, and the second will be. -/
theorem driver_keeps_every_peer_troubled :
    ∃ d trace, ConnectionDriver.run .static [.v4 1 854, .v4 2 854]
        (.new ⟨8, 60⟩ [.v4 1 854, .v4 2 854].toFinset) troubledMoves = .ok (d, trace) ∧
      d.attempts.attempts = [⟨[.v4 1 854], some (.v4 1 854)⟩] ∧
      d.reconnect.dueAt (.v4 2 854) = some 3000000000 ∧ d.Waits [.v4 1 854, .v4 2 854] := by
  have hview : (ConnectionDriver.run .static [.v4 1 854, .v4 2 854]
      (.new ⟨8, 60⟩ [.v4 1 854, .v4 2 854].toFinset) troubledMoves).map (fun r =>
        (r.1.phase, r.1.attempts.attempts, r.1.reconnect.dueAt (.v4 2 854))) =
      .ok (.waiting, [⟨[.v4 1 854], some (.v4 1 854)⟩], some 3000000000) := by
    decide +kernel
  have hwaits := (driver_keeps_every_peer ⟨8, 60⟩ .static [.v4 1 854, .v4 2 854] [] _ _ rfl
    troubledMoves).1
  cases hrun : ConnectionDriver.run .static [.v4 1 854, .v4 2 854]
      (.new ⟨8, 60⟩ [.v4 1 854, .v4 2 854].toFinset) troubledMoves with
  | error panic =>
    rw [hrun] at hview
    cases hview
  | ok r =>
    rw [hrun] at hview
    obtain ⟨hphase, hrest⟩ := Prod.mk.inj (Except.ok.inj hview)
    obtain ⟨hattempts, hdue⟩ := Prod.mk.inj hrest
    exact ⟨r.1, r.2, rfl, hattempts, hdue, hwaits r.1 r.2 hrun hphase⟩

end Dlep
