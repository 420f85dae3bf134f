-- SUMMARY: Where the connection driver keeps a peer: the invariant of the loop, and that every branch of the wait keeps it.
import Dlep.Router.Attempts

/-!
# Peers of the driver

The driver spreads what it knows of a peer over a startup queue, the last snapshot, the
connected set, the reconnect queue and the attempts. The invariant says where a peer must
be found. Since only an attempt registers an endpoint, and the driver reads the snapshot
right after a success, the registry never knows more than the last snapshot does.
-/

namespace Dlep

/-! ## The invariant -/

namespace ConnectionDriver

variable {d : ConnectionDriver} {peer : SocketAddr} {now : Instant} {registry : ConnectionRegistry}

/-- What holds when the last snapshot is the one to act on. -/
structure Reconciled (d : ConnectionDriver) : Prop where
  connected : ∀ peer, peer ∈ d.connected ↔
    ∃ state, d.snapshot.lookup peer = some state ∧ 0 < state.activeSessions
  /-- The registry knows no more than the snapshot. -/
  tracked : ∀ peer ∈ d.registry.trackers, peer ∈ d.connected
  known : ∀ peer ∈ d.registry.watched.keys, peer ∈ d.snapshot.keys
  /-- Offers are followed for endpoints outside the snapshot only. -/
  fresh : ∀ peer, d.attempts.Offered peer → peer ∉ d.snapshot.keys
  apart : ∀ peer ∈ d.attempts.reserved, peer ∉ d.connected
  quiet : ∀ peer ∈ d.connected, d.reconnect.dueAt peer = none
  awaited : ∀ peer ∈ d.snapshot.keys,
    peer ∈ d.connected ∨ peer ∈ d.attempts.reserved ∨ (d.reconnect.dueAt peer).isSome = true

/-- A static peer that is not queued has a place. -/
def Placed (d : ConnectionDriver) (peer : SocketAddr) : Prop :=
  peer ∈ d.attempts.reserved ∨ (d.reconnect.dueAt peer).isSome = true ∨
    peer ∈ d.registry.watched.keys

/-- What holds at all times. -/
structure Consistent (d : ConnectionDriver) : Prop where
  valid : d.registry.Valid
  pinned : ∀ peer ∈ d.pinned, peer ∈ d.registry.pinned
  modes : d.mode = .discovery → d.pinned = ∅
  attempts : d.attempts.Sound
  /-- No endpoint is registered while it is dialled. -/
  idle : ∀ peer ∈ d.attempts.reserved, peer ∉ d.registry.trackers
  offered : ∀ peer, d.attempts.Offered peer →
    d.mode = .discovery ∧ peer ∉ d.registry.watched.keys
  queued : ∀ peer ∈ d.pinned, peer ∈ d.startup ∨ d.Placed peer
  retried : ∀ peer ∈ d.pinned, d.reconnect.contains peer = true → d.Placed peer
  remembered : ∀ peer ∈ d.pinned, peer ∈ d.snapshot.keys → peer ∈ d.registry.watched.keys

/-- The invariant of the loop. -/
structure Keeps (d : ConnectionDriver) : Prop where
  consistent : d.Consistent
  reconciled : d.refresh = false → d.Reconciled ∧
    ∀ peer ∈ d.attempts.reserved, d.reconnect.dueAt peer = none
  ready : d.phase = .waiting → d.refresh = false

theorem Consistent.not_offered (hd : d.Consistent) (hpinned : peer ∈ d.pinned) :
    ¬ d.attempts.Offered peer := by
  intro hoffered
  rw [hd.modes (hd.offered peer hoffered).1] at hpinned
  cases hpinned

/-! ### Moves of the registry -/

theorem Placed.shrinks (h : d.Placed peer) (hr : d.registry.Shrinks registry)
    (hpinned : peer ∈ d.registry.pinned) : Placed { d with registry } peer :=
  h.imp_right fun h => h.imp_right (hr.kept peer hpinned)

theorem Keeps.shrinks (hd : d.Keeps) (hr : d.registry.Shrinks registry) (changed : Bool) :
    Keeps { d with registry, changed } := by
  have hc := hd.consistent
  refine ⟨⟨hr.valid, ?_, hc.modes, hc.attempts, ?_, ?_, ?_, ?_, ?_⟩, ?_, hd.ready⟩
  · intro peer hpeer
    rw [hr.pinned]
    exact hc.pinned peer hpeer
  · exact fun peer hpeer hin => hc.idle peer hpeer (hr.trackers peer hin)
  · exact fun peer hpeer => ⟨(hc.offered peer hpeer).1,
      fun hin => (hc.offered peer hpeer).2 (hr.keys peer hin)⟩
  · exact fun peer hpeer => (hc.queued peer hpeer).imp_right
      fun h => h.shrinks hr (hc.pinned peer hpeer)
  · exact fun peer hpeer hin => (hc.retried peer hpeer hin).shrinks hr (hc.pinned peer hpeer)
  · exact fun peer hpeer hin =>
      hr.kept peer (hc.pinned peer hpeer) (hc.remembered peer hpeer hin)
  · intro hrefresh
    obtain ⟨h, hquiet⟩ := hd.reconciled hrefresh
    exact ⟨⟨h.connected, fun peer hin => h.tracked peer (hr.trackers peer hin),
      fun peer hin => h.known peer (hr.keys peer hin), h.fresh, h.apart, h.quiet, h.awaited⟩,
      hquiet⟩

/-! ### Bookkeeping

What the loop does with its phase, its next deadline and the change flag is of no
consequence to the rest. -/

theorem Consistent.bookkeep (hc : d.Consistent) (nextDue : Option Instant) (phase : LoopPhase)
    (changed refresh : Bool) : Consistent { d with nextDue, phase, changed, refresh } :=
  ⟨hc.valid, hc.pinned, hc.modes, hc.attempts, hc.idle, hc.offered, hc.queued, hc.retried,
    hc.remembered⟩

theorem Reconciled.bookkeep (h : d.Reconciled) (nextDue : Option Instant) (phase : LoopPhase)
    (changed refresh : Bool) : Reconciled { d with nextDue, phase, changed, refresh } :=
  ⟨h.connected, h.tracked, h.known, h.fresh, h.apart, h.quiet, h.awaited⟩

theorem Keeps.wake (hd : d.Keeps) : d.wake.Keeps :=
  ⟨hd.consistent.bookkeep _ _ _ _,
    fun hrefresh => (hd.reconciled hrefresh).imp_left fun h => h.bookkeep _ _ _ _, nofun⟩

theorem Keeps.statesChanged (hd : d.Keeps) :
    (ConnectionDriver.wake { d with changed := false, refresh := true }).Keeps :=
  ⟨hd.consistent.bookkeep _ _ _ _, nofun, nofun⟩

theorem Keeps.closed (hd : d.Keeps) : Keeps { d with phase := .left } :=
  ⟨hd.consistent.bookkeep _ _ _ _,
    fun hrefresh => (hd.reconciled hrefresh).imp_left fun h => h.bookkeep _ _ _ _, nofun⟩

/-! ### Completions -/

variable {i : ℕ} {x : ConnectAttempts.Attempt}

/-- A static peer that is dialled is dialled by a retry of its own. -/
theorem Consistent.retryPeer_of_pinned (hd : d.Consistent)
    (hx : d.attempts.attempts[i]? = some x) (hpeer : peer ∈ x.endpoints)
    (hpinned : peer ∈ d.pinned) : x.retryPeer = some peer ∧ x.endpoints = [peer] := by
  have hmem := List.mem_of_getElem? hx
  cases hretry : x.retryPeer with
  | none => exact absurd ⟨x, hmem, hretry, hpeer⟩ (hd.not_offered hpinned)
  | some p =>
    have hone := hd.attempts.retry x hmem p hretry
    rw [hone, List.mem_singleton] at hpeer
    rw [hpeer]
    exact ⟨rfl, hone⟩

/-- A success registers the endpoint and asks for the new snapshot. -/
theorem Keeps.completed {addr : SocketAddr} (hd : d.Keeps) (hx : d.attempts.attempts[i]? = some x)
    (haddr : addr ∈ x.endpoints) (hr : d.registry.Adds addr registry) :
    (ConnectionDriver.wake { d with
      registry
      changed := true
      attempts := d.attempts.complete i x
      refresh := true }).Keeps := by
  have hc := hd.consistent
  have hdrops := hc.attempts.complete hx
  have hplaced : ∀ peer ∈ d.pinned, d.Placed peer →
      peer ∈ (d.attempts.complete i x).reserved ∨ (d.reconnect.dueAt peer).isSome = true ∨
        peer ∈ registry.watched.keys := by
    rintro peer hpinned (hreserved | hdue | hin)
    · by_cases hpeer : peer ∈ x.endpoints
      · obtain ⟨-, hone⟩ := hc.retryPeer_of_pinned hx hpeer hpinned
        rw [hone, List.mem_singleton] at haddr
        rw [← haddr]
        exact .inr (.inr hr.new)
      · exact .inl (ConnectAttempts.mem_complete.mpr ⟨hreserved, hpeer⟩)
    · exact .inr (.inl hdue)
    · exact .inr (.inr (hr.kept peer (hc.pinned peer hpinned) hin))
  refine ⟨⟨hr.valid, ?_, hc.modes, hdrops.sound, ?_, ?_, ?_, ?_, ?_⟩, nofun, nofun⟩
  · intro peer hpeer
    change peer ∈ registry.pinned
    rw [hr.pinned]
    exact hc.pinned peer hpeer
  · intro peer hpeer hin
    obtain ⟨hreserved, hnot⟩ := ConnectAttempts.mem_complete.mp hpeer
    change peer ∈ registry.trackers at hin
    rw [hr.trackers, List.mem_cons] at hin
    rcases hin with rfl | hin
    · exact hnot haddr
    · exact hc.idle peer hreserved hin
  · intro peer hpeer
    refine ⟨(hc.offered peer (hdrops.offered peer hpeer)).1, fun hin => ?_⟩
    rcases hr.keys peer hin with rfl | hin
    · exact (ConnectAttempts.mem_complete.mp (hpeer.reserved hdrops.sound)).2 haddr
    · exact (hc.offered peer (hdrops.offered peer hpeer)).2 hin
  · exact fun peer hpeer => (hc.queued peer hpeer).imp_right (hplaced peer hpeer)
  · exact fun peer hpeer hin => hplaced peer hpeer (hc.retried peer hpeer hin)
  · exact fun peer hpeer hin => hr.kept peer (hc.pinned peer hpeer) (hc.remembered peer hpeer hin)

/-! ### Moves between two reads -/

/-- New attempts, deadlines and startup queue that fit the snapshot. -/
structure Fits (d : ConnectionDriver) (attempts : ConnectAttempts) (reconnect : ReconnectQueue)
    (startup : List SocketAddr) : Prop where
  sound : attempts.Sound
  apart : ∀ peer ∈ attempts.reserved, peer ∉ d.connected
  offered : ∀ peer, attempts.Offered peer → d.mode = .discovery ∧ peer ∉ d.snapshot.keys
  quiet : ∀ peer ∈ d.connected, reconnect.dueAt peer = none
  awaited : ∀ peer ∈ d.snapshot.keys,
    peer ∈ d.connected ∨ peer ∈ attempts.reserved ∨ (reconnect.dueAt peer).isSome = true
  queued : ∀ peer ∈ d.pinned,
    peer ∈ startup ∨ Placed { d with attempts, reconnect, startup } peer
  retried : ∀ peer ∈ d.pinned, reconnect.contains peer = true →
    Placed { d with attempts, reconnect, startup } peer

theorem Fits.update {attempts : ConnectAttempts} {reconnect : ReconnectQueue}
    {startup : List SocketAddr} (h : d.Fits attempts reconnect startup) (hc : d.Consistent)
    (hr : d.Reconciled) : Consistent { d with attempts, reconnect, startup } ∧
      Reconciled { d with attempts, reconnect, startup } :=
  ⟨⟨hc.valid, hc.pinned, hc.modes, h.sound,
    fun peer hpeer hin => h.apart peer hpeer (hr.tracked peer hin),
    fun peer hpeer => ⟨(h.offered peer hpeer).1,
      fun hin => (h.offered peer hpeer).2 (hr.known peer hin)⟩,
    h.queued, h.retried, hc.remembered⟩,
  ⟨hr.connected, hr.tracked, hr.known, fun peer hpeer => (h.offered peer hpeer).2, h.apart, h.quiet,
    h.awaited⟩⟩

/-- A connected static peer is in the registry. -/
theorem Consistent.mem_watched (hc : d.Consistent) (hr : d.Reconciled) (hpinned : peer ∈ d.pinned)
    (hpeer : peer ∈ d.connected) : peer ∈ d.registry.watched.keys := by
  obtain ⟨state, hstate, -⟩ := (hr.connected peer).mp hpeer
  exact hc.remembered peer hpinned ((FinMap.mem_keys_iff _ _).mpr ⟨state, hstate⟩)

/-- Nobody but the retry peer is rescheduled. -/
theorem rescheduled_of_not_mem {q : ReconnectQueue} (ha : d.attempts.Sound)
    (hx : x ∈ d.attempts.attempts) (hnot : peer ∉ x.endpoints) :
    (rescheduled q x.retryPeer now).dueAt peer = q.dueAt peer ∧
      (rescheduled q x.retryPeer now).contains peer = q.contains peer := by
  cases hretry : x.retryPeer with
  | none => exact ⟨rfl, rfl⟩
  | some p =>
    rw [ha.retry x hx p hretry, List.mem_singleton] at hnot
    exact ⟨ReconnectQueue.dueAt_schedule_of_ne hnot, ReconnectQueue.contains_schedule_of_ne hnot⟩

theorem isSome_dueAt_rescheduled {q : ReconnectQueue} (retryPeer : Option SocketAddr)
    (h : (q.dueAt peer).isSome = true) :
    ((rescheduled q retryPeer now).dueAt peer).isSome = true := by
  cases retryPeer with
  | none => exact h
  | some p => exact ReconnectQueue.isSome_dueAt_schedule h

/-- A failed retry gets a new deadline; the endpoints of a failed offer are nobody's. -/
theorem Keeps.fail (hd : d.Keeps) (hx : d.attempts.attempts[i]? = some x)
    (hrefresh : d.refresh = false) (now : Instant) : (d.fail i x now).Keeps := by
  have hc := hd.consistent
  obtain ⟨h, hquiet⟩ := hd.reconciled hrefresh
  have hmem := List.mem_of_getElem? hx
  have hdrops := hc.attempts.complete hx
  have hretried : ∀ peer, x.retryPeer = some peer →
      ((rescheduled d.reconnect x.retryPeer now).dueAt peer).isSome = true := by
    intro peer hretry
    rw [hretry]
    exact ReconnectQueue.schedule_self
  -- An endpoint that a static peer or the snapshot names is the retry's own.
  have hgiven : ∀ peer ∈ x.endpoints, peer ∈ d.pinned ∨ peer ∈ d.snapshot.keys →
      x.retryPeer = some peer := by
    rintro peer hpeer (hpinned | hin)
    · exact (hc.retryPeer_of_pinned hx hpeer hpinned).1
    · cases hretry : x.retryPeer with
      | none => exact absurd hin (h.fresh peer ⟨x, hmem, hretry, hpeer⟩)
      | some p =>
        rw [hc.attempts.retry x hmem p hretry, List.mem_singleton] at hpeer
        rw [hpeer]
  have hkept : ∀ peer, peer ∈ d.pinned ∨ peer ∈ d.snapshot.keys → peer ∈ d.attempts.reserved →
      peer ∈ (d.attempts.complete i x).reserved ∨
        ((rescheduled d.reconnect x.retryPeer now).dueAt peer).isSome = true := by
    intro peer hwhy hreserved
    by_cases hpeer : peer ∈ x.endpoints
    · exact .inr (hretried peer (hgiven peer hpeer hwhy))
    · exact .inl (ConnectAttempts.mem_complete.mpr ⟨hreserved, hpeer⟩)
  have hplaced : ∀ peer ∈ d.pinned, d.Placed peer →
      Placed { d with
        attempts := d.attempts.complete i x
        reconnect := rescheduled d.reconnect x.retryPeer now } peer := by
    rintro peer hpinned (hreserved | hsome | hin)
    · exact (hkept peer (.inl hpinned) hreserved).imp_right .inl
    · exact .inr (.inl (isSome_dueAt_rescheduled _ hsome))
    · exact .inr (.inr hin)
  have hfits : d.Fits (d.attempts.complete i x)
      (rescheduled d.reconnect x.retryPeer now) d.startup := by
    refine ⟨hdrops.sound, fun peer hpeer => h.apart peer (hdrops.reserved peer hpeer), ?_, ?_, ?_,
      fun peer hpeer => (hc.queued peer hpeer).imp_right (hplaced peer hpeer), ?_⟩
    · exact fun peer hpeer => ⟨(hc.offered peer (hdrops.offered peer hpeer)).1,
        h.fresh peer (hdrops.offered peer hpeer)⟩
    · intro peer hpeer
      have hnot : peer ∉ x.endpoints := fun hin =>
        h.apart peer ((hc.attempts.reserved peer).mpr ⟨x, hmem, hin⟩) hpeer
      rw [(rescheduled_of_not_mem hc.attempts hmem hnot).1]
      exact h.quiet peer hpeer
    · intro peer hpeer
      rcases h.awaited peer hpeer with hconnected | hreserved | hsome
      · exact .inl hconnected
      · exact .inr (hkept peer (.inr hpeer) hreserved)
      · exact .inr (.inr (isSome_dueAt_rescheduled _ hsome))
    · intro peer hpeer hin
      by_cases hend : peer ∈ x.endpoints
      · exact .inr (.inl (hretried peer (hgiven peer hend (.inl hpeer))))
      · rw [(rescheduled_of_not_mem hc.attempts hmem hend).2] at hin
        exact hplaced peer hpeer (hc.retried peer hpeer hin)
  obtain ⟨hc', hr'⟩ := hfits.update hc h
  refine ⟨hc'.bookkeep _ _ _ _, fun _ => ⟨hr'.bookkeep _ _ _ _, fun peer hpeer => ?_⟩, nofun⟩
  obtain ⟨hreserved, hnot⟩ := ConnectAttempts.mem_complete.mp hpeer
  change (rescheduled d.reconnect x.retryPeer now).dueAt peer = none
  rw [(rescheduled_of_not_mem hc.attempts hmem hnot).1]
  exact hquiet peer hreserved

/-! ### Retries -/

/-- Every peer of `due` is connected or dialled afterwards, and has no deadline. -/
structure Redials (due : List SocketAddr) (d f : ConnectionDriver) : Prop where
  frame : f = { d with attempts := f.attempts, reconnect := f.reconnect }
  sound : f.attempts.Sound
  reserved : ∀ peer ∈ d.attempts.reserved, peer ∈ f.attempts.reserved
  new : ∀ peer ∈ f.attempts.reserved,
    peer ∈ d.attempts.reserved ∨ peer ∈ due ∧ peer ∉ d.connected
  offered : ∀ peer, f.attempts.Offered peer → d.attempts.Offered peer
  dialled : ∀ peer ∈ due, peer ∈ d.connected ∨ peer ∈ f.attempts.reserved
  quiet : ∀ peer ∈ due, f.reconnect.dueAt peer = none
  kept : ∀ peer, peer ∉ due → f.reconnect.dueAt peer = d.reconnect.dueAt peer
  contains : ∀ peer, f.reconnect.contains peer = d.reconnect.contains peer

theorem redials_redial (ha : d.attempts.Sound) (hcapacity : 0 < d.attempts.capacity)
    (addr : SocketAddr) : Redials [addr] d (d.redial addr) ∧
      d.attempts.capacity ≤ (d.redial addr).attempts.capacity + 1 := by
  have hquiet : ∀ peer ∈ [addr], (d.reconnect.suspend addr).dueAt peer = none := by
    intro peer hpeer
    simp [List.mem_singleton.mp hpeer]
  have hkept : ∀ peer, peer ∉ [addr] →
      (d.reconnect.suspend addr).dueAt peer = d.reconnect.dueAt peer := by
    intro peer hpeer
    rw [ReconnectQueue.dueAt_suspend, if_neg (fun heq => hpeer (List.mem_singleton.mpr heq))]
  unfold redial
  dsimp only
  split
  · rename_i hhandled
    refine ⟨⟨rfl, ha, fun _ => id, fun _ => .inl, fun _ => id, ?_, hquiet, hkept,
      fun peer => ReconnectQueue.contains_suspend⟩, Nat.le_succ _⟩
    intro peer hpeer
    rw [List.mem_singleton.mp hpeer]
    exact hhandled.imp_right fun hin => by simpa [ConnectAttempts.contains] using hin
  · rename_i hfree
    rw [not_or] at hfree
    have hstart := ha.startStatic addr
    refine ⟨⟨rfl, hstart.sound, hstart.reserved, ?_, ?_, ?_, hquiet, hkept,
      fun peer => ReconnectQueue.contains_suspend⟩, hstart.capacity⟩
    · intro peer hpeer
      refine (hstart.new peer hpeer).imp_right fun hin => ⟨hin, ?_⟩
      rw [List.mem_singleton.mp hin]
      exact hfree.1
    · exact fun peer hpeer => (hstart.offered peer hpeer).resolve_right fun h => by cases h.1
    · intro peer hpeer
      rw [List.mem_singleton.mp hpeer]
      exact .inr (ConnectAttempts.mem_reserved_startStatic hcapacity addr)

theorem Redials.cons {addr : SocketAddr} {due : List SocketAddr} {d₁ f : ConnectionDriver}
    (h : Redials [addr] d d₁) (h' : Redials due d₁ f) : Redials (addr :: due) d f := by
  have hconnected : d₁.connected = d.connected := by rw [h.frame]
  refine ⟨?_, h'.sound, fun peer hin => h'.reserved peer (h.reserved peer hin), ?_,
    fun peer hin => h.offered peer (h'.offered peer hin), ?_, ?_, ?_,
    fun peer => (h'.contains peer).trans (h.contains peer)⟩
  · rw [h'.frame, h.frame]
  · intro peer hin
    rcases h'.new peer hin with hin | ⟨hdue, hnot⟩
    · exact (h.new peer hin).imp_right fun ⟨hone, hnot⟩ =>
        ⟨List.mem_cons.mpr (.inl (List.mem_singleton.mp hone)), hnot⟩
    · exact .inr ⟨List.mem_cons_of_mem _ hdue, hconnected ▸ hnot⟩
  · intro peer hin
    rcases List.mem_cons.mp hin with rfl | hin
    · exact (h.dialled peer (List.mem_singleton.mpr rfl)).imp_right (h'.reserved peer)
    · exact (h'.dialled peer hin).imp_left fun hmem => hconnected ▸ hmem
  · intro peer hin
    by_cases hdue : peer ∈ due
    · exact h'.quiet peer hdue
    · rw [h'.kept peer hdue]
      exact h.quiet peer (List.mem_singleton.mpr ((List.mem_cons.mp hin).resolve_right hdue))
  · intro peer hnot
    rw [List.mem_cons, not_or] at hnot
    rw [h'.kept peer hnot.2]
    exact h.kept peer fun hin => hnot.1 (List.mem_singleton.mp hin)

/-- The slots suffice for all of them, so that none is passed over. -/
theorem redials_foldl (due : List SocketAddr) (ha : d.attempts.Sound)
    (hlimit : due.length ≤ d.attempts.capacity) : Redials due d (due.foldl redial d) := by
  induction due generalizing d with
  | nil =>
    exact ⟨rfl, ha, fun _ => id, fun _ => .inl, fun _ => id, by simp, by simp, fun _ _ => rfl,
      fun _ => rfl⟩
  | cons addr due ih =>
    rw [List.length_cons] at hlimit
    obtain ⟨hone, hcapacity⟩ := redials_redial ha (Nat.lt_of_lt_of_le (Nat.succ_pos _) hlimit) addr
    rw [List.foldl_cons]
    exact hone.cons (ih hone.sound (by omega))

theorem Keeps.retry (hd : d.Keeps) (hrefresh : d.refresh = false) (now : Instant) (budget : ℕ) :
    ∃ d', d.retry now budget = .ok d' ∧ d'.Keeps ∧ d'.registry = d.registry ∧
      d'.pinned = d.pinned := by
  have hc := hd.consistent
  obtain ⟨h, hquiet⟩ := hd.reconciled hrefresh
  obtain ⟨q, due, htake, hlimit, hcontains, hsame⟩ :=
    d.reconnect.takeDueLimited_ok now (min d.attempts.capacity budget)
  have hf := redials_foldl (d := { d with reconnect := q }) due hc.attempts
    (hlimit.trans (Nat.min_le_left _ _))
  refine ⟨ConnectionDriver.wake (due.foldl redial { d with reconnect := q }), ?_, ?_, ?_⟩
  · unfold ConnectionDriver.retry
    rw [htake]
    rfl
  · generalize due.foldl redial { d with reconnect := q } = f at hf
    obtain ⟨hframe, hsound, hreserved, hnew, hoffered, hdialled, hnone, hkept, hsameContains⟩ := hf
    have hold : ∀ peer, peer ∉ due → f.reconnect.dueAt peer = d.reconnect.dueAt peer :=
      fun peer hnot => (hkept peer hnot).trans (hsame peer hnot)
    have hplaced : ∀ peer ∈ d.pinned, d.Placed peer →
        Placed { d with attempts := f.attempts, reconnect := f.reconnect } peer := by
      rintro peer hpinned (hin | hsome | hin)
      · exact .inl (hreserved peer hin)
      · by_cases hdue : peer ∈ due
        · rcases hdialled peer hdue with hconnected | hin
          · exact .inr (.inr (hc.mem_watched h hpinned hconnected))
          · exact .inl hin
        · refine .inr (.inl ?_)
          change (f.reconnect.dueAt peer).isSome = true
          rw [hold peer hdue]
          exact hsome
      · exact .inr (.inr hin)
    have hfits : d.Fits f.attempts f.reconnect d.startup := by
      refine ⟨hsound, ?_, ?_, ?_, ?_, ?_, ?_⟩
      · intro peer hin
        rcases hnew peer hin with hin | ⟨-, hnot⟩
        · exact h.apart peer hin
        · exact hnot
      · exact fun peer hin => ⟨(hc.offered peer (hoffered peer hin)).1,
          h.fresh peer (hoffered peer hin)⟩
      · intro peer hin
        by_cases hdue : peer ∈ due
        · exact hnone peer hdue
        · rw [hold peer hdue]
          exact h.quiet peer hin
      · intro peer hin
        rcases h.awaited peer hin with hconnected | hmem | hsome
        · exact .inl hconnected
        · exact .inr (.inl (hreserved peer hmem))
        · by_cases hdue : peer ∈ due
          · exact (hdialled peer hdue).imp_right .inl
          · rw [hold peer hdue]
            exact .inr (.inr hsome)
      · exact fun peer hin => (hc.queued peer hin).imp_right (hplaced peer hin)
      · intro peer hin hmem
        rw [hsameContains, hcontains] at hmem
        exact hplaced peer hin (hc.retried peer hin hmem)
    obtain ⟨hc', hr'⟩ := hfits.update hc h
    rw [hframe]
    refine ⟨hc'.bookkeep _ _ _ _, fun _ => ⟨hr'.bookkeep _ _ _ _, fun peer hin => ?_⟩, nofun⟩
    change f.reconnect.dueAt peer = none
    by_cases hdue : peer ∈ due
    · exact hnone peer hdue
    · rw [hold peer hdue]
      exact hquiet peer ((hnew peer hin).resolve_right fun hin => hdue hin.1)
  · rw [hf.frame]
    exact ⟨rfl, rfl⟩

/-! ### Offers -/

/-- An offer whose endpoints are outside of everything the driver keeps may be followed. -/
theorem Keeps.follow {endpoints : List SocketAddr} (hd : d.Keeps) (hrefresh : d.refresh = false)
    (hmode : d.mode = .discovery) (hnew : ∀ peer ∈ endpoints,
      peer ∉ d.connected ∧ d.reconnect.contains peer = false ∧ peer ∉ d.snapshot.keys) :
    (ConnectionDriver.wake
      { d with attempts := (d.attempts.insert endpoints none).1 }).Keeps := by
  have hc := hd.consistent
  obtain ⟨h, hquiet⟩ := hd.reconciled hrefresh
  have hinserts : ConnectAttempts.Inserts endpoints none d.attempts
      (d.attempts.insert endpoints none).1 := hc.attempts.insert nofun
  have hfits : d.Fits (d.attempts.insert endpoints none).1 d.reconnect d.startup := by
    refine ⟨hinserts.sound, ?_, ?_, h.quiet, ?_, ?_, ?_⟩
    · intro peer hin
      rcases hinserts.new peer hin with hin | hin
      · exact h.apart peer hin
      · exact (hnew peer hin).1
    · intro peer hin
      rcases hinserts.offered peer hin with hin | ⟨-, hin⟩
      · exact ⟨hmode, h.fresh peer hin⟩
      · exact ⟨hmode, (hnew peer hin).2.2⟩
    · exact fun peer hin => (h.awaited peer hin).imp_right
        fun hwhy => hwhy.imp_left (hinserts.reserved peer)
    · exact fun peer hin => (hc.queued peer hin).imp_right
        fun hwhy => hwhy.imp_left (hinserts.reserved peer)
    · exact fun peer hin hmem => (hc.retried peer hin hmem).imp_left (hinserts.reserved peer)
  obtain ⟨hc', hr'⟩ := hfits.update hc h
  refine ⟨hc'.bookkeep _ _ _ _, fun _ => ⟨hr'.bookkeep _ _ _ _, fun peer hin => ?_⟩, nofun⟩
  rcases hinserts.new peer hin with hin | hin
  · exact hquiet peer hin
  · exact ReconnectQueue.dueAt_of_not_contains (hnew peer hin).2.1

theorem Keeps.discovered (hd : d.Keeps) (hrefresh : d.refresh = false)
    (hmode : d.mode = .discovery) (offer : List OfferEndpoint) (budget : ℕ) :
    (d.discovered offer budget).Keeps := by
  obtain ⟨h, -⟩ := hd.reconciled hrefresh
  unfold ConnectionDriver.discovered
  split
  · exact hd.wake
  · split
    · exact hd.wake
    · rename_i hfree
      dsimp only
      split
      · exact hd.wake
      · simp only [List.any_eq_true, Bool.or_eq_true, decide_eq_true_eq, not_exists, not_and,
          not_or, ConnectAttempts.contains] at hfree
        refine hd.follow hrefresh hmode fun peer hin => ?_
        obtain ⟨e, he, rfl⟩ := List.mem_map.mp hin
        obtain ⟨he, hcontains⟩ := List.mem_filter.mp he
        have hqueue : d.reconnect.contains e.addr = false := by simpa using hcontains
        refine ⟨(hfree e he).1, hqueue, fun hmem => ?_⟩
        -- Every endpoint of the snapshot is connected, dialled or in the queue.
        rcases h.awaited e.addr hmem with hin | hin | hsome
        · exact (hfree e he).1 hin
        · exact (hfree e he).2 hin
        · rw [ReconnectQueue.contains_of_dueAt hsome] at hqueue
          cases hqueue

end ConnectionDriver

end Dlep
