-- SUMMARY: The connection registry agrees with its trackers, keeps its bounds, and never reuses a generation.
import Dlep.Daemon.Connections

/-!
# What the connection registry keeps

The states, the times of inactivity, the establishment counter and the watched snapshot
are one invariant: each clause needs the others to survive a registration, an expiry or
the drop of a tracker.
-/

namespace Dlep

namespace ConnectionRegistry

variable {result : Except DaemonError Unit} {call : RegistryCall} {r' : ConnectionRegistry}

/-! ## What the registry keeps -/

/-- A history that agrees with the trackers. -/
structure Tracks (trackers : List SocketAddr) (h : History) : Prop where
  active : ∀ peer state, h.states.lookup peer = some state →
    state.activeSessions = trackers.count peer
  live : ∀ peer ∈ trackers, ∃ state, h.states.lookup peer = some state
  since : ∀ peer state, h.states.lookup peer = some state → state.activeSessions = 0 →
    ∃ since, h.inactiveSince.lookup peer = some since
  within : ∀ peer since, h.inactiveSince.lookup peer = some since →
    ∃ state, h.states.lookup peer = some state
  counts : ∀ peer state, h.states.lookup peer = some state →
    state.establishmentCount ≤ h.nextEstablishment

variable {r : ConnectionRegistry} {h h' : History} {trackers : List SocketAddr}
  {peer other : SocketAddr} {state : PeerConnectionState} {now since : Instant}

/-- What a history that agrees with the trackers holds of an endpoint with `n` of them. -/
def TracksAt (next n : ℕ) : Option PeerConnectionState → Option Instant → Prop
  | none, since => n = 0 ∧ since = none
  | some state, since =>
    state.activeSessions = n ∧ state.establishmentCount ≤ next ∧ (n = 0 → since.isSome = true)

theorem Tracks.point (ht : Tracks trackers h) (peer : SocketAddr) :
    TracksAt h.nextEstablishment (trackers.count peer) (h.states.lookup peer)
      (h.inactiveSince.lookup peer) := by
  cases hstate : h.states.lookup peer with
  | none =>
    refine ⟨List.count_eq_zero.mpr fun hmem => ?_, Option.eq_none_iff_forall_ne_some.mpr ?_⟩
    · obtain ⟨state, hsome⟩ := ht.live peer hmem
      cases hstate.symm.trans hsome
    · intro since hsince
      obtain ⟨state, hsome⟩ := ht.within peer since hsince
      cases hstate.symm.trans hsome
  | some state =>
    refine ⟨ht.active peer state hstate, ht.counts peer state hstate, fun hnone => ?_⟩
    exact Option.isSome_iff_exists.mpr
      (ht.since peer state hstate ((ht.active peer state hstate).trans hnone))

/-- The clauses speak of one endpoint each. -/
theorem Tracks.of_points (hpoints : ∀ peer, TracksAt h.nextEstablishment (trackers.count peer)
    (h.states.lookup peer) (h.inactiveSince.lookup peer)) : Tracks trackers h where
  active peer state hstate := by
    have hpeer := hpoints peer
    rw [hstate] at hpeer
    exact hpeer.1
  live peer hmem := by
    refine Option.ne_none_iff_exists'.mp fun hnone => ?_
    have hpeer := hpoints peer
    rw [hnone] at hpeer
    exact List.count_eq_zero.mp hpeer.1 hmem
  since peer state hstate hzero := by
    have hpeer := hpoints peer
    rw [hstate] at hpeer
    exact Option.isSome_iff_exists.mp (hpeer.2.2 (hpeer.1.symm.trans hzero))
  within peer since hsince := by
    refine Option.ne_none_iff_exists'.mp fun hnone => ?_
    have hpeer := hpoints peer
    rw [hnone, hsince] at hpeer
    cases hpeer.2
  counts peer state hstate := by
    have hpeer := hpoints peer
    rw [hstate] at hpeer
    exact hpeer.2.1

theorem Tracks.pos (ht : Tracks trackers h) (hmem : peer ∈ trackers)
    (hstate : h.states.lookup peer = some state) : 0 < state.activeSessions := by
  rw [ht.active peer state hstate]
  exact List.count_pos_iff.mpr hmem

/-! ### Expiry -/

/-- An inactive discovered entry that is past its retention. -/
def Expired (r : ConnectionRegistry) (h : History) (now : Instant) (peer : SocketAddr) : Prop :=
  peer ∉ r.pinned ∧ ∃ state since, h.states.lookup peer = some state ∧ state.activeSessions = 0 ∧
    h.inactiveSince.lookup peer = some since ∧ r.limits.peerRetention ≤ now - since

theorem lookup_prune : (r.pruneLocked h now).states.lookup peer = some state ↔
    h.states.lookup peer = some state ∧ r.retained h now peer state = true :=
  FinMap.lookup_retain_eq_some

theorem lookup_prune_since : (r.pruneLocked h now).inactiveSince.lookup peer = some since ↔
    h.inactiveSince.lookup peer = some since ∧
      ∃ state, (r.pruneLocked h now).states.lookup peer = some state := by
  rw [← Option.isSome_iff_exists]
  exact FinMap.lookup_retain_eq_some

/-- Exactly the expired entries go. -/
theorem retained_iff (ht : Tracks trackers h) (hstate : h.states.lookup peer = some state) :
    r.retained h now peer state = true ↔ ¬ r.Expired h now peer := by
  have hsame : ∀ state', h.states.lookup peer = some state' → state' = state := fun _ h' =>
    Option.some.inj (h'.symm.trans hstate)
  simp only [retained, Bool.or_eq_true, decide_eq_true_eq, Option.all_eq_true]
  constructor
  · rintro hkept ⟨hpinned, state', since, hstate', hidle, hsince, hpast⟩
    cases hsame state' hstate'
    rcases hkept with (hkept | hkept) | hkept
    · exact hpinned hkept
    · omega
    · exact absurd hpast (Nat.not_le.mpr (hkept since hsince))
  · intro hlive
    by_contra hgone
    simp only [not_or] at hgone
    obtain ⟨⟨hpinned, hidle⟩, hpast⟩ := hgone
    have hzero : state.activeSessions = 0 := by omega
    obtain ⟨since, hsince⟩ := ht.since peer state hstate hzero
    refine hlive ⟨hpinned, state, since, hstate, hzero, hsince, ?_⟩
    by_contra hshort
    refine hpast fun since' hsince' => ?_
    cases hsince.symm.trans hsince'
    exact Nat.not_le.mp hshort

theorem Tracks.prune (ht : Tracks trackers h) (r : ConnectionRegistry) (now : Instant) :
    Tracks trackers (r.pruneLocked h now) where
  active peer state hstate := ht.active peer state (lookup_prune.mp hstate).1
  live peer hmem := by
    obtain ⟨state, hstate⟩ := ht.live peer hmem
    refine ⟨state, lookup_prune.mpr ⟨hstate, ?_⟩⟩
    have hpos := ht.pos hmem hstate
    simp [retained, hpos]
  since peer state hstate hzero := by
    obtain ⟨since, hsince⟩ := ht.since peer state (lookup_prune.mp hstate).1 hzero
    exact ⟨since, lookup_prune_since.mpr ⟨hsince, state, hstate⟩⟩
  within peer since hsince := (lookup_prune_since.mp hsince).2
  counts peer state hstate := ht.counts peer state (lookup_prune.mp hstate).1

/-! ### Room for a new entry -/

theorem mem_discovered : peer ∈ r.discovered h ↔
    (∃ state, h.states.lookup peer = some state) ∧ peer ∉ r.pinned := by
  rw [discovered, Finset.mem_filter, FinMap.mem_keys_iff]

theorem mem_idle : peer ∈ r.idle h ↔ (∃ since, h.inactiveSince.lookup peer = some since) ∧
    peer ∉ r.pinned ∧ ∃ state, h.states.lookup peer = some state ∧ state.activeSessions = 0 := by
  rw [idle, Finset.mem_filter, FinMap.mem_keys_iff, Option.map_eq_some_iff]

theorem needsRoom_eq_true : r.needsRoom h peer = true ↔ h.states.lookup peer = none ∧
    peer ∉ r.pinned ∧ r.limits.maxDiscoveredPeers ≤ (r.discovered h).card := by
  rw [needsRoom, decide_eq_true_eq]

/-- The discovered entry that has been inactive for longest. -/
structure IsOldest (r : ConnectionRegistry) (h : History) (old : SocketAddr) : Prop where
  mem : old ∈ r.idle h
  first : ∀ other ∈ r.idle h, ∀ since since', h.inactiveSince.lookup old = some since →
    h.inactiveSince.lookup other = some since' → since ≤ since'

theorem oldest_cases (ht : Tracks trackers h) :
    r.oldest h = .ok none ∧ r.idle h = ∅ ∨
      ∃ old, r.oldest h = .ok (some old) ∧ r.IsOldest h old := by
  have hindex : ¬ ∃ peer ∈ h.inactiveSince.keys, peer ∉ r.pinned ∧ h.states.lookup peer = none := by
    rintro ⟨peer, hmem, -, hnone⟩
    obtain ⟨since, hsince⟩ := (FinMap.mem_keys_iff _ _).mp hmem
    obtain ⟨state, hstate⟩ := ht.within peer since hsince
    cases hnone.symm.trans hstate
  unfold oldest
  rw [if_neg hindex]
  dsimp only
  split
  · rename_i hne
    obtain ⟨old, hold, hkey⟩ := Finset.mem_image.mp (Finset.min'_mem _ hne)
    refine .inr ⟨old, by rw [← hkey]; rfl, ?_⟩
    refine ⟨hold, fun other hother since since' hsince hsince' => ?_⟩
    -- The keys are ordered by time first.
    have hle := Finset.min'_le _ _ (Finset.mem_image_of_mem (idleKey h) hother)
    rw [← hkey] at hle
    have hfst := Prod.Lex.monotone_fst _ _ hle
    simpa [idleKey, hsince, hsince'] using hfst
  · rename_i hempty
    rw [Finset.image_nonempty, Finset.not_nonempty_iff_eq_empty] at hempty
    exact .inl ⟨rfl, hempty⟩

/-- What `makeRoom` does: nothing, one eviction, or a refusal. -/
inductive Room (r : ConnectionRegistry) (h : History) (peer : SocketAddr) : Option History → Prop where
  | free (hfree : r.needsRoom h peer = false) : Room r h peer (some h)
  | evicted {old : SocketAddr} (hfull : r.needsRoom h peer = true) (hold : r.IsOldest h old) :
      Room r h peer (some (h.evict old))
  | full (hfull : r.needsRoom h peer = true) (hidle : r.idle h = ∅) : Room r h peer none

theorem makeRoom_ok (ht : Tracks trackers h) (r : ConnectionRegistry) (peer : SocketAddr) :
    ∃ room, r.makeRoom h peer = .ok room ∧ r.Room h peer room := by
  unfold makeRoom
  rcases Bool.eq_false_or_eq_true (r.needsRoom h peer) with hfull | hfree
  · rw [if_pos hfull]
    rcases r.oldest_cases ht with ⟨hnone, hidle⟩ | ⟨old, hsome, hold⟩
    · rw [hnone]
      exact ⟨none, rfl, .full hfull hidle⟩
    · rw [hsome]
      exact ⟨some (h.evict old), rfl, .evicted hfull hold⟩
  · rw [if_neg (by simp [hfree])]
    exact ⟨some h, rfl, .free hfree⟩

theorem lookup_evict (old : SocketAddr) : (h.evict old).states.lookup peer =
    if peer = old then none else h.states.lookup peer := FinMap.lookup_erase_eq _ _ _

theorem lookup_evict_since (old : SocketAddr) : (h.evict old).inactiveSince.lookup peer =
    if peer = old then none else h.inactiveSince.lookup peer := FinMap.lookup_erase_eq _ _ _

theorem IsOldest.unheld {old : SocketAddr} (hold : r.IsOldest h old) (ht : Tracks trackers h) :
    old ∉ trackers := by
  obtain ⟨-, -, state, hstate, hzero⟩ := mem_idle.mp hold.mem
  intro hmem
  exact (ht.pos hmem hstate).ne' hzero

theorem Tracks.evict {old : SocketAddr} (ht : Tracks trackers h) (hold : old ∉ trackers) :
    Tracks trackers (h.evict old) := by
  refine .of_points fun peer => ?_
  rw [lookup_evict, lookup_evict_since]
  by_cases hsame : peer = old
  · rw [if_pos hsame, if_pos hsame, hsame]
    exact ⟨List.count_eq_zero.mpr hold, rfl⟩
  · rw [if_neg hsame, if_neg hsame]
    exact ht.point peer

theorem Room.tracks (hroom : r.Room h peer (some h')) (ht : Tracks trackers h) :
    Tracks trackers h' := by
  cases hroom with
  | free => exact ht
  | evicted _ hold => exact ht.evict (hold.unheld ht)

theorem discovered_evict (old : SocketAddr) :
    r.discovered (h.evict old) = (r.discovered h).erase old := by
  ext peer
  simp only [mem_discovered, Finset.mem_erase, lookup_evict]
  by_cases hne : peer = old <;> simp [hne]

/-- With room made, one more discovered entry fits. -/
theorem Room.bounded (hroom : r.Room h peer (some h'))
    (hbound : (r.discovered h).card ≤ r.limits.maxDiscoveredPeers) :
    (r.discovered h').card ≤ r.limits.maxDiscoveredPeers ∧
      (h'.states.lookup peer = none → peer ∉ r.pinned →
        (r.discovered h').card < r.limits.maxDiscoveredPeers) := by
  cases hroom with
  | free hfree =>
    refine ⟨hbound, fun hnew hpinned => ?_⟩
    by_contra hfull
    rw [needsRoom_eq_true.mpr ⟨hnew, hpinned, not_lt.mp hfull⟩] at hfree
    cases hfree
  | @evicted old _ hold =>
    obtain ⟨-, hpinned, state, hstate, -⟩ := mem_idle.mp hold.mem
    have hmem : old ∈ r.discovered h := mem_discovered.mpr ⟨⟨state, hstate⟩, hpinned⟩
    have hless := Finset.card_erase_lt_of_mem hmem
    rw [discovered_evict]
    exact ⟨by omega, fun _ _ => by omega⟩

/-! ### Counting sessions -/

theorem increment_cases (n : ℕ) :
    increment n = .ok (n + 1) ∨ increment n = .error .overflow ∧ 2 ^ 64 ≤ n + 1 := by
  unfold increment
  split
  · exact .inl rfl
  · rename_i hbig
    exact .inr ⟨rfl, not_lt.mp hbig⟩

/-- The history with one more session of `peer`. -/
def enrolled (h : History) (peer : SocketAddr) (now : Instant) : History :=
  let state := (h.states.lookup peer).getD .default
  { h with
    states := h.states.insert peer { state with activeSessions := state.activeSessions + 1 }
    inactiveSince :=
      if h.states.lookup peer = none then h.inactiveSince.insert peer now else h.inactiveSince }

theorem Tracks.sessions (ht : Tracks trackers h) (peer : SocketAddr) :
    ((h.states.lookup peer).getD .default).activeSessions = trackers.count peer := by
  have hpeer := ht.point peer
  cases hstate : h.states.lookup peer with
  | some state => exact ht.active peer state hstate
  | none =>
    rw [hstate] at hpeer
    exact hpeer.1.symm

theorem enroll_cases (ht : Tracks trackers h) (peer : SocketAddr) (now : Instant) :
    enroll h peer now = .ok (enrolled h peer now) ∨
      enroll h peer now = .error .overflow ∧ 2 ^ 64 ≤ trackers.length + 1 := by
  unfold enroll
  rcases increment_cases ((h.states.lookup peer).getD .default).activeSessions
    with hok | ⟨herror, hbig⟩
  · left
    simp only [hok, bind, Except.bind]
    rfl
  · right
    refine ⟨by simp only [herror, bind, Except.bind], ?_⟩
    rw [ht.sessions] at hbig
    have := List.count_le_length (a := peer) (l := trackers)
    omega

theorem lookup_enrolled (other : SocketAddr) : (enrolled h peer now).states.lookup other =
    if other = peer then
      some { (h.states.lookup peer).getD .default with
        activeSessions := ((h.states.lookup peer).getD .default).activeSessions + 1 }
    else h.states.lookup other := FinMap.lookup_insert_eq _ _ _ _

theorem lookup_enrolled_since (other : SocketAddr) :
    (enrolled h peer now).inactiveSince.lookup other =
      if other = peer ∧ h.states.lookup peer = none then some now
      else h.inactiveSince.lookup other := by
  unfold enrolled
  dsimp only
  split
  · rename_i hnew
    rw [FinMap.lookup_insert_eq]
    simp [hnew]
  · rename_i hold
    simp [hold]

theorem Tracks.enroll (ht : Tracks trackers h) (peer : SocketAddr) (now : Instant) :
    Tracks (peer :: trackers) (enrolled h peer now) := by
  refine .of_points fun other => ?_
  rw [lookup_enrolled, lookup_enrolled_since]
  by_cases hsame : other = peer
  · rw [if_pos hsame, hsame, List.count_cons_self]
    refine ⟨congrArg (· + 1) (ht.sessions peer), ?_, nofun⟩
    cases hold : h.states.lookup peer with
    | none => exact Nat.zero_le _
    | some state => exact ht.counts peer state hold
  · rw [if_neg hsame, if_neg fun hboth => hsame hboth.1, List.count_cons_of_ne (Ne.symm hsame)]
    exact ht.point other

theorem discovered_enrolled : r.discovered (enrolled h peer now) =
    if peer ∈ r.pinned then r.discovered h else insert peer (r.discovered h) := by
  ext other
  simp only [mem_discovered, lookup_enrolled]
  by_cases hne : other = peer
  · subst hne
    by_cases hpinned : other ∈ r.pinned <;> simp [hpinned, mem_discovered]
  · by_cases hpinned : peer ∈ r.pinned <;> simp [hpinned, hne, mem_discovered]

theorem TracksAt.mono {next next' n : ℕ} {entry : Option PeerConnectionState}
    {since : Option Instant} (h : TracksAt next n entry since) (hle : next ≤ next') :
    TracksAt next' n entry since := by
  cases entry with
  | none => exact h
  | some state => exact ⟨h.1, h.2.1.trans hle, h.2.2⟩

theorem Tracks.establish (ht : Tracks trackers h) (hmem : peer ∈ trackers)
    (hstate : h.states.lookup peer = some state) :
    Tracks trackers (establish h peer state (h.nextEstablishment + 1)) := by
  refine .of_points fun other => ?_
  simp only [ConnectionRegistry.establish, FinMap.lookup_insert_eq, FinMap.lookup_erase_eq]
  by_cases hsame : other = peer
  · rw [if_pos hsame, hsame]
    exact ⟨ht.active peer state hstate, le_rfl, fun hnone =>
      absurd hmem (List.count_eq_zero.mp hnone)⟩
  · rw [if_neg hsame, if_neg hsame]
    exact (ht.point other).mono (Nat.le_succ _)

theorem lookup_release_since (other : SocketAddr) :
    (release h peer state since).inactiveSince.lookup other =
      if other = peer ∧ state.activeSessions - 1 = 0 ∧ h.inactiveSince.lookup peer = none then
        some since
      else h.inactiveSince.lookup other := by
  unfold release
  dsimp only
  split
  · rename_i hidle
    rw [FinMap.lookup_insert_eq]
    simp [hidle]
  · rename_i hbusy
    simp [hbusy]

theorem Tracks.release (ht : Tracks trackers h)
    (hstate : h.states.lookup peer = some state) (since : Instant) :
    Tracks (trackers.erase peer) (release h peer state since) := by
  refine .of_points fun other => ?_
  have hother : (ConnectionRegistry.release h peer state since).states.lookup other = _ :=
    FinMap.lookup_insert_eq _ _ _ _
  rw [hother, lookup_release_since]
  by_cases hsame : other = peer
  · have hactive : state.activeSessions - 1 = (trackers.erase peer).count peer := by
      rw [List.count_erase_self, ht.active peer state hstate]
    rw [if_pos hsame, hsame, ← hactive]
    refine ⟨rfl, ht.counts peer state hstate, fun hzero => ?_⟩
    cases hold : h.inactiveSince.lookup peer <;> simp [hzero]
  · rw [if_neg hsame, if_neg fun hboth => hsame hboth.1, List.count_erase_of_ne hsame]
    exact ht.point other

/-! ## Every call -/

/-- The invariant of the registry. -/
structure Valid (r : ConnectionRegistry) : Prop where
  tracks : Tracks r.trackers r.history
  bounded : (r.discovered r.history).card ≤ r.limits.maxDiscoveredPeers
  watched : r.watched = r.history.states

theorem valid_new (limits : RouterLimits) (pinned : Finset SocketAddr) :
    (new limits pinned).Valid where
  tracks := by
    refine ⟨?_, ?_, ?_, ?_, ?_⟩ <;> simp [new]
  bounded := Nat.zero_le _
  watched := rfl

/-- The time at which a call drops what has expired. -/
def prunesAt (r : ConnectionRegistry) : RegistryCall → Option Instant
  | .register _ now => some now
  | .established _ => none
  | .drop peer _ now => if peer ∈ r.trackers then some now else none
  | .prune now => some now

/-- What one call may do to the entries. -/
structure CallEffect (r : ConnectionRegistry) (call : RegistryCall)
    (result : Except DaemonError Unit) (r' : ConnectionRegistry) : Prop where
  /-- A pinned entry stays, and so does one that still has a tracker. -/
  kept : ∀ peer ∈ r.history.states.keys, peer ∈ r.pinned ∨ peer ∈ r'.trackers →
    peer ∈ r'.history.states.keys
  /-- A registration is refused only by a full registry of active entries. -/
  refused : ∀ peer now e, call = .register peer now → result = .error e →
    (r.discovered r.history).card = r.limits.maxDiscoveredPeers ∧
      ∀ other ∈ r.discovered r.history, other ∈ r.trackers
  /-- Besides what has expired, a registration removes at most the longest inactive entry. -/
  evicts : ∀ peer now, call = .register peer now → ∃ evicted : Option SocketAddr,
    (∀ other ∈ r.history.states.keys, other ∉ r'.history.states.keys →
      r.Expired r.history now other ∨ evicted = some other) ∧
    ∀ old ∈ evicted, r.IsOldest (r.pruneLocked r.history now) old
  /-- Only an establishment or its own removal ends the retention period of an entry. -/
  since : ∀ peer since, r.history.inactiveSince.lookup peer = some since →
    call ≠ .established peer → r'.history.inactiveSince.lookup peer = some since ∨
      peer ∉ r'.history.states.keys ∨
      ∃ now, call = .register peer now ∧ r.Expired r.history now peer
  /-- Nothing is left that has expired. -/
  reaped : ∀ now, r.prunesAt call = some now → ∀ peer, ¬ r'.Expired r'.history now peer
  /-- A new generation exceeds all before it; every other count is an old one or that of a new entry. -/
  generation : ∀ peer ∈ r.trackers, call = .established peer →
    ∃ state, r'.history.states.lookup peer = some state ∧
      r.history.nextEstablishment < state.establishmentCount
  counts : ∀ peer state', r'.history.states.lookup peer = some state' → call ≠ .established peer →
    state'.establishmentCount = 0 ∨ ∃ state, r.history.states.lookup peer = some state ∧
      state'.establishmentCount = state.establishmentCount

/-! ### What is left of a history -/

/-- Every entry of `h'` is one of `h`. -/
structure Restricts (h' h : History) : Prop where
  states : ∀ peer state, h'.states.lookup peer = some state → h.states.lookup peer = some state
  since : ∀ peer since, h'.inactiveSince.lookup peer = some since →
    h.inactiveSince.lookup peer = some since
  nextEstablishment : h'.nextEstablishment = h.nextEstablishment

theorem Restricts.trans {h'' : History} (hrest : Restricts h' h) (hrest' : Restricts h'' h') :
    Restricts h'' h where
  states peer state hstate := hrest.states peer state (hrest'.states peer state hstate)
  since peer since hsince := hrest.since peer since (hrest'.since peer since hsince)
  nextEstablishment := hrest'.nextEstablishment.trans hrest.nextEstablishment

theorem restricts_prune (r : ConnectionRegistry) (h : History) (now : Instant) :
    Restricts (r.pruneLocked h now) h where
  states _ _ hstate := (lookup_prune.mp hstate).1
  since _ _ hsince := (lookup_prune_since.mp hsince).1
  nextEstablishment := rfl

theorem restricts_evict (h : History) (old : SocketAddr) : Restricts (h.evict old) h where
  states peer state hstate := by
    rw [lookup_evict] at hstate
    split at hstate
    · cases hstate
    · exact hstate
  since peer since hsince := by
    rw [lookup_evict_since] at hsince
    split at hsince
    · cases hsince
    · exact hsince
  nextEstablishment := rfl

theorem Room.restricts (hroom : r.Room h peer (some h')) : Restricts h' h := by
  cases hroom with
  | free => exact ⟨fun _ _ => id, fun _ _ => id, rfl⟩
  | evicted => exact restricts_evict h _

theorem Restricts.expired (hrest : Restricts h' h) (hexpired : r.Expired h' now peer) :
    r.Expired h now peer := by
  obtain ⟨hpinned, state, since, hstate, hzero, hsince, hpast⟩ := hexpired
  exact ⟨hpinned, state, since, hrest.states _ _ hstate, hzero, hrest.since _ _ hsince, hpast⟩

theorem not_expired_prune (ht : Tracks trackers h) (peer : SocketAddr) :
    ¬ r.Expired (r.pruneLocked h now) now peer := by
  intro hexpired
  obtain ⟨state, -, hstate, -⟩ := hexpired.2
  obtain ⟨hold, hretained⟩ := lookup_prune.mp hstate
  exact (retained_iff ht hold).mp hretained ((restricts_prune r h now).expired hexpired)

theorem prune_keeps (now : Instant) (ht : Tracks trackers h)
    (hstate : h.states.lookup peer = some state) (hlive : ¬ r.Expired h now peer) :
    (r.pruneLocked h now).states.lookup peer = some state :=
  lookup_prune.mpr ⟨hstate, (retained_iff ht hstate).mpr hlive⟩

/-- Nothing pinned and nothing with a tracker expires. -/
theorem Tracks.not_expired (ht : Tracks trackers h) (hkept : peer ∈ r.pinned ∨ peer ∈ trackers) :
    ¬ r.Expired h now peer := by
  rintro ⟨hpinned, state, since, hstate, hzero, -⟩
  rcases hkept with hkept | hkept
  · exact hpinned hkept
  · exact (ht.pos hkept hstate).ne' hzero

theorem Tracks.mem_prune (ht : Tracks trackers h) (now : Instant) (hmem : peer ∈ h.states.keys)
    (hkept : peer ∈ r.pinned ∨ peer ∈ trackers) : peer ∈ (r.pruneLocked h now).states.keys := by
  obtain ⟨state, hstate⟩ := (FinMap.mem_keys_iff _ _).mp hmem
  exact (FinMap.mem_keys_iff _ _).mpr ⟨state, prune_keeps now ht hstate (ht.not_expired hkept)⟩

theorem prune_since (r : ConnectionRegistry) (now : Instant)
    (hsince : h.inactiveSince.lookup peer = some since) :
    (r.pruneLocked h now).inactiveSince.lookup peer = some since ∨
      peer ∉ (r.pruneLocked h now).states.keys := by
  by_cases hkept : ∃ state, (r.pruneLocked h now).states.lookup peer = some state
  · exact .inl (lookup_prune_since.mpr ⟨hsince, hkept⟩)
  · rw [FinMap.mem_keys_iff]
    exact .inr hkept

theorem card_discovered_le (hrest : Restricts h' h) (r : ConnectionRegistry) :
    (r.discovered h').card ≤ (r.discovered h).card := by
  refine Finset.card_le_card fun peer hmem => ?_
  obtain ⟨⟨state, hstate⟩, hpinned⟩ := mem_discovered.mp hmem
  exact mem_discovered.mpr ⟨⟨state, hrest.states _ _ hstate⟩, hpinned⟩

/-! ### Pruning -/

theorem Valid.prune (hr : r.Valid) (now : Instant) : (r.prune now).Valid := by
  have hbound : (r.discovered (r.pruneLocked r.history now)).card ≤ r.limits.maxDiscoveredPeers :=
    (card_discovered_le (restricts_prune r r.history now) r).trans hr.bounded
  unfold ConnectionRegistry.prune
  dsimp only
  split
  · exact ⟨hr.tracks.prune r now, hbound, rfl⟩
  · rename_i hsame
    refine ⟨hr.tracks.prune r now, hbound, ?_⟩
    rw [hr.watched]
    exact (FinMap.retain_eq_self (not_not.mp hsame)).symm

theorem prune_history (r : ConnectionRegistry) (now : Instant) :
    (r.prune now).history = r.pruneLocked r.history now ∧ (r.prune now).pinned = r.pinned ∧
      (r.prune now).limits = r.limits ∧ (r.prune now).trackers = r.trackers := by
  unfold ConnectionRegistry.prune
  dsimp only
  split <;> exact ⟨rfl, rfl, rfl, rfl⟩

theorem Expired.congr {r r' : ConnectionRegistry} (hpinned : r'.pinned = r.pinned)
    (hlimits : r'.limits = r.limits) (hexpired : r'.Expired h now peer) :
    r.Expired h now peer := by
  unfold Expired at hexpired ⊢
  rwa [hpinned, hlimits] at hexpired

theorem Valid.prune_effect (hr : r.Valid) (now : Instant) :
    r.CallEffect (.prune now) (.ok ()) (r.prune now) := by
  obtain ⟨hhistory, hpinned, hlimits, htrackers⟩ := r.prune_history now
  refine ⟨?_, nofun, nofun, ?_, ?_, nofun, ?_⟩
  · intro peer hmem hkept
    rw [htrackers] at hkept
    rw [hhistory]
    exact hr.tracks.mem_prune now hmem hkept
  · intro peer since hsince _
    rw [hhistory]
    exact (prune_since r now hsince).imp_right .inl
  · rintro _ ⟨⟩ peer hexpired
    rw [hhistory] at hexpired
    exact not_expired_prune hr.tracks peer (hexpired.congr hpinned hlimits)
  · intro peer state' hstate' _
    rw [hhistory] at hstate'
    exact .inr ⟨state', (lookup_prune.mp hstate').1, rfl⟩

/-! ### Registration -/

/-- The registry after a registration that found room. -/
def registered (r : ConnectionRegistry) (h : History) (peer : SocketAddr) (now : Instant) :
    ConnectionRegistry :=
  { r.publish (enrolled h peer now) with trackers := peer :: r.trackers }

theorem register_cases (hr : r.Valid) (peer : SocketAddr) (now : Instant) :
    (r.Room (r.pruneLocked r.history now) peer none ∧
      r.register peer now =
        .ok (r.publish (r.pruneLocked r.history now), .error .peerHistoryFull)) ∨
    ∃ h', r.Room (r.pruneLocked r.history now) peer (some h') ∧
      (r.register peer now = .ok (r.registered h' peer now, .ok ()) ∨
        r.register peer now = .error .overflow ∧ 2 ^ 64 ≤ r.trackers.length + 1) := by
  have ht := hr.tracks.prune r now
  obtain ⟨room, hok, hroom⟩ := makeRoom_ok ht r peer
  unfold register
  cases room with
  | none =>
    refine .inl ⟨hroom, ?_⟩
    simp only [hok, bind, Except.bind]
  | some h' =>
    refine .inr ⟨h', hroom, ?_⟩
    rcases enroll_cases (hroom.tracks ht) peer now with henroll | ⟨hover, hbig⟩
    · left
      simp only [hok, henroll, bind, Except.bind]
      rfl
    · right
      refine ⟨?_, hbig⟩
      simp only [hok, hover, bind, Except.bind]

theorem Valid.registered (hr : r.Valid)
    (hroom : r.Room (r.pruneLocked r.history now) peer (some h')) :
    (r.registered h' peer now).Valid := by
  have ht := hroom.tracks (hr.tracks.prune r now)
  have hbound := (card_discovered_le (restricts_prune r r.history now) r).trans hr.bounded
  obtain ⟨hfits, hfree⟩ := hroom.bounded hbound
  refine ⟨ht.enroll peer now, ?_, rfl⟩
  change (r.discovered (enrolled h' peer now)).card ≤ r.limits.maxDiscoveredPeers
  rw [discovered_enrolled]
  split
  · exact hfits
  · rename_i hpinned
    cases hnew : h'.states.lookup peer with
    | none => exact (Finset.card_insert_le _ _).trans (hfree hnew hpinned)
    | some state =>
      rw [Finset.insert_eq_of_mem (mem_discovered.mpr ⟨⟨state, hnew⟩, hpinned⟩)]
      exact hfits

/-- Making room removes nothing but the longest inactive entry. -/
theorem Room.keeps (hroom : r.Room h peer (some h')) (hstate : h.states.lookup other = some state) :
    (h'.states.lookup other = some state ∧
      h'.inactiveSince.lookup other = h.inactiveSince.lookup other) ∨
    r.IsOldest h other ∧ h.states.lookup peer = none ∧ h' = h.evict other := by
  cases hroom with
  | free => exact .inl ⟨hstate, rfl⟩
  | @evicted old hfull hold =>
    by_cases hne : other = old
    · subst hne
      exact .inr ⟨hold, (needsRoom_eq_true.mp hfull).1, rfl⟩
    · left
      rw [lookup_evict, lookup_evict_since, if_neg hne, if_neg hne]
      exact ⟨hstate, rfl⟩

theorem mem_keys_registered (other : SocketAddr) :
    other ∈ (r.registered h' peer now).history.states.keys ↔
      other = peer ∨ other ∈ h'.states.keys := by
  change other ∈ (enrolled h' peer now).states.keys ↔ _
  rw [enrolled, FinMap.keys_insert, Finset.mem_insert]

theorem Valid.registered_evicts (hr : r.Valid)
    (hroom : r.Room (r.pruneLocked r.history now) peer (some h')) :
    ∃ evicted : Option SocketAddr,
      (∀ other ∈ r.history.states.keys,
        other ∉ (r.registered h' peer now).history.states.keys →
        r.Expired r.history now other ∨ evicted = some other) ∧
      ∀ old ∈ evicted, r.IsOldest (r.pruneLocked r.history now) old := by
  cases hroom with
  | free =>
    refine ⟨none, fun other hmem hgone => .inl ?_, nofun⟩
    by_contra hlive
    obtain ⟨state, hstate⟩ := (FinMap.mem_keys_iff _ _).mp hmem
    rw [mem_keys_registered, FinMap.mem_keys_iff] at hgone
    exact hgone (.inr ⟨state, prune_keeps now hr.tracks hstate hlive⟩)
  | @evicted old _ hold =>
    refine ⟨some old, fun other hmem hgone => ?_, by rintro _ ⟨⟩; exact hold⟩
    by_contra hboth
    rw [not_or] at hboth
    obtain ⟨state, hstate⟩ := (FinMap.mem_keys_iff _ _).mp hmem
    rw [mem_keys_registered, FinMap.mem_keys_iff, lookup_evict,
      if_neg fun hsame => hboth.2 (congrArg some hsame.symm)] at hgone
    exact hgone (.inr ⟨state, prune_keeps now hr.tracks hstate hboth.1⟩)

theorem Valid.registered_effect (hr : r.Valid)
    (hroom : r.Room (r.pruneLocked r.history now) peer (some h')) :
    r.CallEffect (.register peer now) (.ok ()) (r.registered h' peer now) := by
  have hpruned := hr.tracks.prune r now
  have hrest : Restricts h' r.history :=
    (restricts_prune r r.history now).trans hroom.restricts
  refine ⟨?_, nofun, ?_, ?_, ?_, nofun, ?_⟩
  · intro other hmem hkept
    rw [mem_keys_registered]
    by_cases hsame : other = peer
    · exact .inl hsame
    · right
      have hkept : other ∈ r.pinned ∨ other ∈ r.trackers :=
        hkept.imp_right fun hmem => (List.mem_cons.mp hmem).resolve_left hsame
      obtain ⟨state, hstate⟩ := (FinMap.mem_keys_iff _ _).mp hmem
      have hstate := prune_keeps now hr.tracks hstate (hr.tracks.not_expired hkept)
      rcases hroom.keeps hstate with ⟨hstate, -⟩ | ⟨hold, -⟩
      · exact (FinMap.mem_keys_iff _ _).mpr ⟨state, hstate⟩
      · rcases hkept with hkept | hkept
        · exact absurd hkept (mem_idle.mp hold.mem).2.1
        · exact absurd hkept (hold.unheld hpruned)
  · rintro _ _ ⟨⟩
    exact hr.registered_evicts hroom
  · intro other since hsince _
    by_cases hexpired : r.Expired r.history now other
    · by_cases hsame : other = peer
      · exact .inr (.inr ⟨now, by rw [hsame], hexpired⟩)
      · refine .inr (.inl ?_)
        rw [mem_keys_registered, FinMap.mem_keys_iff]
        rintro (hpeer | ⟨state, hstate⟩)
        · exact hsame hpeer
        · obtain ⟨hold, hretained⟩ := lookup_prune.mp (hroom.restricts.states _ _ hstate)
          exact (retained_iff hr.tracks hold).mp hretained hexpired
    · obtain ⟨state, hstate⟩ := hr.tracks.within other since hsince
      have hstate := prune_keeps now hr.tracks hstate hexpired
      have hsince := lookup_prune_since.mpr ⟨hsince, state, hstate⟩
      rcases hroom.keeps hstate with ⟨hstate', hsince'⟩ | ⟨-, hnew, heq⟩
      · left
        change (enrolled h' peer now).inactiveSince.lookup other = some since
        rw [lookup_enrolled_since, if_neg, hsince']
        · exact hsince
        · rintro ⟨rfl, hnone⟩
          cases hnone.symm.trans hstate'
      · refine .inr (.inl ?_)
        rw [mem_keys_registered, FinMap.mem_keys_iff, heq, lookup_evict]
        rintro (rfl | ⟨state', hstate'⟩)
        · cases hnew.symm.trans hstate
        · rw [if_pos rfl] at hstate'
          cases hstate'
  · rintro _ ⟨⟩ other ⟨hpinned, state, since, hstate, hzero, hsince, hpast⟩
    change (enrolled h' peer now).states.lookup other = some state at hstate
    change (enrolled h' peer now).inactiveSince.lookup other = some since at hsince
    rw [lookup_enrolled] at hstate
    split at hstate
    · cases hstate
      cases hzero
    · rename_i hne
      rw [lookup_enrolled_since, if_neg (fun hboth => hne hboth.1)] at hsince
      exact not_expired_prune hr.tracks other
        (hroom.restricts.expired ⟨hpinned, state, since, hstate, hzero, hsince, hpast⟩)
  · intro other state' hstate' _
    change (enrolled h' peer now).states.lookup other = some state' at hstate'
    rw [lookup_enrolled] at hstate'
    split at hstate'
    · rename_i hsame
      cases hstate'
      cases hold : h'.states.lookup peer with
      | none => exact .inl rfl
      | some state =>
        rw [hsame]
        exact .inr ⟨state, hrest.states _ _ hold, rfl⟩
    · exact .inr ⟨state', hrest.states _ _ hstate', rfl⟩

/-- A refusal prunes; since the registry was within its limit, no discovered entry was lost. -/
theorem Valid.refused_effect (hr : r.Valid)
    (hroom : r.Room (r.pruneLocked r.history now) peer none) (e : DaemonError) :
    r.CallEffect (.register peer now) (.error e) (r.publish (r.pruneLocked r.history now)) := by
  cases hroom with
  | full hfull hidle =>
    have hcard := (needsRoom_eq_true.mp hfull).2.2
    have hsame : r.discovered (r.pruneLocked r.history now) = r.discovered r.history := by
      refine Finset.eq_of_subset_of_card_le (fun other hmem => ?_) (hr.bounded.trans hcard)
      obtain ⟨⟨state, hstate⟩, hpinned⟩ := mem_discovered.mp hmem
      exact mem_discovered.mpr ⟨⟨state, (lookup_prune.mp hstate).1⟩, hpinned⟩
    refine ⟨fun _ hmem hkept => hr.tracks.mem_prune now hmem hkept, ?_, ?_,
      fun _ _ hsince _ => (prune_since r now hsince).imp_right .inl, ?_, nofun, ?_⟩
    · rintro _ _ _ ⟨⟩ _
      rw [hsame] at hcard
      refine ⟨le_antisymm hr.bounded hcard, fun other hmem => ?_⟩
      -- An entry without a tracker would be idle, and there is no idle entry.
      rw [← hsame] at hmem
      obtain ⟨⟨state, hstate⟩, hpinned⟩ := mem_discovered.mp hmem
      have ht := hr.tracks.prune r now
      by_contra hunheld
      have hzero : state.activeSessions = 0 := by
        rw [ht.active other state hstate]
        exact List.count_eq_zero.mpr hunheld
      have hmem := mem_idle.mpr ⟨ht.since other state hstate hzero, hpinned, state, hstate, hzero⟩
      rw [hidle] at hmem
      exact Finset.notMem_empty other hmem
    · rintro _ _ ⟨⟩
      refine ⟨none, fun other hmem hgone => .inl ?_, nofun⟩
      by_contra hlive
      obtain ⟨state, hstate⟩ := (FinMap.mem_keys_iff _ _).mp hmem
      exact hgone ((FinMap.mem_keys_iff _ _).mpr ⟨state, prune_keeps now hr.tracks hstate hlive⟩)
    · rintro _ ⟨⟩ other hexpired
      exact not_expired_prune hr.tracks other hexpired
    · intro other state' hstate' _
      exact .inr ⟨state', (lookup_prune.mp hstate').1, rfl⟩

theorem Valid.refused (hr : r.Valid) (now : Instant) :
    (r.publish (r.pruneLocked r.history now)).Valid :=
  ⟨hr.tracks.prune r now,
    (card_discovered_le (restricts_prune r r.history now) r).trans hr.bounded, rfl⟩

/-! ### Establishment -/

theorem discovered_insert (hstate : h.states.lookup peer = some state) (state' : PeerConnectionState)
    (since : FinMap SocketAddr Instant) (next : ℕ) :
    r.discovered ⟨h.states.insert peer state', since, next⟩ = r.discovered h := by
  have hmem : peer ∈ h.states.keys := (FinMap.mem_keys_iff _ _).mpr ⟨state, hstate⟩
  unfold discovered
  rw [FinMap.keys_insert, Finset.insert_eq_of_mem hmem]

theorem mem_keys_insert (hstate : h.states.lookup peer = some state) (state' : PeerConnectionState) :
    (h.states.insert peer state').keys = h.states.keys := by
  rw [FinMap.keys_insert, Finset.insert_eq_of_mem]
  exact (FinMap.mem_keys_iff _ _).mpr ⟨state, hstate⟩

theorem established_cases (hr : r.Valid) (hmem : peer ∈ r.trackers) :
    ∃ state, r.history.states.lookup peer = some state ∧
      (r.established peer =
          .ok (r.publish (establish r.history peer state (r.history.nextEstablishment + 1))) ∨
        r.established peer = .error .overflow ∧ 2 ^ 64 ≤ r.history.nextEstablishment + 1) := by
  obtain ⟨state, hstate⟩ := hr.tracks.live peer hmem
  refine ⟨state, hstate, ?_⟩
  unfold established
  rw [if_neg (not_not.mpr hmem)]
  rcases increment_cases r.history.nextEstablishment with hok | ⟨hover, hbig⟩
  · left
    simp only [hok, hstate, bind, Except.bind]
  · right
    refine ⟨?_, hbig⟩
    simp only [hover, bind, Except.bind]

theorem Valid.established (hr : r.Valid) (hmem : peer ∈ r.trackers)
    (hstate : r.history.states.lookup peer = some state) :
    (r.publish (establish r.history peer state (r.history.nextEstablishment + 1))).Valid := by
  refine ⟨hr.tracks.establish hmem hstate, ?_, rfl⟩
  change (r.discovered (establish _ _ _ _)).card ≤ _
  rw [establish, discovered_insert hstate]
  exact hr.bounded

theorem established_effect (hstate : r.history.states.lookup peer = some state) :
    r.CallEffect (.established peer) (.ok ())
      (r.publish (establish r.history peer state (r.history.nextEstablishment + 1))) := by
  refine ⟨?_, nofun, nofun, ?_, nofun, ?_, ?_⟩
  · intro other hother _
    change other ∈ (r.history.states.insert peer _).keys
    rwa [mem_keys_insert hstate]
  · intro other since hsince hne
    left
    change (r.history.inactiveSince.erase peer).lookup other = some since
    rw [FinMap.lookup_erase_eq, if_neg]
    · exact hsince
    · rintro rfl
      exact hne rfl
  · rintro _ _ ⟨⟩
    refine ⟨_, (FinMap.lookup_insert_eq _ _ _ _).trans (if_pos rfl), ?_⟩
    exact Nat.lt_succ_self _
  · intro other state' hstate' hne
    change (r.history.states.insert peer _).lookup other = some state' at hstate'
    rw [FinMap.lookup_insert_eq, if_neg] at hstate'
    · exact .inr ⟨state', hstate', rfl⟩
    · rintro rfl
      exact hne rfl

/-! ### The drop of a tracker -/

/-- The registry after the drop of a tracker of `peer`. -/
def dropped (r : ConnectionRegistry) (peer : SocketAddr) (state : PeerConnectionState)
    (since now : Instant) : ConnectionRegistry :=
  { r.publish (r.pruneLocked (release r.history peer state since) now) with
    trackers := r.trackers.erase peer }

theorem drop_ok (hr : r.Valid) (hmem : peer ∈ r.trackers) (since now : Instant) :
    ∃ state, r.history.states.lookup peer = some state ∧
      r.drop peer since now = .ok (r.dropped peer state since now) := by
  obtain ⟨state, hstate⟩ := hr.tracks.live peer hmem
  refine ⟨state, hstate, ?_⟩
  have hpos := (hr.tracks.pos hmem hstate).ne'
  simp only [drop, hmem, hstate, hpos, not_true_eq_false, if_false]
  rfl

theorem Valid.dropped (hr : r.Valid) (hstate : r.history.states.lookup peer = some state)
    (since now : Instant) : (r.dropped peer state since now).Valid := by
  have ht := hr.tracks.release hstate since
  refine ⟨ht.prune r now, ?_, rfl⟩
  refine (card_discovered_le (restricts_prune r _ now) r).trans ?_
  rw [release, discovered_insert hstate]
  exact hr.bounded

theorem Valid.dropped_effect (hr : r.Valid) (hstate : r.history.states.lookup peer = some state)
    (since now : Instant) :
    r.CallEffect (.drop peer since now) (.ok ()) (r.dropped peer state since now) := by
  have ht := hr.tracks.release hstate since
  refine ⟨?_, nofun, nofun, ?_, ?_, nofun, ?_⟩
  · intro other hmem hkept
    refine ht.mem_prune now ?_ hkept
    change other ∈ (r.history.states.insert peer _).keys
    rwa [mem_keys_insert hstate]
  · intro other since' hsince' _
    refine (prune_since r now ?_).imp_right .inl
    rw [lookup_release_since, if_neg]
    · exact hsince'
    · rintro ⟨rfl, -, hnone⟩
      cases hnone.symm.trans hsince'
  · intro now' hnow other hexpired
    have hnow : (if peer ∈ r.trackers then some now else none) = some now' := hnow
    split at hnow
    · cases hnow
      exact not_expired_prune ht other hexpired
    · cases hnow
  · intro other state' hstate' _
    obtain ⟨hold, -⟩ := lookup_prune.mp hstate'
    rw [release, FinMap.lookup_insert_eq] at hold
    split at hold
    · rename_i hsame
      cases hold
      rw [hsame]
      exact .inr ⟨state, hstate, rfl⟩
    · exact .inr ⟨state', hold, rfl⟩

/-! ### Steps -/

theorem CallEffect.refl (hcall : ∀ peer now, call ≠ .register peer now)
    (hnow : r.prunesAt call = none) (hgeneration : ∀ peer ∈ r.trackers, call ≠ .established peer) :
    r.CallEffect call (.ok ()) r where
  kept _ hmem _ := hmem
  refused peer now _ hcall' := absurd hcall' (hcall peer now)
  evicts peer now hcall' := absurd hcall' (hcall peer now)
  since _ _ hsince _ := .inl hsince
  reaped _ hsome := nomatch hnow.symm.trans hsome
  generation peer hmem hcall' := absurd hcall' (hgeneration peer hmem)
  counts _ state' hstate' _ := .inr ⟨state', hstate', rfl⟩

/-- The trackers that are out after a call: an accepted registration hands one out, and its drop
takes it back. -/
def held (trackers : List SocketAddr) : RegistryCall → Except DaemonError Unit → List SocketAddr
  | .register peer _, .ok () => peer :: trackers
  | .drop peer _ _, _ => trackers.erase peer
  | _, _ => trackers

/-- An upper bound on every counter. -/
def used (r : ConnectionRegistry) : ℕ := r.history.nextEstablishment + r.trackers.length

/-- What a call that returns promises. -/
structure Performs (r : ConnectionRegistry) (call : RegistryCall)
    (result : Except DaemonError Unit) (r' : ConnectionRegistry) : Prop where
  valid : r'.Valid
  effect : r.CallEffect call result r'
  next : r.history.nextEstablishment ≤ r'.history.nextEstablishment
  used : r'.used ≤ r.used + 1
  config : r'.limits = r.limits ∧ r'.pinned = r.pinned
  held : r'.trackers = held r.trackers call result

theorem Valid.register_step (hr : r.Valid) (peer : SocketAddr) (now : Instant) :
    (∃ r' result, r.register peer now = .ok (r', result) ∧
      r.Performs (.register peer now) result r') ∨
    r.register peer now = .error .overflow ∧ 2 ^ 64 ≤ r.used + 1 := by
  rcases register_cases hr peer now with ⟨hroom, hok⟩ | ⟨h', hroom, hok | ⟨hover, hbig⟩⟩
  · refine .inl ⟨_, _, hok, hr.refused now, hr.refused_effect hroom _, le_rfl, ?_, ⟨rfl, rfl⟩, rfl⟩
    exact Nat.le_succ _
  · refine .inl ⟨_, _, hok, hr.registered hroom, hr.registered_effect hroom, ?_, ?_, ⟨rfl, rfl⟩, rfl⟩
    · exact hroom.restricts.nextEstablishment.ge
    · change h'.nextEstablishment + (r.trackers.length + 1) ≤ _
      rw [hroom.restricts.nextEstablishment]
      exact le_rfl
  · refine .inr ⟨hover, ?_⟩
    unfold used
    omega

theorem Valid.step_cases (hr : r.Valid) (call : RegistryCall) :
    (∃ r' result, r.step call = .ok (r', result) ∧ r.Performs call result r') ∨
    r.step call = .error .overflow ∧ 2 ^ 64 ≤ r.used + 1 := by
  cases call with
  | register peer now => exact hr.register_step peer now
  | established peer =>
    by_cases hmem : peer ∈ r.trackers
    · obtain ⟨state, hstate, hok | ⟨hover, hbig⟩⟩ := established_cases hr hmem
      · refine .inl ⟨_, .ok (), by simp only [step, hok, bind, Except.bind],
          hr.established hmem hstate, established_effect hstate, Nat.le_succ _, ?_, ⟨rfl, rfl⟩, rfl⟩
        change r.history.nextEstablishment + 1 + r.trackers.length ≤ _
        unfold used
        omega
      · refine .inr ⟨by simp only [step, hover, bind, Except.bind], ?_⟩
        unfold used
        omega
    · have hok : r.established peer = .ok r := by
        unfold ConnectionRegistry.established
        rw [if_pos hmem]
      refine .inl ⟨r, .ok (), by simp only [step, hok, bind, Except.bind], hr, .refl nofun rfl ?_,
        le_rfl, Nat.le_succ _, ⟨rfl, rfl⟩, rfl⟩
      rintro other hother ⟨⟩
      exact hmem hother
  | drop peer since now =>
    by_cases hmem : peer ∈ r.trackers
    · obtain ⟨state, hstate, hok⟩ := drop_ok hr hmem since now
      refine .inl ⟨_, .ok (), by simp only [step, hok, bind, Except.bind],
        hr.dropped hstate since now, hr.dropped_effect hstate since now, le_rfl, ?_, ⟨rfl, rfl⟩, rfl⟩
      have hless := List.length_erase_le (a := peer) (l := r.trackers)
      change r.history.nextEstablishment + (r.trackers.erase peer).length ≤ _
      unfold used
      omega
    · have hok : r.drop peer since now = .ok r := by
        unfold ConnectionRegistry.drop
        rw [if_pos hmem]
      exact .inl ⟨r, .ok (), by simp only [step, hok, bind, Except.bind], hr,
        .refl nofun (if_neg hmem) nofun, le_rfl, Nat.le_succ _, ⟨rfl, rfl⟩,
        (List.erase_of_not_mem hmem).symm⟩
  | prune now =>
    obtain ⟨hhistory, hpinned, hlimits, htrackers⟩ := r.prune_history now
    refine .inl ⟨_, _, rfl, hr.prune now, hr.prune_effect now, ?_, ?_, ⟨hlimits, hpinned⟩, htrackers⟩
    · rw [hhistory]
      exact le_rfl
    · unfold used
      rw [hhistory, htrackers]
      exact Nat.le_succ _

theorem Valid.step_performs (hr : r.Valid) (hstep : r.step call = .ok (r', result)) :
    r.Performs call result r' := by
  rcases hr.step_cases call with ⟨r'', result', hok, hperforms⟩ | ⟨hover, -⟩
  · cases hstep.symm.trans hok
    exact hperforms
  · cases hstep.symm.trans hover

/-! ## Every run -/

/-- The generation that a call gave to a session. -/
def assigned (e : Machine.Entry ConnectionRegistry RegistryCall (Except DaemonError Unit)) :
    Option ℕ :=
  match e.input with
  | .established peer =>
    if peer ∈ e.before.trackers then
      (e.after.history.states.lookup peer).map PeerConnectionState.establishmentCount
    else none
  | _ => none

/-- The generations that were given out so far. -/
structure Generations (r : ConnectionRegistry) (trace : Trace) : Prop where
  bounded : ∀ n ∈ trace.filterMap assigned, n ≤ r.history.nextEstablishment
  increasing : (trace.filterMap assigned).Pairwise (· < ·)

theorem Performs.assigned_gt (h : r.Performs call result r') {n : ℕ}
    (hn : assigned ⟨r, call, result, r'⟩ = some n) :
    r.history.nextEstablishment < n ∧ n ≤ r'.history.nextEstablishment := by
  unfold assigned at hn
  dsimp only at hn
  split at hn
  · rename_i peer
    split at hn
    · rename_i hmem
      obtain ⟨state, hstate, hgt⟩ := h.effect.generation peer hmem rfl
      rw [hstate] at hn
      cases hn
      exact ⟨hgt, h.valid.tracks.counts peer state hstate⟩
    · cases hn
  · cases hn

theorem assigned_snoc (trace : Trace)
    (e : Machine.Entry ConnectionRegistry RegistryCall (Except DaemonError Unit)) :
    (trace ++ [e]).filterMap assigned = trace.filterMap assigned ++ (assigned e).toList := by
  rw [List.filterMap_append]
  cases hnew : assigned e <;> simp [hnew]

theorem Generations.snoc {trace : Trace} (hg : Generations r trace) (h : r.Performs call result r')
    :
    Generations r' (trace ++ [⟨r, call, result, r'⟩]) := by
  have hbounded : ∀ n ∈ trace.filterMap assigned, n ≤ r'.history.nextEstablishment :=
    fun n hn => (hg.bounded n hn).trans h.next
  have hsnoc := assigned_snoc trace ⟨r, call, result, r'⟩
  cases hnew : assigned ⟨r, call, result, r'⟩ with
  | none =>
    rw [hnew, Option.toList_none, List.append_nil] at hsnoc
    refine ⟨?_, ?_⟩ <;> rw [hsnoc]
    · exact hbounded
    · exact hg.increasing
  | some n =>
    obtain ⟨hgt, hle⟩ := h.assigned_gt hnew
    rw [hnew, Option.toList_some] at hsnoc
    refine ⟨?_, ?_⟩ <;> rw [hsnoc]
    · exact List.forall_mem_append.mpr ⟨hbounded, List.forall_mem_singleton.mpr hle⟩
    · rw [List.pairwise_append]
      refine ⟨hg.increasing, List.pairwise_singleton _ _, fun m hm m' hm' => ?_⟩
      rw [List.mem_singleton.mp hm']
      exact (hg.bounded m hm).trans_lt hgt

/-- The trackers that the calls of a trace handed out and did not take back. -/
def heldAfter (trace : Trace) : List SocketAddr :=
  trace.foldl (fun trackers e => held trackers e.input e.output) []

/-- What holds after the calls of a trace. -/
structure Kept (limits : RouterLimits) (pinned : Finset SocketAddr) (r : ConnectionRegistry)
    (trace : Trace) : Prop where
  valid : r.Valid
  limits_eq : r.limits = limits
  pinned_eq : r.pinned = pinned
  effects : ∀ e ∈ trace, e.before.CallEffect e.input e.output e.after
  generations : Generations r trace
  used : r.used ≤ trace.length
  held : r.trackers = heldAfter trace

theorem Kept.snoc {limits : RouterLimits} {pinned : Finset SocketAddr} {trace : Trace}
    (hk : Kept limits pinned r trace) (hstep : r.step call = .ok (r', result)) :
    Kept limits pinned r' (trace ++ [⟨r, call, result, r'⟩]) := by
  have h := hk.valid.step_performs hstep
  refine ⟨h.valid, h.config.1.trans hk.limits_eq, h.config.2.trans hk.pinned_eq, ?_,
    hk.generations.snoc h, ?_, ?_⟩
  · exact List.forall_mem_append.mpr ⟨hk.effects, List.forall_mem_singleton.mpr h.effect⟩
  · rw [List.length_append, List.length_singleton]
    exact h.used.trans (Nat.succ_le_succ hk.used)
  · rw [heldAfter, List.foldl_append, ← heldAfter, ← hk.held]
    exact h.held

theorem kept_of_run {limits : RouterLimits} {pinned : Finset SocketAddr} {calls : List RegistryCall}
    {trace : Trace} (hrun : run limits pinned calls = .ok (r, trace)) :
    Kept limits pinned r trace := by
  refine Machine.run_history (J := Kept limits pinned) (fun r trace call r' result hk hstep =>
    hk.snoc hstep) ?_ hrun
  exact ⟨valid_new limits pinned, rfl, rfl, List.forall_mem_nil _,
    ⟨List.forall_mem_nil _, List.Pairwise.nil⟩, le_rfl, rfl⟩

end ConnectionRegistry

open ConnectionRegistry in
/-- After any calls at any times the registry is valid, its trackers are the registrations that it
accepted without those that were dropped, every call did what it may, and the generations increase.
No unwrap, index or subtraction fails; only a counter could overflow, after
2 ^ 64 calls. -/
theorem connection_registry_kept (limits : RouterLimits) (pinned : Finset SocketAddr)
    (calls : List RegistryCall) :
    (∀ r trace, run limits pinned calls = .ok (r, trace) →
      r.limits = limits ∧ r.pinned = pinned ∧ r.Valid ∧ r.trackers = heldAfter trace ∧
      (∀ e ∈ trace, e.before.CallEffect e.input e.output e.after) ∧
      (trace.filterMap assigned).Pairwise (· < ·)) ∧
    ∀ panic, run limits pinned calls = .error panic →
      panic = .overflow ∧ 2 ^ 64 ≤ calls.length := by
  constructor
  · intro r trace hrun
    have hk := kept_of_run hrun
    exact ⟨hk.limits_eq, hk.pinned_eq, hk.valid, hk.held, hk.effects, hk.generations.increasing⟩
  · intro panic herror
    obtain ⟨first, call, rest, r, trace, rfl, hrun, hstep⟩ := Machine.run_error herror
    have hk := kept_of_run hrun
    have hlength : trace.length = first.length := by
      rw [← Machine.run_inputs hrun, List.length_map]
    rcases hk.valid.step_cases call with ⟨r', result, hok, -⟩ | ⟨hover, hbig⟩
    · cases hstep.symm.trans hok
    · refine ⟨Except.error.inj (hstep.symm.trans hover), ?_⟩
      have hused := hk.used
      rw [List.length_append, List.length_cons]
      omega

open ConnectionRegistry in
/-- With room for one discovered endpoint, a second one evicts the first, which has no session any
more, and a third is refused. -/
theorem connection_registry_kept_full :
    ∃ r trace, run ⟨1, 300⟩ ∅ [.register (.v4 1 854) 0, .drop (.v4 1 854) 1 2,
        .register (.v4 2 854) 3, .established (.v4 2 854), .register (.v4 3 854) 4] = .ok (r, trace) ∧
      trace.map (·.output) = [.ok (), .ok (), .ok (), .ok (), .error .peerHistoryFull] ∧
      r.history.states.lookup (.v4 1 854) = none ∧
      r.history.states.lookup (.v4 2 854) = some ⟨1, 1⟩ ∧
      r.Valid ∧ r.trackers = heldAfter trace ∧ heldAfter trace = [.v4 2 854] := by
  have hview : (do
      let (r, trace) ← run ⟨1, 300⟩ ∅ [.register (.v4 1 854) 0, .drop (.v4 1 854) 1 2,
        .register (.v4 2 854) 3, .established (.v4 2 854), .register (.v4 3 854) 4]
      .ok (trace.map (·.output), r.history.states.lookup (.v4 1 854),
        r.history.states.lookup (.v4 2 854), heldAfter trace)) =
      Except.ok ([.ok (), .ok (), .ok (), .ok (), .error .peerHistoryFull], none, some ⟨1, 1⟩,
        [.v4 2 854]) := by decide +kernel
  obtain ⟨⟨r, trace⟩, hrun, hview⟩ := bind_eq_ok.mp hview
  simp only [Except.ok.injEq, Prod.mk.injEq] at hview
  obtain ⟨houtputs, hevicted, hstate, hheld⟩ := hview
  obtain ⟨-, -, hvalid, htrackers, -⟩ := (connection_registry_kept _ _ _).1 r trace hrun
  exact ⟨r, trace, hrun, houtputs, hevicted, hstate, hvalid, htrackers, hheld⟩

end Dlep
