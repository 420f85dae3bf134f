-- SUMMARY: What the connection driver builds on: the registry between two reads, the reconnect queue and the set of attempts.
import Dlep.Daemon.ConnectionLedger
import Dlep.Router.Driver

/-!
# Queues and attempts of the driver

Between two reads of the snapshot the registry only loses entries, unless an attempt
registers an endpoint. The reconnect queue is read through the deadline of a peer, and the
attempts through the endpoints they reserve.
-/

namespace Dlep

/-! ## The registry between two reads -/

namespace ConnectionRegistry

variable {r r' : ConnectionRegistry} {result : Except DaemonError Unit}

/-- The registry lost entries or trackers, but no pinned entry. -/
structure Shrinks (r r' : ConnectionRegistry) : Prop where
  valid : r'.Valid
  pinned : r'.pinned = r.pinned
  trackers : ∀ peer ∈ r'.trackers, peer ∈ r.trackers
  keys : ∀ peer ∈ r'.watched.keys, peer ∈ r.watched.keys
  kept : ∀ peer ∈ r.pinned, peer ∈ r.watched.keys → peer ∈ r'.watched.keys

/-- One more tracker of `peer`, and possibly lost entries. -/
structure Adds (peer : SocketAddr) (r r' : ConnectionRegistry) : Prop where
  valid : r'.Valid
  pinned : r'.pinned = r.pinned
  trackers : r'.trackers = peer :: r.trackers
  keys : ∀ other ∈ r'.watched.keys, other = peer ∨ other ∈ r.watched.keys
  new : peer ∈ r'.watched.keys
  kept : ∀ other ∈ r.pinned, other ∈ r.watched.keys → other ∈ r'.watched.keys

theorem Performs.kept_pinned {call : RegistryCall} (hr : r.Valid) (h : r.Performs call result r') :
    ∀ peer ∈ r.pinned, peer ∈ r.watched.keys → peer ∈ r'.watched.keys := by
  intro peer hpinned hmem
  rw [hr.watched] at hmem
  rw [h.valid.watched]
  exact h.effect.kept peer hmem (.inl hpinned)

theorem Restricts.keys {h h' : History} (hrest : Restricts h' h) :
    ∀ peer ∈ h'.states.keys, peer ∈ h.states.keys := by
  intro peer hmem
  obtain ⟨state, hstate⟩ := (FinMap.mem_keys_iff _ _).mp hmem
  exact (FinMap.mem_keys_iff _ _).mpr ⟨state, hrest.states _ _ hstate⟩

/-- Sessions and the reaper take away, they never add. -/
theorem Valid.background (hr : r.Valid) (call : BackgroundCall)
    (hstep : r.step call.call = .ok (r', result)) : r.Shrinks r' := by
  have hperforms := hr.step_performs hstep
  have hkept := hperforms.kept_pinned hr
  -- The trackers and the entries are read off the three calls.
  have hless : (∀ peer ∈ r'.trackers, peer ∈ r.trackers) ∧
      ∀ peer ∈ r'.history.states.keys, peer ∈ r.history.states.keys := by
    cases call with
    | established peer =>
      obtain ⟨r'', hok, hres⟩ := bind_eq_ok.mp hstep
      cases hres
      by_cases hmem : peer ∈ r.trackers
      · obtain ⟨state, hstate, hok' | ⟨hover, -⟩⟩ := established_cases hr hmem
        · cases hok.symm.trans hok'
          refine ⟨fun _ => id, fun other hother => ?_⟩
          rwa [← mem_keys_insert hstate]
        · cases hok.symm.trans hover
      · rw [ConnectionRegistry.established, if_pos hmem] at hok
        cases hok
        exact ⟨fun _ => id, fun _ => id⟩
    | drop peer since now =>
      obtain ⟨r'', hok, hres⟩ := bind_eq_ok.mp hstep
      cases hres
      by_cases hmem : peer ∈ r.trackers
      · obtain ⟨state, hstate, hok'⟩ := drop_ok hr hmem since now
        cases hok.symm.trans hok'
        refine ⟨fun other => List.mem_of_mem_erase, fun other hother => ?_⟩
        have hrest := (restricts_prune r (release r.history peer state since) now).keys other hother
        rwa [← mem_keys_insert hstate]
      · rw [ConnectionRegistry.drop, if_pos hmem] at hok
        cases hok
        exact ⟨fun _ => id, fun _ => id⟩
    | prune now =>
      cases hstep
      obtain ⟨hhistory, -, -, htrackers⟩ := r.prune_history now
      rw [hhistory, htrackers]
      exact ⟨fun _ => id, (restricts_prune r r.history now).keys⟩
  refine ⟨hperforms.valid, hperforms.config.2, hless.1, ?_, hkept⟩
  rw [hperforms.valid.watched, hr.watched]
  exact hless.2

theorem Valid.register_ok (hr : r.Valid) {peer : SocketAddr} {now : Instant}
    (h : r.register peer now = .ok (r', .ok ())) : r.Adds peer r' := by
  have hperforms := hr.step_performs (show r.step (.register peer now) = _ from h)
  have hkept := hperforms.kept_pinned hr
  rcases register_cases hr peer now with ⟨-, hok⟩ | ⟨h', hroom, hok | ⟨hover, -⟩⟩
  · cases h.symm.trans hok
  · cases h.symm.trans hok
    have hrest : Restricts h' r.history := (restricts_prune r r.history now).trans hroom.restricts
    refine ⟨hperforms.valid, rfl, rfl, ?_, ?_, hkept⟩
    · intro other hother
      rw [hperforms.valid.watched, mem_keys_registered] at hother
      rw [hr.watched]
      exact hother.imp_right (hrest.keys other)
    · rw [hperforms.valid.watched, mem_keys_registered]
      exact .inl rfl
  · cases h.symm.trans hover

theorem Valid.register_refused (hr : r.Valid) {peer : SocketAddr} {now : Instant} {e : DaemonError}
    (h : r.register peer now = .ok (r', .error e)) : r.Shrinks r' := by
  have hperforms := hr.step_performs (show r.step (.register peer now) = _ from h)
  have hkept := hperforms.kept_pinned hr
  rcases register_cases hr peer now with ⟨-, hok⟩ | ⟨h', -, hok | ⟨hover, -⟩⟩
  · cases h.symm.trans hok
    refine ⟨hperforms.valid, rfl, fun _ => id, fun other hother => ?_, hkept⟩
    rw [hr.watched]
    exact (restricts_prune r r.history now).keys other hother
  · cases h.symm.trans hok
  · cases h.symm.trans hover

end ConnectionRegistry

/-! ## The reconnect queue -/

namespace ReconnectQueue

variable {q : ReconnectQueue} {addr peer : SocketAddr} {now : Instant}

theorem contains_of_dueAt (h : (q.dueAt peer).isSome = true) : q.contains peer = true := by
  unfold dueAt at h
  unfold contains
  cases hentry : q.entries.lookup peer with
  | none => simp [hentry] at h
  | some entry => rfl

theorem dueAt_of_not_contains (h : q.contains peer = false) : q.dueAt peer = none := by
  cases hdue : q.dueAt peer with
  | none => rfl
  | some at_ =>
    rw [contains_of_dueAt (by simp [hdue])] at h
    cases h

theorem lookup_suspend : (q.suspend addr).entries.lookup peer =
    if peer = addr then (q.entries.lookup peer).map fun e => { e with due := none }
    else q.entries.lookup peer := by
  unfold suspend
  split
  · rename_i hnone
    split
    · rename_i heq
      rw [heq, hnone]
      rfl
    · rfl
  · rename_i entry hsome
    rw [FinMap.lookup_insert_eq]
    split
    · rename_i heq
      rw [heq, hsome]
      rfl
    · rfl

@[simp] theorem dueAt_suspend :
    (q.suspend addr).dueAt peer = if peer = addr then none else q.dueAt peer := by
  unfold dueAt
  rw [lookup_suspend]
  split
  · cases q.entries.lookup peer <;> rfl
  · rfl

@[simp] theorem contains_suspend : (q.suspend addr).contains peer = q.contains peer := by
  unfold contains
  rw [lookup_suspend]
  split
  · exact Option.isSome_map
  · rfl

theorem schedule_self : ((q.schedule addr now).dueAt addr).isSome = true := by
  cases hentry : q.entries.lookup addr with
  | none => simp [schedule, dueAt, hentry]
  | some entry =>
    cases hdue : entry.due with
    | none => simp [schedule, dueAt, hentry, hdue]
    | some at_ => simp [schedule, dueAt, hentry, hdue]

theorem schedule_of_ne (h : peer ≠ addr) :
    (q.schedule addr now).entries.lookup peer = q.entries.lookup peer := by
  unfold schedule
  split
  · rw [FinMap.lookup_insert_eq, if_neg h]
  · split
    · rw [FinMap.lookup_insert_eq, if_neg h]
    · rfl

theorem dueAt_schedule_of_ne (h : peer ≠ addr) :
    (q.schedule addr now).dueAt peer = q.dueAt peer := by
  unfold dueAt
  rw [schedule_of_ne h]

theorem contains_schedule_of_ne (h : peer ≠ addr) :
    (q.schedule addr now).contains peer = q.contains peer := by
  unfold contains
  rw [schedule_of_ne h]

/-- Scheduling never takes a deadline away. -/
theorem isSome_dueAt_schedule (h : (q.dueAt peer).isSome = true) :
    ((q.schedule addr now).dueAt peer).isSome = true := by
  by_cases heq : peer = addr
  · rw [heq]
    exact schedule_self
  · rw [dueAt_schedule_of_ne heq]
    exact h

/-! ### Taking what is due -/

theorem mem_duePeers (h : peer ∈ q.duePeers now) : q.contains peer = true := by
  unfold duePeers at h
  simp only [List.mem_map, Finset.mem_sort, Finset.mem_image, Finset.mem_filter] at h
  obtain ⟨key, ⟨addr, ⟨hmem, -⟩, rfl⟩, rfl⟩ := h
  obtain ⟨entry, hentry⟩ := (FinMap.mem_keys_iff _ _).mp hmem
  unfold contains
  rw [show (ofLex (toLex ((q.dueAt addr).getD 0, addr))).2 = addr from rfl, hentry]
  rfl

theorem rearm_ok (now : Instant) (h : q.contains addr = true) : ∃ q', rearm now q addr = .ok q' ∧
    (∀ peer, q'.contains peer = q.contains peer) ∧
    ∀ peer, peer ≠ addr → q'.dueAt peer = q.dueAt peer := by
  obtain ⟨entry, hentry⟩ := Option.isSome_iff_exists.mp h
  unfold rearm
  rw [hentry]
  refine ⟨_, rfl, fun peer => ?_, fun peer hne => ?_⟩
  · unfold contains
    rw [FinMap.lookup_insert_eq]
    split
    · rename_i heq
      rw [heq, hentry]
      rfl
    · rfl
  · unfold dueAt
    rw [FinMap.lookup_insert_eq, if_neg hne]

theorem foldlM_rearm_ok (now : Instant) (due : List SocketAddr) (h : ∀ peer ∈ due, q.contains peer = true) :
    ∃ q', due.foldlM (rearm now) q = .ok q' ∧ (∀ peer, q'.contains peer = q.contains peer) ∧
      ∀ peer, peer ∉ due → q'.dueAt peer = q.dueAt peer := by
  induction due generalizing q with
  | nil => exact ⟨q, rfl, fun _ => rfl, fun _ _ => rfl⟩
  | cons addr due ih =>
    obtain ⟨q₁, hok, hcontains, hdue⟩ := rearm_ok now (h addr List.mem_cons_self)
    obtain ⟨q', hok', hcontains', hdue'⟩ := ih (q := q₁) fun peer hmem => by
      rw [hcontains]
      exact h peer (List.mem_cons_of_mem _ hmem)
    refine ⟨q', ?_, fun peer => (hcontains' peer).trans (hcontains peer), fun peer hnot => ?_⟩
    · rw [List.foldlM_cons, hok]
      exact hok'
    · rw [List.mem_cons, not_or] at hnot
      rw [hdue' peer hnot.2, hdue peer hnot.1]

/-- What is handed out is at most `limit` peers, and nobody else's deadline moves. -/
theorem takeDueLimited_ok (q : ReconnectQueue) (now : Instant) (limit : ℕ) :
    ∃ q' due, q.takeDueLimited now limit = .ok (q', due) ∧ due.length ≤ limit ∧
      (∀ peer, q'.contains peer = q.contains peer) ∧
      ∀ peer, peer ∉ due → q'.dueAt peer = q.dueAt peer := by
  obtain ⟨q', hok, hcontains, hdue⟩ := foldlM_rearm_ok now
    ((q.duePeers now).take limit) fun peer hmem => mem_duePeers (List.mem_of_mem_take hmem)
  refine ⟨q', _, ?_, List.length_take_le _ _, hcontains, hdue⟩
  unfold takeDueLimited
  dsimp only
  rw [hok]
  rfl

end ReconnectQueue

/-! ## The attempts -/

namespace ConnectAttempts

variable {a : ConnectAttempts} {x : Attempt} {peer : SocketAddr} {i : ℕ}

/-- At most eight attempts with disjoint endpoints; the reserved endpoints are theirs. -/
structure Sound (a : ConnectAttempts) : Prop where
  few : a.attempts.length ≤ MAX_CONNECT_ATTEMPTS
  disjoint : a.attempts.Pairwise fun x y => ∀ peer ∈ x.endpoints, peer ∉ y.endpoints
  reserved : ∀ peer, peer ∈ a.reserved ↔ ∃ x ∈ a.attempts, peer ∈ x.endpoints
  retry : ∀ x ∈ a.attempts, ∀ peer, x.retryPeer = some peer → x.endpoints = [peer]

/-- An endpoint of an attempt that follows an offer. -/
def Offered (a : ConnectAttempts) (peer : SocketAddr) : Prop :=
  ∃ x ∈ a.attempts, x.retryPeer = none ∧ peer ∈ x.endpoints

theorem sound_default : default.Sound :=
  ⟨Nat.zero_le _, List.Pairwise.nil, fun peer => by simp [default], by simp [default]⟩

theorem Offered.reserved (h : a.Offered peer) (ha : a.Sound) : peer ∈ a.reserved := by
  obtain ⟨x, hx, -, hpeer⟩ := h
  exact (ha.reserved peer).mpr ⟨x, hx, hpeer⟩

/-! ### Starting -/

/-- An attempt is refused, or appended with endpoints that nobody else has reserved. -/
theorem insert_cases (a : ConnectAttempts) (endpoints : List SocketAddr)
    (retryPeer : Option SocketAddr) :
    a.insert endpoints retryPeer = (a, false) ∧
        (a.capacity = 0 ∨ endpoints = [] ∨ ∃ peer ∈ endpoints, peer ∈ a.reserved) ∨
      a.insert endpoints retryPeer =
          (⟨a.attempts ++ [⟨endpoints, retryPeer⟩], a.reserved ∪ endpoints.toFinset⟩, true) ∧
        0 < a.capacity ∧ ∀ peer ∈ endpoints, peer ∉ a.reserved := by
  unfold insert
  split
  · rename_i hrefused
    simp only [Bool.or_eq_true, decide_eq_true_eq, List.isEmpty_iff, List.any_eq_true,
      contains] at hrefused
    exact .inl ⟨rfl, or_assoc.mp hrefused⟩
  · rename_i hstarted
    simp only [Bool.or_eq_true, decide_eq_true_eq, List.isEmpty_iff, List.any_eq_true, contains,
      not_or, not_exists, not_and] at hstarted
    exact .inr ⟨rfl, Nat.pos_of_ne_zero hstarted.1.1, hstarted.2⟩

/-- What an insertion does, whether it starts the attempt or not. -/
structure Inserts (endpoints : List SocketAddr) (retryPeer : Option SocketAddr)
    (a a' : ConnectAttempts) : Prop where
  sound : a'.Sound
  reserved : ∀ peer ∈ a.reserved, peer ∈ a'.reserved
  new : ∀ peer ∈ a'.reserved, peer ∈ a.reserved ∨ peer ∈ endpoints
  offered : ∀ peer, a'.Offered peer → a.Offered peer ∨ retryPeer = none ∧ peer ∈ endpoints
  capacity : a.capacity ≤ a'.capacity + 1

theorem Sound.insert (ha : a.Sound) {endpoints : List SocketAddr} {retryPeer : Option SocketAddr}
    (hretry : ∀ peer, retryPeer = some peer → endpoints = [peer]) :
    Inserts endpoints retryPeer a (a.insert endpoints retryPeer).1 := by
  rcases a.insert_cases endpoints retryPeer with ⟨heq, -⟩ | ⟨heq, hcapacity, hnew⟩
  · rw [heq]
    exact ⟨ha, fun _ => id, fun _ => .inl, fun _ => .inl, Nat.le_succ _⟩
  · rw [heq]
    have hroom : a.attempts.length < MAX_CONNECT_ATTEMPTS := Nat.lt_of_sub_pos hcapacity
    refine ⟨⟨?_, ?_, ?_, ?_⟩, ?_, ?_, ?_, ?_⟩
    · rw [List.length_append, List.length_singleton]
      exact hroom
    · refine List.pairwise_append.mpr ⟨ha.disjoint, List.pairwise_singleton _ _, ?_⟩
      intro x hx y hy peer hpeer hin
      rw [List.mem_singleton.mp hy] at hin
      exact hnew peer hin ((ha.reserved peer).mpr ⟨x, hx, hpeer⟩)
    · intro peer
      simp only [Finset.mem_union, List.mem_toFinset, ha.reserved peer, List.mem_append,
        List.mem_singleton, or_and_right, exists_or, exists_eq_left]
    · intro x hx peer hpeer
      rcases List.mem_append.mp hx with hx | hx
      · exact ha.retry x hx peer hpeer
      · rw [List.mem_singleton.mp hx] at hpeer ⊢
        exact hretry peer hpeer
    · intro peer hpeer
      exact Finset.mem_union_left _ hpeer
    · intro peer hpeer
      simpa using hpeer
    · rintro peer ⟨x, hx, hnone, hpeer⟩
      rcases List.mem_append.mp hx with hx | hx
      · exact .inl ⟨x, hx, hnone, hpeer⟩
      · rw [List.mem_singleton.mp hx] at hnone hpeer
        exact .inr ⟨hnone, hpeer⟩
    · unfold capacity
      rw [List.length_append, List.length_singleton]
      omega

theorem Sound.startStatic (ha : a.Sound) (peer : SocketAddr) :
    Inserts [peer] (some peer) a (a.startStatic peer).1 :=
  ha.insert fun _ h => congrArg (fun p => [p]) (Option.some.inj h)

/-- With a free slot, a peer is reserved afterwards: by this attempt or by another. -/
theorem mem_reserved_startStatic (hcapacity : 0 < a.capacity) (peer : SocketAddr) :
    peer ∈ (a.startStatic peer).1.reserved := by
  rcases a.insert_cases [peer] (some peer) with ⟨heq, hwhy⟩ | ⟨heq, -⟩
  · rw [ConnectAttempts.startStatic, heq]
    rcases hwhy with hzero | hnil | ⟨other, hmem, hreserved⟩
    · exact absurd hzero hcapacity.ne'
    · cases hnil
    · rwa [List.mem_singleton.mp hmem] at hreserved
  · rw [ConnectAttempts.startStatic, heq]
    simp

theorem reserved_of_not_started (hcapacity : 0 < a.capacity) (h : (a.startStatic peer).2 = false) :
    peer ∈ a.reserved := by
  rcases a.insert_cases [peer] (some peer) with ⟨heq, hwhy⟩ | ⟨heq, -⟩
  · rcases hwhy with hzero | hnil | ⟨other, hmem, hreserved⟩
    · exact absurd hzero hcapacity.ne'
    · cases hnil
    · rwa [List.mem_singleton.mp hmem] at hreserved
  · rw [ConnectAttempts.startStatic, heq] at h
    cases h

/-! ### Ending -/

/-- The attempts of `a'` are among those of `a`, and the reservations follow. -/
structure Drops (a a' : ConnectAttempts) : Prop where
  sound : a'.Sound
  reserved : ∀ peer ∈ a'.reserved, peer ∈ a.reserved
  offered : ∀ peer, a'.Offered peer → a.Offered peer

theorem Sound.drops (ha : a.Sound) {a' : ConnectAttempts}
    (hsub : a'.attempts.Sublist a.attempts)
    (hreserved : ∀ peer, peer ∈ a'.reserved ↔ ∃ x ∈ a'.attempts, peer ∈ x.endpoints) :
    Drops a a' := by
  refine ⟨⟨hsub.length_le.trans ha.few, ha.disjoint.sublist hsub, hreserved,
    fun x hx => ha.retry x (hsub.subset hx)⟩, fun peer hpeer => ?_, ?_⟩
  · obtain ⟨x, hx, hin⟩ := (hreserved peer).mp hpeer
    exact (ha.reserved peer).mpr ⟨x, hsub.subset hx, hin⟩
  · rintro peer ⟨x, hx, hnone, hin⟩
    exact ⟨x, hsub.subset hx, hnone, hin⟩

/-- Attempts that share an endpoint are the same. -/
theorem Sound.eq_of_mem (ha : a.Sound) {y : Attempt} (hx : x ∈ a.attempts) (hy : y ∈ a.attempts)
    (hpx : peer ∈ x.endpoints) (hpy : peer ∈ y.endpoints) : x = y := by
  by_contra hne
  have hsymm : Std.Symm fun x y : Attempt => ∀ peer ∈ x.endpoints, peer ∉ y.endpoints :=
    ⟨fun x y h peer hy hx => h peer hx hy⟩
  exact ha.disjoint.forall hx hy hne peer hpx hpy

theorem mem_foldl_release (attempts : List Attempt) (reserved : Finset SocketAddr) :
    peer ∈ attempts.foldl release reserved ↔
      peer ∈ reserved ∧ ∀ x ∈ attempts, peer ∉ x.endpoints := by
  induction attempts generalizing reserved with
  | nil => simp
  | cons x attempts ih =>
    rw [List.foldl_cons, ih, release, Finset.mem_sdiff, List.mem_toFinset, List.forall_mem_cons,
      and_assoc]

theorem Sound.retainRetries (ha : a.Sound) (keep : SocketAddr → Bool) :
    Drops a (a.retainRetries keep) := by
  refine ha.drops List.filter_sublist fun peer => ?_
  unfold ConnectAttempts.retainRetries
  rw [mem_foldl_release, ha.reserved peer]
  constructor
  · rintro ⟨⟨x, hx, hpeer⟩, hnot⟩
    refine ⟨x, List.mem_filter.mpr ⟨hx, ?_⟩, hpeer⟩
    by_contra hdropped
    exact hnot x (List.mem_filter.mpr ⟨hx, by simpa using hdropped⟩) hpeer
  · rintro ⟨x, hx, hpeer⟩
    obtain ⟨hx, hkeep⟩ := List.mem_filter.mp hx
    refine ⟨⟨x, hx, hpeer⟩, fun y hy hin => ?_⟩
    obtain ⟨hy, hdropped⟩ := List.mem_filter.mp hy
    rw [← ha.eq_of_mem hx hy hpeer hin, hkeep] at hdropped
    cases hdropped

/-- What the driver keeps stays reserved. -/
theorem Sound.mem_retainRetries (ha : a.Sound) {keep : SocketAddr → Bool}
    (hpeer : peer ∈ a.reserved) (hkeep : keep peer = true) :
    peer ∈ (a.retainRetries keep).reserved := by
  obtain ⟨x, hx, hin⟩ := (ha.reserved peer).mp hpeer
  refine ((ha.retainRetries keep).sound.reserved peer).mpr ⟨x, List.mem_filter.mpr ⟨hx, ?_⟩, hin⟩
  cases hretry : x.retryPeer with
  | none => rfl
  | some p =>
    rw [ha.retry x hx p hretry] at hin
    rw [Option.all_some, ← List.mem_singleton.mp hin]
    exact hkeep

theorem mem_complete :
    peer ∈ (a.complete i x).reserved ↔ peer ∈ a.reserved ∧ peer ∉ x.endpoints := by
  simp [complete, release]

/-- Attempts at different places share no endpoint. -/
theorem Sound.not_mem_of_ne (ha : a.Sound) {y : Attempt} {j : ℕ} (hx : a.attempts[i]? = some x)
    (hy : a.attempts[j]? = some y) (hne : j ≠ i) (hpeer : peer ∈ y.endpoints) :
    peer ∉ x.endpoints := by
  intro hin
  have hdisjoint := List.pairwise_iff_getElem.mp ha.disjoint
  obtain ⟨hi, rfl⟩ := List.getElem?_eq_some_iff.mp hx
  obtain ⟨hj, rfl⟩ := List.getElem?_eq_some_iff.mp hy
  rcases Nat.lt_or_gt_of_ne hne with hlt | hlt
  · exact hdisjoint j i hj hi hlt peer hpeer hin
  · exact hdisjoint i j hi hj hlt peer hin hpeer

theorem Sound.complete (ha : a.Sound) (hx : a.attempts[i]? = some x) :
    Drops a (a.complete i x) := by
  refine ha.drops (List.eraseIdx_sublist _ _) fun peer => ?_
  rw [mem_complete, ha.reserved peer]
  constructor
  · rintro ⟨⟨y, hy, hpeer⟩, hnot⟩
    obtain ⟨j, hj⟩ := List.mem_iff_getElem?.mp hy
    refine ⟨y, List.mem_eraseIdx_iff_getElem?.mpr ⟨j, ?_, hj⟩, hpeer⟩
    rintro rfl
    cases hx.symm.trans hj
    exact hnot hpeer
  · rintro ⟨y, hy, hpeer⟩
    obtain ⟨j, hne, hj⟩ := List.mem_eraseIdx_iff_getElem?.mp hy
    exact ⟨⟨y, List.mem_of_getElem? hj, hpeer⟩, ha.not_mem_of_ne hx hj hne hpeer⟩

end ConnectAttempts

end Dlep
