-- SUMMARY: The reconnect queue over any sequence of calls: spacing of retries, capacity-limited selection, and when backoff is reset.
import Dlep.Router.Dialing

/-!
# Reconnect backoff

Every call on the reconnect queue acts on each peer on its own. What happens to
one peer is a sequence of `PeerAct`s, and a `PeerTrack` follows it: beside the
entry it remembers how often the peer was handed out since the entry was
created, when, and which moment set the current deadline. The queue's entry of a
peer is always the entry of its track, so the spacing of retries is a property
of tracks.
-/

namespace Dlep

open ReconnectQueue

/-! ## One peer -/

/-- What a call does to one peer. -/
inductive PeerAct where
  | schedule
  | handout
  | suspend
  | forget
  /-- A new establishment was seen, so the entry is forgotten. -/
  | reset
  deriving DecidableEq, Repr

/-- An entry and its history. -/
structure PeerTrack where
  entry : Option ReconnectEntry
  /-- Since the entry was created. -/
  handouts : ℕ
  /-- When the current deadline was set. -/
  setAt : Instant
  lastHandout : Option Instant
  resets : ℕ

namespace PeerTrack

def start : PeerTrack := ⟨none, 0, 0, none, 0⟩

def act (now : Instant) (t : PeerTrack) : PeerAct → PeerTrack
  | .schedule =>
    match t.entry with
    | none => { t with entry := some ⟨0, some (now + backoffFor 0)⟩, handouts := 0, setAt := now }
    | some e =>
      match e.due with
      | none =>
        { t with entry := some { e with due := some (now + backoffFor e.attempts) }, setAt := now }
      | some _ => t
  | .handout =>
    match t.entry with
    | none => t
    | some e =>
      let attempts := min (e.attempts + 1) (2 ^ 32 - 1)
      { t with
        entry := some ⟨attempts, some (now + backoffFor attempts)⟩
        handouts := t.handouts + 1
        setAt := now
        lastHandout := some now }
  | .suspend => { t with entry := t.entry.map fun e => { e with due := none } }
  | .forget => { t with entry := none }
  | .reset => { t with entry := none, resets := t.resets + 1 }

theorem act_suspend_of_idle (now : Instant) {t : PeerTrack}
    (h : t.entry.bind ReconnectEntry.due = none) : (t.act now .suspend).entry = t.entry := by
  unfold act
  cases hentry : t.entry with
  | none => rfl
  | some e =>
    have hdue : e.due = none := by simpa [hentry] using h
    simp [← hdue]

theorem act_schedule_of_due (now : Instant) {t : PeerTrack}
    (h : (t.entry.bind ReconnectEntry.due).isSome = true) : t.act now .schedule = t := by
  unfold act
  cases hentry : t.entry with
  | none => simp [hentry] at h
  | some e =>
    obtain ⟨at_, hdue⟩ := Option.isSome_iff_exists.mp (by simpa [hentry] using h)
    simp [hdue]

/-- The attempts count the handouts, and a deadline is one backoff after it was set; no handout is
later than that, or than the clock. -/
structure Sound (clock : Instant) (t : PeerTrack) : Prop where
  attempts : ∀ e, t.entry = some e → e.attempts = min t.handouts (2 ^ 32 - 1)
  deadline : ∀ e at_, t.entry = some e → e.due = some at_ → at_ = t.setAt + backoffFor e.attempts
  handedOut : ∀ e at_, t.entry = some e → e.due = some at_ →
    ∀ last, t.lastHandout = some last → last ≤ t.setAt
  past : ∀ last, t.lastHandout = some last → last ≤ clock

variable {clock now : Instant} {t : PeerTrack}

theorem Sound.start : PeerTrack.start.Sound clock := ⟨nofun, nofun, nofun, nofun⟩

theorem Sound.mono (h : t.Sound clock) (hnow : clock ≤ now) : t.Sound now :=
  ⟨h.attempts, h.deadline, h.handedOut, fun last hlast => (h.past last hlast).trans hnow⟩

theorem Sound.act (h : t.Sound clock) (hnow : clock ≤ now) (a : PeerAct) :
    (t.act now a).Sound now := by
  have hmono := h.mono hnow
  cases a with
  | schedule =>
    unfold PeerTrack.act
    dsimp only
    split
    · refine ⟨?_, ?_, ?_, hmono.past⟩
      · rintro e ⟨⟩
        rfl
      · rintro e at_ ⟨⟩ ⟨⟩
        rfl
      · intro e at_ _ _
        exact hmono.past
    · rename_i e hentry
      split
      · refine ⟨?_, ?_, ?_, hmono.past⟩
        · rintro _ ⟨⟩
          exact h.attempts e hentry
        · rintro _ at_ ⟨⟩ ⟨⟩
          rfl
        · intro _ at_ _ _
          exact hmono.past
      · exact hmono
  | handout =>
    unfold PeerTrack.act
    dsimp only
    split
    · exact hmono
    · rename_i e hentry
      refine ⟨?_, ?_, ?_, ?_⟩
      · rintro _ ⟨⟩
        have hattempts := h.attempts e hentry
        dsimp only
        omega
      · rintro _ at_ ⟨⟩ ⟨⟩
        rfl
      · rintro _ at_ _ _ last ⟨⟩
        exact le_refl now
      · rintro last ⟨⟩
        exact le_refl now
  | suspend =>
    refine ⟨?_, ?_, ?_, hmono.past⟩
    · intro e he
      obtain ⟨e', he', rfl⟩ := Option.map_eq_some_iff.mp he
      exact h.attempts e' he'
    · intro e at_ he hdue
      obtain ⟨e', he', rfl⟩ := Option.map_eq_some_iff.mp he
      cases hdue
    · intro e at_ he hdue
      obtain ⟨e', he', rfl⟩ := Option.map_eq_some_iff.mp he
      cases hdue
  | forget => exact ⟨nofun, nofun, nofun, hmono.past⟩
  | reset => exact ⟨nofun, nofun, nofun, hmono.past⟩

theorem Sound.foldl_act (h : t.Sound clock) (hnow : clock ≤ now) (acts : List PeerAct) :
    (acts.foldl (PeerTrack.act now) t).Sound now := by
  induction acts generalizing t clock with
  | nil => exact h.mono hnow
  | cons a acts ih => exact ih (h.act hnow a) le_rfl

theorem resets_foldl_act (now : Instant) (acts : List PeerAct) (t : PeerTrack) :
    (acts.foldl (PeerTrack.act now) t).resets = t.resets + acts.count .reset := by
  induction acts generalizing t with
  | nil => rfl
  | cons a acts ih =>
    have hact : (t.act now a).resets = t.resets + if a = .reset then 1 else 0 := by
      cases a with
      | schedule =>
        unfold PeerTrack.act
        dsimp only
        split
        · rfl
        · split <;> rfl
      | handout =>
        unfold PeerTrack.act
        dsimp only
        split <;> rfl
      | suspend | forget | reset => rfl
    rw [List.foldl_cons, ih, hact, List.count_cons]
    simp only [beq_iff_eq]
    omega

/-- An entry that is not forgotten keeps its attempts, or counts one more. -/
theorem Sound.attempts_act {e : ReconnectEntry} {a : PeerAct} (h : t.Sound clock)
    (hentry : t.entry = some e) (hforget : a ≠ .forget) (hreset : a ≠ .reset) (now : Instant) :
    ∃ e', (t.act now a).entry = some e' ∧ e.attempts ≤ e'.attempts := by
  have hattempts := h.attempts e hentry
  cases a with
  | schedule =>
    simp only [PeerTrack.act, hentry]
    split
    · exact ⟨_, rfl, le_rfl⟩
    · exact ⟨e, hentry, le_rfl⟩
  | handout =>
    simp only [PeerTrack.act, hentry]
    refine ⟨_, rfl, ?_⟩
    dsimp only
    omega
  | suspend =>
    simp only [PeerTrack.act, hentry]
    exact ⟨_, rfl, le_rfl⟩
  | forget => exact absurd rfl hforget
  | reset => exact absurd rfl hreset

/-- In seconds, the base doubled with every attempt, up to the ceiling. -/
theorem backoffFor_eq (k : ℕ) :
    backoffFor (min k (2 ^ 32 - 1)) = min (2 ^ k) 30 * 1000000000 := by
  have hsmall : ∀ k < 5, backoffFor (min k (2 ^ 32 - 1)) = min (2 ^ k) 30 * 1000000000 := by decide
  by_cases hk : k < 5
  · exact hsmall k hk
  · have hpow : 2 ^ 5 ≤ 2 ^ k := Nat.pow_le_pow_right (by decide) (by omega)
    have hshift : 2 ^ 5 ≤ 2 ^ min (min k (2 ^ 32 - 1)) 16 :=
      Nat.pow_le_pow_right (by decide) (by omega)
    have hmax : RECONNECT_MAX = 30000000000 := rfl
    have hbase : RECONNECT_BASE = 1000000000 := rfl
    unfold backoffFor
    rw [hbase, hmax]
    omega

/-- A deadline that has passed lies a whole backoff after it was set and after the last handout. -/
theorem Sound.spacing {e : ReconnectEntry} {at_ : Instant} (h : t.Sound clock)
    (hentry : t.entry = some e) (hdue : e.due = some at_) (hnow : at_ ≤ now) :
    t.setAt + min (2 ^ t.handouts) 30 * 1000000000 ≤ now ∧
      ∀ last, t.lastHandout = some last → last + min (2 ^ t.handouts) 30 * 1000000000 ≤ now := by
  have hset : t.setAt + min (2 ^ t.handouts) 30 * 1000000000 ≤ now := by
    rw [← backoffFor_eq, ← h.attempts e hentry, ← h.deadline e at_ hentry hdue]
    exact hnow
  refine ⟨hset, fun last hlast => ?_⟩
  exact (Nat.add_le_add_right (h.handedOut e at_ hentry hdue last hlast) _).trans hset

end PeerTrack

/-! ## The queue, peer by peer -/

namespace ReconnectQueue

variable {q : ReconnectQueue} {now : Instant} {peer addr : SocketAddr}

/-- A track that has the entry of the queue. -/
def Follows (q : ReconnectQueue) (peer : SocketAddr) (t : PeerTrack) : Prop :=
  t.entry = q.entries.lookup peer

theorem Follows.schedule {t : PeerTrack} (h : q.Follows peer t) :
    (q.schedule peer now).Follows peer (t.act now .schedule) := by
  unfold Follows at h ⊢
  cases hentry : t.entry with
  | none =>
    rw [hentry] at h
    simp [ReconnectQueue.schedule, PeerTrack.act, ← h, hentry]
  | some e =>
    rw [hentry] at h
    cases hdue : e.due with
    | none => simp [ReconnectQueue.schedule, PeerTrack.act, ← h, hentry, hdue]
    | some at_ => simp [ReconnectQueue.schedule, PeerTrack.act, ← h, hentry, hdue]

theorem Follows.suspend {t : PeerTrack} (h : q.Follows peer t) (now : Instant) :
    (q.suspend peer).Follows peer (t.act now .suspend) := by
  unfold Follows at h ⊢
  rw [lookup_suspend, if_pos rfl, ← h]
  rfl

theorem Follows.forget (q : ReconnectQueue) (now : Instant) (t : PeerTrack) :
    (q.forget peer).Follows peer (t.act now .forget) := by
  unfold Follows ReconnectQueue.forget
  rw [FinMap.lookup_erase_eq, if_pos rfl]
  rfl

theorem Follows.reset (q : ReconnectQueue) (now : Instant) (t : PeerTrack) :
    (q.forget peer).Follows peer (t.act now .reset) := Follows.forget q now t

theorem forget_of_ne (h : peer ≠ addr) :
    (q.forget addr).entries.lookup peer = q.entries.lookup peer := by
  rw [ReconnectQueue.forget, FinMap.lookup_erase_eq, if_neg h]

theorem suspend_of_ne (h : peer ≠ addr) :
    (q.suspend addr).entries.lookup peer = q.entries.lookup peer := by
  rw [lookup_suspend, if_neg h]

/-! ### Handing out -/

/-- The peers that are due at `now`. -/
def dueSet (q : ReconnectQueue) (now : Instant) : Finset SocketAddr :=
  q.entries.keys.filter fun peer => (q.dueAt peer).any fun at_ => decide (at_ ≤ now)

theorem mem_dueSet_iff : peer ∈ q.dueSet now ↔ ∃ at_, q.dueAt peer = some at_ ∧ at_ ≤ now := by
  unfold dueSet
  rw [Finset.mem_filter]
  constructor
  · rintro ⟨-, hdue⟩
    cases hat : q.dueAt peer with
    | none => simp [hat] at hdue
    | some at_ => exact ⟨at_, rfl, by simpa [hat] using hdue⟩
  · rintro ⟨at_, hdue, hle⟩
    have hcontains := contains_of_dueAt (by rw [hdue]; rfl)
    refine ⟨(FinMap.mem_keys_iff _ _).mpr (Option.isSome_iff_exists.mp hcontains), ?_⟩
    rw [hdue]
    exact decide_eq_true hle

theorem mem_duePeers_iff : peer ∈ q.duePeers now ↔ peer ∈ q.dueSet now := by
  unfold duePeers
  simp only [List.mem_map, Finset.mem_sort, Finset.mem_image]
  constructor
  · rintro ⟨key, ⟨addr, hdue, rfl⟩, rfl⟩
    exact hdue
  · intro hdue
    exact ⟨_, ⟨peer, hdue, rfl⟩, rfl⟩

/-- The keys that `duePeers` sorts are a peer and its own deadline. -/
theorem eq_of_mem_dueKeys {key : Lex (Instant × SocketAddr)} {peers : Finset SocketAddr}
    (h : key ∈ peers.image fun addr => toLex ((q.dueAt addr).getD 0, addr)) :
    key = toLex ((q.dueAt (ofLex key).2).getD 0, (ofLex key).2) := by
  obtain ⟨addr, -, rfl⟩ := Finset.mem_image.mp h
  rfl

theorem nodup_duePeers (q : ReconnectQueue) (now : Instant) : (q.duePeers now).Nodup := by
  unfold duePeers
  refine List.Nodup.map_on ?_ (Finset.sort_nodup _ _)
  intro key hkey key' hkey' heq
  rw [Finset.mem_sort] at hkey hkey'
  rw [eq_of_mem_dueKeys hkey, eq_of_mem_dueKeys hkey', heq]

theorem sorted_duePeers (q : ReconnectQueue) (now : Instant) :
    (q.duePeers now).Pairwise fun a b => (q.dueAt a).getD 0 ≤ (q.dueAt b).getD 0 := by
  unfold duePeers
  refine List.pairwise_map.mpr ((Finset.pairwise_sort _ _).imp_of_mem ?_)
  intro key key' hkey hkey' hle
  rw [Finset.mem_sort] at hkey hkey'
  rw [eq_of_mem_dueKeys hkey, eq_of_mem_dueKeys hkey'] at hle
  exact Prod.Lex.monotone_fst _ _ hle

theorem rearm_lookup (now : Instant) {entry : ReconnectEntry} (h : q.entries.lookup addr = some entry) :
    ∃ q', rearm now q addr = .ok q' ∧
      (∀ t, q.Follows addr t → q'.Follows addr (t.act now .handout)) ∧
      ∀ peer, peer ≠ addr → q'.entries.lookup peer = q.entries.lookup peer := by
  unfold rearm
  rw [h]
  refine ⟨_, rfl, fun t ht => ?_, fun peer hne => ?_⟩
  · unfold Follows at ht ⊢
    rw [h] at ht
    simp [PeerTrack.act, ht]
  · rw [FinMap.lookup_insert_eq, if_neg hne]

/-- Each of the peers is handed out once, and no other is touched. -/
theorem foldlM_rearm_lookup (now : Instant) {due : List SocketAddr} (hnodup : due.Nodup)
    (hcontains : ∀ peer ∈ due, q.contains peer = true) :
    ∃ q', due.foldlM (rearm now) q = .ok q' ∧
      (∀ peer ∈ due, ∀ t, q.Follows peer t → q'.Follows peer (t.act now .handout)) ∧
      ∀ peer, peer ∉ due → q'.entries.lookup peer = q.entries.lookup peer := by
  induction due generalizing q with
  | nil => exact ⟨q, rfl, nofun, fun _ _ => rfl⟩
  | cons addr due ih =>
    obtain ⟨hnew, hnodup⟩ := List.nodup_cons.mp hnodup
    obtain ⟨entry, hentry⟩ := Option.isSome_iff_exists.mp (hcontains addr List.mem_cons_self)
    obtain ⟨q₁, hok, hfollows, hsame⟩ := rearm_lookup now hentry
    have hother : ∀ peer ∈ due, peer ≠ addr := fun peer hmem heq => hnew (heq ▸ hmem)
    have hcontains₁ : ∀ peer ∈ due, q₁.contains peer = true := by
      intro peer hmem
      unfold contains
      rw [hsame peer (hother peer hmem)]
      exact hcontains peer (List.mem_cons_of_mem _ hmem)
    obtain ⟨q₂, hok₂, hfollows₂, hsame₂⟩ := ih hnodup hcontains₁
    refine ⟨q₂, ?_, fun peer hmem t ht => ?_, fun peer hnot => ?_⟩
    · rw [List.foldlM_cons, hok]
      exact hok₂
    · rcases List.mem_cons.mp hmem with rfl | hmem
      · exact (hfollows t ht).trans (hsame₂ peer hnew).symm
      · exact hfollows₂ peer hmem t (ht.trans (hsame peer (hother peer hmem)).symm)
    · rw [List.mem_cons, not_or] at hnot
      rw [hsame₂ peer hnot.2, hsame peer hnot.1]

/-- A call of `take_due_limited`: the earliest deadlines, up to the limit, and nothing else. -/
structure Takes (q : ReconnectQueue) (now : Instant) (limit : ℕ) (q' : ReconnectQueue)
    (due : List SocketAddr) : Prop where
  nodup : due.Nodup
  length : due.length = min limit (q.dueSet now).card
  subset : ∀ peer ∈ due, peer ∈ q.dueSet now
  earliest : ∀ peer ∈ due, ∀ other ∈ q.dueSet now, other ∉ due →
    (q.dueAt peer).getD 0 ≤ (q.dueAt other).getD 0
  handout : ∀ peer ∈ due, ∀ t, q.Follows peer t → q'.Follows peer (t.act now .handout)
  same : ∀ peer, peer ∉ due → q'.entries.lookup peer = q.entries.lookup peer

theorem takeDueLimited_takes (q : ReconnectQueue) (now : Instant) (limit : ℕ) :
    ∃ q' due, q.takeDueLimited now limit = .ok (q', due) ∧ q.Takes now limit q' due := by
  have hnodup : ((q.duePeers now).take limit).Nodup :=
    (nodup_duePeers q now).sublist (List.take_sublist limit _)
  have hcard : (q.duePeers now).length = (q.dueSet now).card := by
    rw [← List.toFinset_card_of_nodup (nodup_duePeers q now)]
    refine congrArg Finset.card (Finset.ext fun peer => ?_)
    rw [List.mem_toFinset, mem_duePeers_iff]
  obtain ⟨q', hok, hhandout, hsame⟩ := foldlM_rearm_lookup now hnodup
    fun peer hin => mem_duePeers (List.mem_of_mem_take hin)
  refine ⟨q', _, ?_, hnodup, ?_, ?_, ?_, hhandout, hsame⟩
  · rw [takeDueLimited, hok]
    rfl
  · rw [List.length_take, hcard]
  · intro peer hin
    exact mem_duePeers_iff.mp (List.mem_of_mem_take hin)
  · intro peer hin other hother hnot
    -- What is not taken comes after the taken peers in the sorted list.
    have hsorted := sorted_duePeers q now
    rw [← List.take_append_drop limit (q.duePeers now)] at hsorted
    have hrest : other ∈ (q.duePeers now).drop limit := by
      have hin := mem_duePeers_iff.mpr hother
      rw [← List.take_append_drop limit (q.duePeers now)] at hin
      exact (List.mem_append.mp hin).resolve_left hnot
    exact (List.pairwise_append.mp hsorted).2.2 peer hin other hrest

end ReconnectQueue

/-! ## Reconciliation -/

namespace ConnectionDriver

variable {d f : ConnectionDriver} {now : Instant} {peer addr : SocketAddr}
  {state : PeerConnectionState} {states : FinMap SocketAddr PeerConnectionState}
  {g : ConnectionDriver}

/-- The establishments of a peer that have been seen. -/
def seen (d : ConnectionDriver) (peer : SocketAddr) : ℕ := (d.establishments.lookup peer).getD 0

/-- What `reconcile_connections` does to a peer of the snapshot. -/
def reconcileActs (d : ConnectionDriver) (peer : SocketAddr) (state : PeerConnectionState) :
    List PeerAct :=
  (if d.seen peer ≠ state.establishmentCount then [.reset] else []) ++
    [if 0 < state.activeSessions then .suspend else .schedule]

/-- Nothing about `peer` has changed. -/
structure Unmoved (peer : SocketAddr) (d f : ConnectionDriver) : Prop where
  entry : f.reconnect.entries.lookup peer = d.reconnect.entries.lookup peer
  establishments : f.establishments.lookup peer = d.establishments.lookup peer
  connected : peer ∈ f.connected ↔ peer ∈ d.connected

/-- The peer has been reconciled with its state in the snapshot. -/
structure ReconcilesAt (now : Instant) (peer : SocketAddr) (state : PeerConnectionState)
    (d f : ConnectionDriver) : Prop where
  follows : ∀ t, d.reconnect.Follows peer t →
    f.reconnect.Follows peer ((d.reconcileActs peer state).foldl (PeerTrack.act now) t)
  establishments : f.establishments.lookup peer = some state.establishmentCount
  connected : peer ∈ f.connected ↔ 0 < state.activeSessions

theorem Unmoved.seen (h : Unmoved peer d f) : f.seen peer = d.seen peer := by
  unfold ConnectionDriver.seen
  rw [h.establishments]

theorem Unmoved.trans (h : Unmoved peer d f) (h' : Unmoved peer f g) : Unmoved peer d g :=
  ⟨h'.entry.trans h.entry, h'.establishments.trans h.establishments,
    h'.connected.trans h.connected⟩

theorem ReconcilesAt.of_unmoved (h : ReconcilesAt now peer state d f) (hsame : Unmoved peer f g) :
    ReconcilesAt now peer state d g :=
  ⟨fun t ht => (h.follows t ht).trans hsame.entry.symm, hsame.establishments.trans h.establishments,
    hsame.connected.trans h.connected⟩

theorem Unmoved.reconcilesAt (hsame : Unmoved peer d f) (h : ReconcilesAt now peer state f g) :
    ReconcilesAt now peer state d g := by
  refine ⟨fun t ht => ?_, h.establishments, h.connected⟩
  have hfollows := h.follows t (ht.trans hsame.entry.symm)
  unfold reconcileActs at hfollows ⊢
  rwa [hsame.seen] at hfollows

theorem reconcilesAt_reconcilePeer (now : Instant) (d : ConnectionDriver) (peer : SocketAddr)
    (state : PeerConnectionState) :
    ReconcilesAt now peer state d (reconcilePeer now d peer state) := by
  -- The entry is forgotten first, when the establishment is new.
  have hreset : ∀ t, d.reconnect.Follows peer t →
      (if d.seen peer ≠ state.establishmentCount then d.reconnect.forget peer
        else d.reconnect).Follows peer
        ((if d.seen peer ≠ state.establishmentCount then [PeerAct.reset] else []).foldl
          (PeerTrack.act now) t) := by
    intro t ht
    split
    · exact Follows.reset _ now t
    · exact ht
  unfold reconcilePeer
  dsimp only
  split
  · rename_i hpos
    refine ⟨fun t ht => ?_, by simp, by simp [hpos]⟩
    rw [reconcileActs, if_pos hpos, List.foldl_append]
    exact (hreset t ht).suspend now
  · rename_i hzero
    refine ⟨fun t ht => ?_, by simp, by simp [hzero]⟩
    rw [reconcileActs, if_neg hzero, List.foldl_append]
    exact (hreset t ht).schedule

theorem unmoved_reconcilePeer (hne : peer ≠ addr) (state : PeerConnectionState) :
    Unmoved peer d (reconcilePeer now d addr state) := by
  have hforget : (if (d.establishments.lookup addr).getD 0 ≠ state.establishmentCount then
      d.reconnect.forget addr else d.reconnect).entries.lookup peer =
        d.reconnect.entries.lookup peer := by
    split
    · exact forget_of_ne hne
    · rfl
  unfold reconcilePeer
  dsimp only
  split
  · refine ⟨?_, ?_, by simp [hne]⟩
    · rw [suspend_of_ne hne, hforget]
    · rw [FinMap.lookup_insert_eq, if_neg hne]
  · refine ⟨?_, ?_, by simp [hne]⟩
    · rw [schedule_of_ne hne, hforget]
    · rw [FinMap.lookup_insert_eq, if_neg hne]

/-- The loop of `reconcile_connections` reconciles each peer once, and leaves the others. -/
theorem foldl_reconcilePeer (states : FinMap SocketAddr PeerConnectionState)
    {peers : List SocketAddr} (hnodup : peers.Nodup) (d : ConnectionDriver) :
    let f := peers.foldl
      (fun d peer =>
        match states.lookup peer with
        | none => d
        | some state => reconcilePeer now d peer state) d
    (∀ peer ∈ peers, ∀ state, states.lookup peer = some state → ReconcilesAt now peer state d f) ∧
      ∀ peer, peer ∉ peers ∨ states.lookup peer = none → Unmoved peer d f := by
  induction peers generalizing d with
  | nil => exact ⟨nofun, fun _ _ => ⟨rfl, rfl, .rfl⟩⟩
  | cons addr peers ih =>
    obtain ⟨hnew, hnodup⟩ := List.nodup_cons.mp hnodup
    rw [List.foldl_cons]
    cases haddr : states.lookup addr with
    | none =>
      obtain ⟨hrec, hsame⟩ := ih hnodup d
      refine ⟨fun peer hmem state hstate => ?_, fun peer hnot => ?_⟩
      · rcases List.mem_cons.mp hmem with rfl | hmem
        · cases haddr.symm.trans hstate
        · exact hrec peer hmem state hstate
      · exact hsame peer (hnot.imp_left fun hnot hmem => hnot (List.mem_cons_of_mem _ hmem))
    | some state₀ =>
      obtain ⟨hrec, hsame⟩ := ih hnodup (reconcilePeer now d addr state₀)
      refine ⟨fun peer hmem state hstate => ?_, fun peer hnot => ?_⟩
      · rcases List.mem_cons.mp hmem with rfl | hmem
        · cases haddr.symm.trans hstate
          exact (reconcilesAt_reconcilePeer now d peer state₀).of_unmoved (hsame peer (.inl hnew))
        · have hne : peer ≠ addr := fun heq => hnew (heq ▸ hmem)
          exact (unmoved_reconcilePeer hne state₀).reconcilesAt (hrec peer hmem state hstate)
      · have hne : peer ≠ addr := by
          rintro rfl
          rcases hnot with hnot | hnone
          · exact hnot List.mem_cons_self
          · cases haddr.symm.trans hnone
        refine (unmoved_reconcilePeer hne state₀).trans (hsame peer ?_)
        exact hnot.imp_left fun hnot hmem => hnot (List.mem_cons_of_mem _ hmem)

theorem reconcilesAt_reconcileConnections (d : ConnectionDriver) (now : Instant)
    (hstate : states.lookup peer = some state) :
    ReconcilesAt now peer state d (d.reconcileConnections states now) := by
  have hmem : peer ∈ states.keys.sort (· ≤ ·) :=
    (Finset.mem_sort _).mpr ((FinMap.mem_keys_iff _ _).mpr ⟨state, hstate⟩)
  exact (foldl_reconcilePeer states (Finset.sort_nodup _ _) d).1 peer hmem state hstate

theorem unmoved_reconcileConnections (d : ConnectionDriver) (now : Instant)
    (hstate : states.lookup peer = none) :
    Unmoved peer d (d.reconcileConnections states now) :=
  (foldl_reconcilePeer states (Finset.sort_nodup _ _) d).2 peer (.inr hstate)

theorem unmoved_again (d : ConnectionDriver) (now later : Instant)
    (hstate : states.lookup peer = some state) :
    Unmoved peer (d.reconcileConnections states now)
      ((d.reconcileConnections states now).reconcileConnections states later) := by
  have hfirst := reconcilesAt_reconcileConnections d now hstate
  have hagain := reconcilesAt_reconcileConnections (d.reconcileConnections states now) later hstate
  have hsettles := (reconciles_reconcileConnections states d now).settles peer
    ((Finset.mem_sort _).mpr ((FinMap.mem_keys_iff _ _).mpr ⟨state, hstate⟩)) state hstate
  have hseen : (d.reconcileConnections states now).seen peer = state.establishmentCount := by
    rw [ConnectionDriver.seen, hfirst.establishments]
    rfl
  refine ⟨?_, hagain.establishments.trans hfirst.establishments.symm,
    hagain.connected.trans hfirst.connected.symm⟩
  obtain ⟨t, ht⟩ : ∃ t, (d.reconcileConnections states now).reconnect.Follows peer t :=
    ⟨{ PeerTrack.start with entry := _ }, rfl⟩
  have hdueAt : t.entry.bind ReconnectEntry.due =
      (d.reconcileConnections states now).reconnect.dueAt peer := by
    rw [ht]
    rfl
  have hfollows := hagain.follows t ht
  rw [reconcileActs, hseen, if_neg (not_not.mpr rfl)] at hfollows
  refine hfollows.symm.trans (Eq.trans ?_ ht)
  by_cases hpos : 0 < state.activeSessions
  · rw [if_pos hpos]
    exact PeerTrack.act_suspend_of_idle later (hdueAt.trans (hsettles.active hpos).2)
  · rw [if_neg hpos]
    have hdue := (hsettles.inactive (Nat.eq_zero_of_not_pos hpos)).2
    exact congrArg PeerTrack.entry (PeerTrack.act_schedule_of_due later (hdueAt ▸ hdue))

/-- Reconciling again with the same snapshot, at whatever time, finds nothing to do. -/
theorem reconcileConnections_again (d : ConnectionDriver)
    (states : FinMap SocketAddr PeerConnectionState) (now later : Instant) :
    (d.reconcileConnections states now).reconcileConnections states later =
      d.reconcileConnections states now := by
  have hunmoved : ∀ peer, Unmoved peer (d.reconcileConnections states now)
      ((d.reconcileConnections states now).reconcileConnections states later) := by
    intro peer
    cases hstate : states.lookup peer with
    | none => exact unmoved_reconcileConnections _ later hstate
    | some state => exact unmoved_again d now later hstate
  have hconnected := Finset.ext fun peer => (hunmoved peer).connected
  have hestablishments := Finmap.ext_lookup fun peer => (hunmoved peer).establishments
  have hreconnect := congrArg ReconnectQueue.mk
    (Finmap.ext_lookup fun peer => (hunmoved peer).entry)
  have hframe := (reconciles_reconcileConnections states (d.reconcileConnections states now)
    later).frame
  rw [hframe, hconnected, hestablishments]
  exact congrArg (fun q => { d.reconcileConnections states now with reconnect := q }) hreconnect

end ConnectionDriver

/-! ## Calls -/

/-- A call on the queue. -/
inductive QueueCall where
  | schedule (peer : SocketAddr)
  | takeDueLimited (limit : ℕ)
  | suspend (peer : SocketAddr)
  | forget (peer : SocketAddr)
  | reconcileConnections (states : FinMap SocketAddr PeerConnectionState)

/-- The establishments of a peer that the call is told of. -/
def QueueCall.count (peer : SocketAddr) : QueueCall → Option ℕ
  | .reconcileConnections states => (states.lookup peer).map PeerConnectionState.establishmentCount
  | _ => none

/-- How often the number changes along a list, from a first value on. -/
def changes (n : ℕ) : List ℕ → ℕ
  | [] => 0
  | m :: ms => (if n ≠ m then 1 else 0) + changes m ms

namespace ConnectionDriver

variable {d : ConnectionDriver} {now : Instant} {peer : SocketAddr}

/-- A call and the peers that it hands out. -/
def call (d : ConnectionDriver) (now : Instant) :
    QueueCall → Except RegistryPanic (ConnectionDriver × List SocketAddr)
  | .schedule peer => .ok ({ d with reconnect := d.reconnect.schedule peer now }, [])
  | .takeDueLimited limit => do
    let (reconnect, due) ← d.reconnect.takeDueLimited now limit
    .ok ({ d with reconnect }, due)
  | .suspend peer => .ok ({ d with reconnect := d.reconnect.suspend peer }, [])
  | .forget peer => .ok ({ d with reconnect := d.reconnect.forget peer }, [])
  | .reconcileConnections states => .ok (d.reconcileConnections states now, [])

/-- What a call that hands out `due` does to a peer. -/
def callActs (d : ConnectionDriver) (due : List SocketAddr) (peer : SocketAddr) :
    QueueCall → List PeerAct
  | .schedule addr => if peer = addr then [.schedule] else []
  | .takeDueLimited _ => if peer ∈ due then [.handout] else []
  | .suspend addr => if peer = addr then [.suspend] else []
  | .forget addr => if peer = addr then [.forget] else []
  | .reconcileConnections states =>
    match states.lookup peer with
    | none => []
    | some state => d.reconcileActs peer state

/-- A call never fails; it does to each peer what `callActs` says, and learns the establishments
that it is told of. -/
theorem call_follows (d : ConnectionDriver) (now : Instant) (c : QueueCall) :
    ∃ d' due, d.call now c = .ok (d', due) ∧ ∀ peer,
      (∀ t, d.reconnect.Follows peer t →
        d'.reconnect.Follows peer ((d.callActs due peer c).foldl (PeerTrack.act now) t)) ∧
      d'.seen peer = (c.count peer).getD (d.seen peer) := by
  cases c with
  | schedule addr =>
    refine ⟨_, _, rfl, fun peer => ⟨fun t ht => ?_, rfl⟩⟩
    by_cases h : peer = addr
    · subst h
      rw [callActs, if_pos rfl]
      exact ht.schedule
    · rw [callActs, if_neg h]
      exact ht.trans (schedule_of_ne h).symm
  | takeDueLimited limit =>
    obtain ⟨q, due, hok, htakes⟩ := takeDueLimited_takes d.reconnect now limit
    refine ⟨{ d with reconnect := q }, due, by rw [call, hok]; rfl,
      fun peer => ⟨fun t ht => ?_, rfl⟩⟩
    by_cases h : peer ∈ due
    · rw [callActs, if_pos h]
      exact htakes.handout peer h t ht
    · rw [callActs, if_neg h]
      exact ht.trans (htakes.same peer h).symm
  | suspend addr =>
    refine ⟨_, _, rfl, fun peer => ⟨fun t ht => ?_, rfl⟩⟩
    by_cases h : peer = addr
    · subst h
      rw [callActs, if_pos rfl]
      exact ht.suspend now
    · rw [callActs, if_neg h]
      exact ht.trans (suspend_of_ne h).symm
  | forget addr =>
    refine ⟨_, _, rfl, fun peer => ⟨fun t ht => ?_, rfl⟩⟩
    by_cases h : peer = addr
    · subst h
      rw [callActs, if_pos rfl]
      exact Follows.forget _ now t
    · rw [callActs, if_neg h]
      exact ht.trans (forget_of_ne h).symm
  | reconcileConnections states =>
    refine ⟨_, _, rfl, fun peer => ?_⟩
    cases hstate : states.lookup peer with
    | none =>
      have hunmoved := unmoved_reconcileConnections d now hstate
      simp only [callActs, QueueCall.count, hstate]
      exact ⟨fun t ht => ht.trans hunmoved.entry.symm, hunmoved.seen⟩
    | some state =>
      have hreconciles := reconcilesAt_reconcileConnections d now hstate
      simp only [callActs, QueueCall.count, hstate]
      refine ⟨hreconciles.follows, ?_⟩
      rw [ConnectionDriver.seen, hreconciles.establishments]
      rfl

/-- The call resets the peer when it is told of a new establishment. -/
theorem count_callActs (d : ConnectionDriver) (due : List SocketAddr) (peer : SocketAddr)
    (c : QueueCall) :
    (d.callActs due peer c).count .reset = changes (d.seen peer) (c.count peer).toList := by
  cases c with
  | schedule | takeDueLimited | suspend | forget =>
    unfold callActs
    dsimp only
    split <;> rfl
  | reconcileConnections states =>
    cases hstate : states.lookup peer with
    | none => simp [callActs, QueueCall.count, hstate, changes]
    | some state =>
      simp only [callActs, QueueCall.count, hstate, reconcileActs, Option.map_some,
        Option.toList_some, changes]
      split_ifs <;> rfl

end ConnectionDriver

/-! ## Sequences of calls -/

/-- A driver and the tracks of its peers. -/
structure ReconnectHistory where
  driver : ConnectionDriver
  track : SocketAddr → PeerTrack

namespace ReconnectHistory

variable {h : ReconnectHistory} {clock now : Instant} {peer : SocketAddr}

def start (d : ConnectionDriver) : ReconnectHistory := ⟨d, fun _ => .start⟩

def step (h : ReconnectHistory) (c : Instant × QueueCall) :
    Except RegistryPanic ReconnectHistory := do
  let (driver, due) ← h.driver.call c.1 c.2
  .ok ⟨driver, fun peer =>
    (h.driver.callActs due peer c.2).foldl (PeerTrack.act c.1) (h.track peer)⟩

def run (h : ReconnectHistory) (calls : List (Instant × QueueCall)) :
    Except RegistryPanic ReconnectHistory :=
  calls.foldlM step h

/-- Every track follows the queue and is sound. -/
structure Sound (clock : Instant) (h : ReconnectHistory) : Prop where
  follows : ∀ peer, h.driver.reconnect.Follows peer (h.track peer)
  track : ∀ peer, (h.track peer).Sound clock

theorem Sound.start {d : ConnectionDriver} (hd : d.reconnect = .default) :
    (ReconnectHistory.start d).Sound clock := by
  refine ⟨fun peer => ?_, fun _ => .start⟩
  change none = d.reconnect.entries.lookup peer
  rw [hd]
  rfl

theorem Sound.mono (hs : h.Sound clock) (hnow : clock ≤ now) : h.Sound now :=
  ⟨hs.follows, fun peer => (hs.track peer).mono hnow⟩

theorem Sound.step (hs : h.Sound clock) {c : Instant × QueueCall} (hc : clock ≤ c.1) :
    ∃ h', h.step c = .ok h' ∧ h'.Sound c.1 ∧ ∀ peer,
      h'.driver.seen peer = (c.2.count peer).getD (h.driver.seen peer) ∧
      (h'.track peer).resets =
        (h.track peer).resets + changes (h.driver.seen peer) (c.2.count peer).toList := by
  obtain ⟨d', due, hok, hpeer⟩ := h.driver.call_follows c.1 c.2
  refine ⟨_, by rw [ReconnectHistory.step, hok]; rfl, ⟨fun peer => ?_, fun peer => ?_⟩,
    fun peer => ⟨(hpeer peer).2, ?_⟩⟩
  · exact (hpeer peer).1 _ (hs.follows peer)
  · exact (hs.track peer).foldl_act hc _
  · rw [PeerTrack.resets_foldl_act, ConnectionDriver.count_callActs]

/-- Every call of a sequence finds a sound history, and there is one reset for each change of the
establishments that the calls are told of. -/
theorem Sound.run {calls : List (Instant × QueueCall)} (hs : h.Sound clock)
    (htimes : calls.Pairwise fun a b => a.1 ≤ b.1) (hclock : ∀ c ∈ calls, clock ≤ c.1) :
    ∃ h' clock', h.run calls = .ok h' ∧ h'.Sound clock' ∧
      (∀ now, clock ≤ now → (∀ c ∈ calls, c.1 ≤ now) → clock' ≤ now) ∧
      ∀ peer, (h'.track peer).resets = (h.track peer).resets +
        changes (h.driver.seen peer) (calls.filterMap fun c => c.2.count peer) := by
  induction calls generalizing h clock with
  | nil => exact ⟨h, clock, rfl, hs, fun now hnow _ => hnow, fun _ => rfl⟩
  | cons c calls ih =>
    obtain ⟨hfirst, htimes⟩ := List.pairwise_cons.mp htimes
    obtain ⟨h₁, hok₁, hs₁, hpeer₁⟩ := hs.step (hclock c List.mem_cons_self)
    obtain ⟨h₂, clock₂, hok₂, hs₂, hclock₂, hresets₂⟩ := ih hs₁ htimes hfirst
    refine ⟨h₂, clock₂, ?_, hs₂, fun now _ hcalls => ?_, fun peer => ?_⟩
    · rw [ReconnectHistory.run, List.foldlM_cons, hok₁]
      exact hok₂
    · exact hclock₂ now (hcalls c List.mem_cons_self) fun c hc =>
        hcalls c (List.mem_cons_of_mem _ hc)
    · obtain ⟨hseen, hresets⟩ := hpeer₁ peer
      rw [hresets₂, hresets, hseen]
      cases hcount : c.2.count peer with
      | none => simp [changes, hcount]
      | some n => simp [changes, hcount, Nat.add_assoc]

/-- The call forgets the entry of the peer. -/
def Forgets (h : ReconnectHistory) (peer : SocketAddr) : QueueCall → Prop
  | .forget addr => addr = peer
  | .reconcileConnections states =>
    ∃ state, states.lookup peer = some state ∧ h.driver.seen peer ≠ state.establishmentCount
  | _ => False

/-- Unless it is forgotten, an entry never loses attempts. -/
theorem Sound.attempts_le (hs : h.Sound clock) {e : ReconnectEntry}
    (hentry : h.driver.reconnect.entries.lookup peer = some e) {c : QueueCall}
    (hkept : ¬ h.Forgets peer c) {d' : ConnectionDriver} {due : List SocketAddr}
    (hcall : h.driver.call now c = .ok (d', due)) :
    ∃ e', d'.reconnect.entries.lookup peer = some e' ∧ e.attempts ≤ e'.attempts := by
  obtain ⟨_, _, hok, hpeer⟩ := h.driver.call_follows now c
  cases hok.symm.trans hcall
  have hfollows := (hpeer peer).1 _ (hs.follows peer)
  have htrack : (h.track peer).entry = some e := (hs.follows peer).trans hentry
  have hone : ∀ a, a ≠ PeerAct.forget → a ≠ .reset → h.driver.callActs due peer c = [a] ∨
      h.driver.callActs due peer c = [] →
      ∃ e', d'.reconnect.entries.lookup peer = some e' ∧ e.attempts ≤ e'.attempts := by
    rintro a hforget hreset (hacts | hacts)
    · rw [hacts] at hfollows
      obtain ⟨e', he', hle⟩ := (hs.track peer).attempts_act htrack hforget hreset now
      exact ⟨e', hfollows.symm.trans he', hle⟩
    · rw [hacts] at hfollows
      exact ⟨e, hfollows.symm.trans htrack, le_rfl⟩
  cases c with
  | schedule addr => exact hone .schedule nofun nofun (ite_eq_or_eq ..)
  | takeDueLimited limit => exact hone .handout nofun nofun (ite_eq_or_eq ..)
  | suspend addr => exact hone .suspend nofun nofun (ite_eq_or_eq ..)
  | forget addr =>
    refine hone .schedule nofun nofun (.inr (if_neg ?_))
    exact fun heq => hkept heq.symm
  | reconcileConnections states =>
    cases hstate : states.lookup peer with
    | none => exact hone .schedule nofun nofun (.inr (by simp [ConnectionDriver.callActs, hstate]))
    | some state =>
      have hseen : ¬ h.driver.seen peer ≠ state.establishmentCount :=
        fun hne => hkept ⟨state, hstate, hne⟩
      have hacts : h.driver.callActs due peer (.reconcileConnections states) =
          [if 0 < state.activeSessions then .suspend else .schedule] := by
        simp only [ConnectionDriver.callActs, hstate, ConnectionDriver.reconcileActs,
          if_neg hseen, List.nil_append]
      refine hone _ ?_ ?_ (.inl hacts)
      · split <;> exact nofun
      · split <;> exact nofun

end ReconnectHistory

/-- What reconciliation leaves of a peer: no entry or a fresh one after a new establishment, and
otherwise the attempts that it had. -/
theorem ConnectionDriver.backoff_reconciled (d : ConnectionDriver) (now : Instant)
    {states : FinMap SocketAddr PeerConnectionState} {peer : SocketAddr}
    {state : PeerConnectionState} (hstate : states.lookup peer = some state) :
    (d.seen peer ≠ state.establishmentCount →
      (d.reconcileConnections states now).reconnect.entries.lookup peer =
        if 0 < state.activeSessions then none else some ⟨0, some (now + backoffFor 0)⟩) ∧
    (d.reconcileConnections states now).seen peer = state.establishmentCount := by
  have hreconciles := d.reconcilesAt_reconcileConnections now hstate
  constructor
  · intro hnew
    obtain ⟨t, ht⟩ : ∃ t, d.reconnect.Follows peer t := ⟨{ PeerTrack.start with entry := _ }, rfl⟩
    have hfollows := hreconciles.follows t ht
    rw [reconcileActs, if_pos hnew] at hfollows
    refine hfollows.symm.trans ?_
    split <;> rfl
  · rw [ConnectionDriver.seen, hreconciles.establishments]
    rfl

/-- Whatever calls were made before, in the order of time: a peer is handed out only a whole
backoff after its deadline was set and after its last handout, attempts are only lost when a peer
is forgotten, `take_due_limited` takes the earliest deadlines, reconciling twice is reconciling
once, and each new establishment resets the backoff once. -/
theorem reconnect_backoff_honoured {d : ConnectionDriver} {calls : List (Instant × QueueCall)}
    (hstart : d.reconnect = .default) (htimes : calls.Pairwise fun a b => a.1 ≤ b.1) :
    ∃ h, (ReconnectHistory.start d).run calls = .ok h ∧
      (∀ peer, (h.track peer).entry = h.driver.reconnect.entries.lookup peer) ∧
      (∀ now limit, (∀ c ∈ calls, c.1 ≤ now) → ∃ q due,
        h.driver.reconnect.takeDueLimited now limit = .ok (q, due) ∧
        h.driver.reconnect.Takes now limit q due ∧
        ∀ peer ∈ due,
          (h.track peer).setAt + min (2 ^ (h.track peer).handouts) 30 * 1000000000 ≤ now ∧
          ∀ last, (h.track peer).lastHandout = some last →
            last + min (2 ^ (h.track peer).handouts) 30 * 1000000000 ≤ now) ∧
      (∀ peer e, h.driver.reconnect.entries.lookup peer = some e → ∀ now c, ¬ h.Forgets peer c →
        ∀ d' due, h.driver.call now c = .ok (d', due) →
          ∃ e', d'.reconnect.entries.lookup peer = some e' ∧ e.attempts ≤ e'.attempts) ∧
      (∀ states now later,
        (h.driver.reconcileConnections states now).reconcileConnections states later =
          h.driver.reconcileConnections states now) ∧
      (∀ peer, (h.track peer).resets =
        changes (d.seen peer) (calls.filterMap fun c => c.2.count peer)) ∧
      (∀ states peer state now, states.lookup peer = some state →
        (h.driver.seen peer ≠ state.establishmentCount →
          (h.driver.reconcileConnections states now).reconnect.entries.lookup peer =
            if 0 < state.activeSessions then none else some ⟨0, some (now + backoffFor 0)⟩) ∧
        (h.driver.reconcileConnections states now).seen peer = state.establishmentCount) := by
  obtain ⟨h, clock, hrun, hsound, hclock, hresets⟩ :=
    (ReconnectHistory.Sound.start hstart).run htimes fun c _ => Nat.zero_le c.1
  refine ⟨h, hrun, hsound.follows, fun now limit hcalls => ?_, fun peer e hentry now c hkept d' due =>
    hsound.attempts_le hentry hkept, fun states now later => ?_, fun peer => ?_,
    fun states peer state now hstate => h.driver.backoff_reconciled now hstate⟩
  · have hnow := hsound.mono (hclock now (Nat.zero_le now) hcalls)
    obtain ⟨q, due, hok, htakes⟩ := takeDueLimited_takes h.driver.reconnect now limit
    refine ⟨q, due, hok, htakes, fun peer hmem => ?_⟩
    obtain ⟨at_, hdue, hle⟩ := mem_dueSet_iff.mp (htakes.subset peer hmem)
    obtain ⟨e, hentry, hdue⟩ := Option.bind_eq_some_iff.mp hdue
    exact (hnow.track peer).spacing ((hnow.follows peer).trans hentry) hdue hle
  · exact h.driver.reconcileConnections_again states now later
  · rw [hresets]
    exact Nat.zero_add _

/-- A peer is scheduled, and handed out a second later. -/
theorem reconnect_backoff_honoured_scheduled :
    ∃ h, (ReconnectHistory.start (.start .discovery [] (.new ⟨8, 60⟩ ∅))).run
        [(0, .schedule (.v4 1 854)), (1000000000, .takeDueLimited 1)] = .ok h ∧
      (h.track (.v4 1 854)).handouts = 1 ∧
      (h.track (.v4 1 854)).entry = h.driver.reconnect.entries.lookup (.v4 1 854) := by
  obtain ⟨h, hrun, hfollows, -⟩ := @reconnect_backoff_honoured
    (.start .discovery [] (.new ⟨8, 60⟩ ∅))
    [(0, .schedule (.v4 1 854)), (1000000000, .takeDueLimited 1)] rfl (by simp)
  have hone : ((ReconnectHistory.start (.start .discovery [] (.new ⟨8, 60⟩ ∅))).run
      [(0, .schedule (.v4 1 854)), (1000000000, .takeDueLimited 1)]).map
        (fun h => (h.track (.v4 1 854)).handouts) = .ok 1 := by
    decide +kernel
  rw [hrun] at hone
  exact ⟨h, hrun, Except.ok.inj hone, hfollows _⟩

end Dlep
