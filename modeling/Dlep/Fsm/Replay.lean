-- SUMMARY: The router's events replay its destination table: who is up, and every stored address list.
import Dlep.Fsm.Ownership

/-!
# Replaying the router's events

An application sees the destinations only through the emitted events. `follow` is
that application for one destination: it expects Up and Down to alternate and every
other event about the destination to come between them, and it keeps the addresses
both ways the events offer, by folding the deltas and by taking the snapshots. The
events of every run are accepted, and what they add up to is the router's table.
-/

namespace Dlep

/-! ## The follower of one destination -/

/-- What the follower of a destination that is up holds: the set it folded from the
deltas, and the last complete set it was given. -/
structure Shown where
  folded : DestinationAddrs
  latest : DestinationAddrs
  deriving DecidableEq, Repr

/-- Take one event. The outer option is `none` when the event is out of place. -/
def follow (mac : MacAddress) (known : Option Shown) (event : EmittedEvent) :
    Option (Option Shown) :=
  match event with
  | .destinationUp m _ addrs =>
    if m = mac then
      match known with
      | none => some (some ⟨addrs, addrs⟩)
      | some _ => none
    else some known
  | .destinationDown m _ => if m = mac then known.map fun _ => none else some known
  | .destinationUpdate m _ => if m = mac then known.map some else some known
  | .linkCharacteristicsResponse m _ _ _ => if m = mac then known.map some else some known
  | .destinationAddressesUpdate m changes addresses =>
    if m = mac then known.map fun v => some ⟨changes.applyLenient v.folded, addresses⟩
    else some known
  | _ => some known

/-- Take all events of a list, from nothing known. -/
def followAll (mac : MacAddress) (events : List EmittedEvent) : Option (Option Shown) :=
  events.foldlM (follow mac) none

/-- The destination whose follower an event concerns. -/
def EmittedEvent.subject : EmittedEvent → Option MacAddress
  | .destinationUp m _ _ => some m
  | .destinationDown m _ => some m
  | .destinationUpdate m _ => some m
  | .linkCharacteristicsResponse m _ _ _ => some m
  | .destinationAddressesUpdate m _ _ => some m
  | _ => none

theorem follow_other {mac : MacAddress} {event : EmittedEvent} (h : event.subject ≠ some mac)
    (known : Option Shown) : follow mac known event = some known := by
  cases event <;> first
    | rfl
    | exact if_neg fun heq => h (congrArg some heq)

theorem foldlM_follow_other {mac : MacAddress} {events : List EmittedEvent}
    (h : ∀ e ∈ events, e.subject ≠ some mac) (known : Option Shown) :
    events.foldlM (follow mac) known = some known := by
  induction events with
  | nil => rfl
  | cons e events ih =>
    rw [List.foldlM_cons, follow_other (h e List.mem_cons_self)]
    exact ih fun e' he' => h e' (List.mem_cons_of_mem _ he')

namespace RouterSessionFsm

variable {s s' : RouterSessionFsm} {event : FsmEvent} {actions : List FsmAction} {mac : MacAddress}
  {d : RouterDestination}

/-- What a follower should hold of the router's table. -/
def shown (s : RouterSessionFsm) (mac : MacAddress) : Option Shown :=
  (s.addrsOf mac).map fun addrs => ⟨addrs, addrs⟩

/-- A step that emits nothing about destinations and keeps their addresses. -/
theorem replays_of_kept (hkept : ∀ m, s'.addrsOf m = s.addrsOf m)
    (hevents : ∀ e ∈ emittedEvents actions, e.subject = none) (mac : MacAddress) :
    (emittedEvents actions).foldlM (follow mac) (s.shown mac) = some (s'.shown mac) := by
  rw [foldlM_follow_other fun e he => by simp [hevents e he]]
  simp only [shown, hkept]

/-- A step whose one event is about `mac`. -/
theorem replays_of_single {e : EmittedEvent} (hemitted : emittedEvents actions = [e])
    (hsubject : e.subject = some mac) (hother : ∀ m, m ≠ mac → s'.addrsOf m = s.addrsOf m)
    (hself : follow mac (s.shown mac) e = some (s'.shown mac)) (m : MacAddress) :
    (emittedEvents actions).foldlM (follow m) (s.shown m) = some (s'.shown m) := by
  have hone : follow m (s.shown m) e = some (s'.shown m) := by
    by_cases hm : m = mac
    · rw [hm]
      exact hself
    · rw [follow_other (by simpa [hsubject] using Ne.symm hm)]
      simp only [shown, hother m hm]
  rw [hemitted, List.foldlM_cons, hone]
  rfl

theorem addrsOf_of_insert {mac m : MacAddress} (hne : m ≠ mac)
    (hs' : s'.destinations = s.destinations.insert mac d) : s'.addrsOf m = s.addrsOf m := by
  unfold addrsOf
  rw [hs', addrsOf_insert, if_neg hne]

theorem addrsOf_of_erase {mac m : MacAddress} (hne : m ≠ mac)
    (hs' : s'.destinations = s.destinations.erase mac) : s'.addrsOf m = s.addrsOf m := by
  unfold addrsOf
  rw [hs', addrsOf_erase, if_neg hne]

theorem shown_of_insert (hs' : s'.destinations = s.destinations.insert mac d) :
    s'.shown mac = some ⟨d.addrs, d.addrs⟩ := by
  simp [shown, addrsOf, hs']

theorem shown_of_erase (hs' : s'.destinations = s.destinations.erase mac) :
    s'.shown mac = none := by
  simp [shown, addrsOf, hs']

theorem shown_of_lookup (hd : s.destinations.lookup mac = some d) :
    s.shown mac = some ⟨d.addrs, d.addrs⟩ := by
  simp [shown, addrsOf, hd]

/-- An absent destination comes up. -/
theorem replays_up (habsent : s.destinations.lookup mac = none)
    (hs' : s'.destinations = s.destinations.insert mac d)
    (hemitted : emittedEvents actions = [.destinationUp mac d.metrics d.addrs]) (m : MacAddress) :
    (emittedEvents actions).foldlM (follow m) (s.shown m) = some (s'.shown m) := by
  refine replays_of_single hemitted rfl
    (fun m hne => addrsOf_of_insert hne hs') ?_ m
  rw [shown_of_insert hs']
  simp [follow, shown, addrsOf, habsent]

/-- A known destination goes down. -/
theorem replays_down {reason : StatusCode} (hknown : (s.destinations.lookup mac).isSome = true)
    (hs' : s'.destinations = s.destinations.erase mac)
    (hemitted : emittedEvents actions = [.destinationDown mac reason]) (m : MacAddress) :
    (emittedEvents actions).foldlM (follow m) (s.shown m) = some (s'.shown m) := by
  obtain ⟨d, hd⟩ := Option.isSome_iff_exists.mp hknown
  refine replays_of_single hemitted rfl
    (fun m hne => addrsOf_of_erase hne hs') ?_ m
  rw [shown_of_erase hs', shown_of_lookup hd]
  simp [follow]

/-- The events of a Destination Update: the metrics first, then what changed of the addresses. -/
theorem replays_update {d d' : RouterDestination} {c : AddressChanges}
    (hd : s.destinations.lookup mac = some d) (hwf : d.addrs.WellFormed)
    (hs' : s'.destinations = s.destinations.insert mac d')
    (haddrs : d'.addrs = c.applyLenient d.addrs) (merged : Bool) (hemitted : emittedEvents actions =
      (if merged then [.destinationUpdate mac d'.metrics] else []) ++
      (if (AddressChanges.between d.addrs d'.addrs).isEmpty then []
        else [.destinationAddressesUpdate mac (AddressChanges.between d.addrs d'.addrs) d'.addrs]))
    (m : MacAddress) :
    (emittedEvents actions).foldlM (follow m) (s.shown m) = some (s'.shown m) := by
  by_cases hm : m = mac
  · subst hm
    rw [shown_of_lookup hd, shown_of_insert hs', hemitted, List.foldlM_append]
    have hmetrics : (if merged then [EmittedEvent.destinationUpdate m d'.metrics] else []).foldlM
        (follow m) (some ⟨d.addrs, d.addrs⟩) = some (some ⟨d.addrs, d.addrs⟩) := by
      cases merged <;> simp [follow]
    rw [hmetrics]
    change List.foldlM (follow m) (some ⟨d.addrs, d.addrs⟩) _ = _
    split
    -- No event: the application left the very list it found.
    · rename_i hempty
      rw [haddrs] at hempty
      rw [haddrs, AddressChanges.applyLenient_of_isEmpty_between hwf hempty]
      rfl
    · have hfold : (AddressChanges.between d.addrs d'.addrs).applyLenient d.addrs = d'.addrs := by
        rw [haddrs]
        exact AddressChanges.applyLenient_between_applyLenient hwf c
      simp [follow, hfold]
  · have hother : ∀ e ∈ emittedEvents actions, e.subject ≠ some m := by
      rw [hemitted]
      split <;> split <;> simp [EmittedEvent.subject, Ne.symm hm]
    rw [foldlM_follow_other hother]
    simp only [shown, addrsOf_of_insert hm hs']

theorem Transition.replays (h : s.Transition event s' actions) (hc : s.Consistent) (ho : s.Owned)
    (mac : MacAddress) :
    (emittedEvents actions).foldlM (follow mac) (s.shown mac) = some (s'.shown mac) := by
  cases h with
  | upReceived _ _ _ _ hd => exact replays_up hd rfl (by simp) mac
  | @announceGranted _ k _ _ _ _ _ hannounce =>
    -- An open Announce is for an absent destination.
    rcases hc.tracked k _ hannounce with ⟨-, hd⟩ | ⟨hkind, -⟩
    · exact replays_up hd rfl (by simp) mac
    · rcases hkind with hkind | hkind <;> cases hkind
  | @updateReceived msg k d _ _ _ _ hd =>
    refine replays_update hd (ho.stored k d.addrs (by simp [addrsOf, hd])) rfl rfl
      (mergeLinkMetrics msg d.metrics).2 ?_ mac
    simp only [emittedEvents_append, emittedEvents_reset, List.append_nil]
    congr 1
    · split <;> rfl
    · split <;> rfl
  | downReceived _ _ _ _ hd => exact replays_down (by simp [hd]) rfl (by simp; rfl) mac
  | @dropAnswered _ k _ _ _ _ _ hdown =>
    rcases hc.tracked k _ hdown with ⟨hkind, -⟩ | ⟨-, hd⟩
    · cases hkind
    · exact replays_down hd rfl (by simp; rfl) mac
  | @linkAnswered msg k d status text _ _ _ _ hd =>
    refine replays_of_single (by simp; rfl) rfl
      (fun m hne => addrsOf_of_insert hne rfl) ?_ mac
    rw [shown_of_lookup hd, shown_of_insert rfl]
    simp [follow]
  | initialized =>
    refine replays_of_kept (fun m => rfl) ?_ mac
    unfold sessionUpActions
    split <;> simp [EmittedEvent.subject]
  | ends h =>
    refine replays_of_kept (fun m => rfl) (fun e he => ?_) mac
    obtain ⟨_, rfl⟩ := h.emitted e he
    rfl
  | sessionUpdated =>
    refine replays_of_kept ?_ ?_ mac
    · intro m
      simp only [addrsOf]
      split
      · simp [Option.map_map, Function.comp_def]
      · rfl
    · split <;> split <;> simp [EmittedEvent.subject]
  | _ =>
    refine replays_of_kept (fun m => rfl) ?_ mac
    simp [EmittedEvent.subject]

/-- The events of a run, in order. -/
def emitted (trace : List Entry) : List EmittedEvent :=
  trace.flatMap fun e => emittedEvents e.output

theorem run_replays {config : SessionConfig} {events : List FsmEvent} {t : RouterSessionFsm}
    {trace : List Entry} (h : run config events = .ok (t, trace)) (mac : MacAddress) :
    followAll mac (emitted trace) = some (t.shown mac) := by
  suffices hJ : t.Owned ∧ followAll mac (emitted trace) = some (t.shown mac) from hJ.2
  refine lawful.run_history ?_ (consistent_withConfig config) ⟨owned_withConfig config, rfl⟩ h
  rintro s trace event s' actions hc ⟨ho, hfollow⟩ ht
  refine ⟨ht.owned ho, ?_⟩
  unfold followAll emitted at hfollow ⊢
  rw [List.flatMap_append, List.foldlM_append, hfollow]
  change List.foldlM (follow mac) (s.shown mac) _ = _
  simpa using ht.replays hc ho mac

end RouterSessionFsm

/-- At any point of any run, every destination's follower has accepted all events, knows
the destination exactly when the table has it, and holds its stored address lists, from
the deltas as from the snapshots. -/
theorem router_events_replay_table (config : SessionConfig) (events : List FsmEvent) :
    ∃ s trace, RouterSessionFsm.run config events = .ok (s, trace) ∧
      ∀ mac, followAll mac (RouterSessionFsm.emitted trace) =
        some ((s.destinations.lookup mac).map fun d => ⟨d.addrs, d.addrs⟩) := by
  obtain ⟨s, trace, hrun⟩ := RouterSessionFsm.run_ok config events
  refine ⟨s, trace, hrun, fun mac => ?_⟩
  rw [RouterSessionFsm.run_replays hrun mac]
  simp [RouterSessionFsm.shown, RouterSessionFsm.addrsOf, Option.map_map, Function.comp_def]

end Dlep
