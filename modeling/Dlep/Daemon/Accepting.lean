-- SUMMARY: The modem daemon: its accept loop, its connection tasks and its shutdown, under every interleaving.
import Dlep.Daemon.Discovery
import Dlep.Lib.Quiescence

/-!
# Accepting connections

`modem.rs`: the accept loop hands every connection to a task of its own, and
`shutdown` stops the loop, asks every session to end and waits for every task. The
code between two awaits is one step here, and so is a critical section, since none
of them awaits anything while it holds its lock. Any order of steps is a run.
-/

namespace Dlep

/-! ## The model -/

/-- Where a connection's task is: before its first poll, in the handshake, waiting for the
lock of the session commands, in the session, and waiting for that lock again. -/
inductive TaskStage where
  | spawned
  | handshaking
  | locking
  | session
  | finishing
  deriving DecidableEq, Repr

/-- The steps that a task has left, at most. -/
def TaskStage.left : TaskStage → ℕ
  | .spawned => 5
  | .handshaking => 4
  | .locking => 3
  | .session => 2
  | .finishing => 1

/-- A connection's task, with the address its `RouterConnection` holds. -/
structure ConnectionTask where
  id : ℕ
  address : RouterAddress
  stage : TaskStage
  deriving DecidableEq, Repr

/-- The accept loop waits for a connection, or for the lock of the tasks with a connection
in hand, or it has been aborted. -/
inductive Listener where
  | accepting
  | holding (address : RouterAddress)
  | aborted
  deriving DecidableEq, Repr

/-- The address of the connection in hand. -/
def Listener.held : Listener → List RouterAddress
  | .holding address => [address]
  | _ => []

/-- How far `shutdown` is: not called, stopping discovery, the loop aborted, asking the
sessions that remain to end, joining the tasks that remain, returned. -/
inductive Closedown where
  | serving
  | stopping
  | unlistening
  | asking (rest : List ℕ)
  | joining (rest : List ℕ)
  | returned
  deriving DecidableEq, Repr

/-- The permits of the accept loop. -/
def CONNECTION_PERMITS : ℕ := 64

/-- `live` are the tasks that have not finished, `handles` is `tasks`, `commands` is
`session_cmds`; `asked` are the sessions that `shutdown` has sent its command to. -/
structure ModemRuntime where
  stopping : Bool
  permits : ℕ
  routers : ConnectedRouters
  listener : Listener
  nextId : ℕ
  live : List ConnectionTask
  handles : List ℕ
  commands : List ℕ
  asked : List ℕ
  closedown : Closedown

namespace ModemRuntime

variable {t : ConnectionTask} {commands : List ℕ}

/-- As `ModemBuilder::spawn` leaves it. -/
def spawn : ModemRuntime where
  stopping := false
  permits := CONNECTION_PERMITS
  routers := .default
  listener := .accepting
  nextId := 0
  live := []
  handles := []
  commands := []
  asked := []
  closedown := .serving

/-- The task, if it is in this stage. -/
def inStage (d : ModemRuntime) (id : ℕ) (stage : TaskStage) : Option ConnectionTask :=
  d.live.find? fun t => decide (t.id = id ∧ t.stage = stage)

/-- `!handle.is_finished()`. -/
def isLive (d : ModemRuntime) (id : ℕ) : Bool := d.live.any fun t => decide (t.id = id)

/-- `!tx.is_closed()`: the session still has the receiver. -/
def isOpen (d : ModemRuntime) (id : ℕ) : Bool :=
  d.live.any fun t => decide (t.id = id ∧ t.stage = .session)

/-- The task goes on to another stage. -/
def advance (d : ModemRuntime) (t : ConnectionTask) (stage : TaskStage) : ModemRuntime :=
  { d with live := { t with stage := stage } :: d.live.erase t }

/-- The task returns and drops its connection and its permit. -/
def finish (d : ModemRuntime) (t : ConnectionTask) : Outcome ModemRuntime := do
  let routers ← d.routers.release t.address
  .ok { d with routers := routers, permits := d.permits + 1, live := d.live.erase t }

/-- The steps of the loop, of the tasks and of `shutdown`, and what the environment
decides: who connects, how a handshake ends, and when a session ends. -/
inductive Input where
  | accept (peer : Option SocketAddr)
  | spawnTask
  | dispatch
  | poll (id : ℕ)
  | handshake (id : ℕ) (succeeds : Bool)
  | enter (id : ℕ)
  | sessionEnds (id : ℕ)
  | leave (id : ℕ)
  | shutdown
  | abortListener
  | takeCommands
  | ask
  | takeTasks
  | join
  | finishShutdown
  deriving DecidableEq, Repr

/-- The accept loop on an accepted stream: without a permit or a peer address it is
closed. -/
def accept (d : ModemRuntime) (peer : Option SocketAddr) : ModemRuntime :=
  match d.listener, d.permits, peer with
  | .accepting, permits + 1, some peer =>
    let (routers, address) := d.routers.register peer
    { d with permits := permits, routers := routers, listener := .holding address }
  | _, _, _ => d

/-- The accept loop gets the lock of the tasks. -/
def spawnTask (d : ModemRuntime) : ModemRuntime :=
  match d.listener with
  | .holding address =>
    { d with
      listener := .accepting
      nextId := d.nextId + 1
      live := ⟨d.nextId, address, .spawned⟩ :: d.live
      handles := d.handles.filter d.isLive ++ [d.nextId] }
  | _ => d

/-- `listen_task.abort()`: what the loop holds is dropped. -/
def abortListener (d : ModemRuntime) : Outcome ModemRuntime :=
  match d.listener with
  | .holding address => do
    let routers ← d.routers.release address
    .ok { d with routers := routers, permits := d.permits + 1, listener := .aborted }
  | _ => .ok { d with listener := .aborted }

/-- One step; one that is not enabled does nothing. -/
def step (d : ModemRuntime) : Input → Outcome ModemRuntime
  | .accept peer => .ok (d.accept peer)
  | .spawnTask => .ok d.spawnTask
  | .dispatch =>
    match d.closedown with
    | .serving => .ok { d with commands := d.commands.filter d.isOpen }
    | _ => .ok d
  | .poll id =>
    match d.inStage id .spawned with
    | none => .ok d
    | some t => if d.stopping then d.finish t else .ok (d.advance t .handshaking)
  -- The select is biased: a stop is seen before the handshake's result.
  | .handshake id succeeds =>
    match d.inStage id .handshaking with
    | none => .ok d
    | some t => if d.stopping || !succeeds then d.finish t else .ok (d.advance t .locking)
  | .enter id =>
    match d.inStage id .locking with
    | none => .ok d
    | some t =>
      if d.stopping then d.finish t
      else .ok { d.advance t .session with commands := d.commands.filter d.isOpen ++ [t.id] }
  | .sessionEnds id =>
    match d.inStage id .session with
    | none => .ok d
    | some t => .ok (d.advance t .finishing)
  | .leave id =>
    match d.inStage id .finishing with
    | none => .ok d
    | some t => finish { d with commands := d.commands.filter d.isOpen } t
  | .shutdown =>
    match d.closedown with
    | .serving => .ok { d with stopping := true, closedown := .stopping }
    | _ => .ok d
  | .abortListener =>
    match d.closedown with
    | .stopping => abortListener { d with closedown := .unlistening }
    | _ => .ok d
  | .takeCommands =>
    match d.closedown with
    | .unlistening => .ok { d with commands := [], closedown := .asking d.commands }
    | _ => .ok d
  | .ask =>
    match d.closedown with
    | .asking (id :: rest) => .ok { d with asked := id :: d.asked, closedown := .asking rest }
    | _ => .ok d
  | .takeTasks =>
    match d.closedown with
    | .asking [] => .ok { d with handles := [], closedown := .joining d.handles }
    | _ => .ok d
  | .join =>
    match d.closedown with
    | .joining (id :: rest) => if d.isLive id then .ok d else .ok { d with closedown := .joining rest }
    | _ => .ok d
  | .finishShutdown =>
    match d.closedown with
    | .joining [] => .ok { d with closedown := .returned }
    | _ => .ok d

/-- The daemon as a machine without outputs. -/
def machine (d : ModemRuntime) (input : Input) : Outcome (ModemRuntime × Unit) :=
  (d.step input).map fun d => (d, ())

/-! ## What a step can do -/

/-- Pruning the command channels drops only closed ones. -/
def Prunes (d : ModemRuntime) (commands : List ℕ) : Prop :=
  ∀ id ∈ d.commands, d.isOpen id = true → id ∈ commands

theorem prunes_refl (d : ModemRuntime) : d.Prunes d.commands := fun _ hid _ => hid

theorem prunes_filter (d : ModemRuntime) : d.Prunes (d.commands.filter d.isOpen) :=
  fun _ hid hopen => List.mem_filter.mpr ⟨hid, hopen⟩

/-- Every step that does something. -/
inductive Moves (d : ModemRuntime) : ModemRuntime → Prop where
  | nothing : Moves d d
  | accepts {permits : ℕ} (peer : SocketAddr) (hlistener : d.listener = .accepting)
      (hpermits : d.permits = permits + 1) :
      Moves d { d with
        permits := permits, routers := (d.routers.register peer).1
        listener := .holding (d.routers.register peer).2 }
  | spawns {address : RouterAddress} (hlistener : d.listener = .holding address) :
      Moves d { d with
        listener := .accepting, nextId := d.nextId + 1
        live := ⟨d.nextId, address, .spawned⟩ :: d.live
        handles := d.handles.filter d.isLive ++ [d.nextId] }
  | dispatches (hserving : d.closedown = .serving) :
      Moves d { d with commands := d.commands.filter d.isOpen }
  | advances {t : ConnectionTask} {stage : TaskStage} (hlive : t ∈ d.live)
      (hstage : stage ≠ .session) (hnext : stage.left < t.stage.left) : Moves d (d.advance t stage)
  | enters {t : ConnectionTask} (hlive : t ∈ d.live) (hrunning : d.stopping = false) :
      Moves d { d.advance t .session with commands := d.commands.filter d.isOpen ++ [t.id] }
  | finishes {t : ConnectionTask} {commands : List ℕ} {routers : ConnectedRouters}
      (hlive : t ∈ d.live) (hprunes : d.Prunes commands)
      (hlength : commands.length ≤ d.commands.length)
      (hrelease : d.routers.release t.address = .ok routers) :
      Moves d { d with
        routers := routers, permits := d.permits + 1, live := d.live.erase t, commands := commands }
  | stops (hserving : d.closedown = .serving) :
      Moves d { d with stopping := true, closedown := .stopping }
  | aborts (hstopping : d.closedown = .stopping) (hlistener : d.listener.held = []) :
      Moves d { d with listener := .aborted, closedown := .unlistening }
  | abortsHolding {address : RouterAddress} {routers : ConnectedRouters}
      (hstopping : d.closedown = .stopping) (hlistener : d.listener = .holding address)
      (hrelease : d.routers.release address = .ok routers) :
      Moves d { d with
        routers := routers, permits := d.permits + 1, listener := .aborted
        closedown := .unlistening }
  | takesCommands (h : d.closedown = .unlistening) :
      Moves d { d with commands := [], closedown := .asking d.commands }
  | asks {id : ℕ} {rest : List ℕ} (h : d.closedown = .asking (id :: rest)) :
      Moves d { d with asked := id :: d.asked, closedown := .asking rest }
  | takesTasks (h : d.closedown = .asking []) :
      Moves d { d with handles := [], closedown := .joining d.handles }
  | joins {id : ℕ} {rest : List ℕ} (h : d.closedown = .joining (id :: rest))
      (hdone : d.isLive id = false) : Moves d { d with closedown := .joining rest }
  | returns (h : d.closedown = .joining []) : Moves d { d with closedown := .returned }

/-- The connections that count: the one in the loop's hand and those of the live tasks. -/
def held (d : ModemRuntime) : List RouterAddress :=
  d.listener.held ++ d.live.map ConnectionTask.address

/-- The tasks that `shutdown` waits for, or would wait for. -/
def awaited (d : ModemRuntime) : List ℕ :=
  match d.closedown with
  | .joining rest => rest
  | .returned => []
  | _ => d.handles

/-- The sessions that `shutdown` has asked to end, or will ask. -/
def informed (d : ModemRuntime) : List ℕ :=
  match d.closedown with
  | .asking rest => rest ++ d.asked
  | .joining _ => d.asked
  | .returned => d.asked
  | _ => d.commands

/-- What every step keeps. -/
structure Kept (d : ModemRuntime) : Prop where
  ids : (d.live.map ConnectionTask.id).Nodup
  fresh : ∀ t ∈ d.live, t.id < d.nextId
  counts : d.routers.Counts d.held
  permits : d.permits + d.held.length = CONNECTION_PERMITS
  joined : ∀ t ∈ d.live, t.id ∈ d.awaited
  notified : ∀ t ∈ d.live, t.stage = .session → t.id ∈ d.informed
  stopped : d.closedown ≠ .serving → d.stopping = true
  unlistened : d.closedown ≠ .serving → d.closedown ≠ .stopping → d.listener = .aborted

variable {d d' : ModemRuntime}

theorem kept_spawn : spawn.Kept := by
  refine ⟨List.nodup_nil, ?_, ConnectedRouters.counts_default, rfl, ?_, ?_, ?_, ?_⟩
  all_goals simp [spawn]

theorem mem_of_inStage {id : ℕ} {stage : TaskStage} (h : d.inStage id stage = some t) :
    t ∈ d.live ∧ t.id = id ∧ t.stage = stage := by
  have hpred := List.find?_some h
  exact ⟨List.mem_of_find?_eq_some h, of_decide_eq_true hpred⟩

theorem perm_live (hlive : t ∈ d.live) :
    d.held.Perm (t.address :: (d.listener.held ++ (d.live.erase t).map ConnectionTask.address)) := by
  unfold held
  have hperm := (List.perm_cons_erase hlive).map ConnectionTask.address
  exact (hperm.append_left d.listener.held).trans List.perm_middle

theorem ids_advance (hlive : t ∈ d.live) (stage : TaskStage) :
    ((d.advance t stage).live.map ConnectionTask.id).Perm (d.live.map ConnectionTask.id) :=
  ((List.perm_cons_erase hlive).map ConnectionTask.id).symm

theorem held_advance (hlive : t ∈ d.live) (stage : TaskStage) :
    (d.advance t stage).held.Perm d.held :=
  List.perm_middle.trans (perm_live hlive).symm

theorem mem_advance {t u : ConnectionTask} {stage : TaskStage} (h : u ∈ (d.advance t stage).live) :
    u = { t with stage := stage } ∨ u ∈ d.live :=
  (List.mem_cons.mp h).imp_right List.mem_of_mem_erase

/-- A task that is live can drop its connection. -/
theorem Kept.release (h : d.Kept) (hlive : t ∈ d.live) :
    ∃ routers, d.routers.release t.address = .ok routers ∧
      routers.Counts (d.listener.held ++ (d.live.erase t).map ConnectionTask.address) := by
  obtain ⟨routers, hrelease, hcounts⟩ :=
    h.counts.release ((perm_live hlive).symm.subset List.mem_cons_self)
  refine ⟨routers, hrelease, hcounts.perm ?_⟩
  have herase := (perm_live hlive).erase t.address
  rwa [List.erase_cons_head] at herase

theorem Kept.advance (h : d.Kept) {stage : TaskStage} (hlive : t ∈ d.live)
    (hstage : stage = .session → t.id ∈ d.informed) : (d.advance t stage).Kept where
  ids := (ids_advance hlive stage).nodup_iff.mpr h.ids
  fresh := by
    intro u hu
    rcases mem_advance hu with rfl | hu
    · exact h.fresh t hlive
    · exact h.fresh u hu
  counts := h.counts.perm (held_advance hlive stage).symm
  permits := by
    rw [(held_advance hlive stage).length_eq]
    exact h.permits
  joined := by
    intro u hu
    rcases mem_advance hu with rfl | hu
    · exact h.joined t hlive
    · exact h.joined u hu
  notified := by
    intro u hu hsession
    rcases mem_advance hu with rfl | hu
    · exact hstage hsession
    · exact h.notified u hu hsession
  stopped := h.stopped
  unlistened := h.unlistened

theorem mem_of_isLive {id : ℕ} (h : d.isLive id = false) : ∀ t ∈ d.live, t.id ≠ id := by
  intro t ht heq
  have hnone := List.any_eq_false.mp h t ht
  exact hnone (decide_eq_true heq)

theorem isLive_of_mem (ht : t ∈ d.live) : d.isLive t.id = true :=
  List.any_eq_true.mpr ⟨t, ht, decide_eq_true rfl⟩

theorem isOpen_of_mem (ht : t ∈ d.live) (hsession : t.stage = .session) : d.isOpen t.id = true :=
  List.any_eq_true.mpr ⟨t, ht, decide_eq_true ⟨rfl, hsession⟩⟩

/-- While the daemon serves or waits for the loop to stop, the sessions to be told are those
with a command channel. -/
theorem informed_of_prunes (hprunes : d.Prunes commands) (ht : t ∈ d.live)
    (hsession : t.stage = .session) (h : t.id ∈ d.informed) :
    t.id ∈ { d with commands := commands }.informed := by
  obtain ⟨_, _, _, _, _, _, _, _, _, closedown⟩ := d
  cases closedown with
  | serving | stopping | unlistening => exact hprunes _ h (isOpen_of_mem ht hsession)
  | asking rest | joining rest | returned => exact h

theorem Kept.serving (h : d.Kept) (hrunning : d.stopping = false) : d.closedown = .serving := by
  by_contra hclosing
  have hstopped := h.stopped hclosing
  rw [hrunning] at hstopped
  cases hstopped

/-- The loop still runs, so `shutdown` has not taken the tasks yet. -/
theorem Kept.awaited_of_listening (h : d.Kept) (hlistener : d.listener ≠ .aborted) :
    d.closedown = .serving ∨ d.closedown = .stopping := by
  by_contra hlater
  have hlater := not_or.mp hlater
  exact hlistener (h.unlistened hlater.1 hlater.2)

theorem Kept.accepts (h : d.Kept) {permits : ℕ} (peer : SocketAddr)
    (hlistener : d.listener = .accepting) (hpermits : d.permits = permits + 1) :
    Kept { d with
      permits := permits, routers := (d.routers.register peer).1
      listener := .holding (d.routers.register peer).2 } := by
  have hheld : d.held = d.live.map ConnectionTask.address := by simp [held, hlistener, Listener.held]
  have hcounts := h.counts.register peer
  have hbudget := h.permits
  rw [hheld] at hcounts hbudget
  have hopen := h.awaited_of_listening (by simp [hlistener])
  refine ⟨h.ids, h.fresh, hcounts, ?_, h.joined, h.notified, h.stopped, ?_⟩
  · have hlength : (d.live.map ConnectionTask.address).length = d.live.length := List.length_map _
    simp only [held, Listener.held, List.singleton_append, List.length_cons]
    omega
  · intro hserving hstopping
    exact absurd hopen (not_or.mpr ⟨hserving, hstopping⟩)

theorem Kept.spawns (h : d.Kept) {address : RouterAddress}
    (hlistener : d.listener = .holding address) :
    Kept { d with
      listener := .accepting, nextId := d.nextId + 1
      live := ⟨d.nextId, address, .spawned⟩ :: d.live
      handles := d.handles.filter d.isLive ++ [d.nextId] } := by
  have hheld : d.held = address :: d.live.map ConnectionTask.address := by
    simp [held, hlistener, Listener.held]
  have hopen := h.awaited_of_listening (by simp [hlistener])
  -- The tasks to be joined are those with a handle, before and after.
  have hawaited : ∀ e : ModemRuntime, e.closedown = d.closedown → e.awaited = e.handles := by
    intro e he
    unfold awaited
    rcases hopen with hopen | hopen <;> rw [he, hopen]
  refine ⟨?_, ?_, ?_, ?_, ?_, ?_, h.stopped, ?_⟩
  · refine List.nodup_cons.mpr ⟨?_, h.ids⟩
    intro hmem
    obtain ⟨t, ht, hid⟩ := List.mem_map.mp hmem
    exact Nat.ne_of_lt (h.fresh t ht) hid
  · intro t ht
    rcases List.mem_cons.mp ht with rfl | ht
    · exact Nat.lt_succ_self _
    · exact Nat.lt_succ_of_lt (h.fresh t ht)
  · have hcounts := h.counts
    rw [hheld] at hcounts
    exact hcounts
  · have hbudget := h.permits
    rw [hheld] at hbudget
    exact hbudget
  · intro t ht
    simp only [hawaited]
    rcases List.mem_cons.mp ht with rfl | ht
    · exact List.mem_append_right _ List.mem_cons_self
    · have hjoined := h.joined t ht
      rw [hawaited d rfl] at hjoined
      exact List.mem_append_left _ (List.mem_filter.mpr ⟨hjoined, isLive_of_mem ht⟩)
  · intro t ht hsession
    rcases List.mem_cons.mp ht with rfl | ht
    · cases hsession
    · exact h.notified t ht hsession
  · intro hserving hstopping
    exact absurd hopen (not_or.mpr ⟨hserving, hstopping⟩)

theorem Kept.prunes (h : d.Kept) (hprunes : d.Prunes commands) :
    Kept { d with commands := commands } :=
  ⟨h.ids, h.fresh, h.counts, h.permits, h.joined, fun t ht hsession =>
    informed_of_prunes hprunes ht hsession (h.notified t ht hsession), h.stopped, h.unlistened⟩

/-- A session that is entered has its command channel in the table. -/
theorem Kept.enters (h : d.Kept) (hlive : t ∈ d.live) (hrunning : d.stopping = false) :
    Kept { d.advance t .session with commands := d.commands.filter d.isOpen ++ [t.id] } := by
  have hprunes : d.Prunes (d.commands.filter d.isOpen ++ [t.id]) :=
    fun id hid hopen => List.mem_append_left _ (d.prunes_filter id hid hopen)
  refine (h.prunes hprunes).advance hlive ?_
  intro _
  simp [informed, h.serving hrunning]

theorem Kept.finishes (h : d.Kept) {routers : ConnectedRouters} (hlive : t ∈ d.live)
    (hrelease : d.routers.release t.address = .ok routers) :
    Kept { d with routers := routers, permits := d.permits + 1, live := d.live.erase t } := by
  obtain ⟨routers', hrelease', hcounts⟩ := h.release hlive
  obtain rfl : routers' = routers := Except.ok.inj (hrelease'.symm.trans hrelease)
  refine ⟨?_, ?_, hcounts, ?_, ?_, ?_, h.stopped, h.unlistened⟩
  · exact h.ids.sublist (List.erase_sublist.map ConnectionTask.id)
  · exact fun u hu => h.fresh u (List.mem_of_mem_erase hu)
  · have hlength := (perm_live hlive).length_eq
    have hbudget := h.permits
    simp only [List.length_cons] at hlength
    simp only [held]
    omega
  · exact fun u hu => h.joined u (List.mem_of_mem_erase hu)
  · exact fun u hu => h.notified u (List.mem_of_mem_erase hu)

/-- The steps of `shutdown` after it has stopped the loop only hand on who is still to be
told and who is still to be joined. -/
theorem Kept.closes (h : d.Kept) {commands handles asked : List ℕ} {closedown : Closedown}
    (hserving : d.closedown ≠ .serving) (hstopping : d.closedown ≠ .stopping)
    (hawaited : ∀ t ∈ d.live, t.id ∈ d.awaited → t.id ∈ awaited { d with
      commands := commands, handles := handles, asked := asked, closedown := closedown })
    (hinformed : ∀ id ∈ d.informed, id ∈ informed { d with
      commands := commands, handles := handles, asked := asked, closedown := closedown }) :
    Kept { d with
      commands := commands, handles := handles, asked := asked, closedown := closedown } :=
  ⟨h.ids, h.fresh, h.counts, h.permits, fun t ht => hawaited t ht (h.joined t ht),
    fun t ht hsession => hinformed t.id (h.notified t ht hsession), fun _ => h.stopped hserving,
    fun _ _ => h.unlistened hserving hstopping⟩

theorem Kept.aborts (h : d.Kept) (hstopping : d.closedown = .stopping) {permits : ℕ}
    {routers : ConnectedRouters} (hcounts : routers.Counts (d.live.map ConnectionTask.address))
    (hpermits : permits + d.live.length = CONNECTION_PERMITS) :
    Kept { d with
      routers := routers, permits := permits, listener := .aborted
      closedown := .unlistening } where
  ids := h.ids
  fresh := h.fresh
  counts := hcounts
  permits := by simpa [held, Listener.held] using hpermits
  joined := by simpa [awaited, hstopping] using h.joined
  notified := by simpa [informed, hstopping] using h.notified
  stopped := fun _ => h.stopped (by simp [hstopping])
  unlistened := fun _ _ => rfl

theorem Moves.kept (hmoves : d.Moves d') (h : d.Kept) : d'.Kept := by
  cases hmoves with
  | nothing => exact h
  | accepts peer hlistener hpermits => exact h.accepts peer hlistener hpermits
  | spawns hlistener => exact h.spawns hlistener
  | dispatches _ => exact h.prunes d.prunes_filter
  | advances hlive hstage _ => exact h.advance hlive fun hsession => absurd hsession hstage
  | enters hlive hrunning => exact h.enters hlive hrunning
  | finishes hlive hprunes _ hrelease => exact (h.prunes hprunes).finishes hlive hrelease
  | stops hserving =>
    refine ⟨h.ids, h.fresh, h.counts, h.permits, ?_, ?_, fun _ => rfl, ?_⟩
    · simpa [awaited, hserving] using h.joined
    · simpa [informed, hserving] using h.notified
    · exact fun _ hstopping => absurd rfl hstopping
  | aborts hstopping hlistener =>
    have hheld : d.held = d.live.map ConnectionTask.address := by simp [held, hlistener]
    have hcounts := h.counts
    have hbudget := h.permits
    rw [hheld] at hcounts hbudget
    exact h.aborts hstopping hcounts (by simpa using hbudget)
  | @abortsHolding address _ hstopping hlistener hrelease =>
    have hheld : d.held = address :: d.live.map ConnectionTask.address := by
      simp [held, hlistener, Listener.held]
    have hcounts := h.counts
    have hbudget := h.permits
    rw [hheld] at hcounts hbudget
    obtain ⟨routers', hrelease', hafter⟩ := hcounts.release List.mem_cons_self
    cases hrelease'.symm.trans hrelease
    rw [List.erase_cons_head] at hafter
    refine h.aborts hstopping hafter ?_
    simp only [List.length_cons, List.length_map] at hbudget
    omega
  | takesCommands hunlistening =>
    refine h.closes (by simp [hunlistening]) (by simp [hunlistening]) ?_ ?_
    · simp [awaited, hunlistening]
    · simp +contextual [informed, hunlistening]
  | asks hclosing =>
    refine h.closes (by simp [hclosing]) (by simp [hclosing]) ?_ ?_
    · simp [awaited, hclosing]
    · simp only [informed, hclosing]
      exact fun id hid => List.perm_middle.symm.subset hid
  | takesTasks hclosing | returns hclosing =>
    refine h.closes (by simp [hclosing]) (by simp [hclosing]) ?_ ?_
    · simp [awaited, hclosing]
    · simp [informed, hclosing]
  | joins hjoining hdone =>
    refine h.closes (by simp [hjoining]) (by simp [hjoining]) ?_ ?_
    · intro t ht hjoined
      simp only [awaited, hjoining] at hjoined ⊢
      exact (List.mem_cons.mp hjoined).resolve_left (mem_of_isLive hdone t ht)
    · simp [informed, hjoining]

/-- A live task that returns. -/
theorem Kept.finish_spec (h : d.Kept) (hlive : t ∈ d.live) (hprunes : d.Prunes commands)
    (hlength : commands.length ≤ d.commands.length) :
    ∃ d', finish { d with commands := commands } t = .ok d' ∧ d.Moves d' ∧
      d'.live = d.live.erase t := by
  obtain ⟨routers, hrelease, -⟩ := h.release hlive
  refine ⟨_, ?_, .finishes hlive hprunes hlength hrelease, rfl⟩
  unfold finish
  rw [hrelease]
  rfl

theorem Kept.abortListener_spec (h : d.Kept) (hstopping : d.closedown = .stopping) :
    ∃ d', abortListener { d with closedown := .unlistening } = .ok d' ∧ d.Moves d' ∧
      d'.closedown = .unlistening := by
  cases hlistener : d.listener with
  | accepting | aborted =>
    refine ⟨_, ?_, .aborts hstopping (by rw [hlistener]; rfl), rfl⟩
    simp [abortListener]
  | holding address =>
    have hheld : address ∈ d.held := by simp [held, hlistener, Listener.held]
    obtain ⟨routers, hrelease, -⟩ := h.counts.release hheld
    refine ⟨_, ?_, .abortsHolding hstopping hlistener hrelease, rfl⟩
    simp [abortListener, hrelease, bind, Except.bind]

theorem Kept.leaves (h : d.Kept) (hlive : t ∈ d.live) : ∃ d', d.finish t = .ok d' ∧ d.Moves d' := by
  obtain ⟨d', hfinish, hmoves, -⟩ := h.finish_spec hlive d.prunes_refl (Nat.le_refl _)
  exact ⟨d', hfinish, hmoves⟩

/-- No step panics, and every step is one of the moves. -/
theorem Kept.step_spec (h : d.Kept) (input : Input) :
    ∃ d', d.step input = .ok d' ∧ d.Moves d' := by
  have hstay : ∃ d', (.ok d : Outcome ModemRuntime) = .ok d' ∧ d.Moves d' := ⟨d, rfl, .nothing⟩
  cases input with
  | accept peer =>
    refine ⟨_, rfl, ?_⟩
    unfold ModemRuntime.accept
    split
    · rename_i hlistener hpermits
      exact .accepts _ hlistener hpermits
    · exact .nothing
  | spawnTask =>
    refine ⟨_, rfl, ?_⟩
    unfold ModemRuntime.spawnTask
    split
    · rename_i hlistener
      exact .spawns hlistener
    · exact .nothing
  | poll id | handshake id succeeds =>
    simp only [step]
    split
    · exact hstay
    · rename_i t ht
      obtain ⟨hlive, -, hstage⟩ := mem_of_inStage ht
      split
      · exact h.leaves hlive
      · exact ⟨_, rfl, .advances hlive (by decide) (by rw [hstage]; decide)⟩
  | enter id =>
    simp only [step]
    split
    · exact hstay
    · rename_i t ht
      have hlive := (mem_of_inStage ht).1
      split
      · exact h.leaves hlive
      · rename_i hrunning
        exact ⟨_, rfl, .enters hlive (Bool.eq_false_iff.mpr hrunning)⟩
  | sessionEnds id =>
    simp only [step]
    split
    · exact hstay
    · rename_i t ht
      obtain ⟨hlive, -, hstage⟩ := mem_of_inStage ht
      exact ⟨_, rfl, .advances hlive (by decide) (by rw [hstage]; decide)⟩
  | leave id =>
    simp only [step]
    split
    · exact hstay
    · rename_i t ht
      obtain ⟨d', hfinish, hmoves, -⟩ := h.finish_spec (mem_of_inStage ht).1 d.prunes_filter
        (List.length_filter_le _ _)
      exact ⟨d', hfinish, hmoves⟩
  | abortListener =>
    simp only [step]
    split
    · rename_i hstopping
      obtain ⟨d', habort, hmoves, -⟩ := h.abortListener_spec hstopping
      exact ⟨d', habort, hmoves⟩
    · exact hstay
  | join =>
    simp only [step]
    split
    · rename_i hjoining
      split
      · exact hstay
      · rename_i hdone
        exact ⟨_, rfl, .joins hjoining (Bool.eq_false_iff.mpr hdone)⟩
    · exact hstay
  | dispatch | shutdown | takeCommands | ask | takeTasks | finishShutdown =>
    simp only [step]
    split
    · rename_i hat
      refine ⟨_, rfl, ?_⟩
      first
        | exact .dispatches hat
        | exact .stops hat
        | exact .takesCommands hat
        | exact .asks hat
        | exact .takesTasks hat
        | exact .returns hat
    · exact hstay

/-! ## Runs -/

theorem moves_of_machine (h : d.Kept) {input : Input} {o : Unit}
    (hstep : d.machine input = .ok (d', o)) : d.Moves d' := by
  obtain ⟨after, hafter, hmoves⟩ := h.step_spec input
  simp only [machine, hafter, Except.map] at hstep
  cases hstep
  exact hmoves

theorem Kept.machine_spec (h : d.Kept) (input : Input) :
    ∃ d' o, d.machine input = .ok (d', o) ∧ d'.Kept := by
  obtain ⟨after, hafter, hmoves⟩ := h.step_spec input
  refine ⟨after, (), ?_, hmoves.kept h⟩
  simp only [machine, hafter, Except.map]

/-- A step that begins after `shutdown` was called starts no session. -/
def StartsNoSession (e : Machine.Entry ModemRuntime Input Unit) : Prop :=
  e.before.closedown ≠ .serving → ∀ t ∈ e.after.live, t.stage = .session → t ∈ e.before.live

theorem Moves.startsNoSession (hmoves : d.Moves d') (h : d.Kept) (hclosing : d.closedown ≠ .serving) :
    ∀ t ∈ d'.live, t.stage = .session → t ∈ d.live := by
  intro u hu hsession
  cases hmoves with
  | nothing | accepts | dispatches | aborts | abortsHolding | takesCommands | asks | takesTasks
  | joins | returns => exact hu
  | spawns =>
    rcases List.mem_cons.mp hu with rfl | hu
    · cases hsession
    · exact hu
  | advances _ hstage =>
    rcases mem_advance hu with rfl | hu
    · exact absurd hsession hstage
    · exact hu
  | enters _ hrunning => exact absurd (h.serving hrunning) hclosing
  | finishes => exact List.mem_of_mem_erase hu
  | stops hserving => exact absurd hserving hclosing

/-- The books of the daemon: the permits and the table of routers are those of the
connections in hand, nobody is forgotten by `shutdown`, and nothing is left behind it. -/
structure Accounted (d : ModemRuntime) : Prop where
  permits : d.permits + d.held.length = CONNECTION_PERMITS
  routers : ∀ peer, d.routers.contains peer = true ↔ routerAddress peer ∈ d.held
  joining : ∀ rest, d.closedown = .joining rest → ∀ t ∈ d.live, t.id ∈ rest ∧
    (t.stage = .session → t.id ∈ d.asked)
  returned : d.closedown = .returned →
    d.live = [] ∧ d.listener = .aborted ∧ d.permits = CONNECTION_PERMITS

theorem Kept.eq_nil_of_returned (h : d.Kept) (hreturned : d.closedown = .returned) :
    d.live = [] := by
  apply List.eq_nil_iff_forall_not_mem.mpr
  intro t ht
  have hjoined := h.joined t ht
  simp only [awaited, hreturned, List.not_mem_nil] at hjoined

theorem Kept.accounted (h : d.Kept) : d.Accounted where
  permits := h.permits
  routers := h.counts.contains
  joining := by
    intro rest hjoining t ht
    have hjoined := h.joined t ht
    have hnotified := h.notified t ht
    simp only [awaited, hjoining] at hjoined
    simp only [informed, hjoining] at hnotified
    exact ⟨hjoined, hnotified⟩
  returned := by
    intro hreturned
    have hlive := h.eq_nil_of_returned hreturned
    have hlistener := h.unlistened (by simp [hreturned]) (by simp [hreturned])
    have hbudget := h.permits
    simp only [held, hlive, hlistener, Listener.held, List.map_nil, List.append_nil,
      List.length_nil, Nat.add_zero] at hbudget
    exact ⟨hlive, hlistener, hbudget⟩

/-- Whatever the order of the loop's, the tasks' and `shutdown`'s steps, no count of the
table underflows, the books are kept, and no session starts once `shutdown` was called. -/
theorem connections_accounted (inputs : List Input) :
    ∃ d trace, Machine.run machine spawn inputs = .ok (d, trace) ∧ d.Accounted ∧
      ∀ e ∈ trace, StartsNoSession e := by
  obtain ⟨d, trace, hrun⟩ :=
    Machine.run_total (I := Kept) (fun d input h => h.machine_spec input) inputs kept_spawn
  have hkept : ∀ d input d' o, Kept d → d.machine input = .ok (d', o) → d'.Kept :=
    fun d input d' o h hstep => (moves_of_machine h hstep).kept h
  refine ⟨d, trace, hrun, (Machine.run_invariant hkept kept_spawn hrun).accounted, ?_⟩
  refine Machine.run_forall (I := Kept) ?_ kept_spawn hrun
  intro d input d' o h hstep
  have hmoves := moves_of_machine h hstep
  exact ⟨hmoves.kept h, hmoves.startsNoSession h⟩

end ModemRuntime

end Dlep
