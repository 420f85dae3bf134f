-- SUMMARY: How the two sides of the closed system move together: handshake, session, and one side gone.
import Dlep.System.Wire

/-!
# Coupling of the two sides

The session between the two sides is a pair of in-session states and the messages
between them. While both sides are in session it is the system itself. When a side
leaves, the session it left stays as it was, and the other side goes on with it
until a farewell reaches it. `Coupled J` says that the system is in its handshake,
or has such a session satisfying `J`; it is an invariant for every `J` that the
in-session moves of either side keep.
-/

namespace Dlep

/-! ## Sessions -/

/-- A relation between two in-session sides and the messages under way to each. -/
abbrev Joint : Type := RouterSessionFsm → ModemSessionFsm → List Message → List Message → Prop

/-- A session: both sides in session, data under way to the router and to the modem. -/
structure Session (J : Joint) (r : RouterSessionFsm) (m : ModemSessionFsm)
    (toRouter toModem : List Message) : Prop where
  routerIn : r.state = .inSession
  modemIn : m.state = .inSession
  routerConsistent : r.Consistent
  modemConsistent : m.Consistent
  dataToRouter : ∀ msg ∈ toRouter, msg.isData = true
  dataToModem : ∀ msg ∈ toModem, msg.isData = true
  joint : J r m toRouter toModem

/-- A session satisfies whatever its relation implies. -/
theorem Session.weaken {J K : Joint} {r : RouterSessionFsm} {m : ModemSessionFsm}
    {toRouter toModem : List Message} (h : Session J r m toRouter toModem)
    (hjoint : J r m toRouter toModem → K r m toRouter toModem) : Session K r m toRouter toModem :=
  ⟨h.routerIn, h.modemIn, h.routerConsistent, h.modemConsistent, h.dataToRouter, h.dataToModem,
    hjoint h.joint⟩

/-- The router as it enters the session with a modem. -/
def joinedRouter (routerConfig modemConfig : SessionConfig) : RouterSessionFsm :=
  (System.start routerConfig modemConfig).router.initialized
    (buildSessionInitializationResponse modemConfig)

/-- The modem as it enters the session with a router. -/
def joinedModem (routerConfig modemConfig : SessionConfig) : ModemSessionFsm :=
  (System.start routerConfig modemConfig).modem.initialized
    (buildSessionInitialization routerConfig)

/-- What makes a relation an invariant of sessions whose modem keeps to `P`: it holds when the modem
has answered the initialization, and every move that stays in the session keeps it. -/
structure Joint.KeptWhile (J : Joint) (P : ModemSessionFsm → Prop)
    (routerConfig modemConfig : SessionConfig) : Prop where
  init : J (joinedRouter routerConfig modemConfig) (joinedModem routerConfig modemConfig) [] []
  routerLocal : ∀ {r m toRouter toModem event r' actions}, Session J r m toRouter toModem →
    r.Transition event r' actions → event.isLocal = true → r'.state = .inSession →
    J r' m toRouter (toModem ++ sentMessages actions)
  modemLocal : ∀ {r m toRouter toModem event m' actions}, Session J r m toRouter toModem →
    m.Transition event m' actions → event.isLocal = true → m'.state = .inSession → P m' →
    J r m' (toRouter ++ sentMessages actions) toModem
  routerReceives : ∀ {r m msg toRouter toModem r' actions},
    Session J r m (msg :: toRouter) toModem → r.Transition (.recvMessage msg) r' actions →
    r'.state = .inSession → J r' m toRouter (toModem ++ sentMessages actions)
  modemReceives : ∀ {r m msg toRouter toModem m' actions},
    Session J r m toRouter (msg :: toModem) → m.Transition (.recvMessage msg) m' actions →
    m'.state = .inSession → P m' → J r m' (toRouter ++ sentMessages actions) toModem

/-- The same for all sessions. -/
abbrev Joint.Kept (J : Joint) (routerConfig modemConfig : SessionConfig) : Prop :=
  J.KeptWhile (fun _ => True) routerConfig modemConfig

/-! ## The coupled system -/

/-- The frames behind the session's messages: farewells, and only of a side that is gone. -/
def Farewell (gone : Bool) (tail : List Frame) : Prop :=
  (∀ f ∈ tail, f.isFarewell = true) ∧ (gone = false → tail = [])

theorem Farewell.nil (gone : Bool) : Farewell gone [] := ⟨by simp, fun _ => rfl⟩

theorem Farewell.append {gone gone' : Bool} {tail more : List Frame} (h : Farewell gone tail)
    (hgone : gone' = true) (hmore : ∀ f ∈ more, f.isFarewell = true) : Farewell gone' (tail ++ more) := by
  subst hgone
  refine ⟨fun f hf => ?_, nofun⟩
  rcases List.mem_append.mp hf with hf | hf
  · exact h.1 f hf
  · exact hmore f hf

/-- Where the router stands to a session. -/
inductive RouterEnd (routerConfig modemConfig : SessionConfig) (sys : System)
    (r : RouterSessionFsm) (toRouter toModem : List Message) : Prop where
  | joined (hr : sys.router = r) (tail : List Frame)
      (hq : sys.toRouter = toRouter.map .message ++ tail)
      (htail : Farewell sys.modem.state.phase.isGone tail)
  /-- The modem's answer is still ahead of the session's messages. -/
  | joining (hstart : sys.router = (System.start routerConfig modemConfig).router)
      (hr : r = joinedRouter routerConfig modemConfig) (tail : List Frame)
      (hq : sys.toRouter = .message (buildSessionInitializationResponse modemConfig) ::
        (toRouter.map .message ++ tail))
      (htail : Farewell sys.modem.state.phase.isGone tail) (hnone : toModem = [])
      (hempty : sys.toModem = [])
  | gone (hs : sys.router.state.phase.isGone = true)

/-- Where the modem stands to a session. -/
inductive ModemEnd (sys : System) (m : ModemSessionFsm) (toModem : List Message) : Prop where
  | joined (hm : sys.modem = m) (tail : List Frame)
      (hq : sys.toModem = toModem.map .message ++ tail)
      (htail : Farewell sys.router.state.phase.isGone tail)
  | gone (hs : sys.modem.state.phase.isGone = true)

/-- The handshake, or a session satisfying `J`. -/
inductive Coupled (J : Joint) (routerConfig modemConfig : SessionConfig) (sys : System) : Prop where
  | requested (hmodem : sys.modem = (System.start routerConfig modemConfig).modem)
      (hrouter : sys.router = (System.start routerConfig modemConfig).router ∨
        sys.router.state.phase.isGone = true)
      (hempty : sys.toRouter = []) (tail : List Frame)
      (hq : sys.toModem = .message (buildSessionInitialization routerConfig) :: tail)
      (htail : Farewell sys.router.state.phase.isGone tail)
  /-- The modem ended without a session; all it can have sent is a close. -/
  | refused (hmodem : sys.modem.state = .terminated)
      (hrouter : sys.router = (System.start routerConfig modemConfig).router ∨
        sys.router.state.phase.isGone = true)
      (hq : ∀ f ∈ sys.toRouter, f = .close)
  | session {r m toRouter toModem} (hs : Session J r m toRouter toModem)
      (hrouter : RouterEnd routerConfig modemConfig sys r toRouter toModem)
      (hmodem : ModemEnd sys m toModem)

theorem coupled_start (J : Joint) (routerConfig modemConfig : SessionConfig) :
    Coupled J routerConfig modemConfig (System.start routerConfig modemConfig) :=
  .requested rfl (.inl rfl) rfl [] rfl (.nil _)

/-- How an event reaches a side: locally, or as the frame at the head of its queue. -/
inductive Arrives (queue : List Frame) : FsmEvent → List Frame → Prop where
  | locally {event} (h : event.isLocal = true) : Arrives queue event queue
  | delivered {f rest} (h : queue = f :: rest) : Arrives queue f.event rest

section

variable {J : Joint} {P : ModemSessionFsm → Prop} {routerConfig modemConfig : SessionConfig}
  {sys : System} {event : FsmEvent} {rest : List Frame} {actions : List FsmAction}
  {router : RouterSessionFsm} {modem : ModemSessionFsm}

/-- What the waiting router can do without the modem's answer. -/
theorem RouterSessionFsm.Transition.unanswered {s s' : RouterSessionFsm}
    (h : s.Transition event s' actions) (hs : s.state = .sessionInitPending)
    (hmsg : ∀ msg, event = .recvMessage msg →
      msg.messageType ≠ .sessionInitializationResponse) :
    s' = s ∧ frames actions = [] ∨
      s'.state.phase.isGone = true ∧ ∀ f ∈ frames actions, f.isFarewell = true := by
  have hw := h.lifeStep.wireShape
  rw [phase_view hs] at hw
  rcases hw.of_opening with ⟨hp, hsent⟩ | hp | hgone
  · exact .inl ⟨(h.lifeStep.waits (phase_view hs) hp).1, hsent⟩
  · obtain ⟨msg, hevent, ht, -⟩ := h.enters hs (phase_eq_inSession hp)
    exact absurd ht (hmsg msg hevent)
  · exact .inr hgone

/-- A local event is no message. -/
theorem not_message_of_local {msg : Message} (hl : event.isLocal = true) :
    event ≠ .recvMessage msg := by
  rintro rfl
  cases hl

/-- A message that arrives with a queue of farewells is a farewell. -/
theorem Arrives.termination {queue : List Frame} {msg : Message}
    (harr : Arrives queue event rest) (hq : ∀ f ∈ queue, f.isFarewell = true)
    (hevent : event = .recvMessage msg) : msg.messageType = .sessionTermination := by
  cases harr with
  | locally hl => exact absurd hevent (not_message_of_local hl)
  | @delivered f _ hqueue =>
    have hf := hq f (by simp [hqueue])
    cases f with
    | close => cases hevent
    | message m =>
      cases hevent
      simpa [Frame.isFarewell] using hf

/-- The head of a session queue: data, or a farewell when no data is left. -/
theorem queue_head {toSide : List Message} {tail : List Frame} {f : Frame}
    (h : f :: rest = toSide.map Frame.message ++ tail)
    (hdata : ∀ msg ∈ toSide, msg.isData = true) (htail : ∀ f ∈ tail, f.isFarewell = true) :
    (∃ msg toSide', toSide = msg :: toSide' ∧ f = .message msg ∧
        rest = toSide'.map .message ++ tail ∧ msg.messageType ≠ .sessionTermination) ∨
      toSide = [] ∧ tail = f :: rest ∧ f.isFarewell = true := by
  cases toSide with
  | nil =>
    refine .inr ⟨rfl, h.symm, htail f ?_⟩
    rw [List.map_nil, List.nil_append] at h
    exact h ▸ List.mem_cons_self
  | cons msg toSide' =>
    cases h
    refine .inl ⟨msg, toSide', rfl, rfl, rfl, fun ht => ?_⟩
    have hd := hdata msg List.mem_cons_self
    simp [Message.isData, Message.isTermination, ht] at hd

theorem not_gone_of_inSession {p : Phase} (h : p = .inSession) : p.isGone = false := by
  rw [h]
  rfl

/-- A working router sends more data behind what is under way. -/
theorem ModemEnd.more {m : ModemSessionFsm} {toModem more : List Message}
    (h : ModemEnd sys m toModem) (hin : sys.router.state.phase.isGone = false) :
    ModemEnd { sys with router, toRouter := rest, toModem := sys.toModem ++ more.map .message } m
      (toModem ++ more) := by
  cases h with
  | joined hm tail hq htail =>
    refine .joined hm [] ?_ (.nil _)
    rw [htail.2 hin, List.append_nil] at hq
    simp [hq]
  | gone hs => exact .gone hs

/-- A leaving router sends farewells behind what is under way. -/
theorem ModemEnd.last {m : ModemSessionFsm} {toModem : List Message} (h : ModemEnd sys m toModem)
    (hgone : router.state.phase.isGone = true)
    (hsent : sys.modem.state.phase.isGone = false → ∀ f ∈ frames actions, f.isFarewell = true) :
    ModemEnd { sys with router, toRouter := rest, toModem := sys.toModem ++ frames actions } m
      toModem := by
  cases hm : sys.modem.state.phase.isGone with
  | true => exact .gone hm
  | false =>
    cases h with
    | joined hj tail hq htail =>
      exact .joined hj (tail ++ frames actions) (by simp [hq]) (htail.append hgone (hsent hm))
    | gone hs => exact .gone hs

variable {r : RouterSessionFsm} {m : ModemSessionFsm} {toRouter toModem : List Message}

/-- A session after the router worked on. -/
theorem Session.routerWorks {toRouter' : List Message} (hs : Session J r m toRouter toModem)
    (ht : r.Transition event router actions) (hin : router.state = .inSession)
    (hdata : ∀ msg ∈ sentMessages actions, msg.isData = true)
    (hrest : ∀ msg ∈ toRouter', msg ∈ toRouter)
    (hjoint : J router m toRouter' (toModem ++ sentMessages actions)) :
    Session J router m toRouter' (toModem ++ sentMessages actions) where
  routerIn := hin
  modemIn := hs.modemIn
  routerConsistent := ht.consistent hs.routerConsistent
  modemConsistent := hs.modemConsistent
  dataToRouter msg hmsg := hs.dataToRouter msg (hrest msg hmsg)
  dataToModem msg hmsg := by
    rcases List.mem_append.mp hmsg with hmsg | hmsg
    · exact hs.dataToModem msg hmsg
    · exact hdata msg hmsg
  joint := hjoint

theorem Session.routerMoves (hs : Session J r m toRouter toModem)
    (hJ : J.KeptWhile P routerConfig modemConfig)
    (hrouter : RouterEnd routerConfig modemConfig sys r toRouter toModem)
    (hmodem : ModemEnd sys m toModem) (harr : Arrives sys.toRouter event rest)
    (ht : sys.router.Transition event router actions) :
    Coupled J routerConfig modemConfig
      { sys with router, toRouter := rest, toModem := sys.toModem ++ frames actions } := by
  cases hrouter with
  | joined hr tail hq htail =>
    subst hr
    have hin := not_gone_of_inSession (p := sys.router.state.phase) (by rw [hs.routerIn]; rfl)
    rcases ht.lifeStep.wireShape.of_inSession (RouterSessionFsm.phase_view hs.routerIn) with
      ⟨hp', hframes, hdata⟩ | ⟨hg, hsent⟩
    · have hin' := RouterSessionFsm.phase_eq_inSession hp'
      rw [hframes]
      cases harr with
      | locally hl =>
        exact .session (hs.routerWorks ht hin' hdata (fun _ h => h) (hJ.routerLocal hs ht hl hin'))
          (.joined rfl tail hq htail) (hmodem.more hin)
      | @delivered f _ hqueue =>
        rcases queue_head (hqueue ▸ hq) hs.dataToRouter htail.1 with
          ⟨msg, toRouter', rfl, rfl, hrest, -⟩ | ⟨-, -, hf⟩
        · exact .session (hs.routerWorks ht hin' hdata (fun _ h => List.mem_cons_of_mem _ h)
            (hJ.routerReceives hs ht hin')) (.joined rfl tail hrest htail) (hmodem.more hin)
        · exact absurd (RouterSessionFsm.phase_view hin')
            (ht.lifeStep.farewell hf (RouterSessionFsm.phase_view hs.routerIn))
    · refine .session hs (.gone hg) (hmodem.last hg fun hm => ?_)
      rcases hsent with hsent | ⟨msg, hevent, hterm⟩
      · exact hsent
      · -- A Session Termination reaches a live router only from a modem that is gone.
        cases harr with
        | locally hl => exact absurd hevent (not_message_of_local hl)
        | @delivered f _ hqueue =>
          rcases queue_head (hqueue ▸ hq) hs.dataToRouter htail.1 with
            ⟨msg', _, -, rfl, -, hne⟩ | ⟨-, htl, -⟩
          · cases hevent
            exact absurd hterm hne
          · rw [htail.2 hm] at htl
            cases htl
  | joining hstart hr tail hq htail hnone hempty =>
    have hpend : sys.router.state = .sessionInitPending := by rw [hstart]; rfl
    cases harr with
    | locally hl =>
      rcases ht.unanswered hpend fun msg hevent => absurd hevent (not_message_of_local hl) with
        ⟨rfl, hsent⟩ | ⟨hg, hf⟩
      · rw [hsent, List.append_nil]
        exact .session hs (.joining hstart hr tail hq htail hnone hempty) hmodem
      · exact .session hs (.gone hg) (hmodem.last hg fun _ => hf)
    | @delivered f _ hqueue =>
      rw [hqueue] at hq
      cases hq
      have hw := ht.lifeStep.wireShape
      rw [RouterSessionFsm.phase_view hpend] at hw
      rcases hw.of_opening with ⟨hp, -⟩ | hp | ⟨hg, hf⟩
      · exact absurd rfl ((ht.lifeStep.waits (RouterSessionFsm.phase_view hpend) hp).2 _)
      · obtain ⟨msg, hevent, -, hrouter, hsent⟩ :=
          ht.enters hpend (RouterSessionFsm.phase_eq_inSession hp)
        cases hevent
        subst hrouter
        rw [hsent, List.append_nil]
        refine .session hs (.joined ?_ tail rfl htail) ?_
        · dsimp only
          rw [hr, hstart]
          rfl
        · cases hmodem with
          | joined hm tail' hq' htail' =>
            refine .joined hm [] ?_ (.nil _)
            simp [hempty, hnone]
          | gone hgone => exact .gone hgone
      · exact .session hs (.gone hg) (hmodem.last hg fun _ => hf)
  | gone hgone =>
    obtain ⟨hg, hf⟩ := ht.lifeStep.wireShape.of_gone hgone
    exact .session hs (.gone hg) (hmodem.last hg fun _ => hf)

theorem Coupled.routerMoves (hJ : J.KeptWhile P routerConfig modemConfig)
    (h : Coupled J routerConfig modemConfig sys) (harr : Arrives sys.toRouter event rest)
    (ht : sys.router.Transition event router actions) :
    Coupled J routerConfig modemConfig
      { sys with router, toRouter := rest, toModem := sys.toModem ++ frames actions } := by
  cases h with
  | requested hmodem hrouter hempty tail hq htail =>
    have hrest : rest = [] := by
      cases harr with
      | locally => exact hempty
      | delivered h =>
        rw [hempty] at h
        cases h
    rcases hrouter with hstart | hgone
    · have hmsg : ∀ msg, event = .recvMessage msg →
          msg.messageType ≠ .sessionInitializationResponse := by
        intro msg hevent
        rw [harr.termination (by simp [hempty]) hevent]
        decide
      rcases ht.unanswered (by rw [hstart]; rfl) hmsg with ⟨rfl, hsent⟩ | ⟨hg, hf⟩
      · exact .requested hmodem (.inl hstart) hrest tail (by simp [hsent, hq]) htail
      · exact .requested hmodem (.inr hg) hrest (tail ++ frames actions) (by simp [hq])
          (htail.append hg hf)
    · obtain ⟨hg, hf⟩ := ht.lifeStep.wireShape.of_gone hgone
      exact .requested hmodem (.inr hg) hrest (tail ++ frames actions) (by simp [hq])
        (htail.append hg hf)
  | refused hmodem hrouter hq =>
    have hrest : ∀ f ∈ rest, f = .close := by
      cases harr with
      | locally => exact hq
      | delivered h =>
        rw [h] at hq
        exact fun f hf => hq f (List.mem_cons_of_mem _ hf)
    rcases hrouter with hstart | hgone
    · have hmsg : ∀ msg, event = .recvMessage msg →
          msg.messageType ≠ .sessionInitializationResponse := by
        intro msg hevent
        rw [harr.termination (fun f hf => by rw [hq f hf]; rfl) hevent]
        decide
      rcases ht.unanswered (by rw [hstart]; rfl) hmsg with ⟨rfl, hsent⟩ | ⟨hg, hf⟩
      · exact .refused hmodem (.inl hstart) hrest
      · exact .refused hmodem (.inr hg) hrest
    · exact .refused hmodem (.inr (ht.lifeStep.wireShape.of_gone hgone).1) hrest
  | session hs hrouter hmodem => exact hs.routerMoves hJ hrouter hmodem harr ht

/-! ## The modem's moves -/

/-- What the waiting modem can do without an initialization. -/
theorem ModemSessionFsm.Transition.unasked {s s' : ModemSessionFsm}
    (h : s.Transition event s' actions) (hs : s.state = .awaitingSessionInit)
    (hl : event.isLocal = true) :
    s' = s ∧ frames actions = [] ∨
      s'.state = .terminated ∧ ∀ f ∈ frames actions, f = .close := by
  have hw := h.lifeStep.wireShape
  rw [phase_view hs] at hw
  rcases hw.of_opening with ⟨hp, hsent⟩ | hp | ⟨hgone, -⟩
  · exact .inl ⟨(h.lifeStep.waits (phase_view hs) hp).1, hsent⟩
  · obtain ⟨msg, hevent, -⟩ := h.enters hs (phase_eq_inSession hp)
    exact absurd hevent (not_message_of_local hl)
  · exact .inr (h.abandons hs hgone)

/-- A working modem sends more data behind what is under way. -/
theorem RouterEnd.more {more toModem' : List Message}
    (h : RouterEnd routerConfig modemConfig sys r toRouter toModem)
    (hin : sys.modem.state.phase.isGone = false) (hnone : toModem = [] → toModem' = [])
    (hempty : sys.toModem = [] → rest = []) :
    RouterEnd routerConfig modemConfig
      { sys with modem, toModem := rest, toRouter := sys.toRouter ++ more.map .message } r
      (toRouter ++ more) toModem' := by
  cases h with
  | joined hr tail hq htail =>
    refine .joined hr [] ?_ (.nil _)
    rw [htail.2 hin, List.append_nil] at hq
    simp [hq]
  | joining hstart hr tail hq htail hn he =>
    refine .joining hstart hr [] ?_ (.nil _) (hnone hn) (hempty he)
    rw [htail.2 hin, List.append_nil] at hq
    simp [hq]
  | gone hs => exact .gone hs

/-- A leaving modem sends farewells behind what is under way. -/
theorem RouterEnd.last (h : RouterEnd routerConfig modemConfig sys r toRouter toModem)
    (hgone : modem.state.phase.isGone = true)
    (hsent : sys.router.state.phase.isGone = false → ∀ f ∈ frames actions, f.isFarewell = true)
    (hempty : sys.toModem = [] → rest = []) :
    RouterEnd routerConfig modemConfig
      { sys with modem, toModem := rest, toRouter := sys.toRouter ++ frames actions } r toRouter
      toModem := by
  cases hr' : sys.router.state.phase.isGone with
  | true => exact .gone hr'
  | false =>
    have hfarewell := hsent hr'
    cases h with
    | joined hr tail hq htail =>
      exact .joined hr (tail ++ frames actions) (by simp [hq]) (htail.append hgone hfarewell)
    | joining hstart hr tail hq htail hnone he =>
      exact .joining hstart hr (tail ++ frames actions) (by simp [hq])
        (htail.append hgone hfarewell) hnone (hempty he)
    | gone hs => exact .gone hs

/-- A session after the modem worked on. -/
theorem Session.modemWorks {toModem' : List Message} (hs : Session J r m toRouter toModem)
    (ht : m.Transition event modem actions) (hin : modem.state = .inSession)
    (hdata : ∀ msg ∈ sentMessages actions, msg.isData = true)
    (hrest : ∀ msg ∈ toModem', msg ∈ toModem)
    (hjoint : J r modem (toRouter ++ sentMessages actions) toModem') :
    Session J r modem (toRouter ++ sentMessages actions) toModem' where
  routerIn := hs.routerIn
  modemIn := hin
  routerConsistent := hs.routerConsistent
  modemConsistent := ht.consistent hs.modemConsistent
  dataToRouter msg hmsg := by
    rcases List.mem_append.mp hmsg with hmsg | hmsg
    · exact hs.dataToRouter msg hmsg
    · exact hdata msg hmsg
  dataToModem msg hmsg := hs.dataToModem msg (hrest msg hmsg)
  joint := hjoint

theorem Session.modemMoves (hs : Session J r m toRouter toModem)
    (hJ : J.KeptWhile P routerConfig modemConfig)
    (hrouter : RouterEnd routerConfig modemConfig sys r toRouter toModem)
    (hmodem : ModemEnd sys m toModem) (harr : Arrives sys.toModem event rest)
    (ht : sys.modem.Transition event modem actions) (hP : P modem) :
    Coupled J routerConfig modemConfig
      { sys with modem, toModem := rest, toRouter := sys.toRouter ++ frames actions } := by
  have hempty : sys.toModem = [] → rest = [] := by
    intro he
    cases harr with
    | locally => exact he
    | delivered h =>
      rw [he] at h
      cases h
  cases hmodem with
  | joined hm tail hq htail =>
    subst hm
    have hin := not_gone_of_inSession (p := sys.modem.state.phase) (by rw [hs.modemIn]; rfl)
    rcases ht.lifeStep.wireShape.of_inSession (ModemSessionFsm.phase_view hs.modemIn) with
      ⟨hp', hframes, hdata⟩ | ⟨hg, hsent⟩
    · have hin' := ModemSessionFsm.phase_eq_inSession hp'
      rw [hframes]
      cases harr with
      | locally hl =>
        exact .session (hs.modemWorks ht hin' hdata (fun _ h => h) (hJ.modemLocal hs ht hl hin' hP))
          (hrouter.more hin id id) (.joined rfl tail hq htail)
      | @delivered f _ hqueue =>
        rcases queue_head (hqueue ▸ hq) hs.dataToModem htail.1 with
          ⟨msg, toModem', rfl, rfl, hrest, -⟩ | ⟨-, -, hf⟩
        · exact .session (hs.modemWorks ht hin' hdata (fun _ h => List.mem_cons_of_mem _ h)
            (hJ.modemReceives hs ht hin' hP)) (hrouter.more hin (nomatch ·) hempty)
            (.joined rfl tail hrest htail)
        · exact absurd (ModemSessionFsm.phase_view hin')
            (ht.lifeStep.farewell hf (ModemSessionFsm.phase_view hs.modemIn))
    · refine .session hs (hrouter.last hg (fun hr => ?_) hempty) (.gone hg)
      rcases hsent with hsent | ⟨msg, hevent, hterm⟩
      · exact hsent
      · -- A Session Termination reaches a live modem only from a router that is gone.
        cases harr with
        | locally hl => exact absurd hevent (not_message_of_local hl)
        | @delivered f _ hqueue =>
          rcases queue_head (hqueue ▸ hq) hs.dataToModem htail.1 with
            ⟨msg', _, -, rfl, -, hne⟩ | ⟨-, htl, -⟩
          · cases hevent
            exact absurd hterm hne
          · rw [htail.2 hr] at htl
            cases htl
  | gone hgone =>
    obtain ⟨hg, hf⟩ := ht.lifeStep.wireShape.of_gone hgone
    exact .session hs (hrouter.last hg (fun _ => hf) hempty) (.gone hg)

/-- The session that an answered initialization starts. -/
theorem session_joined (hJ : J.KeptWhile P routerConfig modemConfig) :
    Session J (joinedRouter routerConfig modemConfig) (joinedModem routerConfig modemConfig) [] [] := by
  have hr := (System.consistent_start routerConfig modemConfig).router
  have hm := (System.consistent_start routerConfig modemConfig).modem
  exact {
    routerIn := rfl
    modemIn := rfl
    routerConsistent := ⟨hr.tracked, hr.up, hr.session⟩
    modemConsistent := ⟨hm.tracked, hm.deferred, hm.session⟩
    dataToRouter := by simp
    dataToModem := by simp
    joint := hJ.init }

theorem Coupled.modemMoves (hJ : J.KeptWhile P routerConfig modemConfig)
    (h : Coupled J routerConfig modemConfig sys) (harr : Arrives sys.toModem event rest)
    (ht : sys.modem.Transition event modem actions) (hP : P modem) :
    Coupled J routerConfig modemConfig
      { sys with modem, toModem := rest, toRouter := sys.toRouter ++ frames actions } := by
  cases h with
  | requested hmodem hrouter hempty tail hq htail =>
    have hpend : sys.modem.state = .awaitingSessionInit := by rw [hmodem]; rfl
    cases harr with
    | locally hl =>
      rcases ht.unasked hpend hl with ⟨rfl, hsent⟩ | ⟨hg, hf⟩
      · exact .requested hmodem hrouter (by simp [hempty, hsent]) tail hq htail
      · exact .refused hg hrouter (by simpa [hempty] using hf)
    | @delivered f _ hqueue =>
      rw [hqueue] at hq
      cases hq
      have hw := ht.lifeStep.wireShape
      rw [ModemSessionFsm.phase_view hpend] at hw
      rcases hw.of_opening with ⟨hp, -⟩ | hp | ⟨hg, -⟩
      · exact absurd rfl ((ht.lifeStep.waits (ModemSessionFsm.phase_view hpend) hp).2 _)
      · obtain ⟨msg, hevent, -, rfl, hsent⟩ :=
          ht.enters hpend (ModemSessionFsm.phase_eq_inSession hp)
        cases hevent
        have hm : sys.modem.initialized (buildSessionInitialization routerConfig) =
            joinedModem routerConfig modemConfig := by
          rw [hmodem]
          rfl
        have hsent' : sys.toRouter ++ frames actions =
            [.message (buildSessionInitializationResponse modemConfig)] := by
          rw [hempty, hsent, hmodem]
          rfl
        rw [hm, hsent']
        refine .session (session_joined hJ) ?_ (.joined rfl rest rfl htail)
        rcases hrouter with hstart | hgone
        · refine .joining hstart rfl [] rfl (.nil _) rfl (htail.2 ?_)
          rw [hstart]
          rfl
        · exact .gone hgone
      · obtain ⟨hterminated, hclose⟩ := ht.abandons hpend hg
        exact .refused hterminated hrouter (by simpa [hempty] using hclose)
  | refused hmodem hrouter hq =>
    obtain ⟨rfl, hsent⟩ := ht.lifeStep.spent (ModemSessionFsm.phase_view hmodem)
    refine .refused hmodem hrouter ?_
    rw [hsent, List.append_nil]
    exact hq
  | session hs hrouter hmodem => exact hs.modemMoves hJ hrouter hmodem harr ht hP

/-! ## Whole runs -/

theorem Coupled.moves {input : System.Input} {sys' : System}
    (hJ : J.KeptWhile P routerConfig modemConfig) (h : Coupled J routerConfig modemConfig sys)
    (hm : sys.Moves input sys' actions) (hP : P sys'.modem) :
    Coupled J routerConfig modemConfig sys' := by
  cases hm with
  | nothing => exact h
  | @routerLocal event _ _ ht => exact h.routerMoves hJ (.locally event.2) ht
  | @modemLocal event _ _ ht => exact h.modemMoves hJ (.locally event.2) ht hP
  | routerReceives hq ht => exact h.routerMoves hJ (.delivered hq) ht
  | modemReceives hq ht => exact h.modemMoves hJ (.delivered hq) ht hP

/-- A run whose modem keeps to `P` leaves the system coupled by every relation that such
sessions keep. -/
theorem run_coupled_while (hJ : J.KeptWhile P routerConfig modemConfig)
    {inputs : List System.Input} {t : System} {trace : List System.Entry}
    (h : System.run routerConfig modemConfig inputs = .ok (t, trace))
    (hP : ∀ e ∈ trace, P e.after.modem) : Coupled J routerConfig modemConfig t := by
  refine (Machine.run_history (J := fun sys trace => sys.Consistent ∧
    ((∀ e ∈ trace, P e.after.modem) → Coupled J routerConfig modemConfig sys)) ?_
      ⟨System.consistent_start _ _, fun _ => coupled_start J _ _⟩ h).2 hP
  rintro sys trace input sys' actions ⟨hc, hcoupled⟩ hstep
  have hm := System.moves_of_step hc hstep
  refine ⟨hm.consistent hc, fun hP => ?_⟩
  rw [List.forall_mem_append, List.forall_mem_singleton] at hP
  exact (hcoupled hP.1).moves hJ hm hP.2

/-- Every run leaves the system coupled by every relation that sessions keep. -/
theorem run_coupled (hJ : J.Kept routerConfig modemConfig) {inputs : List System.Input}
    {t : System} {trace : List System.Entry}
    (h : System.run routerConfig modemConfig inputs = .ok (t, trace)) :
    t.Consistent ∧ Coupled J routerConfig modemConfig t :=
  System.run_moves (fun _ _ _ _ _ hI hm => hI.moves hJ hm trivial)
    (coupled_start J _ _) h

/-- While both sides are in session, the system is a session satisfying `J`. -/
theorem Coupled.session_of_inSession (h : Coupled J routerConfig modemConfig sys)
    (hr : sys.router.state = .inSession) (hm : sys.modem.state = .inSession) :
    ∃ toRouter toModem, sys.toRouter = toRouter.map .message ∧
      sys.toModem = toModem.map .message ∧ Session J sys.router sys.modem toRouter toModem := by
  have hr' := not_gone_of_inSession (p := sys.router.state.phase) (by rw [hr]; rfl)
  have hm' := not_gone_of_inSession (p := sys.modem.state.phase) (by rw [hm]; rfl)
  cases h with
  | requested hmodem =>
    rw [hmodem] at hm
    cases hm
  | refused hterminated => cases hm.symm.trans hterminated
  | session hs hrouter hmodem =>
    cases hrouter with
    | joined hr tail hq htail =>
      cases hmodem with
      | joined hm tail' hq' htail' =>
        subst hr hm
        rw [htail.2 hm', List.append_nil] at hq
        rw [htail'.2 hr', List.append_nil] at hq'
        exact ⟨_, _, hq, hq', hs⟩
      | gone hgone =>
        rw [hm'] at hgone
        cases hgone
    | joining hstart =>
      rw [hstart] at hr
      cases hr
    | gone hgone =>
      rw [hr'] at hgone
      cases hgone

end

end Dlep
