-- SUMMARY: The transaction discipline of RFC 8175 section 8, for every event sequence fed to either state machine.
import Dlep.Fsm.Transactions

/-!
# Transaction discipline

What RFC 8175 section 8 asks of one party, as a property of its trace: requests
are serialized, accepted requests answered once, responses matched. Every run of
either state machine is a history of exchanges, and such a history keeps it.
-/

namespace Dlep

open MessageType

open Transaction (Ledger sentCount acceptedCount Settled Discharged)

/-! ## The discipline of a trace -/

/-- The request messages that are serialized. -/
def requestTypes : List MessageType :=
  [sessionUpdate, destinationUp, destinationDown, destinationAnnounce, linkCharacteristicsRequest]

def responseTypes : List MessageType :=
  [sessionUpdateResponse, destinationUpResponse, destinationDownResponse,
    destinationAnnounceResponse, linkCharacteristicsResponse]

/-- A grammatical request has a scope. -/
theorem Grammatical.role_request {msg : Message} {router initializing : Bool}
    (hg : Grammatical msg router initializing) (ht : msg.messageType ∈ requestTypes) :
    ∃ scope kind, msg.role = .request scope kind ∧
      (kind = .linkCharacteristics → msg.messageType = linkCharacteristicsRequest) := by
  have hrole : ∀ {mt kind}, msg.messageType = mt → requestKind mt = some kind →
      .macAddress ∈ requiredItems mt → ∃ scope, msg.role = .request scope kind := by
    rintro mt kind rfl hkind hreq
    obtain ⟨mac, hmac⟩ := extractDestinationMac_of_carries (hg.required _ hreq)
    exact ⟨_, Message.role_request rfl hmac hkind⟩
  simp only [requestTypes, List.mem_cons, List.not_mem_nil, or_false] at ht
  rcases ht with ht | ht | ht | ht | ht
  · exact ⟨_, _, role_sessionUpdate ht, nofun⟩
  · obtain ⟨scope, h⟩ := hrole ht rfl (by decide)
    exact ⟨scope, _, h, nofun⟩
  · obtain ⟨scope, h⟩ := hrole ht rfl (by decide)
    exact ⟨scope, _, h, nofun⟩
  · obtain ⟨scope, h⟩ := hrole ht rfl (by decide)
    exact ⟨scope, _, h, nofun⟩
  · obtain ⟨scope, h⟩ := hrole ht rfl (by decide)
    exact ⟨scope, _, h, fun _ => ht⟩

/-- A grammatical response has a scope. -/
theorem Grammatical.role_response {msg : Message} {router initializing : Bool}
    (hg : Grammatical msg router initializing) (ht : msg.messageType ∈ responseTypes) :
    ∃ scope kind, msg.role = .response scope kind := by
  have hrole : ∀ {mt kind}, msg.messageType = mt → responseKind mt = some kind →
      requestKind mt = none → .macAddress ∈ requiredItems mt →
      ∃ scope kind, msg.role = .response scope kind := by
    rintro mt kind rfl hkind hnot hreq
    obtain ⟨mac, hmac⟩ := extractDestinationMac_of_carries (hg.required _ hreq)
    exact ⟨_, _, Message.role_response rfl hmac hkind hnot⟩
  simp only [responseTypes, List.mem_cons, List.not_mem_nil, or_false] at ht
  rcases ht with ht | ht | ht | ht | ht
  · exact ⟨_, _, role_sessionUpdateResponse ht⟩
  · exact hrole ht rfl rfl (by decide)
  · exact hrole ht rfl rfl (by decide)
  · exact hrole ht rfl rfl (by decide)
  · exact hrole ht rfl rfl (by decide)

/-- What RFC 8175 section 8 asks of one party's trace. A party with `defers` answers
Link Characteristics Requests later. -/
structure TransactionDiscipline (defers : Bool) (trace : List Observation) : Prop where
  /-- An accepted request is answered in the same step, by one response of its kind
  in its scope, unless it is deferred. -/
  answered : ∀ o ∈ trace, ∀ msg, o.accepted = some msg → msg.messageType ∈ requestTypes →
    (msg.messageType = linkCharacteristicsRequest → defers = false) →
    ∃ response scope kind, sentMessages o.actions = [response] ∧
      msg.role = .request scope kind ∧ response.role = .response scope kind
  /-- From one accepted link request to just before the next one for the same
  destination, exactly one link response is sent for it. -/
  deferred : ∀ mac past o₁ middle o₂, past ++ [o₁] ++ middle ++ [o₂] <+: trace →
    o₁.turn.accepted = some (.request (.destination mac) .linkCharacteristics) →
    o₂.turn.accepted = some (.request (.destination mac) .linkCharacteristics) →
    acceptedCount (middle.map Observation.turn)
      (.request (.destination mac) .linkCharacteristics) = 0 →
    sentCount (([o₁] ++ middle).map Observation.turn)
      (.response (.destination mac) .linkCharacteristics) = 1
  /-- At no point were more link responses sent than link requests accepted. -/
  solicited : ∀ mac past, past <+: trace →
    sentCount (past.map Observation.turn) (.response (.destination mac) .linkCharacteristics) ≤
      acceptedCount (past.map Observation.turn) (.request (.destination mac) .linkCharacteristics)
  /-- A request goes out alone, and only when every own request of its scope has been
  answered and every accepted request of its scope as well. -/
  serialized : ∀ past o m scope kind, past ++ [o] <+: trace → m ∈ sentMessages o.actions →
    m.role = .request scope kind →
    sentMessages o.actions = [m] ∧ Settled (past.map Observation.turn) scope ∧
      Discharged (past.map Observation.turn) scope
  /-- A response is accepted only while the request it answers is the one outstanding. -/
  matched : ∀ past o msg, past ++ [o] <+: trace → o.accepted = some msg →
    msg.messageType ∈ responseTypes → ∃ scope kind, msg.role = .response scope kind ∧
      sentCount (past.map Observation.turn) (.request scope kind) =
        acceptedCount (past.map Observation.turn) (.response scope kind) + 1

/-- Every accepted request and response of a trace is grammatical. -/
def GrammaticalTrace (trace : List Observation) : Prop :=
  ∀ o ∈ trace, ∀ msg, o.accepted = some msg →
    msg.messageType ∈ requestTypes ∨ msg.messageType ∈ responseTypes →
    ∃ router, Grammatical msg router false

theorem GrammaticalTrace.nil : GrammaticalTrace [] := by
  intro o ho
  cases ho

theorem GrammaticalTrace.snoc {trace : List Observation} {o : Observation}
    (h : GrammaticalTrace trace)
    (ho : ∀ msg, o.event = .recvMessage msg → o.after = .inSession →
      msg.initializes = true ∨ ∃ router, Grammatical msg router false) :
    GrammaticalTrace (trace ++ [o]) := by
  intro p hp
  rcases List.mem_append.mp hp with hp | hp
  · exact h p hp
  · cases List.mem_singleton.mp hp
    intro msg hmsg htype
    obtain ⟨hevent, hafter⟩ := Observation.accepted_eq_some hmsg
    refine (ho msg hevent hafter).resolve_left fun hinit => ?_
    simp only [Message.initializes, decide_eq_true_eq, List.mem_cons, List.not_mem_nil,
      or_false] at hinit
    rcases hinit with ht | ht <;> exact absurd (ht ▸ htype) (by decide)

/-- A history of exchanges whose accepted requests and responses are grammatical. -/
theorem TransactionDiscipline.of_history {defers : RequestKind → Prop} {b : Bool}
    {trace : List Observation} {l : Ledger Scope RequestKind}
    (h : Transaction.History defers (trace.map Observation.turn) l)
    (hgrammar : GrammaticalTrace trace)
    (hdefers : ∀ kind, defers kind → kind = .linkCharacteristics ∧ b = true) :
    TransactionDiscipline b trace := by
  have hpoint : ∀ {past o}, past ++ [o] <+: trace →
      past.map Observation.turn ++ [o.turn] <+: trace.map Observation.turn := by
    intro past o hpre
    simpa using hpre.map Observation.turn
  refine ⟨?_, ?_, ?_, ?_, ?_⟩
  · intro o ho msg hmsg ht hnow
    obtain ⟨router, hg⟩ := hgrammar o ho msg hmsg (.inl ht)
    obtain ⟨scope, kind, hrole, hlink⟩ := hg.role_request ht
    obtain ⟨past, rest, rfl⟩ := List.append_of_mem ho
    have hpre : past ++ [o] <+: past ++ o :: rest := ⟨rest, by simp⟩
    obtain ⟨m, m', -, hx⟩ := h.point (hpoint hpre)
    have haccepted : o.turn.accepted = some (.request scope kind) := by
      simp [Observation.turn, hmsg, hrole]
    have hkind : ¬ defers kind := by
      intro hd
      obtain ⟨hk, hb⟩ := hdefers kind hd
      rw [hnow (hlink hk)] at hb
      cases hb
    have hsent := hx.answered haccepted hkind
    obtain ⟨response, hresponse, hr⟩ := List.map_eq_singleton_iff.mp hsent
    exact ⟨response, scope, kind, hresponse, hrole, hr⟩
  · intro mac past o₁ middle o₂ hpre h₁ h₂ hmiddle
    have hpre : past.map Observation.turn ++ [o₁.turn] ++ middle.map Observation.turn ++ [o₂.turn]
        <+: trace.map Observation.turn := by
      simpa using hpre.map Observation.turn
    rw [List.map_append]
    exact h.between hpre h₁ h₂ hmiddle
  · intro mac past hpre
    obtain ⟨m, hm⟩ := h.initial _ (hpre.map Observation.turn)
    rw [hm.debts]
    exact Nat.le_add_right _ _
  · intro past o m scope kind hpre hm hrole
    obtain ⟨l₁, l₂, hpast, hx⟩ := h.point (hpoint hpre)
    obtain ⟨hsent, hfree, howed⟩ := hx.asked (List.mem_map.mpr ⟨m, hm, hrole⟩)
    obtain ⟨m', hm', -⟩ := List.map_eq_singleton_iff.mp hsent
    rw [hm'] at hm ⊢
    rw [List.mem_singleton.mp hm]
    exact ⟨rfl, (hpast.settled_iff scope).mpr hfree, (hpast.discharged_iff scope).mpr howed⟩
  · intro past o msg hpre hmsg ht
    have ho : o ∈ trace := hpre.subset (by simp)
    obtain ⟨router, hg⟩ := hgrammar o ho msg hmsg (.inr ht)
    obtain ⟨scope, kind, hrole⟩ := hg.role_response ht
    obtain ⟨l₁, l₂, hpast, hx⟩ := h.point (hpoint hpre)
    have haccepted : o.turn.accepted = some (.response scope kind) := by
      simp [Observation.turn, hmsg, hrole]
    have hopen := hx.matched haccepted
    refine ⟨scope, kind, hrole, ?_⟩
    rw [hpast.requests scope kind, if_pos hopen]

/-! ## Whole runs -/

namespace ModemSessionFsm

theorem run_discipline {config : SessionConfig} {events : List FsmEvent} {t : ModemSessionFsm}
    {trace : List Entry} (h : run config events = .ok (t, trace)) :
    TransactionDiscipline config.deferLinkCharacteristics (trace.map observe) := by
  -- The history and the grammar of what was accepted grow together along the run.
  suffices hJ : t.config = config ∧
      Transaction.History config.defers ((trace.map observe).map Observation.turn) t.ledger ∧
      GrammaticalTrace (trace.map observe) from .of_history hJ.2.1 hJ.2.2 fun kind hk => hk
  refine lawful.run_history ?_ (consistent_withConfig config)
    ⟨rfl, by rw [ledger_withConfig]; exact .nil, .nil⟩ h
  rintro s trace event s' actions hc ⟨rfl, hhist, hgrammar⟩ ht
  rw [List.map_append, List.map_append]
  refine ⟨ht.config_eq, hhist.snoc (ht.exchange hc), hgrammar.snoc fun msg hevent hafter => ?_⟩
  cases hevent
  exact (ht.accepts (phase_eq_inSession hafter)).imp_right fun ha => ⟨_, ha.grammar⟩

end ModemSessionFsm

namespace RouterSessionFsm

theorem run_discipline {config : SessionConfig} {events : List FsmEvent} {t : RouterSessionFsm}
    {trace : List Entry} (h : run config events = .ok (t, trace)) :
    TransactionDiscipline false (trace.map observe) := by
  suffices hJ :
      Transaction.History (fun _ => False) ((trace.map observe).map Observation.turn) t.ledger ∧
      GrammaticalTrace (trace.map observe) from .of_history hJ.1 hJ.2 fun kind hk => hk.elim
  refine lawful.run_history ?_ (consistent_withConfig config)
    ⟨by rw [ledger_withConfig]; exact .nil, .nil⟩ h
  rintro s trace event s' actions hc ⟨hhist, hgrammar⟩ ht
  rw [List.map_append, List.map_append]
  refine ⟨hhist.snoc ht.exchange, hgrammar.snoc fun msg hevent hafter => ?_⟩
  cases hevent
  exact (ht.accepts (phase_eq_inSession hafter)).imp_right fun ha => ⟨_, ha.grammar⟩

end RouterSessionFsm

/-- Every event sequence, from any peer and any application, leaves either machine a
trace that keeps the transaction discipline. -/
theorem session_transactionDiscipline (config : SessionConfig) (events : List FsmEvent) :
    (∃ s trace, RouterSessionFsm.run config events = .ok (s, trace) ∧
      TransactionDiscipline false (trace.map RouterSessionFsm.observe)) ∧
    (∃ s trace, ModemSessionFsm.run config events = .ok (s, trace) ∧
      TransactionDiscipline config.deferLinkCharacteristics
        (trace.map ModemSessionFsm.observe)) := by
  constructor
  · obtain ⟨s, trace, hrun⟩ := RouterSessionFsm.run_ok config events
    exact ⟨s, trace, hrun, RouterSessionFsm.run_discipline hrun⟩
  · obtain ⟨s, trace, hrun⟩ := ModemSessionFsm.run_ok config events
    exact ⟨s, trace, hrun, ModemSessionFsm.run_discipline hrun⟩

end Dlep
