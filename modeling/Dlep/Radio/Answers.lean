-- SUMMARY: What a granted link answer changes: the fields it lists, and nothing else of the table.
import Dlep.Radio.Bridge

/-!
# Link answers

An answer of the adapter lists the metrics that changed. The bridge fills the omitted
fields from the metrics it captured when it forwarded the request, not from the ones it
stores when the answer comes. The two differ as soon as a report of the adapter changed
the destination in between.
-/

namespace Dlep.Radio

/-! ## Listed and omitted fields -/

/-- A field takes the listed value, or keeps the one it had. -/
def Follows {α β : Type} (listed : Option α) (value : α → β) (before after : β) : Prop :=
  (∀ v, listed = some v → after = value v) ∧ (listed = none → after = before)

namespace Metrics

/-- `after` differs from `before` in the listed fields only, and has the listed values there. -/
structure Changes (m : Metrics) (before after : LinkMetrics) : Prop where
  maxDataRateRxBps : Follows m.maxDataRateRxBps id before.maxDataRateRxBps after.maxDataRateRxBps
  maxDataRateTxBps : Follows m.maxDataRateTxBps id before.maxDataRateTxBps after.maxDataRateTxBps
  currentDataRateRxBps : Follows m.currentDataRateRxBps id before.currentDataRateRxBps
    after.currentDataRateRxBps
  currentDataRateTxBps : Follows m.currentDataRateTxBps id before.currentDataRateTxBps
    after.currentDataRateTxBps
  latency : Follows m.latencyUs Duration.ofMicros before.latency after.latency
  resources : Follows m.resources some before.resources after.resources
  rlqRx : Follows m.rlqRx some before.rlqRx after.rlqRx
  rlqTx : Follows m.rlqTx some before.rlqTx after.rlqTx
  mtu : Follows m.mtu some before.mtu after.mtu

/-- `x` and `y` have the same values in the fields that are not listed. -/
structure AgreeOmitted (m : Metrics) (x y : LinkMetrics) : Prop where
  maxDataRateRxBps : m.maxDataRateRxBps = none → x.maxDataRateRxBps = y.maxDataRateRxBps
  maxDataRateTxBps : m.maxDataRateTxBps = none → x.maxDataRateTxBps = y.maxDataRateTxBps
  currentDataRateRxBps : m.currentDataRateRxBps = none →
    x.currentDataRateRxBps = y.currentDataRateRxBps
  currentDataRateTxBps : m.currentDataRateTxBps = none →
    x.currentDataRateTxBps = y.currentDataRateTxBps
  latency : m.latencyUs = none → x.latency = y.latency
  resources : m.resources = none → x.resources = y.resources
  rlqRx : m.rlqRx = none → x.rlqRx = y.rlqRx
  rlqTx : m.rlqTx = none → x.rlqTx = y.rlqTx
  mtu : m.mtu = none → x.mtu = y.mtu

end Metrics

theorem follows_iff {α β : Type} {listed : Option α} {value : α → β} {base before after : β}
    (hafter : after = listed.elim base value) :
    Follows listed value before after ↔ (listed = none → base = before) := by
  subst hafter
  cases listed with
  | none => exact ⟨fun h => h.2, fun h => ⟨nofun, h⟩⟩
  | some v =>
    refine iff_of_true ⟨?_, nofun⟩ nofun
    intro v' hv
    cases hv
    rfl

theorem getD_eq_elim {α : Type} (o : Option α) (x : α) : o.getD x = o.elim x id := by
  cases o <;> rfl

theorem or_eq_elim {α : Type} (o x : Option α) : o.or x = o.elim x some := by cases o <;> rfl

namespace Metrics

variable {m m' : Metrics} {x y z base before : LinkMetrics}

/-- An overlay changes the listed fields only if its base agrees with the old metrics in the others. -/
theorem changes_overlay_iff : m.Changes before (m.overlay base) ↔ m.AgreeOmitted base before := by
  have hlatency : (m.overlay base).latency = m.latencyUs.elim base.latency Duration.ofMicros := by
    unfold overlay
    cases m.latencyUs <;> rfl
  constructor
  · intro h
    exact ⟨(follows_iff (getD_eq_elim _ _)).mp h.maxDataRateRxBps,
      (follows_iff (getD_eq_elim _ _)).mp h.maxDataRateTxBps,
      (follows_iff (getD_eq_elim _ _)).mp h.currentDataRateRxBps,
      (follows_iff (getD_eq_elim _ _)).mp h.currentDataRateTxBps,
      (follows_iff hlatency).mp h.latency, (follows_iff (or_eq_elim _ _)).mp h.resources,
      (follows_iff (or_eq_elim _ _)).mp h.rlqRx, (follows_iff (or_eq_elim _ _)).mp h.rlqTx,
      (follows_iff (or_eq_elim _ _)).mp h.mtu⟩
  · intro h
    exact ⟨(follows_iff (getD_eq_elim _ _)).mpr h.maxDataRateRxBps,
      (follows_iff (getD_eq_elim _ _)).mpr h.maxDataRateTxBps,
      (follows_iff (getD_eq_elim _ _)).mpr h.currentDataRateRxBps,
      (follows_iff (getD_eq_elim _ _)).mpr h.currentDataRateTxBps,
      (follows_iff hlatency).mpr h.latency, (follows_iff (or_eq_elim _ _)).mpr h.resources,
      (follows_iff (or_eq_elim _ _)).mpr h.rlqRx, (follows_iff (or_eq_elim _ _)).mpr h.rlqTx,
      (follows_iff (or_eq_elim _ _)).mpr h.mtu⟩

namespace AgreeOmitted

theorem refl (m : Metrics) (x : LinkMetrics) : m.AgreeOmitted x x :=
  ⟨fun _ => rfl, fun _ => rfl, fun _ => rfl, fun _ => rfl, fun _ => rfl, fun _ => rfl,
    fun _ => rfl, fun _ => rfl, fun _ => rfl⟩

theorem trans (h : m.AgreeOmitted x y) (h' : m.AgreeOmitted y z) : m.AgreeOmitted x z where
  maxDataRateRxBps hm := (h.maxDataRateRxBps hm).trans (h'.maxDataRateRxBps hm)
  maxDataRateTxBps hm := (h.maxDataRateTxBps hm).trans (h'.maxDataRateTxBps hm)
  currentDataRateRxBps hm := (h.currentDataRateRxBps hm).trans (h'.currentDataRateRxBps hm)
  currentDataRateTxBps hm := (h.currentDataRateTxBps hm).trans (h'.currentDataRateTxBps hm)
  latency hm := (h.latency hm).trans (h'.latency hm)
  resources hm := (h.resources hm).trans (h'.resources hm)
  rlqRx hm := (h.rlqRx hm).trans (h'.rlqRx hm)
  rlqTx hm := (h.rlqTx hm).trans (h'.rlqTx hm)
  mtu hm := (h.mtu hm).trans (h'.mtu hm)

end AgreeOmitted

/-- `m'` lists no field that `m` omits. -/
structure ListsWithin (m' m : Metrics) : Prop where
  maxDataRateRxBps : m.maxDataRateRxBps = none → m'.maxDataRateRxBps = none
  maxDataRateTxBps : m.maxDataRateTxBps = none → m'.maxDataRateTxBps = none
  currentDataRateRxBps : m.currentDataRateRxBps = none → m'.currentDataRateRxBps = none
  currentDataRateTxBps : m.currentDataRateTxBps = none → m'.currentDataRateTxBps = none
  latencyUs : m.latencyUs = none → m'.latencyUs = none
  resources : m.resources = none → m'.resources = none
  rlqRx : m.rlqRx = none → m'.rlqRx = none
  rlqTx : m.rlqTx = none → m'.rlqTx = none
  mtu : m.mtu = none → m'.mtu = none

theorem ListsWithin.agreeOmitted (h : m'.ListsWithin m) (x : LinkMetrics) :
    m.AgreeOmitted x (m'.overlay x) where
  maxDataRateRxBps hm := by rw [overlay, h.maxDataRateRxBps hm, Option.getD_none]
  maxDataRateTxBps hm := by rw [overlay, h.maxDataRateTxBps hm, Option.getD_none]
  currentDataRateRxBps hm := by rw [overlay, h.currentDataRateRxBps hm, Option.getD_none]
  currentDataRateTxBps hm := by rw [overlay, h.currentDataRateTxBps hm, Option.getD_none]
  latency hm := by rw [overlay, h.latencyUs hm, Option.map_none, Option.getD_none]
  resources hm := by rw [overlay, h.resources hm, Option.none_or]
  rlqRx hm := by rw [overlay, h.rlqRx hm, Option.none_or]
  rlqTx hm := by rw [overlay, h.rlqTx hm, Option.none_or]
  mtu hm := by rw [overlay, h.mtu hm, Option.none_or]

end Metrics

/-! ## Granted answers -/

section Granted

variable {σ : Type} {d : ModemDaemon σ} {a : Answers σ} {b : Bridge} {w w' : σ}
  {request : UInt64} {p : Pending} {known : Known} {text : String} {m : Metrics}

/-- A granted answer that was delivered leaves the overlay on the captured metrics in the table, if
the destination is still listed there. -/
theorem Bridge.inbound_granted (now : ℕ) (hpending : b.pending.lookup request = some p)
    (hopen : a.isClosed p.answer w = false)
    (hvalid : d.validateMetrics (m.overlay p.current) = .ok ())
    (hsend : a.send p.answer ⟨.success, text, some (m.overlay p.current)⟩ w = some w') :
    (b.inbound d a w now (.linkResponse request .success text (some m))).2 = w' ∧ ∀ mac,
      (b.inbound d a w now (.linkResponse request .success text (some m))).1.destinations.lookup mac =
        if mac = p.mac then (b.destinations.lookup mac).map fun known =>
          { known with metrics := m.overlay p.current }
        else b.destinations.lookup mac := by
  cases hknown : b.destinations.lookup p.mac <;>
    simp only [inbound, onLinkResponse, hpending, hopen, Bool.false_eq_true, if_false,
      Option.map_some, hvalid, deliverAnswer, Status.code, hsend, hknown]
  case none =>
    refine ⟨trivial, fun mac => ?_⟩
    split
    · rename_i hmac
      rw [hmac, hknown]
      rfl
    · rfl
  case some known =>
    refine ⟨trivial, fun mac => (FinMap.lookup_insert_eq _ _ _ _).trans ?_⟩
    split
    · rename_i hmac
      rw [hmac, hknown]
      rfl
    · rfl

/-- The step from `s` to `s'` handed granted metrics to the session and stored them, and both differ
from what was stored in the listed fields only. -/
def AppliesListed (a : Answers σ) (s s' : Bridge × σ) (p : Pending) (text : String) (m : Metrics) :
    Prop :=
  ∃ metrics, a.send p.answer ⟨.success, text, some metrics⟩ s.2 = some s'.2 ∧
    (∀ known, s.1.destinations.lookup p.mac = some known → m.Changes known.metrics metrics) ∧
    ∀ mac, s'.1.destinations.lookup mac =
      if mac = p.mac then (s.1.destinations.lookup mac).map fun known => { known with metrics }
      else s.1.destinations.lookup mac

/-- A delivered answer is applied as listed exactly if the metrics captured with the request agree
with the stored ones wherever the answer lists nothing. -/
theorem appliesListed_iff (now : ℕ) (hpending : b.pending.lookup request = some p)
    (hopen : a.isClosed p.answer w = false)
    (hvalid : d.validateMetrics (m.overlay p.current) = .ok ())
    (hsend : a.send p.answer ⟨.success, text, some (m.overlay p.current)⟩ w = some w') :
    AppliesListed a (b, w) (b.inbound d a w now (.linkResponse request .success text (some m))) p
      text m ↔
    ∀ known, b.destinations.lookup p.mac = some known → m.AgreeOmitted p.current known.metrics := by
  obtain ⟨hworld, hstored⟩ := Bridge.inbound_granted now hpending hopen hvalid hsend
  constructor
  · rintro ⟨metrics, -, hchanges, htable⟩ known hknown
    have hsame := (hstored p.mac).symm.trans (htable p.mac)
    rw [if_pos rfl, if_pos rfl, hknown, Option.map_some, Option.map_some, Option.some.injEq,
      Known.mk.injEq] at hsame
    exact Metrics.changes_overlay_iff.mp (hsame.1 ▸ hchanges known hknown)
  · intro hagree
    exact ⟨_, hsend.trans (congrArg some hworld.symm), fun known hknown =>
      Metrics.changes_overlay_iff.mpr (hagree known hknown), hstored⟩

end Granted

/-! ## From the request to its answer -/

/-- The input may change a field of the destination that `m` does not list. -/
def Touches (m : Metrics) (mac : MacAddress) : BridgeInput → Prop
  | .line _ (.destinationUp mac' _ _) => mac' = mac
  | .line _ (.destinationUpdate mac' m') => mac' = mac ∧ ¬ m'.ListsWithin m
  | .line _ (.sessionMetrics _) => True
  | .line _ (.linkResponse _ .success _ (some _)) => True
  | _ => False

section Runs

variable {σ : Type} {d : ModemDaemon σ} {a : Answers σ} {s : Bridge × σ} {b : Bridge} {w : σ}
  {m : Metrics} {mac : MacAddress} {request : UInt64} {p : Pending}

namespace Bridge

/-- Retries change neither the table nor the pending requests. -/
theorem retry_keeps (now : ℕ) :
    (b.retry d w now).1.destinations = b.destinations ∧ (b.retry d w now).1.pending = b.pending := by
  have hone : ∀ (s : Bridge × σ) entry, (retryOne d now s entry).1.destinations = s.1.destinations ∧
      (retryOne d now s entry).1.pending = s.1.pending := by
    intro s entry
    unfold retryOne
    split
    · exact ⟨rfl, rfl⟩
    · unfold retried
      dsimp only
      split
      · split
        · exact ⟨rfl, rfl⟩
        · exact ⟨rfl, rfl⟩
      · exact ⟨rfl, rfl⟩
  have hall : ∀ (due : List (ℕ × SessionId × Retry)) (s : Bridge × σ),
      (due.foldl (retryOne d now) s).1.destinations = s.1.destinations ∧
        (due.foldl (retryOne d now) s).1.pending = s.1.pending := by
    intro due
    induction due with
    | nil => exact fun s => ⟨rfl, rfl⟩
    | cons entry due ih =>
      intro s
      exact ⟨(ih _).1.trans (hone s entry).1, (ih _).2.trans (hone s entry).2⟩
  exact hall _ _

theorem event_keeps (e : BridgeEvent) :
    (b.event d w e).1.destinations = b.destinations ∧ (b.event d w e).1.pending = b.pending := by
  cases e <;> exact ⟨rfl, rfl⟩

/-- An adapter message makes no request pending. -/
theorem inbound_pending {now : ℕ} {message : Inbound}
    (h : (b.inbound d a w now message).1.pending.lookup request = some p) :
    b.pending.lookup request = some p := by
  cases message with
  | destinationUp mac metrics addresses =>
    simp only [inbound, onDestinationUp] at h
    split at h
    · exact h
    · split at h
      · exact h
      · split at h <;> exact h
  | destinationUpdate mac metrics =>
    simp only [inbound, onDestinationUpdate] at h
    split at h
    · exact h
    · split at h <;> exact h
  | destinationAddresses mac add remove =>
    simp only [inbound, onDestinationAddresses] at h
    split at h
    · exact h
    · split at h
      · split at h <;> exact h
      · exact h
  | destinationDown mac =>
    simp only [inbound, onDestinationDown] at h
    split at h <;> exact h
  | sessionMetrics metrics =>
    simp only [inbound, onSessionMetrics] at h
    split at h <;> exact h
  | linkResponse answered status text metrics =>
    have herased : ∀ {b' : Bridge}, b'.pending = b.pending.erase answered →
        b'.pending.lookup request = some p → b.pending.lookup request = some p := by
      intro b' hb h
      rw [hb, FinMap.lookup_erase_eq] at h
      split at h
      · cases h
      · exact h
    simp only [inbound, onLinkResponse] at h
    split at h
    · exact h
    · split at h
      · exact herased rfl h
      · split at h
        · exact herased rfl h
        · unfold deliverAnswer at h
          split at h
          · exact herased rfl h
          · split at h <;> exact herased rfl h
  | unknown => exact h

/-- A request becomes pending only when it is asked. -/
theorem step_pending {input : BridgeInput}
    (h : (step d a s input).1.pending.lookup request = some p) :
    s.1.pending.lookup request = some p ∨
      ∃ asked answer, input = .ask asked answer ∧ request = s.1.nextRequest ∧
        p = ⟨answer, asked.id, asked.current⟩ := by
  cases input with
  | line now message => exact .inl (inbound_pending h)
  | ask asked answer =>
    change ((s.1.pending.retain _).insert s.1.nextRequest _).lookup request = some p at h
    rw [FinMap.lookup_insert_eq] at h
    split at h
    · rename_i hrequest
      exact .inr ⟨asked, answer, rfl, hrequest, (Option.some.inj h).symm⟩
    · exact .inl (FinMap.lookup_retain_eq_some.mp h).1
  | event e =>
    rw [step, (event_keeps e).2] at h
    exact .inl h
  | retryDue now =>
    rw [step, (retry_keeps now).2] at h
    exact .inl h

theorem run_concat (w : σ) (inputs : List BridgeInput) (input : BridgeInput) :
    run d a w (inputs ++ [input]) = step d a (run d a w inputs) input := by
  rw [run, List.foldl_append]
  rfl

/-- A pending request was asked. -/
theorem pending_asked {inputs : List BridgeInput}
    (h : (run d a w inputs).1.pending.lookup request = some p) :
    ∃ first asked answer between, inputs = first ++ .ask asked answer :: between ∧
      request = (run d a w first).1.nextRequest ∧ p = ⟨answer, asked.id, asked.current⟩ := by
  induction inputs using List.reverseRecOn with
  | nil => cases h
  | append_singleton inputs input ih =>
    rw [run_concat] at h
    rcases step_pending h with h | ⟨asked, answer, rfl, hrequest, hp⟩
    · obtain ⟨first, asked, answer, between, rfl, hasked⟩ := ih h
      exact ⟨first, asked, answer, between ++ [input], by simp, hasked⟩
    · exact ⟨inputs, asked, answer, [], rfl, hrequest, hp⟩

/-! ### What is stored in between -/

theorem inbound_stored {now : ℕ} {message : Inbound} {known' : Known}
    (hquiet : ¬ Touches m mac (.line now message))
    (h : (b.inbound d a w now message).1.destinations.lookup mac = some known') :
    ∃ known, b.destinations.lookup mac = some known ∧
      m.AgreeOmitted known.metrics known'.metrics := by
  have hsame : b.destinations.lookup mac = some known' → ∃ known,
      b.destinations.lookup mac = some known ∧ m.AgreeOmitted known.metrics known'.metrics :=
    fun h => ⟨known', h, .refl _ _⟩
  cases message with
  | destinationUp other metrics addresses =>
    simp only [inbound, onDestinationUp] at h
    split at h
    · exact hsame h
    · split at h
      · exact hsame h
      · split at h
        · change (b.destinations.insert other _).lookup mac = _ at h
          rw [FinMap.lookup_insert_eq, if_neg (Ne.symm hquiet)] at h
          exact hsame h
        · exact hsame h
  | destinationUpdate other metrics =>
    simp only [inbound, onDestinationUpdate] at h
    split at h
    · exact hsame h
    · rename_i known hknown
      split at h
      · change (b.destinations.insert other _).lookup mac = _ at h
        rw [FinMap.lookup_insert_eq] at h
        split at h
        · rename_i hmac
          subst hmac
          cases h
          refine ⟨known, hknown, Metrics.ListsWithin.agreeOmitted ?_ _⟩
          exact not_not.mp fun hlists => hquiet ⟨rfl, hlists⟩
        · exact hsame h
      · exact hsame h
  | destinationAddresses other add remove =>
    simp only [inbound, onDestinationAddresses] at h
    split at h
    · exact hsame h
    · rename_i known hknown
      split at h
      · split at h
        · change (b.destinations.insert other _).lookup mac = _ at h
          rw [FinMap.lookup_insert_eq] at h
          split at h
          · rename_i hmac
            subst hmac
            cases h
            exact ⟨known, hknown, .refl _ _⟩
          · exact hsame h
        · exact hsame h
      · exact hsame h
  | destinationDown other =>
    simp only [inbound, onDestinationDown] at h
    split at h
    · exact hsame h
    · change (b.destinations.erase other).lookup mac = _ at h
      rw [FinMap.lookup_erase_eq] at h
      split at h
      · cases h
      · exact hsame h
  | sessionMetrics metrics => exact absurd trivial hquiet
  | linkResponse answered status text metrics =>
    simp only [inbound, onLinkResponse] at h
    split at h
    · exact hsame h
    · split at h
      · exact hsame h
      · split at h
        · exact hsame h
        · unfold deliverAnswer at h
          split at h
          · exact hsame h
          · -- Only granted metrics are stored, and such an answer touches the destination.
            cases status with
            | denied => exact hsame h
            | success =>
              cases metrics with
              | none => exact hsame h
              | some metrics => exact absurd trivial hquiet
  | unknown => exact hsame h

theorem step_stored {input : BridgeInput} {known' : Known} (hquiet : ¬ Touches m mac input)
    (h : (step d a s input).1.destinations.lookup mac = some known') :
    ∃ known, s.1.destinations.lookup mac = some known ∧
      m.AgreeOmitted known.metrics known'.metrics := by
  cases input with
  | line now message => exact inbound_stored hquiet h
  | ask asked answer => exact ⟨known', h, .refl _ _⟩
  | event e =>
    rw [step, (event_keeps e).1] at h
    exact ⟨known', h, .refl _ _⟩
  | retryDue now =>
    rw [step, (retry_keeps now).1] at h
    exact ⟨known', h, .refl _ _⟩

/-- Inputs that do not touch a destination leave the omitted fields as they are. -/
theorem stored_of_quiet {inputs : List BridgeInput} {known' : Known}
    (hquiet : ∀ input ∈ inputs, ¬ Touches m mac input)
    (h : (inputs.foldl (step d a) s).1.destinations.lookup mac = some known') :
    ∃ known, s.1.destinations.lookup mac = some known ∧
      m.AgreeOmitted known.metrics known'.metrics := by
  induction inputs generalizing s with
  | nil => exact ⟨known', h, .refl _ _⟩
  | cons input inputs ih =>
    obtain ⟨hinput, hrest⟩ := List.forall_mem_cons.mp hquiet
    obtain ⟨known, hknown, hagree⟩ := ih hrest h
    obtain ⟨known₀, hknown₀, hagree₀⟩ := step_stored hinput hknown
    exact ⟨known₀, hknown₀, hagree₀.trans hagree⟩

end Bridge

/-- In every reachable state a delivered granted answer changes the fields it lists and no other,
and hands the same metrics to the session, exactly if the metrics captured with the request agree
with the stored ones wherever the answer lists nothing. They do if they did when the request was
asked and no input since then touched such a field. -/
theorem link_answer_changes_listed (d : ModemDaemon σ) (a : Answers σ) (w : σ)
    (inputs : List BridgeInput) (now : ℕ) (request : UInt64) (p : Pending) (text : String)
    (m : Metrics) (s : Bridge × σ) (w' : σ) (hrun : Bridge.run d a w inputs = s)
    (hpending : s.1.pending.lookup request = some p) (hopen : a.isClosed p.answer s.2 = false)
    (hvalid : d.validateMetrics (m.overlay p.current) = .ok ())
    (hsend : a.send p.answer ⟨.success, text, some (m.overlay p.current)⟩ s.2 = some w') :
    let s' := Bridge.step d a s (.line now (.linkResponse request .success text (some m)))
    (AppliesListed a s s' p text m ↔ ∀ known, s.1.destinations.lookup p.mac = some known →
      m.AgreeOmitted p.current known.metrics) ∧
    ∃ first asked answer between, inputs = first ++ .ask asked answer :: between ∧
      request = (Bridge.run d a w first).1.nextRequest ∧
      p = ⟨answer, asked.id, asked.current⟩ ∧
      ((∀ known, (Bridge.run d a w first).1.destinations.lookup p.mac = some known →
          m.AgreeOmitted p.current known.metrics) →
        (∀ input ∈ between, ¬ Touches m p.mac input) → AppliesListed a s s' p text m) := by
  subst hrun
  have hiff := appliesListed_iff now hpending hopen hvalid hsend
  refine ⟨hiff, ?_⟩
  obtain ⟨first, asked, answer, between, rfl, hrequest, hp⟩ := Bridge.pending_asked hpending
  refine ⟨first, asked, answer, between, rfl, hrequest, hp, fun hcaptured hquiet => ?_⟩
  refine hiff.mpr fun known hknown => ?_
  rw [Bridge.run, List.foldl_append, List.foldl_cons] at hknown
  obtain ⟨known₀, hknown₀, hagree⟩ := Bridge.stored_of_quiet hquiet hknown
  -- The request itself leaves the table as it is.
  exact (hcaptured known₀ hknown₀).trans hagree

end Runs

/-! ## An answer that undoes a report -/

/-- A daemon whose one session accepts every command, and channels nobody closes. -/
def willingDaemon : ModemDaemon Unit := ⟨.default, fun _ _ w => (w, [⟨⟨1⟩, .taken (.ok ())⟩])⟩

def openAnswers : Answers Unit := ⟨fun _ _ => false, fun _ _ w => some w⟩

def radioMac : MacAddress := .eui48 (Vector.replicate 6 1)

/-- A destination is reported and a router asks for a change of its link. -/
def asked : List BridgeInput :=
  [.line 0 (.destinationUp radioMac .default ⟨[], [], [], []⟩),
    .ask ⟨⟨1⟩, .v4 0 0, radioMac, .default, .default⟩ 0]

def slower : Metrics := { Metrics.default with latencyUs := some 20000 }

def faster : Metrics := { Metrics.default with currentDataRateRxBps := some 5 }

def reported : List BridgeInput :=
  [.line 1 (.destinationUpdate radioMac { Metrics.default with currentDataRateRxBps := some 3 }),
    .line 2 (.destinationAddresses radioMac ⟨[1], [], [], []⟩ ⟨[], [], [], []⟩)]

/-- Between the request and its answer the adapter reports another data rate, which the answer lists,
and addresses. -/
theorem link_answer_changes_listed_asked :
    AppliesListed openAnswers
      (Bridge.run willingDaemon openAnswers () (asked ++ reported))
      (Bridge.step willingDaemon openAnswers
        (Bridge.run willingDaemon openAnswers () (asked ++ reported))
        (.line 3 (.linkResponse 1 .success "" (some faster))))
      ⟨0, radioMac, .default⟩ "" faster ∧
    (((Bridge.step willingDaemon openAnswers
        (Bridge.run willingDaemon openAnswers () (asked ++ reported))
        (.line 3 (.linkResponse 1 .success "" (some faster)))).1.destinations.lookup radioMac).map
          Known.metrics) = some (faster.overlay .default) := by
  have hpending : (Bridge.run willingDaemon openAnswers () (asked ++ reported)).1.pending.lookup 1 =
      some ⟨0, radioMac, .default⟩ := by decide +kernel
  refine ⟨?_, by decide +kernel⟩
  obtain ⟨hiff, -⟩ := link_answer_changes_listed willingDaemon openAnswers () (asked ++ reported) 3 1
    ⟨0, radioMac, .default⟩ "" faster _ () rfl hpending rfl (by decide +kernel) rfl
  refine hiff.mpr fun known hknown => ?_
  have hstored : (Bridge.run willingDaemon openAnswers () (asked ++ reported)).1.destinations.lookup
      radioMac = some ⟨{ LinkMetrics.default with currentDataRateRxBps := 3 },
        { DestinationAddrs.default with v4 := [1] }⟩ := by decide +kernel
  cases hknown.symm.trans hstored
  exact ⟨fun _ => rfl, fun _ => rfl, nofun, fun _ => rfl, fun _ => rfl, fun _ => rfl,
    fun _ => rfl, fun _ => rfl, fun _ => rfl⟩

/-- The latency reported after the request is lost when the answer, which does not list the latency,
comes. -/
theorem link_answer_changes_listed_stale :
    ∃ inputs before after,
      ((Bridge.run willingDaemon openAnswers () inputs).1.destinations.lookup radioMac) =
        some before ∧
      ((Bridge.step willingDaemon openAnswers (Bridge.run willingDaemon openAnswers () inputs)
        (.line 2 (.linkResponse 1 .success "" (some faster)))).1.destinations.lookup radioMac) =
          some after ∧
      faster.latencyUs = none ∧ after.metrics.latency ≠ before.metrics.latency := by
  refine ⟨asked ++ [.line 1 (.destinationUpdate radioMac slower)],
    ⟨slower.overlay .default, .default⟩, ⟨faster.overlay .default, .default⟩, ?_⟩
  decide +kernel

end Dlep.Radio
