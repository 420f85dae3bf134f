-- SUMMARY: The closing handshake of two parties joined by queues: both end, once each, with the initiator's code.
import Mathlib.Data.List.Basic

/-!
# Closing handshakes

Two parties exchange data over two queues. One of them is asked to end with a code
and initiates; the other answers, closes and reports the code; the first concludes on
the answer, closes and reports its own reason. `Party.Step` lists what a party may do,
including the ways to end before it ever worked. `Progress` says how far the
handshake is, whatever data is still under way; every move of either party keeps
it, as long as the responder does not initiate too.
-/

namespace Closing

variable {γ : Type}

/-- What a frame means to the handshake. -/
inductive Signal (γ : Type) where
  | data
  | terminate (code : γ)
  | respond
  | close
  deriving DecidableEq, Repr

inductive Stage where
  | opening
  | working
  | closing
  | closed
  deriving DecidableEq, Repr

/-- A party and the reason it gave for closing. -/
structure Party (γ : Type) where
  stage : Stage
  reason : γ

/-- One step of a party: the code it is asked to end with and the signal that arrived, if any, the
signals sent and the codes reported. -/
inductive Party.Step (p : Party γ) :
    Option γ → Option (Signal γ) → Party γ → List (Signal γ) → List γ → Prop where
  | works {asked received sent} (hstage : p.stage = .opening ∨ p.stage = .working)
      (hreceived : ∀ s, received = some s → s = .data) (hsent : ∀ s ∈ sent, s = .data) :
      Step p asked received p sent []
  /-- A party that is closing waits for the answer or the close; a closed one for nothing. -/
  | deaf {asked received} (hstage : p.stage = .closed ∨ p.stage = .closing ∧
      ∀ s, received = some s → s ≠ .respond ∧ s ≠ .close) : Step p asked received p [] []
  | joins {asked sent} (hstage : p.stage = .opening) (hsent : ∀ s ∈ sent, s = .data) :
      Step p asked (some .data) { p with stage := .working } sent []
  | initiates {received code} (hstage : p.stage = .working) :
      Step p (some code) received ⟨.closing, code⟩ [.terminate code] []
  | answers {asked code} (hstage : p.stage = .working) :
      Step p asked (some (.terminate code)) { p with stage := .closed } [.respond, .close] [code]
  | concludes {asked} (hstage : p.stage = .closing) :
      Step p asked (some .respond) { p with stage := .closed } [.close] [p.reason]
  -- Ends without a session.
  | abandons {asked received sent code} (hstage : p.stage = .opening) :
      Step p asked received { p with stage := .closed } sent [code]
  | fails {asked received sent code} (hstage : p.stage = .opening) :
      Step p asked received ⟨.closing, code⟩ sent []
  -- The transport is gone.
  | loses {asked code} (hstage : p.stage = .working ∨ p.stage = .closing) :
      Step p asked (some .close) { p with stage := .closed } [] [code]

section Ends

variable {p q : Party γ} {asked : Option γ} {received : Option (Signal γ)} {sent : List (Signal γ)}
  {downs : List γ}

theorem Party.Step.of_closed (h : p.Step asked received q sent downs) (hp : p.stage = .closed) :
    q = p ∧ sent = [] ∧ downs = [] := by
  cases h with
  | deaf => exact ⟨rfl, rfl, rfl⟩
  | works hstage | loses hstage => rcases hstage with h | h <;> cases hp.symm.trans h
  | joins hstage | initiates hstage | answers hstage | concludes hstage | abandons hstage
  | fails hstage => cases hp.symm.trans hstage

/-- A closing party waits, concludes, or loses the transport. -/
theorem Party.Step.of_closing (h : p.Step asked received q sent downs) (hp : p.stage = .closing) :
    (q = p ∧ sent = [] ∧ downs = [] ∧ ∀ s, received = some s → s ≠ .respond ∧ s ≠ .close) ∨
      (received = some .respond ∧ q = { p with stage := .closed } ∧ sent = [.close] ∧
        downs = [p.reason]) ∨
      received = some .close ∧ q = { p with stage := .closed } := by
  cases h with
  | deaf hstage =>
    rcases hstage with h | ⟨-, hreceived⟩
    · cases hp.symm.trans h
    · exact .inl ⟨rfl, rfl, rfl, hreceived⟩
  | concludes => exact .inr (.inl ⟨rfl, rfl, rfl, rfl⟩)
  | loses => exact .inr (.inr ⟨rfl, rfl⟩)
  | works hstage => rcases hstage with h | h <;> cases hp.symm.trans h
  | joins hstage | initiates hstage | answers hstage | abandons hstage | fails hstage =>
    cases hp.symm.trans hstage

/-- What has ended stays so, with its reason. -/
theorem Party.Step.ended (h : p.Step asked received q sent downs)
    (hp : p.stage = .closing ∨ p.stage = .closed) :
    (q.stage = .closing ∨ q.stage = .closed) ∧ q.reason = p.reason := by
  rcases hp with hp | hp
  · rcases h.of_closing hp with ⟨rfl, -⟩ | ⟨-, rfl, -⟩ | ⟨-, rfl⟩
    · exact ⟨.inl hp, rfl⟩
    · exact ⟨.inr rfl, rfl⟩
    · exact ⟨.inr rfl, rfl⟩
  · obtain ⟨rfl, -⟩ := h.of_closed hp
    exact ⟨.inr hp, rfl⟩

end Ends

/-- A party with its past: whether it ever worked, the codes it reported, and the codes it was asked
for in the steps in which it initiated. -/
structure Side (γ : Type) where
  party : Party γ
  joined : Bool
  downs : List γ
  gave : List (Option γ)

namespace Side

/-- The side after a step of its party. -/
def next (s : Side γ) (asked : Option γ) (party : Party γ) (downs : List γ) : Side γ where
  party := party
  joined := s.joined || party.stage = .working
  downs := s.downs ++ downs
  gave := s.gave ++ if s.party.stage = .working ∧ party.stage = .closing then [asked] else []

/-- The side after a step of the other one. -/
def seen (s : Side γ) : Side γ := s.next none s.party []

/-- Not at its end, and nothing reported. -/
structure Live (s : Side γ) : Prop where
  begun : s.party.stage = .opening ∧ s.joined = false ∨ s.party.stage = .working
  downs : s.downs = []
  gave : s.gave = []

/-- Ended without having worked. -/
def Missed (s : Side γ) : Prop :=
  (s.party.stage = .closing ∨ s.party.stage = .closed) ∧ s.joined = false

variable {s : Side γ} {p : Party γ} {asked : Option γ} {received : Option (Signal γ)}
  {sent : List (Signal γ)} {downs : List γ}

/-- Only a step that initiates gives a code. -/
theorem gave_next (h : ¬ (s.party.stage = .working ∧ p.stage = .closing)) :
    (s.next asked p downs).gave = s.gave := by
  simp [next, h]

theorem gave_seen (s : Side γ) : s.seen.gave = s.gave :=
  gave_next fun h => nomatch h.1.symm.trans h.2

/-- A step in which the party does nothing. -/
theorem next_party (s : Side γ) (asked : Option γ) : s.next asked s.party [] = s.seen := by
  have hgave : ∀ asked, (s.next asked s.party []).gave = s.gave := fun _ =>
    gave_next fun h => nomatch h.1.symm.trans h.2
  simp only [seen, next, mk.injEq, true_and]
  exact (hgave asked).trans (hgave none).symm

theorem downs_seen (s : Side γ) : s.seen.downs = s.downs := List.append_nil _

theorem Live.stage (h : s.Live) : s.party.stage = .opening ∨ s.party.stage = .working :=
  h.begun.imp_left And.left

/-- A live side that goes on, or begins to work, is live. -/
theorem Live.next (h : s.Live) (hp : p = s.party ∨ p.stage = .working) :
    (s.next asked p []).Live := by
  refine ⟨?_, by simp [Side.next, h.downs], ?_⟩
  · rcases hp with rfl | hp
    · rcases h.begun with ⟨hstage, hjoined⟩ | hstage
      · exact .inl ⟨hstage, by simp [Side.next, hstage, hjoined]⟩
      · exact .inr hstage
    · exact .inr hp
  · rw [gave_next, h.gave]
    rintro ⟨-, hclosing⟩
    rcases hp with rfl | hp
    · rcases h.stage with h | h <;> cases h.symm.trans hclosing
    · cases hp.symm.trans hclosing

theorem Live.seen (h : s.Live) : s.seen.Live := h.next (.inl rfl)

/-- A live side that closes without having worked has missed the session. -/
theorem Live.missed (h : s.Live) (hstage : s.party.stage = .opening)
    (hp : p.stage = .closing ∨ p.stage = .closed) : (s.next asked p downs).Missed := by
  rcases h.begun with ⟨-, hjoined⟩ | hworking
  · exact ⟨hp, by rcases hp with hp | hp <;> simp [Side.next, hjoined, hp]⟩
  · cases hstage.symm.trans hworking

theorem Missed.seen (h : s.Missed) : s.seen.Missed := by
  obtain ⟨hstage, hjoined⟩ := h
  exact ⟨hstage, by rcases hstage with hp | hp <;> simp [Side.seen, Side.next, hjoined, hp]⟩

theorem Missed.next (h : s.Missed) (hstep : s.party.Step asked received p sent downs) :
    (s.next asked p downs).Missed := by
  have hp := (hstep.ended h.1).1
  exact ⟨hp, by rcases hp with hp | hp <;> simp [Side.next, h.2, hp]⟩

end Side

/-! ## Progress -/

/-- How a signal reaches a party: not at all, or from the head of its queue. -/
inductive Arrives (queue : List (Signal γ)) : Option (Signal γ) → List (Signal γ) → Prop where
  | locally : Arrives queue none queue
  | delivered {s rest} (h : queue = s :: rest) : Arrives queue (some s) rest

section Queues

variable {queue before rest tail : List (Signal γ)} {received : Option (Signal γ)}

theorem Arrives.rest_subset (h : Arrives queue received rest) : ∀ s ∈ rest, s ∈ queue := by
  cases h with
  | locally => exact fun s hs => hs
  | delivered h => exact fun s hs => h ▸ List.mem_cons_of_mem _ hs

theorem Arrives.received_mem (h : Arrives queue received rest) :
    ∀ s, received = some s → s ∈ queue := by
  cases h with
  | locally => nofun
  | delivered h =>
    rintro s ⟨⟩
    exact h ▸ List.mem_cons_self

/-- A queue of data with something behind it: data arrives, or what is behind it. -/
theorem Arrives.behind (h : Arrives queue received rest) (hq : queue = before ++ tail)
    (hbefore : ∀ s ∈ before, s = .data) :
    (∃ before', rest = before' ++ tail ∧ (∀ s ∈ before', s = .data) ∧
        ∀ s, received = some s → s = .data) ∨
      ∃ s, received = some s ∧ tail = s :: rest := by
  cases h with
  | locally => exact .inl ⟨before, hq, hbefore, nofun⟩
  | @delivered s _ h =>
    rcases List.append_eq_cons_iff.mp (hq.symm.trans h) with ⟨-, htail⟩ | ⟨before', rfl, hrest⟩
    · exact .inr ⟨s, rfl, htail⟩
    · refine .inl ⟨before', hrest, fun x hx => hbefore x (List.mem_cons_of_mem _ hx), ?_⟩
      rintro x ⟨⟩
      exact hbefore s List.mem_cons_self

end Queues

/-- How far the handshake is, with the queues from the initiator and back. -/
inductive Progress (initiator responder : Side γ) (out back : List (Signal γ)) : Prop where
  | lost (h : initiator.Missed ∨ responder.Missed)
  | talking (hi : initiator.Live) (hr : responder.Live) (hout : ∀ s ∈ out, s = .data)
      (hback : ∀ s ∈ back, s = .data)
  | announced (hi : initiator.party.stage = .closing) (hidowns : initiator.downs = [])
      (hgave : initiator.gave = [some initiator.party.reason])
      (hr : responder.Live) {before : List (Signal γ)}
      (hout : out = before ++ [.terminate initiator.party.reason])
      (hbefore : ∀ s ∈ before, s = .data) (hback : ∀ s ∈ back, s = .data)
  | answered (hi : initiator.party.stage = .closing) (hidowns : initiator.downs = [])
      (hgave : initiator.gave = [some initiator.party.reason])
      (hr : responder.party.stage = .closed) (hrdowns : responder.downs = [initiator.party.reason])
      (hout : out = []) {before : List (Signal γ)} (hback : back = before ++ [.respond, .close])
      (hbefore : ∀ s ∈ before, s = .data)
  | done (hi : initiator.party.stage = .closed) (hidowns : initiator.downs = [initiator.party.reason])
      (hgave : initiator.gave = [some initiator.party.reason])
      (hr : responder.party.stage = .closed) (hrdowns : responder.downs = [initiator.party.reason])
      (hout : ∀ s ∈ out, s = .close) (hback : ∀ s ∈ back, s = .close)

section Moves

variable {i r : Side γ} {out back rest sent : List (Signal γ)} {received : Option (Signal γ)}
  {p : Party γ} {asked : Option γ} {downs : List γ}

theorem forall_mem_append_data {before after : List (Signal γ)} (hbefore : ∀ s ∈ before, s = .data)
    (hafter : ∀ s ∈ after, s = .data) : ∀ s ∈ before ++ after, s = .data :=
  List.forall_mem_append.mpr ⟨hbefore, hafter⟩

theorem Progress.initiatorMoves (h : Progress i r out back) (harr : Arrives back received rest)
    (hstep : i.party.Step asked received p sent downs) :
    Progress (i.next asked p downs) r.seen (out ++ sent) rest := by
  -- A side that has initiated does not do so again.
  have kept : ∀ {stage}, i.party.stage = stage → stage ≠ .working →
      (i.next asked p downs).gave = i.gave :=
    fun hstage hne => Side.gave_next fun h => hne (hstage.symm.trans h.1)
  cases h with
  | lost h => exact .lost (h.imp (·.next hstep) (·.seen))
  | talking hi hr hout hback =>
    have hrest : ∀ s ∈ rest, s = .data := fun s hs => hback s (harr.rest_subset s hs)
    have hdata : ∀ s, received = some s → s = .data := fun s hs =>
      hback s (harr.received_mem s hs)
    cases hstep with
    | works _ _ hsent =>
      exact .talking (hi.next (.inl rfl)) hr.seen (forall_mem_append_data hout hsent) hrest
    | joins _ hsent =>
      exact .talking (hi.next (.inr rfl)) hr.seen (forall_mem_append_data hout hsent) hrest
    | initiates hworking =>
      refine .announced rfl (by simp [Side.next, hi.downs]) ?_ hr.seen rfl hout hrest
      simp [Side.next, hi.gave, hworking]
    | abandons hopening => exact .lost (.inl (hi.missed hopening (.inr rfl)))
    | fails hopening => exact .lost (.inl (hi.missed hopening (.inl rfl)))
    | answers | loses => cases hdata _ rfl
    | deaf hstage =>
      rcases hi.stage with h | h <;> rw [h] at hstage <;> simp at hstage
    | concludes hstage =>
      rcases hi.stage with h | h <;> cases h.symm.trans hstage
  | announced hi hidowns hgave hr hout hbefore hback =>
    have hdata : ∀ s, received = some s → s = .data := fun s hs =>
      hback s (harr.received_mem s hs)
    rcases hstep.of_closing hi with ⟨rfl, rfl, rfl, -⟩ | ⟨hreceived, -⟩ | ⟨hreceived, -⟩
    · rw [List.append_nil]
      exact .announced hi (i.downs_seen.trans hidowns) ((kept hi nofun).trans hgave) hr.seen hout hbefore
        fun s hs => hback s (harr.rest_subset s hs)
    · cases hdata _ hreceived
    · cases hdata _ hreceived
  | answered hi hidowns hgave hr hrdowns hout hback hbefore =>
    subst hout
    rcases hstep.of_closing hi with ⟨rfl, rfl, rfl, hdeaf⟩ | ⟨hreceived, rfl, rfl, rfl⟩ | ⟨hclose, -⟩
    · rcases harr.behind hback hbefore with ⟨before, hrest, hbefore, -⟩ | ⟨s, hs, htail⟩
      · exact .answered hi (i.downs_seen.trans hidowns) ((kept hi nofun).trans hgave) hr
          (r.downs_seen.trans hrdowns) rfl hrest hbefore
      · cases htail
        exact absurd rfl (hdeaf _ hs).1
    · rcases harr.behind hback hbefore with ⟨-, -, -, hdata⟩ | ⟨s, hs, htail⟩
      · cases hdata _ hreceived
      · cases htail
        refine .done rfl ?_ ((kept hi nofun).trans hgave) hr (r.downs_seen.trans hrdowns) ?_ ?_
        · simp [Side.next, hidowns]
        · simp
        · simp
    · rcases harr.behind hback hbefore with ⟨-, -, -, hdata⟩ | ⟨s, hs, htail⟩
      · cases hdata _ hclose
      · cases htail
        cases hs.symm.trans hclose
  | done hi hidowns hgave hr hrdowns hout hback =>
    obtain ⟨rfl, rfl, rfl⟩ := hstep.of_closed hi
    rw [List.append_nil]
    exact .done hi (i.downs_seen.trans hidowns) ((kept hi nofun).trans hgave) hr
      (r.downs_seen.trans hrdowns) hout fun s hs => hback s (harr.rest_subset s hs)

theorem Progress.responderMoves (h : Progress i r out back) (harr : Arrives out received rest)
    (hstep : r.party.Step asked received p sent downs) (hnever : p.stage ≠ .closing) :
    Progress i.seen (r.next asked p downs) rest (back ++ sent) := by
  cases h with
  | lost h => exact .lost (h.imp (·.seen) (·.next hstep))
  | talking hi hr hout hback =>
    have hrest : ∀ s ∈ rest, s = .data := fun s hs => hout s (harr.rest_subset s hs)
    have hdata : ∀ s, received = some s → s = .data := fun s hs => hout s (harr.received_mem s hs)
    cases hstep with
    | works _ _ hsent =>
      exact .talking hi.seen (hr.next (.inl rfl)) hrest (forall_mem_append_data hback hsent)
    | joins _ hsent =>
      exact .talking hi.seen (hr.next (.inr rfl)) hrest (forall_mem_append_data hback hsent)
    | initiates | fails => exact absurd rfl hnever
    | abandons hopening => exact .lost (.inr (hr.missed hopening (.inr rfl)))
    | answers | loses => cases hdata _ rfl
    | deaf hstage =>
      rcases hr.stage with h | h <;> rw [h] at hstage <;> simp at hstage
    | concludes hstage => exact absurd hr.stage (by simp [hstage])
  | announced hi hidowns hgave hr hout hbefore hback =>
    have hidowns := i.downs_seen.trans hidowns
    have hgave := i.gave_seen.trans hgave
    cases hstep with
    | works _ hreceived hsent =>
      rcases harr.behind hout hbefore with ⟨before, hrest, hbefore, -⟩ | ⟨s, hs, htail⟩
      · exact .announced hi hidowns hgave (hr.next (.inl rfl)) hrest hbefore
          (forall_mem_append_data hback hsent)
      · cases htail
        cases hreceived _ hs
    | joins _ hsent =>
      rcases harr.behind hout hbefore with ⟨before, hrest, hbefore, -⟩ | ⟨s, hs, htail⟩
      · exact .announced hi hidowns hgave (hr.next (.inr rfl)) hrest hbefore
          (forall_mem_append_data hback hsent)
      · cases htail
        cases hs
    | initiates | fails => exact absurd rfl hnever
    | abandons hopening => exact .lost (.inr (hr.missed hopening (.inr rfl)))
    | answers =>
      rcases harr.behind hout hbefore with ⟨-, -, -, hdata⟩ | ⟨s, hs, htail⟩
      · cases hdata _ rfl
      · cases htail
        cases hs
        exact .answered hi hidowns hgave rfl (by simp [Side.next, hr.downs]; rfl) rfl rfl hback
    | loses =>
      rcases harr.behind hout hbefore with ⟨-, -, -, hdata⟩ | ⟨s, hs, htail⟩
      · cases hdata _ rfl
      · cases htail
        cases hs
    | deaf hstage =>
      rcases hr.stage with h | h <;> rw [h] at hstage <;> simp at hstage
    | concludes hstage => exact absurd hr.stage (by simp [hstage])
  | answered hi hidowns hgave hr hrdowns hout hback hbefore =>
    obtain ⟨rfl, rfl, rfl⟩ := hstep.of_closed hr
    subst hout
    cases harr with
    | locally =>
      rw [List.append_nil]
      exact .answered hi (i.downs_seen.trans hidowns) (i.gave_seen.trans hgave) hr
        (r.downs_seen.trans hrdowns) rfl hback hbefore
    | delivered h => cases h
  | done hi hidowns hgave hr hrdowns hout hback =>
    obtain ⟨rfl, rfl, rfl⟩ := hstep.of_closed hr
    rw [List.append_nil]
    exact .done hi (i.downs_seen.trans hidowns) (i.gave_seen.trans hgave) hr
      (r.downs_seen.trans hrdowns)
      (fun s hs => hout s (harr.rest_subset s hs)) hback

theorem Progress.seen (h : Progress i r out back) : Progress i.seen r.seen out back := by
  cases h with
  | lost h => exact .lost (h.imp (·.seen) (·.seen))
  | talking hi hr hout hback => exact .talking hi.seen hr.seen hout hback
  | announced hi hidowns hgave hr hout hbefore hback =>
    exact .announced hi (i.downs_seen.trans hidowns) (i.gave_seen.trans hgave) hr.seen hout hbefore
      hback
  | answered hi hidowns hgave hr hrdowns hout hback hbefore =>
    exact .answered hi (i.downs_seen.trans hidowns) (i.gave_seen.trans hgave) hr
      (r.downs_seen.trans hrdowns) hout hback hbefore
  | done hi hidowns hgave hr hrdowns hout hback =>
    exact .done hi (i.downs_seen.trans hidowns) (i.gave_seen.trans hgave) hr
      (r.downs_seen.trans hrdowns) hout hback

/-- When nothing is under way any more, both sides that worked have ended, once each, with
the one code that the initiator was asked for. -/
theorem Progress.settled (h : Progress i r [] []) (hi : i.joined = true) (hr : r.joined = true)
    (hended : i.party.stage = .closing ∨ i.party.stage = .closed) :
    i.party.stage = .closed ∧ r.party.stage = .closed ∧
      ∃ code, i.gave = [some code] ∧ i.downs = [code] ∧ r.downs = [code] := by
  cases h with
  | lost h =>
    rcases h with h | h
    · cases hi.symm.trans h.2
    · cases hr.symm.trans h.2
  | talking hlive =>
    rcases hlive.stage with h | h <;> rw [h] at hended <;> simp at hended
  | announced _ _ _ _ hout => simp at hout
  | answered _ _ _ _ _ _ hback => simp at hback
  | done hi hidowns hgave hr hrdowns => exact ⟨hi, hr, _, hgave, hidowns, hrdowns⟩

end Moves

/-! ## Pairs -/

/-- One step of two parties, each with the queue of what is under way to it. -/
inductive PairStep (a b : Side γ) (toA toB : List (Signal γ)) :
    Side γ → Side γ → List (Signal γ) → List (Signal γ) → Prop where
  | nothing : PairStep a b toA toB a.seen b.seen toA toB
  | left {asked received rest p sent downs toB'} (harr : Arrives toA received rest)
      (hstep : a.party.Step asked received p sent downs) (hsent : toB' = toB ++ sent) :
      PairStep a b toA toB (a.next asked p downs) b.seen rest toB'
  | right {asked received rest p sent downs toA'} (harr : Arrives toB received rest)
      (hstep : b.party.Step asked received p sent downs) (hsent : toA' = toA ++ sent) :
      PairStep a b toA toB a.seen (b.next asked p downs) toA' rest

namespace PairStep

variable {a b a' b' : Side γ} {toA toB toA' toB' : List (Signal γ)}

theorem swap (h : PairStep a b toA toB a' b' toA' toB') :
    PairStep b a toB toA b' a' toB' toA' := by
  cases h with
  | nothing => exact .nothing
  | left harr hstep hsent => exact .right harr hstep hsent
  | right harr hstep hsent => exact .left harr hstep hsent

/-- A step keeps the progress of a handshake that only the left side initiates. -/
theorem progress (h : PairStep a b toA toB a' b' toA' toB') (hp : Progress a b toB toA)
    (hnever : b'.party.stage ≠ .closing) : Progress a' b' toB' toA' := by
  cases h with
  | nothing => exact hp.seen
  | left harr hstep hsent =>
    subst hsent
    exact hp.initiatorMoves harr hstep
  | right harr hstep hsent =>
    subst hsent
    exact hp.responderMoves harr hstep hnever

/-- What has ended stays so. -/
theorem ended (h : PairStep a b toA toB a' b' toA' toB')
    (ha : a.party.stage = .closing ∨ a.party.stage = .closed) :
    a'.party.stage = .closing ∨ a'.party.stage = .closed := by
  cases h with
  | nothing | right => exact ha
  | left _ hstep => exact (hstep.ended ha).1

end PairStep

end Closing
