-- SUMMARY: Request/response transactions: ledgers, exchanges, what a history implies, and conservation across two queues.
import Mathlib.Data.List.Count
import Mathlib.Logic.Function.Basic

/-!
# Request/response transactions

A party keeps at most one own request open per scope and answers the requests it
accepts, at once or later. `Exchange` lists what one turn of such a party can do
to its ledger. Two consequences are derived here for any scopes and kinds:

* along a history of turns the ledger is the difference between what was asked and
  what was answered, so requests are serialized and responses matched;
* between two parties joined by queues, every open request is in exactly one
  place: on its way out, on its way back as a response, or owed by the peer.
-/

namespace Transaction

variable {κ τ : Type}

/-- What a message means to the transaction model. -/
inductive Role (κ τ : Type) where
  | request (scope : κ) (kind : τ)
  | response (scope : κ) (kind : τ)
  | other
  deriving DecidableEq, Repr

/-- Own open requests, and accepted requests still to be answered. -/
@[ext] structure Ledger (κ τ : Type) where
  pending : κ → Option τ
  owed : κ → Option τ

/-- Nothing open, nothing owed. -/
def Ledger.empty : Ledger κ τ := ⟨fun _ => none, fun _ => none⟩

/-- One turn: the message accepted, if any, and the messages sent. -/
structure Turn (κ τ : Type) where
  accepted : Option (Role κ τ)
  sent : List (Role κ τ)

section

variable [DecidableEq κ]

/-- Everything one turn may do to a ledger, for a party that defers the requests of
the kinds `defers`. -/
inductive Exchange (defers : τ → Prop) (l : Ledger κ τ) : Turn κ τ → Ledger κ τ → Prop where
  | idle {accepted sent} (haccepted : accepted = none ∨ accepted = some .other)
      (hsent : ∀ r ∈ sent, r = .other) : Exchange defers l ⟨accepted, sent⟩ l
  | ask {scope kind} (hfree : l.pending scope = none) (howed : l.owed scope = none) :
      Exchange defers l ⟨none, [.request scope kind]⟩
        { l with pending := Function.update l.pending scope (some kind) }
  | settle {scope kind sent} (hopen : l.pending scope = some kind) (hsent : ∀ r ∈ sent, r = .other) :
      Exchange defers l ⟨some (.response scope kind), sent⟩
        { l with pending := Function.update l.pending scope none }
  | answer {scope kind} (hnow : ¬ defers kind) (howed : l.owed scope = none) :
      Exchange defers l ⟨some (.request scope kind), [.response scope kind]⟩ l
  | defer {scope kind} (hlater : defers kind) (howed : l.owed scope = none) :
      Exchange defers l ⟨some (.request scope kind), []⟩
        { l with owed := Function.update l.owed scope (some kind) }
  | release {scope kind} (howed : l.owed scope = some kind) :
      Exchange defers l ⟨none, [.response scope kind]⟩
        { l with owed := Function.update l.owed scope none }

/-! ## Histories -/

/-- A history of exchanges from the empty ledger. -/
inductive History (defers : τ → Prop) : List (Turn κ τ) → Ledger κ τ → Prop where
  | nil : History defers [] .empty
  | snoc {history l t l'} (h : History defers history l) (hx : Exchange defers l t l') :
      History defers (history ++ [t]) l'

variable {defers : τ → Prop}

section Turns

variable {l l' : Ledger κ τ} {t : Turn κ τ} {scope : κ} {kind : τ}

/-- A turn that accepts a request finds every earlier one of its scope answered. -/
theorem Exchange.discharged (hx : Exchange defers l t l')
    (ht : t.accepted = some (.request scope kind)) : l.owed scope = none := by
  cases hx with
  | idle haccepted => rcases haccepted with rfl | rfl <;> cases ht
  | answer _ howed | defer _ howed =>
    cases ht
    exact howed
  | ask | settle | release => cases ht

/-- A turn that accepts a request it does not defer sends the response and nothing else. -/
theorem Exchange.answered (hx : Exchange defers l t l')
    (ht : t.accepted = some (.request scope kind)) (hnow : ¬ defers kind) :
    t.sent = [.response scope kind] := by
  cases hx with
  | idle haccepted => rcases haccepted with rfl | rfl <;> cases ht
  | answer =>
    cases ht
    rfl
  | defer hlater =>
    cases ht
    exact absurd hlater hnow
  | ask | settle | release => cases ht

/-- A turn that accepts a response has the request open. -/
theorem Exchange.matched (hx : Exchange defers l t l')
    (ht : t.accepted = some (.response scope kind)) : l.pending scope = some kind := by
  cases hx with
  | idle haccepted => rcases haccepted with rfl | rfl <;> cases ht
  | settle hopen =>
    cases ht
    exact hopen
  | ask | answer | defer | release => cases ht

/-- A turn that sends a request finds its scope free and sends nothing else. -/
theorem Exchange.asked (hx : Exchange defers l t l') (hr : .request scope kind ∈ t.sent) :
    t.sent = [.request scope kind] ∧ l.pending scope = none ∧ l.owed scope = none := by
  cases hx with
  | idle _ hsent | settle _ hsent => cases hsent _ hr
  | ask hfree howed =>
    cases List.mem_singleton.mp hr
    exact ⟨rfl, hfree, howed⟩
  | answer | release => cases List.mem_singleton.mp hr
  | defer => cases hr

end Turns

section Points

variable {history : List (Turn κ τ)} {l : Ledger κ τ}

/-- The beginning of a history is a history. -/
theorem History.initial (h : History defers history l) :
    ∀ past, past <+: history → ∃ m, History defers past m := by
  induction h with
  | nil =>
    intro past hpre
    rw [List.prefix_nil.mp hpre]
    exact ⟨_, .nil⟩
  | @snoc history l t l' h hx ih =>
    intro past hpre
    rcases List.prefix_concat_iff.mp hpre with rfl | hpre
    · exact ⟨l', .snoc h hx⟩
    · exact ih past hpre

/-- At every point of a history, the next turn is an exchange with the ledger reached. -/
theorem History.point (h : History defers history l) {past : List (Turn κ τ)} {t : Turn κ τ}
    (hpre : past ++ [t] <+: history) : ∃ m m', History defers past m ∧ Exchange defers m t m' := by
  obtain ⟨m', hm⟩ := h.initial _ hpre
  generalize heq : past ++ [t] = beginning at hm
  cases hm with
  | nil => simp at heq
  | snoc hpast hx =>
    obtain ⟨rfl, ht⟩ := List.append_inj' heq rfl
    cases ht
    exact ⟨_, m', hpast, hx⟩

end Points

section Counting

variable [DecidableEq τ]

/-- How often a history sent a message of role `r`. -/
def sentCount (history : List (Turn κ τ)) (r : Role κ τ) : ℕ :=
  (history.flatMap Turn.sent).count r

/-- How often a history accepted a message of role `r`. -/
def acceptedCount (history : List (Turn κ τ)) (r : Role κ τ) : ℕ :=
  (history.filterMap Turn.accepted).count r

@[simp] theorem sentCount_nil (r : Role κ τ) : sentCount [] r = 0 := rfl

@[simp] theorem acceptedCount_nil (r : Role κ τ) : acceptedCount [] r = 0 := rfl

@[simp] theorem sentCount_append (h₁ h₂ : List (Turn κ τ)) (r : Role κ τ) :
    sentCount (h₁ ++ h₂) r = sentCount h₁ r + sentCount h₂ r := by
  simp [sentCount]

@[simp] theorem acceptedCount_append (h₁ h₂ : List (Turn κ τ)) (r : Role κ τ) :
    acceptedCount (h₁ ++ h₂) r = acceptedCount h₁ r + acceptedCount h₂ r := by
  simp [acceptedCount]

@[simp] theorem sentCount_singleton (t : Turn κ τ) (r : Role κ τ) :
    sentCount [t] r = t.sent.count r := by
  simp [sentCount]

@[simp] theorem acceptedCount_singleton (t : Turn κ τ) (r : Role κ τ) :
    acceptedCount [t] r = t.accepted.toList.count r := by
  cases h : t.accepted <;> simp [acceptedCount, h]

/-- No own request of the scope is unanswered. -/
def Settled (history : List (Turn κ τ)) (scope : κ) : Prop :=
  ∀ kind, sentCount history (.request scope kind) = acceptedCount history (.response scope kind)

/-- No accepted request of the scope is unanswered. -/
def Discharged (history : List (Turn κ τ)) (scope : κ) : Prop :=
  ∀ kind, acceptedCount history (.request scope kind) = sentCount history (.response scope kind)

theorem count_eq_zero_of_others {sent : List (Role κ τ)} (h : ∀ r ∈ sent, r = .other)
    {r : Role κ τ} (hr : r ≠ .other) : sent.count r = 0 :=
  List.count_eq_zero.mpr fun hmem => hr (h r hmem)

/-- What one turn adds to the two counts of a scope is what it does to the ledger. -/
theorem Exchange.account {l l' : Ledger κ τ} {t : Turn κ τ} (h : Exchange defers l t l') (scope : κ)
    (kind : τ) :
    t.sent.count (.request scope kind) + (if l.pending scope = some kind then 1 else 0) =
        t.accepted.toList.count (.response scope kind) +
          (if l'.pending scope = some kind then 1 else 0) ∧
      t.accepted.toList.count (.request scope kind) + (if l.owed scope = some kind then 1 else 0) =
        t.sent.count (.response scope kind) + (if l'.owed scope = some kind then 1 else 0) := by
  cases h with
  | idle haccepted hsent =>
    simp only [count_eq_zero_of_others hsent (r := .request scope kind) nofun,
      count_eq_zero_of_others hsent (r := .response scope kind) nofun]
    rcases haccepted with rfl | rfl <;> simp
  | settle hopen hsent =>
    simp only [count_eq_zero_of_others hsent (r := .request scope kind) nofun,
      count_eq_zero_of_others hsent (r := .response scope kind) nofun, Option.toList_some,
      List.count_cons, List.count_nil, Function.update_apply]
    grind
  | ask | answer | defer | release =>
    simp only [Option.toList_some, Option.toList_none, List.count_cons, List.count_nil,
      Function.update_apply]
    grind

variable {history : List (Turn κ τ)} {l : Ledger κ τ}

/-- The requests sent are those answered and the one the ledger keeps open. -/
theorem History.requests (h : History defers history l) (scope : κ) (kind : τ) :
    sentCount history (.request scope kind) = acceptedCount history (.response scope kind) +
      if l.pending scope = some kind then 1 else 0 := by
  induction h with
  | nil => rfl
  | snoc _ hx ih =>
    have hturn := (hx.account scope kind).1
    simp only [sentCount_append, acceptedCount_append, sentCount_singleton,
      acceptedCount_singleton, ih]
    omega

/-- The requests accepted are those answered and the one the ledger owes. -/
theorem History.debts (h : History defers history l) (scope : κ) (kind : τ) :
    acceptedCount history (.request scope kind) = sentCount history (.response scope kind) +
      if l.owed scope = some kind then 1 else 0 := by
  induction h with
  | nil => rfl
  | snoc _ hx ih =>
    have hturn := (hx.account scope kind).2
    simp only [sentCount_append, acceptedCount_append, sentCount_singleton,
      acceptedCount_singleton, ih]
    omega

theorem History.settled_iff (h : History defers history l) (scope : κ) :
    Settled history scope ↔ l.pending scope = none := by
  simp only [Settled, h.requests scope]
  cases l.pending scope <;> simp

theorem History.discharged_iff (h : History defers history l) (scope : κ) :
    Discharged history scope ↔ l.owed scope = none := by
  simp only [Discharged, h.debts scope]
  cases l.owed scope <;> simp

/-- Between two accepted requests of one scope and kind with no other between them,
exactly one response was sent. -/
theorem History.between (h : History defers history l) {scope : κ} {kind : τ}
    {past middle : List (Turn κ τ)} {t₁ t₂ : Turn κ τ}
    (hpre : past ++ [t₁] ++ middle ++ [t₂] <+: history)
    (h₁ : t₁.accepted = some (.request scope kind)) (h₂ : t₂.accepted = some (.request scope kind))
    (hmiddle : acceptedCount middle (.request scope kind) = 0) :
    sentCount ([t₁] ++ middle) (.response scope kind) = 1 := by
  have hpre₁ : past ++ [t₁] <+: history :=
    List.IsPrefix.trans ⟨middle ++ [t₂], by simp⟩ hpre
  obtain ⟨l₁, _, hpast, hx₁⟩ := h.point hpre₁
  obtain ⟨l₂, _, hmid, hx₂⟩ := h.point hpre
  have hd₁ := (hpast.discharged_iff scope).mpr (hx₁.discharged h₁) kind
  have hd₂ := (hmid.discharged_iff scope).mpr (hx₂.discharged h₂) kind
  simp only [acceptedCount_append, sentCount_append, acceptedCount_singleton, h₁,
    Option.toList_some, List.count_cons_self, List.count_nil] at hd₂ ⊢
  omega

end Counting

/-! ## Conservation between two parties -/

section Conservation

variable [DecidableEq τ]

/-- How many places hold an open request of party `a`: its request in the queue
`out` to `b`, the response in the queue `back` from `b`, or `b`'s debt. -/
def places (b : Ledger κ τ) (out back : List (Role κ τ)) (scope : κ) (kind : τ) : ℕ :=
  out.count (.request scope kind) + back.count (.response scope kind) +
    if b.owed scope = some kind then 1 else 0

/-- Every open request of `a` is in exactly one place, and nothing else is. -/
def Balanced (a b : Ledger κ τ) (out back : List (Role κ τ)) : Prop :=
  ∀ scope kind, places b out back scope kind = if a.pending scope = some kind then 1 else 0

theorem balanced_empty : Balanced (.empty : Ledger κ τ) .empty [] [] := by
  intro scope kind
  simp [places, Ledger.empty]

variable {a a' b : Ledger κ τ} {t : Turn κ τ} {out back rest : List (Role κ τ)}

section Places

variable {scope : κ} {kind : τ}

/-- What is in some place is open. -/
theorem Balanced.pending (h : Balanced a b out back) (hplaces : 0 < places b out back scope kind) :
    a.pending scope = some kind := by
  rw [h scope kind] at hplaces
  split at hplaces
  · assumption
  · cases hplaces

theorem Balanced.pending_of_request (h : Balanced a b out back)
    (hmem : .request scope kind ∈ out) : a.pending scope = some kind := by
  refine h.pending ?_
  have hcount := List.count_pos_iff.mpr hmem
  unfold places
  omega

theorem Balanced.pending_of_response (h : Balanced a b out back)
    (hmem : .response scope kind ∈ back) : a.pending scope = some kind := by
  refine h.pending ?_
  have hcount := List.count_pos_iff.mpr hmem
  unfold places
  omega

theorem Balanced.pending_of_owed (h : Balanced a b out back) (howed : b.owed scope = some kind) :
    a.pending scope = some kind := by
  refine h.pending ?_
  unfold places
  rw [if_pos howed]
  omega

/-- A request under way is not answered yet. -/
theorem Balanced.unanswered (h : Balanced a b out back) (hmem : .request scope kind ∈ out)
    (other : τ) : .response scope other ∉ back := by
  intro hback
  have hkind := (h.pending_of_request hmem).symm.trans (h.pending_of_response hback)
  cases hkind
  have hout := List.count_pos_iff.mpr hmem
  have hin := List.count_pos_iff.mpr hback
  have hone := h scope kind
  rw [if_pos (h.pending_of_request hmem)] at hone
  unfold places at hone
  omega

/-- A request under way is not owed yet. -/
theorem Balanced.unowed (h : Balanced a b out back) (hmem : .request scope kind ∈ out) :
    b.owed scope = none := by
  cases howed : b.owed scope with
  | none => rfl
  | some other =>
    have hkind := (h.pending_of_request hmem).symm.trans (h.pending_of_owed howed)
    cases hkind
    have hout := List.count_pos_iff.mpr hmem
    have hone := h scope kind
    rw [if_pos (h.pending_of_request hmem)] at hone
    unfold places at hone
    rw [if_pos howed] at hone
    omega

end Places

/-- A turn of `a` keeps its own requests balanced. -/
theorem Exchange.balanced (hx : Exchange defers a t a') (hback : back = t.accepted.toList ++ rest)
    (h : Balanced a b out back) : Balanced a' b (out ++ t.sent) rest := by
  intro s k
  have hsk := h s k
  subst hback
  cases hx with
  | idle haccepted hsent =>
    simp only [places, List.count_append, count_eq_zero_of_others hsent (r := .request s k) nofun]
      at hsk ⊢
    rcases haccepted with rfl | rfl <;> simpa using hsk
  | settle hopen hsent =>
    simp only [places, List.count_append, Option.toList_some, List.count_cons, List.count_nil,
      count_eq_zero_of_others hsent (r := .request s k) nofun, Function.update_apply] at hsk ⊢
    grind
  | ask | answer | defer | release =>
    simp only [places, List.count_append, Option.toList_some, Option.toList_none, List.count_cons,
      List.count_nil, Function.update_apply] at hsk ⊢
    grind

/-- A turn of `a` keeps its peer's requests balanced. -/
theorem Exchange.balanced_peer (hx : Exchange defers a t a') (hback : back = t.accepted.toList ++ rest)
    (h : Balanced b a back out) : Balanced b a' rest (out ++ t.sent) := by
  intro s k
  have hsk := h s k
  subst hback
  cases hx with
  | idle haccepted hsent =>
    simp only [places, List.count_append, count_eq_zero_of_others hsent (r := .response s k) nofun]
      at hsk ⊢
    rcases haccepted with rfl | rfl <;> simpa using hsk
  | settle hopen hsent =>
    simp only [places, List.count_append, Option.toList_some, List.count_cons, List.count_nil,
      count_eq_zero_of_others hsent (r := .response s k) nofun] at hsk ⊢
    grind
  | ask | answer | defer | release =>
    simp only [places, List.count_append, Option.toList_some, Option.toList_none, List.count_cons,
      List.count_nil, Function.update_apply] at hsk ⊢
    grind

end Conservation

end

end Transaction
