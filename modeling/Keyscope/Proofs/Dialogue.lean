/-
# Dialogues

A session asks a network, hears an answer, and decides what to ask next; it sees nothing else of the
network.  So it is a tree: in every place there is a result, or a step with one branch for each
answer (`Dialogue`).  Hanging up is one step, and it has one branch: whatever closing and
disconnecting are answered, a session does not hear of it.

What a dialogue exchanges with a network, and with what result, can be said without a network
(`Dialogue.Logs`), and every run keeps to it (`run_observed`).  So both kinds of facts about sessions
come from one induction on the tree: what is exchanged in what order, and that the result follows
from the answers (`Dialogue.Logs.determined`).

`Spoken` is what later proofs use: a session that is a dialogue, whose results and exchanges are of a
kind.  `Returns` is the same of a session that never fails.  Section 5 has the rules for both, one for
each way of building a session.
-/
import Mathlib.Tactic.Common
import Keyscope.Network
import Keyscope.Proofs.Session

namespace Keyscope

variable {σ τ α β : Type}

/-! ## 1. What is exchanged -/

/-- A request that was sent to a target, with its outcome, or a reading of the clock. -/
inductive Exchange where
  | sent (target : Target) (request : Request) (outcome : Except Failure Value)
  | timed (target : Target) (reading : Option Quantity)

/-- Whether a request ends a connection. -/
def Request.isEnding : Request → Bool
  | .close => true
  | .disconnect => true
  | _ => false

/-- Whether an exchange ends a connection. -/
def Exchange.isEnding : Exchange → Bool
  | sent _ r _ => r.isEnding
  | timed _ _ => false

/-- The exchanges that do not end a connection. -/
def Exchange.kept (l : List Exchange) : List Exchange := l.filter (!·.isEnding)

@[simp] theorem Exchange.kept_append (l l' : List Exchange) : kept (l ++ l') = kept l ++ kept l' :=
  List.filter_append l l'

/-- The same network, which also keeps what was exchanged with it, in order. -/
def Network.observed (net : Network σ) : Network (σ × List Exchange) where
  server t r s :=
    let (outcome, next) := net.server t r s.1
    (outcome, next, s.2 ++ [.sent t r outcome])
  clock t s :=
    let (reading, next) := net.clock t s.1
    (reading, next, s.2 ++ [.timed t reading])

namespace Network

@[simp] theorem observed_server (net : Network σ) (t : Target) (r : Request)
    (s : σ × List Exchange) : net.observed.server t r s =
      ((net.server t r s.1).1, (net.server t r s.1).2, s.2 ++ [.sent t r (net.server t r s.1).1]) :=
  rfl

end Network

/-! ## 2. Trees -/

namespace Dialogue

/-- One thing that a session does with a network. -/
inductive Step where
  | ask (target : Target) (request : Request)
  | time (target : Target)
  | hangUp (target : Target)

/-- What a session hears of a step. -/
abbrev Step.Answer : Step → Type
  | ask _ _ => Except Failure Value
  | time _ => Option Quantity
  | hangUp _ => Unit

/-- A step over a network. -/
def Step.perform (net : Network σ) : (step : Step) → Session σ step.Answer
  | ask t r => ((net.server t).ask r).outcome
  | time t => net.now t
  | hangUp t => (net.server t).hangUp

/-- What is exchanged in a step with an answer. -/
inductive Step.Logs : (step : Step) → step.Answer → List Exchange → Prop
  | ask (t : Target) (r : Request) (outcome : Except Failure Value) :
    Logs (.ask t r) outcome [.sent t r outcome]
  | time (t : Target) (reading : Option Quantity) : Logs (.time t) reading [.timed t reading]
  /-- Closing fails, and that is the end of it. -/
  | broken (t : Target) (e : Failure) : Logs (.hangUp t) () [.sent t .close (.error e)]
  | ended (t : Target) (v : Value) (outcome : Except Failure Value) :
    Logs (.hangUp t) () [.sent t .close (.ok v), .sent t .disconnect outcome]

/-- Connections are ended by hanging up and in no other way. -/
def Step.IsPlain : Step → Prop
  | ask _ r => r.isEnding = false
  | _ => True

end Dialogue

/-- **What a session does next, for everything that it may have heard so far.** -/
inductive Dialogue (α : Type) where
  | done (result : Except Failure α)
  | step (step : Dialogue.Step) (next : step.Answer → Dialogue α)

namespace Dialogue

/-- A dialogue over a network. -/
def on (net : Network σ) : Dialogue α → Session σ α
  | done result => Session.ofExcept result
  | step s next => s.perform net >>= fun answer => (next answer).on net

/-- A dialogue, and then one that depends on its result; a failure ends both. -/
def andThen : Dialogue α → (α → Dialogue β) → Dialogue β
  | done (.ok a), f => f a
  | done (.error e), _ => done (.error e)
  | step s next, f => step s fun answer => (next answer).andThen f

/-- A dialogue whose failure is a result. -/
def caught : Dialogue α → Dialogue (Except Failure α)
  | done result => done (.ok result)
  | step s next => step s fun answer => (next answer).caught

/-- **What is exchanged in a dialogue** that comes to a result. -/
inductive Logs : Dialogue α → Except Failure α → List Exchange → Prop
  | done (result : Except Failure α) : Logs (done result) result []
  | step {s : Step} {next : s.Answer → Dialogue α} {answer : s.Answer} {l l' : List Exchange}
    {result : Except Failure α} (hstep : s.Logs answer l) (hnext : Logs (next answer) result l') :
    Logs (step s next) result (l ++ l')

/-- All steps are plain. -/
inductive Plain : Dialogue α → Prop
  | done (result : Except Failure α) : Plain (done result)
  | step {s : Step} {next : s.Answer → Dialogue α} (hs : s.IsPlain)
    (hnext : ∀ answer, Plain (next answer)) : Plain (step s next)

theorem on_andThen (net : Network σ) (d : Dialogue α) (f : α → Dialogue β) :
    (d.andThen f).on net = d.on net >>= fun a => (f a).on net := by
  induction d with
  | done result => cases result <;> rfl
  | step s next ih =>
    simp only [andThen, on, bind_assoc]
    congr 1
    funext answer
    exact ih answer

/-- A step always has an answer. -/
theorem Step.exists_answer (net : Network σ) (step : Step) (s : σ) :
    ∃ answer next, (step.perform net).run s = (.ok answer, next) := by
  cases step with
  | ask t r => exact ⟨_, _, rfl⟩
  | time t => exact ⟨_, _, rfl⟩
  | hangUp t =>
    refine ⟨(), ((net.server t).hangUp.run s).2, ?_⟩
    simp only [perform, Server.hangUp, Session.run_bind, Session.run_outcome, Session.run_pure]

theorem on_caught (net : Network σ) (d : Dialogue α) : d.caught.on net = (d.on net).outcome := by
  induction d with
  | done result => rfl
  | step step next ih =>
    refine Session.ext fun s => ?_
    obtain ⟨answer, mid, hanswer⟩ := step.exists_answer net s
    have hrun : (on net (Dialogue.step step next)).run s = ((next answer).on net).run mid :=
      Session.run_bind_ok hanswer _
    rw [caught, on, Session.run_bind_ok hanswer, ih answer, Session.run_outcome,
      Session.run_outcome, hrun]

section Plain

variable {d : Dialogue α}

theorem Plain.andThen {f : α → Dialogue β} (hd : d.Plain) (hf : ∀ a, (f a).Plain) :
    (d.andThen f).Plain := by
  induction hd with
  | done result =>
    cases result with
    | ok a => exact hf a
    | error e => exact .done _
  | step hs _ ih => exact .step hs ih

theorem Plain.caught (hd : d.Plain) : d.caught.Plain := by
  induction hd with
  | done result => exact .done _
  | step hs _ ih => exact .step hs ih

end Plain

/-! ## 3. What is exchanged in a dialogue -/

/-- What is exchanged in two dialogues is what is exchanged in the first, and then, unless that
fails, in the second. -/
theorem Logs.andThen_cases {d : Dialogue α} {f : α → Dialogue β} {result : Except Failure β}
    {l : List Exchange} (h : (d.andThen f).Logs result l) :
    (∃ e, d.Logs (.error e) l ∧ result = .error e) ∨
    ∃ a l₁ l₂, d.Logs (.ok a) l₁ ∧ (f a).Logs result l₂ ∧ l = l₁ ++ l₂ := by
  induction d generalizing l with
  | done r =>
    cases r with
    | ok a => exact .inr ⟨a, [], l, .done _, h, rfl⟩
    | error e =>
      cases h
      exact .inl ⟨e, .done _, rfl⟩
  | step s next ih =>
    cases h with
    | @step _ _ answer l₁ l₂ _ hstep hnext =>
      rcases ih answer hnext with ⟨e, herror, rfl⟩ | ⟨a, l₃, l₄, hd, hf, rfl⟩
      · exact .inl ⟨e, .step hstep herror, rfl⟩
      · exact .inr ⟨a, l₁ ++ l₃, l₄, .step hstep hd, hf, (List.append_assoc ..).symm⟩

theorem Logs.caught_cases {d : Dialogue α} {result : Except Failure (Except Failure α)}
    {l : List Exchange} (h : d.caught.Logs result l) : ∃ r, d.Logs r l ∧ result = .ok r := by
  induction d generalizing l with
  | done r =>
    cases h
    exact ⟨r, .done r, rfl⟩
  | step s next ih =>
    cases h with
    | @step _ _ answer l₁ l₂ _ hstep hnext =>
      obtain ⟨r, hr, rfl⟩ := ih answer hnext
      exact ⟨r, .step hstep hr, rfl⟩

/-- What is exchanged in a step goes to the end of what was exchanged before. -/
theorem Step.run_observed (net : Network σ) (step : Step) (s : σ × List Exchange) :
    ∃ answer next l, (step.perform net.observed).run s = (.ok answer, next, s.2 ++ l) ∧
      step.Logs answer l := by
  cases step with
  | ask t r => exact ⟨_, _, _, rfl, .ask t r _⟩
  | time t => exact ⟨_, _, _, rfl, .time t _⟩
  | hangUp t =>
    simp only [perform, Server.hangUp, Session.run_bind, Session.run_outcome, Session.run_pure,
      Session.run_ask, Network.observed_server]
    rcases net.server t .close s.1 with ⟨e | v, closed⟩
    · exact ⟨(), closed, _, rfl, .broken t e⟩
    · refine ⟨(), (net.server t .disconnect closed).2, _, ?_,
        .ended t v (net.server t .disconnect closed).1⟩
      simp only [List.append_assoc]
      rfl

/-- **Whatever a network answers**, what is exchanged is what the dialogue can exchange. -/
theorem run_observed (net : Network σ) (d : Dialogue α) (s : σ × List Exchange) :
    ∃ result next l, (d.on net.observed).run s = (result, next, s.2 ++ l) ∧ d.Logs result l := by
  induction d generalizing s with
  | done result => exact ⟨result, s.1, [], by rw [List.append_nil]; rfl, .done result⟩
  | step step next ih =>
    obtain ⟨answer, mid, l, hanswer, hl⟩ := step.run_observed net s
    obtain ⟨result, last, l', hrun, hl'⟩ := ih answer (mid, s.2 ++ l)
    refine ⟨result, last, l ++ l', ?_, .step hl hl'⟩
    rw [on, Session.run_bind_ok hanswer, hrun, List.append_assoc]

/-! ## 4. Answers decide -/

/-- Nothing is kept of hanging up. -/
theorem Step.Logs.kept_hangUp {t : Target} {l : List Exchange}
    (h : (Step.hangUp t).Logs () l) : Exchange.kept l = [] := by
  cases h <;> rfl

/-- **The answers decide.**  Where all that is exchanged is the same, except perhaps how connections
ended, the results are the same. -/
theorem Logs.determined {d : Dialogue α} (hd : d.Plain) {result result' : Except Failure α}
    {l l' : List Exchange} (h : d.Logs result l) (h' : d.Logs result' l')
    (hsame : Exchange.kept l = Exchange.kept l') : result = result' := by
  induction hd generalizing l l' with
  | done r =>
    cases h
    cases h'
    rfl
  | @step s next hs _ ih =>
    cases h with
    | @step _ _ answer l₁ l₂ _ hstep hnext =>
    cases h' with
    | @step _ _ answer' l₁' l₂' _ hstep' hnext' =>
      rw [Exchange.kept_append, Exchange.kept_append] at hsame
      cases s with
      | ask t r =>
        cases hstep
        cases hstep'
        have hkept : ∀ outcome, Exchange.kept [.sent t r outcome] = [.sent t r outcome] := by
          intro outcome
          simp [Exchange.kept, Exchange.isEnding, show r.isEnding = false from hs]
        rw [hkept, hkept] at hsame
        obtain ⟨hfirst, hrest⟩ := List.cons.inj hsame
        obtain rfl := (Exchange.sent.inj hfirst).2.2
        exact ih _ hnext hnext' hrest
      | time t =>
        cases hstep
        cases hstep'
        obtain ⟨hfirst, hrest⟩ := List.cons.inj hsame
        obtain rfl := (Exchange.timed.inj hfirst).2
        exact ih _ hnext hnext' hrest
      | hangUp t =>
        rw [hstep.kept_hangUp, hstep'.kept_hangUp] at hsame
        exact ih () hnext hnext' hsame

end Dialogue

/-- Networks that differ in nothing but what they answer when a connection is ended. -/
structure Network.PartsLike (net other : Network σ) : Prop where
  server : ∀ t r s, r.isEnding = false → other.server t r s = net.server t r s
  clock : other.clock = net.clock

namespace Dialogue

/-- Every answer to a step can be exchanged. -/
theorem Step.exists_logs (step : Step) (answer : step.Answer) : ∃ l, step.Logs answer l := by
  cases step with
  | ask t r => exact ⟨_, .ask t r answer⟩
  | time t => exact ⟨_, .time t answer⟩
  | hangUp t => exact ⟨_, .ended t .null (.ok .null)⟩

/-- Something can be exchanged in every dialogue. -/
theorem exists_logs (d : Dialogue α) : ∃ result l, d.Logs result l := by
  obtain ⟨result, _, l, -, hlogs⟩ := d.run_observed Network.unplugged ((), [])
  exact ⟨result, l, hlogs⟩

/-- **A dialogue that ends no connection is the same** over networks that differ only there. -/
theorem on_congr {d : Dialogue α} {net other : Network σ} (hsame : net.PartsLike other)
    (h : ∀ result l, d.Logs result l → ∀ e ∈ l, e.isEnding = false) : d.on other = d.on net := by
  induction d with
  | done result => rfl
  | step step next ih =>
    have hnext : ∀ answer, (next answer).on other = (next answer).on net := by
      intro answer
      obtain ⟨l, hl⟩ := step.exists_logs answer
      refine ih answer fun result l' hl' e he => ?_
      exact h result _ (.step hl hl') e (List.mem_append_right l he)
    have hperform : step.perform other = step.perform net := by
      cases step with
      | ask t r =>
        obtain ⟨result, l, hl⟩ := (next (.ok .null)).exists_logs
        have hr : r.isEnding = false := h result _ (.step (.ask t r _) hl) _ List.mem_cons_self
        refine Session.ext fun s => ?_
        simp only [Step.perform, Session.run_outcome, Session.run_ask, hsame.server t r s hr]
      | time t => simp only [Step.perform, Network.now, hsame.clock]
      | hangUp t =>
        obtain ⟨result, l, hl⟩ := (next ()).exists_logs
        cases h result _ (.step (.ended t .null (.ok .null)) hl) _ List.mem_cons_self
    simp only [on, hperform, hnext]

end Dialogue

/-! ## 5. Sessions that are dialogues -/

/-- **A session is a dialogue**, and its results go with what is exchanged in it: whatever it is
answered, they are related. -/
def Spoken (Q : Except Failure α → List Exchange → Prop) (x : ∀ σ : Type, Network σ → Session σ α) :
    Prop :=
  ∃ d : Dialogue α, d.Plain ∧ (∀ result l, d.Logs result l → Q result l) ∧
    ∀ (σ : Type) (net : Network σ), x σ net = d.on net

namespace Spoken

variable {Q : Except Failure α → List Exchange → Prop} {x : ∀ σ : Type, Network σ → Session σ α}

/-- **Every run of a dialogue** has exchanges that go with its result. -/
theorem runs (h : Spoken Q x) (net : Network σ) (s : σ × List Exchange) :
    ∃ result next l, (x _ net.observed).run s = (result, next, s.2 ++ l) ∧ Q result l := by
  obtain ⟨d, -, hQ, hx⟩ := h
  obtain ⟨result, next, l, hrun, hlogs⟩ := d.run_observed net s
  exact ⟨result, next, l, by rw [hx, hrun], hQ result l hlogs⟩

/-- **Two runs of a dialogue that were answered alike have one result**, however their connections
ended. -/
theorem determined (h : Spoken Q x) {net : Network σ} {other : Network τ} {s next : σ × List Exchange}
    {s' next' : τ × List Exchange} {result result' : Except Failure α} {l l' : List Exchange}
    (hrun : (x _ net.observed).run s = (result, next)) (hl : next.2 = s.2 ++ l)
    (hrun' : (x _ other.observed).run s' = (result', next')) (hl' : next'.2 = s'.2 ++ l')
    (hsame : Exchange.kept l = Exchange.kept l') : result = result' := by
  obtain ⟨d, hplain, -, hx⟩ := h
  rw [hx] at hrun hrun'
  obtain ⟨r, n, k, hd, hlogs⟩ := d.run_observed net s
  obtain ⟨r', n', k', hd', hlogs'⟩ := d.run_observed other s'
  rw [hd] at hrun
  rw [hd'] at hrun'
  obtain ⟨rfl, rfl⟩ := Prod.mk.inj hrun
  obtain ⟨rfl, rfl⟩ := Prod.mk.inj hrun'
  obtain rfl := List.append_cancel_left hl
  obtain rfl := List.append_cancel_left hl'
  exact hlogs.determined hplain hlogs' hsame

/-- What goes with results may be said more weakly. -/
theorem mono {Q' : Except Failure α → List Exchange → Prop} (h : Spoken Q x)
    (hQ : ∀ result l, Q result l → Q' result l) : Spoken Q' x := by
  obtain ⟨d, hplain, hlogs, hx⟩ := h
  exact ⟨d, hplain, fun result l hl => hQ result l (hlogs result l hl), hx⟩

theorem ofExcept {result : Except Failure α} (hQ : Q result []) :
    Spoken Q fun _ _ => Session.ofExcept result := by
  refine ⟨.done result, .done result, fun r l hl => ?_, fun _ _ => rfl⟩
  cases hl
  exact hQ

theorem pure {a : α} (hQ : Q (.ok a) []) : Spoken Q fun _ _ => Pure.pure a := ofExcept hQ

theorem throw {e : Failure} (hQ : Q (.error e) []) : Spoken Q fun _ _ => MonadExcept.throw e :=
  ofExcept hQ

/-- One request after which nothing is done. -/
theorem ask {Q : Except Failure Value → List Exchange → Prop} {t : Target} {r : Request}
    (hr : r.isEnding = false) (hQ : ∀ outcome, Q outcome [.sent t r outcome]) :
    Spoken Q fun _ net => (net.server t).ask r := by
  refine ⟨.step (.ask t r) .done, .step hr fun outcome => .done outcome, fun result l hl => ?_,
    fun σ net => rfl⟩
  cases hl with
  | step hstep hnext =>
    cases hstep
    cases hnext
    exact hQ _

/-- One session after another.  Either the first fails, and that is all, or what is exchanged in both
goes with the result of the second. -/
theorem bind {S : Except Failure β → List Exchange → Prop}
    {f : ∀ σ : Type, Network σ → α → Session σ β} (hx : Spoken Q x)
    (herror : ∀ e l, Q (.error e) l → S (.error e) l)
    (hf : ∀ a, Spoken (fun result l' => ∀ l, Q (.ok a) l → S result (l ++ l'))
      fun σ net => f σ net a) : Spoken S fun σ net => x σ net >>= f σ net := by
  obtain ⟨d, hplain, hQ, hx⟩ := hx
  choose g hg hS hf using hf
  refine ⟨d.andThen g, hplain.andThen hg, fun result l hl => ?_, fun σ net => ?_⟩
  · rcases hl.andThen_cases with ⟨e, he, rfl⟩ | ⟨a, l₁, l₂, ha, hr, rfl⟩
    · exact herror e l (hQ _ _ he)
    · exact hS a result l₂ hr l₁ (hQ _ _ ha)
  · simp only [hx, Dialogue.on_andThen]
    congr 1
    funext a
    exact hf a σ net

end Spoken

/-- **A session is a dialogue that never fails**, and its results go with what is exchanged in it. -/
def Returns (P : α → List Exchange → Prop) (x : ∀ σ : Type, Network σ → Session σ α) : Prop :=
  Spoken (fun outcome l => ∃ a, outcome = .ok a ∧ P a l) x

namespace Returns

variable {P : α → List Exchange → Prop} {x : ∀ σ : Type, Network σ → Session σ α}

theorem pure {a : α} (hP : P a []) : Returns P fun _ _ => Pure.pure a := Spoken.pure ⟨a, rfl, hP⟩

theorem now (t : Target) : Returns (fun reading l => l = [.timed t reading]) fun _ net => net.now t := by
  refine ⟨.step (.time t) fun reading => .done (.ok reading), .step trivial fun _ => .done _,
    fun result l hl => ?_, fun σ net => rfl⟩
  cases hl with
  | step hstep hnext =>
    cases hstep
    cases hnext
    exact ⟨_, rfl, rfl⟩

theorem hangUp (t : Target) :
    Returns (fun _ l => (Dialogue.Step.hangUp t).Logs () l) fun _ net => (net.server t).hangUp := by
  refine ⟨.step (.hangUp t) fun _ => .done (.ok ()), .step trivial fun _ => .done _,
    fun result l hl => ?_, fun σ net => rfl⟩
  cases hl with
  | step hstep hnext =>
    cases hnext
    rw [List.append_nil]
    exact ⟨(), rfl, hstep⟩

/-- The outcome of a session is a result, also if it is a failure. -/
theorem outcome {Q : Except Failure α → List Exchange → Prop} (hx : Spoken Q x) :
    Returns Q fun σ net => (x σ net).outcome := by
  obtain ⟨d, hplain, hQ, hx⟩ := hx
  refine ⟨d.caught, hplain.caught, fun result l hl => ?_, fun σ net => ?_⟩
  · obtain ⟨r, hr, rfl⟩ := hl.caught_cases
    exact ⟨r, rfl, hQ r l hr⟩
  · simp only [hx, Dialogue.on_caught]

/-- What comes after a session that never fails is all that can. -/
theorem bind {S : Except Failure β → List Exchange → Prop}
    {f : ∀ σ : Type, Network σ → α → Session σ β} (hx : Returns P x)
    (hf : ∀ a, Spoken (fun result l' => ∀ l, P a l → S result (l ++ l')) fun σ net => f σ net a) :
    Spoken S fun σ net => x σ net >>= f σ net := by
  refine Spoken.bind hx ?_ fun a => (hf a).mono fun result l' h l hl => ?_
  · rintro e l ⟨a, ha, -⟩
    cases ha
  · obtain ⟨b, hb, hP⟩ := hl
    obtain rfl := Except.ok.inj hb
    exact h l hP

/-- **Sessions that never fail, one for each member of a list**: they have a result each, and what is
exchanged is what is exchanged in them, in order. -/
theorem mapM {R : α → β → List Exchange → Prop} {f : ∀ σ : Type, Network σ → α → Session σ β}
    (hf : ∀ a, Returns (R a) fun σ net => f σ net a) (as : List α) :
    Returns (fun bs l => ∃ made : List (β × List Exchange), bs = made.map Prod.fst ∧
        l = made.flatMap Prod.snd ∧ List.Forall₂ (fun a m => R a m.1 m.2) as made)
      fun σ net => as.mapM (f σ net) := by
  induction as with
  | nil => exact pure ⟨[], rfl, rfl, .nil⟩
  | cons a as ih =>
    simp only [List.mapM_cons]
    refine (hf a).bind fun b => ih.bind fun bs => Spoken.pure ?_
    rintro _ ⟨made, rfl, rfl, hall⟩ l hR
    exact ⟨_, rfl, (b, l) :: made, rfl, by rw [List.append_nil, List.flatMap_cons], .cons hR hall⟩

end Returns

end Keyscope
