/-
# Workers at the same time

Several dialogues may be under way at the same time, each in the hands of a worker.  A worker has a
network of its own, but all of these share one state, so one worker may find that another one has been
there.  A turn is one step of one worker (`Crew.Turn`), and nothing is assumed of the order of turns:
a run is any list of workers, each of which could go on when it was its turn (`Crew.Runs`).

A turn takes one step from what a worker has left and adds what was exchanged to its log
(`Worker.Moves.leads`).  So in the end the log of a worker is one of its dialogue, whatever the others
did (`Crew.Runs.logs`), and there are no more turns than steps in all dialogues (`Crew.Runs.length_le`).

If a worker depends on a part of the state that the others leave as it is, then a turn of it goes on in
that part and a turn of another one does nothing there.  So what the worker comes to is what it would
have come to alone (`Crew.Runs.seen`).
-/
import Mathlib.Data.List.Basic
import Keyscope.Proofs.Dialogue

namespace Keyscope

variable {σ τ α : Type}

/-! ## 1. Dialogues with one target -/

namespace Dialogue

/-- The target that a step is about. -/
def Step.target : Step → Target
  | ask t _ => t
  | time t => t
  | hangUp t => t

/-- All steps are about one target. -/
inductive About (t : Target) : Dialogue α → Prop
  | done (result : Except Failure α) : About t (done result)
  | step {s : Step} {next : s.Answer → Dialogue α} (hs : s.target = t)
    (hnext : ∀ answer, About t (next answer)) : About t (step s next)

/-- There are no more steps than a number. -/
inductive Within : Nat → Dialogue α → Prop
  | done (n : Nat) (result : Except Failure α) : Within n (done result)
  | step {n : Nat} {s : Step} {next : s.Answer → Dialogue α}
    (hnext : ∀ answer, Within n (next answer)) : Within (n + 1) (step s next)

end Dialogue

/-! ## 2. A part of the state -/

namespace Network

/-- A target depends on a part of the state only, and works on it as another network does. -/
structure Seen (net : Network σ) (t : Target) (view : σ → τ) (own : Network τ) : Prop where
  server (r : Request) (s : σ) :
    own.server t r (view s) = ((net.server t r s).1, view (net.server t r s).2)
  clock (s : σ) : own.clock t (view s) = ((net.clock t s).1, view (net.clock t s).2)

/-- A target leaves a part of the state as it is. -/
structure Leaves (net : Network σ) (t : Target) (view : σ → τ) : Prop where
  server (r : Request) (s : σ) : view (net.server t r s).2 = view s
  clock (s : σ) : view (net.clock t s).2 = view s

/-- What a network keeps of exchanges is another part of its state. -/
theorem seen_observed (net : Network σ) (t : Target) : net.observed.Seen t Prod.fst net :=
  ⟨fun _ _ => rfl, fun _ => rfl⟩

/-- One network of many, each of which has a state of its own. -/
def placed (own : Network τ) (i : Nat) : Network (Nat → τ) where
  server t r s :=
    let (outcome, next) := own.server t r (s i)
    (outcome, Function.update s i next)
  clock t s :=
    let (reading, next) := own.clock t (s i)
    (reading, Function.update s i next)

theorem seen_placed (own : Network τ) (i : Nat) (t : Target) :
    (own.placed i).Seen t (· i) own where
  server r s := Prod.ext rfl (Function.update_self i (own.server t r (s i)).2 s).symm
  clock s := Prod.ext rfl (Function.update_self i (own.clock t (s i)).2 s).symm

theorem leaves_placed (own : Network τ) {i j : Nat} (hij : i ≠ j) (t : Target) :
    (own.placed j).Leaves t (· i) where
  server r s := by
    change Function.update s j (own.server t r (s j)).2 i = s i
    exact Function.update_of_ne hij _ s
  clock s := by
    change Function.update s j (own.clock t (s j)).2 i = s i
    exact Function.update_of_ne hij _ s

end Network

/-- An exchange is one with a network, in some state of it. -/
def Exchange.From (net : Network σ) : Exchange → Prop
  | sent t r outcome => ∃ s, (net.server t r s).1 = outcome
  | timed t reading => ∃ s, (net.clock t s).1 = reading

namespace Dialogue.Step

variable {net : Network σ} {step : Step} {view : σ → τ}

/-- A step is the same on the part of the state that its target depends on. -/
theorem run_seen {own : Network τ} (h : net.Seen step.target view own) (s : σ) :
    (step.perform own).run (view s) =
      (((step.perform net).run s).1, view ((step.perform net).run s).2) := by
  cases step with
  | ask t r => exact congrArg (fun p => (Except.ok p.1, p.2)) (h.server r s)
  | time t => exact congrArg (fun p => (Except.ok p.1, p.2)) (h.clock s)
  | hangUp t =>
    have hserver : ∀ r s, own.server t r (view s) =
        ((net.server t r s).1, view (net.server t r s).2) := h.server
    simp only [perform, Server.hangUp, Session.run_bind, Session.run_outcome, Session.run_pure,
      Session.run_ask, hserver]
    rcases net.server t .close s with ⟨e | v, closed⟩
    · rfl
    · simp only [hserver]

/-- A step does nothing to what its target leaves as it is. -/
theorem run_leaves (h : net.Leaves step.target view) (s : σ) :
    view ((step.perform net).run s).2 = view s := by
  cases step with
  | ask t r => exact h.server r s
  | time t => exact h.clock s
  | hangUp t =>
    have hserver : ∀ r s, view (net.server t r s).2 = view s := h.server
    simp only [perform, Server.hangUp, Session.run_bind, Session.run_outcome, Session.run_pure,
      Session.run_ask]
    have hclose := hserver .close s
    rcases hclosed : net.server t .close s with ⟨e | v, closed⟩
    · rw [hclosed] at hclose
      exact hclose
    · rw [hclosed] at hclose
      exact (hserver .disconnect closed).trans hclose

/-- A step of an observed network is one of the network. -/
theorem run_of_observed {answer : step.Answer} {s next : σ} {log log' : List Exchange}
    (h : (step.perform net.observed).run (s, log) = (.ok answer, next, log')) :
    (step.perform net).run s = (.ok answer, next) := by
  rw [show (step.perform net).run s = _ from run_seen (net.seen_observed step.target) (s, log), h]

/-- What a step adds to a log is from the network. -/
theorem from_of_observed {answer : step.Answer} {s next : σ} {log log' : List Exchange}
    (h : (step.perform net.observed).run (s, log) = (.ok answer, next, log')) :
    ∀ e ∈ log', e ∈ log ∨ e.From net := by
  have hadd : ∀ {l : List Exchange}, (∀ e ∈ l, e.From net) → ∀ e ∈ log ++ l, e ∈ log ∨ e.From net :=
    fun hl e he => (List.mem_append.mp he).imp_right (hl e)
  cases step with
  | ask t r =>
    cases h
    exact hadd (List.forall_mem_singleton.mpr ⟨s, rfl⟩)
  | time t =>
    cases h
    exact hadd (List.forall_mem_singleton.mpr ⟨s, rfl⟩)
  | hangUp t =>
    simp only [perform, Server.hangUp, Session.run_bind, Session.run_outcome, Session.run_pure,
      Session.run_ask, Network.observed_server] at h
    rcases hclosed : net.server t .close s with ⟨e | v, closed⟩
    · rw [hclosed] at h
      cases h
      exact hadd (List.forall_mem_singleton.mpr ⟨s, congrArg Prod.fst hclosed⟩)
    · rw [hclosed] at h
      cases h
      rw [List.append_assoc]
      exact hadd (List.forall_mem_cons.mpr ⟨⟨s, congrArg Prod.fst hclosed⟩,
        List.forall_mem_singleton.mpr ⟨closed, rfl⟩⟩)

end Dialogue.Step

/-! ## 3. One worker -/

/-- One of those who work at the same time: a network, what is left to do over it, and a log of what
was exchanged. -/
structure Worker (σ α : Type) where
  net : Network σ
  left : Dialogue α
  log : List Exchange

namespace Worker

variable {s next : σ} {w w' : Worker σ α}

/-- **One step of a worker**, with the states before and after it. -/
inductive Moves : σ → Worker σ α → σ → Worker σ α → Prop
  | step {net : Network σ} {step : Dialogue.Step} {rest : step.Answer → Dialogue α}
    {answer : step.Answer} {s next : σ} {log log' : List Exchange}
    (hanswer : (step.perform net.observed).run (s, log) = (.ok answer, next, log')) :
    Moves s ⟨net, .step step rest, log⟩ next ⟨net, rest answer, log'⟩

/-- A worker with something left to do can always go on. -/
theorem exists_moves (s : σ) (h : ∀ result, w.left ≠ .done result) : ∃ next w', w.Moves s next w' := by
  obtain ⟨net, left, log⟩ := w
  cases left with
  | done result => exact absurd rfl (h result)
  | step step rest =>
    obtain ⟨answer, ⟨next, log'⟩, hanswer⟩ := step.exists_answer net.observed (s, log)
    exact ⟨next, _, .step hanswer⟩

/-- **What becomes of a worker**: it goes on with the same dialogue, and its log with it. -/
structure Leads (w w' : Worker σ α) : Prop where
  net : w'.net = w.net
  about (t : Target) (h : w.left.About t) : w'.left.About t
  logs : ∃ l, w'.log = w.log ++ l ∧
    ∀ result l', w'.left.Logs result l' → w.left.Logs result (l ++ l')
  exchanged (e : Exchange) (he : e ∈ w'.log) : e ∈ w.log ∨ e.From w.net

theorem Leads.refl (w : Worker σ α) : w.Leads w where
  net := rfl
  about _ h := h
  logs := ⟨[], (List.append_nil _).symm, fun _ _ h => h⟩
  exchanged _ he := .inl he

theorem Leads.trans {w'' : Worker σ α} (h : w.Leads w') (h' : w'.Leads w'') : w.Leads w'' where
  net := h'.net.trans h.net
  about t ht := h'.about t (h.about t ht)
  logs := by
    obtain ⟨l, hl, hlogs⟩ := h.logs
    obtain ⟨l', hl', hlogs'⟩ := h'.logs
    refine ⟨l ++ l', by rw [hl', hl, List.append_assoc], fun result l'' h'' => ?_⟩
    rw [List.append_assoc]
    exact hlogs result _ (hlogs' result l'' h'')
  exchanged e he := by
    rcases h'.exchanged e he with he | he
    · exact h.exchanged e he
    · exact .inr (h.net ▸ he)

theorem Moves.leads (h : w.Moves s next w') : w.Leads w' := by
  cases h with
  | @step net step rest answer _ _ log log' hanswer =>
    refine ⟨rfl, fun t ht => ?_, ?_, Dialogue.Step.from_of_observed hanswer⟩
    · cases ht with
      | step _ hnext => exact hnext answer
    · obtain ⟨answer', next', l, hanswer', hl⟩ := step.run_observed net (s, log)
      rw [hanswer] at hanswer'
      cases hanswer'
      exact ⟨l, rfl, fun result l' h' => .step hl h'⟩

/-- A step is one less of those that are left. -/
theorem Moves.within (h : w.Moves s next w') {n : Nat} (hn : w.left.Within n) :
    ∃ m, n = m + 1 ∧ w'.left.Within m := by
  cases h with
  | @step _ _ _ answer =>
    cases hn with
    | step hnext => exact ⟨_, rfl, hnext answer⟩

/-- **What a worker comes to does not change with its steps.** -/
theorem Moves.seen (h : w.Moves s next w') {t : Target} (ht : w.left.About t) {view : σ → τ}
    {own : Network τ} (hseen : w.net.Seen t view own) :
    (w'.left.on own).run (view next) = (w.left.on own).run (view s) := by
  cases h with
  | @step net step rest answer _ _ log log' hanswer =>
    cases ht with
    | step hs =>
      subst hs
      have hown := step.run_seen hseen s
      rw [Dialogue.Step.run_of_observed hanswer] at hown
      exact (Session.run_bind_ok hown fun answer => (rest answer).on own).symm

/-- A worker leaves as it is what its target leaves as it is. -/
theorem Moves.leaves (h : w.Moves s next w') {t : Target} (ht : w.left.About t) {view : σ → τ}
    (hleaves : w.net.Leaves t view) : view next = view s := by
  cases h with
  | @step net step rest answer _ _ log log' hanswer =>
    cases ht with
    | step hs =>
      subst hs
      have hview := step.run_leaves hleaves s
      rwa [Dialogue.Step.run_of_observed hanswer] at hview

end Worker

/-! ## 4. Several workers -/

/-- Workers at the same time, and the state that they share. -/
structure Crew (σ α : Type) where
  state : σ
  workers : List (Worker σ α)

namespace Crew

variable {c d : Crew σ α} {i j : Nat} {w : Worker σ α}

/-- **One turn**: a worker takes a step. -/
inductive Turn (i : Nat) : Crew σ α → Crew σ α → Prop
  | mk {s next : σ} {workers : List (Worker σ α)} {w w' : Worker σ α}
    (hi : workers[i]? = some w) (hmoves : w.Moves s next w') :
    Turn i ⟨s, workers⟩ ⟨next, workers.set i w'⟩

/-- **Turns in some order.** -/
inductive Runs : List Nat → Crew σ α → Crew σ α → Prop
  | nil (c : Crew σ α) : Runs [] c c
  | cons {i : Nat} {order : List Nat} {c d e : Crew σ α} (hturn : Turn i c d)
    (hruns : Runs order d e) : Runs (i :: order) c e

/-- Nobody has anything left to do. -/
def Done (c : Crew σ α) : Prop := ∀ w ∈ c.workers, ∃ result, w.left = .done result

/-- All have come to a result, and nobody has failed. -/
def Returns (c : Crew σ α) (results : List α) : Prop :=
  c.workers.map (·.left) = results.map fun a => .done (.ok a)

theorem Runs.append {order order' : List Nat} {e : Crew σ α} (h : Runs order c d)
    (h' : Runs order' d e) : Runs (order ++ order') c e := by
  induction h with
  | nil c => exact h'
  | cons hturn _ ih => exact .cons hturn (ih h')

/-- As long as somebody has something left to do, there is a turn. -/
theorem exists_turn (h : ¬ c.Done) : ∃ i next, Turn i c next := by
  obtain ⟨s, workers⟩ := c
  simp only [Done, not_forall, not_exists] at h
  obtain ⟨w, hw, hleft⟩ := h
  obtain ⟨i, hi⟩ := List.mem_iff_getElem?.mp hw
  obtain ⟨next, w', hmoves⟩ := w.exists_moves s hleft
  exact ⟨i, _, .mk hi hmoves⟩

/-! ### What becomes of each worker -/

/-- What a turn is for the worker who takes it. -/
theorem Turn.self (h : Turn i c d) : ∃ w w', c.workers[i]? = some w ∧ d.workers[i]? = some w' ∧
    w.Moves c.state d.state w' := by
  cases h with
  | @mk s next workers w w' hi hmoves =>
    exact ⟨w, w', hi, List.getElem?_set_self (List.getElem?_eq_some_iff.mp hi).1, hmoves⟩

/-- A turn does nothing to the others. -/
theorem Turn.others (h : Turn j c d) (hij : i ≠ j) : d.workers[i]? = c.workers[i]? := by
  cases h
  exact List.getElem?_set_ne hij.symm

theorem Turn.leads (h : Turn j c d) (hi : c.workers[i]? = some w) :
    ∃ w', d.workers[i]? = some w' ∧ w.Leads w' := by
  by_cases hij : i = j
  · subst hij
    obtain ⟨v, w', hv, hi', hmoves⟩ := h.self
    obtain rfl := Option.some.inj (hi.symm.trans hv)
    exact ⟨w', hi', hmoves.leads⟩
  · exact ⟨w, (h.others hij).trans hi, .refl w⟩

theorem Turn.length_eq (h : Turn j c d) : d.workers.length = c.workers.length := by
  cases h
  exact List.length_set

/-- Whoever is there after a turn was there before it. -/
theorem Turn.exists_before {w' : Worker σ α} (h : Turn j c d) (hi : d.workers[i]? = some w') :
    ∃ w, c.workers[i]? = some w ∧ w.Leads w' := by
  have hlt : i < c.workers.length := by
    rw [← h.length_eq]
    exact (List.getElem?_eq_some_iff.mp hi).1
  obtain ⟨_, hsame, hleads⟩ := h.leads (List.getElem?_eq_getElem hlt)
  obtain rfl := Option.some.inj (hi.symm.trans hsame)
  exact ⟨_, List.getElem?_eq_getElem hlt, hleads⟩

variable {order : List Nat}

theorem Runs.leads (h : Runs order c d) (hi : c.workers[i]? = some w) :
    ∃ w', d.workers[i]? = some w' ∧ w.Leads w' := by
  induction h generalizing w with
  | nil c => exact ⟨w, hi, .refl w⟩
  | cons hturn _ ih =>
    obtain ⟨w', hi', hleads⟩ := hturn.leads hi
    obtain ⟨w'', hi'', hleads'⟩ := ih hi'
    exact ⟨w'', hi'', hleads.trans hleads'⟩

theorem Runs.length_eq (h : Runs order c d) : d.workers.length = c.workers.length := by
  induction h with
  | nil c => rfl
  | cons hturn _ ih => exact ih.trans hturn.length_eq

/-- **In the end, a log is one of the dialogue.** -/
theorem Runs.logs (h : Runs order c d) (hi : c.workers[i]? = some w) (hlog : w.log = [])
    {w' : Worker σ α} (hi' : d.workers[i]? = some w') {result : Except Failure α}
    (hdone : w'.left = .done result) : w.left.Logs result w'.log := by
  obtain ⟨_, hsame, hleads⟩ := h.leads hi
  obtain rfl := Option.some.inj (hi'.symm.trans hsame)
  obtain ⟨l, hl, hlogs⟩ := hleads.logs
  rw [hlog, List.nil_append] at hl
  rw [hl, ← List.append_nil l]
  exact hlogs result [] (hdone ▸ .done result)

/-! ### How many turns there are -/

/-- There are no more steps left to workers, all of them together, than a number. -/
inductive Within : Nat → List (Worker σ α) → Prop
  | nil : Within 0 []
  | cons {m n : Nat} {w : Worker σ α} {workers : List (Worker σ α)} (hw : w.left.Within m)
    (hworkers : Within n workers) : Within (m + n) (w :: workers)

/-- A step of one worker is one less of those that are left to all. -/
theorem Within.set {n : Nat} {workers : List (Worker σ α)} (h : Within n workers)
    {s next : σ} {w' : Worker σ α} (hi : workers[i]? = some w) (hmoves : w.Moves s next w') :
    ∃ m, n = m + 1 ∧ Within m (workers.set i w') := by
  induction h generalizing i with
  | nil => cases hi
  | @cons m n v workers hv hworkers ih =>
    cases i with
    | zero =>
      obtain rfl := Option.some.inj hi
      obtain ⟨k, rfl, hk⟩ := hmoves.within hv
      exact ⟨k + n, Nat.add_right_comm k 1 n, .cons hk hworkers⟩
    | succ i =>
      obtain ⟨k, rfl, hk⟩ := ih hi
      exact ⟨m + k, (Nat.add_assoc m k 1).symm, .cons hv hk⟩

theorem within_of_forall {n : Nat} : ∀ {workers : List (Worker σ α)},
    (∀ w ∈ workers, w.left.Within n) → Within (n * workers.length) workers
  | [], _ => .nil
  | w :: workers, h => by
    obtain ⟨hw, hworkers⟩ := List.forall_mem_cons.mp h
    rw [List.length_cons, Nat.mul_succ, Nat.add_comm]
    exact .cons hw (within_of_forall hworkers)

/-- **There are no more turns than steps.** -/
theorem Runs.length_le (h : Runs order c d) {n : Nat} (hn : Within n c.workers) :
    order.length ≤ n := by
  induction h generalizing n with
  | nil c => exact Nat.zero_le n
  | cons hturn _ ih =>
    cases hturn with
    | mk hi hmoves =>
      obtain ⟨m, rfl, hm⟩ := hn.set hi hmoves
      exact Nat.succ_le_succ (ih hm)

/-! ### What a worker comes to alone -/

/-- A turn changes nothing about what a worker comes to on its part of the state. -/
theorem Turn.seen (h : Turn j c d) (hi : c.workers[i]? = some w) {t : Target}
    (ht : w.left.About t) {view : σ → τ} {own : Network τ} (hseen : w.net.Seen t view own)
    (hothers : ∀ k v, k ≠ i → c.workers[k]? = some v → ∃ u, v.left.About u ∧ v.net.Leaves u view) :
    ∃ w', d.workers[i]? = some w' ∧ w.Leads w' ∧
      (w'.left.on own).run (view d.state) = (w.left.on own).run (view c.state) := by
  obtain ⟨w', hi', hleads⟩ := h.leads hi
  refine ⟨w', hi', hleads, ?_⟩
  obtain ⟨v, v', hv, hv', hmoves⟩ := h.self
  by_cases hij : i = j
  · -- its own turn is one of its steps, also in its part of the state
    subst hij
    obtain rfl := Option.some.inj (hi.symm.trans hv)
    obtain rfl := Option.some.inj (hi'.symm.trans hv')
    exact hmoves.seen ht hseen
  · -- the turn of another one does nothing there
    obtain rfl := Option.some.inj (hi.symm.trans ((h.others hij).symm.trans hi'))
    obtain ⟨u, hu, hleaves⟩ := hothers j v (Ne.symm hij) hv
    rw [hmoves.leaves hu hleaves]

/-- **Nor does a run.** -/
theorem Runs.seen (h : Runs order c d) (hi : c.workers[i]? = some w) {t : Target}
    (ht : w.left.About t) {view : σ → τ} {own : Network τ} (hseen : w.net.Seen t view own)
    (hothers : ∀ k v, k ≠ i → c.workers[k]? = some v → ∃ u, v.left.About u ∧ v.net.Leaves u view) :
    ∃ w', d.workers[i]? = some w' ∧
      (w'.left.on own).run (view d.state) = (w.left.on own).run (view c.state) := by
  induction h generalizing w with
  | nil c => exact ⟨w, hi, rfl⟩
  | @cons j _ c d _ hturn _ ih =>
    obtain ⟨w', hi', hleads, hsame⟩ := hturn.seen hi ht hseen hothers
    -- what is assumed of the workers holds of them after the turn, too
    have hothers' : ∀ k v, k ≠ i → d.workers[k]? = some v →
        ∃ u, v.left.About u ∧ v.net.Leaves u view := by
      intro k v' hk hv'
      obtain ⟨v, hv, hleads'⟩ := hturn.exists_before hv'
      obtain ⟨u, hu, hleaves⟩ := hothers k v hk hv
      exact ⟨u, hleads'.about u hu, hleads'.net ▸ hleaves⟩
    obtain ⟨w'', hi'', hsame'⟩ := ih hi' (hleads.about t ht) (hleads.net ▸ hseen) hothers'
    exact ⟨w'', hi'', hsame'.trans hsame⟩

/-! ### Results -/

/-- If everybody comes to a result, these are the results. -/
theorem exists_returns (h : ∀ w ∈ c.workers, ∃ a, w.left = .done (.ok a)) :
    ∃ results, c.Returns results := by
  obtain ⟨s, workers⟩ := c
  induction workers with
  | nil => exact ⟨[], rfl⟩
  | cons w workers ih =>
    obtain ⟨a, ha⟩ := h w List.mem_cons_self
    obtain ⟨results, hresults⟩ := ih fun v hv => h v (List.mem_cons_of_mem w hv)
    exact ⟨a :: results, by rw [Returns, List.map_cons, ha, hresults]; rfl⟩

/-- There is one result for each. -/
theorem Returns.length_eq {results : List α} (h : c.Returns results) :
    results.length = c.workers.length := by
  have hlength := congrArg List.length h
  rw [List.length_map, List.length_map] at hlength
  exact hlength.symm

/-- The results are in the order of those who came to them. -/
theorem Returns.getElem? {results : List α} (h : c.Returns results) (hi : c.workers[i]? = some w) :
    ∃ a, results[i]? = some a ∧ w.left = .done (.ok a) := by
  have hleft : some w.left = results[i]?.map fun a => .done (.ok a) := by
    rw [← List.getElem?_map, ← h, List.getElem?_map, hi]
    rfl
  obtain ⟨a, ha, hsame⟩ := Option.map_eq_some_iff.mp hleft.symm
  exact ⟨a, ha, hsame.symm⟩

theorem Returns.done {results : List α} (h : c.Returns results) : c.Done := by
  intro w hw
  obtain ⟨i, hi⟩ := List.mem_iff_getElem?.mp hw
  obtain ⟨a, -, hleft⟩ := h.getElem? hi
  exact ⟨_, hleft⟩

/-- Nobody comes to two results. -/
theorem Returns.unique {results results' : List α} (h : c.Returns results) (h' : c.Returns results') :
    results = results' := by
  refine List.map_injective_iff.mpr (fun a b hab => ?_) (h.symm.trans h')
  exact Except.ok.inj (Dialogue.done.inj hab)

/-! ### One after the other -/

/-- A worker can do all that is left to it without a break. -/
theorem exists_runs_one (net : Network σ) (left : Dialogue α) {s : σ} {log : List Exchange}
    {workers : List (Worker σ α)} (hi : workers[i]? = some ⟨net, left, log⟩) :
    ∃ order log', Runs order ⟨s, workers⟩ ⟨((left.on net).run s).2,
      workers.set i ⟨net, .done ((left.on net).run s).1, log'⟩⟩ := by
  induction left generalizing s log workers with
  | done result =>
    obtain ⟨hlt, hget⟩ := List.getElem?_eq_some_iff.mp hi
    refine ⟨[], log, ?_⟩
    have hset : workers.set i ⟨net, .done result, log⟩ = workers := by
      rw [← hget, List.set_getElem_self]
    exact hset.symm ▸ .nil ⟨s, workers⟩
  | step step rest ih =>
    obtain ⟨answer, ⟨mid, log'⟩, hanswer⟩ := step.exists_answer net.observed (s, log)
    have hset : (workers.set i ⟨net, rest answer, log'⟩)[i]? = some ⟨net, rest answer, log'⟩ :=
      List.getElem?_set_self (List.getElem?_eq_some_iff.mp hi).1
    obtain ⟨order, log'', hruns⟩ := ih answer (s := mid) hset
    refine ⟨i :: order, log'', .cons (.mk hi (.step hanswer)) ?_⟩
    rw [List.set_set] at hruns
    rwa [Dialogue.on, Session.run_bind_ok (Dialogue.Step.run_of_observed hanswer)]

/-- **Workers one after the other** are one way for them to work at the same time. -/
theorem exists_runs_mapM (workers : List (Worker σ α)) (before : List (Worker σ α)) {s next : σ}
    {results : List α}
    (h : (workers.mapM fun w : Worker σ α => w.left.on w.net).run s = (.ok results, next)) :
    ∃ order workers', Runs order ⟨s, before ++ workers⟩ ⟨next, before ++ workers'⟩ ∧
      workers'.map (·.left) = results.map fun a => .done (.ok a) := by
  induction workers generalizing before s results with
  | nil =>
    cases h
    exact ⟨[], [], .nil _, rfl⟩
  | cons w workers ih =>
    rw [List.mapM_cons] at h
    obtain ⟨a, mid, ha, h⟩ := Session.run_bind_eq_ok.mp h
    obtain ⟨rest, last, hrest, h⟩ := Session.run_bind_eq_ok.mp h
    obtain ⟨rfl, rfl⟩ := Session.run_pure_eq_ok.mp h
    have hi : (before ++ w :: workers)[before.length]? = some ⟨w.net, w.left, w.log⟩ := by simp
    obtain ⟨order, log, hruns⟩ := exists_runs_one w.net w.left (s := s) hi
    rw [ha] at hruns
    simp only [List.set_append_right _ _ (Nat.le_refl _), Nat.sub_self, List.set_cons_zero] at hruns
    obtain ⟨order', workers', hruns', hdone⟩ := ih (before ++ [⟨w.net, .done (.ok a), log⟩]) hrest
    simp only [List.append_assoc, List.singleton_append] at hruns'
    exact ⟨order ++ order', _ :: workers', hruns.append hruns', by rw [List.map_cons, hdone]; rfl⟩

end Crew

end Keyscope
