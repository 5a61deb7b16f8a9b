/-
# Probes at the same time

All targets are probed at the same time.  A probe is a dialogue of six steps at most (`Probe.script`),
and each has a worker.  What is exchanged in a probe is one of three things (`Probe.Exchanged`): the
target refuses to connect, or it does not answer the ping, or it answers; and in the last two cases the
connection is ended after that.  The result follows from what was heard before (`Probe.heard`), so
closing cannot change it.

So probing all targets always comes to an end, with one result for each, in order, whatever the
servers do and in whatever order the workers take turns (`Probe.all_at_once`).  Where the servers do not
depend on each other, neither do the results (`Probe.returns_alone`).  `Probe.runAll` lets the workers
go on one after the other, which is one of these orders.
-/
import Keyscope.Proofs.Crew
import Keyscope.Proofs.Selection

namespace Keyscope

variable {σ : Type}

/-! ## 1. A probe in steps -/

/-- The clock shows real numbers when it is read for a target. -/
def Network.TellsTime (net : Network σ) (t : Target) : Prop :=
  ∀ s, ∃ seconds, (net.clock t s).1 = some (.real seconds)

/-- The target of an exchange. -/
def Exchange.target : Exchange → Target
  | sent t _ _ => t
  | timed t _ => t

namespace Probe

/-- Ends a connection; then there is a result.  Closing and disconnecting are two steps, so that others
may take turns in between. -/
def parting (t : Target) (p : Probe) : Dialogue Probe :=
  .step (.ask t .close) fun
    | .error _ => .done (.ok p)
    | .ok _ => .step (.ask t .disconnect) fun _ => .done (.ok p)

/-- What an answer to a ping means, between two readings of the clock. -/
def ofAnswer (t : Target) (start stop : Option Quantity) (pong : Value) : Probe :=
  ofAttempt t (.ok (latencyBetween start (if isAlive pong then stop else none)))

/-- **A probe, step by step.** -/
def script (limit : Value) (t : Target) : Dialogue Probe :=
  .step (.time t) fun start =>
  .step (.ask t (.connect limit (some limit))) fun
    | .error _ => .done (.ok (unreachable t))
    | .ok _ => .step (.ask t .ping) fun
      | .error _ => parting t (unreachable t)
      | .ok pong => .step (.time t) fun stop => parting t (ofAnswer t start stop pong)

theorem run_parting (net : Network σ) (t : Target) (p : Probe) (s : σ) :
    ((parting t p).on net).run s = (.ok p, ((net.server t).hangUp.run s).2) := by
  simp only [parting, Dialogue.on, Dialogue.Step.perform, Server.hangUp, Session.run_bind,
    Session.run_outcome, Session.run_ask, Session.run_pure]
  rcases net.server t .close s with ⟨e | v, closed⟩ <;> rfl

/-- The steps of a probe are the probe. -/
theorem on_script (net : Network σ) (limit : Value) (t : Target) :
    (script limit t).on net = run net limit t := by
  have hnow : ∀ s, (net.now t).run s = (.ok (net.clock t s).1, (net.clock t s).2) := fun _ => rfl
  refine Session.ext fun s => ?_
  simp only [run_run, script, Dialogue.on, Dialogue.Step.perform, attempt, ping, Pool.opening_ofTarget,
    Session.run_bind, Session.run_outcome, Session.run_ask, Session.run_pure, Session.run_thenHangUp,
    hnow]
  rcases net.server t (.connect limit (some limit)) (net.clock t s).2 with ⟨e | client, opened⟩
  · rfl
  · simp only [Dialogue.on, Dialogue.Step.perform, Session.run_bind, Session.run_outcome,
      Session.run_ask]
    rcases net.server t .ping opened with ⟨e | pong, answered⟩
    · exact run_parting net t _ answered
    · simp only [Dialogue.on, Dialogue.Step.perform, Session.run_bind, hnow]
      exact run_parting net t _ _

theorem about_parting (t : Target) (p : Probe) : (parting t p).About t := by
  refine .step rfl fun closed => ?_
  cases closed with
  | error e => exact .done _
  | ok v => exact .step rfl fun _ => .done _

theorem about_script (limit : Value) (t : Target) : (script limit t).About t := by
  refine .step rfl fun start => .step rfl fun client => ?_
  cases client with
  | error e => exact .done _
  | ok client =>
    refine .step rfl fun pong => ?_
    cases pong with
    | error e => exact about_parting t _
    | ok pong => exact .step rfl fun stop => about_parting t _

theorem within_parting (n : Nat) (t : Target) (p : Probe) : (parting t p).Within (n + 2) := by
  refine .step fun closed => ?_
  cases closed with
  | error e => exact .done _ _
  | ok v => exact .step fun _ => .done _ _

theorem within_script (limit : Value) (t : Target) : (script limit t).Within 6 := by
  refine .step fun start => .step fun client => ?_
  cases client with
  | error e => exact .done _ _
  | ok client =>
    refine .step fun pong => ?_
    cases pong with
    | error e => exact within_parting 1 t _
    | ok pong => exact .step fun stop => within_parting 0 t _

/-! ## 2. What is exchanged in a probe -/

/-- **What is exchanged in a probe**, and what comes of it.  The connection is ended in the same way,
whether or not there was an answer. -/
inductive Exchanged (limit : Value) (t : Target) : List Exchange → Probe → Prop
  | refused (start : Option Quantity) (e : Failure) :
    Exchanged limit t [.timed t start, .sent t (.connect limit (some limit)) (.error e)]
      (unreachable t)
  | silent (start : Option Quantity) (client : Value) (e : Failure) {ending : List Exchange}
    (hending : (Dialogue.Step.hangUp t).Logs () ending) :
    Exchanged limit t (.timed t start :: .sent t (.connect limit (some limit)) (.ok client) ::
      .sent t .ping (.error e) :: ending) (unreachable t)
  | answered (start stop : Option Quantity) (client pong : Value) {ending : List Exchange}
    (hending : (Dialogue.Step.hangUp t).Logs () ending) :
    Exchanged limit t (.timed t start :: .sent t (.connect limit (some limit)) (.ok client) ::
      .sent t .ping (.ok pong) :: .timed t stop :: ending) (ofAnswer t start stop pong)

theorem parting_logs {t : Target} {p : Probe} {result : Except Failure Probe} {l : List Exchange}
    (h : (parting t p).Logs result l) :
    result = .ok p ∧ (Dialogue.Step.hangUp t).Logs () l := by
  cases h with
  | @step _ _ closed _ _ _ hstep hnext =>
    cases hstep
    cases closed with
    | error e =>
      cases hnext
      exact ⟨rfl, .broken t e⟩
    | ok v =>
      cases hnext with
      | step hstep hnext =>
        cases hstep
        cases hnext
        exact ⟨rfl, .ended t v _⟩

/-- Whatever is exchanged, a probe has a result. -/
theorem script_logs {limit : Value} {t : Target} {result : Except Failure Probe} {l : List Exchange}
    (h : (script limit t).Logs result l) : ∃ p, result = .ok p ∧ Exchanged limit t l p := by
  cases h with
  | @step _ _ start _ _ _ hstep hnext =>
  cases hstep
  cases hnext with
  | @step _ _ client _ _ _ hstep hnext =>
  cases hstep
  cases client with
  | error e =>
    cases hnext
    exact ⟨_, rfl, .refused start e⟩
  | ok client =>
    cases hnext with
    | @step _ _ pong _ _ _ hstep hnext =>
    cases hstep
    cases pong with
    | error e =>
      obtain ⟨rfl, hending⟩ := parting_logs hnext
      exact ⟨_, rfl, .silent start client e hending⟩
    | ok pong =>
      cases hnext with
      | @step _ _ stop _ _ _ hstep hnext =>
        cases hstep
        obtain ⟨rfl, hending⟩ := parting_logs hnext
        exact ⟨_, rfl, .answered start stop client pong hending⟩

/-- What a probe makes of what was exchanged in it.  Closing does not matter. -/
def heard (t : Target) : List Exchange → Probe
  | .timed _ start :: .sent _ (.connect _ _) (.ok _) :: .sent _ .ping (.ok pong) ::
      .timed _ stop :: _ => ofAnswer t start stop pong
  | _ => unreachable t

/-- **What a probe says.**  It follows from what was exchanged, all of it with the target: the target is
running if it could be connected to and answered the ping with true itself. -/
structure Says (limit : Value) (t : Target) (l : List Exchange) (p : Probe) : Prop where
  target : p.target = t
  own : ∀ e ∈ l, e.target = t
  heard : p = heard t l
  running : p.running = true ↔
    (∃ client, .sent t (.connect limit (some limit)) (.ok client) ∈ l) ∧
      .sent t .ping (.ok (.bool true)) ∈ l
  latency : p.latency = .null ↔ p.running = false

theorem isAlive_iff {pong : Value} : isAlive pong = true ↔ pong = .bool true := by
  cases pong <;> simp [isAlive]

theorem latency_ofAttempt (t : Target) (outcome : Except Failure (Option Binary64)) :
    (ofAttempt t outcome).latency = .null ↔ (ofAttempt t outcome).running = false := by
  unfold ofAttempt
  split
  · exact iff_of_false nofun nofun
  · exact iff_of_true rfl rfl

/-- An answer between two readings that are numbers counts if it is one. -/
theorem running_ofAnswer (t : Target) (a b : Binary64) (pong : Value) :
    (ofAnswer t (some (.real a)) (some (.real b)) pong).running = isAlive pong := by
  unfold ofAnswer
  cases isAlive pong <;> rfl

section Ending

variable {t : Target} {ending : List Exchange}

/-- Nothing but closing and disconnecting is left at the end. -/
theorem mem_ending (h : (Dialogue.Step.hangUp t).Logs () ending) {e : Exchange} (he : e ∈ ending) :
    ∃ r outcome, e = .sent t r outcome ∧ r.isEnding = true := by
  cases h with
  | broken t e =>
    obtain rfl := List.mem_singleton.mp he
    exact ⟨_, _, rfl, rfl⟩
  | ended t v outcome =>
    rcases List.mem_cons.mp he with rfl | he
    · exact ⟨_, _, rfl, rfl⟩
    · obtain rfl := List.mem_singleton.mp he
      exact ⟨_, _, rfl, rfl⟩

theorem target_of_mem_ending (h : (Dialogue.Step.hangUp t).Logs () ending) :
    ∀ e ∈ ending, e.target = t := by
  intro e he
  obtain ⟨r, outcome, rfl, -⟩ := mem_ending h he
  rfl

theorem ping_not_mem_ending (h : (Dialogue.Step.hangUp t).Logs () ending)
    (outcome : Except Failure Value) : .sent t .ping outcome ∉ ending := by
  intro he
  obtain ⟨r, _, hsame, hr⟩ := mem_ending h he
  obtain ⟨-, rfl, -⟩ := Exchange.sent.inj hsame
  cases hr

end Ending

theorem Exchanged.own {limit : Value} {t : Target} {l : List Exchange} {p : Probe}
    (h : Exchanged limit t l p) : ∀ e ∈ l, e.target = t := by
  cases h with
  | refused start e => simp [Exchange.target]
  | silent start client e hending => simpa [Exchange.target] using target_of_mem_ending hending
  | answered start stop client pong hending =>
    simpa [Exchange.target] using target_of_mem_ending hending

/-- What is exchanged in a probe says what comes of it. -/
theorem Exchanged.says {limit : Value} {t : Target} {l : List Exchange} {p : Probe}
    (h : Exchanged limit t l p)
    (hclock : ∀ reading, .timed t reading ∈ l → ∃ seconds, reading = some (.real seconds)) :
    Says limit t l p := by
  have hown := h.own
  cases h with
  | refused start e =>
    refine ⟨rfl, hown, rfl, iff_of_false nofun ?_, iff_of_true rfl rfl⟩
    simp
  | silent start client e hending =>
    refine ⟨rfl, hown, rfl, iff_of_false nofun ?_, iff_of_true rfl rfl⟩
    simp [ping_not_mem_ending hending]
  | answered start stop client pong hending =>
    obtain ⟨a, rfl⟩ := hclock start (by simp)
    obtain ⟨b, rfl⟩ := hclock stop (by simp)
    refine ⟨target_ofAttempt t _, hown, rfl, ?_, latency_ofAttempt t _⟩
    rw [running_ofAnswer, isAlive_iff]
    simp [ping_not_mem_ending hending, eq_comm]

/-! ## 3. All at the same time -/

/-- A target to probe, and the network over which its worker does. -/
structure Site (σ : Type) where
  net : Network σ
  target : Target

/-- One site of many, each of which has a state of its own. -/
def Site.placed {τ : Type} (site : Site τ) (i : Nat) : Site (Nat → τ) :=
  ⟨site.net.placed i, site.target⟩

/-- A worker who has yet to probe a target. -/
def Site.worker (limit : Value) (site : Site σ) : Worker σ Probe :=
  ⟨site.net, script limit site.target, []⟩

/-- A worker for each target. -/
def crew (limit : Value) (s : σ) (sites : List (Site σ)) : Crew σ Probe :=
  ⟨s, sites.map (Site.worker limit)⟩

theorem worker_at {limit : Value} {s : σ} {sites : List (Site σ)} {i : Nat} {site : Site σ}
    (hi : sites[i]? = some site) :
    (crew limit s sites).workers[i]? = some (site.worker limit) := by
  rw [crew, List.getElem?_map, hi]
  rfl

variable {limit : Value} {s : σ} {sites : List (Site σ)} {order : List Nat} {c : Crew σ Probe}

/-- A worker that is done has made a probe, and its log says how. -/
theorem exchanged_of_done (hruns : Crew.Runs order (crew limit s sites) c) {i : Nat} {site : Site σ}
    (hi : sites[i]? = some site) {w : Worker σ Probe} (hw : c.workers[i]? = some w)
    {result : Except Failure Probe} (hdone : w.left = .done result) :
    ∃ p, result = .ok p ∧ Exchanged limit site.target w.log p ∧ ∀ e ∈ w.log, e.From site.net := by
  obtain ⟨p, hp, hexchanged⟩ := script_logs (hruns.logs (worker_at hi) rfl hw hdone)
  refine ⟨p, hp, hexchanged, fun e he => ?_⟩
  obtain ⟨_, hsame, hleads⟩ := hruns.leads (worker_at hi)
  obtain rfl := Option.some.inj (hw.symm.trans hsame)
  rcases hleads.exchanged e he with he | he
  · cases he
  · exact he

/-- A target that depends on a part of the state which the other targets leave as it is has the
probe that it would have alone. -/
theorem run_of_done (hruns : Crew.Runs order (crew limit s sites) c) {i : Nat} {site : Site σ}
    (hi : sites[i]? = some site) {w : Worker σ Probe} (hw : c.workers[i]? = some w)
    {result : Except Failure Probe} (hdone : w.left = .done result) {τ : Type} {view : σ → τ}
    {own : Network τ} (hseen : site.net.Seen site.target view own)
    (hothers : ∀ j other, j ≠ i → sites[j]? = some other → other.net.Leaves other.target view) :
    ((run own limit site.target).run (view s)).1 = result := by
  have hleave : ∀ j v, j ≠ i → (crew limit s sites).workers[j]? = some v →
      ∃ u, v.left.About u ∧ v.net.Leaves u view := by
    intro j v hj hv
    rw [crew, List.getElem?_map] at hv
    obtain ⟨other, hother, rfl⟩ := Option.map_eq_some_iff.mp hv
    exact ⟨other.target, about_script limit _, hothers j other hj hother⟩
  obtain ⟨_, hsame, hrun⟩ := hruns.seen (worker_at hi) (about_script limit _) hseen hleave
  obtain rfl := Option.some.inj (hw.symm.trans hsame)
  have hrun' : (Session.ofExcept result).run (view c.state) =
      ((script limit site.target).on own).run (view s) := by
    rw [hdone] at hrun
    exact hrun
  rw [← on_script, ← hrun']
  rfl

/-- **Where each target has a state of its own, the order of turns does not matter.**  All probes are
what they would be alone. -/
theorem returns_alone {τ : Type} {alone : List (Site τ)} {s : Nat → τ} {c : Crew (Nat → τ) Probe}
    (hruns : Crew.Runs order
      (crew limit s (alone.mapIdx fun i site => site.placed i)) c)
    (hdone : c.Done) :
    c.Returns (alone.mapIdx fun i site =>
      ofAttempt site.target ((attempt site.net limit site.target).run (s i)).1) := by
  have hlength : c.workers.length = alone.length := by
    rw [hruns.length_eq, crew, List.length_map, List.length_mapIdx]
  have hsites : ∀ j : Nat, (alone.mapIdx fun i site => site.placed i)[j]? =
      alone[j]?.map fun site => site.placed j := fun j => List.getElem?_mapIdx
  refine List.ext_getElem (by simp [hlength]) fun i hi _ => ?_
  rw [List.length_map] at hi
  have hlt : i < alone.length := hlength ▸ hi
  have hsite := hsites i
  rw [List.getElem?_eq_getElem hlt] at hsite
  obtain ⟨result, hleft⟩ := hdone _ (List.getElem_mem hi)
  have hrun := run_of_done hruns hsite (List.getElem?_eq_getElem hi) hleft
    (Network.seen_placed _ i _) ?_
  · rw [run_run] at hrun
    simp [hleft, ← hrun, Site.placed]
  · intro j other hj hother
    rw [hsites j] at hother
    obtain ⟨site, -, rfl⟩ := Option.map_eq_some_iff.mp hother
    exact Network.leaves_placed site.net hj.symm site.target

/-- When all are done, each worker has made a probe, which says what it exchanged. -/
theorem exists_probe (hclock : ∀ site ∈ sites, site.net.TellsTime site.target)
    (hruns : Crew.Runs order (crew limit s sites) c) (hdone : c.Done) {i : Nat} {site : Site σ}
    (hi : sites[i]? = some site) :
    ∃ w p, c.workers[i]? = some w ∧ w.left = .done (.ok p) ∧ Says limit site.target w.log p ∧
      ∀ e ∈ w.log, e.From site.net := by
  obtain ⟨w, hw, -⟩ := hruns.leads (worker_at hi)
  obtain ⟨_, hleft⟩ := hdone w (List.mem_of_getElem? hw)
  obtain ⟨p, rfl, hexchanged, hfrom⟩ := exchanged_of_done hruns hi hw hleft
  refine ⟨w, p, hw, hleft, hexchanged.says fun reading hreading => ?_, hfrom⟩
  obtain ⟨s, hs⟩ := hfrom _ hreading
  obtain ⟨seconds, hseconds⟩ := hclock site (List.mem_of_getElem? hi) s
  exact ⟨seconds, hs.symm.trans hseconds⟩

/-- **When all are done, each target has its probe**, in order. -/
theorem exists_probes (hclock : ∀ site ∈ sites, site.net.TellsTime site.target)
    (hruns : Crew.Runs order (crew limit s sites) c) (hdone : c.Done) :
    ∃ probes, c.Returns probes ∧ probes.map (·.target) = sites.map (·.target) := by
  have hlength : c.workers.length = sites.length := by
    rw [hruns.length_eq, crew, List.length_map]
  have hprobe : ∀ (i : Nat) (hi : i < sites.length), ∃ w p, c.workers[i]? = some w ∧
      w.left = .done (.ok p) ∧ p.target = sites[i].target := by
    intro i hi
    obtain ⟨w, p, hw, hleft, hsays, -⟩ :=
      exists_probe hclock hruns hdone (List.getElem?_eq_getElem hi)
    exact ⟨w, p, hw, hleft, hsays.target⟩
  have hall : ∀ w ∈ c.workers, ∃ p, w.left = .done (.ok p) := by
    intro w hw
    obtain ⟨i, hi⟩ := List.mem_iff_getElem?.mp hw
    obtain ⟨_, p, hi', hleft, -⟩ := hprobe i (hlength ▸ (List.getElem?_eq_some_iff.mp hi).1)
    obtain rfl := Option.some.inj (hi.symm.trans hi')
    exact ⟨p, hleft⟩
  obtain ⟨probes, hprobes⟩ := Crew.exists_returns hall
  refine ⟨probes, hprobes, ?_⟩
  refine List.ext_getElem (by simp [hprobes.length_eq, hlength]) fun i hi hi' => ?_
  rw [List.length_map] at hi hi'
  obtain ⟨w, p, hw, hleft, htarget⟩ := hprobe i hi'
  obtain ⟨_, hp, hsame⟩ := hprobes.getElem? hw
  obtain rfl := Except.ok.inj (Dialogue.done.inj (hleft.symm.trans hsame))
  obtain rfl := Option.some.inj ((List.getElem?_eq_getElem hi).symm.trans hp)
  rw [List.getElem_map, List.getElem_map, htarget]

/-- Probing one target after the other is one way for the workers to take turns. -/
theorem exists_runs_runAll (net : Network σ) (limit : Value) (ts : List Target) (s : σ) :
    ∃ order last probes, Crew.Runs order (crew limit s (ts.map (⟨net, ·⟩))) last ∧
      last.Returns probes ∧ (runAll net limit ts).run s = (.ok probes, last.state) := by
  obtain ⟨probes, next, hrun⟩ := exists_runAll net limit ts s
  have hworkers : ((ts.map (⟨net, ·⟩)).map (Site.worker limit)).mapM
      (fun w : Worker σ Probe => w.left.on w.net) = runAll net limit ts := by
    rw [List.mapM_map, List.mapM_map, runAll]
    congr 1
    funext t
    exact on_script net limit t
  rw [← hworkers] at hrun
  obtain ⟨order, workers, hruns, hleft⟩ := Crew.exists_runs_mapM _ [] hrun
  exact ⟨order, ⟨next, workers⟩, probes, hruns, hleft, hworkers ▸ hrun⟩

/-- **Probing all targets at the same time.**  Each target has a worker with a network of its own, and
the clocks of these show real numbers.  Whatever the servers do, and in whatever order the workers take
turns, there are six turns at most for each target, and as long as not all are done there is another
one.

When all are done, nobody has failed, and there is one probe for each target, in order, from which
the target comes back.  What it says follows from what its worker exchanged (`Says`), which is all from
its own network and with its own target.  If the target depends only on a part of the state that the
others leave as it is, the probe is what it would be alone.

Probing the targets one after the other is one of these orders. -/
theorem all_at_once (hclock : ∀ site ∈ sites, site.net.TellsTime site.target)
    (hruns : Crew.Runs order (crew limit s sites) c) :
    order.length ≤ 6 * sites.length ∧ (c.Done ∨ ∃ i next, Crew.Turn i c next) ∧
    (c.Done → ∃ probes, c.Returns probes ∧ probes.map (·.target) = sites.map (·.target) ∧
      ∀ (i : Nat) (site : Site σ), sites[i]? = some site →
        ∃ w p, c.workers[i]? = some w ∧ probes[i]? = some p ∧
          Says limit site.target w.log p ∧ (∀ e ∈ w.log, e.From site.net) ∧
          ∀ (τ : Type) (view : σ → τ) (own : Network τ), site.net.Seen site.target view own →
            (∀ (j : Nat) (other : Site σ), j ≠ i → sites[j]? = some other →
              other.net.Leaves other.target view) →
            ((run own limit site.target).run (view s)).1 = .ok p) ∧
    ∀ (net : Network σ) (ts : List Target), sites = ts.map (⟨net, ·⟩) →
      ∃ order last probes, Crew.Runs order (crew limit s sites) last ∧ last.Returns probes ∧
        (runAll net limit ts).run s = (.ok probes, last.state) := by
  refine ⟨?_, ?_, fun hdone => ?_, ?_⟩
  · have hwithin : ∀ w ∈ (crew limit s sites).workers, w.left.Within 6 := by
      intro w hw
      obtain ⟨site, -, rfl⟩ := List.mem_map.mp hw
      exact within_script limit site.target
    simpa [crew] using hruns.length_le (Crew.within_of_forall hwithin)
  · by_cases hdone : c.Done
    · exact .inl hdone
    · exact .inr (Crew.exists_turn hdone)
  · obtain ⟨probes, hprobes, htargets⟩ := exists_probes hclock hruns hdone
    refine ⟨probes, hprobes, htargets, fun i site hi => ?_⟩
    obtain ⟨w, p, hw, hleft, hsays, hfrom⟩ := exists_probe hclock hruns hdone hi
    obtain ⟨_, hp, hsame⟩ := hprobes.getElem? hw
    obtain rfl := Except.ok.inj (Dialogue.done.inj (hleft.symm.trans hsame))
    exact ⟨w, p, hw, hp, hsays, hfrom, fun τ view own hseen hothers =>
      run_of_done hruns hi hw hleft hseen hothers⟩
  · rintro net ts rfl
    exact exists_runs_runAll net limit ts s

end Probe

/-- A network with a server that refuses to connect and others that answer but cannot be closed. -/
def Network.failing : Network Unit where
  server t r s :=
    (match r with
      | .connect _ _ => if t = Service.second then .error (.remote ⟨"ConnectionError", none, none⟩)
        else .ok .null
      | .ping => .ok (.bool true)
      | _ => .error (.remote ⟨"ConnectionError", none, none⟩), s)
  clock _ s := (some (.real 0), s)

/-- Two targets on it. -/
def Probe.twoSites : List (Site Unit) :=
  [⟨Network.failing, Snapshot.here⟩, ⟨Network.failing, Service.second⟩]

/-- The probes of two targets at the same time: one of them is running. -/
theorem Probe.two_at_once :
    ∃ c probes, Crew.Runs [1, 0, 0, 1, 0, 0, 0] (crew .null () twoSites) c ∧ c.Returns probes ∧
      probes.map (·.target) = [Snapshot.here, Service.second] ∧
      probes.map (·.running) = [true, false] := by
  obtain ⟨c, hruns, hleft⟩ : ∃ c, Crew.Runs [1, 0, 0, 1, 0, 0, 0] (crew .null () twoSites) c ∧
      c.Returns [reachable Snapshot.here (latencyOf (0 - 0)), unreachable Service.second] :=
    ⟨_, .cons (.mk rfl (.step rfl)) (.cons (.mk rfl (.step rfl)) (.cons (.mk rfl (.step rfl))
      (.cons (.mk rfl (.step rfl)) (.cons (.mk rfl (.step rfl)) (.cons (.mk rfl (.step rfl))
      (.cons (.mk rfl (.step rfl)) (.nil _))))))), rfl⟩
  have hclock : ∀ site ∈ twoSites, site.net.TellsTime site.target := by
    intro site hsite s
    rcases List.mem_cons.mp hsite with rfl | hsite
    · exact ⟨0, rfl⟩
    · obtain rfl := List.mem_singleton.mp hsite
      exact ⟨0, rfl⟩
  obtain ⟨-, -, hprobes, -⟩ := all_at_once hclock hruns
  obtain ⟨probes, hreturns, htargets, -⟩ := hprobes hleft.done
  obtain rfl := hreturns.unique hleft
  exact ⟨c, _, hruns, hreturns, htargets, rfl⟩

end Keyscope
