/-
# Connections

Whatever is asked of a service, and whatever the servers of the network do, connections are opened
and ended in one way (`Visit`): a request to connect comes first, and unless it is refused, requests
and answers follow on the connection and then one request to close it.  That is the last one but for
disconnecting, which is asked for if closing worked.  A probe is a visit with its limit for
connecting and for replies; a snapshot is one with the limit of the plan for connecting and none for
replies.

All that happens on an open connection is talk (`Talk`): no part of a probe or of a snapshot connects
or ends a connection.  So the shape of a visit is decided in one place (`spoken_visit`).  Since sessions
are dialogues, how a connection ended cannot change what is returned or how it fails.

A snapshot may take other courses than that of its session, with its buckets in another order
(`Snapshot.Course`).  Where no bucket raises, each of them is a visit as well, or the beginning of one
whose sweep is still under way (`Snapshot.Course.stay`).
-/
import Mathlib.Data.List.Forall2
import Keyscope.Probe
import Keyscope.Proofs.Dialogue
import Keyscope.Proofs.Keyspace.Gather

namespace Keyscope

variable {σ τ α β : Type}

/-! ## 1. Talk on an open connection -/

/-- Whether a request asks something of a server over an open connection. -/
def Request.isCommand : Request → Bool
  | .ping | .scan .. | .strings _ | .batch _ => true
  | .connect .. | .close | .disconnect => false

/-- Commands to a target, and readings of the clock at it. -/
def Exchange.IsTalk (t : Target) : Exchange → Prop
  | .sent u r _ => u = t ∧ r.isCommand = true
  | .timed u _ => u = t

/-- What may be exchanged over an open connection to a target. -/
def Talk (t : Target) (l : List Exchange) : Prop := ∀ e ∈ l, e.IsTalk t

/-- A session that talks to a target. -/
def Talks (t : Target) (x : ∀ σ : Type, Network σ → Session σ α) : Prop :=
  Spoken (fun _ l => Talk t l) x

theorem Talk.nil (t : Target) : Talk t [] := by
  unfold Talk
  simp

theorem Talk.append {t : Target} {l l' : List Exchange} (h : Talk t l) (h' : Talk t l') :
    Talk t (l ++ l') := List.forall_mem_append.mpr ⟨h, h'⟩

theorem Request.not_isEnding {r : Request} (h : r.isCommand = true) : r.isEnding = false := by
  cases r <;> first | rfl | cases h

namespace Talks

variable {t : Target} {x : ∀ σ : Type, Network σ → Session σ α}

theorem ofExcept (result : Except Failure α) : Talks t fun _ _ => Session.ofExcept result :=
  Spoken.ofExcept (.nil t)

theorem pure (a : α) : Talks t fun _ _ => Pure.pure a := Spoken.pure (.nil t)

theorem throw (e : Failure) : Talks t fun _ _ => (MonadExcept.throw e : Session _ α) :=
  Spoken.throw (.nil t)

theorem ask {r : Request} (hr : r.isCommand = true) : Talks t fun _ net => (net.server t).ask r := by
  refine Spoken.ask (Request.not_isEnding hr) fun outcome => ?_
  intro e he
  obtain rfl := List.mem_singleton.mp he
  exact ⟨rfl, hr⟩

theorem now : Talks t fun _ net => net.now t := by
  refine (Returns.now t).mono ?_
  rintro _ _ ⟨reading, -, rfl⟩ e he
  obtain rfl := List.mem_singleton.mp he
  rfl

theorem outcome (h : Talks t x) : Talks t fun σ net => (x σ net).outcome :=
  (Returns.outcome h).mono fun _ _ ⟨_, _, hl⟩ => hl

theorem bind {f : ∀ σ : Type, Network σ → α → Session σ β} (hx : Talks t x)
    (hf : ∀ a, Talks t fun σ net => f σ net a) : Talks t fun σ net => x σ net >>= f σ net :=
  Spoken.bind hx (fun _ _ hl => hl) fun a => (hf a).mono fun _ _ hl' _ hl => hl.append hl'

end Talks

/-- Talk does not depend on how connections are ended. -/
theorem Talks.congr {t : Target} {x : ∀ σ : Type, Network σ → Session σ α} (h : Talks t x)
    {net other : Network σ} (hsame : net.PartsLike other) : x σ other = x σ net := by
  obtain ⟨d, -, htalk, hx⟩ := h
  rw [hx, hx]
  refine Dialogue.on_congr hsame fun result l hl e he => ?_
  have he' := htalk result l hl e he
  cases e with
  | sent u r outcome => exact Request.not_isEnding he'.2
  | timed u reading => rfl

/-! ## 2. Probes and snapshots talk -/

theorem Probe.talks_ping (t : Target) : Talks t fun _ net => ping net t :=
  (Talks.ask rfl).bind fun pong => Talks.now.bind fun stop =>
    Talks.pure (if isAlive pong then stop else none)

theorem Scan.talks_resume (t : Target) (pageSize : Value) (rounds : Nat) (s : Sweep) :
    Talks t fun _ net => resume (net.server t) pageSize rounds s := by
  induction rounds generalizing s with
  | zero => exact Talks.pure none
  | succ rounds ih =>
    refine (Talks.ask rfl).bind fun reply => (Talks.ofExcept (s.absorb reply)).bind fun step => ?_
    cases step with
    | inl next => exact ih next
    | inr scan => exact Talks.pure (some scan)

theorem KeyInfo.talks_load (t : Target) (keys : List Text) :
    Talks t fun _ net => load (net.server t) keys := by
  unfold load
  cases keys with
  | nil => exact Talks.pure []
  | cons key keys =>
    refine (Talks.ofExcept _).bind fun names => (Talks.ask rfl).outcome.bind fun answer => ?_
    cases answer with
    | error e => exact Talks.pure _
    | ok replies => exact Talks.ofExcept _

theorem Bucket.request_isCommand (b : Bucket) (keys : List Bytes) :
    (b.request keys).isCommand = true := by
  cases b <;> rfl

theorem Bucket.talks_fetch (t : Target) (b : Bucket) (keys : List Text) :
    Talks t fun _ net => b.fetch (net.server t) keys := by
  unfold fetch
  cases keys.mapM encodeKey with
  | error e => exact Talks.pure _
  | ok names => exact (Talks.ask (b.request_isCommand names)).outcome

theorem Payload.talks_fetchAll (t : Target) (buckets : List (Bucket × List Text)) :
    Talks t fun _ net => fetchAll (net.server t) buckets := by
  induction buckets with
  | nil => exact Talks.pure []
  | cons bucket buckets ih =>
    exact (bucket.1.talks_fetch t bucket.2).bind fun outcome => ih.bind fun others => Talks.pure _

namespace Snapshot

theorem talks_sweep (t : Target) (plan : Plan) (rounds : Nat) :
    Talks t fun _ net => sweep (net.server t) plan rounds t := by
  unfold sweep
  refine (Scan.talks_resume t plan.limits.pageSize rounds _).outcome.bind fun outcome => ?_
  cases outcome with
  | error e => exact Talks.throw _
  | ok scan => exact Talks.pure scan

theorem talks_prepare (t : Target) (plan : Plan) (rounds : Nat) :
    Talks t fun _ net => prepare (net.server t) plan rounds t := by
  unfold prepare
  refine (talks_sweep t plan rounds).bind fun scan => ?_
  cases scan with
  | none => exact Talks.pure none
  | some scan =>
    refine (KeyInfo.talks_load t scan.keys).bind fun infos => ?_
    exact (Talks.ofExcept _).bind fun records => Talks.pure _

theorem talks_read (t : Target) (plan : Plan) (rounds : Nat) :
    Talks t fun _ net => read (net.server t) plan rounds t := by
  simp only [read_eq]
  refine (talks_prepare t plan rounds).bind fun prepared => ?_
  cases prepared with
  | none => exact Talks.pure none
  | some p =>
    refine (Payload.talks_fetchAll t _).bind fun tasks => ?_
    exact (Talks.ofExcept _).bind fun snapshot => Talks.pure _

end Snapshot

/-! ## 3. Visits -/

/-- **What is exchanged in a visit to a target**: it refuses to connect, or there is talk, and then
the connection is ended.  Disconnecting is asked for if and only if closing worked. -/
inductive Visit (t : Target) (limit : Value) (replyLimit : Option Value) : List Exchange → Prop
  | refused (e : Failure) : Visit t limit replyLimit [.sent t (.connect limit replyLimit) (.error e)]
  | broken {client : Value} {talk : List Exchange} (htalk : Talk t talk) (e : Failure) :
    Visit t limit replyLimit (.sent t (.connect limit replyLimit) (.ok client) ::
      talk ++ [.sent t .close (.error e)])
  | ended {client closed : Value} {talk : List Exchange} (htalk : Talk t talk)
    (outcome : Except Failure Value) :
    Visit t limit replyLimit (.sent t (.connect limit replyLimit) (.ok client) ::
      talk ++ [.sent t .close (.ok closed), .sent t .disconnect outcome])

section HangUp

variable {t : Target} {limit : Value} {replyLimit : Option Value}

/-- Talk and hanging up make a visit. -/
theorem Visit.of_hangUp {client : Value} {talk ending : List Exchange} (htalk : Talk t talk)
    (hending : (Dialogue.Step.hangUp t).Logs () ending) :
    Visit t limit replyLimit (.sent t (.connect limit replyLimit) (.ok client) :: talk ++ ending) := by
  cases hending with
  | broken _ e => exact .broken htalk e
  | ended _ v outcome => exact .ended htalk outcome

/-- **A visit is refused, or it is talk and hanging up.** -/
theorem Visit.refused_or_hangUp {l : List Exchange} (h : Visit t limit replyLimit l) :
    (∃ e, l = [.sent t (.connect limit replyLimit) (.error e)]) ∨
    ∃ client talk ending, Talk t talk ∧ (Dialogue.Step.hangUp t).Logs () ending ∧
      l = .sent t (.connect limit replyLimit) (.ok client) :: talk ++ ending := by
  cases h with
  | refused e => exact .inl ⟨e, rfl⟩
  | @broken client talk htalk e => exact .inr ⟨client, talk, _, htalk, .broken t e, rfl⟩
  | @ended client closed talk htalk outcome =>
    exact .inr ⟨client, talk, _, htalk, .ended t closed outcome, rfl⟩

end HangUp

/-- A session that connects to a target, talks to it, and hangs up, makes a visit. -/
theorem spoken_visit {t : Target} {x : ∀ σ : Type, Network σ → Session σ α} (hx : Talks t x)
    (limit : Value) (replyLimit : Option Value) :
    Spoken (fun _ l => Visit t limit replyLimit l) fun σ net =>
      (net.server t).ask (.connect limit replyLimit) >>= fun _ =>
        (net.server t).thenHangUp (x σ net) := by
  refine Spoken.bind (Q := fun outcome l => l = [.sent t (.connect limit replyLimit) outcome])
    (Spoken.ask rfl fun _ => rfl) ?_ fun client => ?_
  · rintro e l rfl
    exact .refused e
  refine (Returns.outcome hx).bind fun result => (Returns.hangUp t).bind fun _ => Spoken.ofExcept ?_
  rintro ending hending talk htalk _ rfl
  simpa using Visit.of_hangUp htalk hending

/-- **What is exchanged with a target that is visited until there is an outcome.**  As long as there is
none, the connection is open. -/
inductive Stay (t : Target) (limit : Value) (replyLimit : Option Value) :
    Except Failure (Option α) → List Exchange → Prop
  | ended {outcome : Except Failure (Option α)} {l : List Exchange} (hover : outcome ≠ .ok none)
    (hvisit : Visit t limit replyLimit l) : Stay t limit replyLimit outcome l
  | underWay {client : Value} {talk : List Exchange} (htalk : Talk t talk) :
    Stay t limit replyLimit (.ok none) (.sent t (.connect limit replyLimit) (.ok client) :: talk)

/-- With an outcome, the visit is over. -/
theorem Stay.visit {t : Target} {limit : Value} {replyLimit : Option Value}
    {outcome : Except Failure (Option α)} {l : List Exchange} (h : Stay t limit replyLimit outcome l)
    (hover : outcome ≠ .ok none) : Visit t limit replyLimit l := by
  cases h with
  | ended _ hvisit => exact hvisit
  | underWay _ => exact absurd rfl hover

/-- What is made of a result does not matter here. -/
theorem Stay.map {t : Target} {limit : Value} {replyLimit : Option Value}
    {outcome : Except Failure (Option α)} {l : List Exchange} (h : Stay t limit replyLimit outcome l)
    (f : α → β) : Stay t limit replyLimit (outcome.map (Option.map f)) l := by
  cases h with
  | ended hover hvisit =>
    refine .ended (fun hnone => ?_) hvisit
    rcases outcome with e | _ | a <;> cases hnone
    exact hover rfl
  | underWay htalk => exact .underWay htalk

theorem Snapshot.spoken_take (t : Target) (plan : Plan) (rounds : Nat) :
    Spoken (Stay t plan.connectLimit none) fun _ net => take (net.server t) plan rounds t := by
  refine Spoken.bind (Q := fun outcome l => l = [.sent t (.connect plan.connectLimit none) outcome])
    (Spoken.ask rfl fun _ => rfl) ?_ fun client => ?_
  · rintro e l rfl
    exact .ended nofun (.refused e)
  refine (Returns.outcome (talks_read t plan rounds)).bind fun result => ?_
  have hend : ∀ result : Except Failure (Option Snapshot), result ≠ .ok none →
      Spoken (fun outcome ending => ∀ talk, Talk t talk → ∀ connect,
        connect = [.sent t (.connect plan.connectLimit none) (.ok client)] →
        Stay t plan.connectLimit none outcome (connect ++ (talk ++ ending))) fun _ net =>
          (net.server t).hangUp >>= fun _ => Session.ofExcept result := by
    intro result hover
    refine (Returns.hangUp t).bind fun _ => Spoken.ofExcept ?_
    rintro ending hending talk htalk _ rfl
    refine .ended hover ?_
    simpa using Visit.of_hangUp htalk hending
  rcases result with e | _ | snapshot
  · exact hend _ nofun
  · refine Spoken.pure ?_
    rintro talk htalk _ rfl
    rw [List.append_nil]
    exact .underWay htalk
  · exact hend _ nofun

/-- What is exchanged in a probe: the clock is read, and then the target is visited. -/
def Probing (limit : Value) (t : Target) (l : List Exchange) : Prop :=
  ∃ reading visit, l = .timed t reading :: visit ∧ Visit t limit (some limit) visit

namespace Probe

/-- A probe never fails, whatever comes of the attempt to reach its target. -/
theorem run_run (net : Network σ) (limit : Value) (t : Target) (s : σ) :
    (run net limit t).run s = (.ok (ofAttempt t ((attempt net limit t).run s).1),
      ((attempt net limit t).run s).2) := rfl

/-- Nor do the probes of all targets. -/
theorem exists_runAll (net : Network σ) (limit : Value) : ∀ (ts : List Target) (s : σ),
    ∃ probes next, (runAll net limit ts).run s = (.ok probes, next)
  | [], s => ⟨[], s, rfl⟩
  | t :: ts, s => by
    obtain ⟨probes, next, hrest⟩ := exists_runAll net limit ts ((attempt net limit t).run s).2
    refine ⟨ofAttempt t ((attempt net limit t).run s).1 :: probes, next, ?_⟩
    rw [runAll, List.mapM_cons, Session.run_bind_ok (run_run net limit t s)]
    exact Session.run_bind_ok hrest _

theorem target_ofAttempt (t : Target) (outcome : Except Failure (Option Binary64)) :
    (ofAttempt t outcome).target = t := by
  unfold ofAttempt
  split <;> rfl

/-- Each target has a probe, of some attempt to reach it. -/
theorem attempts_runAll {net : Network σ} {limit : Value} : ∀ {ts : List Target} {s next : σ}
    {probes : List Probe}, (runAll net limit ts).run s = (.ok probes, next) →
    List.Forall₂ (fun t p => ∃ outcome, p = ofAttempt t outcome) ts probes
  | [], s, next, probes, h => by
    obtain ⟨rfl, -⟩ := Session.run_pure_eq_ok.mp h
    exact .nil
  | t :: ts, s, next, probes, h => by
    rw [runAll, List.mapM_cons] at h
    obtain ⟨p, probed, hp, h⟩ := Session.run_bind_eq_ok.mp h
    obtain ⟨rest, last, hrest, h⟩ := Session.run_bind_eq_ok.mp h
    obtain ⟨rfl, -⟩ := Session.run_pure_eq_ok.mp h
    obtain ⟨hprobe, -⟩ := Prod.mk.inj ((run_run net limit t s).symm.trans hp)
    exact .cons ⟨_, (Except.ok.inj hprobe).symm⟩ (attempts_runAll hrest)

/-- Probes are of the targets that are probed. -/
theorem targets_runAll {net : Network σ} {limit : Value} {ts : List Target} {s next : σ}
    {probes : List Probe} (h : (runAll net limit ts).run s = (.ok probes, next)) :
    probes.map (·.target) = ts := by
  have htargets : List.Forall₂ (· = ·) (probes.map (·.target)) ts := by
    rw [List.forall₂_map_left_iff]
    refine (attempts_runAll h).flip.imp fun p t ⟨outcome, hp⟩ => ?_
    rw [hp, target_ofAttempt]
  rwa [List.forall₂_eq_eq_eq] at htargets

theorem spoken_attempt (limit : Value) (t : Target) :
    Spoken (fun _ l => Probing limit t l) fun _ net => attempt net limit t := by
  have hvisit : ∀ (σ : Type) (net : Network σ), attempt net limit t = net.now t >>= fun start =>
      ((net.server t).ask (.connect limit (some limit)) >>= fun _ =>
        (net.server t).thenHangUp (ping net t)) >>= fun stop =>
          pure (latencyBetween start stop) := by
    intro σ net
    simp only [attempt, Pool.opening_ofTarget, bind_assoc]
  simp only [hvisit]
  refine (Returns.now t).bind fun start =>
    (spoken_visit (talks_ping t) limit (some limit)).bind ?_ fun stop => Spoken.pure ?_
  · rintro e visit hvisit _ rfl
    exact ⟨start, visit, rfl, hvisit⟩
  · rintro visit hvisit _ rfl
    exact ⟨start, visit, by rw [List.append_nil]; rfl, hvisit⟩

/-- **A probe always has a result**, which is about its target. -/
theorem returns_run (limit : Value) (t : Target) :
    Returns (fun p l => p.target = t ∧ Probing limit t l) fun _ net => run net limit t := by
  unfold run
  refine (Returns.outcome (spoken_attempt limit t)).bind fun result => Spoken.pure ?_
  intro l hl
  exact ⟨_, rfl, target_ofAttempt t result, by rwa [List.append_nil]⟩

end Probe

/-! ## 4. Courses of a snapshot -/

section Logs

variable {t : Target} {net : Network σ} {s next : σ × List Exchange}

/-- What is exchanged in talk is talk. -/
theorem Talks.logs {x : ∀ σ : Type, Network σ → Session σ α} (h : Talks t x)
    {result : Except Failure α} (hrun : (x _ net.observed).run s = (result, next)) :
    ∃ talk, next.2 = s.2 ++ talk ∧ Talk t talk := by
  obtain ⟨_, _, talk, hrun', htalk⟩ := h.runs net s
  obtain ⟨-, rfl⟩ := Prod.mk.inj (hrun.symm.trans hrun')
  exact ⟨talk, rfl, htalk⟩

theorem logs_hangUp (net : Network σ) (t : Target) (s : σ × List Exchange) :
    ∃ ending, ((net.observed.server t).hangUp.run s).2.2 = s.2 ++ ending ∧
      (Dialogue.Step.hangUp t).Logs () ending := by
  obtain ⟨_, next, ending, hrun, hending⟩ := (Dialogue.Step.hangUp t).run_observed net s
  have hrun' : (net.observed.server t).hangUp.run s = (.ok (), next, s.2 ++ ending) := hrun
  exact ⟨ending, by rw [hrun'], hending⟩

theorem logs_ask {r : Request} {outcome : Except Failure Value}
    (h : net.observed.server t r s = (outcome, next)) : next.2 = s.2 ++ [.sent t r outcome] := by
  obtain ⟨rfl, rfl⟩ := Prod.mk.inj h
  rfl

/-- **A connection that is ended after talk** was a visit, with any outcome. -/
theorem stay_of_hangUp {limit : Value} {replyLimit : Option Value} {client : Value}
    {opened last : σ × List Exchange} {talk : List Exchange} {outcome : Except Failure (Option α)}
    (hover : outcome ≠ .ok none)
    (hconnect : net.observed.server t (.connect limit replyLimit) s = (.ok client, opened))
    (hlast : last.2 = opened.2 ++ talk) (htalk : Talk t talk) :
    ∃ l, ((net.observed.server t).hangUp.run last).2.2 = s.2 ++ l ∧
      Stay t limit replyLimit outcome l := by
  obtain ⟨ending, hending, hends⟩ := logs_hangUp net t last
  have hvisit : Visit t limit replyLimit
      (.sent t (.connect limit replyLimit) (.ok client) :: talk ++ ending) :=
    .of_hangUp htalk hends
  refine ⟨_, ?_, .ended hover hvisit⟩
  rw [hending, hlast, logs_ask hconnect]
  simp

theorem Server.Lists.observed (h : (net.server t).Lists) : (net.observed.server t).Lists :=
  fun r s => h r s.1

namespace Payload.Gathering

variable {g g' : Gathering (σ × List Exchange)}

theorem Step.talk (h : Step (net.observed.server t) g g') :
    ∃ talk, g'.state.2 = g.state.2 ++ talk ∧ Talk t talk := by
  cases h with
  | @read _ _ _ _ b keys _ _ hfetch => exact (b.talks_fetch t keys).logs hfetch

/-- **Reading buckets is talk**, in whatever order. -/
theorem Reads.talk (h : Reads (net.observed.server t) g g') :
    ∃ talk, g'.state.2 = g.state.2 ++ talk ∧ Talk t talk := by
  induction h with
  | refl => exact ⟨[], (List.append_nil _).symm, .nil t⟩
  | tail _ hstep ih =>
    obtain ⟨talk, htalk, htalks⟩ := ih
    obtain ⟨talk', htalk', htalks'⟩ := hstep.talk
    exact ⟨talk ++ talk', by rw [htalk', htalk, List.append_assoc], htalks.append htalks'⟩

end Payload.Gathering

/-- **In every course of a snapshot**, a target is visited, and the connection is open only as long as
the sweep is under way.  That needs a server that answers reads with lists, or a snapshot that did not
fail: then no bucket was left behind. -/
theorem Snapshot.Course.stay {plan : Plan} {rounds : Nat} {result : Except Failure (Option Snapshot)}
    (h : Course (net.observed.server t) plan rounds t s result next)
    (hread : ((net.server t).Lists ∧ ∃ budget, plan.budget = .int budget) ∨
      ∃ found, result = .ok found) :
    ∃ l, next.2 = s.2 ++ l ∧ Stay t plan.connectLimit none result l := by
  cases h with
  | refused hconnect => exact ⟨_, logs_ask hconnect, .ended nofun (.refused _)⟩
  | failed hconnect hprepare =>
    obtain ⟨talk, htalk, htalks⟩ := (talks_prepare t plan rounds).logs hprepare
    exact stay_of_hangUp nofun hconnect htalk htalks
  | underWay hconnect hprepare =>
    obtain ⟨talk, htalk, htalks⟩ := (talks_prepare t plan rounds).logs hprepare
    exact ⟨_, by rw [htalk, logs_ask hconnect, List.append_assoc]; rfl, .underWay htalks⟩
  | returned hconnect hprepare hreads _ =>
    obtain ⟨talk, htalk, htalks⟩ := (talks_prepare t plan rounds).logs hprepare
    obtain ⟨talk', htalk', htalks'⟩ := hreads.talk
    refine stay_of_hangUp nofun hconnect ?_ (htalks.append htalks')
    rw [htalk', htalk, List.append_assoc]
  | raised _ _ hreads ht hfails _ =>
    rcases hread with ⟨hlists, budget, hbudget⟩ | ⟨found, hfound⟩
    · -- a server that answers with lists fails no task
      have hreadable := hreads.readable hlists.observed nofun _ ht
      rw [hbudget] at hfails
      exact absurd hfails (hreadable.not_fails budget _ _)
    · cases hfound

end Logs

section Parting

variable {t : Target} {net other : Network σ} (hsame : net.PartsLike other)

include hsame

theorem Payload.Gathering.Step.congr {g g' : Gathering σ} (h : Step (net.server t) g g') :
    Step (other.server t) g g' := by
  cases h with
  | @read s next _ _ b keys _ outcome hfetch =>
    have hfetch' : (b.fetch (other.server t) keys).run s = (.ok outcome, next) := by
      rw [← hfetch]
      exact congrArg (fun x : Session σ _ => x.run s) ((b.talks_fetch t keys).congr hsame)
    exact .read hfetch'

/-- **However a connection is ended, the same can come of a snapshot**, with any server. -/
theorem Snapshot.Course.parting {plan : Plan} {rounds : Nat} {s next : σ}
    {result : Except Failure (Option Snapshot)}
    (h : Course (net.server t) plan rounds t s result next) :
    ∃ last, Course (other.server t) plan rounds t s result last := by
  have hconnect : ∀ {outcome : Except Failure Value} {opened : σ},
      net.server t (.connect plan.connectLimit none) s = (outcome, opened) →
      other.server t (.connect plan.connectLimit none) s = (outcome, opened) :=
    fun hnet => (hsame.server t _ s rfl).trans hnet
  have hprepare := (talks_prepare t plan rounds).congr hsame
  have hreads : ∀ {g g' : Payload.Gathering σ}, Payload.Gathering.Reads (net.server t) g g' →
      Payload.Gathering.Reads (other.server t) g g' :=
    fun hnet => hnet.lift id fun _ _ hstep => Payload.Gathering.Step.congr hsame hstep
  cases h with
  | refused hrefused => exact ⟨_, .refused (hconnect hrefused)⟩
  | failed hopened hfailed => exact ⟨_, .failed (hconnect hopened) (hprepare ▸ hfailed)⟩
  | underWay hopened hunderWay => exact ⟨_, .underWay (hconnect hopened) (hprepare ▸ hunderWay)⟩
  | returned hopened hprepared hnet hfinish =>
    exact ⟨_, .returned (hconnect hopened) (hprepare ▸ hprepared) (hreads hnet) hfinish⟩
  | raised hopened hprepared hnet ht hfails _ =>
    exact ⟨_, .raised (hconnect hopened) (hprepare ▸ hprepared) (hreads hnet) ht hfails .refl⟩

end Parting

end Keyscope
