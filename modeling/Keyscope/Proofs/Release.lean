/-
# Connections that are released

A connection that was opened has to be released: whatever was said over it, the last thing asked of it
is to disconnect.  Hanging up asks two things, one after the other, and the second one only if the first
one worked (`Dialogue.Step.Logs`).  So all that happens before does not matter, and neither does what
disconnecting itself is answered, but closing does: a connection is released if and only if closing it
worked (`Ended`).

Probes and snapshots leave a connection in no other way than by hanging up.  Since a visit and the log of
a probe both end so (`Visit.ending`, `Probe.Exchanged.ending`), one lemma about hanging up settles them
all (`ended_of_hangUp`), also for probes at the same time and for any order of the commands.
-/
import Keyscope.Proofs.Connections
import Keyscope.Proofs.Probing

namespace Keyscope

variable {t : Target} {l before ending : List Exchange}

/-! ## 1. How a connection ends -/

/-- A request to connect was answered with a client. -/
def Opened (t : Target) (l : List Exchange) : Prop :=
  ∃ limit replyLimit client, .sent t (.connect limit replyLimit) (.ok client) ∈ l

/-- Closing worked. -/
def Closed (t : Target) (l : List Exchange) : Prop := ∃ v, .sent t .close (.ok v) ∈ l

/-- **A connection was released**: disconnecting was asked for once, and nothing after it. -/
def Released (t : Target) (l : List Exchange) : Prop :=
  ∃ before outcome, l = before ++ [.sent t .disconnect outcome] ∧
    ∀ u outcome', .sent u .disconnect outcome' ∉ before

/-- There is nothing in a list that ends a connection. -/
def Unending (l : List Exchange) : Prop := ∀ e ∈ l, e.isEnding = false

/-- **How a connection was ended.** -/
structure Ended (t : Target) (l : List Exchange) : Prop where
  /-- Closing was asked for once, and after it only disconnecting, at most once. -/
  closing : ∃ before outcome after, l = before ++ .sent t .close outcome :: after ∧ Unending before ∧
    (after = [] ∨ ∃ outcome', after = [.sent t .disconnect outcome'])
  released_iff : Released t l ↔ Closed t l
  /-- Unless closing worked, disconnecting was never asked for. -/
  kept : ¬ Closed t l → ∀ u outcome, .sent u .disconnect outcome ∉ l

/-- **How connections were left**: what was opened was ended, and nothing else was. -/
structure Parted (t : Target) (l : List Exchange) : Prop where
  ended : Opened t l → Ended t l
  unending : ¬ Opened t l → Unending l

theorem Unending.not_mem (h : Unending l) {u : Target} {r : Request} (hr : r.isEnding = true)
    (outcome : Except Failure Value) : .sent u r outcome ∉ l := by
  intro hmem
  cases hr.symm.trans (h _ hmem)

/-- What ends a connection comes after what does not. -/
theorem Unending.mem_of_append (h : Unending before) {u : Target} {r : Request}
    (hr : r.isEnding = true) {outcome : Except Failure Value}
    (hmem : .sent u r outcome ∈ before ++ l) : .sent u r outcome ∈ l :=
  (List.mem_append.mp hmem).resolve_left (h.not_mem hr outcome)

theorem Released.exists_mem (h : Released t l) : ∃ outcome, .sent t .disconnect outcome ∈ l := by
  obtain ⟨before, outcome, rfl, -⟩ := h
  exact ⟨outcome, List.mem_append_right _ (List.mem_singleton.mpr rfl)⟩

theorem Unending.append {l' : List Exchange} (h : Unending l) (h' : Unending l') :
    Unending (l ++ l') := List.forall_mem_append.mpr ⟨h, h'⟩

/-- **Hanging up ends a connection**, whatever was exchanged over it. -/
theorem ended_of_hangUp (hbefore : Unending before) (h : (Dialogue.Step.hangUp t).Logs () ending) :
    Ended t (before ++ ending) := by
  cases h with
  | broken t e =>
    have hclosed : ¬ Closed t (before ++ [.sent t .close (.error e)]) := by
      rintro ⟨v, hv⟩
      cases List.mem_singleton.mp (hbefore.mem_of_append rfl hv)
    have hkept : ∀ u outcome,
        Exchange.sent u .disconnect outcome ∉ before ++ [.sent t .close (.error e)] := by
      intro u outcome hmem
      cases List.mem_singleton.mp (hbefore.mem_of_append rfl hmem)
    refine ⟨⟨before, _, [], rfl, hbefore, .inl rfl⟩, iff_of_false ?_ hclosed, fun _ => hkept⟩
    intro hreleased
    obtain ⟨outcome, hmem⟩ := hreleased.exists_mem
    exact hkept t outcome hmem
  | ended t v outcome =>
    have hclosed : Closed t (before ++ [.sent t .close (.ok v), .sent t .disconnect outcome]) :=
      ⟨v, List.mem_append_right _ List.mem_cons_self⟩
    refine ⟨⟨before, _, [_], rfl, hbefore, .inr ⟨outcome, rfl⟩⟩, iff_of_true ?_ hclosed,
      fun h => absurd hclosed h⟩
    refine ⟨before ++ [.sent t .close (.ok v)], outcome, by rw [List.append_assoc]; rfl, ?_⟩
    intro u outcome' hmem
    cases List.mem_singleton.mp (hbefore.mem_of_append rfl hmem)

/-- So connections are parted from by hanging up. -/
theorem parted_of_hangUp (hopened : Opened t before) (hbefore : Unending before)
    (h : (Dialogue.Step.hangUp t).Logs () ending) : Parted t (before ++ ending) := by
  refine ⟨fun _ => ended_of_hangUp hbefore h, fun hnone => ?_⟩
  obtain ⟨limit, replyLimit, client, hmem⟩ := hopened
  exact absurd ⟨limit, replyLimit, client, List.mem_append_left _ hmem⟩ hnone

/-! ## 2. Visits and probes -/

theorem Talk.unending {talk : List Exchange} (h : Talk t talk) : Unending talk := by
  intro e he
  cases e with
  | sent u r outcome => exact Request.not_isEnding (h _ he).2
  | timed u reading => rfl

/-- Readings of the clock before a visit change nothing. -/
theorem Visit.parted {limit : Value} {replyLimit : Option Value} (h : Visit t limit replyLimit l)
    (clock : List Exchange) (hclock : ∀ e ∈ clock, ∃ u reading, e = .timed u reading) :
    Parted t (clock ++ l) := by
  have hunending : Unending clock := by
    intro e he
    obtain ⟨u, reading, rfl⟩ := hclock e he
    rfl
  rcases h.refused_or_hangUp with ⟨e, rfl⟩ | ⟨client, talk, ending, htalk, hending, rfl⟩
  · have hopened : ¬ Opened t (clock ++ [.sent t (.connect limit replyLimit) (.error e)]) := by
      rintro ⟨limit', replyLimit', client, hmem⟩
      rcases List.mem_append.mp hmem with hmem | hmem
      · obtain ⟨u, reading, hsame⟩ := hclock _ hmem
        cases hsame
      · cases List.mem_singleton.mp hmem
    exact ⟨fun h => absurd h hopened, fun _ => hunending.append (List.forall_mem_singleton.mpr rfl)⟩
  · rw [← List.append_assoc]
    refine parted_of_hangUp ⟨limit, replyLimit, client, ?_⟩ ?_ hending
    · exact List.mem_append_right _ List.mem_cons_self
    · exact hunending.append (List.forall_mem_cons.mpr ⟨rfl, htalk.unending⟩)

/-- A visit is parted from once there is an outcome. -/
theorem Stay.parted {α : Type} {limit : Value} {replyLimit : Option Value}
    {outcome : Except Failure (Option α)} (h : Stay t limit replyLimit outcome l) :
    (outcome ≠ .ok none → Parted t l) ∧ (outcome = .ok none → Opened t l ∧ Unending l) := by
  cases h with
  | ended hover hvisit => exact ⟨fun _ => hvisit.parted [] nofun, fun h => absurd h hover⟩
  | underWay htalk =>
    refine ⟨fun h => absurd rfl h, fun _ => ⟨⟨limit, replyLimit, _, List.mem_cons_self⟩, ?_⟩⟩
    exact List.forall_mem_cons.mpr ⟨rfl, htalk.unending⟩

theorem Probing.parted {limit : Value} (h : Probing limit t l) : Parted t l := by
  obtain ⟨reading, visit, rfl, hvisit⟩ := h
  exact hvisit.parted [_] (List.forall_mem_singleton.mpr ⟨t, reading, rfl⟩)

namespace Probe

/-- The log of a probe that is made in turns with others is one of a visit, too. -/
theorem Exchanged.probing {limit : Value} {p : Probe} (h : Exchanged limit t l p) :
    Probing limit t l := by
  cases h with
  | refused start e => exact ⟨start, _, rfl, .refused e⟩
  | silent start client e hending =>
    have htalk : Talk t [.sent t .ping (.error e)] := List.forall_mem_singleton.mpr ⟨rfl, rfl⟩
    exact ⟨start, _, rfl, .of_hangUp htalk hending⟩
  | answered start stop client pong hending =>
    have htalk : Talk t [.sent t .ping (.ok pong), .timed t stop] :=
      List.forall_mem_cons.mpr ⟨⟨rfl, rfl⟩, List.forall_mem_singleton.mpr rfl⟩
    exact ⟨start, _, rfl, .of_hangUp htalk hending⟩

end Probe

/-! ## 3. All runs -/

/-- A session over a connection that is ended, whatever it sends in whatever order. -/
theorem exists_parted {α : Type} {x : ∀ σ : Type, Network σ → Session σ α} (hx : Talks t x)
    (limit : Value) (replyLimit : Option Value) {σ : Type} (net : Network σ) (s : σ) :
    ∃ result next l, ((net.observed.server t).ask (.connect limit replyLimit) >>= fun _ =>
        (net.observed.server t).thenHangUp (x _ net.observed)).run (s, []) = (result, next, l) ∧
      Parted t l := by
  obtain ⟨result, next, l, hrun, hvisit⟩ := (spoken_visit hx limit replyLimit).runs net (s, [])
  exact ⟨result, next, l, hrun, hvisit.parted [] nofun⟩

/-- **When connections are released.**  Whatever the servers of a network do, to whatever is asked of
them, a probe has a result, and so has a snapshot whose buckets are read one after the other, or a
failure, unless its sweep is still under way.  How they were parted from their target is told by what
they exchanged with it (`Parted`).  If it was connected to, closing was asked for once, after all that was
said, and the connection was released, by disconnecting once and as the last thing, if and only if
closing worked; what disconnecting was answered does not matter.  If it was not connected to, nothing was
closed.

The same is true of each of many probes at the same time, in whatever order they take turns; of a
snapshot whose buckets are read in any order, if the server answers reads with lists or the snapshot
does not fail; and of any other session over a connection that is ended when it is over. -/
theorem released_iff_closed {σ : Type} (net : Network σ) (t : Target) (s : σ) :
    (∀ limit : Value, ∃ p next l,
      (Probe.run net.observed limit t).run (s, []) = (.ok p, next, l) ∧ Parted t l) ∧
    (∀ (plan : Snapshot.Plan) (rounds : Nat), ∃ result next l,
      (Snapshot.take (net.observed.server t) plan rounds t).run (s, []) = (result, next, l) ∧
      (result ≠ .ok none → Parted t l) ∧ (result = .ok none → Opened t l ∧ Unending l)) ∧
    (∀ (limit : Value) (sites : List (Probe.Site σ)) (order : List Nat) (c : Crew σ Probe),
      Crew.Runs order (Probe.crew limit s sites) c →
      ∀ (i : Nat) (site : Probe.Site σ) (w : Worker σ Probe) (result : Except Failure Probe),
        sites[i]? = some site → c.workers[i]? = some w → w.left = .done result →
        Parted site.target w.log) ∧
    (∀ (plan : Snapshot.Plan) (rounds : Nat) (result : Except Failure (Option Snapshot)) (next : σ)
      (l : List Exchange),
      Snapshot.Course (net.observed.server t) plan rounds t (s, []) result (next, l) →
      ((net.server t).Lists ∧ ∃ budget, plan.budget = .int budget) ∨ (∃ found, result = .ok found) →
      (result ≠ .ok none → Parted t l) ∧ (result = .ok none → Opened t l ∧ Unending l)) ∧
    ∀ (α : Type) (x : ∀ σ : Type, Network σ → Session σ α), Talks t x →
      ∀ (limit : Value) (replyLimit : Option Value), ∃ result next l,
        ((net.observed.server t).ask (.connect limit replyLimit) >>= fun _ =>
          (net.observed.server t).thenHangUp (x _ net.observed)).run (s, []) = (result, next, l) ∧
        Parted t l := by
  refine ⟨fun limit => ?_, fun plan rounds => ?_, ?_, ?_, fun α x hx limit replyLimit => ?_⟩
  · obtain ⟨_, next, l, hrun, p, rfl, -, hprobing⟩ := (Probe.returns_run limit t).runs net (s, [])
    exact ⟨p, next, l, hrun, hprobing.parted⟩
  · obtain ⟨result, next, l, hrun, hstay⟩ :=
      (Snapshot.spoken_take t plan rounds).runs net (s, [])
    exact ⟨result, next, l, hrun, hstay.parted⟩
  · intro limit sites order c hruns i site w result hi hw hdone
    obtain ⟨p, -, hexchanged, -⟩ := Probe.exchanged_of_done hruns hi hw hdone
    exact hexchanged.probing.parted
  · intro plan rounds result next l hcourse hread
    obtain ⟨_, rfl, hstay⟩ := hcourse.stay hread
    exact hstay.parted
  · exact exists_parted hx limit replyLimit net s

/-- A connection breaks. -/
def Failure.reset : Failure := .remote ⟨"ConnectionError", some "reset by peer", none⟩

/-- A network whose servers answer a ping and fail at whatever else is asked of them, except for
closing, if that works. -/
def Network.curt (closes : Bool) : Network Unit where
  server _ r s :=
    (match r with
      | .connect .. => .ok .null
      | .ping => .ok (.bool true)
      | .close => if closes then .ok .null else .error .reset
      | _ => .error .reset, s)
  clock _ s := (some (.real 0), s)

/-- Where closing works, connections are released, even if all else but a ping fails and disconnecting
itself does: that of a probe, that of a probe in turns, that of a snapshot whose sweep fails, and one over
which buckets are asked for in another order than theirs. -/
theorem released_curt :
    (∃ p next l, (Probe.run (Network.curt true).observed .null Snapshot.here).run ((), []) =
      (.ok p, next, l) ∧ Released Snapshot.here l) ∧
    (∃ e next l, (Snapshot.take ((Network.curt true).observed.server Snapshot.here) .ofTwo 1
      Snapshot.here).run ((), []) = (.error e, next, l) ∧ Released Snapshot.here l) ∧
    (∃ c w, Crew.Runs [0, 0, 0, 0, 0, 0] (Probe.crew .null () [⟨Network.curt true, Snapshot.here⟩]) c ∧
      c.workers[0]? = some w ∧ Released Snapshot.here w.log) ∧
    ∃ found next l, (((Network.curt true).observed.server Snapshot.here).ask (.connect .null none) >>=
      fun _ => ((Network.curt true).observed.server Snapshot.here).thenHangUp
        (Payload.fetchAll ((Network.curt true).observed.server Snapshot.here)
          [(.hashes, ["a"]), (.strings, ["b"])])).run ((), []) = (.ok found, next, l) ∧
      Released Snapshot.here l := by
  obtain ⟨hprobe, hsnapshot, hcrew, -, hany⟩ :=
    released_iff_closed (Network.curt true) Snapshot.here ()
  refine ⟨?_, ?_, ?_, ?_⟩
  · obtain ⟨p, next, l, hrun, hparted⟩ := hprobe .null
    refine ⟨p, next, l, hrun, ?_⟩
    cases hrun
    exact (hparted.ended ⟨.null, some .null, .null, by simp⟩).released_iff.mpr ⟨.null, by simp⟩
  · obtain ⟨result, next, l, hrun, hparted, -⟩ := hsnapshot .ofTwo 1
    cases hrun
    exact ⟨_, _, _, rfl,
      ((hparted nofun).ended ⟨.int 3, none, .null, by simp [Snapshot.Plan.ofTwo]⟩).released_iff.mpr
        ⟨.null, by simp⟩⟩
  · obtain ⟨c, hruns, w, hw, ⟨p, hleft⟩, start, stop, pong, outcome, hlog⟩ :
        ∃ c, Crew.Runs [0, 0, 0, 0, 0, 0]
          (Probe.crew .null () [⟨Network.curt true, Snapshot.here⟩]) c ∧ ∃ w : Worker Unit Probe,
            c.workers[0]? = some w ∧ (∃ p, w.left = .done (.ok p)) ∧
            ∃ start stop pong outcome, w.log = [.timed Snapshot.here start,
              .sent Snapshot.here (.connect .null (some .null)) (.ok .null),
              .sent Snapshot.here .ping pong, .timed Snapshot.here stop,
              .sent Snapshot.here .close (.ok .null), .sent Snapshot.here .disconnect outcome] :=
      ⟨_, .cons (.mk rfl (.step rfl)) (.cons (.mk rfl (.step rfl)) (.cons (.mk rfl (.step rfl))
        (.cons (.mk rfl (.step rfl)) (.cons (.mk rfl (.step rfl)) (.cons (.mk rfl (.step rfl))
        (.nil _)))))), _, rfl, ⟨_, rfl⟩, _, _, _, _, rfl⟩
    have hparted := hcrew .null _ _ c hruns 0 _ w _ rfl hw hleft
    refine ⟨c, w, hruns, hw,
      (hparted.ended ⟨.null, some .null, .null, ?_⟩).released_iff.mpr ⟨.null, ?_⟩⟩
    · simp [hlog]
    · simp [hlog]
  · obtain ⟨result, next, l, hrun, hparted⟩ := hany _ _
      (Payload.talks_fetchAll Snapshot.here [(.hashes, ["a"]), (.strings, ["b"])]) .null none
    cases hrun
    exact ⟨_, _, _, rfl,
      (hparted.ended ⟨.null, none, .null, by simp⟩).released_iff.mpr ⟨.null, by simp⟩⟩

/-- **Where closing does not work, nothing is released.**  A probe finds its target running, and a
snapshot tells why its sweep failed, but neither disconnects. -/
theorem unreleased_curt :
    (∃ p next l, (Probe.run (Network.curt false).observed .null Snapshot.here).run ((), []) =
      (.ok p, next, l) ∧ p.running = true ∧ Opened Snapshot.here l ∧ ¬ Released Snapshot.here l) ∧
    ∃ e next l, (Snapshot.take ((Network.curt false).observed.server Snapshot.here) .ofTwo 1
      Snapshot.here).run ((), []) = (.error e, next, l) ∧ Opened Snapshot.here l ∧
      ¬ Released Snapshot.here l := by
  constructor
  · obtain ⟨p, next, l, hrun, hrunning, hlog⟩ : ∃ p next l,
        (Probe.run (Network.curt false).observed .null Snapshot.here).run ((), []) =
          (.ok p, next, l) ∧ p.running = true ∧
        l = [.timed Snapshot.here (some (.real 0)),
          .sent Snapshot.here (.connect .null (some .null)) (.ok .null),
          .sent Snapshot.here .ping (.ok (.bool true)), .timed Snapshot.here (some (.real 0)),
          .sent Snapshot.here .close (.error .reset)] := ⟨_, _, _, rfl, rfl, rfl⟩
    refine ⟨p, next, l, hrun, hrunning, ⟨.null, some .null, .null, by simp [hlog]⟩, fun hreleased => ?_⟩
    obtain ⟨outcome, hmem⟩ := hreleased.exists_mem
    simp [hlog] at hmem
  · obtain ⟨e, next, l, hrun, hlog⟩ : ∃ e next l,
        (Snapshot.take ((Network.curt false).observed.server Snapshot.here) .ofTwo 1
          Snapshot.here).run ((), []) = (.error e, next, l) ∧
        l = [.sent Snapshot.here (.connect (.int 3) none) (.ok .null),
          .sent Snapshot.here (.scan 0 (.int 100)) (.error .reset),
          .sent Snapshot.here .close (.error .reset)] := ⟨_, _, _, rfl, rfl⟩
    refine ⟨e, next, l, hrun, ⟨.int 3, none, .null, by simp [hlog]⟩, fun hreleased => ?_⟩
    obtain ⟨outcome, hmem⟩ := hreleased.exists_mem
    simp [hlog] at hmem

end Keyscope
