/-
# Calls to a service

What is exchanged with the servers of a network in any number of calls to a service, put together from
visits (`Service.Connects`).  The buckets of a snapshot may be read in any order, so a call may go in
many ways (`Service.Course`), and so may calls one after another (`Service.Courses`).  With servers that
answer reads with lists, connections are opened and ended as they should be in all of them
(`Service.answerAll_connects`).

A sweep has no end if a server never ends it.  It is followed for a number of rounds here, and a call
that is still under way then is the last.
-/
import Keyscope.Proofs.Connections
import Keyscope.Proofs.Service

namespace Keyscope

variable {σ τ : Type}

namespace Service

/-! ## 1. Calls -/

/-- What may be asked of a service. -/
inductive Call where
  | probe
  | list (requested : Value)
  | read (target : Target)

/-- What a service may answer. -/
inductive Reply where
  | probes (probes : List Probe)
  | response (response : Response)
  | snapshot (snapshot : Snapshot)

/-- What a service answers to a call, unless a sweep is still under way. -/
def answer (service : Service) (net : Network σ) (rounds : Nat) : Call → Session σ (Option Reply)
  | .probe => return some (.probes (← service.probe net))
  | .list requested => return (← service.list net rounds requested).map .response
  | .read t => return (← service.read net rounds t).map .snapshot

/-- One call after another.  A call that fails does not end them, but one that is under way does. -/
def answerAll (service : Service) (net : Network σ) (rounds : Nat) :
    List Call → Session σ (List (Except Failure (Option Reply)))
  | [] => return []
  | call :: calls => do
    match ← (service.answer net rounds call).outcome with
    | .ok none => return [.ok none]
    | outcome => return outcome :: (← answerAll service net rounds calls)

/-- **How a call may go.**  All targets are probed for a list, and then a snapshot of the selected one
is taken, if one is. -/
inductive Course (service : Service) (net : Network σ) (rounds : Nat) :
    Call → σ → Except Failure (Option Reply) → σ → Prop
  | probe {s next : σ} {probes : List Probe} (hprobe : (service.probe net).run s = (.ok probes, next)) :
    Course service net rounds .probe s (.ok (some (.probes probes))) next
  | read {t : Target} {s next : σ} {result : Except Failure (Option Snapshot)}
    (hsnapshot : Snapshot.Course (net.server t) service.plan rounds t s result next) :
    Course service net rounds (.read t) s (result.map (Option.map .snapshot)) next
  /-- What is asked for is no text. -/
  | unasked {requested : Value} {s next : σ} {probes : List Probe} {e : Failure}
    (hprobe : (service.probe net).run s = (.ok probes, next))
    (hasked : Probe.requestedText requested = .error e) :
    Course service net rounds (.list requested) s (.error e) next
  | listNone {requested : Value} {s next : σ} {probes : List Probe} {asked : Option Text}
    (hprobe : (service.probe net).run s = (.ok probes, next))
    (hasked : Probe.requestedText requested = .ok asked)
    (hnone : Probe.select (probes.filter (·.running)) asked = none) :
    Course service net rounds (.list requested) s
      (.ok (some (.response (.empty (probes.filter (·.running)))))) next
  | listOne {requested : Value} {s probed next : σ} {probes : List Probe} {asked : Option Text}
    {selected : Probe} {result : Except Failure (Option Snapshot)}
    (hprobe : (service.probe net).run s = (.ok probes, probed))
    (hasked : Probe.requestedText requested = .ok asked)
    (hselected : Probe.select (probes.filter (·.running)) asked = some selected)
    (hsnapshot : Snapshot.Course (net.server selected.target) service.plan rounds selected.target
      probed result next) :
    Course service net rounds (.list requested) s
      ((result.map (Option.map (.ofSnapshot (probes.filter (·.running)) selected))).map
        (Option.map .response)) next

/-- **How calls may go**, one after another. -/
inductive Courses (service : Service) (net : Network σ) (rounds : Nat) :
    List Call → σ → List (Except Failure (Option Reply)) → σ → Prop
  | nil (s : σ) : Courses service net rounds [] s [] s
  | cons {call : Call} {calls : List Call} {s mid next : σ} {outcome : Except Failure (Option Reply)}
    {outcomes : List (Except Failure (Option Reply))}
    (hcall : service.Course net rounds call s outcome mid) (hover : outcome ≠ .ok none)
    (hcalls : Courses service net rounds calls mid outcomes next) :
    Courses service net rounds (call :: calls) s (outcome :: outcomes) next
  | underWay {call : Call} {calls : List Call} {s next : σ}
    (hcall : service.Course net rounds call s (.ok none) next) :
    Courses service net rounds (call :: calls) s [.ok none] next

/-! ## 2. What is exchanged -/

/-- **Every target is probed once**, in order, with the limit of the service. -/
def Probed (service : Service) (probes : List Probe) (l : List Exchange) : Prop :=
  probes.map (·.target) = service.targets ∧ ∃ ls : List (List Exchange), l = ls.flatten ∧
    List.Forall₂ (Probing service.probeLimit) service.targets ls

/-- **What is exchanged in a call.**  Listing probes all targets and then visits the one that is
selected, if one is. -/
inductive Connects (service : Service) : Call → Except Failure (Option Reply) → List Exchange → Prop
  | probe {probes : List Probe} {l : List Exchange} (hprobed : service.Probed probes l) :
    Connects service .probe (.ok (some (.probes probes))) l
  | read {t : Target} {outcome : Except Failure (Option Reply)} {l : List Exchange}
    (hstay : Stay t service.plan.connectLimit none outcome l) : Connects service (.read t) outcome l
  | listNone {requested : Value} {outcome : Except Failure (Option Reply)} {probes : List Probe}
    {l : List Exchange} (hover : outcome ≠ .ok none) (hprobed : service.Probed probes l)
    (hnone : ∀ asked, Probe.requestedText requested = .ok asked →
      Probe.select (probes.filter (·.running)) asked = none)
    (hanswer : ∀ response, outcome = .ok (some (.response response)) → response.selected = none) :
    Connects service (.list requested) outcome l
  | listOne {requested : Value} {outcome : Except Failure (Option Reply)} {probes : List Probe}
    {asked : Option Text} {selected : Probe} {l visit : List Exchange}
    (hprobed : service.Probed probes l) (hasked : Probe.requestedText requested = .ok asked)
    (hselected : Probe.select (probes.filter (·.running)) asked = some selected)
    (hstay : Stay selected.target service.plan.connectLimit none outcome visit)
    (hanswer : ∀ response, outcome = .ok (some (.response response)) →
      response.selected = some selected.id) :
    Connects service (.list requested) outcome (l ++ visit)

/-- **What is exchanged in calls**, one after another: every call has an outcome, unless it is still
under way; then it is the last. -/
inductive ConnectsAll (service : Service) :
    List Call → List (Except Failure (Option Reply) × List Exchange) → Prop
  | nil : ConnectsAll service [] []
  | cons {call : Call} {calls : List Call} {outcome : Except Failure (Option Reply)}
    {l : List Exchange} {made : List (Except Failure (Option Reply) × List Exchange)}
    (hcall : service.Connects call outcome l) (hover : outcome ≠ .ok none)
    (hcalls : ConnectsAll service calls made) : ConnectsAll service (call :: calls) ((outcome, l) :: made)
  | underWay {call : Call} {calls : List Call} {l : List Exchange}
    (hcall : service.Connects call (.ok none) l) : ConnectsAll service (call :: calls) [(.ok none, l)]

theorem returns_probe (service : Service) :
    Returns service.Probed fun _ net => service.probe net := by
  refine Spoken.mono (Returns.mapM (Probe.returns_run service.probeLimit) service.targets) ?_
  rintro _ _ ⟨_, rfl, made, rfl, rfl, hall⟩
  refine ⟨_, rfl, ?_, made.map Prod.snd, ?_, ?_⟩
  · have hsame : List.Forall₂ (· = ·) (made.map fun m => m.1.target) service.targets :=
      List.forall₂_map_left_iff.mpr (hall.flip.imp fun m t h => h.1)
    rw [List.forall₂_eq_eq_eq] at hsame
    rw [List.map_map, ← hsame]
    rfl
  · rw [List.flatMap_def]
  · exact List.forall₂_map_right_iff.mpr (hall.imp fun t m h => h.2)

theorem probed_logs {service : Service} {net : Network σ} {s next : σ × List Exchange}
    {probes : List Probe} (h : (service.probe net.observed).run s = (.ok probes, next)) :
    ∃ l, next.2 = s.2 ++ l ∧ service.Probed probes l := by
  obtain ⟨_, _, l, hrun, _, rfl, hprobed⟩ := Spoken.runs (returns_probe service) net s
  obtain ⟨hsame, rfl⟩ := Prod.mk.inj (h.symm.trans hrun)
  obtain rfl := Except.ok.inj hsame
  exact ⟨l, rfl, hprobed⟩

section Courses

variable {service : Service} {net : Network σ} {rounds : Nat} {budget : Int}
  (hbudget : service.plan.budget = .int budget) (hlists : ∀ t, (net.server t).Lists)

include hbudget hlists

/-- **In every course of a call**, connections are opened and ended as they should be. -/
theorem Course.connects {call : Call} {s next : σ × List Exchange}
    {outcome : Except Failure (Option Reply)}
    (h : service.Course net.observed rounds call s outcome next) :
    ∃ l, next.2 = s.2 ++ l ∧ service.Connects call outcome l := by
  cases h with
  | probe hprobe =>
    obtain ⟨l, hl, hprobed⟩ := probed_logs hprobe
    exact ⟨l, hl, .probe hprobed⟩
  | @read t _ _ result hsnapshot =>
    obtain ⟨l, hl, hstay⟩ := hsnapshot.stay (.inl ⟨hlists t, budget, hbudget⟩)
    exact ⟨l, hl, .read (hstay.map _)⟩
  | unasked hprobe hasked =>
    obtain ⟨l, hl, hprobed⟩ := probed_logs hprobe
    refine ⟨l, hl, .listNone nofun hprobed (fun asked h => ?_) nofun⟩
    cases hasked.symm.trans h
  | listNone hprobe hasked hnone =>
    obtain ⟨l, hl, hprobed⟩ := probed_logs hprobe
    refine ⟨l, hl, .listNone nofun hprobed (fun asked h => ?_) fun response h => ?_⟩
    · obtain rfl := Except.ok.inj (hasked.symm.trans h)
      exact hnone
    · cases h
      rfl
  | @listOne _ _ _ _ _ _ selected result hprobe hasked hselected hsnapshot =>
    obtain ⟨l, hl, hprobed⟩ := probed_logs hprobe
    obtain ⟨visit, hvisit, hstay⟩ := hsnapshot.stay
      (.inl ⟨hlists selected.target, budget, hbudget⟩)
    refine ⟨l ++ visit, by rw [hvisit, hl, List.append_assoc],
      .listOne hprobed hasked hselected ((hstay.map _).map _) fun response h => ?_⟩
    rcases result with e | _ | snapshot <;> cases h
    rfl

/-- **And so they are in every course of calls.** -/
theorem Courses.connects {calls : List Call} {s next : σ × List Exchange}
    {outcomes : List (Except Failure (Option Reply))}
    (h : service.Courses net.observed rounds calls s outcomes next) :
    ∃ made, outcomes = made.map Prod.fst ∧ next.2 = s.2 ++ made.flatMap Prod.snd ∧
      service.ConnectsAll calls made := by
  induction h with
  | nil s => exact ⟨[], rfl, (List.append_nil _).symm, .nil⟩
  | cons hcall hover _ ih =>
    obtain ⟨l, hl, hconnects⟩ := hcall.connects hbudget hlists
    obtain ⟨made, rfl, hmade, hrest⟩ := ih
    refine ⟨(_, l) :: made, rfl, ?_, .cons hconnects hover hrest⟩
    rw [hmade, hl, List.append_assoc, List.flatMap_cons]
  | underWay hcall =>
    obtain ⟨l, hl, hconnects⟩ := hcall.connects hbudget hlists
    exact ⟨[(_, l)], rfl, by rw [hl, List.flatMap_singleton], .underWay hconnects⟩

end Courses

/-! ## 3. One call after the other -/

/-- Reading the buckets in the order of the table is one course of a call. -/
theorem course_answer {service : Service} {net : Network σ} {budget : Int}
    (hbudget : service.plan.budget = .int budget) (hlists : ∀ t, (net.server t).Lists) (rounds : Nat)
    (call : Call) (s : σ) :
    service.Course net rounds call s ((service.answer net rounds call).run s).1
      ((service.answer net rounds call).run s).2 := by
  obtain ⟨probes, probed, hprobe⟩ : ∃ probes probed, (service.probe net).run s = (.ok probes, probed) :=
    Probe.exists_runAll net service.probeLimit service.targets s
  cases call with
  | probe =>
    rw [answer, Session.run_bind_ok hprobe]
    exact .probe hprobe
  | read t =>
    rw [answer, Session.run_map]
    exact .read (Snapshot.course_take (hlists t) hbudget)
  | list requested =>
    rw [answer, Session.run_map, list, Session.run_bind_ok hprobe]
    cases hasked : Probe.requestedText requested with
    | error e => exact .unasked hprobe hasked
    | ok asked =>
      simp only [Session.ofExcept_ok_bind]
      cases hselected : Probe.select (probes.filter (·.running)) asked with
      | none => exact .listNone hprobe hasked hselected
      | some selected =>
        have hlist := Session.run_map (service.read net rounds selected.target)
          (Option.map (Response.ofSnapshot (probes.filter (·.running)) selected)) probed
        rw [hlist]
        exact .listOne hprobe hasked hselected
          (Snapshot.course_take (hlists selected.target) hbudget)

/-- **So calls one after the other are one course of them**, and none of them fails the others. -/
theorem courses_answerAll {service : Service} {net : Network σ} {budget : Int}
    (hbudget : service.plan.budget = .int budget) (hlists : ∀ t, (net.server t).Lists) (rounds : Nat) :
    ∀ (calls : List Call) (s : σ), ∃ outcomes next,
      (service.answerAll net rounds calls).run s = (.ok outcomes, next) ∧
      service.Courses net rounds calls s outcomes next
  | [], s => ⟨[], s, rfl, .nil s⟩
  | call :: calls, s => by
    have hcall := course_answer hbudget hlists rounds call s
    have houtcome := Session.run_outcome (service.answer net rounds call) s
    rcases hrun : (service.answer net rounds call).run s with ⟨outcome, mid⟩
    rw [hrun] at hcall houtcome
    by_cases hover : outcome = .ok none
    · subst hover
      refine ⟨[.ok none], mid, ?_, .underWay hcall⟩
      rw [answerAll, Session.run_bind_ok houtcome, Session.run_pure]
    · obtain ⟨outcomes, next, hrest, hcalls⟩ := courses_answerAll hbudget hlists rounds calls mid
      refine ⟨outcome :: outcomes, next, ?_, .cons hcall hover hcalls⟩
      rw [answerAll, Session.run_bind_ok houtcome]
      rcases outcome with e | _ | reply
      · exact Session.run_bind_ok hrest _
      · exact absurd rfl hover
      · exact Session.run_bind_ok hrest _

/-- A session that is a dialogue, whatever is exchanged in it. -/
def Speaks {α : Type} (x : ∀ σ : Type, Network σ → Session σ α) : Prop := Spoken (fun _ _ => True) x

theorem Speaks.bind {α β : Type} {x : ∀ σ : Type, Network σ → Session σ α}
    {f : ∀ σ : Type, Network σ → α → Session σ β} (hx : Speaks x)
    (hf : ∀ a, Speaks fun σ net => f σ net a) : Speaks fun σ net => x σ net >>= f σ net :=
  Spoken.bind hx (fun _ _ _ => trivial) fun a => (hf a).mono fun _ _ _ _ _ => trivial

theorem speaks_answer (service : Service) (rounds : Nat) (call : Call) :
    Speaks fun _ net => service.answer net rounds call := by
  have hprobe : Speaks fun _ net => service.probe net := (returns_probe service).mono fun _ _ _ => trivial
  have hread : ∀ t, Speaks fun _ net => service.read net rounds t := fun t =>
    (Snapshot.spoken_take t service.plan rounds).mono fun _ _ _ => trivial
  cases call with
  | probe => exact hprobe.bind fun probes => Spoken.pure trivial
  | read t => exact (hread t).bind fun snapshot => Spoken.pure trivial
  | list requested =>
    have hlist : Speaks fun _ net => service.list net rounds requested := by
      refine hprobe.bind fun probes => Speaks.bind (Spoken.ofExcept trivial) fun asked => ?_
      cases Probe.select (probes.filter (·.running)) asked with
      | none => exact Spoken.pure trivial
      | some selected => exact (hread selected.target).bind fun snapshot => Spoken.pure trivial
    exact hlist.bind fun response => Spoken.pure trivial

/-- Calls are a dialogue. -/
theorem speaks_answerAll (service : Service) (rounds : Nat) (calls : List Call) :
    Speaks fun _ net => service.answerAll net rounds calls := by
  induction calls with
  | nil => exact Spoken.pure trivial
  | cons call calls ih =>
    have hrest : ∀ outcome, Speaks fun _ net => do
        let outcomes ← service.answerAll net rounds calls
        return outcome :: outcomes := fun outcome => ih.bind fun outcomes => Spoken.pure trivial
    have houtcome : Speaks fun _ net => (service.answer net rounds call).outcome :=
      (Returns.outcome (speaks_answer service rounds call)).mono fun _ _ _ => trivial
    refine houtcome.bind fun outcome => ?_
    rcases outcome with e | _ | reply
    · exact hrest _
    · exact Spoken.pure trivial
    · exact hrest _

/-- **Connections are opened and ended in one way.**  For any calls to a service, in any order, and for
any servers that answer reads with lists, if they do not fail: in every course of the calls
(`Courses`), with the buckets of every snapshot in any order, what is exchanged is what is exchanged in
the calls, one after the other (`Connects`).  All targets are probed once by every call that probes,
and the one target of a snapshot is visited once more.  A connection that was opened is closed once,
after all else and before the call is over, and if that works it is disconnected; after that nothing is
sent over it (`Visit`).  A call that is not over is one whose sweep is still under way.

There are such courses, and to answer all calls one after the other is one.

How connections end does not matter to the outcomes.  Whatever was done over a connection has its
result or its failure, also after hanging up; where only closing and disconnecting are answered
otherwise, the same can come of a snapshot, with any server; and where the same calls exchange the same
with any other network, except for what closing and disconnecting are answered, they have the same
outcomes. -/
theorem answerAll_connects (service : Service) {budget : Int}
    (hbudget : service.plan.budget = .int budget) (net : Network σ)
    (hlists : ∀ t, (net.server t).Lists) (rounds : Nat) (calls : List Call) (s : σ) :
    (∀ outcomes next l,
      service.Courses net.observed rounds calls (s, []) outcomes (next, l) →
        ∃ made : List (Except Failure (Option Reply) × List Exchange),
          outcomes = made.map Prod.fst ∧ l = made.flatMap Prod.snd ∧
          service.ConnectsAll calls made) ∧
    (∃ outcomes next l,
      (service.answerAll net.observed rounds calls).run (s, []) = (.ok outcomes, next, l) ∧
      service.Courses net.observed rounds calls (s, []) outcomes (next, l) ∧
      ∀ (τ : Type) (other : Network τ) (s' next' : τ) (outcomes' : Except Failure _)
        (l' : List Exchange),
        (service.answerAll other.observed rounds calls).run (s', []) = (outcomes', next', l') →
        Exchange.kept l' = Exchange.kept l → outcomes' = .ok outcomes) ∧
    (∀ (α : Type) (t : Target) (x : Session σ α) (opened : σ),
      (((net.server t).thenHangUp x).run opened).1 = (x.run opened).1) ∧
    ∀ (t : Target) (plan : Snapshot.Plan) (others : Network σ), net.PartsLike others →
      ∀ result next, Snapshot.Course (net.server t) plan rounds t s result next →
        ∃ last, Snapshot.Course (others.server t) plan rounds t s result last := by
  have hobserved : ∀ t, (net.observed.server t).Lists := fun t => (hlists t).observed
  refine ⟨fun outcomes next l hcourses => hcourses.connects hbudget hlists, ?_, ?_, ?_⟩
  · obtain ⟨outcomes, ⟨next, l⟩, hrun, hcourses⟩ :=
      courses_answerAll hbudget hobserved rounds calls (s, [])
    refine ⟨outcomes, next, l, hrun, hcourses, ?_⟩
    intro τ other s' next' outcomes' l' hrun' hsame
    exact Spoken.determined (speaks_answerAll service rounds calls) hrun' (List.nil_append _).symm
      hrun (List.nil_append _).symm hsame
  · intro α t x opened
    rw [Session.run_thenHangUp]
  · intro t plan others hsame result next h
    exact h.parting hsame

/-- The one target is probed, listed and read, with keys of several types: that is two probes and
two snapshots, each of which ends its connection. -/
theorem answerAll_varied : ∃ made next,
    (ofTen.answerAll Network.varied.observed 1 [.probe, .list .null, .read Snapshot.here]).run ((), []) =
      (.ok (made.map Prod.fst), next, made.flatMap Prod.snd) ∧
    ofTen.ConnectsAll [.probe, .list .null, .read Snapshot.here] made := by
  obtain ⟨hall, ⟨outcomes, next, l, hrun, hcourses, -⟩, -⟩ := ofTen.answerAll_connects
    (show ofTen.plan.budget = .int 10 from rfl) Network.varied Network.lists_varied 1
    [.probe, .list .null, .read Snapshot.here] ()
  obtain ⟨made, rfl, rfl, hconnects⟩ := hall outcomes next l hcourses
  exact ⟨made, next, hrun, hconnects⟩

end Service

end Keyscope
