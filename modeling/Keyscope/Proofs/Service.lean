/-
# What the service lists

Settings without problems have positive limits (`limits_of_no_problems`), and that is all that a
service needs: it can be made, and whatever the servers of the network do, what it lists keeps
within the limits (`list_kept`).

The records come from a snapshot of the selected source (`list_cases`), so the bounds are those of
the stages of that snapshot (`Stages.kept`): keys and their number from its sweep, payloads and
counts from what was found for the keys.
-/
import Keyscope.Proofs.Keyspace.Stages
import Keyscope.Service
import Keyscope.Settings.Check

namespace Keyscope

variable {σ : Type}

/-! ## 1. Settings without problems -/

namespace Settings

theorem broken_eq_nil {isBroken : Bool} {words : Text} :
    broken isBroken words = [] ↔ isBroken = false := by
  cases isBroken <;> simp [broken]

theorem allDistinct_iff : ∀ {ts : List Text}, allDistinct ts = true ↔ ts.Nodup
  | [] => by simp [allDistinct]
  | t :: ts => by simp [allDistinct, allDistinct_iff, List.nodup_cons]

/-- Limits without problems are positive, and a probe gives up before a snapshot does. -/
theorem limits_of_no_problems {l : Limits} (h : limitProblems l = .ok []) :
    l.maxPayload.le (.int 0) = .ok false ∧ l.maxKeys.le (.int 0) = .ok false ∧
    l.pageSize.le (.int 0) = .ok false ∧ l.probeLimit.le (.int 0) = .ok false ∧
    l.probeLimit.ge l.snapshotLimit = .ok false := by
  rw [limitProblems] at h
  obtain ⟨payload, hpayload, h⟩ := Outcome.exists_of_bind h
  obtain ⟨keys, hkeys, h⟩ := Outcome.exists_of_bind h
  obtain ⟨page, hpage, h⟩ := Outcome.exists_of_bind h
  obtain ⟨probe, hprobe, h⟩ := Outcome.exists_of_bind h
  obtain ⟨order, horder, h⟩ := Outcome.exists_of_bind h
  have hnil := Except.ok.inj h
  simp only [List.append_eq_nil_iff] at hnil
  obtain ⟨⟨⟨⟨h₁, h₂⟩, h₃⟩, h₄⟩, h₅⟩ := hnil
  rw [hpayload, hkeys, hpage, hprobe, horder, broken_eq_nil.mp h₁, broken_eq_nil.mp h₂,
    broken_eq_nil.mp h₃, broken_eq_nil.mp h₄, broken_eq_nil.mp h₅]
  exact ⟨rfl, rfl, rfl, rfl, rfl⟩

/-- Settings without problems have limits without problems. -/
theorem limitProblems_of_no_problems {s : Settings} (h : s.problems = .ok []) :
    limitProblems s.limits = .ok [] := by
  rw [problems] at h
  obtain ⟨usable, husable, h⟩ := Outcome.exists_of_bind h
  obtain ⟨limits, hlimits, h⟩ := Outcome.exists_of_bind h
  -- the level adds words of its own, whatever they are
  have hwords : ∃ before level : List Text, before ++ limits ++ level = [] := by
    dsimp only at h
    split at h
    · exact ⟨_, _, Except.ok.inj h⟩
    · obtain ⟨shown, -, h⟩ := Outcome.exists_of_bind h
      exact ⟨_, _, Except.ok.inj h⟩
  obtain ⟨before, level, hnil⟩ := hwords
  simp only [List.append_eq_nil_iff] at hnil
  have hsame : usable = s.limits := by
    rw [usableLimits] at husable
    split at husable
    · cases husable
    · exact (Except.ok.inj husable).symm
  rw [← hsame, hlimits, hnil.1.2]

end Settings

/-! ## 2. Limits that are kept -/

/-- **Records keep within limits.** -/
structure Limits.Kept (l : Limits) (records : List Record) : Prop where
  /-- The keys ascend, so none of them is there twice. -/
  ascending : records.Pairwise fun r r' => r.key < r'.key
  /-- The cap is a whole number, as it is in settings from a file or from the environment. -/
  atMost : ∀ n : Int, l.maxKeys.quantity? = some (.whole n) → (records.length : Int) ≤ n
  counts : ∀ r ∈ records, 0 ≤ r.count
  payloads : ∀ r ∈ records, Preview.Fits l.maxPayload r.payload

theorem Limits.kept_nil {l : Limits} (hkeys : l.maxKeys.le (.int 0) = .ok false) : l.Kept [] := by
  refine ⟨.nil, fun n hn => ?_, by simp, by simp⟩
  obtain ⟨most, hmost, hpos⟩ := Value.quantity_of_le hkeys
  obtain rfl := Option.some.inj (hmost.symm.trans hn)
  rw [Quantity.le_whole, decide_eq_false_iff_not] at hpos
  exact (Int.lt_of_not_ge hpos).le

/-- **The records of a snapshot keep within limits**, whatever the server does. -/
theorem Snapshot.Stages.kept {l : Limits} (hpayload : l.maxPayload.le (.int 0) = .ok false)
    (hkeys : l.maxKeys.le (.int 0) = .ok false) {server : Server σ} {plan : Plan}
    {rounds : Nat}
    (hlimits : Scan.limits l.maxKeys l.pageSize = .ok plan.limits) {s : σ}
    (stages : Stages server plan rounds s) {records : List Record}
    (hsame : records.map (·.key) = stages.scan.keys)
    (hshown : List.Forall₂ (Payload.ShownBy l.maxPayload stages.outcomes stages.infos) stages.infos
      records) : l.Kept records := by
  have hrecords : ∀ r ∈ records, 0 ≤ r.count ∧ Preview.Fits l.maxPayload r.payload :=
    ((List.forall₂_and_left records stages.infos).mp
      (hshown.flip.imp fun r info hr => ⟨hr.bounded hpayload, hr⟩)).1
  refine ⟨?_, fun n hn => ?_, fun r hr => (hrecords r hr).1, fun r hr => (hrecords r hr).2⟩
  · have hascending := Scan.run_ascending stages.hsweep
    rwa [← hsame, List.pairwise_map] at hascending
  · obtain ⟨most, hmost, hpos, hmade⟩ := Scan.limits_of_positive hkeys l.pageSize
    obtain rfl := Option.some.inj (hmost.symm.trans hn)
    obtain hplan := Except.ok.inj (hlimits.symm.trans hmade)
    rw [Quantity.le_whole, decide_eq_false_iff_not] at hpos
    have hcap : plan.limits.maxKeys = some n.toNat := by
      rw [hplan]
      rfl
    have hlength := Scan.run_length hcap (by omega) stages.hsweep
    rw [← hsame, List.length_map] at hlength
    omega

/-! ## 3. Services -/

namespace Service

/-- A response has the records of a snapshot of the selected source, and none if no source is
running. -/
theorem list_cases {service : Service} {net : Network σ} {rounds : Nat} {requested : Value}
    {s next : σ} {response : Response}
    (h : (service.list net rounds requested).run s = (.ok (some response), next)) :
    ∃ probes probed asked, (service.probe net).run s = (.ok probes, probed) ∧
      Probe.requestedText requested = .ok asked ∧
      match Probe.select (probes.filter (·.running)) asked with
      | none => response.records = []
      | some selected => ∃ snapshot last,
          (service.read net rounds selected.target).run probed = (.ok (some snapshot), last) ∧
          response.records = snapshot.records := by
  obtain ⟨probes, mid, hprobe, hrest⟩ := Session.run_bind_eq_ok.mp h
  obtain ⟨asked, probed, hknown, hlist⟩ := Session.run_bind_eq_ok.mp hrest
  obtain ⟨hasked, rfl⟩ := Session.run_ofExcept_eq_ok.mp hknown
  refine ⟨probes, probed, asked, hprobe, hasked, ?_⟩
  cases hselected : Probe.select (probes.filter (·.running)) asked with
  | none =>
    rw [hselected] at hlist
    obtain rfl := Option.some.inj (Session.run_pure_eq_ok.mp hlist).1
    rfl
  | some selected =>
    rw [hselected] at hlist
    obtain ⟨found, last, hread, hdone⟩ := Session.run_bind_eq_ok.mp hlist
    obtain ⟨snapshot, rfl, rfl⟩ :=
      Option.map_eq_some_iff.mp (Session.run_pure_eq_ok.mp hdone).1.symm
    exact ⟨snapshot, last, hread, rfl⟩

/-- **A listing that is over stays so**: with more rounds for its sweep, it is the same. -/
theorem list_more (service : Service) (net : Network σ) (rounds more : Nat) (requested : Value) :
    Session.Continues (service.list net rounds requested)
      (service.list net (rounds + more) requested) := by
  refine .after _ fun probes => .after _ fun asked => ?_
  cases Probe.select (probes.filter (·.running)) asked with
  | none => exact .refl _
  | some selected =>
    exact (Snapshot.take_more _ service.plan rounds more selected.target).bind rfl

/-- **What a service lists.**  Settings without problems make a service.  Whatever it is asked for,
and whatever the servers of the network do, if it answers then the records keep within the limits of
the settings.  They are those of the source that is selected, and each of them shows a placeholder,
which counts nothing, or the layout of a value. -/
theorem list_kept {settings : Settings} (hvalid : settings.problems = .ok [])
    (telemetry : Option TelemetrySource) :
    ∃ service, make settings.targets settings.limits telemetry = .ok service ∧
    ∀ (σ : Type) (net : Network σ) (rounds : Nat) (requested : Value) (s next : σ)
      (response : Response), (service.list net rounds requested).run s = (.ok (some response), next) →
      settings.limits.Kept response.records ∧
      ∃ probes probed asked, (service.probe net).run s = (.ok probes, probed) ∧
        Probe.requestedText requested = .ok asked ∧
        match Probe.select (probes.filter (·.running)) asked with
        | none => response.records = []
        | some selected =>
          ∃ stages : Snapshot.Stages (net.server selected.target) service.plan rounds probed,
            List.Forall₂
              (Payload.ShownBy settings.limits.maxPayload stages.outcomes stages.infos)
              stages.infos response.records := by
  obtain ⟨hpayload, hkeys, -⟩ :=
    Settings.limits_of_no_problems (Settings.limitProblems_of_no_problems hvalid)
  obtain ⟨most, -, -, hlimits⟩ := Scan.limits_of_positive hkeys settings.limits.pageSize
  refine ⟨_, by rw [make, hlimits]; rfl, ?_⟩
  intro σ net rounds requested s next response h
  obtain ⟨probes, probed, asked, hprobe, hasked, hselected⟩ := list_cases h
  cases hselect : Probe.select (probes.filter (·.running)) asked with
  | none =>
    rw [hselect] at hselected
    refine ⟨?_, probes, probed, asked, hprobe, hasked, by rwa [hselect]⟩
    rw [show response.records = [] from hselected]
    exact Limits.kept_nil hkeys
  | some selected =>
    rw [hselect] at hselected
    obtain ⟨snapshot, last, hread, hrecords⟩ := hselected
    obtain ⟨stages, hsame, hshown⟩ := Snapshot.take_stages hread
    rw [← hrecords] at hsame hshown
    refine ⟨stages.kept hpayload hkeys hlimits hsame hshown, probes, probed, asked, hprobe, hasked,
      ?_⟩
    rw [hselect]
    exact ⟨stages, hshown⟩

end Service

/-- Settings for one target, two keys and ten characters. -/
def Settings.ofOne : Settings :=
  ⟨[Snapshot.here], .ofNumbers 10 2 100 (.ofRatio false 1 2) 3, .none, .text "INFO", [], []⟩

/-- A network of servers that answer a ping, have one key that is not UTF-8, and fail at all reads. -/
def Network.lone : Network Unit where
  server _ r s :=
    match r with
    | .ping => (.ok (.bool true), s)
    | r => Snapshot.unreadable r s
  clock _ s := (some 0, s)

/-- The service for these settings. -/
def Service.ofOne : Service :=
  ⟨[Snapshot.here], .real (.ofRatio false 1 2),
    ⟨⟨some 2, .int 100⟩, .int 10, .real 3⟩, none⟩

/-- The service for one target, with room for ten keys. -/
def Service.ofTen : Service := { ofOne with plan := ⟨⟨some 10, .int 100⟩, .int 10, .real 3⟩ }

/-- The answers to batches about a string, a hash and a document. -/
def Network.variedAnswers : List (Command × Bytes) → List Value
  | (.type, _) :: _ => [.text "string", .null, .text "hash", .null, .text "ReJSON-RL", .null]
  | (.hashFields, _) :: _ => [.dict [(.bytes [102], .bytes [118])]]
  | _ => [.text "[]"]

/-- A network of servers that are running and have these keys. -/
def Network.varied : Network Unit where
  server _ r s :=
    (match r with
      | .ping => .ok (.bool true)
      | .scan _ _ => .ok (.tuple [.int 0, .list [.bytes [97], .bytes [98], .bytes [99]]])
      | .strings _ => .ok (.list [.bytes [118]])
      | .batch commands => .ok (.list (variedAnswers commands))
      | _ => .ok .null, s)
  clock _ s := (some 0, s)

/-- These servers answer reads with lists. -/
theorem Network.lists_varied (t : Target) : (varied.server t).Lists := by
  intro r s reply hr hreply
  cases r with
  | strings names =>
    obtain rfl := Except.ok.inj hreply
    exact ⟨_, rfl, fun w hw => List.mem_singleton.mp hw ▸ ⟨_, rfl⟩⟩
  | batch commands =>
    obtain rfl := Except.ok.inj hreply
    refine ⟨_, rfl, ?_⟩
    unfold variedAnswers
    split
    · simp only [List.forall_mem_cons]
      exact ⟨⟨_, rfl⟩, ⟨_, rfl⟩, ⟨_, rfl⟩, ⟨_, rfl⟩, ⟨_, rfl⟩, ⟨_, rfl⟩, nofun⟩
    · exact fun w hw => List.mem_singleton.mp hw ▸ ⟨_, rfl⟩
    · exact fun w hw => List.mem_singleton.mp hw ▸ ⟨_, rfl⟩
  | _ => cases hr

/-- The one target is running, and its one key is listed although it cannot be read. -/
theorem Service.list_lone :
    make Settings.ofOne.targets Settings.ofOne.limits none = .ok ofOne ∧ ∃ response next,
      (ofOne.list Network.lone 1 .null).run () = (.ok (some response), next) ∧
      response.records.map (·.key) = [Utf8.decodeEscaped [0xFF]] ∧
      Settings.ofOne.limits.Kept response.records := by
  obtain ⟨service, hmake, hlist⟩ := list_kept (show Settings.ofOne.problems = .ok [] from rfl) none
  obtain rfl : ofOne = service := Except.ok.inj hmake
  refine ⟨hmake, ?_⟩
  have hbytes : (Network.lone.server Snapshot.here).ByteKeys := by
    intro cursor count s reply hreply next page hparts raw hraw
    obtain rfl := Except.ok.inj hreply
    obtain ⟨-, rfl⟩ := Prod.mk.inj (Except.ok.inj hparts)
    exact ⟨[0xFF], List.mem_singleton.mp hraw⟩
  have hlists : (Network.lone.server Snapshot.here).Lists := by
    intro r s reply hreads hreply
    cases r <;> cases hreads <;> cases hreply
  have hsweep : (Scan.run (Network.lone.server Snapshot.here) ofOne.plan.limits 1).run () =
      (.ok (some ⟨[Utf8.decodeEscaped [0xFF]], false⟩), ()) := by
    rw [show [Utf8.decodeEscaped [0xFF]] = Text.sort [Utf8.decodeEscaped [0xFF]] from
      (List.mergeSort_singleton _).symm]
    rfl
  obtain ⟨records, last, hread, hkeys⟩ := Snapshot.read_returns Snapshot.here hbytes hlists
    (show ofOne.plan.budget = .int 10 from rfl) hsweep
  have htake : (ofOne.read Network.lone 1 Snapshot.here).run () =
      (.ok (some ⟨"Here", records, false⟩), ()) := by
    rw [Service.read, Snapshot.run_take
      (show Network.lone.server Snapshot.here _ () = (.ok .null, ()) from rfl),
      Session.run_hangUpAfter_some hread]
    rfl
  obtain ⟨probe, hprobe, hselect, htarget⟩ : ∃ probe : Probe,
      (ofOne.probe Network.lone).run () = (.ok [probe], ()) ∧
      Probe.select ([probe].filter (·.running)) none = some probe ∧
      probe.target = Snapshot.here := ⟨_, rfl, rfl, rfl⟩
  have hrun : (ofOne.list Network.lone 1 .null).run () =
      (.ok (some (.ofSnapshot ([probe].filter (·.running)) probe ⟨"Here", records, false⟩)), ()) := by
    rw [list, Session.run_bind_ok hprobe]
    dsimp only
    rw [Session.run_bind_ok (show (Session.ofExcept (Probe.requestedText .null)).run () =
      (.ok none, ()) from rfl), hselect]
    simp only [htarget]
    exact Session.run_bind_ok htake _
  exact ⟨_, _, hrun, hkeys, (hlist Unit Network.lone 1 .null () () _ hrun).1⟩

end Keyscope
