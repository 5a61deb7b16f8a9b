/-
# Sweeps that may take more keys

Two sweeps of one server that differ in how many keys they may take.  As long as the smaller one goes
on, they send the same requests, get the same answers and have seen the same keys; the larger one only
has more room left (`Sweep.roomier`).

Where the smaller one is full, the larger one goes on behind the key that filled it, on the same page
(`collect_add`).  If that was the last name of the last page, there is nothing to go on with, and the
larger one ends too; otherwise the smaller one says that there is more.  So more room changes nothing, or
the smaller sweep said that there is more, and the larger one has its keys and its requests and adds to
them (`resume_roomier`).
-/
import Keyscope.Proofs.Keyspace.Arrivals
import Keyscope.Proofs.Outcome

namespace Keyscope

namespace Scan

/-! ## 1. One page -/

/-- The same sweep with room for more keys. -/
def Sweep.roomier (more : Nat) (s : Sweep) : Sweep := { s with room := s.room.map (· + more) }

/-- **A page with more room** is the same page as long as there is room, and goes on with the rest of
it from there. -/
theorem collect_add (more : Nat) : ∀ (page : List Value) {room : Nat} (seen : List Text), 0 < room →
    collect (some (room + more)) seen page = match collect (some room) seen page with
      | .error e => .error e
      | .ok (left, seen', none) => .ok (left.map (· + more), seen', none)
      | .ok (left, seen', some rest) =>
        if more = 0 then .ok (left, seen', some rest) else collect (some more) seen' rest
  | [], _, _, _ => rfl
  | raw :: page, room, seen, hroom => by
    rw [collect, collect]
    cases raw.keyName with
    | error e => rfl
    | ok key =>
      simp only
      by_cases hseen : seen.contains key = true
      · rw [if_pos hseen, if_pos hseen]
        exact collect_add more page seen hroom
      rw [if_neg hseen, if_neg hseen]
      by_cases hlast : room ≤ 1
      -- the key fills the smaller sweep, and the larger one too if it has no more room than that
      · obtain rfl : room = 1 := by omega
        by_cases hmore : more = 0
        · subst hmore
          rfl
        · rw [if_neg (by simp; omega), if_pos (by simp), Option.map_some, Nat.add_sub_cancel_left]
          simp only [if_neg hmore]
      · rw [if_neg (by simp; omega), if_neg (by simpa using hlast), Option.map_some, Option.map_some,
          show room + more - 1 = room - 1 + more by omega]
        exact collect_add more page (key :: seen) (by omega)

/-- A page adds to the keys that were seen. -/
theorem collect_seen : ∀ {page : List Value} {room room' : Option Nat} {seen seen' : List Text}
    {rest : Option (List Value)}, collect room seen page = .ok (room', seen', rest) → seen ⊆ seen'
  | [], _, _, _, _, _, h => by
    simp only [collect, Except.ok.injEq, Prod.mk.injEq] at h
    obtain ⟨-, rfl, -⟩ := h
    exact List.Subset.refl _
  | raw :: page, room, _, seen, _, _, h => by
    rw [collect] at h
    cases hkey : raw.keyName with
    | error e => rw [hkey] at h; cases h
    | ok key =>
      rw [hkey] at h
      simp only at h
      split at h
      · exact collect_seen h
      split at h
      · simp only [Except.ok.injEq, Prod.mk.injEq] at h
        obtain ⟨-, rfl, -⟩ := h
        exact List.subset_cons_self _ _
      · exact List.Subset.trans (List.subset_cons_self _ _) (collect_seen h)

/-- Some keys are among those that a sweep has seen, or that it came out with. -/
def Keeps (keys : List Text) : Sweep ⊕ Scan → Prop
  | .inl next => keys ⊆ next.seen
  | .inr scan => keys ⊆ scan.keys

theorem Keeps.mono {keys keys' : List Text} (h : keys ⊆ keys') :
    ∀ {r : Sweep ⊕ Scan}, Keeps keys' r → Keeps keys r
  | .inl _, hr => List.Subset.trans h hr
  | .inr _, hr => List.Subset.trans h hr

theorem subset_ofSeen (seen : List Text) (truncated : Bool) : seen ⊆ (ofSeen seen truncated).keys :=
  fun _ hkey => Text.mem_sort.mpr hkey

/-- What an answer makes of a sweep, by what the page leaves of it. -/
def Sweep.ofPage (cursor : Int) : Option Nat × List Text × Option (List Value) → Sweep ⊕ Scan
  | (_, seen, some rest) => .inr (ofSeen seen (!rest.isEmpty || cursor != 0))
  | (room, seen, none) => if cursor = 0 then .inr (ofSeen seen false) else .inl ⟨cursor, room, seen⟩

theorem absorb_eq (s : Sweep) (reply : Value) :
    s.absorb reply = do
      let p ← Sweep.parts reply
      return Sweep.ofPage p.1 (← collect s.room s.seen p.2) := by
  rw [Sweep.absorb]
  cases Sweep.parts reply with
  | error e => rfl
  | ok p =>
    obtain ⟨cursor, page⟩ := p
    simp only [Outcome.ok_bind]
    cases collect s.room s.seen page with
    | error e => rfl
    | ok taken =>
      obtain ⟨room, seen, _ | rest⟩ := taken
      · simp only [Outcome.ok_bind, Sweep.ofPage]
        split <;> rfl
      · rfl

theorem keeps_ofPage (cursor : Int) (room : Option Nat) (seen : List Text)
    (rest : Option (List Value)) : Keeps seen (Sweep.ofPage cursor (room, seen, rest)) := by
  cases rest with
  | some rest => exact subset_ofSeen _ _
  | none =>
    rw [Sweep.ofPage]
    split
    · exact subset_ofSeen _ _
    · exact List.Subset.refl _

/-- **One answer for two sweeps.**  Both go on and differ in room as before; or they come out alike; or
the smaller one ends and says that there is more, and the larger one has all its keys. -/
theorem absorb_roomier {s : Sweep} {room : Nat} (hs : s.room = some room) (hroom : 0 < room)
    (more : Nat) (reply : Value) :
    (∃ next left, s.absorb reply = .ok (.inl next) ∧ next.room = some left ∧ 0 < left ∧
      (s.roomier more).absorb reply = .ok (.inl (next.roomier more))) ∨
    ((s.roomier more).absorb reply = s.absorb reply ∧ ∀ next, s.absorb reply ≠ .ok (.inl next)) ∨
    ∃ seen, s.absorb reply = .ok (.inr (ofSeen seen true)) ∧
      ∀ r, (s.roomier more).absorb reply = .ok r → Keeps seen r := by
  rw [absorb_eq, absorb_eq]
  cases Sweep.parts reply with
  | error e => exact .inr (.inl ⟨rfl, nofun⟩)
  | ok p =>
    obtain ⟨cursor, page⟩ := p
    simp only [Outcome.ok_bind]
    rw [Sweep.roomier, hs, Option.map_some, collect_add more page s.seen hroom]
    cases htaken : collect (some room) s.seen page with
    | error e => exact .inr (.inl ⟨rfl, nofun⟩)
    | ok taken =>
      obtain ⟨left, seen, _ | rest⟩ := taken
      · obtain ⟨-, left, rfl, hleft, -⟩ := (collect_room hroom htaken).resolve_left fun h => h.1 rfl
        by_cases hcursor : cursor = 0
        · refine .inr (.inl ⟨?_, fun next h => ?_⟩)
          · simp only [Outcome.ok_bind, Sweep.ofPage, if_pos hcursor]
          · simp only [Outcome.ok_bind, Sweep.ofPage, if_pos hcursor] at h
            cases h
        · refine .inl ⟨⟨cursor, some left, seen⟩, left, ?_, rfl, hleft, ?_⟩
          · simp only [Outcome.ok_bind, Sweep.ofPage, if_neg hcursor]
            rfl
          · simp only [Outcome.ok_bind, Sweep.ofPage, if_neg hcursor]
            rfl
      · by_cases hmore : more = 0
        · refine .inr (.inl ⟨?_, nofun⟩)
          simp only [if_pos hmore]
        simp only [if_neg hmore]
        by_cases hend : rest = [] ∧ cursor = 0
        -- nothing is left of the last page, so that the larger sweep ends with it
        · obtain ⟨rfl, rfl⟩ := hend
          exact .inr (.inl ⟨rfl, nofun⟩)
        · refine .inr (.inr ⟨seen, ?_, fun r hr => ?_⟩)
          · have hflag : (!rest.isEmpty || cursor != 0) = true := by
              rw [not_and_or] at hend
              simpa using hend
            simp only [Outcome.ok_bind, Sweep.ofPage, hflag]
            rfl
          · obtain ⟨⟨room', seen', rest'⟩, hcollect, hr⟩ := Outcome.exists_of_bind hr
            obtain rfl := Except.ok.inj hr
            exact (keeps_ofPage cursor room' seen' rest').mono (collect_seen hcollect)

/-! ## 2. A whole sweep -/

variable {σ : Type}

/-- A sweep that returns has all keys that it had seen. -/
theorem resume_keeps_seen {server : Server σ} {size : Value} : ∀ (rounds : Nat) {s next : σ}
    {sweep : Sweep} {scan : Scan}, (resume server size rounds sweep).run s = (.ok (some scan), next) →
    sweep.seen ⊆ scan.keys
  | 0, _, _, _, _, h => by cases h
  | rounds + 1, s, next, sweep, scan, h => by
    obtain ⟨reply, s₁, cursor, page, room, seen, rest, -, -, hcollect, hend⟩ := resume_cases h
    rcases hend with ⟨-, hrest⟩ | ⟨truncated, rfl⟩
    · exact List.Subset.trans (collect_seen hcollect) (resume_keeps_seen rounds hrest)
    · exact List.Subset.trans (collect_seen hcollect) (subset_ofSeen _ _)

/-- What a sweep asks comes behind what was asked before. -/
theorem resume_asks (server : Server σ) (size : Value) (rounds : Nat) (sweep : Sweep) (s : σ)
    (sent : List Request) :
    ∃ (outcome : Except Failure (Option Scan)) (next : σ) (asked : List Request),
      (resume server.recorded size rounds sweep).run (s, sent) =
        (outcome, next, asked.reverse ++ sent) := by
  obtain ⟨asked, hasked, -⟩ := resume_sends (P := fun _ => True) (fun _ _ => trivial) server size
    rounds sweep (s, sent)
  rcases hrun : (resume server.recorded size rounds sweep).run (s, sent) with ⟨outcome, next, log⟩
  rw [hrun] at hasked
  obtain rfl : log = asked ++ sent := hasked
  exact ⟨outcome, next, asked.reverse, by rw [List.reverse_reverse]⟩

/-- **More room changes nothing, or only adds.**  From any point on, two sweeps that differ in room come
out alike, with the same requests; or the smaller one returns and says that there is more, and then the
larger one has sent its requests first, and has its keys among its own if it returns. -/
theorem resume_roomier (server : Server σ) (size : Value) (more : Nat) :
    ∀ (rounds : Nat) (sweep : Sweep) {room : Nat}, sweep.room = some room → 0 < room →
    ∀ (s : σ) (sent : List Request),
    (resume server.recorded size rounds (sweep.roomier more)).run (s, sent) =
      (resume server.recorded size rounds sweep).run (s, sent) ∨
    ∃ (scan : Scan) (next : σ) (asked : List Request) (outcome : Except Failure (Option Scan))
      (next' : σ) (others : List Request),
      (resume server.recorded size rounds sweep).run (s, sent) =
        (.ok (some scan), next, asked.reverse ++ sent) ∧
      (resume server.recorded size rounds (sweep.roomier more)).run (s, sent) =
        (outcome, next', (asked ++ others).reverse ++ sent) ∧
      scan.truncated = true ∧ ∀ scan', outcome = .ok (some scan') → scan.keys ⊆ scan'.keys
  | 0, _, _, _, _, _, _ => .inl rfl
  | rounds + 1, sweep, room, hs, hroom, s, sent => by
    have hcursor : (sweep.roomier more).cursor = sweep.cursor := rfl
    rw [resume, resume, hcursor, Session.run_bind, Session.run_bind, Session.run_ask, Server.recorded]
    rcases hreply : server (.scan sweep.cursor size) s with ⟨e | reply, s₁⟩
    · exact .inl rfl
    simp only [Session.run_bind, Session.run_ofExcept]
    rcases absorb_roomier hs hroom more reply with
      ⟨next, left, hsmall, hleft, hpos, hlarge⟩ | ⟨hsame, hends⟩ | ⟨seen, hsmall, hkeeps⟩
    -- both go on
    · rw [hsmall, hlarge]
      rcases resume_roomier server size more rounds next hleft hpos s₁
        (.scan sweep.cursor size :: sent) with
        hsame | ⟨scan, after, asked, outcome, after', others, hrun, hrun', htruncated, hkeys⟩
      · exact .inl hsame
      · refine .inr ⟨scan, after, .scan sweep.cursor size :: asked, outcome, after', others, ?_, ?_,
          htruncated, hkeys⟩
        · simpa using hrun
        · simpa using hrun'
    -- both end with this answer, and alike
    · rw [hsame]
      cases habsorb : sweep.absorb reply with
      | error e => exact .inl rfl
      | ok r =>
        cases r with
        | inl next => exact absurd habsorb (hends next)
        | inr scan => exact .inl rfl
    -- the smaller one is full, and the larger one goes on if it can
    · rw [hsmall]
      refine .inr ⟨ofSeen seen true, s₁, [.scan sweep.cursor size], ?_⟩
      have hsub : ∀ {keys : List Text}, seen ⊆ keys → (ofSeen seen true).keys ⊆ keys :=
        fun h _ hkey => h (Text.mem_sort.mp hkey)
      cases habsorb : (sweep.roomier more).absorb reply with
      | error e => exact ⟨.error e, s₁, [], rfl, rfl, rfl, fun _ h => by cases h⟩
      | ok r =>
        have hkeys := hkeeps r habsorb
        cases r with
        | inr scan =>
          refine ⟨.ok (some scan), s₁, [], rfl, rfl, rfl, fun scan' h => ?_⟩
          obtain rfl := Option.some.inj (Except.ok.inj h)
          exact hsub hkeys
        | inl next =>
          obtain ⟨outcome, s₂, others, hrun⟩ := resume_asks server size rounds next s₁
            (.scan sweep.cursor size :: sent)
          refine ⟨outcome, s₂, others, rfl, ?_, rfl, fun scan' h => ?_⟩
          · rw [List.reverse_append, List.append_assoc]
            exact hrun
          · subst h
            exact hsub (List.Subset.trans hkeys (resume_keeps_seen rounds hrun))

/-- **A larger cap only ever adds keys.**  Two sweeps of one server from the same state, in the same
number of rounds, of which the second may take as many keys or more.  The requests of the first are the
first ones of the second.  Where the first fails, the second fails in the same way, and as long as the
first is under way, the second is too.  Where the first returns and does not say that there is more, the
second returns the same.  Where both return, the keys of the first are among those of the second, and the
second says that there is more only if the first does. -/
theorem run_larger_cap {server : Server σ} {small large : Int} (hone : 1 ≤ small)
    (hle : small ≤ large) (size : Value) (rounds : Nat) (s : σ) (sent : List Request) :
    ∃ few many, limits (.int small) size = .ok few ∧ limits (.int large) size = .ok many ∧
      ∃ (outcome outcome' : Except Failure (Option Scan)) (next next' : σ)
        (asked asked' : List Request),
        (run server.recorded few rounds).run (s, sent) = (outcome, next, asked.reverse ++ sent) ∧
        (run server.recorded many rounds).run (s, sent) = (outcome', next', asked'.reverse ++ sent) ∧
        asked <+: asked' ∧
        (∀ e, outcome = .error e → outcome' = .error e) ∧ (outcome = .ok none → outcome' = .ok none) ∧
        ∀ scan, outcome = .ok (some scan) → (scan.truncated = false → outcome' = .ok (some scan)) ∧
          ∀ scan', outcome' = .ok (some scan') → scan.keys ⊆ scan'.keys ∧
            (scan'.truncated = true → scan.truncated = true) := by
  obtain ⟨more, hmore⟩ : ∃ more : Nat, large.toNat = small.toNat + more :=
    ⟨large.toNat - small.toNat, by omega⟩
  refine ⟨_, _, limits_pos hone size, limits_pos (hone.trans hle) size, ?_⟩
  have hstart : Sweep.start ⟨some large.toNat, size⟩ =
      (Sweep.start ⟨some small.toNat, size⟩).roomier more := by
    rw [hmore]
    rfl
  rw [run, run, hstart]
  rcases resume_roomier server size more rounds (Sweep.start ⟨some small.toNat, size⟩) rfl
    (show 0 < small.toNat by omega) s sent with
    hsame | ⟨scan, next, asked, outcome', next', others, hrun, hrun', htruncated, hkeys⟩
  · obtain ⟨outcome, next, asked, hrun⟩ := resume_asks server size rounds
      (Sweep.start ⟨some small.toNat, size⟩) s sent
    refine ⟨outcome, outcome, next, next, asked, asked, hrun, hsame.trans hrun, List.prefix_rfl,
      fun _ => id, id, ?_⟩
    · rintro scan rfl
      refine ⟨fun _ => rfl, fun scan' h => ?_⟩
      obtain rfl := Option.some.inj (Except.ok.inj h)
      exact ⟨List.Subset.refl _, id⟩
  · refine ⟨.ok (some scan), outcome', next, next', asked, asked ++ others, hrun, hrun',
      List.prefix_append _ _, (fun _ h => by cases h), (fun h => by cases h), ?_⟩
    intro scan₁ h
    obtain rfl := Option.some.inj (Except.ok.inj h)
    refine ⟨fun hfalse => ?_, fun scan' h' => ⟨hkeys scan' h', fun _ => htruncated⟩⟩
    rw [htruncated] at hfalse
    cases hfalse

/-- The second key arrives on the first page and the third one on the third page: two more pages are
asked for, and the first two keys come back again. -/
theorem run_two_then_three :
    ∃ few many, limits (.int 2) (.int 2) = .ok few ∧ limits (.int 3) (.int 2) = .ok many ∧
      ∃ scan scan' next next',
        (run Server.scripted.recorded few 4).run (repeating, []) =
          (.ok (some scan), next, [.scan 0 (.int 2)]) ∧
        (run Server.scripted.recorded many 4).run (repeating, []) =
          (.ok (some scan'), next', [.scan (-3) (.int 2), .scan 5 (.int 2), .scan 0 (.int 2)]) ∧
        scan.keys ⊆ scan'.keys ∧ (scan'.truncated = true → scan.truncated = true) := by
  obtain ⟨few, many, hfew, hmany, outcome, outcome', next, next', asked, asked', hrun, hrun', -, -, -,
    hkeys⟩ := @run_larger_cap _ Server.scripted 2 3 (by decide) (by decide) (.int 2) 4 repeating []
  obtain rfl : _ = few := Except.ok.inj ((limits_pos (by decide) _).symm.trans hfew)
  obtain rfl : _ = many := Except.ok.inj ((limits_pos (by decide) _).symm.trans hmany)
  have htwo : (run Server.scripted.recorded ⟨some 2, .int 2⟩ 4).run (repeating, []) =
    (.ok (ofSeen ["a", "b"] true), repeating.drop 1, [.scan 0 (.int 2)]) := rfl
  have hthree : (run Server.scripted.recorded ⟨some 3, .int 2⟩ 4).run (repeating, []) =
    (.ok (ofSeen (Utf8.decodeEscaped [0xFF] :: ["a", "b"]) true), repeating.drop 3,
      [.scan (-3) (.int 2), .scan 5 (.int 2), .scan 0 (.int 2)]) := rfl
  obtain rfl : _ = outcome := congrArg Prod.fst (htwo.symm.trans hrun)
  obtain rfl : _ = outcome' := congrArg Prod.fst (hthree.symm.trans hrun')
  exact ⟨_, _, hfew, hmany, _, _, _, _, htwo, hthree, (hkeys _ rfl).2 _ rfl⟩

end Scan

end Keyscope
