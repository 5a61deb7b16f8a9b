/-
# Running sessions

A session runs from a state of its server to an outcome and the next state.  The equations of
section 1 say what each way of building a session does to its run, so that no later proof looks
into the monad.  Section 2 is about sessions that are followed for a number of rounds: once they are
over, more rounds change nothing (`Continues`).  Section 3 is about the requests that a session sends:
the record of a recorded server only grows (`Sends`).
-/
import Mathlib.Tactic.Common
import Keyscope.Server

namespace Keyscope

variable {σ α β : Type}

namespace Session

/-! ## 1. Runs -/

/-- Sessions that run alike are the same. -/
theorem ext {x y : Session σ α} (h : ∀ s, x.run s = y.run s) : x = y := funext h

@[simp] theorem run_pure (a : α) (s : σ) : (pure a : Session σ α).run s = (.ok a, s) := rfl

@[simp] theorem run_throw (e : Failure) (s : σ) :
    (throw e : Session σ α).run s = (.error e, s) := rfl

theorem run_pure_eq_ok {a b : α} {s next : σ} :
    (pure a : Session σ α).run s = (.ok b, next) ↔ b = a ∧ next = s := by
  constructor
  · intro h
    cases h
    exact ⟨rfl, rfl⟩
  · rintro ⟨rfl, rfl⟩
    rfl

theorem run_throw_ne_ok (e : Failure) (s next : σ) (a : α) :
    (throw e : Session σ α).run s ≠ (.ok a, next) := nofun

/-- A session goes on after a success and stops at a failure. -/
theorem run_bind (x : Session σ α) (f : α → Session σ β) (s : σ) :
    (x >>= f).run s = match x.run s with
      | (.ok a, next) => (f a).run next
      | (.error e, next) => (.error e, next) := by
  have h : (x >>= f).run s = ExceptT.bindCont f (x.run s).1 (x.run s).2 := rfl
  rw [h]
  rcases x.run s with ⟨_ | a, next⟩ <;> rfl

theorem run_bind_ok {x : Session σ α} {s next : σ} {a : α} (h : x.run s = (.ok a, next))
    (f : α → Session σ β) : (x >>= f).run s = (f a).run next := by
  rw [run_bind, h]

theorem run_bind_error {x : Session σ α} {s next : σ} {e : Failure} (h : x.run s = (.error e, next))
    (f : α → Session σ β) : (x >>= f).run s = (.error e, next) := by
  rw [run_bind, h]

/-- What is made of a result changes nothing else. -/
theorem run_map (x : Session σ α) (f : α → β) (s : σ) :
    (x >>= fun a => pure (f a)).run s = ((x.run s).1.map f, (x.run s).2) := by
  rw [run_bind]
  rcases x.run s with ⟨e | a, next⟩ <;> rfl

/-- **A session in steps succeeds** if and only if every step does. -/
theorem run_bind_eq_ok {x : Session σ α} {f : α → Session σ β} {s next : σ} {b : β} :
    (x >>= f).run s = (.ok b, next) ↔
      ∃ a mid, x.run s = (.ok a, mid) ∧ (f a).run mid = (.ok b, next) := by
  constructor
  · intro h
    rcases hx : x.run s with ⟨e | a, mid⟩
    · rw [run_bind_error hx] at h
      cases h
    · rw [run_bind_ok hx] at h
      exact ⟨a, mid, rfl, h⟩
  · rintro ⟨a, mid, hx, hf⟩
    rw [run_bind_ok hx, hf]

/-- The outcome of a session in steps, where the outcomes of the steps are known. -/
theorem outcome_bind {x : Session σ α} {f : α → Session σ β} {r : Except Failure α}
    {g : α → Except Failure β} {s : σ} (hx : (x.run s).1 = r)
    (hf : ∀ a next, x.run s = (.ok a, next) → ((f a).run next).1 = g a) :
    ((x >>= f).run s).1 = r >>= g := by
  rw [run_bind]
  rcases hrun : x.run s with ⟨e | a, next⟩
  · rw [← hx, hrun]
    rfl
  · rw [← hx, hrun]
    exact hf a next hrun

@[simp] theorem run_outcome (x : Session σ α) (s : σ) :
    x.outcome.run s = (.ok (x.run s).1, (x.run s).2) := rfl

@[simp] theorem run_ofExcept (r : Except Failure α) (s : σ) :
    (ofExcept r : Session σ α).run s = (r, s) := rfl

/-- Going on with a result that is known is going on. -/
theorem ofExcept_ok_bind (a : α) (f : α → Session σ β) : (ofExcept (.ok a) >>= f) = f a := rfl

/-- Results that are known already may be put together first. -/
theorem ofExcept_bind (r : Except Failure α) (f : α → Except Failure β) :
    (ofExcept (r >>= f) : Session σ β) = ofExcept r >>= fun a => ofExcept (f a) := by
  cases r <;> rfl

theorem run_ofExcept_eq_ok {r : Except Failure α} {a : α} {s next : σ} :
    (ofExcept r : Session σ α).run s = (.ok a, next) ↔ r = .ok a ∧ next = s := by
  constructor
  · intro h
    cases h
    exact ⟨rfl, rfl⟩
  · rintro ⟨rfl, rfl⟩
    rfl

@[simp] theorem run_ask (server : Server σ) (r : Request) (s : σ) :
    (server.ask r).run s = server r s := rfl

/-- Ending a connection changes neither the result of a session nor its failure. -/
theorem run_thenHangUp (server : Server σ) (x : Session σ α) (s : σ) :
    (server.thenHangUp x).run s = ((x.run s).1, (server.hangUp.run (x.run s).2).2) := by
  simp only [Server.thenHangUp, run_bind, run_outcome, run_ofExcept, Server.hangUp, run_pure]

/-- A session that is still under way keeps its connection. -/
theorem run_hangUpAfter_none {server : Server σ} {x : Session σ (Option α)} {s next : σ}
    (h : x.run s = (.ok none, next)) : (server.hangUpAfter x).run s = (.ok none, next) := by
  rw [Server.hangUpAfter, run_bind, run_outcome, h]
  rfl

/-- Ending the connection of a session that is over changes neither its result nor its failure. -/
theorem run_hangUpAfter {server : Server σ} {x : Session σ (Option α)} {s next : σ}
    {r : Except Failure (Option α)} (h : x.run s = (r, next)) (hover : r ≠ .ok none) :
    (server.hangUpAfter x).run s = (r, (server.hangUp.run next).2) := by
  rw [Server.hangUpAfter, run_bind, run_outcome, h]
  rcases r with f | _ | a
  · rfl
  · exact absurd rfl hover
  · rfl

theorem run_hangUpAfter_some {server : Server σ} {x : Session σ (Option α)} {s next : σ} {a : α}
    (h : x.run s = (.ok (some a), next)) :
    (server.hangUpAfter x).run s = (.ok (some a), (server.hangUp.run next).2) :=
  run_hangUpAfter h nofun

/-- The outcome of a session does not depend on how its connection ends. -/
theorem run_hangUpAfter_fst (server : Server σ) (x : Session σ (Option α)) (s : σ) :
    ((server.hangUpAfter x).run s).1 = (x.run s).1 := by
  rcases h : x.run s with ⟨f | _ | a, next⟩
  · rw [run_hangUpAfter h nofun]
  · rw [run_hangUpAfter_none h]
  · rw [run_hangUpAfter_some h]

/-! ## 2. Sessions that go on -/

/-- **A session that goes on where another one was left**: whatever comes of the shorter one, once it
is over, comes of the longer one. -/
def Continues (short long : Session σ (Option α)) : Prop :=
  ∀ (s : σ) (r : Except Failure (Option α)) (next : σ),
    short.run s = (r, next) → r ≠ .ok none → long.run s = (r, next)

variable {short long : Session σ (Option α)}

theorem Continues.refl (x : Session σ (Option α)) : Continues x x := fun _ _ _ h _ => h

/-- Everything goes on where nothing was done. -/
theorem Continues.of_none (long : Session σ (Option α)) : Continues (pure none) long :=
  fun _ _ _ h hover => absurd (Prod.mk.inj h).1.symm hover

theorem Continues.after (x : Session σ β) {f g : β → Session σ (Option α)}
    (h : ∀ b, Continues (f b) (g b)) : Continues (x >>= f) (x >>= g) := by
  intro s r next hrun hover
  rw [run_bind] at hrun ⊢
  rcases hx : x.run s with ⟨e | b, mid⟩ <;> rw [hx] at hrun
  · exact hrun
  · exact h b mid r next hrun hover

/-- What is done with the outcome of a session goes on, if nothing is done while it is under way. -/
theorem Continues.outcome_bind (h : Continues short long)
    {f : Except Failure (Option α) → Session σ (Option β)} (hnone : f (.ok none) = pure none) :
    Continues (short.outcome >>= f) (long.outcome >>= f) := by
  intro s r next hrun hover
  rw [run_bind, run_outcome] at hrun ⊢
  rcases hshort : short.run s with ⟨e | _ | a, mid⟩ <;> rw [hshort] at hrun
  · rw [h s _ mid hshort nofun]
    exact hrun
  · have hnothing : (f (.ok none)).run mid = (r, next) := hrun
    rw [hnone] at hnothing
    exact absurd (Prod.mk.inj hnothing).1.symm hover
  · rw [h s _ mid hshort nofun]
    exact hrun

theorem Continues.bind (h : Continues short long) {f : Option α → Session σ (Option β)}
    (hnone : f none = pure none) : Continues (short >>= f) (long >>= f) := by
  have houtcome : ∀ x : Session σ (Option α),
      x >>= f = x.outcome >>= fun r => ofExcept r >>= f := by
    refine fun x => ext fun s => ?_
    rw [run_bind, run_bind, run_outcome]
    rcases x.run s with ⟨e | a, next⟩ <;> rfl
  rw [houtcome, houtcome]
  exact h.outcome_bind hnone

/-! ## 3. Requests -/

/-- Whatever a session on a recorded server sends is of a kind, and the record keeps what was
there before. -/
def Sends (P : Request → Prop) (x : Session (σ × List Request) α) : Prop :=
  ∀ s, ∃ sent, (x.run s).2.2 = sent ++ s.2 ∧ ∀ r ∈ sent, P r

variable {P : Request → Prop}

theorem Sends.pure (a : α) : Sends P (pure a : Session (σ × List Request) α) :=
  fun _ => ⟨[], rfl, by simp⟩

theorem Sends.throw (e : Failure) : Sends P (throw e : Session (σ × List Request) α) :=
  fun _ => ⟨[], rfl, by simp⟩

theorem Sends.ofExcept (r : Except Failure α) :
    Sends P (Session.ofExcept r : Session (σ × List Request) α) := fun _ => ⟨[], rfl, by simp⟩

theorem Sends.ask (server : Server σ) {r : Request} (hr : P r) : Sends P (server.recorded.ask r) :=
  fun _ => ⟨[r], rfl, by simpa using hr⟩

theorem Sends.outcome {x : Session (σ × List Request) α} (h : Sends P x) : Sends P x.outcome := h

theorem Sends.bind {x : Session (σ × List Request) α} {f : α → Session (σ × List Request) β}
    (hx : Sends P x) (hf : ∀ a, Sends P (f a)) : Sends P (x >>= f) := by
  intro s
  obtain ⟨sent, hsent, hP⟩ := hx s
  rw [run_bind]
  rcases hrun : x.run s with ⟨_ | a, next⟩ <;> rw [hrun] at hsent
  · exact ⟨sent, hsent, hP⟩
  · obtain ⟨more, hmore, hP'⟩ := hf a next
    refine ⟨more ++ sent, ?_, ?_⟩
    · rw [hmore, hsent, List.append_assoc]
    · intro r hr
      rcases List.mem_append.mp hr with h | h
      · exact hP' r h
      · exact hP r h

theorem Sends.hangUp (server : Server σ) (hclose : P .close) (hdisconnect : P .disconnect) :
    Sends P server.recorded.hangUp := by
  refine Sends.bind ?_ fun _ => Sends.pure ()
  exact ((Sends.ask server hclose).bind fun _ => Sends.ask server hdisconnect).outcome

end Session

end Keyscope
