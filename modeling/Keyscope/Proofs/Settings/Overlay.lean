/-
# Settings over settings

What environment variables say comes over what a file says, and a file over the defaults.  A variable
that is missing or empty leaves what is below it, and so does a number that is not made of digits
(`Environment.NumberOver`).  Nothing else changes a setting (`Overlaid`), and variables are read if and
only if each one can be (`exists_applyEnvironment`).
-/
import Keyscope.Proofs.Settings.Load

namespace Keyscope

/-! ## 1. One variable -/

namespace Environment

variable {e : Environment} {name : String} {t : Text}

/-- A number in a variable, if it is made of digits, over a limit. -/
inductive NumberOver (e : Environment) (name : String) (below : Value) : Value → Prop
  | number {t : Text} {n : Int} (ht : e.get? name = some t) (hdigits : t.isDigits = true)
    (hn : (Value.text t).toInteger = .ok n) : NumberOver e name below (.int n)
  | below (h : ∀ t, e.get? name = some t → t.isDigits = false) : NumberOver e name below below

/-- A path in a variable over another one. -/
inductive PathOver (e : Environment) (name : String) (below : Setting) : Setting → Prop
  | path {t p : Text} (ht : e.get? name = some t) (hp : Path.expandHome e.homeOf t = .ok p) :
    PathOver e name below (.path p)
  | below (h : e.get? name = none) : PathOver e name below below

/-- A level in a variable, in capitals, over another one. -/
inductive LevelOver (e : Environment) (name : String) (below : Value) : Value → Prop
  | level {t : Text} (ht : e.get? name = some t) : LevelOver e name below (.text t.upper)
  | below (h : e.get? name = none) : LevelOver e name below below

theorem NumberOver.unique {below v w : Value} (hv : e.NumberOver name below v)
    (hw : e.NumberOver name below w) : v = w := by
  cases hv with
  | number ht hdigits hn =>
    cases hw with
    | number hu _ hm =>
      obtain rfl := Option.some.inj (ht.symm.trans hu)
      rw [Except.ok.inj (hn.symm.trans hm)]
    | below h =>
      rw [h _ ht] at hdigits
      cases hdigits
  | below h =>
    cases hw with
    | number hu hdigits _ =>
      rw [h _ hu] at hdigits
      cases hdigits
    | below _ => rfl

theorem PathOver.unique {below p q : Setting} (hp : e.PathOver name below p)
    (hq : e.PathOver name below q) : p = q := by
  cases hp with
  | path ht hp =>
    cases hq with
    | path hu hq =>
      obtain rfl := Option.some.inj (ht.symm.trans hu)
      rw [Except.ok.inj (hp.symm.trans hq)]
    | below h => cases h.symm.trans ht
  | below h =>
    cases hq with
    | path hu _ => cases h.symm.trans hu
    | below _ => rfl

theorem LevelOver.unique {below v w : Value} (hv : e.LevelOver name below v)
    (hw : e.LevelOver name below w) : v = w := by
  cases hv with
  | level ht =>
    cases hw with
    | level hu => rw [Option.some.inj (ht.symm.trans hu)]
    | below h => cases h.symm.trans ht
  | below h =>
    cases hw with
    | level hu => cases h.symm.trans hu
    | below _ => rfl

/-! Variables do not depend on the disk. -/

variable {disk : Disk} {below v : Value} {p q : Setting}

theorem NumberOver.of_disk (h : NumberOver { e with disk := disk } name below v) :
    e.NumberOver name below v := by
  cases h with
  | number ht hdigits hn => exact .number ht hdigits hn
  | below h => exact .below h

theorem PathOver.of_disk (h : PathOver { e with disk := disk } name p q) : e.PathOver name p q := by
  cases h with
  | path ht hp => exact .path ht hp
  | below h => exact .below h

theorem LevelOver.of_disk (h : LevelOver { e with disk := disk } name below v) :
    e.LevelOver name below v := by
  cases h with
  | level ht => exact .level ht
  | below h => exact .below h

end Environment

namespace Settings

variable {e : Environment} {s s' : Settings} {log next : List LogLine}

theorem run_numberOf_eq_ok {name : String} {n? : Option Int} (below : Value)
    (h : (numberOf e name).run log = (.ok n?, next)) :
    e.NumberOver name below ((n?.map Value.int).getD below) := by
  unfold numberOf at h
  cases ht : e.get? name with
  | none =>
    simp only [ht, Session.run_pure_eq_ok] at h
    obtain ⟨rfl, -⟩ := h
    exact .below fun t h => by cases ht.symm.trans h
  | some t =>
    simp only [ht] at h
    split at h
    · rename_i hdigits
      obtain ⟨n, _, hn, h⟩ := Session.run_bind_eq_ok.mp h
      obtain ⟨rfl, -⟩ := Session.run_pure_eq_ok.mp h
      exact .number ht hdigits (Loading.run_ofExcept_eq_ok.mp hn).1
    · rename_i hdigits
      obtain ⟨_, _, -, h⟩ := Session.run_bind_eq_ok.mp h
      obtain ⟨rfl, -⟩ := Session.run_pure_eq_ok.mp h
      refine .below fun u hu => ?_
      obtain rfl := Option.some.inj (ht.symm.trans hu)
      simpa using hdigits

/-- A number that is over a limit is found. -/
theorem exists_numberOf {name : String} {below v : Value} (h : e.NumberOver name below v)
    (log : List LogLine) :
    ∃ n? next, (numberOf e name).run log = (.ok n?, next) ∧ (n?.map Value.int).getD below = v := by
  unfold numberOf
  cases h with
  | number ht hdigits hn =>
    refine ⟨some _, log, ?_, rfl⟩
    simp only [ht, hdigits, if_true, hn]
    rfl
  | below h =>
    cases ht : e.get? name with
    | none => exact ⟨none, log, rfl, rfl⟩
    | some t =>
      simp only [h t ht]
      exact ⟨none, _, rfl, rfl⟩

/-! ## 2. All variables -/

/-- **What variables change.** -/
structure Overlaid (e : Environment) (s s' : Settings) : Prop where
  maxKeys : e.NumberOver "CARTOGRAPH_MAX_KEYS" s.limits.maxKeys s'.limits.maxKeys
  maxPayload : e.NumberOver "CARTOGRAPH_MAX_PAYLOAD_CHARS" s.limits.maxPayload s'.limits.maxPayload
  rowsFile : e.PathOver "CARTOGRAPH_TELEMETRY_FILE" s.rowsFile s'.rowsFile
  logLevel : e.LevelOver "CARTOGRAPH_LOG_LEVEL" s.logLevel s'.logLevel
  rest : s' = { s with
    limits := { s.limits with maxKeys := s'.limits.maxKeys, maxPayload := s'.limits.maxPayload }
    rowsFile := s'.rowsFile
    logLevel := s'.logLevel }

/-- The level with what a variable says. -/
theorem levelOver (e : Environment) (below : Value) :
    e.LevelOver "CARTOGRAPH_LOG_LEVEL" below (match e.get? "CARTOGRAPH_LOG_LEVEL" with
      | some t => .text t.upper
      | none => below) := by
  cases ht : e.get? "CARTOGRAPH_LOG_LEVEL" with
  | none => exact .below ht
  | some t => exact .level ht

/-- **Environment variables are read** if and only if each one can be, and they change nothing but the
settings they are for. -/
theorem exists_applyEnvironment (log : List LogLine) :
    (∃ next, (applyEnvironment e s).run log = (.ok s', next)) ↔ Overlaid e s s' := by
  unfold applyEnvironment
  have hlevel := levelOver e s.logLevel
  constructor
  · rintro ⟨next, h⟩
    obtain ⟨maxKeys?, _, hkeys, h⟩ := Session.run_bind_eq_ok.mp h
    obtain ⟨maxPayload?, _, hpayload, h⟩ := Session.run_bind_eq_ok.mp h
    replace hkeys := run_numberOf_eq_ok s.limits.maxKeys hkeys
    replace hpayload := run_numberOf_eq_ok s.limits.maxPayload hpayload
    dsimp only at h
    cases hrows : e.get? "CARTOGRAPH_TELEMETRY_FILE" with
    | none =>
      simp only [hrows] at h
      obtain ⟨_, _, hrest, h⟩ := Session.run_bind_eq_ok.mp h
      obtain ⟨rfl, rfl⟩ := Session.run_pure_eq_ok.mp hrest
      obtain ⟨rfl, -⟩ := Session.run_pure_eq_ok.mp h
      exact ⟨hkeys, hpayload, .below hrows, hlevel, rfl⟩
    | some t =>
      simp only [hrows] at h
      obtain ⟨path, _, hpath, h⟩ := Session.run_bind_eq_ok.mp h
      obtain ⟨_, _, hrest, h⟩ := Session.run_bind_eq_ok.mp h
      obtain ⟨rfl, rfl⟩ := Session.run_pure_eq_ok.mp hrest
      obtain ⟨rfl, -⟩ := Session.run_pure_eq_ok.mp h
      exact ⟨hkeys, hpayload, .path hrows (Loading.run_ofExcept_eq_ok.mp hpath).1, hlevel, rfl⟩
  · intro h
    obtain ⟨maxKeys?, log₁, hkeys, hkeys'⟩ := exists_numberOf h.maxKeys log
    rw [Session.run_bind_ok hkeys]
    obtain ⟨maxPayload?, log₂, hpayload, hpayload'⟩ := exists_numberOf h.maxPayload log₁
    rw [Session.run_bind_ok hpayload, hkeys', hpayload', h.rest, ← hlevel.unique h.logLevel]
    refine ⟨log₂, ?_⟩
    have hrows := h.rowsFile
    generalize s'.rowsFile = rowsFile at hrows ⊢
    dsimp only
    cases hrows with
    | path ht hp => simp only [ht, hp]; rfl
    | below ht => simp only [ht]; rfl

theorem Overlaid.path_eq (h : Overlaid e s s') : s'.path = s.path := by rw [h.rest]

theorem Overlaid.targets_eq (h : Overlaid e s s') : s'.targets = s.targets := by rw [h.rest]

end Settings

end Keyscope
