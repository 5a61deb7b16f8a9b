/-
# What servers answer to reads

Assumptions on a server are made where something is read from it.

* `Server.Lists`: a read that does not fail is answered with a list.  It may have any length, and
  its members may be errors or values of any shape, as long as they have a text.
* `Server.ListReads`: the same, but the members may be any values at all.
* `Server.AnswersBy`: a read never fails as a whole, and what is answered for a key depends on the
  command and the key alone, not on what else is asked with it.
-/
import Mathlib.Tactic.Common
import Keyscope.Keyspace.Bucket

namespace Keyscope

/-! ## 1. Values that have a text -/

/-- A value has a text.  Only a whole number that is too long, alone or inside a container, has
none. -/
def Value.HasText (v : Value) : Prop := ∃ t, v.toText = .ok t

/-- What has a text can be displayed. -/
theorem Value.HasText.decoded {v : Value} (h : v.HasText) : ∃ t, v.decoded = .ok t := by
  obtain ⟨t, ht⟩ := h
  cases v with
  | bytes bs => exact ⟨_, rfl⟩
  | buffer bs => exact ⟨_, rfl⟩
  | _ => exact ⟨t, ht⟩

theorem Value.hasText_null : Value.null.HasText := ⟨_, rfl⟩

theorem Value.isNull_iff {v : Value} : v.isNull = true ↔ v = .null := by
  cases v <;> simp [isNull]

/-- A member of a list reply; one that is missing is null. -/
theorem Value.memberOrNull_list (vs : List Value) (i : Nat) :
    (Value.list vs).memberOrNull i = .ok (vs[i]?.getD .null) := by
  by_cases h : i < vs.length
  · have hsize : (Value.list vs).memberOrNull i = (Value.list vs).memberAt i := by
      simp only [memberOrNull, size, members?]
      exact if_pos h
    rw [hsize]
    simp only [memberAt, members?, List.getElem?_eq_getElem h]
    rfl
  · have hsize : (Value.list vs).memberOrNull i = .ok .null := by
      simp only [memberOrNull, size, members?]
      exact if_neg h
    rw [hsize, List.getElem?_eq_none (Nat.le_of_not_lt h)]
    rfl

/-- A list of values that have a text. -/
def Value.Listed (v : Value) : Prop := ∃ vs, v = .list vs ∧ ∀ w ∈ vs, w.HasText

/-- Every member of such a list has a text, also one that is missing. -/
theorem Value.Listed.member {v : Value} (h : v.Listed) (i : Nat) :
    ∃ w, v.memberOrNull i = .ok w ∧ w.HasText := by
  obtain ⟨vs, rfl, hvs⟩ := h
  refine ⟨_, memberOrNull_list vs i, ?_⟩
  cases hi : vs[i]? with
  | none => exact hasText_null
  | some w => exact hvs w (List.mem_of_getElem? hi)

/-! ## 2. Reads -/

/-- Whether a request reads something of keys: their types and lifetimes, or their values. -/
def Request.reads : Request → Bool
  | .strings _ => true
  | .batch _ => true
  | _ => false

theorem Bucket.request_reads (b : Bucket) (names : List Bytes) :
    (b.request names).reads = true := by
  cases b <;> rfl

variable {σ : Type}

/-- **A server that answers reads with lists**, if it does not fail. -/
def Server.Lists (server : Server σ) : Prop :=
  ∀ r s reply, r.reads = true → (server r s).1 = .ok reply → reply.Listed

/-- **A server that answers reads with lists**, whatever their members are, if it does not fail. -/
def Server.ListReads (server : Server σ) : Prop :=
  ∀ r s reply, r.reads = true → (server r s).1 = .ok reply → ∃ vs, reply = .list vs

/-- The failure of a read that takes too long. -/
def Failure.timedOut : Failure := .remote (.plain "TimeoutError" none)

/-! ## 3. Answers key by key -/

/-- What is answered for a key, depending on what is asked. -/
structure Answers where
  /-- The string under a key, asked together with those of other keys. -/
  string : Bytes → Value
  /-- The answer to a command in a batch. -/
  command : Command → Bytes → Value

/-- What is answered for a key that is read in a bucket. -/
def Answers.reply (a : Answers) : Bucket → Bytes → Value
  | .strings => a.string
  | .hashes => a.command .hashFields
  | .sets => a.command .setMembers
  | .sortedSets => a.command .sortedMembers
  | .lists => a.command .listElements
  | .documents => a.command .document

/-- **A server that answers key by key.**  It may change with every request, as long as the answers
to reads do not. -/
structure Server.AnswersBy (server : Server σ) (a : Answers) : Prop where
  strings : ∀ names s, (server (.strings names) s).1 = .ok (.list (names.map a.string))
  batch : ∀ commands s,
    (server (.batch commands) s).1 = .ok (.list (commands.map fun c => a.command c.1 c.2))

/-- A client that answers key by key, and whose pages are a function of the cursor. -/
def Answers.server (a : Answers) (page : Int → Value) : Server Unit := fun r s =>
  (match r with
    | .scan cursor _ => .ok (page cursor)
    | .strings names => .ok (.list (names.map a.string))
    | .batch commands => .ok (.list (commands.map fun c => a.command c.1 c.2))
    | _ => .ok .null, s)

theorem Answers.server_answersBy (a : Answers) (page : Int → Value) : (a.server page).AnswersBy a :=
  ⟨fun _ _ => rfl, fun _ _ => rfl⟩

theorem Server.AnswersBy.request {server : Server σ} {a : Answers} (h : server.AnswersBy a)
    (b : Bucket) (names : List Bytes) (s : σ) :
    (server (b.request names) s).1 = .ok (.list (names.map (a.reply b))) := by
  cases b with
  | strings => exact h.strings names s
  | _ => simp only [Bucket.request, h.batch, List.map_map]; rfl

end Keyscope
