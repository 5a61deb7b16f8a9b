/-
# Answers in their places

Types and lifetimes come back in one list with two answers per key, and nothing says that the list
is as long as it should be.  Section 1 says what one answer tells, each constructor for one reason;
`tellsType_iff` and `tellsLifetime_iff` are the readers of the model in these terms.

So what is told of a key depends on the two answers in its places and on nothing else: an answer
that is missing or wrong costs its own key one field.  `load_aligned` adds what is sent, and what
comes of a batch that fails.
-/
import Mathlib.Data.List.Forall2
import Keyscope.Proofs.Keyspace.Metadata
import Keyscope.Proofs.Value.Told

namespace Keyscope

namespace KeyInfo

/-! ## 1. One answer -/

/-- **What an answer, if there is one, tells of the type of a key.** -/
inductive TellsType : Option Value → Text → Prop
  | missing : TellsType none "unknown"
  | null : TellsType (some .null) "unknown"
  | error {v : Value} {e : Failure} (h : v.failure? = some e) : TellsType (some v) "unknown"
  | text {v : Value} {t : Text} (hnull : v.isNull = false) (herror : v.failure? = none)
      (ht : v.decoded = .ok t) : TellsType (some v) t

/-- **What an answer, if there is one, tells of the lifetime of a key**: the number that its text
spells, without a fraction, or that it is not known. -/
inductive TellsLifetime : Option Value → Int → Prop
  | missing : TellsLifetime none (-2)
  | null : TellsLifetime (some .null) (-2)
  | error {v : Value} {e : Failure} (h : v.failure? = some e) : TellsLifetime (some v) (-2)
  | bool (b : Bool) : TellsLifetime (some (.bool b)) (-2)
  | noNumber {v : Value} {t : Text} (ht : v.decoded = .ok t) (hx : Numeral.real t = none) :
      TellsLifetime (some v) (-2)
  | notFinite {v : Value} {t : Text} {x : Binary64} (ht : v.decoded = .ok t)
      (hx : Numeral.real t = some x) (hfinite : x.isFinite = false) : TellsLifetime (some v) (-2)
  | number {v : Value} {t : Text} {x : Binary64} {n : Int} (hnull : v.isNull = false)
      (hbool : v.isBool = false) (herror : v.failure? = none) (ht : v.decoded = .ok t)
      (hx : Numeral.real t = some x) (hn : x.truncate? = some n) : TellsLifetime (some v) n

theorem typeOf_of_not {v : Value} (hnull : v.isNull = false) (herror : v.failure? = none) :
    typeOf v = v.decoded := by
  rw [typeOf, hnull, herror]
  rfl

theorem lifetimeOf_of_not {v : Value} {t : Text} (hnull : v.isNull = false)
    (hbool : v.isBool = false) (herror : v.failure? = none) (ht : v.decoded = .ok t) :
    lifetimeOf v = ((Numeral.real t).bind Binary64.truncate?).getD (-2) := by
  rw [lifetimeOf, hnull, hbool, herror, ht]
  rfl

theorem lifetimeOf_of_failure {v : Value} {e : Failure} (h : v.failure? = some e) :
    lifetimeOf v = -2 := by
  rw [lifetimeOf, if_pos (by simp [h])]
  rfl

/-- A number that is not finite has no whole part. -/
theorem truncate?_eq_none {x : Binary64} : x.truncate? = none ↔ x.isFinite = false := by
  cases x <;> simp [Binary64.truncate?, Binary64.isFinite]

/-- An answer whose text gives no whole number leaves the lifetime unknown, whatever else it is. -/
theorem lifetimeOf_of_none {v : Value} {t : Text} (ht : v.decoded = .ok t)
    (hnone : (Numeral.real t).bind Binary64.truncate? = none) : lifetimeOf v = -2 := by
  rw [lifetimeOf, ht]
  simp only [hnone]
  split <;> rfl

/-- An answer that is neither null nor a truth value nor an error tells what its text spells. -/
theorem tellsLifetime_of_not {v : Value} {t : Text} (hnull : v.isNull = false)
    (hbool : v.isBool = false) (herror : v.failure? = none) (ht : v.decoded = .ok t) :
    TellsLifetime (some v) (lifetimeOf v) := by
  rw [lifetimeOf_of_not hnull hbool herror ht]
  cases hx : Numeral.real t with
  | none => exact .noNumber ht hx
  | some x =>
    rw [Option.bind_some]
    cases hn : x.truncate? with
    | none => exact .notFinite ht hx (truncate?_eq_none.mp hn)
    | some n => exact .number hnull hbool herror ht hx hn

/-- Every answer that has a text tells something of the lifetime. -/
theorem tellsLifetime_lifetimeOf {v : Value} (h : v.HasText) :
    TellsLifetime (some v) (lifetimeOf v) := by
  obtain ⟨t, ht⟩ := h.decoded
  cases herror : v.failure? with
  | some e =>
    rw [lifetimeOf_of_failure herror]
    exact .error herror
  | none =>
    cases v with
    | null => exact .null
    | bool b => exact .bool b
    | _ => exact tellsLifetime_of_not rfl rfl herror ht

/-- **Types are read as told.** -/
theorem tellsType_iff {answer : Option Value} {t : Text} :
    TellsType answer t ↔ typeOf (answer.getD .null) = .ok t := by
  constructor
  · intro h
    cases h with
    | missing => rfl
    | null => rfl
    | error h => rw [Option.getD_some, typeOf, if_pos (by simp [h])]; rfl
    | text hnull herror ht => rw [Option.getD_some, typeOf_of_not hnull herror, ht]
  · intro h
    cases answer with
    | none =>
      obtain rfl := Except.ok.inj h
      exact .missing
    | some v =>
      rw [Option.getD_some] at h
      cases hnull : v.isNull with
      | true =>
        obtain rfl := Value.isNull_iff.mp hnull
        obtain rfl := Except.ok.inj h
        exact .null
      | false =>
        cases herror : v.failure? with
        | none => exact .text hnull herror ((typeOf_of_not hnull herror).symm.trans h)
        | some e =>
          rw [typeOf, if_pos (by simp [herror])] at h
          obtain rfl := Except.ok.inj h
          exact .error herror

/-- **Lifetimes are read as told**, where the answer has a text. -/
theorem tellsLifetime_iff {answer : Option Value} (htext : ∀ v ∈ answer, v.HasText) {n : Int} :
    TellsLifetime answer n ↔ lifetimeOf (answer.getD .null) = n := by
  constructor
  · intro h
    cases h with
    | missing => rfl
    | null => rfl
    | error h => exact lifetimeOf_of_failure h
    | bool b => rfl
    | noNumber ht hx => exact lifetimeOf_of_none ht (by rw [hx]; rfl)
    | notFinite ht hx hfinite =>
      exact lifetimeOf_of_none ht (by rw [hx]; exact truncate?_eq_none.mpr hfinite)
    | number hnull hbool herror ht hx hn =>
      rw [Option.getD_some, lifetimeOf_of_not hnull hbool herror ht, hx, Option.bind_some, hn]
      rfl
  · rintro rfl
    cases answer with
    | none => exact .missing
    | some v => exact tellsLifetime_lifetimeOf (htext v rfl)

/-! ## 2. Two answers for a key -/

/-- **What the answers tell of the key in a place.** -/
structure Told (replies : List Value) (place : Nat) (key : Text) (info : KeyInfo) : Prop where
  key : info.key = key
  type : TellsType replies[2 * place]? info.type
  lifetime : TellsLifetime replies[2 * place + 1]? info.lifetime

/-- A key is read from its two answers as they tell. -/
theorem told_of_ofPair {replies : List Value} (htext : ∀ v ∈ replies, v.HasText) {place : Nat}
    {key : Text} {info : KeyInfo}
    (h : ofPair key (replies[2 * place]?.getD .null) (replies[2 * place + 1]?.getD .null)
      = .ok info) : Told replies place key info := by
  obtain ⟨t, ht, h⟩ := Outcome.exists_of_bind h
  obtain rfl := Except.ok.inj h
  refine ⟨rfl, tellsType_iff.mpr ht, (tellsLifetime_iff fun v hv => ?_).mpr rfl⟩
  exact htext v (List.mem_of_getElem? hv)

/-- Whatever is read from a list of answers is read in its place. -/
theorem ofPair_of_listOfReplies {replies : List Value} {keys : List Text} {infos : List KeyInfo}
    (h : listOfReplies (.list replies) 0 keys = .ok infos) {i : Nat} {key : Text}
    (hkey : keys[i]? = some key) : ∃ info, infos[i]? = some info ∧
      ofPair key (replies[2 * i]?.getD .null) (replies[2 * i + 1]?.getD .null) = .ok info := by
  rw [listOfReplies_list] at h
  have hread := Outcome.forall₂_of_mapM h
  obtain ⟨hi, hget⟩ := List.getElem?_eq_some_iff.mp hkey
  have hi' : i < keys.zipIdx.length := by rwa [List.length_zipIdx]
  have hlt : i < infos.length := hread.length_eq ▸ hi'
  refine ⟨infos[i], List.getElem?_eq_getElem hlt, ?_⟩
  have hplace := hread.get hi' hlt
  simp only [List.get_eq_getElem, List.getElem_zipIdx, Nat.zero_add, hget] at hplace
  exact hplace

/-- Whatever is read from a list of answers is told in its place. -/
theorem told_of_listOfReplies {replies : List Value} (htext : ∀ v ∈ replies, v.HasText)
    {keys : List Text} {infos : List KeyInfo}
    (h : listOfReplies (.list replies) 0 keys = .ok infos) {i : Nat} {key : Text}
    (hkey : keys[i]? = some key) : ∃ info, infos[i]? = some info ∧ Told replies i key info := by
  obtain ⟨info, hinfo, hpair⟩ := ofPair_of_listOfReplies h hkey
  exact ⟨info, hinfo, told_of_ofPair htext hpair⟩

/-! ## 3. A batch -/

/-- **What comes of a batch**, by its outcome. -/
structure Loaded (outcome : Except Failure Value) (keys : List Text) (infos : List KeyInfo) :
    Prop where
  length : infos.length = keys.length
  failed : ∀ e, outcome = .error e → infos = keys.map fun key => ⟨key, "unknown", -2⟩
  told : ∀ replies, outcome = .ok (.list replies) → ∀ i key, keys[i]? = some key →
    ∃ info, infos[i]? = some info ∧ Told replies i key info

variable {σ : Type}

/-- **Types and lifetimes stay with their keys.**  For keys that have names, of which some may be
the same, and any list of answers that have a text, too short or too long or with errors in it:
there is one entry per key, in the order of the keys, and it tells what the two answers in the place
of the key tell.  If the batch fails, nothing is known of any key.  One request is sent, with two
commands per key, and none if there are no keys. -/
theorem load_aligned {server : Server σ} {keys : List Text} {names : List Bytes}
    (hnames : keys.mapM encodeKey = .ok names) {s : σ}
    (hlisted : ∀ replies, (server (.batch (names.flatMap commands)) s).1 = .ok replies →
      replies.Listed) (sent : List Request) :
    (keys = [] → (load server.recorded keys).run (s, sent) = (.ok [], s, sent)) ∧
    (keys ≠ [] → ∃ request infos next,
      request = .batch (names.flatMap fun name => [(.type, name), (.ttl, name)]) ∧
      (load server.recorded keys).run (s, sent) = (.ok infos, next, request :: sent) ∧
      Loaded (server request s).1 keys infos) := by
  constructor
  · rintro rfl
    rfl
  intro hkeys
  have hrun := run_load server.recorded hkeys hnames (s, sent)
  refine ⟨.batch (names.flatMap commands), ?_⟩
  rw [hrun]
  simp only [Server.recorded]
  rcases hreply : server (.batch (names.flatMap commands)) s with ⟨e | replies, next⟩
  · exact ⟨keys.map unknown, next, rfl, rfl, by simp, fun _ _ => rfl, nofun⟩
  obtain ⟨vs, rfl, htext⟩ := hlisted replies (by rw [hreply])
  obtain ⟨infos, hinfos, hkeys'⟩ := exists_listOfReplies ⟨vs, rfl, htext⟩ 0 keys
  refine ⟨infos, next, rfl, by simp only [hinfos], ?_, nofun, ?_⟩
  · rw [← hkeys', List.length_map]
  · rintro replies h i key hkey
    cases h
    exact told_of_listOfReplies htext hinfos hkey

/-- A number of one digit has a text. -/
theorem hasText_digit {n : Int} (h : n.natAbs < tenTo 1) : (Value.int n).HasText :=
  ⟨_, (Value.toText_int n).trans (Value.integerText_of_lt h (by decide))⟩

/-- A server that answers every batch with a type, a lifetime and an error. -/
def answersThree : Server Unit := fun _ s =>
  (.ok (.list [.bytes [104, 97, 115, 104], .int 7, .error (.plain "ResponseError" none)]), s)

/-- Three answers for three keys, two of them the same: the second has one answer, the third none. -/
theorem load_answersThree :
    (["a", "a", "b"] : List Text).mapM encodeKey = .ok [[97], [97], [98]] ∧
    ∃ request infos next,
      request = .batch [(.type, [97]), (.ttl, [97]), (.type, [97]), (.ttl, [97]), (.type, [98]),
        (.ttl, [98])] ∧
      (load answersThree.recorded ["a", "a", "b"]).run ((), []) = (.ok infos, next, [request]) ∧
      Loaded (answersThree request ()).1 ["a", "a", "b"] infos := by
  have hlisted : ∀ replies,
      (answersThree (.batch (([[97], [97], [98]] : List Bytes).flatMap commands)) ()).1
        = .ok replies → replies.Listed := by
    intro replies h
    obtain rfl := Except.ok.inj h
    refine ⟨_, rfl, fun v hv => ?_⟩
    simp only [List.mem_cons, List.not_mem_nil, or_false] at hv
    rcases hv with rfl | rfl | rfl
    · exact ⟨_, rfl⟩
    · exact hasText_digit (by decide)
    · exact ⟨_, rfl⟩
  exact ⟨rfl, (load_aligned rfl hlisted []).2 (by decide)⟩

end KeyInfo

end Keyscope
