/-
# What is known of keys

One batch asks for the types and lifetimes of all keys.  Its answers are read two by two, each
pair for the key in its place (`listOfReplies_list`).  So nothing that a server answers keeps a key
out of the result as long as the answers have a text (`load_returns`), and a server that answers key
by key is asked key by key, in one request (`load_answers`).
-/
import Keyscope.Proofs.Keyspace.Replies
import Keyscope.Proofs.Outcome
import Keyscope.Proofs.Session

namespace Keyscope

namespace KeyInfo

/-! ## 1. Reading the answers -/

/-- A key with an answer for its type and one for its lifetime. -/
def ofPair (key : Text) (type lifetime : Value) : Except Failure KeyInfo := do
  return ⟨key, ← typeOf type, lifetimeOf lifetime⟩

theorem ofReplies_list (vs : List Value) (i : Nat) (key : Text) :
    ofReplies (.list vs) i key =
      ofPair key (vs[2 * i]?.getD .null) (vs[2 * i + 1]?.getD .null) := by
  rw [ofReplies, Value.memberOrNull_list, Value.memberOrNull_list]
  rfl

/-- **Every key has the pair of answers in its place.** -/
theorem listOfReplies_list (vs : List Value) : ∀ (i : Nat) (keys : List Text),
    listOfReplies (.list vs) i keys = (keys.zipIdx i).mapM fun p =>
      ofPair p.1 (vs[2 * p.2]?.getD .null) (vs[2 * p.2 + 1]?.getD .null)
  | _, [] => rfl
  | i, key :: keys => by
    rw [listOfReplies, listOfReplies_list vs (i + 1) keys, ofReplies_list, List.zipIdx_cons,
      List.mapM_cons]

/-- An answer that has a text tells a type. -/
theorem exists_typeOf {v : Value} (h : v.HasText) : ∃ t, typeOf v = .ok t := by
  rw [typeOf]
  split
  · exact ⟨_, rfl⟩
  · exact h.decoded

theorem exists_ofPair (key : Text) {type : Value} (h : type.HasText) (lifetime : Value) :
    ∃ info, ofPair key type lifetime = .ok info ∧ info.key = key := by
  obtain ⟨t, ht⟩ := exists_typeOf h
  exact ⟨⟨key, t, lifetimeOf lifetime⟩, by rw [ofPair, ht]; rfl, rfl⟩

/-- Answers that have a text tell something of every key, in the order of the keys. -/
theorem exists_listOfReplies {replies : Value} (h : replies.Listed) :
    ∀ (i : Nat) (keys : List Text),
      ∃ infos, listOfReplies replies i keys = .ok infos ∧ infos.map (·.key) = keys
  | _, [] => ⟨[], rfl, rfl⟩
  | i, key :: keys => by
    obtain ⟨type, htype, htext⟩ := h.member (2 * i)
    obtain ⟨lifetime, hlifetime, -⟩ := h.member (2 * i + 1)
    obtain ⟨info, hinfo, hkey⟩ := exists_ofPair key htext lifetime
    obtain ⟨infos, hinfos, hkeys⟩ := exists_listOfReplies h (i + 1) keys
    refine ⟨info :: infos, ?_, by rw [List.map_cons, hkey, hkeys]⟩
    have hfirst : ofReplies replies i key = .ok info := by
      rw [ofReplies, htype, hlifetime]
      exact hinfo
    rw [listOfReplies, hfirst, hinfos]
    rfl

/-- What is told in a place is told of the key in that place. -/
theorem key_of_ofReplies {replies : Value} {i : Nat} {key : Text} {info : KeyInfo}
    (h : ofReplies replies i key = .ok info) : info.key = key := by
  rw [ofReplies] at h
  obtain ⟨type, -, h⟩ := Outcome.exists_of_bind h
  obtain ⟨lifetime, -, h⟩ := Outcome.exists_of_bind h
  obtain ⟨t, -, h⟩ := Outcome.exists_of_bind h
  obtain rfl := Except.ok.inj h
  rfl

/-- Answers that tell something tell it of every key, in the order of the keys. -/
theorem keys_of_listOfReplies {replies : Value} : ∀ {i : Nat} {keys : List Text}
    {infos : List KeyInfo}, listOfReplies replies i keys = .ok infos → infos.map (·.key) = keys
  | _, [], infos, h => by
    obtain rfl : [] = infos := Except.ok.inj h
    rfl
  | i, key :: keys, infos, h => by
    rw [listOfReplies] at h
    obtain ⟨info, hinfo, h⟩ := Outcome.exists_of_bind h
    obtain ⟨rest, hrest, h⟩ := Outcome.exists_of_bind h
    obtain rfl : info :: rest = infos := Except.ok.inj h
    rw [List.map_cons, key_of_ofReplies hinfo, keys_of_listOfReplies hrest]

/-! ## 2. Loading -/

variable {σ : Type}

/-- Loading keys that have names sends one request, and a failed one leaves every key unknown. -/
theorem run_load (server : Server σ) {keys : List Text} {names : List Bytes} (hkeys : keys ≠ [])
    (hnames : keys.mapM encodeKey = .ok names) (s : σ) :
    (load server keys).run s = match server (.batch (names.flatMap commands)) s with
      | (.error _, next) => (.ok (keys.map unknown), next)
      | (.ok replies, next) => (listOfReplies replies 0 keys, next) := by
  rw [load, if_neg (by simpa using hkeys), hnames]
  simp only [Session.run_bind, Session.run_ofExcept, Session.run_outcome, Session.run_ask]
  rcases server (.batch (names.flatMap commands)) s with ⟨_ | replies, next⟩ <;> rfl

/-- **What is loaded is of the keys that were asked for**, whatever is answered, and all of them
have names. -/
theorem keys_of_load {server : Server σ} {keys : List Text} {infos : List KeyInfo} {s next : σ}
    (h : (load server keys).run s = (.ok infos, next)) :
    infos.map (·.key) = keys ∧ ∃ names, keys.mapM encodeKey = .ok names := by
  by_cases hkeys : keys = []
  · subst hkeys
    cases h
    exact ⟨rfl, [], rfl⟩
  cases hnames : keys.mapM encodeKey with
  | error e =>
    rw [load, if_neg (by simpa using hkeys), hnames] at h
    cases h
  | ok names =>
    rw [run_load server hkeys hnames] at h
    refine ⟨?_, names, rfl⟩
    split at h
    · cases h
      simp [unknown, Function.comp_def]
    · exact keys_of_listOfReplies (Prod.mk.inj h).1

/-- **Loading returns**, and tells something of every key in its place, whatever is answered. -/
theorem load_returns {server : Server σ} (hlists : server.Lists) {keys : List Text}
    (hnames : ∀ key ∈ keys, ∃ bs, encodeKey key = .ok bs) (s : σ) :
    ∃ infos next, (load server keys).run s = (.ok infos, next) ∧ infos.map (·.key) = keys := by
  by_cases hkeys : keys = []
  · subst hkeys
    exact ⟨[], s, rfl, rfl⟩
  obtain ⟨names, hmap⟩ := Outcome.exists_mapM_ok hnames
  have hrun := run_load server hkeys hmap s
  rcases hreply : server (.batch (names.flatMap commands)) s with ⟨e | replies, next⟩
  · rw [hreply] at hrun
    exact ⟨_, next, hrun, by simp [unknown, Function.comp_def]⟩
  · rw [hreply] at hrun
    obtain ⟨infos, hinfos, hkeys'⟩ :=
      exists_listOfReplies (hlists _ s replies rfl (by rw [hreply])) 0 keys
    exact ⟨infos, next, hrun.trans (by simp only [hinfos]), hkeys'⟩

end KeyInfo

/-! ## 3. Key by key -/

/-- What a server that answers key by key tells of a key. -/
def Answers.info (a : Answers) (key : Text) : Except Failure KeyInfo := do
  let name ← encodeKey key
  KeyInfo.ofPair key (a.command .type name) (a.command .ttl name)

theorem Answers.info_of_name (a : Answers) {key : Text} {name : Bytes}
    (h : encodeKey key = .ok name) :
    a.info key = KeyInfo.ofPair key (a.command .type name) (a.command .ttl name) := by
  rw [info, h]
  rfl

namespace KeyInfo

variable {σ : Type}

/-- The answers to the batch for some keys, read from the place where they begin. -/
theorem listOfReplies_answers (a : Answers) : ∀ {keys : List Text} {names : List Bytes},
    List.Forall₂ (fun key name => encodeKey key = .ok name) keys names →
    ∀ (i : Nat) (before : List Value), before.length = 2 * i →
      listOfReplies (.list (before ++ (names.flatMap commands).map fun c => a.command c.1 c.2)) i
        keys = keys.mapM a.info
  | _, _, .nil, _, _, _ => rfl
  | key :: keys, name :: names, .cons hname hrest, i, before, hbefore => by
    have hpair : ofReplies (.list (before ++ ((name :: names).flatMap commands).map
        fun c => a.command c.1 c.2)) i key = a.info key := by
      rw [ofReplies_list, Answers.info, hname, List.getElem?_append_right (by omega),
        List.getElem?_append_right (by omega), hbefore, Nat.sub_self, Nat.add_sub_cancel_left]
      rfl
    have hshift : before ++ ((name :: names).flatMap commands).map (fun c => a.command c.1 c.2)
        = (before ++ [a.command .type name, a.command .ttl name])
          ++ (names.flatMap commands).map (fun c => a.command c.1 c.2) := by
      simp [commands]
    rw [listOfReplies, hpair, List.mapM_cons, hshift,
      listOfReplies_answers a hrest (i + 1) _ (by simp [hbefore, Nat.mul_add])]

/-- **One batch is as good as asking key by key**: what is told of a key depends on the answers for
that key alone. -/
theorem load_answers {server : Server σ} {a : Answers} (ha : server.AnswersBy a) (keys : List Text)
    (s : σ) :
    ((load server keys).run s).1 = (do
      let _ ← keys.mapM encodeKey
      keys.mapM a.info) := by
  by_cases hkeys : keys = []
  · subst hkeys
    rfl
  cases hnames : keys.mapM encodeKey with
  | error e =>
    rw [load, if_neg (by simpa using hkeys), hnames]
    rfl
  | ok names =>
    have hrun := run_load server hkeys hnames s
    rcases hreply : server (.batch (names.flatMap commands)) s with ⟨r, next⟩
    have hr : r = .ok (.list ((names.flatMap commands).map fun c => a.command c.1 c.2)) := by
      rw [← ha.batch _ s, hreply]
    rw [hreply, hr] at hrun
    rw [hrun]
    exact listOfReplies_answers a (Outcome.forall₂_of_mapM hnames) 0 [] rfl

end KeyInfo

end Keyscope
