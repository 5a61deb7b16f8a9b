/-
# Lifetimes that are exact

A lifetime is answered as a whole number, or as its text in bytes (`KeyInfo.Spells`).  It is read as a
floating point number and made a whole one again, so it is rounded on the way (`lifetimeOf_spells`).
What is told of the key is the number that was answered if and only if that is one of the format
(`load_lifetimes`).  All lifetimes up to `2 ^ 53` seconds are, and the next one is told wrongly
(`load_beyond`).
-/
import Mathlib.Algebra.Ring.Int.Defs
import Keyscope.Proofs.Keyspace.Aligned
import Keyscope.Proofs.Number.Whole

namespace Keyscope

namespace KeyInfo

/-! ## 1. Answers that spell a number -/

/-- **An answer spells a whole number**: it is the number, or its decimal text in bytes. -/
inductive Spells (n : Int) : Value → Prop
  | int : Spells n (.int n)
  | bytes : Spells n (.bytes ((Decimal.ofInt n).flatMap Utf8.encodePoint))

variable {n : Int} {v : Value}

/-- There are no surrogates in the text of a number. -/
theorem isSurrogate_of_mem_ofInt {c : CodePoint} (h : c ∈ Decimal.ofInt n) : c.isSurrogate = false := by
  rcases Decimal.digit_or_minus_of_mem_ofInt h with hdigit | rfl
  · rw [CodePoint.isAsciiDigit_iff] at hdigit
    simp only [CodePoint.isSurrogate, Bool.and_eq_false_iff, decide_eq_false_iff_not]
    omega
  · rfl

/-- The text of such an answer is that of the number. -/
theorem Spells.decoded (h : Spells n v) (hn : n.natAbs < 10 ^ 20) : v.decoded = .ok (Decimal.ofInt n) := by
  cases h with
  | int => exact (Value.toText_int n).trans (Value.integerText_of_lt (d := 20) hn (by decide))
  | bytes => exact congrArg Except.ok (Utf8.decodeLossy_encode fun c hc => isSurrogate_of_mem_ofInt hc)

/-- **The lifetime in such an answer is the number, rounded to the format.** -/
theorem lifetimeOf_spells (h : Spells n v) (hn : n.natAbs < 2 ^ 63) :
    lifetimeOf v = Binary64.nearestInt n := by
  have hdecimal : n.natAbs < 10 ^ 20 := Nat.lt_trans hn (by decide)
  have hread : Numeral.real (Decimal.ofInt n) = some (Binary64.ofInt n) :=
    Numeral.real_ofInt (by decide) (by decide) hdecimal
  obtain ⟨hnull, hbool, herror⟩ : v.isNull = false ∧ v.isBool = false ∧ v.failure? = none := by
    cases h with
    | int => exact ⟨rfl, rfl, rfl⟩
    | bytes => exact ⟨rfl, rfl, rfl⟩
  rw [lifetimeOf_of_not hnull hbool herror (h.decoded hdecimal), hread, Option.bind_some,
    Binary64.truncate?_ofInt (by decide) hn, Option.getD_some]

/-! ## 2. Loading -/

variable {σ : Type}

/-- Answers whose types have a text tell something of every key. -/
theorem exists_infos {keys : List Text} {replies : List Value}
    (htypes : ∀ j < keys.length, ∀ t ∈ replies[2 * j]?, t.HasText) :
    ∃ infos, listOfReplies (.list replies) 0 keys = .ok infos := by
  rw [listOfReplies_list]
  refine Outcome.exists_mapM_ok fun p hp => ?_
  have htext : (replies[2 * p.2]?.getD .null).HasText := by
    cases htype : replies[2 * p.2]? with
    | none => exact ⟨_, rfl⟩
    | some t => exact htypes p.2 (by simpa using List.snd_lt_of_mem_zipIdx hp) t htype
  obtain ⟨info, hinfo, -⟩ := exists_ofPair p.1 htext (replies[2 * p.2 + 1]?.getD .null)
  exact ⟨info, hinfo⟩

/-- **Lifetimes are told exactly if and only if they are numbers of the format.**  For keys that have names
and answers whose types have a text, a key whose lifetime is answered by a whole number between `-2` and
`2 ^ 63` is told to have a lifetime of the format as near to it as any.  Nothing else in the answers
matters. -/
theorem load_lifetimes {server : Server σ} {keys : List Text} {names : List Bytes}
    (hnames : keys.mapM encodeKey = .ok names) {s next : σ} {replies : List Value}
    (hreply : server (.batch (names.flatMap commands)) s = (.ok (.list replies), next))
    (htypes : ∀ j < keys.length, ∀ t ∈ replies[2 * j]?, t.HasText) {i : Nat} {key : Text}
    (hkey : keys[i]? = some key) {v : Value} (hv : replies[2 * i + 1]? = some v) {n : Int}
    (hspells : Spells n v) (hlow : -2 ≤ n) (hhigh : n < 2 ^ 63) :
    ∃ infos info, (load server keys).run s = (.ok infos, next) ∧
      infos[i]? = some info ∧ info.key = key ∧
      (info.lifetime = n ↔ Binary64.Representable n) ∧ Binary64.IsNearest n info.lifetime := by
  have hkeys : keys ≠ [] := by
    rintro rfl
    cases hkey
  obtain ⟨infos, hinfos⟩ := exists_infos htypes
  obtain ⟨info, hinfo, hpair⟩ := ofPair_of_listOfReplies hinfos hkey
  have hrun : (load server keys).run s = (.ok infos, next) := by
    rw [run_load server hkeys hnames, hreply]
    simp only [hinfos]
  obtain ⟨t, -, hpair⟩ := Outcome.exists_of_bind hpair
  obtain rfl := Except.ok.inj hpair
  have hlifetime : lifetimeOf (replies[2 * i + 1]?.getD .null) = Binary64.nearestInt n := by
    rw [hv, Option.getD_some, lifetimeOf_spells hspells (by omega)]
  have hnearest := Binary64.isNearest_nearestInt n
  rw [← hlifetime] at hnearest
  exact ⟨infos, _, hrun, hinfo, rfl, hnearest.eq_iff, hnearest⟩

/-- A server that answers every batch with the same list. -/
def answersList (replies : List Value) : Server Unit := fun _ s => (.ok (.list replies), s)

/-- Three keys, two of them the same: the lifetime of the second is answered by a text in bytes, and for the
third there is only a type. -/
theorem load_second_lifetime :
    ((["a", "b", "a"] : List Text).mapM encodeKey = .ok [[97], [98], [97]]) ∧
    ∃ infos info,
      (load (answersList [.text "string", .int 7, .text "hash", .bytes [45, 49], .null]) ["a", "b", "a"]).run
        () = (.ok infos, ()) ∧
      infos[1]? = some info ∧ info.key = ("b" : Text) ∧ info.lifetime = -1 := by
  have hnames : (["a", "b", "a"] : List Text).mapM encodeKey = .ok [[97], [98], [97]] := rfl
  have htypes : ∀ j < 3, ∀ t ∈ ([.text "string", .int 7, .text "hash", .bytes [45, 49], .null] :
      List Value)[2 * j]?, t.HasText := by
    intro j hj t ht
    obtain rfl | rfl | rfl : j = 0 ∨ j = 1 ∨ j = 2 := by omega
    · obtain rfl := Option.some.inj ht
      exact ⟨_, rfl⟩
    · obtain rfl := Option.some.inj ht
      exact ⟨_, rfl⟩
    · obtain rfl := Option.some.inj ht
      exact ⟨_, rfl⟩
  obtain ⟨infos, info, hrun, hinfo, hkey, hexact, -⟩ := @load_lifetimes Unit (answersList _) _ _ hnames ()
    () _ rfl htypes 1 "b" rfl (.bytes [45, 49]) rfl (-1) .bytes (by decide) (by decide)
  have hone : Binary64.Representable (-1) := Binary64.representable_of_le (by decide)
  exact ⟨hnames, infos, info, hrun, hinfo, hkey, hexact.mpr hone⟩

/-- The first whole number that is not one of the format is told one second short. -/
theorem load_beyond :
    (load (answersList [.text "string", .int 9007199254740993]) ["k"]).run () =
      (.ok [⟨"k", "string", 9007199254740992⟩], ()) := by
  have hlifetime : lifetimeOf (.int 9007199254740993) = 9007199254740992 :=
    (lifetimeOf_spells .int (by decide)).trans (by decide)
  rw [run_load _ (by decide) rfl, ← hlifetime]
  rfl

end KeyInfo

end Keyscope
