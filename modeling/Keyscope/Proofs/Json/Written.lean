/-
# What is written is read

A document is read as the value that was written, in any layout (`Json.document_write`), if the value can
be told from what is written of it (`Json.Sound`): its texts have no surrogates that would be joined, the
names in an object are different, and its numbers are numbers of the format.

A reader that knows no words for numbers that are not finite reads it if and only if there are no such
numbers in the value (`Json.Finite`).  Otherwise it comes to the first of them and refuses the document.
Both are shown at once: a reader gives a result if something holds, and refuses if it does not
(`Json.Gives`), and what it takes to read a container is what it takes to read all its members.
-/
import Keyscope.Proofs.Json.Quoted
import Keyscope.Proofs.Json.Scalar
import Keyscope.Proofs.Json.Writer

namespace Keyscope

namespace Json

/-! ## 1. What can be read -/

/-- Entries of an object under their names. -/
def named (items : List (Text × Value)) : List (Value × Value) := items.map fun p => (.text p.1, p.2)

/-- **A value can be told from what is written of it.**  The number bounds how deep it is nested. -/
inductive Sound : Nat → Value → Prop
  | null {depth : Nat} : Sound depth .null
  | bool {depth : Nat} (b : Bool) : Sound depth (.bool b)
  | int {depth : Nat} {n : Int} (h : n.natAbs < tenTo Numeral.maxDigits) : Sound depth (.int n)
  | real {depth : Nat} {x : Binary64} (h : x.IsCanonical) : Sound depth (.real x)
  | text {depth : Nat} {t : Text} (h : Unpaired t) : Sound depth (.text t)
  | list {depth : Nat} {vs : List Value} (h : ∀ v ∈ vs, Sound depth v) : Sound (depth + 1) (.list vs)
  | dict {depth : Nat} {items : List (Text × Value)} (names : (items.map Prod.fst).Nodup)
    (unpaired : ∀ p ∈ items, Unpaired p.1) (h : ∀ p ∈ items, Sound depth p.2) :
    Sound (depth + 1) (.dict (named items))

/-- **All real numbers in a value are finite.** -/
inductive Finite : Value → Prop
  | null : Finite .null
  | bool (b : Bool) : Finite (.bool b)
  | int (n : Int) : Finite (.int n)
  | real {x : Binary64} (h : x.isFinite = true) : Finite (.real x)
  | text (t : Text) : Finite (.text t)
  | list {vs : List Value} (h : ∀ v ∈ vs, Finite v) : Finite (.list vs)
  | dict {items : List (Value × Value)} (h : ∀ p ∈ items, Finite p.2) : Finite (.dict items)

/-- A reader that knows words for the other ones needs no finite numbers. -/
def Readable (liberal : Bool) (v : Value) : Prop := liberal = false → Finite v

theorem finite_list_iff {vs : List Value} : Finite (.list vs) ↔ ∀ v ∈ vs, Finite v :=
  ⟨fun h => by cases h; assumption, .list⟩

theorem finite_dict_iff {items : List (Value × Value)} : Finite (.dict items) ↔ ∀ p ∈ items, Finite p.2 :=
  ⟨fun h => by cases h; assumption, .dict⟩

theorem finite_real_iff {x : Binary64} : Finite (.real x) ↔ x.isFinite = true :=
  ⟨fun h => by cases h; assumption, .real⟩

/-- A reader gives a result and what is left if something holds, and refuses if it does not. -/
structure Gives {α : Type} (p : Prop) (r : Read (α × Text)) (a : α) (rest : Text) : Prop where
  result : p → r = .ok (a, rest)
  refusal : ¬ p → ∃ f, r = .error f

namespace Gives

variable {α β : Type} {p q : Prop} {r : Read (α × Text)} {a : α} {b : β} {rest left : Text}

theorem of_ok (h : r = .ok (a, rest)) : Gives True r a rest := ⟨fun _ => h, fun hp => absurd trivial hp⟩

theorem congr (h : Gives p r a rest) (hpq : p ↔ q) : Gives q r a rest :=
  ⟨fun hq => h.result (hpq.mpr hq), fun hq => h.refusal (mt hpq.mp hq)⟩

/-- Readers one after the other. -/
theorem bind {k : α × Text → Read (β × Text)} (h : Gives p r a rest) (hk : Gives q (k (a, rest)) b left) :
    Gives (p ∧ q) (r >>= k) b left := by
  refine ⟨fun hpq => ?_, fun hpq => ?_⟩
  · rw [h.result hpq.1]
    exact hk.result hpq.2
  · by_cases hp : p
    · rw [h.result hp]
      exact hk.refusal fun hq => hpq ⟨hp, hq⟩
    · obtain ⟨f, hf⟩ := h.refusal hp
      exact ⟨f, by rw [hf]; rfl⟩

end Gives

/-- **What is written of a value is read as that value**, behind no more containers than that. -/
structure ReadAs (liberal : Bool) (depth : Nat) (v : Value) (w : Text) : Prop where
  begins : ∃ c u, w = c :: u ∧ isBlank c = false ∧ c ≠ ']' ∧ c.val < 128
  gives : ∀ {steps : Nat} {rest : Text}, w.length ≤ steps → Stops rest →
    Gives (Readable liberal v) (value (wordsOf liberal) steps depth (w ++ rest)) v rest

/-! ## 2. Blanks -/

theorem skipBlanks_append {bs : Text} (h : ∀ c ∈ bs, isBlank c = true) (t : Text) :
    skipBlanks (bs ++ t) = skipBlanks t := List.dropWhile_append_of_pos h

theorem skipBlanks_cons {c : CodePoint} (h : isBlank c = false) (t : Text) : skipBlanks (c :: t) = c :: t :=
  List.dropWhile_cons_of_neg (by simp [h])

theorem isBlank_iff {c : CodePoint} : isBlank c = true ↔ c = ' ' ∨ c = '\t' ∨ c = '\n' ∨ c = '\r' := by
  simp only [isBlank, Bool.or_eq_true, decide_eq_true_eq, or_assoc]

/-- A comma, or the end of a container. -/
def isEnd (c : CodePoint) : Bool := c = ',' || c = ']' || c = '\x7d'

theorem isEnd_iff {c : CodePoint} : isEnd c = true ↔ c = ',' ∨ c = ']' ∨ c = '\x7d' := by
  simp only [isEnd, Bool.or_eq_true, decide_eq_true_eq, or_assoc]

/-- Blanks end a number. -/
theorem stops_of_blank {bs : Text} (h : ∀ c ∈ bs, isBlank c = true) : Stops bs := by
  intro c hc
  rcases isBlank_iff.mp (h c (List.mem_of_mem_head? hc)) with rfl | rfl | rfl | rfl <;> decide

/-- So does what comes behind a member, with blanks in front of it or without. -/
theorem stops_of_blanks {bs : Text} (h : ∀ c ∈ bs, isBlank c = true) {c : CodePoint} (hc : isEnd c = true)
    (t : Text) : Stops (bs ++ c :: t) := by
  cases bs with
  | nil =>
    intro d hd
    obtain rfl := Option.mem_some_iff.mp hd
    rcases isEnd_iff.mp hc with rfl | rfl | rfl <;> decide
  | cons b bs => exact fun d hd => stops_of_blank h d hd

/-! ## 3. Scalars -/

variable {liberal : Bool} {depth : Nat}

/-- A digit, a minus sign, or the first letter of a word. -/
def startsScalar (c : CodePoint) : Bool :=
  c.isAsciiDigit || c = '-' || c = 'n' || c = 't' || c = 'f' || c = 'N' || c = 'I'

/-- **A scalar is read as it is**: it starts with nothing that opens a text or a container. -/
theorem readAs_scalar {v : Value} {w : Text} (hw : ∃ c u, w = c :: u ∧ startsScalar c = true)
    (h : ∀ {rest : Text}, Stops rest →
      Gives (Readable liberal v) (scalar (wordsOf liberal) (w ++ rest)) v rest) :
    ReadAs liberal depth v w := by
  obtain ⟨c, u, rfl, hc⟩ := hw
  have hother : ∀ d : CodePoint, startsScalar d = false → c ≠ d := by
    rintro d hd rfl
    rw [hc] at hd
    cases hd
  have hblank : isBlank c = false := by
    rw [← Bool.not_eq_true, isBlank_iff]
    rintro (rfl | rfl | rfl | rfl) <;> exact absurd hc (by decide)
  have hascii : c.val < 128 := by
    simp only [startsScalar, Bool.or_eq_true, decide_eq_true_eq, or_assoc, CodePoint.isAsciiDigit_iff] at hc
    rcases hc with hdigit | rfl | rfl | rfl | rfl | rfl | rfl
    · omega
    all_goals decide
  refine ⟨⟨c, u, rfl, hblank, hother _ rfl, hascii⟩, fun {steps rest} hsteps hrest => ?_⟩
  obtain ⟨steps, rfl⟩ := Nat.exists_eq_add_one.mpr (Nat.lt_of_lt_of_le (Nat.succ_pos _) hsteps)
  rw [List.cons_append, value.eq_def]
  dsimp only
  rw [if_neg (hother _ rfl), if_neg (hother _ rfl), if_neg (hother _ rfl)]
  exact h hrest

theorem readAs_word {p : String × Value} (hp : p ∈ words) : ReadAs liberal depth p.2 (Text.ofString p.1) := by
  have hstart : ∃ c u, Text.ofString p.1 = c :: u ∧ startsScalar c = true := by
    simp only [words, List.mem_cons, List.not_mem_nil, or_false] at hp
    rcases hp with rfl | rfl | rfl <;> exact ⟨_, _, rfl, rfl⟩
  have hfinite : Finite p.2 := by
    simp only [words, List.mem_cons, List.not_mem_nil, or_false] at hp
    rcases hp with rfl | rfl | rfl
    exacts [.null, .bool true, .bool false]
  exact readAs_scalar hstart fun _ =>
    (Gives.of_ok (scalar_word hp _)).congr ⟨fun _ _ => hfinite, fun _ => trivial⟩

/-- A number starts with a sign or a digit. -/
theorem exists_start (negative : Bool) {c : CodePoint} (hc : c.isAsciiDigit = true) (t : Text) :
    ∃ d u, Decimal.sign negative ++ c :: t = d :: u ∧ startsScalar d = true := by
  cases negative with
  | true => exact ⟨_, _, rfl, rfl⟩
  | false => exact ⟨c, t, rfl, by simp only [startsScalar, hc, Bool.true_or]⟩

theorem readAs_int {n : Int} (hn : n.natAbs < tenTo Numeral.maxDigits) :
    ReadAs liberal depth (.int n) (Decimal.ofInt n) := by
  obtain ⟨c, ds, hds⟩ := List.exists_cons_of_ne_nil (Decimal.ofNat_ne_nil n.natAbs)
  have hc : c.isAsciiDigit = true :=
    Decimal.isAsciiDigit_of_mem_ofNat (n := n.natAbs) (by rw [hds]; exact List.mem_cons_self)
  refine readAs_scalar ?_ fun hrest =>
    (Gives.of_ok (scalar_ofInt hn hrest)).congr ⟨fun _ _ => .int n, fun _ => trivial⟩
  rw [Decimal.ofInt, hds]
  exact exists_start _ hc ds

/-- **A real number is read if it is finite or if there is a word for it.** -/
theorem readAs_real {x : Binary64} (hx : x.IsCanonical) : ReadAs liberal depth (.real x) (realText x) := by
  cases hfinite : x.isFinite with
  | true =>
    refine readAs_scalar ?_ fun hrest => ?_
    · cases x with
      | finite s m q =>
        obtain ⟨l, htext, -⟩ := Binary64.exists_literal s hx
        obtain ⟨c, ds, hwhole, hc⟩ := l.exists_whole
        have hreal : realText (.finite s m q) =
            Decimal.sign s ++ c :: (ds ++ l.pointText ++ l.exponentText) := by
          show (Binary64.finite s m q).toText = _
          rw [htext, Numeral.Literal.text, hwhole]
          rfl
        rw [hreal]
        exact exists_start s hc _
      | _ => cases hfinite
    · cases x with
      | finite s m q =>
        exact (Gives.of_ok (scalar_finite hx hrest)).congr ⟨fun _ _ => .real rfl, fun _ => trivial⟩
      | _ => cases hfinite
  | false =>
    refine readAs_scalar ?_ fun {rest} _ => ?_
    · cases x with
      | nan => exact ⟨_, _, rfl, rfl⟩
      | infinite s => cases s <;> exact ⟨_, _, rfl, rfl⟩
      | finite s m q => cases hfinite
    · obtain ⟨hread, hrefused⟩ := scalar_nonfinite hfinite rest
      cases liberal with
      | true => exact ⟨fun _ => hread, fun h => absurd (fun htrue => Bool.noConfusion htrue) h⟩
      | false =>
        refine ⟨fun h => ?_, fun _ => hrefused⟩
        rw [finite_real_iff.mp (h rfl)] at hfinite
        cases hfinite

/-! ## 4. Texts -/

theorem Spelled.ne_nil {c : CodePoint} {w : Text} (h : Spelled c w) : w ≠ [] := by
  cases h <;> exact List.cons_ne_nil _ _

/-- What is written of a text is not shorter. -/
theorem length_le_written : ∀ t : Text, t.length ≤ (t.flatMap escapePoint).length
  | [] => Nat.le_refl _
  | c :: t => by
    have hc := List.length_pos_of_ne_nil (spelled_escapePoint c).ne_nil
    have ht := length_le_written t
    rw [List.flatMap_cons, List.length_append, List.length_cons]
    omega

theorem quoted_append (t rest : Text) : quoted t ++ rest =
    ('"' : CodePoint) :: (t.flatMap escapePoint ++ ('"' : CodePoint) :: rest) := by
  have hquoted : quoted t = ('"' : CodePoint) :: (t.flatMap escapePoint ++ [('"' : CodePoint)]) := rfl
  rw [hquoted, List.cons_append, List.append_assoc]
  rfl

theorem length_lt_quoted (t : Text) : t.length + 1 < (quoted t).length := by
  have hquoted := congrArg List.length (quoted_append t [])
  rw [List.append_nil, List.length_cons, List.length_append, List.length_singleton] at hquoted
  have := length_le_written t
  omega

theorem readAs_text {t : Text} (h : Unpaired t) : ReadAs liberal depth (.text t) (quoted t) := by
  refine ⟨⟨_, _, rfl, rfl, by decide, by decide⟩, fun {steps rest} hsteps hrest => ?_⟩
  have hlength := length_lt_quoted t
  obtain ⟨steps, rfl⟩ := Nat.exists_eq_add_one.mpr (by omega : 0 < steps)
  rw [quoted_append, value.eq_def]
  dsimp only
  rw [if_pos rfl, textFrom_quoted _ _ h (by omega)]
  exact (Gives.of_ok rfl).congr ⟨fun _ _ => .text t, fun _ => trivial⟩

/-! ## 5. Containers -/

variable {gap close : Text}

theorem joinWith_cons (separator w w' : Text) (ws : List Text) :
    Text.joinWith separator (w :: w' :: ws) = w ++ separator ++ Text.joinWith separator (w' :: ws) := rfl

/-- What is joined starts with the first member. -/
theorem exists_joinWith (separator w : Text) (ws : List Text) :
    ∃ t, Text.joinWith separator (w :: ws) = w ++ t := by
  cases ws with
  | nil => exact ⟨[], (List.append_nil w).symm⟩
  | cons w' ws => exact ⟨_, (joinWith_cons separator w w' ws).trans (List.append_assoc _ _ _)⟩

/-- Blanks in front of members are skipped. -/
theorem skipBlanks_joinWith {bs : Text} (hbs : ∀ c ∈ bs, isBlank c = true) {w : Text}
    (hw : ∃ c u, w = c :: u ∧ isBlank c = false) (separator : Text) (ws : List Text) (rest : Text) :
    skipBlanks (bs ++ (Text.joinWith separator (w :: ws) ++ rest)) =
      Text.joinWith separator (w :: ws) ++ rest := by
  obtain ⟨c, u, rfl, hblank⟩ := hw
  obtain ⟨t, ht⟩ := exists_joinWith separator (c :: u) ws
  rw [ht, skipBlanks_append hbs, List.cons_append, List.cons_append, skipBlanks_cons hblank]

/-- A comma ends a number. -/
theorem stops_of_comma (t : Text) : Stops ((',' : CodePoint) :: t) := @stops_of_blanks [] nofun _ rfl t

/-- **Elements are read one after the other.** -/
theorem elements_written (hgap : ∀ c ∈ gap, isBlank c = true) (hclose : ∀ c ∈ close, isBlank c = true)
    {vs : List Value} {ws : List Text} (h : List.Forall₂ (ReadAs liberal depth) vs ws) (hne : vs ≠ [])
    {steps : Nat} (rest : Text) (hsteps : (Text.joinWith (',' :: gap) ws).length < steps) :
    Gives (∀ v ∈ vs, Readable liberal v)
      (elements (wordsOf liberal) steps depth
        (Text.joinWith (',' :: gap) ws ++ (close ++ (']' : CodePoint) :: rest))) vs rest := by
  induction h generalizing steps with
  | nil => exact absurd rfl hne
  | @cons v w vs ws hv hvs ih =>
    obtain ⟨steps, rfl⟩ := Nat.exists_eq_add_one.mpr (by omega : 0 < steps)
    rw [elements]
    cases hvs with
    | nil =>
      have hlength : w.length ≤ steps := Nat.le_of_lt_succ hsteps
      refine ((hv.gives hlength (stops_of_blanks hclose rfl rest)).bind (q := True) ?_).congr ?_
      · dsimp only
        rw [skipBlanks_append hclose, skipBlanks_cons rfl]
        exact Gives.of_ok rfl
      · rw [and_true, List.forall_mem_singleton]
    | @cons v' w' vs ws hv' hvs =>
      obtain ⟨c, u, hw', hblank, -, -⟩ := hv'.begins
      have hjoined := joinWith_cons (',' :: gap) w w' ws
      rw [hjoined, List.length_append, List.length_append, List.length_cons] at hsteps
      rw [hjoined, List.append_assoc, List.append_assoc, List.cons_append]
      refine ((hv.gives (by omega) (stops_of_comma _)).bind ?_).congr (List.forall_mem_cons).symm
      dsimp only
      rw [skipBlanks_cons rfl]
      dsimp only
      rw [if_neg (by decide), if_pos rfl, skipBlanks_joinWith hgap ⟨c, u, hw', hblank⟩]
      refine ((ih (List.cons_ne_nil _ _) (by omega)).bind (q := True) ?_).congr (and_iff_left trivial)
      exact Gives.of_ok rfl

/-- What is read from the value of an entry on. -/
def entriesFrom (known : List (String × Value)) (steps depth : Nat) (name t : Text) :
    Read (List (Value × Value) × Text) := do
  let (v, rest) ← value known steps depth t
  match skipBlanks rest with
  | [] => fault "Expecting ',' delimiter" []
  | e :: w =>
    if e = '\x7d' then return ([(.text name, v)], w)
    else if e = ',' then do
      let (items, rest) ← entries known steps depth (skipBlanks w)
      return ((.text name, v) :: items, rest)
    else fault "Expecting ',' delimiter" (e :: w)

/-- The value of an entry stands behind its name, a colon and a blank. -/
theorem entries_name {known : List (String × Value)} {name w : Text} (h : Unpaired name)
    (hw : ∃ c u, w = c :: u ∧ isBlank c = false) {steps : Nat} (hsteps : name.length < steps) (rest : Text) :
    entries known (steps + 1) depth (quoted name ++ ": " ++ w ++ rest) =
      entriesFrom known steps depth name (w ++ rest) := by
  obtain ⟨c, u, rfl, hblank⟩ := hw
  have htext : quoted name ++ ": " ++ c :: u ++ rest =
      quoted name ++ ((':' : CodePoint) :: (' ' : CodePoint) :: (c :: u ++ rest)) := by
    rw [List.append_assoc, List.append_assoc]
    rfl
  have hskip : skipBlanks ((' ' : CodePoint) :: (c :: u ++ rest)) = c :: u ++ rest :=
    (skipBlanks_append (List.forall_mem_singleton.mpr rfl) _).trans (skipBlanks_cons hblank _)
  rw [htext, quoted_append, entries.eq_def]
  dsimp only
  rw [if_pos rfl, textFrom_quoted _ _ h hsteps, Outcome.ok_bind]
  dsimp only
  rw [skipBlanks_cons rfl]
  dsimp only
  rw [if_pos rfl, hskip]
  rfl

/-- **What is written of an entry.** -/
structure EntryAs (liberal : Bool) (depth : Nat) (p : Text × Value) (t : Text) : Prop where
  unpaired : Unpaired p.1
  value : ∃ w, t = quoted p.1 ++ ": " ++ w ∧ ReadAs liberal depth p.2 w

/-- It starts with a quote. -/
theorem EntryAs.begins {p : Text × Value} {t : Text} (h : EntryAs liberal depth p t) :
    ∃ u, t = ('"' : CodePoint) :: u := by
  obtain ⟨w, rfl, -⟩ := h.value
  rw [List.append_assoc, quoted_append]
  exact ⟨_, rfl⟩

/-- **Entries are read one after the other.** -/
theorem entries_written (hgap : ∀ c ∈ gap, isBlank c = true) (hclose : ∀ c ∈ close, isBlank c = true)
    {items : List (Text × Value)} {ts : List Text} (h : List.Forall₂ (EntryAs liberal depth) items ts)
    (hne : items ≠ []) {steps : Nat} (rest : Text) (hsteps : (Text.joinWith (',' :: gap) ts).length < steps) :
    Gives (∀ p ∈ items, Readable liberal p.2)
      (entries (wordsOf liberal) steps depth
        (Text.joinWith (',' :: gap) ts ++ (close ++ ('\x7d' : CodePoint) :: rest)))
      (named items) rest := by
  induction h generalizing steps with
  | nil => exact absurd rfl hne
  | @cons p t items ts hp hitems ih =>
    obtain ⟨steps, rfl⟩ := Nat.exists_eq_add_one.mpr (by omega : 0 < steps)
    obtain ⟨w, rfl, hw⟩ := hp.value
    obtain ⟨c, u, hbegins, hblank, -, -⟩ := hw.begins
    have hname := length_lt_quoted p.1
    have hlength : (quoted p.1 ++ ": " ++ w).length = (quoted p.1).length + 2 + w.length := by
      rw [List.length_append, List.length_append]
      rfl
    cases hitems with
    | nil =>
      rw [Text.joinWith, hlength] at hsteps
      rw [Text.joinWith, entries_name hp.unpaired ⟨c, u, hbegins, hblank⟩ (by omega), entriesFrom]
      refine ((hw.gives (by omega) (stops_of_blanks hclose rfl rest)).bind (q := True) ?_).congr ?_
      · dsimp only
        rw [skipBlanks_append hclose, skipBlanks_cons rfl]
        exact Gives.of_ok rfl
      · rw [and_true, List.forall_mem_singleton]
    | @cons p' t' items ts hp' hitems =>
      obtain ⟨u', hbegins'⟩ := hp'.begins
      have hjoined := joinWith_cons (',' :: gap) (quoted p.1 ++ ": " ++ w) t' ts
      rw [hjoined, List.length_append, List.length_append, List.length_cons, hlength] at hsteps
      rw [hjoined, List.append_assoc, List.append_assoc, List.cons_append,
        entries_name hp.unpaired ⟨c, u, hbegins, hblank⟩ (by omega), entriesFrom]
      have hboth : (∀ r ∈ p :: p' :: items, Readable liberal r.2) ↔
          Readable liberal p.2 ∧ ∀ r ∈ p' :: items, Readable liberal r.2 := List.forall_mem_cons
      refine ((hw.gives (by omega) (stops_of_comma _)).bind ?_).congr hboth.symm
      dsimp only
      rw [skipBlanks_cons rfl]
      dsimp only
      rw [if_neg (by decide), if_pos rfl, skipBlanks_joinWith hgap ⟨'"', u', hbegins', rfl⟩]
      refine ((ih (List.cons_ne_nil _ _) (by omega)).bind (q := True) ?_).congr (and_iff_left trivial)
      exact Gives.of_ok rfl

/-! ## 6. Layouts -/

/-- What stands between members, behind the comma. -/
def Layout.between (l : Layout) (level : Nat) : Text := if l.indent.isSome then l.newLine (level + 1) else " "

theorem isBlank_newLine (l : Layout) (level : Nat) : ∀ c ∈ l.newLine level, isBlank c = true := by
  unfold Layout.newLine
  split
  · rename_i width _
    intro c hc
    rcases List.mem_append.mp hc with hc | hc
    · rw [List.mem_singleton.mp hc]
      rfl
    · rw [List.eq_of_mem_replicate hc]
      rfl
  · nofun

theorem isBlank_between (l : Layout) (level : Nat) : ∀ c ∈ l.between level, isBlank c = true := by
  unfold Layout.between
  split
  · exact isBlank_newLine l (level + 1)
  · exact List.forall_mem_singleton.mpr rfl

/-- Members stand between brackets, with blanks around them and behind each comma. -/
theorem enclose_append (l : Layout) (level : Nat) (opening closing : CodePoint) (members : List Text)
    (rest : Text) : l.enclose level [opening] [closing] members ++ rest =
      opening :: (l.newLine (level + 1) ++ (Text.joinWith (',' :: l.between level) members ++
        (l.newLine level ++ closing :: rest))) := by
  have hseparator : (if l.indent.isSome then "," ++ l.newLine (level + 1) else ", " : Text) =
      (',' : CodePoint) :: l.between level := by
    unfold Layout.between
    split <;> rfl
  simp only [Layout.enclose, hseparator, List.append_assoc, List.cons_append, List.nil_append]

theorem length_lt_enclose (l : Layout) (level : Nat) (opening closing : CodePoint) (members : List Text) :
    (Text.joinWith (',' :: l.between level) members).length + 1 <
      (l.enclose level [opening] [closing] members).length := by
  have htext := congrArg List.length (enclose_append l level opening closing members [])
  simp only [List.append_nil, List.length_cons, List.length_append] at htext
  omega

/-- **A list is read as it is.** -/
theorem readAs_list {vs : List Value} {ws : List Text} (h : List.Forall₂ (ReadAs liberal depth) vs ws)
    (hne : vs ≠ []) (l : Layout) (level : Nat) :
    ReadAs liberal (depth + 1) (.list vs) (l.enclose level ['['] [']'] ws) := by
  refine ⟨⟨'[', _, rfl, rfl, by decide, by decide⟩, fun {steps rest} hsteps hrest => ?_⟩
  have hlength := length_lt_enclose l level '[' ']' ws
  obtain ⟨steps, rfl⟩ := Nat.exists_eq_add_one.mpr (by omega : 0 < steps)
  have hread := elements_written (isBlank_between l level) (isBlank_newLine l level) h hne rest
    (by omega : _ < steps)
  obtain ⟨v, vs, rfl⟩ := List.exists_cons_of_ne_nil hne
  obtain ⟨w, ws, hv, -, rfl⟩ := List.forall₂_cons_left_iff.mp h
  obtain ⟨c, u, hw, hblank, hclosing, -⟩ := hv.begins
  obtain ⟨t, ht⟩ := exists_joinWith (',' :: l.between level) w ws
  have hjoined : ∀ left, Text.joinWith (',' :: l.between level) (w :: ws) ++ left = c :: (u ++ t ++ left) :=
    fun left => by rw [ht, hw, List.append_assoc, List.cons_append, List.append_assoc]
  rw [enclose_append, value.eq_def]
  dsimp only
  rw [if_neg (by decide), if_pos rfl, skipBlanks_joinWith (isBlank_newLine l (level + 1)) ⟨c, u, hw, hblank⟩]
  rw [hjoined] at hread ⊢
  dsimp only
  rw [if_neg hclosing]
  have hfinite : (∀ w ∈ v :: vs, Readable liberal w) ↔ Readable liberal (.list (v :: vs)) :=
    ⟨fun h hstrict => .list fun w hw => h w hw hstrict,
      fun h w hw hstrict => finite_list_iff.mp (h hstrict) w hw⟩
  refine Gives.congr ?_ ((and_iff_left trivial).trans hfinite)
  exact hread.bind (q := True) (b := Value.list (v :: vs)) (Gives.of_ok rfl)

theorem put_new {name : Text} {v : Value} : ∀ {items : List (Text × Value)}, name ∉ items.map Prod.fst →
    Value.put (.text name) v (named items) = named (items ++ [(name, v)])
  | [], _ => rfl
  | p :: items, h => by
    rw [List.map_cons, List.mem_cons, not_or] at h
    have hother : Value.sameKey (.text p.1) (.text name) = false := beq_eq_false_iff_ne.mpr (Ne.symm h.1)
    have hrest := @put_new name v items h.2
    unfold named at hrest ⊢
    rw [List.map_cons, Value.put, hother, if_neg Bool.false_ne_true, hrest]
    rfl

/-- **Different names have an entry each**, in their order. -/
theorem dictOf_named {items : List (Text × Value)} (h : (items.map Prod.fst).Nodup) :
    Value.dictOf (named items) = .dict (named items) := by
  have hfold : ∀ others done : List (Text × Value), ((done ++ others).map Prod.fst).Nodup →
      (named others).foldl (fun items p => Value.put p.1 p.2 items) (named done) = named (done ++ others) := by
    intro others
    induction others with
    | nil => exact fun done _ => congrArg named (List.append_nil done).symm
    | cons p others ih =>
      intro done hnodup
      have hnew : p.1 ∉ done.map Prod.fst := by
        rw [List.map_append, List.nodup_append] at hnodup
        exact fun hmem => hnodup.2.2 _ hmem _ List.mem_cons_self rfl
      have hassoc : done ++ p :: others = done ++ [p] ++ others := by simp
      rw [hassoc] at hnodup ⊢
      rw [← ih _ hnodup, ← put_new hnew]
      rfl
  exact congrArg Value.dict (hfold items [] h)

/-- **An object is read as it is.** -/
theorem readAs_dict {items : List (Text × Value)} {ts : List Text}
    (h : List.Forall₂ (EntryAs liberal depth) items ts) (hnames : (items.map Prod.fst).Nodup)
    (hne : items ≠ []) (l : Layout) (level : Nat) :
    ReadAs liberal (depth + 1) (.dict (named items))
      (l.enclose level ['\x7b'] ['\x7d'] ts) := by
  refine ⟨⟨'\x7b', _, rfl, rfl, by decide, by decide⟩, fun {steps rest} hsteps hrest => ?_⟩
  have hlength := length_lt_enclose l level '\x7b' '\x7d' ts
  obtain ⟨steps, rfl⟩ := Nat.exists_eq_add_one.mpr (by omega : 0 < steps)
  have hread := entries_written (isBlank_between l level) (isBlank_newLine l level) h hne rest
    (by omega : _ < steps)
  obtain ⟨p, items, rfl⟩ := List.exists_cons_of_ne_nil hne
  obtain ⟨w, ws, hp, -, rfl⟩ := List.forall₂_cons_left_iff.mp h
  obtain ⟨u, hw⟩ := hp.begins
  obtain ⟨t, ht⟩ := exists_joinWith (',' :: l.between level) w ws
  have hjoined : ∀ left, Text.joinWith (',' :: l.between level) (w :: ws) ++ left =
      ('"' : CodePoint) :: (u ++ t ++ left) :=
    fun left => by rw [ht, hw, List.append_assoc, List.cons_append, List.append_assoc]
  rw [enclose_append, value.eq_def]
  dsimp only
  rw [if_neg (by decide), if_neg (by decide), if_pos rfl,
    skipBlanks_joinWith (isBlank_newLine l (level + 1)) ⟨'"', u, hw, rfl⟩]
  rw [hjoined] at hread ⊢
  dsimp only
  rw [if_neg (by decide)]
  have hfinite : (∀ r ∈ p :: items, Readable liberal r.2) ↔ Readable liberal (.dict (named (p :: items))) := by
    unfold Readable
    rw [finite_dict_iff, named]
    simp only [List.forall_mem_map]
    exact ⟨fun h hstrict r hr => h r hr hstrict, fun h r hr hstrict => h hstrict r hr⟩
  refine Gives.congr ?_ ((and_iff_left trivial).trans hfinite)
  refine hread.bind (q := True) (b := Value.dict (named (p :: items))) (Gives.of_ok ?_)
  rw [← dictOf_named hnames]
  rfl

/-- An empty container is read as it is. -/
theorem readAs_empty {opening closing : CodePoint} {v : Value} (hv : Finite v)
    (hopening : isBlank opening = false ∧ opening ≠ ']' ∧ opening.val < 128)
    (h : ∀ (steps : Nat) (rest : Text),
      value (wordsOf liberal) (steps + 1) depth (opening :: closing :: rest) = .ok (v, rest)) :
    ReadAs liberal depth v [opening, closing] := by
  refine ⟨⟨opening, _, rfl, hopening⟩, fun {steps rest} hsteps _ => ?_⟩
  obtain ⟨steps, rfl⟩ := Nat.exists_eq_add_one.mpr (Nat.lt_of_lt_of_le (Nat.succ_pos _) hsteps)
  exact (Gives.of_ok (h steps rest)).congr ⟨fun _ _ => hv, fun _ => trivial⟩

/-! ## 7. Documents -/

/-- **What is written of a value is read as that value**, wherever it stands. -/
theorem readAs_writeAt {v : Value} (h : Sound depth v) (l : Layout) : ∀ (level : Nat) (w : Text),
    writeAt l level v = .ok w → ReadAs liberal depth v w := by
  induction h with
  | null =>
    intro level w hw
    obtain rfl := Except.ok.inj hw
    exact @readAs_word _ _ ("null", .null) (.head _)
  | bool b =>
    intro level w hw
    obtain rfl := Except.ok.inj hw
    cases b with
    | true => exact @readAs_word _ _ ("true", .bool true) (.tail _ (.head _))
    | false => exact @readAs_word _ _ ("false", .bool false) (.tail _ (.tail _ (.head _)))
  | int hn =>
    intro level w hw
    obtain rfl := Except.ok.inj ((Value.integerText_of_lt hn (Nat.le_refl _)).symm.trans hw)
    exact readAs_int hn
  | real hx =>
    intro level w hw
    obtain rfl := Except.ok.inj hw
    exact readAs_real hx
  | text ht =>
    intro level w hw
    obtain rfl := Except.ok.inj hw
    exact readAs_text ht
  | @list depth vs _ ih =>
    intro level w hw
    by_cases hne : vs = []
    · subst hne
      obtain rfl := Except.ok.inj hw
      exact @readAs_empty _ _ '[' ']' _ (.list (List.forall_mem_nil _)) (by decide) fun _ _ => rfl
    · rw [writeAt, writeEach_eq] at hw
      · obtain ⟨ws, hws, hw⟩ := Outcome.exists_of_bind hw
        obtain rfl := Except.ok.inj hw
        have hwritten := (List.forall₂_and_left _ _).mpr ⟨ih, Outcome.forall₂_of_mapM hws⟩
        exact readAs_list (hwritten.imp fun v w h => h.1 _ w h.2) hne l level
      · exact hne
  | @dict depth items hnames hunpaired _ ih =>
    intro level w hw
    by_cases hne : items = []
    · subst hne
      obtain rfl := Except.ok.inj hw
      exact @readAs_empty _ _ '\x7b' '\x7d' _ (.dict (List.forall_mem_nil _)) (by decide) fun _ _ => rfl
    · rw [named, writeAt, writeEntries_eq] at hw
      · obtain ⟨ts, hts, hw⟩ := Outcome.exists_of_bind hw
        obtain rfl := Except.ok.inj hw
        have hwritten := (List.forall₂_and_left _ _).mpr
          ⟨fun p hp => And.intro (hunpaired p hp) (ih p hp), Outcome.forall₂_of_mapM hts⟩
        refine readAs_dict (hwritten.imp fun p t h => ?_) hnames hne l level
        obtain ⟨w, hw, ht⟩ := Outcome.exists_of_bind h.2
        exact ⟨h.1.1, w, (Except.ok.inj ht).symm, h.1.2 _ w hw⟩
      · simpa using hne

/-- **A document is read as the value that was written**, by a reader that knows words for all its
numbers, and refused by one that does not. -/
theorem document_write {v : Value} (h : Sound maxDepth v) {l : Layout} {w : Text} (hw : write l v = .ok w)
    {rest : Text} (hrest : ∀ c ∈ rest, isBlank c = true) :
    Gives (Readable liberal v) (document (wordsOf liberal) (w ++ rest)) v [] := by
  have hread : ReadAs liberal maxDepth v w := readAs_writeAt h l 0 w hw
  obtain ⟨c, u, hbegins, hblank, -, hascii⟩ := hread.begins
  have hmark : ¬ (w ++ rest).head?.map Fin.val = some 0xFEFF := by
    rw [hbegins]
    intro h
    have := Option.some.inj h
    omega
  have hskip : skipBlanks (w ++ rest) = w ++ rest := by
    rw [hbegins]
    exact skipBlanks_cons hblank _
  have hend : skipBlanks rest = [] := List.dropWhile_eq_nil_iff.mpr hrest
  have hlength : w.length ≤ 3 * (w ++ rest).length + 3 := by
    rw [List.length_append]
    omega
  rw [document, if_neg hmark, hskip]
  refine ((hread.gives hlength (stops_of_blank hrest)).bind (q := True) ?_).congr (and_iff_left trivial)
  dsimp only
  rw [hend]
  exact Gives.of_ok rfl

end Json

end Keyscope
