/-
# Two repairs of one decoder

Bytes that are no UTF-8 are repaired in two ways.  A value is only shown, so each broken run becomes
one replacement character; a key is sent back, so each byte of a run becomes a surrogate of its own.
The automaton decides which bytes a run has, but the UTF-8 of characters decides it as well
(`BrokenRun`): a run is where no character begins, it is the beginning of one, and no longer run is;
where not even one byte begins a character, that byte is a run.  So what a value says of its bytes has
a description without the automaton (`Replaced`, `replaced_iff`), next to that of a key (`Escaped`).

The runs are as long as they can be because the automaton never goes back: it is in the state in which
it would be after reading just the bytes it has taken (`Partial.Reached`).  A byte that it refuses there
does not go on with them in any character.

Where bytes are UTF-8 there is nothing to repair, and this is the only case in which the two texts are
the same (`decodeLossy_eq_decodeEscaped_iff`).  `Value.decoded_projects` has all of it together.
-/
import Keyscope.Proofs.Text.Characters
import Keyscope.Proofs.Text.Codec

namespace Keyscope

namespace Utf8

/-! ## 1. Broken runs -/

/-- Bytes with which a character begins; they may be all of it. -/
def Begins (bs : Bytes) : Prop := ∃ c : Char, bs <+: String.utf8EncodeChar c

/-- **A broken run** in front of other bytes.  No character begins there, and the run is the longest
one that is the beginning of a character, or one byte if none is. -/
structure BrokenRun (run rest : Bytes) : Prop where
  ne : run ≠ []
  noChar : ∀ c : Char, ¬ String.utf8EncodeChar c <+: run ++ rest
  begins : Begins run ∨ run.length = 1
  longest : ∀ more, more <+: run ++ rest → run.length < more.length → ¬ Begins more

theorem Begins.of_prefix {bs more : Bytes} (h : Begins more) (hbs : bs <+: more) : Begins bs := by
  obtain ⟨c, hc⟩ := h
  exact ⟨c, hbs.trans hc⟩

theorem begins_of_encodePoint {n : Nat} {bs : Bytes} (hn : n < 0x110000)
    (plain : n < 0xD800 ∨ 0xE000 ≤ n) (h : bs <+: encodePoint (.ofNat n)) : Begins bs := by
  have hsurrogate : (CodePoint.ofNat n).isSurrogate = false := by
    simp only [CodePoint.isSurrogate, val_ofNat hn, Bool.and_eq_false_iff, decide_eq_false_iff_not]
    omega
  obtain ⟨c, hc⟩ := exists_ofChar hsurrogate
  rw [hc, encodePoint_ofChar] at h
  exact ⟨c, h⟩

/-- **The bytes of an unfinished character begin one.** -/
theorem Partial.Open.begins {p : Partial} (hp : p.Open) : Begins p.taken := by
  cases hp with
  | @two v hv hv' =>
    refine begins_of_encodePoint (n := v * 0x40) (by omega) (by omega) ?_
    rw [encodePoint_two (by omega) (by omega), show v * 0x40 / 0x40 = v by omega]
    exact ⟨_, rfl⟩
  | @three v low high hv _ _ _ _ =>
    -- the second byte must not make the character too short for its length
    refine begins_of_encodePoint (n := v * 0x1000 + 0x800 * (1 - v)) (by omega) (by omega) ?_
    rw [encodePoint_three (by omega) (by omega),
      show (v * 0x1000 + 0x800 * (1 - v)) / 0x1000 = v by omega]
    exact ⟨_, rfl⟩
  | @three' v hv hv' plain =>
    refine begins_of_encodePoint (n := v * 0x40) (by omega) (by omega) ?_
    rw [encodePoint_three (by omega) (by omega), show v * 0x40 / 0x1000 = v / 0x40 by omega,
      show v * 0x40 / 0x40 = v by omega]
    exact ⟨_, rfl⟩
  | @four v low high hv _ _ _ _ =>
    refine begins_of_encodePoint (n := v * 0x40000 + 0x10000 * (1 - v)) (by omega) (by omega) ?_
    rw [encodePoint_four (by omega) (by omega),
      show (v * 0x40000 + 0x10000 * (1 - v)) / 0x40000 = v by omega]
    exact ⟨_, rfl⟩
  | @four' v hv hv' =>
    refine begins_of_encodePoint (n := v * 0x1000) (by omega) (by omega) ?_
    rw [encodePoint_four (by omega) (by omega), show v * 0x1000 / 0x40000 = v / 0x40 by omega,
      show v * 0x1000 / 0x1000 = v by omega]
    exact ⟨_, rfl⟩
  | @four'' v hv hv' =>
    refine begins_of_encodePoint (n := v * 0x40) (by omega) (by omega) ?_
    rw [encodePoint_four (by omega) (by omega), show v * 0x40 / 0x40000 = v / 0x1000 by omega,
      show v * 0x40 / 0x1000 = v / 0x40 by omega, show v * 0x40 / 0x40 = v by omega]
    exact ⟨_, rfl⟩

/-- A character at the front is the first piece. -/
theorem pieces_of_prefix {c : Char} {bs : Bytes} (h : String.utf8EncodeChar c <+: bs) :
    ∃ rest, pieces bs = .char (.ofChar c) :: pieces rest := by
  obtain ⟨rest, rfl⟩ := h
  rw [← encodePoint_ofChar]
  exact ⟨rest, pieces_encodePoint (isSurrogate_ofChar c) rest⟩

/-- Where a broken run is the first piece, no character begins. -/
theorem not_prefix_of_pieces {bs run : Bytes} {fault : Fault} {ps : List Piece}
    (h : pieces bs = .broken fault run :: ps) (c : Char) : ¬ String.utf8EncodeChar c <+: bs := by
  intro hc
  obtain ⟨rest, hchar⟩ := pieces_of_prefix hc
  cases hchar.symm.trans h

/-- **A run that one more byte makes no beginning of a character is as long as it can be.** -/
theorem longest_of_not_begins {run rest : Bytes} {b : UInt8} (h : ¬ Begins (run ++ [b])) :
    ∀ more, more <+: run ++ b :: rest → run.length < more.length → ¬ Begins more := by
  intro more hmore hlonger hbegins
  have hnext : run ++ [b] <+: run ++ b :: rest := ⟨rest, by simp⟩
  refine h (hbegins.of_prefix (List.prefix_of_prefix_length_le hnext hmore ?_))
  rw [List.length_append, List.length_singleton]
  exact hlonger

/-! ## 2. What the automaton gives up -/

/-- The automaton comes to an unfinished character by reading the bytes that are taken. -/
def Partial.Reached (p : Partial) : Prop := ∀ bs, pieces (p.taken ++ bs) = piecesFrom (some p) bs

theorem reached_start {b : UInt8} {p : Partial} (h : start b = .inr p) : p.Reached := by
  have hreads := start_reads b
  rw [h] at hreads
  intro bs
  rw [hreads.1, List.singleton_append, pieces, piecesFrom_inr h]

theorem Partial.Reached.push {p q : Partial} (h : p.Reached) (hp : p.Open) {b : UInt8}
    (hpush : p.push b = some (.inr q)) : q.Reached := by
  intro bs
  rw [(push_reads hp hpush).1, List.append_assoc, h, List.singleton_append, piecesFrom_continue hpush]

/-- **A byte that is refused goes on with no character.** -/
theorem Partial.Reached.not_begins {p : Partial} (h : p.Reached) {b : UInt8} (hpush : p.push b = none) :
    ¬ Begins (p.taken ++ [b]) := by
  rintro ⟨c, more, hmore⟩
  have hbroken := h ([b] ++ more)
  rw [List.singleton_append, piecesFrom_refused more hpush] at hbroken
  refine not_prefix_of_pieces hbroken c ⟨[], ?_⟩
  rw [List.append_nil, ← hmore, List.append_assoc, List.singleton_append]

/-- A byte that starts nothing begins no character. -/
theorem not_begins_start {b : UInt8} {fault : Fault} {run : Bytes}
    (h : start b = .inl (.broken fault run)) : ¬ Begins [b] := by
  rintro ⟨c, more, hmore⟩
  refine not_prefix_of_pieces (piecesFrom_inl h more) c ⟨[], ?_⟩
  rw [List.append_nil, ← hmore, List.singleton_append]

theorem brokenRun_of_piecesFrom {fault : Fault} {run : Bytes} {ps : List Piece} :
    ∀ (bs : Bytes) {p : Partial}, p.Open → p.Reached → piecesFrom (some p) bs = .broken fault run :: ps →
      ∃ rest, p.taken ++ bs = run ++ rest ∧ BrokenRun run rest := by
  intro bs
  induction bs with
  | nil =>
    intro p hp hreached h
    have hnone := not_prefix_of_pieces ((hreached []).trans h)
    obtain ⟨hrun, -⟩ := List.cons.inj h
    obtain ⟨-, rfl⟩ := Piece.broken.inj hrun
    refine ⟨[], rfl, ?_, hnone, .inl hp.begins, ?_⟩
    · cases hp <;> simp
    · intro more hmore hlonger
      rw [List.append_nil] at hmore
      exact absurd hmore.length_le (Nat.not_le.mpr hlonger)
  | cons b bs ih =>
    intro p hp hreached h
    cases hpush : p.push b with
    | none =>
      have hnone := not_prefix_of_pieces ((hreached (b :: bs)).trans h)
      rw [piecesFrom_refused bs hpush] at h
      obtain ⟨hrun, -⟩ := List.cons.inj h
      obtain ⟨-, rfl⟩ := Piece.broken.inj hrun
      refine ⟨b :: bs, rfl, ?_, hnone, .inl hp.begins,
        longest_of_not_begins (hreached.not_begins hpush)⟩
      cases hp <;> simp
    | some r =>
      cases r with
      | inl piece =>
        -- a byte that completes a character makes no broken run
        have hspelled := (push_eq hpush).2.2
        rw [piecesFrom_complete hpush] at h
        obtain ⟨rfl, -⟩ := List.cons.inj h
        split at hspelled <;> cases hspelled
      | inr q =>
        have hreads := push_reads hp hpush
        rw [piecesFrom_continue hpush] at h
        obtain ⟨rest, hrest, hrun⟩ := ih hreads.2 (hreached.push hp hpush) h
        refine ⟨rest, ?_, hrun⟩
        rw [← hrest, hreads.1, List.append_assoc, List.singleton_append]

/-- **A broken piece is a broken run.** -/
theorem brokenRun_of_pieces {bs run : Bytes} {fault : Fault} {ps : List Piece}
    (h : pieces bs = .broken fault run :: ps) : ∃ rest, bs = run ++ rest ∧ BrokenRun run rest := by
  cases bs with
  | nil => cases h
  | cons b bs =>
    have hnone := not_prefix_of_pieces h
    have hreads := start_reads b
    cases hstart : start b with
    | inl piece =>
      rw [hstart] at hreads
      rw [pieces, piecesFrom_inl hstart] at h
      obtain ⟨rfl, -⟩ := List.cons.inj h
      obtain rfl : run = [b] := hreads.1
      refine ⟨bs, rfl, by simp, hnone, .inr rfl, fun more hmore hlonger hbegins => ?_⟩
      have hfirst : [b] <+: more :=
        List.prefix_of_prefix_length_le ⟨bs, rfl⟩ hmore (Nat.le_of_lt hlonger)
      exact not_begins_start hstart (hbegins.of_prefix hfirst)
    | inr p =>
      rw [hstart] at hreads
      rw [pieces, piecesFrom_inr hstart] at h
      obtain ⟨rest, hrest, hrun⟩ := brokenRun_of_piecesFrom bs hreads.2 (reached_start hstart) h
      refine ⟨rest, ?_, hrun⟩
      rw [← hrest, hreads.1, List.singleton_append]

/-! ## 3. Replacing -/

/-- **What a text says of the bytes that are shown by it**: where the bytes begin with a character
there is that character, and where they do not a replacement character for the broken run. -/
inductive Replaced : Bytes → Text → Prop
  | nil : Replaced [] []
  | char (c : Char) {bs : Bytes} {t : Text} (h : Replaced bs t) :
    Replaced (String.utf8EncodeChar c ++ bs) (.ofChar c :: t)
  | run {run rest : Bytes} {t : Text} (hrun : BrokenRun run rest) (h : Replaced rest t) :
    Replaced (run ++ rest) (.ofNat 0xFFFD :: t)

/-- Showing bytes does what it should; the induction is on their pieces. -/
theorem replaced_pieces (ps : List Piece) :
    ∀ bs, pieces bs = ps → Replaced bs (ps.flatMap Piece.lossy) := by
  induction ps with
  | nil =>
    intro bs h
    obtain rfl : [] = bs := by rw [← pieces_bytes bs, h]; rfl
    exact .nil
  | cons piece ps ih =>
    intro bs h
    obtain ⟨rest, hbs, hps, hspelled⟩ := piecesFrom_eq_cons bs none (by simp) h
    replace hbs : bs = piece.bytes ++ rest := hbs
    have hrest := ih rest hps.symm
    cases piece with
    | char c =>
      cases hspelled with
      | char hc =>
        obtain ⟨d, rfl⟩ := exists_ofChar hc
        rw [hbs, Piece.bytes, encodePoint_ofChar]
        exact .char d hrest
    | broken fault run =>
      obtain ⟨rest', hbs', hrun⟩ := brokenRun_of_pieces h
      obtain rfl : rest' = rest := List.append_cancel_left (hbs'.symm.trans hbs)
      rw [hbs']
      exact .run hrun hrest

/-- There is one broken run at the front, if there is any. -/
theorem BrokenRun.unique {run run' rest rest' : Bytes} (h : BrokenRun run rest)
    (h' : BrokenRun run' rest') (hsame : run ++ rest = run' ++ rest') : run = run' ∧ rest = rest' := by
  have hle : ∀ {a b c d : Bytes}, BrokenRun a b → BrokenRun c d → a ++ b = c ++ d →
      c.length ≤ a.length := by
    intro a b c d ha hc hac
    by_contra hlonger
    have hbegins := ha.longest c (hac ▸ List.prefix_append c d) (Nat.not_le.mp hlonger)
    have hone := hc.begins.resolve_left hbegins
    have hnil := List.length_pos_of_ne_nil ha.ne
    omega
  exact List.append_inj hsame (Nat.le_antisymm (hle h' h hsame.symm) (hle h h' hsame))

theorem Replaced.of_nil {u : Text} (h : Replaced [] u) : u = [] := by
  generalize hbs : ([] : Bytes) = bs at h
  cases h with
  | nil => rfl
  | char c _ => exact absurd hbs.symm (by simp [String.utf8EncodeChar_ne_nil])
  | run hrun _ => exact absurd (List.append_eq_nil_iff.mp hbs.symm).1 hrun.ne

theorem Replaced.of_char {c : Char} {bs : Bytes} {u : Text}
    (h : Replaced (String.utf8EncodeChar c ++ bs) u) : ∃ t, u = .ofChar c :: t ∧ Replaced bs t := by
  generalize hbs : String.utf8EncodeChar c ++ bs = all at h
  cases h with
  | nil => exact absurd hbs (by simp [String.utf8EncodeChar_ne_nil])
  | char d h =>
    rw [← encodePoint_ofChar, ← encodePoint_ofChar] at hbs
    obtain ⟨hcd, rfl⟩ := encodePoint_prefix (isSurrogate_ofChar c) (isSurrogate_ofChar d) hbs
    exact ⟨_, by rw [hcd], h⟩
  | run hrun _ => exact absurd ⟨bs, hbs⟩ (hrun.noChar c)

theorem Replaced.of_run {run rest : Bytes} {u : Text} (hrun : BrokenRun run rest)
    (h : Replaced (run ++ rest) u) : ∃ t, u = .ofNat 0xFFFD :: t ∧ Replaced rest t := by
  generalize hbs : run ++ rest = all at h
  cases h with
  | nil => exact absurd (List.append_eq_nil_iff.mp hbs).1 hrun.ne
  | @char c bs _ _ => exact absurd ⟨bs, hbs.symm⟩ (hrun.noChar c)
  | run hrun' h =>
    obtain ⟨rfl, rfl⟩ := hrun.unique hrun' hbs
    exact ⟨_, rfl, h⟩

/-- Bytes are shown by one text only. -/
theorem Replaced.unique {bs : Bytes} {t : Text} (h : Replaced bs t) :
    ∀ {u : Text}, Replaced bs u → t = u := by
  induction h with
  | nil =>
    intro u hu
    exact hu.of_nil.symm
  | char c _ ih =>
    intro u hu
    obtain ⟨t, rfl, ht⟩ := hu.of_char
    rw [ih ht]
  | run hrun _ ih =>
    intro u hu
    obtain ⟨t, rfl, ht⟩ := hu.of_run hrun
    rw [ih ht]

/-- **Showing bytes, in other words**: character by character, and run by run where there is none. -/
theorem replaced_iff {bs : Bytes} {t : Text} : Replaced bs t ↔ decodeLossy bs = t := by
  constructor
  · exact fun h => (replaced_pieces _ bs rfl).unique h
  · rintro rfl
    exact replaced_pieces _ bs rfl

/-! ## 4. Bytes that are UTF-8 -/

/-- Bytes that are well-formed UTF-8. -/
def IsValid (bs : Bytes) : Prop := bs.toByteArray.IsValidUTF8

/-- The bytes of a string. -/
def bytesOf (s : String) : Bytes := s.toUTF8.data.toList

theorem bytesOf_eq (s : String) : bytesOf s = (s : Text).flatMap encodePoint := by
  have hbytes : bytesOf s = s.toList.flatMap String.utf8EncodeChar := by
    rw [bytesOf, String.toUTF8, ← String.utf8Encode_toList, List.utf8Encode,
      List.toList_data_toByteArray]
  rw [hbytes, Text.ofString, List.flatMap_map]
  exact List.flatMap_congr fun c _ => (encodePoint_ofChar c).symm

/-- A text without surrogates is a string. -/
theorem exists_ofString {t : Text} (h : t.Characters) : ∃ s : String, t = s := by
  induction t with
  | nil => exact ⟨"", rfl⟩
  | cons c t ih =>
    rw [Text.characters_cons] at h
    obtain ⟨d, rfl⟩ := exists_ofChar h.1
    obtain ⟨s, rfl⟩ := ih h.2
    refine ⟨String.ofList (d :: s.toList), ?_⟩
    simp only [Text.ofString, String.toList_ofList, List.map_cons]

theorem isValid_iff {bs : Bytes} : IsValid bs ↔ ∃ s : String, bs = bytesOf s := by
  constructor
  · intro h
    refine ⟨⟨bs.toByteArray, h⟩, ?_⟩
    rw [bytesOf, String.toUTF8, List.toList_data_toByteArray]
  · rintro ⟨s, rfl⟩
    have hsame : (bytesOf s).toByteArray = s.toByteArray := by
      rw [bytesOf, String.toUTF8]
      exact ByteArray.ext (by rw [List.data_toByteArray])
    rw [IsValid, hsame]
    exact s.isValidUTF8

/-- **Both decoders read a string as it is.** -/
theorem decodeLossy_bytesOf (s : String) : decodeLossy (bytesOf s) = s := by
  rw [bytesOf_eq, decodeLossy_encode (Text.characters_ofString s)]

theorem decodeEscaped_bytesOf (s : String) : decodeEscaped (bytesOf s) = s := by
  rw [bytesOf_eq, decodeEscaped_encode (Text.characters_ofString s)]

/-- Valid bytes are shown as they are, whatever follows them. -/
theorem decodeLossy_append {a : Bytes} (ha : IsValid a) (bs : Bytes) :
    decodeLossy (a ++ bs) = decodeLossy a ++ decodeLossy bs := by
  obtain ⟨s, rfl⟩ := isValid_iff.mp ha
  rw [decodeLossy_bytesOf, bytesOf_eq, decodeLossy_encode_append (Text.characters_ofString s)]

/-! ## 5. Where the repairs agree -/

/-- **What is shown has no surrogates.** -/
theorem characters_decodeLossy (bs : Bytes) : (decodeLossy bs).Characters := by
  intro c hc
  obtain ⟨piece, hpiece, hmem⟩ := List.mem_flatMap.mp hc
  have hsound := pieces_sound bs piece hpiece
  cases piece with
  | char d =>
    obtain rfl := List.mem_singleton.mp hmem
    exact hsound
  | broken fault run =>
    obtain rfl := List.mem_singleton.mp hmem
    rfl

theorem isSurrogate_escape (b : UInt8) : (escape b).isSurrogate = true := by
  have hb := b.toNat_lt
  simp only [CodePoint.isSurrogate, val_escape, Bool.and_eq_true, decide_eq_true_eq]
  omega

/-- Without surrogates in the name all pieces are characters. -/
theorem pieces_of_characters (ps : List Piece) : ∀ bs, pieces bs = ps →
    Text.Characters (ps.flatMap Piece.escaped) →
    bs = (ps.flatMap Piece.escaped).flatMap encodePoint := by
  induction ps with
  | nil =>
    intro bs h _
    rw [← pieces_bytes bs, h]
    rfl
  | cons piece ps ih =>
    intro bs h hname
    obtain ⟨rest, hbs, hps, hspelled⟩ := piecesFrom_eq_cons bs none (by simp) h
    replace hbs : bs = piece.bytes ++ rest := hbs
    rw [List.flatMap_cons, Text.characters_append] at hname
    cases hspelled with
    | @char c hc =>
      rw [hbs, ih rest hps.symm hname.2]
      rfl
    | @broken fault b tails _ =>
      -- a broken run is not empty, so its name has a surrogate
      have hescape := hname.1 (escape b) (by simp [Piece.escaped])
      rw [isSurrogate_escape] at hescape
      cases hescape

/-- **A name has no surrogates if and only if its bytes are UTF-8.** -/
theorem characters_decodeEscaped_iff {bs : Bytes} : (decodeEscaped bs).Characters ↔ IsValid bs := by
  rw [isValid_iff]
  constructor
  · intro h
    obtain ⟨s, hs⟩ := exists_ofString h
    refine ⟨s, ?_⟩
    rw [bytesOf_eq, ← hs]
    exact pieces_of_characters _ bs rfl h
  · rintro ⟨s, rfl⟩
    rw [decodeEscaped_bytesOf]
    exact Text.characters_ofString s

/-- **The two repairs agree if and only if there is nothing to repair.** -/
theorem decodeLossy_eq_decodeEscaped_iff {bs : Bytes} :
    decodeLossy bs = decodeEscaped bs ↔ IsValid bs := by
  constructor
  · intro h
    rw [← characters_decodeEscaped_iff, ← h]
    exact characters_decodeLossy bs
  · intro h
    obtain ⟨s, rfl⟩ := isValid_iff.mp h
    rw [decodeLossy_bytesOf, decodeEscaped_bytesOf]

/-- A string is sent as its UTF-8. -/
theorem encodeKey_ofString (s : String) : encodeKey (s : Text) = .ok (bytesOf s) := by
  have hname := encodeKey_decodeEscaped (bytesOf s)
  rwa [decodeEscaped_bytesOf] at hname

end Utf8

open Utf8

/-- **Bytes are shown by a text that says less than their name**, and the same where they are UTF-8.
Any bytes are shown, as a string; showing the UTF-8 of what is shown changes nothing.  A string at the
front is shown as it is, and it does not matter to what follows.  What is shown is the name of the bytes
if and only if they are UTF-8, that is, if and only if the name has no surrogates.  Otherwise each broken
run is one replacement character in the one text, and a surrogate for each of its bytes in the
other. -/
theorem Value.decoded_projects :
    (∀ bs raw, raw = Value.bytes bs ∨ raw = Value.buffer bs →
      raw.decoded = .ok (decodeLossy bs) ∧ raw.keyName = .ok (decodeEscaped bs)) ∧
    (∀ bs, ∀ c ∈ decodeLossy bs, c.isSurrogate = false) ∧
    (∀ bs, IsValid bs ↔ ∃ s : String, bs = bytesOf s) ∧
    (∀ s : String, decodeLossy (bytesOf s) = s) ∧
    (∀ bs, ∃ s : String, decodeLossy bs = s ∧ encodeKey (decodeLossy bs) = .ok (bytesOf s) ∧
      decodeLossy (bytesOf s) = decodeLossy bs) ∧
    (∀ a bs, IsValid a → decodeLossy (a ++ bs) = decodeLossy a ++ decodeLossy bs) ∧
    (∀ bs, (decodeLossy bs = decodeEscaped bs ↔ IsValid bs) ∧
      (IsValid bs ↔ ∀ c ∈ decodeEscaped bs, c.isSurrogate = false)) ∧
    -- the codec
    (∀ bs t, decodeLossy bs = t ↔ Replaced bs t) ∧
    (∀ bs t, decodeEscaped bs = t ↔ Escaped bs t) := by
  refine ⟨?_, characters_decodeLossy, fun _ => isValid_iff, decodeLossy_bytesOf, ?_,
    fun a bs ha => decodeLossy_append ha bs, ?_, fun _ _ => replaced_iff.symm,
    fun _ _ => escaped_iff.symm⟩
  · rintro bs raw (rfl | rfl) <;> exact ⟨rfl, rfl⟩
  · intro bs
    obtain ⟨s, hs⟩ := exists_ofString (characters_decodeLossy bs)
    exact ⟨s, hs, by rw [hs, encodeKey_ofString], by rw [hs, decodeLossy_bytesOf]⟩
  · exact fun bs => ⟨decodeLossy_eq_decodeEscaped_iff, characters_decodeEscaped_iff.symm⟩

/-- The letter a, and then two bytes of three and a letter that is none of them. -/
theorem Value.decoded_cutShort :
    (Value.bytes [97, 0xE2, 0x82, 65]).decoded = .ok [.ofNat 97, .ofNat 0xFFFD, .ofNat 65] ∧
    decodeLossy ([97] ++ [0xE2, 0x82, 65]) = decodeLossy [97] ++ decodeLossy [0xE2, 0x82, 65] ∧
    ¬ IsValid [97, 0xE2, 0x82, 65] := by
  obtain ⟨hdecoded, -, -, -, -, happend, hagree, -, -⟩ := Value.decoded_projects
  refine ⟨(hdecoded _ _ (.inl rfl)).1.trans (by decide), happend [97] _ ?_, fun hvalid => ?_⟩
  · exact isValid_iff.mpr ⟨"a", by decide⟩
  · exact absurd ((hagree _).1.mpr hvalid) (by decide)

end Keyscope
