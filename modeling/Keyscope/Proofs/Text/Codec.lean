/-
# The codec of key names

`Utf8.decodeEscaped` is an automaton that cuts bytes into pieces, and `Utf8.encodeEscaped` walks a
text with a position in hand.  What they compute has a plain description that mentions neither, in
terms of the UTF-8 of Lean's own characters.

* **Decoding** (`escaped_iff`).  Where the bytes begin with the UTF-8 of a character, that character
  is read; where they do not, one byte becomes a surrogate of its own (`Escaped`).
* **Encoding** (`encodeKey_error_iff`, `encodeKey_eq_ok_iff`).  A surrogate that stands for a
  byte becomes that byte, a character its UTF-8, and a text with any other surrogate is refused.

The second half of the first statement is where the automaton has to be looked at: it gives up a
character after several bytes, and all of them are escaped.  That is no different from giving up one
byte at a time, because the bytes behind the first one cannot begin a character.
-/
import Mathlib.Data.List.Infix
import Keyscope.Proofs.Text.Pieces

namespace Keyscope

namespace Utf8

/-! ## 1. The UTF-8 of a character -/

theorem ofNat_val (c : CodePoint) : CodePoint.ofNat c.val = c := by
  rw [CodePoint.ofNat, dif_pos c.isLt]

/-- **Characters are written in the UTF-8 of Lean's strings.** -/
theorem encodePoint_ofChar (c : Char) : encodePoint (.ofChar c) = String.utf8EncodeChar c := by
  have hc : c.val.toNat < 0x110000 := (CodePoint.ofChar c).isLt
  have hval : (CodePoint.ofChar c).val = c.val.toNat := rfl
  simp only [encodePoint, String.utf8EncodeChar, hval]
  split
  · rw [if_pos (by omega)]
  split
  · rw [if_neg (by omega), if_pos (by omega), Nat.mod_eq_of_lt (by omega : c.val.toNat / 64 < 32)]
    simp only [Nat.add_comm]
  split
  · rw [if_neg (by omega), if_neg (by omega), if_pos (by omega),
      Nat.mod_eq_of_lt (by omega : c.val.toNat / 4096 < 16)]
    simp only [Nat.add_comm]
  · rw [if_neg (by omega), if_neg (by omega), if_neg (by omega),
      Nat.mod_eq_of_lt (by omega : c.val.toNat / 262144 < 8)]
    simp only [Nat.add_comm]

theorem isSurrogate_ofChar (c : Char) : (CodePoint.ofChar c).isSurrogate = false := by
  have hvalid : c.toNat < 0xD800 ∨ 0xDFFF < c.toNat ∧ c.toNat < 0x110000 := c.valid
  simp only [CodePoint.isSurrogate, Bool.and_eq_false_iff, decide_eq_false_iff_not]
  rw [CodePoint.val_ofChar]
  omega

/-- A code point that is no surrogate is a character. -/
theorem exists_ofChar {c : CodePoint} (hc : c.isSurrogate = false) :
    ∃ d : Char, c = .ofChar d := by
  have hvalid : c.val.isValidChar := by
    simp only [CodePoint.isSurrogate, Bool.and_eq_false_iff, decide_eq_false_iff_not] at hc
    have hlt := c.isLt
    simp only [Nat.isValidChar]
    omega
  exact ⟨Char.ofNatAux c.val hvalid, rfl⟩

/-- The first byte of a character is ASCII or begins a longer one; it never continues one. -/
theorem encodePoint_eq_cons (c : CodePoint) :
    ∃ b bs, encodePoint c = b :: bs ∧ (b.toNat < 0x80 ∨ 0xC0 ≤ b.toNat) := by
  have hlt := c.isLt
  simp only [encodePoint]
  split
  · exact ⟨_, _, rfl, .inl (by simp only [UInt8.toNat_ofNat']; omega)⟩
  split
  · exact ⟨_, _, rfl, .inr (by simp only [UInt8.toNat_ofNat']; omega)⟩
  split
  · exact ⟨_, _, rfl, .inr (by simp only [UInt8.toNat_ofNat']; omega)⟩
  · exact ⟨_, _, rfl, .inr (by simp only [UInt8.toNat_ofNat']; omega)⟩

/-! ## 2. Characters are read back -/

theorem piecesFrom_inl {b : UInt8} {piece : Piece} (h : start b = .inl piece) (bs : Bytes) :
    piecesFrom none (b :: bs) = piece :: piecesFrom none bs := by
  simp only [piecesFrom, h]

theorem piecesFrom_inr {b : UInt8} {p : Partial} (h : start b = .inr p) (bs : Bytes) :
    piecesFrom none (b :: bs) = piecesFrom (some p) bs := by
  simp only [piecesFrom, h]

theorem piecesFrom_complete {p : Partial} {b : UInt8} {piece : Piece}
    (h : p.push b = some (.inl piece)) (bs : Bytes) :
    piecesFrom (some p) (b :: bs) = piece :: piecesFrom none bs := by
  simp only [piecesFrom, h]

theorem piecesFrom_continue {p q : Partial} {b : UInt8} (h : p.push b = some (.inr q))
    (bs : Bytes) : piecesFrom (some p) (b :: bs) = piecesFrom (some q) bs := by
  simp only [piecesFrom, h]

theorem toNat_ofNat {n : Nat} (h : n < 256) : (UInt8.ofNat n).toNat = n := by
  rw [UInt8.toNat_ofNat', Nat.mod_eq_of_lt h]

theorem start_ascii {n : Nat} (h : n < 0x80) : start (.ofNat n) = .inl (.char (.ofNat n)) := by
  simp only [start, toNat_ofNat (show n < 256 by omega), if_pos h]

theorem start_two {v : Nat} (h : 0x02 ≤ v) (h' : v < 0x20) :
    start (.ofNat (0xC0 + v)) = .inr ⟨1, 0x80, 0xBF, v, [.ofNat (0xC0 + v)]⟩ := by
  simp only [start, toNat_ofNat (show 0xC0 + v < 256 by omega), Nat.add_sub_cancel_left]
  rw [if_neg (by omega), if_neg (by omega), if_pos (by omega)]

theorem start_three {v : Nat} (h : v < 0x10) :
    start (.ofNat (0xE0 + v)) =
      .inr ⟨2, if v = 0 then 0xA0 else 0x80, if v = 0xD then 0x9F else 0xBF, v,
        [.ofNat (0xE0 + v)]⟩ := by
  simp only [start, toNat_ofNat (show 0xE0 + v < 256 by omega), Nat.add_sub_cancel_left,
    show 0xE0 + v = 0xE0 ↔ v = 0 by omega, show 0xE0 + v = 0xED ↔ v = 0xD by omega]
  rw [if_neg (by omega), if_neg (by omega), if_neg (by omega), if_pos (by omega)]

theorem start_four {v : Nat} (h : v < 0x05) :
    start (.ofNat (0xF0 + v)) =
      .inr ⟨3, if v = 0 then 0x90 else 0x80, if v = 4 then 0x8F else 0xBF, v,
        [.ofNat (0xF0 + v)]⟩ := by
  simp only [start, toNat_ofNat (show 0xF0 + v < 256 by omega), Nat.add_sub_cancel_left,
    show 0xF0 + v = 0xF0 ↔ v = 0 by omega, show 0xF0 + v = 0xF4 ↔ v = 4 by omega]
  rw [if_neg (by omega), if_neg (by omega), if_neg (by omega), if_neg (by omega),
    if_pos (by omega)]

/-- The last byte of a character carries six bits. -/
theorem push_last {low high value v : Nat} {taken : Bytes} (hv : v < 0x40) (hlow : low ≤ 0x80 + v)
    (hhigh : 0x80 + v ≤ high) :
    (⟨1, low, high, value, taken⟩ : Partial).push (.ofNat (0x80 + v)) =
      some (.inl (.char (.ofNat (value * 0x40 + v)))) := by
  simp only [Partial.push, toNat_ofNat (show 0x80 + v < 256 by omega), Nat.add_sub_cancel_left]
  rw [if_pos ⟨hlow, hhigh⟩]
  rfl

/-- A byte between the first and the last one carries six bits. -/
theorem push_more {k low high value v : Nat} {taken : Bytes} (hv : v < 0x40) (hlow : low ≤ 0x80 + v)
    (hhigh : 0x80 + v ≤ high) :
    (⟨k + 2, low, high, value, taken⟩ : Partial).push (.ofNat (0x80 + v)) =
      some (.inr ⟨k + 1, 0x80, 0xBF, value * 0x40 + v, taken ++ [.ofNat (0x80 + v)]⟩) := by
  simp only [Partial.push, toNat_ofNat (show 0x80 + v < 256 by omega), Nat.add_sub_cancel_left]
  rw [if_pos ⟨hlow, hhigh⟩, if_neg (by omega)]
  rfl

/-- **A character is read back**, whatever follows it. -/
theorem pieces_encodePoint {c : CodePoint} (hc : c.isSurrogate = false) (bs : Bytes) :
    pieces (encodePoint c ++ bs) = .char c :: pieces bs := by
  have hlt := c.isLt
  have hplain : c.val < 0xD800 ∨ 0xE000 ≤ c.val := by
    simp only [CodePoint.isSurrogate, Bool.and_eq_false_iff, decide_eq_false_iff_not] at hc
    omega
  have hsame : CodePoint.ofNat c.val = c := ofNat_val c
  simp only [encodePoint]
  generalize c.val = n at *
  subst hsame
  -- the six bits of each byte, put together again
  have hbits : n / 0x1000 * 0x40 + n / 0x40 % 0x40 = n / 0x40 := by omega
  have hlast : n / 0x40 * 0x40 + n % 0x40 = n := by omega
  split
  · rename_i hone
    rw [List.cons_append, pieces, piecesFrom_inl (start_ascii hone)]
    rfl
  split
  · rw [List.cons_append, List.cons_append, pieces,
      piecesFrom_inr (start_two (by omega) (by omega)),
      piecesFrom_complete (push_last (by omega) (by omega) (by omega)), hlast]
    rfl
  split
  · rw [List.cons_append, List.cons_append, List.cons_append, pieces,
      piecesFrom_inr (start_three (by omega)),
      piecesFrom_continue (push_more (by omega) (by split <;> omega) (by split <;> omega)),
      piecesFrom_complete (push_last (by omega) (by omega) (by omega)), hbits, hlast]
    rfl
  · have hfirst : n / 0x40000 * 0x40 + n / 0x1000 % 0x40 = n / 0x1000 := by omega
    rw [List.cons_append, List.cons_append, List.cons_append, List.cons_append, pieces,
      piecesFrom_inr (start_four (by omega)),
      piecesFrom_continue (push_more (by omega) (by split <;> omega) (by split <;> omega)),
      piecesFrom_continue (push_more (by omega) (by omega) (by omega)),
      piecesFrom_complete (push_last (by omega) (by omega) (by omega)), hfirst, hbits, hlast]
    rfl

/-- **The UTF-8 of a text is taken apart into its code points**, whatever follows it, if there are no
surrogates in it. -/
theorem pieces_encode {t : Text} (h : ∀ c ∈ t, c.isSurrogate = false) (bs : Bytes) :
    pieces (t.flatMap encodePoint ++ bs) = t.map .char ++ pieces bs := by
  induction t with
  | nil => rfl
  | cons c t ih =>
    rw [List.forall_mem_cons] at h
    rw [List.flatMap_cons, List.append_assoc, pieces_encodePoint h.1, ih h.2]
    rfl

theorem flatMap_char {f : Piece → Text} (hf : ∀ c, f (.char c) = [c]) (t : Text) :
    (t.map Piece.char).flatMap f = t := by
  induction t with
  | nil => rfl
  | cons c t ih => rw [List.map_cons, List.flatMap_cons, hf, ih, List.singleton_append]

/-- **Both decoders read a text back from its UTF-8**, whatever follows it. -/
theorem decodeLossy_encode_append {t : Text} (h : ∀ c ∈ t, c.isSurrogate = false) (bs : Bytes) :
    decodeLossy (t.flatMap encodePoint ++ bs) = t ++ decodeLossy bs := by
  rw [decodeLossy, pieces_encode h, List.flatMap_append, flatMap_char fun _ => rfl]
  rfl

theorem decodeEscaped_encode_append {t : Text} (h : ∀ c ∈ t, c.isSurrogate = false) (bs : Bytes) :
    decodeEscaped (t.flatMap encodePoint ++ bs) = t ++ decodeEscaped bs := by
  rw [decodeEscaped, pieces_encode h, List.flatMap_append, flatMap_char fun _ => rfl]
  rfl

theorem decodeLossy_encode {t : Text} (h : ∀ c ∈ t, c.isSurrogate = false) :
    decodeLossy (t.flatMap encodePoint) = t := by
  simpa [decodeLossy, pieces, piecesFrom] using decodeLossy_encode_append h []

theorem decodeEscaped_encode {t : Text} (h : ∀ c ∈ t, c.isSurrogate = false) :
    decodeEscaped (t.flatMap encodePoint) = t := by
  simpa [decodeEscaped, pieces, piecesFrom] using decodeEscaped_encode_append h []

/-- A character is told from the bytes that follow it. -/
theorem encodePoint_prefix {c d : CodePoint} (hc : c.isSurrogate = false)
    (hd : d.isSurrogate = false) {bs bs' : Bytes} (h : encodePoint c ++ bs = encodePoint d ++ bs') :
    c = d ∧ bs = bs' := by
  have hpieces : Piece.char c :: pieces bs = Piece.char d :: pieces bs' := by
    rw [← pieces_encodePoint hc, h, pieces_encodePoint hd]
  obtain rfl : c = d := Piece.char.inj (List.cons.inj hpieces).1
  exact ⟨rfl, List.append_cancel_left h⟩

/-! ## 3. Broken runs -/

/-- A byte that continues a character. -/
def IsTail (b : UInt8) : Prop := 0x80 ≤ b.toNat ∧ b.toNat < 0xC0

/-- How a piece is spelled: it is a character, or a broken run of one byte and others behind it that
only continue characters. -/
inductive Piece.Spelled : Piece → Prop
  | char {c : CodePoint} (hc : c.isSurrogate = false) : Spelled (.char c)
  | broken {fault : Fault} {b : UInt8} {tails : Bytes} (htails : ∀ x ∈ tails, IsTail x) :
    Spelled (.broken fault (b :: tails))

/-- All bytes of an unfinished character but the first one continue it. -/
theorem Partial.Open.spelled {p : Partial} (hp : p.Open) (fault : Fault) :
    (Piece.broken fault p.taken).Spelled := by
  have htail : ∀ v : Nat, IsTail (.ofNat (0x80 + v % 0x40)) := by
    intro v
    rw [IsTail, toNat_ofNat (by omega)]
    omega
  cases hp with
  | two => exact .broken (by simp)
  | three => exact .broken (by simp)
  | three' => exact .broken (by simpa using htail _)
  | four => exact .broken (by simp)
  | four' => exact .broken (by simpa using htail _)
  | four'' =>
    exact .broken (List.forall_mem_cons.mpr ⟨htail _, List.forall_mem_cons.mpr ⟨htail _, by simp⟩⟩)

theorem start_spelled {b : UInt8} {piece : Piece} (h : start b = .inl piece) : piece.Spelled := by
  have hreads := start_reads b
  rw [h] at hreads
  cases piece with
  | char c => exact .char hreads.2
  | broken fault bs =>
    obtain rfl : bs = [b] := hreads.1
    exact .broken (by simp)

theorem push_spelled {p : Partial} (hp : p.Open) {b : UInt8} {piece : Piece}
    (h : p.push b = some (.inl piece)) : piece.Spelled := by
  have hreads := push_reads hp h
  obtain ⟨-, -, heq⟩ := push_eq h
  split at heq
  · obtain rfl := Sum.inl.inj heq
    exact .char hreads.2
  · cases heq

/-- **The first piece**: it is spelled well, holds the bytes that come first, and the other pieces
are those of the rest. -/
theorem piecesFrom_eq_cons : ∀ (bs : Bytes) (p : Option Partial), (∀ q ∈ p, q.Open) →
    ∀ {piece : Piece} {ps : List Piece}, piecesFrom p bs = piece :: ps →
      ∃ rest, pending p ++ bs = piece.bytes ++ rest ∧ ps = pieces rest ∧ piece.Spelled
  | [], none, _, _, _, h => by cases h
  | [], some p, hp, _, _, h => by
    obtain ⟨rfl, rfl⟩ := List.cons.inj h
    exact ⟨[], rfl, rfl, (hp p rfl).spelled _⟩
  | b :: bs, none, _, piece, ps, h => by
    have hreads := start_reads b
    cases hstart : start b with
    | inl first =>
      rw [hstart] at hreads
      rw [piecesFrom_inl hstart] at h
      obtain ⟨rfl, rfl⟩ := List.cons.inj h
      exact ⟨bs, by rw [hreads.1]; rfl, rfl, start_spelled hstart⟩
    | inr q =>
      rw [hstart] at hreads
      rw [piecesFrom_inr hstart] at h
      obtain ⟨rest, hrest, hps, hspelled⟩ :=
        piecesFrom_eq_cons bs (some q) (by simpa using hreads.2) h
      refine ⟨rest, ?_, hps, hspelled⟩
      rw [← hrest]
      simp [pending, hreads.1]
  | b :: bs, some p, hp, piece, ps, h => by
    cases hpush : p.push b with
    | none =>
      rw [piecesFrom_refused bs hpush] at h
      obtain ⟨rfl, rfl⟩ := List.cons.inj h
      exact ⟨b :: bs, rfl, rfl, (hp p rfl).spelled _⟩
    | some r =>
      have hreads := push_reads (hp p rfl) hpush
      cases r with
      | inl first =>
        rw [piecesFrom_complete hpush] at h
        obtain ⟨rfl, rfl⟩ := List.cons.inj h
        exact ⟨bs, by rw [hreads.1]; simp [pending], rfl, push_spelled (hp p rfl) hpush⟩
      | inr q =>
        rw [piecesFrom_continue hpush] at h
        obtain ⟨rest, hrest, hps, hspelled⟩ :=
          piecesFrom_eq_cons bs (some q) (by simpa using hreads.2) h
        refine ⟨rest, ?_, hps, hspelled⟩
        rw [← hrest]
        simp [pending, hreads.1]

/-! ## 4. Decoding -/

/-- **What a text says of the bytes it was decoded from**: where the bytes begin with a character
there is that character, and where they do not a surrogate for one byte. -/
inductive Escaped : Bytes → Text → Prop
  | nil : Escaped [] []
  | char (c : Char) {bs : Bytes} {t : Text} (h : Escaped bs t) :
    Escaped (String.utf8EncodeChar c ++ bs) (.ofChar c :: t)
  | byte {b : UInt8} {bs : Bytes} {t : Text}
    (hb : ∀ c : Char, ¬ String.utf8EncodeChar c <+: b :: bs) (h : Escaped bs t) :
    Escaped (b :: bs) (escape b :: t)

/-- Bytes that continue characters are escaped one by one. -/
theorem escaped_tails {rest : Bytes} {t : Text} (h : Escaped rest t) :
    ∀ {tails : Bytes}, (∀ x ∈ tails, IsTail x) → Escaped (tails ++ rest) (tails.map escape ++ t)
  | [], _ => h
  | x :: tails, htails => by
    obtain ⟨hx, hrest⟩ := List.forall_mem_cons.mp htails
    refine .byte ?_ (escaped_tails h hrest)
    intro c hprefix
    obtain ⟨b, bs, hc, hfirst⟩ := encodePoint_eq_cons (.ofChar c)
    rw [← encodePoint_ofChar, hc, List.cons_prefix_cons] at hprefix
    obtain ⟨rfl, -⟩ := hprefix
    have := hx.1
    have := hx.2
    omega

/-- Decoding reads the first piece and goes on with the rest. -/
theorem decodeEscaped_eq {bs rest : Bytes} {piece : Piece} (h : pieces bs = piece :: pieces rest) :
    decodeEscaped bs = piece.escaped ++ decodeEscaped rest := by
  rw [decodeEscaped, h]
  rfl

theorem Piece.Spelled.size_pos {piece : Piece} (h : piece.Spelled) : 0 < piece.bytes.length := by
  cases h with
  | @char c hc =>
    obtain ⟨b, bs, hbytes, -⟩ := encodePoint_eq_cons c
    simp [Piece.bytes, hbytes]
  | broken _ => simp [Piece.bytes]

/-- **Decoding does what it should.** -/
theorem escaped_decodeEscaped (bs : Bytes) : Escaped bs (decodeEscaped bs) := by
  cases hpieces : pieces bs with
  | nil =>
    obtain rfl : [] = bs := by rw [← pieces_bytes bs, hpieces]; rfl
    exact .nil
  | cons piece ps =>
    obtain ⟨rest, hbs, rfl, hspelled⟩ := piecesFrom_eq_cons bs none (by simp) hpieces
    replace hbs : bs = piece.bytes ++ rest := hbs
    have hshorter : rest.length < bs.length := by
      have := hspelled.size_pos
      rw [hbs, List.length_append]
      omega
    have hrest := escaped_decodeEscaped rest
    rw [decodeEscaped_eq hpieces, hbs]
    cases hspelled with
    | @char c hc =>
      obtain ⟨d, rfl⟩ := exists_ofChar hc
      rw [Piece.bytes, encodePoint_ofChar]
      exact .char d hrest
    | @broken fault b tails htails =>
      refine .byte ?_ (escaped_tails hrest htails)
      -- a character at the front would have been the first piece
      rintro c ⟨more, hmore⟩
      have hfirst := pieces_encodePoint (isSurrogate_ofChar c) more
      rw [encodePoint_ofChar, hmore] at hfirst
      rw [hbs] at hpieces
      cases hpieces.symm.trans hfirst
termination_by bs.length

theorem Escaped.of_nil {u : Text} (h : Escaped [] u) : u = [] := by
  generalize hbs : ([] : Bytes) = bs at h
  cases h with
  | nil => rfl
  | char c _ => exact absurd hbs.symm (by simp [String.utf8EncodeChar_ne_nil])
  | byte _ _ => cases hbs

theorem Escaped.of_char {c : Char} {bs : Bytes} {u : Text}
    (h : Escaped (String.utf8EncodeChar c ++ bs) u) :
    ∃ t, u = .ofChar c :: t ∧ Escaped bs t := by
  generalize hbs : String.utf8EncodeChar c ++ bs = all at h
  cases h with
  | nil => exact absurd hbs (by simp [String.utf8EncodeChar_ne_nil])
  | char d h =>
    rw [← encodePoint_ofChar, ← encodePoint_ofChar] at hbs
    obtain ⟨hcd, rfl⟩ := encodePoint_prefix (isSurrogate_ofChar c) (isSurrogate_ofChar d) hbs
    exact ⟨_, by rw [hcd], h⟩
  | byte hb _ => exact absurd ⟨bs, hbs⟩ (hb c)

theorem Escaped.of_byte {b : UInt8} {bs : Bytes} {u : Text}
    (hb : ∀ c : Char, ¬ String.utf8EncodeChar c <+: b :: bs) (h : Escaped (b :: bs) u) :
    ∃ t, u = escape b :: t ∧ Escaped bs t := by
  generalize hbs : b :: bs = all at h
  cases h with
  | nil => cases hbs
  | @char c rest _ _ => exact absurd ⟨rest, hbs.symm⟩ (hb c)
  | byte _ h =>
    obtain ⟨rfl, rfl⟩ := List.cons.inj hbs
    exact ⟨_, rfl, h⟩

/-- Bytes say one text only. -/
theorem Escaped.unique {bs : Bytes} {t : Text} (h : Escaped bs t) :
    ∀ {u : Text}, Escaped bs u → t = u := by
  induction h with
  | nil =>
    intro u hu
    exact hu.of_nil.symm
  | char c _ ih =>
    intro u hu
    obtain ⟨t, rfl, ht⟩ := hu.of_char
    rw [ih ht]
  | byte hb _ ih =>
    intro u hu
    obtain ⟨t, rfl, ht⟩ := hu.of_byte hb
    rw [ih ht]

/-- **Decoding, in other words**: character by character, and byte by byte where there is none. -/
theorem escaped_iff {bs : Bytes} {t : Text} : Escaped bs t ↔ decodeEscaped bs = t := by
  constructor
  · exact fun h => (escaped_decodeEscaped bs).unique h
  · rintro rfl
    exact escaped_decodeEscaped bs

theorem isEscape_iff {c : CodePoint} : isEscape c = true ↔ 0xDC80 ≤ c.val ∧ c.val ≤ 0xDCFF := by
  simp only [isEscape, Bool.and_eq_true, decide_eq_true_eq]

/-- **The only surrogates in a decoded text stand for bytes.** -/
theorem isEscape_of_mem_decodeEscaped {bs : Bytes} {c : CodePoint} (hc : c ∈ decodeEscaped bs)
    (hsurrogate : c.isSurrogate = true) : isEscape c = true := by
  obtain ⟨piece, hpiece, hmem⟩ := List.mem_flatMap.mp hc
  have hsound := pieces_sound bs piece hpiece
  cases piece with
  | char d =>
    obtain rfl := List.mem_singleton.mp hmem
    exact absurd hsurrogate (by simp [show c.isSurrogate = false from hsound])
  | broken fault run =>
    obtain ⟨b, hb, rfl⟩ := List.mem_map.mp hmem
    have hascii := hsound b hb
    have hlt := b.toNat_lt
    rw [isEscape_iff, val_escape]
    omega

/-! ## 5. Encoding -/

/-- The bytes that a code point stands for in a text that has bytes: the UTF-8 of a character, or
the byte of a surrogate. -/
def pointBytes (c : CodePoint) : Bytes :=
  match c.toChar? with
  | some d => String.utf8EncodeChar d
  | none => [.ofNat (c.val - 0xDC00)]

theorem pointBytes_char {c : CodePoint} (hc : c.isSurrogate = false) :
    pointBytes c = encodePoint c := by
  obtain ⟨d, rfl⟩ := exists_ofChar hc
  have hchar : (CodePoint.ofChar d).toChar? = some d := by
    rw [CodePoint.toChar?, dif_pos (show (CodePoint.ofChar d).val.isValidChar from d.valid)]
    rfl
  rw [pointBytes, hchar, encodePoint_ofChar]

theorem pointBytes_escape {c : CodePoint} (hc : isEscape c = true) :
    pointBytes c = [.ofNat (c.val - 0xDC00)] := by
  have hnone : c.toChar? = none := by
    rw [CodePoint.toChar?, dif_neg]
    rw [isEscape_iff] at hc
    simp only [Nat.isValidChar]
    omega
  rw [pointBytes, hnone]

/-- A surrogate that stands for no byte. -/
def IsStray (c : CodePoint) : Prop := c.isSurrogate = true ∧ ¬ (0xDC80 ≤ c.val ∧ c.val ≤ 0xDCFF)

theorem encodeFrom_cons {c : CodePoint} (hc : ¬ IsStray c) (t : Text) (i : Nat) :
    encodeFrom i (c :: t) = (encodeFrom (i + 1) t).map (pointBytes c ++ ·) := by
  rw [encodeFrom]
  by_cases hescape : isEscape c = true
  · rw [if_pos hescape, pointBytes_escape hescape]
    rfl
  · have hplain : c.isSurrogate = false := by
      by_contra hsurrogate
      exact hc ⟨by simpa using hsurrogate, fun h => hescape (isEscape_iff.mpr h)⟩
    rw [if_neg hescape, hplain, if_neg Bool.false_ne_true, pointBytes_char hplain]

theorem encodeFrom_stray {c : CodePoint} (hc : IsStray c) (t : Text) (i : Nat) :
    ∃ e, encodeFrom i (c :: t) = .error e := by
  have hescape : ¬ isEscape c = true := fun h => hc.2 (isEscape_iff.mp h)
  rw [encodeFrom, if_neg hescape, if_pos hc.1]
  exact ⟨_, rfl⟩

/-- **A text has bytes unless there is a stray surrogate in it**, and then they are those of its code
points. -/
theorem encodeFrom_cases : ∀ (t : Text) (i : Nat),
    (∃ c ∈ t, IsStray c) ∧ (∃ e, encodeFrom i t = .error e) ∨
    (∀ c ∈ t, ¬ IsStray c) ∧ encodeFrom i t = .ok (t.flatMap pointBytes)
  | [], _ => .inr ⟨by simp, rfl⟩
  | c :: t, i => by
    by_cases hc : IsStray c
    · exact .inl ⟨⟨c, List.mem_cons_self, hc⟩, encodeFrom_stray hc t i⟩
    rw [encodeFrom_cons hc]
    rcases encodeFrom_cases t (i + 1) with ⟨⟨d, hd, hstray⟩, e, he⟩ | ⟨hnone, hok⟩
    · exact .inl ⟨⟨d, List.mem_cons_of_mem _ hd, hstray⟩, e, by rw [he]; rfl⟩
    · exact .inr ⟨List.forall_mem_cons.mpr ⟨hc, hnone⟩, by rw [hok]; rfl⟩

end Utf8

/-- **A name is refused if and only if it has a stray surrogate.** -/
theorem encodeKey_error_iff (t : Text) :
    (∃ e, encodeKey t = .error e) ↔ ∃ c ∈ t, Utf8.IsStray c := by
  rw [encodeKey, Utf8.encodeEscaped]
  rcases Utf8.encodeFrom_cases t 0 with ⟨hstray, e, he⟩ | ⟨hnone, hok⟩
  · rw [he]
    exact ⟨fun _ => hstray, fun _ => ⟨_, rfl⟩⟩
  · rw [hok]
    constructor
    · rintro ⟨e, he⟩
      cases he
    · rintro ⟨c, hc, hstray⟩
      exact absurd hstray (hnone c hc)

/-- A name that is not refused has the bytes of its code points. -/
theorem encodeKey_eq_ok_iff {t : Text} {bs : Bytes} :
    encodeKey t = .ok bs ↔ (∀ c ∈ t, ¬ Utf8.IsStray c) ∧ bs = t.flatMap Utf8.pointBytes := by
  rw [encodeKey, Utf8.encodeEscaped]
  rcases Utf8.encodeFrom_cases t 0 with ⟨⟨c, hc, hstray⟩, e, he⟩ | ⟨hnone, hok⟩
  · rw [he]
    constructor
    · intro h
      cases h
    · exact fun h => absurd hstray (h.1 c hc)
  · rw [hok]
    exact ⟨fun h => ⟨hnone, (Except.ok.inj h).symm⟩, fun h => by rw [h.2]⟩

end Keyscope
