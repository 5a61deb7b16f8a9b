/-
# The pieces of a byte string, and the bytes of a key name

`Utf8.pieces` cuts bytes into characters and broken runs, and `Utf8.decodeEscaped` writes one
surrogate for each byte of a broken run.  This module proves that nothing is lost on the way:
the pieces hold the bytes they were cut from, in order (`pieces_bytes`), and encoding what was
decoded gives the bytes back (`encodeEscaped_decodeEscaped`).

A character that is read byte by byte is in one of six situations: how long it is, and how many
of its bytes are there.  `Partial.Open` lists them with what is known of the bits so far; that
is the invariant.  It keeps out the overlong forms, the surrogates and everything beyond the
last code point, so the character that comes out is written with exactly the bytes that went in.
-/
import Mathlib.Tactic.Common
import Keyscope.Value.Shown

namespace Keyscope

namespace Utf8

/-! ## 1. Unfinished characters -/

/-- The bytes a piece was cut from. -/
def Piece.bytes : Piece → Bytes
  | .char c => encodePoint c
  | .broken _ bs => bs

/-- No character is a surrogate, and no byte of a broken run is ASCII. -/
def Piece.Sound : Piece → Prop
  | .char c => c.isSurrogate = false
  | .broken _ bs => ∀ b ∈ bs, 0x80 ≤ b.toNat

/-- **The invariant of an unfinished character.**  The bytes taken so far start a character whose
bits begin with the value, and the range of the next byte admits well-formed characters only. -/
inductive Partial.Open : Partial → Prop
  | two {v : Nat} (hv : 0x02 ≤ v) (hv' : v < 0x20) :
      Open ⟨1, 0x80, 0xBF, v, [.ofNat (0xC0 + v)]⟩
  | three {v low high : Nat} (hv : v < 0x10) (hlow : 0x80 ≤ low) (hhigh : high ≤ 0xBF)
      (long : v = 0 → 0xA0 ≤ low) (plain : v = 0xD → high ≤ 0x9F) :
      Open ⟨2, low, high, v, [.ofNat (0xE0 + v)]⟩
  | three' {v : Nat} (hv : 0x20 ≤ v) (hv' : v < 0x400) (plain : v < 0x360 ∨ 0x380 ≤ v) :
      Open ⟨1, 0x80, 0xBF, v, [.ofNat (0xE0 + v / 0x40), .ofNat (0x80 + v % 0x40)]⟩
  | four {v low high : Nat} (hv : v < 0x05) (hlow : 0x80 ≤ low) (hhigh : high ≤ 0xBF)
      (long : v = 0 → 0x90 ≤ low) (last : v = 4 → high ≤ 0x8F) :
      Open ⟨3, low, high, v, [.ofNat (0xF0 + v)]⟩
  | four' {v : Nat} (hv : 0x10 ≤ v) (hv' : v < 0x110) :
      Open ⟨2, 0x80, 0xBF, v, [.ofNat (0xF0 + v / 0x40), .ofNat (0x80 + v % 0x40)]⟩
  | four'' {v : Nat} (hv : 0x400 ≤ v) (hv' : v < 0x4400) :
      Open ⟨1, 0x80, 0xBF, v,
        [.ofNat (0xF0 + v / 0x1000), .ofNat (0x80 + v / 0x40 % 0x40), .ofNat (0x80 + v % 0x40)]⟩

theorem val_ofNat {n : Nat} (h : n < 0x110000) : (CodePoint.ofNat n).val = n := by
  simp [CodePoint.ofNat, h]

/-- A number of up to 11 bits has two bytes, one of up to 16 bits three, and any larger one four. -/
theorem encodePoint_two {n : Nat} (h : 0x80 ≤ n) (h' : n < 0x800) :
    encodePoint (.ofNat n) = [.ofNat (0xC0 + n / 0x40), .ofNat (0x80 + n % 0x40)] := by
  simp only [encodePoint, val_ofNat (show n < 0x110000 by omega)]
  rw [if_neg (by omega), if_pos h']

theorem encodePoint_three {n : Nat} (h : 0x800 ≤ n) (h' : n < 0x10000) :
    encodePoint (.ofNat n) =
      [.ofNat (0xE0 + n / 0x1000), .ofNat (0x80 + n / 0x40 % 0x40), .ofNat (0x80 + n % 0x40)] := by
  simp only [encodePoint, val_ofNat (show n < 0x110000 by omega)]
  rw [if_neg (by omega), if_neg (by omega), if_pos h']

theorem encodePoint_four {n : Nat} (h : 0x10000 ≤ n) (h' : n < 0x110000) :
    encodePoint (.ofNat n) =
      [.ofNat (0xF0 + n / 0x40000), .ofNat (0x80 + n / 0x1000 % 0x40),
        .ofNat (0x80 + n / 0x40 % 0x40), .ofNat (0x80 + n % 0x40)] := by
  simp only [encodePoint, val_ofNat h']
  rw [if_neg (by omega), if_neg (by omega), if_neg (by omega)]

/-- A byte that starts a longer character, as its mark and the bits it carries. -/
theorem lead_eq {b : UInt8} (mark : Nat) (h : mark ≤ b.toNat) :
    [b] = [.ofNat (mark + (b.toNat - mark))] := by
  rw [Nat.add_sub_cancel' h, UInt8.ofNat_toNat]

/-- What comes of reading bytes: a piece that holds just these, or an unfinished character that
took them. -/
def Reads (taken : Bytes) : Piece ⊕ Partial → Prop
  | .inl piece => piece.bytes = taken ∧ piece.Sound
  | .inr p => p.taken = taken ∧ p.Open

theorem reads_char {n : Nat} {taken : Bytes} (hn : n < 0x110000) (plain : n < 0xD800 ∨ 0xE000 ≤ n)
    (h : encodePoint (.ofNat n) = taken) : Reads taken (.inl (.char (.ofNat n))) := by
  refine ⟨h, ?_⟩
  simp only [Piece.Sound, CodePoint.isSurrogate, val_ofNat hn, Bool.and_eq_false_iff,
    decide_eq_false_iff_not]
  omega

/-- The first byte of a piece: it is the whole piece, or an unfinished character begins. -/
theorem start_reads (b : UInt8) : Reads [b] (start b) := by
  have hb : b.toNat < 256 := b.toNat_lt
  simp only [start]
  split
  · rename_i h
    refine reads_char (by omega) (by omega) ?_
    simp only [encodePoint, val_ofNat (show b.toNat < 0x110000 by omega), if_pos h,
      UInt8.ofNat_toNat]
  split
  · exact ⟨rfl, by intro c hc; obtain rfl := List.mem_singleton.mp hc; omega⟩
  split
  · refine ⟨rfl, ?_⟩
    rw [lead_eq (b := b) 0xC0 (by omega)]
    exact .two (by omega) (by omega)
  split
  · refine ⟨rfl, ?_⟩
    rw [lead_eq (b := b) 0xE0 (by omega)]
    refine .three (by omega) ?_ ?_ ?_ ?_ <;> split <;> omega
  split
  · refine ⟨rfl, ?_⟩
    rw [lead_eq (b := b) 0xF0 (by omega)]
    refine .four (by omega) ?_ ?_ ?_ ?_ <;> split <;> omega
  · exact ⟨rfl, by intro c hc; obtain rfl := List.mem_singleton.mp hc; omega⟩

/-- A byte that continues a character, as its mark and the six bits it carries. -/
theorem tail_eq {b : UInt8} {n v : Nat} (hn : n = v * 0x40 + (b.toNat - 0x80))
    (h : 0x80 ≤ b.toNat) (h' : b.toNat ≤ 0xBF) : .ofNat (0x80 + n % 0x40) = b := by
  rw [show 0x80 + n % 0x40 = b.toNat by omega, UInt8.ofNat_toNat]

/-- What a byte that continues a character makes of it. -/
theorem push_eq {p : Partial} {b : UInt8} {r : Piece ⊕ Partial} (h : p.push b = some r) :
    p.low ≤ b.toNat ∧ b.toNat ≤ p.high ∧
      r = if p.missing ≤ 1 then .inl (.char (.ofNat (p.value * 0x40 + (b.toNat - 0x80))))
        else .inr ⟨p.missing - 1, 0x80, 0xBF, p.value * 0x40 + (b.toNat - 0x80),
          p.taken ++ [b]⟩ := by
  simp only [Partial.push] at h
  split at h
  · rename_i hrange
    refine ⟨hrange.1, hrange.2, ?_⟩
    split at h
    · rename_i hone
      rw [if_pos hone]
      exact (Option.some.inj h).symm
    · rename_i hmore
      rw [if_neg hmore]
      exact (Option.some.inj h).symm
  · cases h

/-- **One more byte keeps the invariant.**  The character is complete and is written with the
bytes that were read, or it is still unfinished. -/
theorem push_reads {p : Partial} (hp : p.Open) {b : UInt8} {r : Piece ⊕ Partial}
    (h : p.push b = some r) : Reads (p.taken ++ [b]) r := by
  obtain ⟨hlow, hhigh, rfl⟩ := push_eq h
  generalize hn : p.value * 0x40 + (b.toNat - 0x80) = n
  cases hp with simp only at hlow hhigh hn
  | @two v hv hv' =>
    refine reads_char (by omega) (by omega) ?_
    rw [encodePoint_two (by omega) (by omega), tail_eq hn.symm hlow hhigh, show n / 0x40 = v by omega]
    rfl
  | @three v low high hv hl hh long plain =>
    refine ⟨rfl, ?_⟩
    have htail := tail_eq hn.symm (Nat.le_trans hl hlow) (Nat.le_trans hhigh hh)
    have hlead : n / 0x40 = v := by omega
    have htaken : [UInt8.ofNat (0xE0 + v)] ++ [b]
        = [.ofNat (0xE0 + n / 0x40), .ofNat (0x80 + n % 0x40)] := by rw [htail, hlead]; rfl
    simp only [htaken]
    exact .three' (by omega) (by omega) (by omega)
  | @three' v hv hv' plain =>
    refine reads_char (by omega) (by omega) ?_
    rw [encodePoint_three (by omega) (by omega), tail_eq hn.symm hlow hhigh,
      show n / 0x40 = v by omega, show n / 0x1000 = v / 0x40 by omega]
    rfl
  | @four v low high hv hl hh long last =>
    refine ⟨rfl, ?_⟩
    have htail := tail_eq hn.symm (Nat.le_trans hl hlow) (Nat.le_trans hhigh hh)
    have hlead : n / 0x40 = v := by omega
    have htaken : [UInt8.ofNat (0xF0 + v)] ++ [b]
        = [.ofNat (0xF0 + n / 0x40), .ofNat (0x80 + n % 0x40)] := by rw [htail, hlead]; rfl
    simp only [htaken]
    exact .four' (by omega) (by omega)
  | @four' v hv hv' =>
    refine ⟨rfl, ?_⟩
    have hlead : n / 0x40 = v := by omega
    have htaken : [UInt8.ofNat (0xF0 + v / 0x40), .ofNat (0x80 + v % 0x40)] ++ [b]
        = [.ofNat (0xF0 + n / 0x1000), .ofNat (0x80 + n / 0x40 % 0x40),
          .ofNat (0x80 + n % 0x40)] := by
      rw [tail_eq hn.symm hlow hhigh, hlead, show n / 0x1000 = v / 0x40 by omega]
      rfl
    simp only [htaken]
    exact .four'' (by omega) (by omega)
  | @four'' v hv hv' =>
    refine reads_char (by omega) (by omega) ?_
    rw [encodePoint_four (by omega) (by omega), tail_eq hn.symm hlow hhigh,
      show n / 0x40 = v by omega, show n / 0x1000 = v / 0x40 by omega,
      show n / 0x40000 = v / 0x1000 by omega]
    rfl

/-- The bytes of an unfinished character are not ASCII. -/
theorem Partial.Open.not_ascii {p : Partial} (hp : p.Open) : ∀ b ∈ p.taken, 0x80 ≤ b.toNat := by
  intro b hb
  cases hp <;> simp only [List.mem_cons, List.not_mem_nil, or_false] at hb <;>
    rcases hb with rfl | rfl | rfl <;> simp only [UInt8.toNat_ofNat'] <;> omega

/-! ## 2. Nothing is lost -/

/-- The bytes of an unfinished character, if there is one. -/
def pending : Option Partial → Bytes
  | none => []
  | some p => p.taken

/-- A byte that does not continue a character ends a broken run and starts anew. -/
theorem piecesFrom_refused {p : Partial} {b : UInt8} (bs : Bytes) (h : p.push b = none) :
    piecesFrom (some p) (b :: bs) =
      .broken .badContinuation p.taken :: piecesFrom none (b :: bs) := by
  simp only [piecesFrom, h]

/-- **The pieces hold the bytes they were cut from**, in order, after those of the character that
was unfinished before. -/
theorem piecesFrom_bytes (bs : Bytes) : ∀ (p : Option Partial), (∀ q ∈ p, q.Open) →
    (piecesFrom p bs).flatMap Piece.bytes = pending p ++ bs := by
  induction bs with
  | nil =>
    rintro (_ | p) _
    · rfl
    · rfl
  | cons b bs ih =>
    have hfresh : (piecesFrom none (b :: bs)).flatMap Piece.bytes = b :: bs := by
      have hstart := start_reads b
      simp only [piecesFrom]
      split
      · rename_i piece hs
        rw [hs] at hstart
        rw [List.flatMap_cons, hstart.1, ih none (by simp)]
        rfl
      · rename_i q hs
        rw [hs] at hstart
        rw [ih (some q) (by simpa using hstart.2)]
        simp [pending, hstart.1]
    rintro (_ | p) hp
    · exact hfresh
    · cases hpush : p.push b with
      | none =>
        rw [piecesFrom_refused bs hpush, List.flatMap_cons, hfresh]
        rfl
      | some r =>
        have hr := push_reads (hp p rfl) hpush
        simp only [piecesFrom, hpush]
        cases r with
        | inl piece =>
          rw [List.flatMap_cons, hr.1, ih none (by simp)]
          simp [pending]
        | inr q =>
          rw [ih (some q) (by simpa using hr.2)]
          simp [pending, hr.1]

/-- **Every piece is sound**: no surrogate among the characters, no ASCII in the broken runs. -/
theorem piecesFrom_sound (bs : Bytes) : ∀ (p : Option Partial), (∀ q ∈ p, q.Open) →
    ∀ piece ∈ piecesFrom p bs, piece.Sound := by
  induction bs with
  | nil =>
    rintro (_ | p) hp piece hpiece
    · cases hpiece
    · obtain rfl := List.mem_singleton.mp hpiece
      exact (hp p rfl).not_ascii
  | cons b bs ih =>
    have hfresh : ∀ piece ∈ piecesFrom none (b :: bs), piece.Sound := by
      have hstart := start_reads b
      simp only [piecesFrom]
      split
      · rename_i first hs
        rw [hs] at hstart
        exact List.forall_mem_cons.mpr ⟨hstart.2, ih none (by simp)⟩
      · rename_i q hs
        rw [hs] at hstart
        exact ih (some q) (by simpa using hstart.2)
    rintro (_ | p) hp
    · exact hfresh
    · cases hpush : p.push b with
      | none =>
        rw [piecesFrom_refused bs hpush]
        exact List.forall_mem_cons.mpr ⟨(hp p rfl).not_ascii, hfresh⟩
      | some r =>
        have hr := push_reads (hp p rfl) hpush
        simp only [piecesFrom, hpush]
        cases r with
        | inl piece => exact List.forall_mem_cons.mpr ⟨hr.2, ih none (by simp)⟩
        | inr q => exact ih (some q) (by simpa using hr.2)

theorem pieces_bytes (bs : Bytes) : (pieces bs).flatMap Piece.bytes = bs :=
  piecesFrom_bytes bs none (by simp)

theorem pieces_sound (bs : Bytes) : ∀ piece ∈ pieces bs, piece.Sound :=
  piecesFrom_sound bs none (by simp)

/-! ## 3. Key names keep their bytes -/

theorem val_escape (b : UInt8) : (escape b).val = 0xDC00 + b.toNat :=
  val_ofNat (by have := b.toNat_lt; omega)

/-- The surrogates of a broken run become its bytes again, whatever follows them. -/
theorem encodeFrom_escape {t : Text} {rest : Bytes} (ht : ∀ i, encodeFrom i t = .ok rest) :
    ∀ (bs : Bytes), (∀ b ∈ bs, 0x80 ≤ b.toNat) → ∀ i,
      encodeFrom i (bs.map escape ++ t) = .ok (bs ++ rest)
  | [], _, i => ht i
  | b :: bs, h, i => by
    have hb : 0x80 ≤ b.toNat := h b List.mem_cons_self
    have hb' : b.toNat < 256 := b.toNat_lt
    have hescape : isEscape (escape b) = true := by
      simp only [isEscape, val_escape, Bool.and_eq_true, decide_eq_true_eq]
      omega
    rw [List.map_cons, List.cons_append, encodeFrom, if_pos hescape,
      encodeFrom_escape ht bs (fun c hc => h c (List.mem_cons_of_mem _ hc)), val_escape,
      Nat.add_sub_cancel_left, UInt8.ofNat_toNat]
    rfl

/-- A character becomes its bytes, whatever follows it. -/
theorem encodeFrom_char {c : CodePoint} {t : Text} {rest : Bytes} (hc : c.isSurrogate = false)
    (ht : ∀ i, encodeFrom i t = .ok rest) (i : Nat) :
    encodeFrom i (c :: t) = .ok (encodePoint c ++ rest) := by
  have hplain : isEscape c = false := by
    simp only [CodePoint.isSurrogate, isEscape, Bool.and_eq_false_iff,
      decide_eq_false_iff_not] at hc ⊢
    omega
  rw [encodeFrom, hplain, hc, if_neg Bool.false_ne_true, if_neg Bool.false_ne_true, ht]
  rfl

theorem encodeFrom_pieces : ∀ (ps : List Piece), (∀ p ∈ ps, p.Sound) → ∀ i,
    encodeFrom i (ps.flatMap Piece.escaped) = .ok (ps.flatMap Piece.bytes)
  | [], _, _ => rfl
  | .char c :: ps, h, i =>
    encodeFrom_char (h (.char c) List.mem_cons_self)
      (encodeFrom_pieces ps fun p hp => h p (List.mem_cons_of_mem _ hp)) i
  | .broken fault bs :: ps, h, i =>
    encodeFrom_escape (encodeFrom_pieces ps fun p hp => h p (List.mem_cons_of_mem _ hp)) bs
      (h (.broken fault bs) List.mem_cons_self) i

/-- **A decoded key name encodes to the bytes it was decoded from**, whatever these are. -/
theorem encodeEscaped_decodeEscaped (bs : Bytes) : encodeEscaped (decodeEscaped bs) = .ok bs := by
  rw [encodeEscaped, decodeEscaped, encodeFrom_pieces _ (pieces_sound bs), pieces_bytes]

/-- Different byte strings have different names. -/
theorem decodeEscaped_injective : Function.Injective decodeEscaped := by
  intro a b h
  have hab : (Except.ok a : Except EncodeError Bytes) = .ok b := by
    rw [← encodeEscaped_decodeEscaped a, h, encodeEscaped_decodeEscaped]
  exact Except.ok.inj hab

end Utf8

/-- The name of a key on the server can be sent back. -/
theorem encodeKey_decodeEscaped (bs : Bytes) : encodeKey (Utf8.decodeEscaped bs) = .ok bs := by
  rw [encodeKey, Utf8.encodeEscaped_decodeEscaped]

end Keyscope
