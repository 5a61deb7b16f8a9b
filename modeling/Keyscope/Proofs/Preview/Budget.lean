/-
# Honest cuts

A payload that is longer than the budget is cut, and a mark says how many characters were left out.
What was kept and the number in the mark can be read back from what is stored, because the number
stands between the last two blanks (`append_cutMark_inj`).

Within a budget that is not negative the mark tells the truth (`honest_clip`).  A negative budget is a
position that counts from the end, so characters may be kept where none should be.  It is taken from
the length all the same, and the mark counts more characters than there are.  So nothing that is stored
within a negative budget is honest (`not_honest_clip`).
-/
import Keyscope.Proofs.Keyspace.Stages
import Keyscope.Proofs.Preview.Legible

namespace Keyscope

namespace Preview

variable {budget : Int}

/-! ## 1. Reading a mark back -/

theorem append_cutMark_natCast (kept : Text) (n : Nat) :
    kept ++ cutMark n = kept ++ "\n...[truncated " ++ Decimal.ofNat n ++ " chars]" :=
  append_cutMark kept n

/-- The number is what stands between the last two blanks. -/
theorem reverse_append_cutMark (kept : Text) (n : Nat) :
    (kept ++ cutMark n).reverse =
      (" chars]" : Text).reverse ++ ((Decimal.ofNat n).reverse ++
        (' ' : CodePoint) :: (kept ++ ("\n...[truncated" : Text)).reverse) := by
  have hmark : cutMark n =
      ("\n...[truncated" : Text) ++ ((' ' : CodePoint) :: (Decimal.ofNat n ++ (" chars]" : Text))) := rfl
  rw [hmark]
  simp only [List.reverse_append, List.reverse_cons, List.append_assoc, List.cons_append, List.nil_append]

/-- **A text that ends in a mark tells what was kept and how many characters were left out.** -/
theorem append_cutMark_inj {a b : Text} {m n : Nat} (h : a ++ cutMark m = b ++ cutMark n) :
    a = b ∧ m = n := by
  have hblank : ∀ k : Nat, (' ' : CodePoint) ∉ (Decimal.ofNat k).reverse := fun k hc =>
    absurd (Decimal.isAsciiDigit_of_mem_ofNat (List.mem_reverse.mp hc)) (by decide)
  have hreverse := congrArg List.reverse h
  rw [reverse_append_cutMark, reverse_append_cutMark, List.append_cancel_left_eq] at hreverse
  have hsplit := congrArg (Text.splitFirst ' ') hreverse
  rw [Text.splitFirst_append (hblank m), Text.splitFirst_append (hblank n)] at hsplit
  have hnumber : m = n := Decimal.ofNat_injective (List.reverse_injective (Prod.mk.inj hsplit).1)
  subst hnumber
  exact ⟨List.append_cancel_right h, rfl⟩

/-! ## 2. What is stored -/

/-- **What is stored of a text is honest**: it is the text, which is within the budget, or a part from the
beginning that is, and the number of all characters that follow it. -/
def Honest (budget : Int) (t stored : Text) : Prop :=
  (stored = t ∧ (t.length : Int) ≤ budget) ∨
  ∃ kept rest : Text, t = kept ++ rest ∧ (kept.length : Int) ≤ max 0 budget ∧
    stored = kept ++ "\n...[truncated " ++ Decimal.ofNat rest.length ++ " chars]"

theorem honest_cut {kept rest : Text} (h : (kept.length : Int) ≤ max 0 budget) :
    Honest budget (kept ++ rest) (kept ++ cutMark rest.length) :=
  .inr ⟨kept, rest, rfl, h, append_cutMark_natCast kept rest.length⟩

/-- **A budget that is not negative is kept**, and the mark counts what was left out. -/
theorem honest_clip (hbudget : 0 ≤ budget) (t : Text) : Honest budget t (clip budget t) := by
  obtain ⟨n, rfl⟩ := Int.eq_ofNat_of_zero_le hbudget
  by_cases hfits : t.length ≤ n
  · have hwhole : (t.length : Int) ≤ n := Int.ofNat_le.mpr hfits
    exact .inl ⟨if_pos hwhole, hwhole⟩
  · have hkept : ((t.take n).length : Int) ≤ max 0 (n : Int) := by
      rw [List.length_take]
      omega
    have hcut : Honest n (t.take n ++ t.drop n) (t.take n ++ cutMark (t.drop n).length) := honest_cut hkept
    rw [List.take_append_drop] at hcut
    rw [clip_of_lt (Nat.lt_of_not_le hfits)]
    exact hcut

/-- With a negative budget so many characters are cut off at the end, and the mark counts these and all
characters of the text. -/
theorem clip_negative (k : Nat) (t : Text) :
    clip (-(k + 1)) t = t.take (t.length - (k + 1)) ++ cutMark (t.length + (k + 1) : Nat) := by
  have hkept : ((t.length : Int) + -(k + 1)).toNat = t.length - (k + 1) := by omega
  have helided : (t.length : Int) - -(k + 1) = (t.length + (k + 1) : Nat) := by omega
  rw [clip, if_neg (by omega), upTo, if_pos (by omega), hkept, helided]

/-- **A negative budget is never kept**: nothing may be kept then, so all characters are left out, and the
mark counts more than these. -/
theorem not_honest_clip (hbudget : budget < 0) (t : Text) : ¬ Honest budget t (clip budget t) := by
  obtain ⟨k, rfl⟩ := Int.eq_negSucc_of_lt_zero hbudget
  rw [Int.negSucc_eq, clip_negative]
  rintro (⟨-, hlength⟩ | ⟨kept, rest, rfl, hkept, hstored⟩)
  · omega
  · have hcount := (append_cutMark_inj (hstored.trans (append_cutMark_natCast kept rest.length).symm)).2
    rw [List.length_append] at hcount
    omega

theorem honest_clip_iff (t : Text) : Honest budget t (clip budget t) ↔ 0 ≤ budget := by
  refine ⟨fun h => ?_, fun h => honest_clip h t⟩
  by_contra hnegative
  exact not_honest_clip (by omega) t h

end Preview

/-! ## 3. Records -/

/-- **A payload is stored honestly if and only if the budget is not negative.**  Something is stored for
every text and whatever whole number the budget is. -/
theorem Record.fill_honest_iff (budget : Int) (r : Record) (f : Finding) :
    ∃ r', fill (.int budget) r f = .ok r' ∧
      (Preview.Honest budget f.preview.payload r'.payload ↔ 0 ≤ budget) :=
  ⟨r.filled budget f, fill_int budget r f, Preview.honest_clip_iff f.preview.payload⟩

/-- A text of six characters and a budget of minus two: four characters are kept, and eight are said to be
left out. -/
theorem Record.fill_negative :
    ∃ r', fill (.int (-2)) ⟨"src", "k", "string", -1, 0, []⟩ ⟨⟨"abcdef", 1⟩, false⟩ = .ok r' ∧
      r'.payload = ("abcd\n...[truncated 8 chars]" : Text) ∧
      ¬ Preview.Honest (-2) "abcdef" r'.payload :=
  ⟨_, rfl, by decide, Preview.not_honest_clip (by decide) "abcdef"⟩

namespace Payload

/-- **Whatever a server answers**, a record of a key that is wanted comes back with an honest payload for
what was found if and only if the budget is not negative. -/
theorem materialize_honest_iff {σ : Type} {server : Server σ} {budget : Int} {infos : List KeyInfo}
    {records shown : List Record} (hnodup : (infos.map (·.key)).Nodup)
    (hnames : ∀ info ∈ infos, ∃ bs, encodeKey info.key = .ok bs) {s next : σ}
    (h : (materialize server (.int budget) infos records).run s = (.ok shown, next)) :
    ∃ outcomes, List.Forall₂ (fun r r' => ∀ info ∈ wanted records infos, info.key = r.key →
      ∃ f, finding outcomes (wanted records infos) info = .ok f ∧
        (Preview.Honest budget f.preview.payload r'.payload ↔ 0 ≤ budget)) records shown := by
  obtain ⟨outcomes, -, hfills⟩ := materialize_fills hnodup hnames h
  refine ⟨outcomes, hfills.imp fun r r' hfill info hinfo hkey => ?_⟩
  obtain ⟨f, hf, hr'⟩ := hfill info hinfo hkey
  obtain rfl := Except.ok.inj ((Record.fill_int budget r f).symm.trans hr')
  exact ⟨f, hf, Preview.honest_clip_iff _⟩

end Payload

end Keyscope
