/-
# When a sweep says that there is more

A sweep that is full says that there is more if its page goes on behind the key that filled it, or if
there is another page.  With the last page that is a guess: a name behind that key may be one that has
arrived before, and then nothing is left out.

Two numbers of arrivals say what the guess is worth on the page with the cursor zero.  The sweep says
that there is more if the keys that it may take have arrived before the last name of the page
(`Ends.truncated_iff`).  Something is left out if more keys arrive than it may take
(`Ends.missing_iff`).  One name brings at most one key, so what is left out is always told; what is
told is wrong only where the two numbers meet (`run_flag`).
-/
import Keyscope.Proofs.Keyspace.Arrivals

namespace Keyscope

namespace Scan

variable {σ : Type}

/-! ## 1. Numbers of arrivals -/

/-- More names bring no fewer keys. -/
theorem length_arrivals_le (a b : List Bytes) :
    (arrivals a).length ≤ (arrivals (a ++ b)).length := by
  rw [arrivals_append, List.length_append]
  exact Nat.le_add_right _ _

/-- Names bring a new key if and only if one of them has not arrived before. -/
theorem length_lt_arrivals {a b : List Bytes} :
    (arrivals a).length < (arrivals (a ++ b)).length ↔
      ∃ name ∈ b, Utf8.decodeEscaped name ∉ arrivals a := by
  rw [arrivals_append, List.length_append, Nat.lt_add_right_iff_pos, List.length_pos_iff_exists_mem]
  simp only [fresh, List.mem_eraseDups, List.removeAll, List.mem_filter, List.mem_map,
    Bool.not_eq_true', List.elem_eq_mem, decide_eq_false_iff_not]
  constructor
  · rintro ⟨key, ⟨name, hname, rfl⟩, hnew⟩
    exact ⟨name, hname, hnew⟩
  · rintro ⟨name, hname, hnew⟩
    exact ⟨_, ⟨name, hname, rfl⟩, hnew⟩

/-- One name brings at most one key. -/
theorem length_arrivals_concat (a : List Bytes) (name : Bytes) :
    (arrivals (a ++ [name])).length ≤ (arrivals a).length + 1 := by
  rw [arrivals_append, List.length_append]
  have h : (fresh (arrivals a) [name]).length ≤ [name].length := by
    by_cases hseen : Utf8.decodeEscaped name ∈ arrivals a
    · rw [fresh_seen hseen]
      exact Nat.zero_le _
    · rw [fresh_new hseen]
      exact Nat.le_refl _
  exact Nat.add_le_add_left h _

theorem length_arrivals_dropLast_le (a b : List Bytes) :
    (arrivals (a ++ b.dropLast)).length ≤ (arrivals (a ++ b)).length := by
  rcases List.eq_nil_or_concat b with rfl | ⟨front, name, rfl⟩
  · exact Nat.le_refl _
  · rw [List.concat_eq_append, List.dropLast_concat, ← List.append_assoc]
    exact length_arrivals_le _ _

/-- A page brings at most one key more than it does without its last name. -/
theorem length_arrivals_le_dropLast (a b : List Bytes) :
    (arrivals (a ++ b)).length ≤ (arrivals (a ++ b.dropLast)).length + 1 := by
  rcases List.eq_nil_or_concat b with rfl | ⟨front, name, rfl⟩
  · exact Nat.le_succ _
  · rw [List.concat_eq_append, List.dropLast_concat, ← List.append_assoc]
    exact length_arrivals_concat _ _

/-! ## 2. The page with the cursor zero -/

variable {most : Nat} {names : List Bytes} {p : Page} {scan : Scan}

/-- **The sweep says that there is more** if all keys that there is room for arrive before the last
name of the page. -/
theorem Ends.truncated_iff (h : Ends most names (.ok p) (.ok scan)) (hcursor : p.cursor = 0) :
    scan.truncated = true ↔ most ≤ (arrivals (names ++ p.names.dropLast)).length := by
  cases h with
  | lastPage _ hroom =>
    have hfront := length_arrivals_dropLast_le names p.names
    simp only [ofArrivals, Bool.false_eq_true, false_iff]
    omega
  | @full _ before name after hnames hroom hfull =>
    have hflag : (ofArrivals (names ++ (before ++ [name])) (!after.isEmpty || p.cursor != 0)).truncated
        = !after.isEmpty := by
      simp [ofArrivals, hcursor]
    rw [hflag, hnames]
    rcases List.eq_nil_or_concat after with rfl | ⟨front, last, rfl⟩
    · rw [List.dropLast_concat]
      simp only [List.isEmpty_nil, Bool.not_true, Bool.false_eq_true, false_iff]
      omega
    · have hdrop : (before ++ name :: front.concat last).dropLast = before ++ [name] ++ front := by
        rw [List.concat_eq_append, ← List.cons_append, ← List.append_assoc, List.dropLast_concat]
        simp
      rw [hdrop, ← List.append_assoc names, ← hfull]
      refine iff_of_true ?_ (length_arrivals_le _ _)
      simp

/-- **Something is left out** if more keys arrive than there is room for. -/
theorem Ends.missing_iff (h : Ends most names (.ok p) (.ok scan)) :
    (∃ name ∈ p.names, Utf8.decodeEscaped name ∉ scan.keys) ↔
      most < (arrivals (names ++ p.names)).length := by
  have hkeys : ∀ {a : List Bytes} {truncated : Bool} {key : Text},
      key ∈ (ofArrivals a truncated).keys ↔ key ∈ arrivals a := Text.mem_sort
  cases h with
  | lastPage _ hroom =>
    simp only [hkeys, mem_arrivals]
    constructor
    · rintro ⟨name, hname, hnone⟩
      exact absurd ⟨name, List.mem_append_right _ hname, rfl⟩ hnone
    · intro h
      omega
  | @full _ before name after hnames hroom hfull =>
    have hall : names ++ p.names = names ++ (before ++ [name]) ++ after := by
      rw [hnames]
      simp
    rw [hall, ← hfull, length_lt_arrivals]
    simp only [hkeys]
    constructor
    · rintro ⟨n, hn, hnew⟩
      refine ⟨n, ?_, hnew⟩
      -- the names up to the one that fills the sweep are taken
      by_contra hafter
      refine hnew (mem_arrivals.mpr ⟨n, List.mem_append_right _ ?_, rfl⟩)
      rw [hnames] at hn
      simp only [List.mem_append, List.mem_cons] at hn ⊢
      tauto
    · rintro ⟨n, hn, hnew⟩
      refine ⟨n, ?_, hnew⟩
      rw [hnames]
      exact List.mem_append_right _ (List.mem_cons_of_mem _ hn)

/-! ## 3. A whole sweep -/

/-- **What a sweep says of a server that has nothing more to send.**  The replies of a server may be
any pages and failures, as long as one of them is a failure or a page with the cursor zero, and at
least one key may be taken.  A sweep asks for the pages one after the other.  If the last one that it
asked for has the cursor zero, then a key of that page is missing among the keys that come back only
if the sweep says that there is more.  It says so for no other reason, unless exactly as many keys
have arrived as may be taken, and all of them before the last name of the page. -/
theorem run_flag {server : Server σ} {size : Value} {most : Int} (hmost : 1 ≤ most)
    {replies : List (Except Failure Page)} {s : σ} (hreplies : server.Replies size 0 replies s)
    (hends : ∃ r ∈ replies, ∀ p, r = .ok p → p.cursor = 0) {rounds : Nat}
    (hrounds : replies.length ≤ rounds) (sent : List Request) :
    ∃ limits, Scan.limits (.int most) size = .ok limits ∧ ∃ pages last rest outcome next,
      replies = pages.map .ok ++ last :: rest ∧
      (run server.recorded limits rounds).run (s, sent) =
        (outcome, next, (requests size 0 pages).reverse ++ sent) ∧
      ∀ p, last = .ok p → p.cursor = 0 → ∃ scan, outcome = .ok (some scan) ∧
        ((∃ name ∈ p.names, Utf8.decodeEscaped name ∉ scan.keys) → scan.truncated = true) ∧
        ((scan.truncated = true ↔ ∃ name ∈ p.names, Utf8.decodeEscaped name ∉ scan.keys) ↔
          ¬ (((arrivals (namesOf pages ++ p.names)).length : Int) = most ∧
            ((arrivals (namesOf pages ++ p.names.dropLast)).length : Int) = most)) := by
  obtain ⟨n, rfl⟩ : ∃ n : Nat, most = n := ⟨most.toNat, by omega⟩
  refine ⟨_, limits_pos hmost size, ?_⟩
  obtain ⟨pages, last, rest, result, next, rfl, -, -, hend, hrun⟩ :=
    resume_replies rounds hreplies hends hrounds
      (show (arrivals ([] : List Bytes)).length < n from by exact_mod_cast hmost) sent
  refine ⟨pages, last, rest, result.map some, next, rfl, hrun, ?_⟩
  rw [List.nil_append] at hend
  rintro p rfl hcursor
  cases result with
  | error e => cases hend
  | ok scan =>
    have htruncated := hend.truncated_iff hcursor
    have hmissing := hend.missing_iff
    have hless := length_arrivals_dropLast_le (namesOf pages) p.names
    have hone := length_arrivals_le_dropLast (namesOf pages) p.names
    refine ⟨scan, rfl, fun h => ?_, ?_⟩
    · have hmore := hmissing.mp h
      exact htruncated.mpr (by omega)
    · rw [htruncated, hmissing]
      omega

/-- A page that goes on behind the third key that arrives on it. -/
def overfull : Page := ⟨0, [[98], [97], [98], [99], [100]]⟩

/-- The last key is missing, and the sweep says that there is more. -/
theorem run_overfull :
    ∃ limits, Scan.limits (.int 3) (.int 5) = .ok limits ∧ ∃ scan next,
      (run Server.scripted.recorded limits 1).run ([.ok overfull], []) =
        (.ok (some scan), next, [.scan 0 (.int 5)]) ∧
      scan.truncated = true ∧ ∃ name ∈ overfull.names, Utf8.decodeEscaped name ∉ scan.keys := by
  obtain ⟨limits, hlimits, pages, last, rest, outcome, next, hsplit, hrun, hlast⟩ :=
    run_flag (show (1 : Int) ≤ 3 by decide) (Server.replies_scripted (.int 5) 0 [.ok overfull])
      ⟨.ok overfull, List.mem_singleton.mpr rfl, fun p hp => by cases hp; rfl⟩ (Nat.le_refl 1) []
  obtain ⟨rfl, rfl⟩ : pages = [] ∧ last = .ok overfull := by
    cases pages with
    | nil => exact ⟨rfl, (List.cons.inj hsplit).1.symm⟩
    | cons p pages =>
      have hlength := congrArg List.length hsplit
      simp at hlength
  obtain ⟨scan, rfl, -, hexact⟩ := hlast overfull rfl rfl
  have htruncated : scan.truncated = true := by
    obtain rfl : _ = limits := Except.ok.inj ((limits_pos (by decide) _).symm.trans hlimits)
    have hscan := congrArg (fun r => r.1.toOption.join.any Scan.truncated) hrun
    exact hscan.symm.trans (by decide +kernel)
  exact ⟨limits, hlimits, scan, next, hrun, htruncated,
    (hexact.mpr (by decide +kernel)).mp htruncated⟩

/-- **A sweep that may take two keys says that there is more, though both keys come back**: one of
them is sent again behind the other. -/
theorem run_again :
    ∃ limits, Scan.limits (.int 2) (.int 500) = .ok limits ∧
      (run Server.scripted.recorded limits 1).run ([.ok ⟨0, [[97], [98], [97]]⟩], []) =
        (.ok (some ⟨["a", "b"], true⟩), [], [.scan 0 (.int 500)]) ∧
      ∀ name ∈ ([[97], [98], [97]] : List Bytes),
        Utf8.decodeEscaped name ∈ (["a", "b"] : List Text) := by
  have hsorted : Text.sort ["b", "a"] = (["a", "b"] : List Text) :=
    (Text.sort_congr (.swap _ _ _)).trans (List.mergeSort_of_pairwise (by decide +kernel))
  refine ⟨_, rfl, ?_, by decide +kernel⟩
  rw [← hsorted]
  rfl

end Scan

end Keyscope
