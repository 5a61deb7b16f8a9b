/-
# Keys in order of arrival

The pages of a server come one after the other, may be empty, and may repeat keys.  What a sweep
makes of them depends on the keys in order of their first arrival (`arrivals`) and on two things
that end it: a page with the cursor zero, and the page on which the last key arrives that there is
room for.

Between two pages a sweep is nothing but these arrivals and the room that they leave
(`Sweep.reading`).  Section 2 says what one page makes of that, case by case (`absorb_reading`), and
section 3 follows a whole sweep along the replies that it gets, failures among them
(`resume_replies`): it asks for each page with the cursor of the one before and for none too many.
What it returns is the first arrivals, sorted (`run_arrivals`).
-/
import Keyscope.Proofs.Classes
import Keyscope.Proofs.Keyspace.Sweep

namespace Keyscope

variable {σ : Type}

/-- A page of keys, and the cursor for the next one. -/
structure Page where
  cursor : Int
  names : List Bytes
  deriving DecidableEq, Repr

/-- **The replies of a server to a sweep**: what it answers to a request for a page at a cursor, then
to one at the cursor of that page, and so on.  Each of them is a page, or a failure; what is asked
of the server after a failure does not matter. -/
inductive Server.Replies (server : Server σ) (size : Value) :
    Int → List (Except Failure Page) → σ → Prop
  | nil {cursor : Int} {s : σ} : Replies server size cursor [] s
  | page {cursor : Int} {p : Page} {rest : List (Except Failure Page)} {s next : σ} {reply : Value}
    (hreply : server (.scan cursor size) s = (.ok reply, next))
    (hpage : Scan.Sweep.parts reply = .ok (p.cursor, p.names.map .bytes))
    (hrest : Replies server size p.cursor rest next) :
    Replies server size cursor (.ok p :: rest) s
  | failure {cursor : Int} {e : Failure} {rest : List (Except Failure Page)} {s next : σ}
    (hreply : server (.scan cursor size) s = (.error e, next)) :
    Replies server size cursor (.error e :: rest) s

/-- A server that replies with these pages and failures, one after the other, whatever the cursor. -/
def Server.scripted : Server (List (Except Failure Page)) := fun r replies =>
  match r, replies with
  | .scan _ _, .ok p :: rest => (.ok (.tuple [.int p.cursor, .list (p.names.map .bytes)]), rest)
  | .scan _ _, .error e :: rest => (.error e, rest)
  | _, _ => (.ok .null, replies)

/-- Any pages and failures are the replies of some server. -/
theorem Server.replies_scripted (size : Value) : ∀ (cursor : Int)
    (replies : List (Except Failure Page)), scripted.Replies size cursor replies replies
  | _, [] => .nil
  | _, .ok p :: rest => .page rfl rfl (replies_scripted size p.cursor rest)
  | _, .error _ :: _ => .failure rfl

namespace Scan

/-! ## 1. Arrivals -/

/-- The keys of names in the order in which each of them arrives first. -/
def arrivals (names : List Bytes) : List Text := (names.map Utf8.decodeEscaped).eraseDups

/-- The keys among them that have not been seen before. -/
def fresh (seen : List Text) (names : List Bytes) : List Text :=
  ((names.map Utf8.decodeEscaped).removeAll seen).eraseDups

theorem nodup_arrivals (names : List Bytes) : (arrivals names).Nodup := nodup_eraseDups _

theorem mem_arrivals {key : Text} {names : List Bytes} :
    key ∈ arrivals names ↔ ∃ name ∈ names, Utf8.decodeEscaped name = key := by
  rw [arrivals, List.mem_eraseDups, List.mem_map]

/-- What arrives later comes behind what was there before. -/
theorem arrivals_append (a b : List Bytes) :
    arrivals (a ++ b) = arrivals a ++ fresh (arrivals a) b := by
  have hseen : (b.map Utf8.decodeEscaped).removeAll (a.map Utf8.decodeEscaped) =
      (b.map Utf8.decodeEscaped).removeAll (arrivals a) := by
    refine List.filter_congr fun key _ => ?_
    rw [Bool.eq_iff_iff]
    simp [arrivals, List.mem_eraseDups]
  rw [arrivals, List.map_append, List.eraseDups_append, hseen]
  rfl

theorem fresh_seen {seen : List Text} {name : Bytes} (h : Utf8.decodeEscaped name ∈ seen)
    (names : List Bytes) : fresh seen (name :: names) = fresh seen names := by
  rw [fresh, List.map_cons, List.cons_removeAll, if_neg (by simpa using h)]
  rfl

theorem fresh_new {seen : List Text} {name : Bytes} (h : Utf8.decodeEscaped name ∉ seen)
    (names : List Bytes) :
    fresh seen (name :: names) =
      Utf8.decodeEscaped name :: fresh (Utf8.decodeEscaped name :: seen) names := by
  have hrest : ((names.map Utf8.decodeEscaped).removeAll seen).filter
        (fun key => !key == Utf8.decodeEscaped name) =
      (names.map Utf8.decodeEscaped).removeAll (Utf8.decodeEscaped name :: seen) := by
    rw [List.removeAll, List.removeAll, List.filter_filter]
    refine List.filter_congr fun key _ => ?_
    rw [List.elem_cons]
    cases key == Utf8.decodeEscaped name <;> rfl
  rw [fresh, List.map_cons, List.cons_removeAll, if_pos (by simpa using h), List.eraseDups_cons,
    hrest]
  rfl

/-! ## 2. One page -/

/-- **What a page makes of the keys that were seen.**  All new keys of the page are taken if that
leaves room, and otherwise those up to the one that leaves none. -/
theorem collect_names : ∀ (names : List Bytes) (seen : List Text) {room : Nat}, 0 < room →
    ((fresh seen names).length < room ∧
      collect (some room) seen (names.map .bytes) =
        .ok (some (room - (fresh seen names).length), (fresh seen names).reverse ++ seen, none)) ∨
    ∃ before name after, names = before ++ name :: after ∧
      (fresh seen before).length < room ∧ (fresh seen (before ++ [name])).length = room ∧
      collect (some room) seen (names.map .bytes) =
        .ok (some 0, (fresh seen (before ++ [name])).reverse ++ seen, some (after.map .bytes))
  | [], seen, room, hroom => .inl ⟨hroom, rfl⟩
  | name :: names, seen, room, hroom => by
    rw [List.map_cons, collect,
      show (Value.bytes name).keyName = .ok (Utf8.decodeEscaped name) from rfl]
    simp only
    by_cases hseen : Utf8.decodeEscaped name ∈ seen
    · rw [if_pos (by simpa using hseen), fresh_seen hseen]
      rcases collect_names names seen hroom with h | ⟨before, last, after, rfl, hbefore, hlast, h⟩
      · exact .inl h
      · exact .inr ⟨name :: before, last, after, rfl, by rwa [fresh_seen hseen],
          by rwa [List.cons_append, fresh_seen hseen], by rwa [List.cons_append, fresh_seen hseen]⟩
    rw [if_neg (by simpa using hseen), fresh_new hseen]
    by_cases hone : room ≤ 1
    · obtain rfl : room = 1 := by omega
      rw [if_pos (by simp)]
      refine .inr ⟨[], name, names, rfl, Nat.one_pos, ?_, ?_⟩
      · rw [List.nil_append, fresh_new hseen]
        rfl
      · rw [List.nil_append, fresh_new hseen]
        rfl
    · rw [if_neg (by simpa using hone), Option.map_some, List.length_cons]
      rcases collect_names names (Utf8.decodeEscaped name :: seen)
        (show 0 < room - 1 by omega) with ⟨hfit, h⟩ | ⟨before, last, after, rfl, hbefore, hlast, h⟩
      · refine .inl ⟨by omega, ?_⟩
        rw [h, Nat.sub_sub, Nat.add_comm 1, List.reverse_cons, List.append_assoc]
        rfl
      · refine .inr ⟨name :: before, last, after, rfl, ?_, ?_, ?_⟩
        · rw [fresh_new hseen, List.length_cons]
          omega
        · rw [List.cons_append, fresh_new hseen, List.length_cons]
          omega
        · rw [h, List.cons_append, fresh_new hseen, List.reverse_cons, List.append_assoc]
          rfl

/-- The sweep that has read some names and goes on at a cursor. -/
def Sweep.reading (most : Nat) (cursor : Int) (names : List Bytes) : Sweep :=
  ⟨cursor, some (most - (arrivals names).length), (arrivals names).reverse⟩

/-- The result of a sweep that has read some names and ends there. -/
def ofArrivals (names : List Bytes) (truncated : Bool) : Scan :=
  ⟨Text.sort (arrivals names), truncated⟩

theorem ofSeen_reverse (names : List Bytes) (truncated : Bool) :
    ofSeen (arrivals names).reverse truncated = ofArrivals names truncated := by
  rw [ofSeen, ofArrivals, Text.sort_congr (List.reverse_perm _)]

/-- How a sweep that has read some names ends with a reply. -/
inductive Ends (most : Nat) (names : List Bytes) : Except Failure Page → Except Failure Scan → Prop
  /-- The failure of the server is that of the sweep. -/
  | failure (e : Failure) : Ends most names (.error e) (.error e)
  /-- The last page, and there was room for all of it. -/
  | lastPage {p : Page} (hcursor : p.cursor = 0)
    (hroom : (arrivals (names ++ p.names)).length < most) :
    Ends most names (.ok p) (.ok (ofArrivals (names ++ p.names) false))
  /-- A page with the last key that there is room for.  Then there is more if something comes behind
  that key, or if there is another page. -/
  | full {p : Page} {before : List Bytes} {name : Bytes} {after : List Bytes}
    (hnames : p.names = before ++ name :: after)
    (hroom : (arrivals (names ++ before)).length < most)
    (hfull : (arrivals (names ++ (before ++ [name]))).length = most) :
    Ends most names (.ok p)
      (.ok (ofArrivals (names ++ (before ++ [name])) (!after.isEmpty || p.cursor != 0)))

/-- **What one page makes of a sweep**: it goes on at the cursor of the page, with the names of the
page, or it ends there. -/
theorem absorb_reading {most : Nat} {cursor : Int} {names : List Bytes} {p : Page} {reply : Value}
    (hroom : (arrivals names).length < most)
    (hpage : Sweep.parts reply = .ok (p.cursor, p.names.map .bytes)) :
    (p.cursor ≠ 0 ∧ (arrivals (names ++ p.names)).length < most ∧
      (Sweep.reading most cursor names).absorb reply =
        .ok (.inl (Sweep.reading most p.cursor (names ++ p.names)))) ∨
    ∃ scan, (Sweep.reading most cursor names).absorb reply = .ok (.inr scan) ∧
      Ends most names (.ok p) (.ok scan) := by
  have hsame : ∀ key, key ∈ (arrivals names).reverse ↔ key ∈ arrivals names := by simp
  have hfresh : ∀ more, fresh (arrivals names).reverse more = fresh (arrivals names) more := by
    intro more
    rw [fresh, fresh, List.removeAll, List.removeAll]
    refine congrArg List.eraseDups (List.filter_congr fun key _ => ?_)
    rw [Bool.eq_iff_iff]
    simp
  have hlength : ∀ more, (arrivals (names ++ more)).length =
      (arrivals names).length + (fresh (arrivals names).reverse more).length := by
    intro more
    rw [arrivals_append, List.length_append, hfresh]
  have hseen : ∀ more, (fresh (arrivals names).reverse more).reverse ++ (arrivals names).reverse =
      (arrivals (names ++ more)).reverse := by
    intro more
    rw [arrivals_append, List.reverse_append, hfresh]
  simp only [Sweep.absorb, Sweep.reading, hpage]
  rcases collect_names p.names (arrivals names).reverse
    (show 0 < most - (arrivals names).length by omega) with
    ⟨hfit, h⟩ | ⟨before, name, after, hnames, hbefore, hname, h⟩
  · have hroom' : (arrivals (names ++ p.names)).length < most := by
      rw [hlength]
      omega
    rw [h, hseen, Nat.sub_sub, ← hlength]
    by_cases hcursor : p.cursor = 0
    · simp only [if_pos hcursor, ofSeen_reverse]
      exact .inr ⟨_, rfl, .lastPage hcursor hroom'⟩
    · exact .inl ⟨hcursor, hroom', if_neg hcursor⟩
  · rw [h, hseen]
    simp only [ofSeen_reverse, List.isEmpty_map]
    refine .inr ⟨_, rfl, .full hnames ?_ ?_⟩
    · rw [hlength]
      omega
    · rw [hlength]
      omega

/-! ## 3. A whole sweep -/

/-- The names on pages. -/
def namesOf (pages : List Page) : List Bytes := pages.flatMap Page.names

/-- The requests of a sweep that starts at a cursor and reads some pages: each page is asked for at
the cursor of the one before. -/
def requests (size : Value) (cursor : Int) (pages : List Page) : List Request :=
  (cursor :: pages.map Page.cursor).map fun c => .scan c size

/-- **The course of a sweep** from any point on.  It reads pages as long as none of them is the last
one and there is room, and ends with the reply behind them. -/
theorem resume_replies {server : Server σ} {size : Value} {most : Nat} :
    ∀ (rounds : Nat) {cursor : Int} {replies : List (Except Failure Page)} {s : σ}
      {names : List Bytes}, server.Replies size cursor replies s →
      (∃ r ∈ replies, ∀ p, r = .ok p → p.cursor = 0) → replies.length ≤ rounds →
      (arrivals names).length < most → ∀ sent : List Request,
      ∃ pages last rest result next,
        replies = pages.map .ok ++ last :: rest ∧ (∀ p ∈ pages, p.cursor ≠ 0) ∧
        (arrivals (names ++ namesOf pages)).length < most ∧
        Ends most (names ++ namesOf pages) last result ∧
        (resume server.recorded size rounds (Sweep.reading most cursor names)).run (s, sent) =
          (result.map some, next, (requests size cursor pages).reverse ++ sent)
  | 0, _, replies, _, _, _, hends, hrounds, _, _ => by
    obtain ⟨r, hr, -⟩ := hends
    have hlength := List.length_pos_of_mem hr
    omega
  | rounds + 1, cursor, _, s, names, hreplies, hends, hrounds, hroom, sent => by
    cases hreplies with
    | nil =>
      obtain ⟨r, hr, -⟩ := hends
      cases hr
    | @failure _ e rest _ next hreply =>
      refine ⟨[], .error e, rest, .error e, next, rfl, by simp, by simpa [namesOf] using hroom,
        .failure e, ?_⟩
      have hask : (server.recorded.ask (.scan cursor size)).run (s, sent) =
          (.error e, next, .scan cursor size :: sent) := by
        simp only [Session.run_ask, Server.recorded, hreply]
      rw [resume]
      exact Session.run_bind_error hask _
    | @page _ p rest _ next reply hreply hpage hrest =>
      have hask : (server.recorded.ask (.scan cursor size)).run (s, sent) =
          (.ok reply, next, .scan cursor size :: sent) := by
        simp only [Session.run_ask, Server.recorded, hreply]
      have hrun : (resume server.recorded size (rounds + 1) (Sweep.reading most cursor names)).run
          (s, sent) = _ := Session.run_bind_ok hask _
      rcases absorb_reading hroom hpage with ⟨hcursor, hroom', habsorb⟩ | ⟨scan, habsorb, hend⟩
      · -- the page is not the last one, so that one is among the rest
        have hends' : ∃ r ∈ rest, ∀ q, r = .ok q → q.cursor = 0 := by
          obtain ⟨r, hr, hlast⟩ := hends
          rcases List.mem_cons.mp hr with rfl | hr
          · exact absurd (hlast p rfl) hcursor
          · exact ⟨r, hr, hlast⟩
        obtain ⟨pages, last, behind, result, after, rfl, hpages, hfit, hend, hresume⟩ :=
          resume_replies rounds hrest hends' (Nat.le_of_succ_le_succ hrounds) hroom'
            (.scan cursor size :: sent)
        have hnames : names ++ namesOf (p :: pages) = names ++ p.names ++ namesOf pages := by
          rw [List.append_assoc]
          rfl
        refine ⟨p :: pages, last, behind, result, after, rfl,
          List.forall_mem_cons.mpr ⟨hcursor, hpages⟩, by rwa [hnames], by rwa [hnames], ?_⟩
        rw [hrun, habsorb]
        refine hresume.trans ?_
        simp [requests]
      · refine ⟨[], .ok p, rest, .ok scan, next, rfl, by simp, by simpa [namesOf] using hroom,
          by simpa [namesOf] using hend, ?_⟩
        rw [hrun, habsorb]
        rfl

/-! ## 4. Limits -/

/-- A sweep may take any positive number of keys. -/
theorem limits_pos {most : Int} (h : 1 ≤ most) (size : Value) :
    Scan.limits (.int most) size = .ok ⟨some most.toNat, size⟩ := by
  have hle : (Value.int most).le (.int 0) = .ok false := by
    rw [Value.le_int rfl, Quantity.le_whole]
    exact congrArg Except.ok (decide_eq_false (by omega))
  obtain ⟨q, hq, -, hlimits⟩ := limits_of_positive hle size
  obtain rfl : .whole most = q := Option.some.inj hq
  exact hlimits

/-- The pages up to the first one with the cursor zero, or up to a failure. -/
def pagesOf : List (Except Failure Page) → List Page
  | [] => []
  | .error _ :: _ => []
  | .ok p :: rest => if p.cursor = 0 then [p] else p :: pagesOf rest

theorem pagesOf_append {pages : List Page} (h : ∀ p ∈ pages, p.cursor ≠ 0)
    (rest : List (Except Failure Page)) : pagesOf (pages.map .ok ++ rest) = pages ++ pagesOf rest := by
  induction pages with
  | nil => rfl
  | cons p pages ih =>
    rw [List.forall_mem_cons] at h
    rw [List.map_cons, List.cons_append, pagesOf, if_neg h.1, ih h.2]
    rfl

/-- The names on the pages that begin with some pages begin with their names. -/
theorem exists_namesOf {pages : List Page} (h : ∀ p ∈ pages, p.cursor ≠ 0) (p : Page)
    (rest : List (Except Failure Page)) :
    ∃ more, namesOf (pagesOf (pages.map .ok ++ .ok p :: rest)) =
      namesOf pages ++ (p.names ++ more) ∧ (p.cursor = 0 → more = []) := by
  rw [pagesOf_append h, pagesOf]
  by_cases hcursor : p.cursor = 0
  · exact ⟨[], by simp [namesOf, hcursor], fun _ => rfl⟩
  · exact ⟨namesOf (pagesOf rest), by simp [namesOf, hcursor], fun h0 => absurd h0 hcursor⟩

/-- **The result of a sweep that may take so many keys** and ended with a page, when the replies of
the server are these. -/
structure Bounded (most : Int) (replies : List (Except Failure Page)) (pages : List Page) (p : Page)
    (scan : Scan) : Prop where
  /-- The page is the last one, or a key arrives on it that leaves no room. -/
  ended : p.cursor = 0 ∨ most ≤ (arrivals (namesOf (pages ++ [p]))).length
  /-- The first keys to arrive up to the page with the cursor zero, whether or not that was read. -/
  keys : scan.keys = Text.sort ((arrivals (namesOf (pagesOf replies))).take most.toNat)
  ascending : scan.keys.Pairwise (· < ·)
  length : (scan.keys.length : Int) ≤ most
  /-- Nothing was left out: neither a page nor a key of a page. -/
  complete : scan.truncated = false → p.cursor = 0 ∧
    ∀ key, key ∈ scan.keys ↔ ∃ name ∈ namesOf (pages ++ [p]), Utf8.decodeEscaped name = key
  capped : scan.truncated = true → (scan.keys.length : Int) = most

/-- A sweep that ends with a page has the first keys to arrive. -/
theorem Ends.bounded {most : Nat} {pages : List Page} {p : Page} {rest : List (Except Failure Page)}
    {scan : Scan} (hpages : ∀ q ∈ pages, q.cursor ≠ 0)
    (h : Ends most (namesOf pages) (.ok p) (.ok scan)) :
    Bounded most (pages.map .ok ++ .ok p :: rest) pages p scan := by
  have hlast : namesOf (pages ++ [p]) = namesOf pages ++ p.names := by simp [namesOf]
  obtain ⟨more, hmore, hnone⟩ := exists_namesOf hpages p rest
  have hkeys : ∀ names, (ofArrivals names true).keys.length = (arrivals names).length := fun names =>
    (Text.sort_perm _).length_eq
  cases h with
  | lastPage hcursor hroom =>
    rw [hnone hcursor, List.append_nil] at hmore
    refine ⟨.inl hcursor, ?_, Text.sort_strict (nodup_arrivals _), ?_, fun _ => ⟨hcursor, ?_⟩,
      fun h => by cases h⟩
    · rw [hmore, Int.toNat_natCast, List.take_of_length_le hroom.le]
      rfl
    · exact_mod_cast (hkeys _).trans_le hroom.le
    · intro key
      rw [hlast, ← mem_arrivals]
      exact Text.mem_sort
  | @full _ before name after hnames hroom hfull =>
    have hall : p.names = before ++ [name] ++ after := by
      rw [hnames, List.append_assoc]
      rfl
    -- the first arrivals are the same whatever comes behind them
    have htake : ∀ behind, (arrivals (namesOf pages ++ (before ++ [name]) ++ behind)).take most =
        arrivals (namesOf pages ++ (before ++ [name])) := by
      intro behind
      rw [arrivals_append, ← hfull, List.take_left]
    refine ⟨.inr ?_, ?_, Text.sort_strict (nodup_arrivals _), ?_, fun h => ?_, fun _ => ?_⟩
    · rw [hlast, hall, ← List.append_assoc, arrivals_append, List.length_append, hfull]
      omega
    · rw [hmore, hall, Int.toNat_natCast, List.append_assoc,
        ← List.append_assoc (namesOf pages) (before ++ [name]), htake]
      rfl
    · exact_mod_cast ((hkeys _).trans hfull).le
    · obtain ⟨hafter, hcursor⟩ : after = [] ∧ p.cursor = 0 := by
        simpa [ofArrivals] using h
      refine ⟨hcursor, fun key => ?_⟩
      rw [hlast, hall, hafter, List.append_nil, ← mem_arrivals]
      exact Text.mem_sort
    · exact_mod_cast (hkeys _).trans hfull

/-- **What a sweep returns.**  The replies of a server may be any pages and failures, as long as one
of them is a failure or a page with the cursor zero, and at least one key may be taken.  Then a sweep
asks for the page at zero and for each further one at the cursor of the one before, until one fails,
has the cursor zero or leaves no room for further keys, and no more.  A failure is that of the sweep;
otherwise the sweep returns the first keys to arrive, ascending and without repetitions. -/
theorem run_arrivals {server : Server σ} {size : Value} {most : Int} (hmost : 1 ≤ most)
    {replies : List (Except Failure Page)} {s : σ} (hreplies : server.Replies size 0 replies s)
    (hends : ∃ r ∈ replies, ∀ p, r = .ok p → p.cursor = 0) {rounds : Nat}
    (hrounds : replies.length ≤ rounds) (sent : List Request) :
    ∃ limits, Scan.limits (.int most) size = .ok limits ∧ ∃ pages last rest outcome next,
      replies = pages.map .ok ++ last :: rest ∧
      (∀ p ∈ pages, p.cursor ≠ 0) ∧ ((arrivals (namesOf pages)).length : Int) < most ∧
      (run server.recorded limits rounds).run (s, sent) =
        (outcome, next, (requests size 0 pages).reverse ++ sent) ∧
      match last with
      | .error e => outcome = .error e
      | .ok p => ∃ scan, outcome = .ok (some scan) ∧ Bounded most replies pages p scan := by
  obtain ⟨n, rfl⟩ : ∃ n : Nat, most = n := ⟨most.toNat, by omega⟩
  have hn : 0 < n := by omega
  refine ⟨_, limits_pos hmost size, ?_⟩
  obtain ⟨pages, last, rest, result, next, rfl, hpages, hroom, hend, hrun⟩ :=
    resume_replies rounds hreplies hends hrounds (show (arrivals ([] : List Bytes)).length < n from hn)
      sent
  refine ⟨pages, last, rest, result.map some, next, rfl, hpages, by exact_mod_cast hroom, hrun, ?_⟩
  rw [List.nil_append] at hend
  cases last with
  | error e => cases hend; rfl
  | ok p =>
    cases result with
    | error e => cases hend
    | ok scan => exact ⟨scan, rfl, hend.bounded hpages⟩

/-- Four pages that repeat keys, one of them empty. -/
def repeating : List (Except Failure Page) :=
  [.ok ⟨5, [[98], [97], [98]]⟩, .ok ⟨-3, []⟩, .ok ⟨8, [[97], [0xFF], [99]]⟩, .ok ⟨0, [[100]]⟩]

/-- The third key arrives on the third page, and something comes behind it. -/
theorem run_repeating :
    ∃ limits, Scan.limits (.int 3) (.int 2) = .ok limits ∧ ∃ pages p rest scan next,
      repeating = pages.map .ok ++ .ok p :: rest ∧
      (run Server.scripted.recorded limits 4).run (repeating, []) =
        (.ok (some scan), next, (requests (.int 2) 0 pages).reverse) ∧
      Bounded 3 repeating pages p scan := by
  obtain ⟨limits, hlimits, pages, last, rest, outcome, next, hsplit, -, -, hrun, hlast⟩ :=
    run_arrivals (show (1 : Int) ≤ 3 by decide) (Server.replies_scripted (.int 2) 0 repeating)
      ⟨.ok ⟨0, [[100]]⟩, by simp [repeating], fun p hp => by cases hp; rfl⟩ (Nat.le_refl 4) []
  cases last with
  | error e =>
    have hmem : (.error e : Except Failure Page) ∈ repeating := by simp [hsplit]
    simp [repeating] at hmem
  | ok p =>
    obtain ⟨scan, rfl, hscan⟩ := hlast
    exact ⟨limits, hlimits, pages, p, rest, scan, next, hsplit, by simpa using hrun, hscan⟩

end Scan

end Keyscope
