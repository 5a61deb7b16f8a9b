/-
# What a sweep brings back

A sweep keeps the keys it has seen, newest first, and never takes one twice.  That is the
invariant of every page (`collect_keeps`) and of the whole sweep, and it is all that the rest of
a snapshot needs: the keys come back strictly ascending (`run_ascending`), and where the pages of
a server hold byte strings every key can be sent back to it (`run_encodable`).  What was seen and
the room that is left add up to the cap (`collect_room`), so no more keys come back than that
(`run_length`).

Section 3 follows a sweep of a server that hands out a fixed list of keys page by page.  The
sweep stops at the cap or at the last page, whichever comes first, and says that there is more
exactly when there is (`run_pages`).
-/
import Keyscope.Keyspace.Scan
import Keyscope.Proofs.Number.Quantity
import Keyscope.Proofs.Session
import Keyscope.Proofs.Text.Order
import Keyscope.Proofs.Text.Pieces

namespace Keyscope

variable {σ : Type}

/-- **A server whose pages hold byte strings.**  What it answers to a request for a page may be
anything else, or a failure. -/
def Server.ByteKeys (server : Server σ) : Prop :=
  ∀ cursor count s reply, (server (.scan cursor count) s).1 = .ok reply →
    ∀ next page, Scan.Sweep.parts reply = .ok (next, page) → ∀ raw ∈ page, ∃ bs, raw = .bytes bs

namespace Scan

/-- A positive cap is one for sweeps. -/
theorem limits_of_positive {maxKeys : Value} (h : maxKeys.le (.int 0) = .ok false)
    (pageSize : Value) : ∃ most, maxKeys.quantity? = some most ∧ most.le (.whole 0) = false ∧
      limits maxKeys pageSize = .ok ⟨countFor most, pageSize⟩ := by
  obtain ⟨most, hmost, hpos⟩ := Value.quantity_of_le h
  refine ⟨most, hmost, hpos, ?_⟩
  replace hpos : most.le 0 = false := hpos
  simp only [limits, hmost, hpos]
  rfl

/-! ## 1. One page -/

/-- **A page keeps the invariant.**  If no key has been seen twice and all of them have a
property, so it is after a page all of whose names have it. -/
theorem collect_keeps {P : Text → Prop} : ∀ {page : List Value} {room room' : Option Nat}
    {seen seen' : List Text} {rest : Option (List Value)},
    collect room seen page = .ok (room', seen', rest) → seen.Nodup → (∀ key ∈ seen, P key) →
    (∀ raw ∈ page, ∀ key, raw.keyName = .ok key → P key) →
    seen'.Nodup ∧ ∀ key ∈ seen', P key
  | [], _, _, _, _, _, h, hnodup, hP, _ => by
    simp only [collect, Except.ok.injEq, Prod.mk.injEq] at h
    obtain ⟨-, rfl, -⟩ := h
    exact ⟨hnodup, hP⟩
  | raw :: page, room, _, seen, _, _, h, hnodup, hP, hpage => by
    have hrest : ∀ raw ∈ page, ∀ key, raw.keyName = .ok key → P key :=
      fun v hv => hpage v (List.mem_cons_of_mem _ hv)
    rw [collect] at h
    cases hkey : raw.keyName with
    | error e => rw [hkey] at h; cases h
    | ok key =>
      rw [hkey] at h
      simp only at h
      split at h
      · exact collect_keeps h hnodup hP hrest
      · rename_i hnew
        have hnew' : key ∉ seen := by simpa using hnew
        have hnodup' : (key :: seen).Nodup := List.nodup_cons.mpr ⟨hnew', hnodup⟩
        have hP' : ∀ k ∈ key :: seen, P k :=
          List.forall_mem_cons.mpr ⟨hpage raw List.mem_cons_self key hkey, hP⟩
        split at h
        · simp only [Except.ok.injEq, Prod.mk.injEq] at h
          obtain ⟨-, rfl, -⟩ := h
          exact ⟨hnodup', hP'⟩
        · exact collect_keeps h hnodup' hP' hrest

/-- **A page takes no more keys than there is room for**: either it leaves some, and takes as many as
it says, or it leaves none. -/
theorem collect_room : ∀ {page : List Value} {room : Nat} {room' : Option Nat}
    {seen seen' : List Text} {rest : Option (List Value)}, 0 < room →
    collect (some room) seen page = .ok (room', seen', rest) →
    (rest ≠ none ∧ seen'.length = seen.length + room) ∨
    (rest = none ∧ ∃ left, room' = some left ∧ 0 < left ∧
      seen'.length + left = seen.length + room)
  | [], room, _, _, _, _, hroom, h => by
    simp only [collect, Except.ok.injEq, Prod.mk.injEq] at h
    obtain ⟨rfl, rfl, rfl⟩ := h
    exact .inr ⟨rfl, room, rfl, hroom, rfl⟩
  | raw :: page, room, _, seen, _, _, hroom, h => by
    rw [collect] at h
    cases hkey : raw.keyName with
    | error e => rw [hkey] at h; cases h
    | ok key =>
      rw [hkey] at h
      simp only at h
      split at h
      · exact collect_room hroom h
      · by_cases hlast : room ≤ 1
        · rw [if_pos (by simpa using hlast)] at h
          simp only [Except.ok.injEq, Prod.mk.injEq] at h
          obtain ⟨-, rfl, rfl⟩ := h
          exact .inl ⟨by simp, by rw [List.length_cons]; omega⟩
        · rw [if_neg (by simpa using hlast), Option.map_some] at h
          have hcount : (key :: seen).length + (room - 1) = seen.length + room := by
            rw [List.length_cons]
            omega
          have hrest := collect_room (by omega) h
          rwa [hcount] at hrest

/-! ## 2. A whole sweep -/

/-- What an answer makes of a sweep: either the sweep goes on with what a page left of it, or it
ends with these keys sorted. -/
theorem absorb_cases {s : Sweep} {reply : Value} {r : Sweep ⊕ Scan} (h : s.absorb reply = .ok r) :
    ∃ cursor page room seen rest, Sweep.parts reply = .ok (cursor, page) ∧
      collect s.room s.seen page = .ok (room, seen, rest) ∧
      (rest = none ∧ r = .inl ⟨cursor, room, seen⟩ ∨
        ∃ truncated, r = .inr (ofSeen seen truncated)) := by
  simp only [Sweep.absorb] at h
  split at h
  · cases h
  · rename_i cursor page hparts
    split at h
    · cases h
    · rename_i seen rest hcollect
      exact ⟨cursor, page, _, seen, some rest, hparts, hcollect, .inr ⟨_, (Except.ok.inj h).symm⟩⟩
    · rename_i room seen hcollect
      refine ⟨cursor, page, room, seen, none, hparts, hcollect, ?_⟩
      split at h
      · exact .inr ⟨_, (Except.ok.inj h).symm⟩
      · exact .inl ⟨rfl, (Except.ok.inj h).symm⟩

/-- **One round of a sweep that returns**: a page was taken, and either the sweep went on with what
it left, or it ended with these keys sorted. -/
theorem resume_cases {server : Server σ} {size : Value} {rounds : Nat} {s next : σ} {sweep : Sweep}
    {scan : Scan} (h : (resume server size (rounds + 1) sweep).run s = (.ok (some scan), next)) :
    ∃ reply s₁ cursor page room seen rest,
      server (.scan sweep.cursor size) s = (.ok reply, s₁) ∧
      Sweep.parts reply = .ok (cursor, page) ∧
      collect sweep.room sweep.seen page = .ok (room, seen, rest) ∧
      (rest = none ∧ (resume server size rounds ⟨cursor, room, seen⟩).run s₁ = (.ok (some scan), next) ∨
        ∃ truncated, scan = ofSeen seen truncated) := by
  rw [resume, Session.run_bind, Session.run_ask] at h
  rcases hreply : server (.scan sweep.cursor size) s with ⟨_ | reply, s₁⟩
  · rw [hreply] at h
    cases h
  · rw [hreply] at h
    simp only [Session.run_bind, Session.run_ofExcept] at h
    cases habsorb : sweep.absorb reply with
    | error e =>
      rw [habsorb] at h
      cases h
    | ok r =>
      obtain ⟨cursor, page, room, seen, rest, hparts, hcollect, hr⟩ := absorb_cases habsorb
      rw [habsorb] at h
      refine ⟨reply, s₁, cursor, page, room, seen, rest, rfl, hparts, hcollect, ?_⟩
      rcases hr with ⟨hnone, rfl⟩ | ⟨truncated, rfl⟩
      · exact .inl ⟨hnone, h⟩
      · cases h
        exact .inr ⟨truncated, rfl⟩

/-- **The invariant of a sweep**, from any point on: the keys that come out are all different and
have every property that the names in the pages of the server have. -/
theorem resume_keeps {server : Server σ} {size : Value} {P : Text → Prop}
    (hpages : ∀ cursor s reply, (server (.scan cursor size) s).1 = .ok reply →
      ∀ next page, Sweep.parts reply = .ok (next, page) →
        ∀ raw ∈ page, ∀ key, raw.keyName = .ok key → P key) :
    ∀ (rounds : Nat) {s next : σ} {sweep : Sweep} {scan : Scan},
      (resume server size rounds sweep).run s = (.ok (some scan), next) → sweep.seen.Nodup →
      (∀ key ∈ sweep.seen, P key) → scan.keys.Pairwise (· < ·) ∧ ∀ key ∈ scan.keys, P key
  | 0, _, _, _, _, h, _, _ => by cases h
  | rounds + 1, s, next, sweep, scan, h, hnodup, hP => by
    obtain ⟨reply, s₁, cursor, page, room, seen, rest, hreply, hparts, hcollect, hend⟩ :=
      resume_cases h
    have hnames := hpages sweep.cursor s reply (by rw [hreply]) cursor page hparts
    obtain ⟨hnodup', hP'⟩ := collect_keeps hcollect hnodup hP hnames
    rcases hend with ⟨-, hrest⟩ | ⟨truncated, rfl⟩
    · exact resume_keeps hpages rounds hrest hnodup' hP'
    · exact ⟨Text.sort_strict hnodup', fun key hkey => hP' key (Text.mem_sort.mp hkey)⟩

/-- The keys of a sweep are strictly ascending, so none of them is there twice. -/
theorem run_ascending {server : Server σ} {limits : Limits} {rounds : Nat} {s next : σ}
    {scan : Scan} (h : (run server limits rounds).run s = (.ok (some scan), next)) :
    scan.keys.Pairwise (· < ·) :=
  (resume_keeps (P := fun _ => True) (fun _ _ _ _ _ _ _ _ _ _ _ => trivial) rounds h List.nodup_nil
    fun _ _ => trivial).1

theorem run_nodup {server : Server σ} {limits : Limits} {rounds : Nat} {s next : σ} {scan : Scan}
    (h : (run server limits rounds).run s = (.ok (some scan), next)) : scan.keys.Nodup :=
  (run_ascending h).imp ne_of_lt

/-- **Every key of a sweep can be sent back**: it is the name of some bytes of a page. -/
theorem run_encodable {server : Server σ} (hbytes : server.ByteKeys) {limits : Limits}
    {rounds : Nat} {s next : σ} {scan : Scan}
    (h : (run server limits rounds).run s = (.ok (some scan), next)) :
    ∀ key ∈ scan.keys, ∃ bs, encodeKey key = .ok bs := by
  refine (resume_keeps (P := fun key => ∃ bs, encodeKey key = .ok bs) ?_ rounds h List.nodup_nil
    (by simp [Sweep.start])).2
  intro cursor s reply hreply next page hparts raw hraw key hkey
  obtain ⟨bs, rfl⟩ := hbytes cursor limits.pageSize s reply hreply next page hparts raw hraw
  obtain rfl := Except.ok.inj hkey
  exact ⟨bs, encodeKey_decodeEscaped bs⟩

/-- **A sweep takes no more keys than it may**, from any point on. -/
theorem resume_length {server : Server σ} {size : Value} {most : Nat} :
    ∀ (rounds : Nat) {s next : σ} {sweep : Sweep} {scan : Scan} {room : Nat},
      (resume server size rounds sweep).run s = (.ok (some scan), next) → sweep.room = some room →
      0 < room → sweep.seen.length + room = most → scan.keys.length ≤ most
  | 0, _, _, _, _, _, h, _, _, _ => by cases h
  | rounds + 1, s, next, sweep, scan, room, h, hroom, hpos, hmost => by
    obtain ⟨reply, s₁, cursor, page, room', seen, rest, -, -, hcollect, hend⟩ := resume_cases h
    rw [hroom] at hcollect
    have hseen := collect_room hpos hcollect
    rcases hend with ⟨hnone, hrest⟩ | ⟨truncated, rfl⟩
    · obtain ⟨-, left, hleft, hpos', hlength⟩ := hseen.resolve_left fun h => h.1 hnone
      exact resume_length rounds hrest hleft hpos' (hlength.trans hmost)
    · have hlength : (Text.sort seen).length = seen.length := (Text.sort_perm seen).length_eq
      rw [ofSeen, hlength]
      rcases hseen with ⟨-, hfull⟩ | ⟨-, left, -, -, hfull⟩ <;> omega

/-- A sweep that may take some number of keys takes at most as many. -/
theorem run_length {server : Server σ} {limits : Limits} {most : Nat}
    (hlimits : limits.maxKeys = some most) (hmost : 0 < most) {rounds : Nat} {s next : σ}
    {scan : Scan} (h : (run server limits rounds).run s = (.ok (some scan), next)) :
    scan.keys.length ≤ most :=
  resume_length rounds h hlimits hmost (Nat.zero_add most)

/-- A sweep asks for pages and for nothing else. -/
theorem resume_sends {P : Request → Prop} (hP : ∀ cursor count, P (.scan cursor count))
    (server : Server σ) (size : Value) :
    ∀ (rounds : Nat) (sweep : Sweep), Session.Sends P (resume server.recorded size rounds sweep)
  | 0, _ => Session.Sends.pure none
  | rounds + 1, sweep => by
    refine (Session.Sends.ask server (hP _ _)).bind fun reply => ?_
    refine (Session.Sends.ofExcept _).bind fun r => ?_
    rcases r with next | scan
    · exact resume_sends hP server size rounds next
    · exact Session.Sends.pure (some scan)

/-- **A sweep that is over stays so**: followed for more rounds, it is the same. -/
theorem resume_more {server : Server σ} {size : Value} (more : Nat) :
    ∀ (rounds : Nat) (sweep : Sweep),
      Session.Continues (resume server size rounds sweep) (resume server size (rounds + more) sweep)
  | 0, _ => .of_none _
  | rounds + 1, sweep => by
    rw [Nat.succ_add]
    refine .after _ fun reply => .after _ fun r => ?_
    rcases r with next | scan
    · exact resume_more more rounds next
    · exact .refl _

/-! ## 3. A server that hands out a list of keys -/

end Scan

/-- **A server that hands out keys in a fixed order**, in pages of a size.  Its cursors are what it
likes, one for each place in the list; zero stands for the beginning and, in an answer, for the
end. -/
structure Server.Pages (server : Server σ) (names : List Bytes) (size : Nat) (cursor : Nat → Int) :
    Prop where
  start : cursor 0 = 0
  inside : ∀ i, 0 < i → i < names.length → cursor i ≠ 0
  page : ∀ i count s, i = 0 ∨ i < names.length →
    (server (.scan (cursor i) count) s).1 =
      .ok (.tuple [.int (if i + size < names.length then cursor (i + size) else 0),
        .list (((names.drop i).take size).map .bytes)])

namespace Scan

/-- The newest-first list of the names of some keys. -/
def collected (names : List Bytes) : List Text := (names.map Utf8.decodeEscaped).reverse

theorem collected_append (a b : List Bytes) : collected (a ++ b) = collected b ++ collected a := by
  simp [collected]

/-- A page of new keys is taken whole if it fits with room to spare, and up to the last key that
fits otherwise. -/
theorem collect_new : ∀ {names seen : List Bytes} {room : Nat}, 0 < room → (seen ++ names).Nodup →
    collect (some room) (collected seen) (names.map .bytes) =
      .ok (if names.length < room then (some (room - names.length), collected (seen ++ names), none)
        else (some 0, collected (seen ++ names.take room), some ((names.drop room).map .bytes)))
  | [], seen, room, hroom, _ => by
    rw [List.length_nil, if_pos hroom, List.append_nil]
    rfl
  | name :: names, seen, room, hroom, hnodup => by
    have hnew : Utf8.decodeEscaped name ∉ collected seen := by
      intro hmem
      simp only [collected, List.mem_reverse, List.mem_map] at hmem
      obtain ⟨other, hother, hsame⟩ := hmem
      obtain rfl := Utf8.decodeEscaped_injective hsame
      exact (List.nodup_append.mp hnodup).2.2 other hother other List.mem_cons_self rfl
    have hcons : Utf8.decodeEscaped name :: collected seen = collected (seen ++ [name]) := by
      rw [collected_append]
      rfl
    rw [List.map_cons, collect,
      show (Value.bytes name).keyName = .ok (Utf8.decodeEscaped name) from rfl]
    simp only
    rw [if_neg (by simpa using hnew), hcons]
    by_cases hlast : room ≤ 1
    · obtain rfl : room = 1 := by omega
      rw [if_pos (by simp), if_neg (by simp)]
      rfl
    · rw [if_neg (by simpa using hlast), Option.map_some,
        collect_new (by omega) (by simpa [List.append_assoc] using hnodup)]
      obtain ⟨k, rfl⟩ : ∃ k, room = k + 1 := ⟨room - 1, by omega⟩
      simp only [List.length_cons, Nat.add_lt_add_iff_right, Nat.add_sub_add_right,
        Nat.add_sub_cancel, List.append_assoc, List.cons_append, List.nil_append,
        List.take_succ_cons, List.drop_succ_cons]

/-- The sweep of such a server at a place in its list. -/
def Sweep.atPlace (names : List Bytes) (cursor : Nat → Int) (most place : Nat) : Sweep :=
  ⟨cursor place, some (most - place), collected (names.take place)⟩

theorem ofSeen_collected (names : List Bytes) (truncated : Bool) :
    ofSeen (collected names) truncated = ⟨Text.sort (names.map Utf8.decodeEscaped), truncated⟩ := by
  rw [ofSeen, collected, Text.sort_congr (List.reverse_perm _)]

/-- Where the cap is reached on a page, there is more if something is left of the page, or another
page: that is, if the list is longer than the cap. -/
theorem more_after_cap {server : Server σ} {names : List Bytes} {size : Nat} {cursor : Nat → Int}
    (hpages : server.Pages names size cursor) {most place : Nat} (hroom : place < most)
    (hfull : most - place ≤ ((names.drop place).take size).length) :
    (!((((names.drop place).take size).drop (most - place)).map Value.bytes).isEmpty ||
      (if place + size < names.length then cursor (place + size) else 0) != 0)
        = decide (most < names.length) := by
  have hlength : ((names.drop place).take size).length = min size (names.length - place) := by simp
  by_cases hmore : place + size < names.length
  · have hcursor := hpages.inside (place + size) (by omega) hmore
    rw [if_pos hmore, decide_eq_true (by omega : most < names.length), bne_iff_ne.mpr hcursor,
      Bool.or_true]
  · rw [if_neg hmore, bne_self_eq_false, Bool.or_false, Bool.eq_iff_iff]
    simp only [List.isEmpty_map, Bool.not_eq_true', List.isEmpty_eq_false_iff, ne_eq,
      List.drop_eq_nil_iff, decide_eq_true_eq]
    omega

/-- **One page of such a server.**  The sweep goes on behind the page, unless the cap or the end of
the list has been reached; then it has the first keys of the list, as many as the cap allows. -/
theorem absorb_page {server : Server σ} {names : List Bytes} {size : Nat} {cursor : Nat → Int}
    (hpages : server.Pages names size cursor) (hsize : 0 < size) (hnodup : names.Nodup)
    {most place : Nat} (hroom : place < most) (hplace : place = 0 ∨ place < names.length)
    (count : Value) (s : σ) :
    ∃ reply, (server (.scan (cursor place) count) s).1 = .ok reply ∧
      (Sweep.atPlace names cursor most place).absorb reply =
        .ok (if place + size < names.length ∧ place + size < most
          then .inl (Sweep.atPlace names cursor most (place + size))
          else .inr ⟨Text.sort ((names.take most).map Utf8.decodeEscaped),
            decide (most < names.length)⟩) := by
  refine ⟨_, hpages.page place count s hplace, ?_⟩
  have hflag := more_after_cap hpages hroom
  set page := (names.drop place).take size with hpage
  have hlength : page.length = min size (names.length - place) := by simp [hpage]
  have hjoin : names.take place ++ page = names.take (place + size) := List.take_add.symm
  have hnodup' : (names.take place ++ page).Nodup := by
    rw [hjoin]
    exact hnodup.sublist (List.take_sublist _ _)
  have hcollect := collect_new (Nat.sub_pos_of_lt hroom) hnodup'
  simp only [Sweep.absorb, Sweep.atPlace]
  rw [show Sweep.parts (.tuple [.int _, .list (page.map .bytes)]) = .ok (_, page.map .bytes)
    from rfl]
  simp only [hcollect]
  by_cases hfull : page.length < most - place
  -- the page fits with room to spare: the cursor decides
  · rw [if_pos hfull, hjoin]
    by_cases hmore : place + size < names.length
    · have hrest : most - place - page.length = most - (place + size) := by omega
      simp only [if_pos hmore, if_neg (hpages.inside (place + size) (by omega) hmore), hrest]
      rw [if_pos ⟨hmore, by omega⟩]
    · simp only [if_neg hmore, ↓reduceIte, ofSeen_collected]
      rw [if_neg (fun h => hmore h.1), List.take_of_length_le (by omega),
        List.take_of_length_le (by omega), decide_eq_false (by omega)]
  -- the cap is reached on the page, perhaps with its last key
  · have htake : names.take place ++ page.take (most - place) = names.take most := by
      rw [hpage, List.take_take, ← List.take_add]
      congr 1
      omega
    rw [if_neg hfull, htake]
    simp only [ofSeen_collected, hflag (Nat.le_of_not_lt hfull)]
    rw [if_neg (show ¬ (place + size < names.length ∧ place + size < most) by omega)]

/-- From a place in its list, a sweep of such a server ends with the first keys of the list, if it
has rounds for the rest of them. -/
theorem resume_pages {server : Server σ} {names : List Bytes} {size : Nat} {cursor : Nat → Int}
    (hpages : server.Pages names size cursor) (hsize : 0 < size) (hnodup : names.Nodup)
    (count : Value) {most : Nat} : ∀ (rounds place : Nat) (s : σ), 0 < rounds → place < most →
      (place = 0 ∨ place < names.length) → names.length ≤ place + rounds * size →
      ∃ next, (resume server count rounds (Sweep.atPlace names cursor most place)).run s =
        (.ok (some
          ⟨Text.sort ((names.take most).map Utf8.decodeEscaped), decide (most < names.length)⟩), next)
  | 0, _, _, hrounds, _, _, _ => absurd hrounds (Nat.lt_irrefl 0)
  | rounds + 1, place, s, _, hroom, hplace, hrest => by
    obtain ⟨reply, hreply, habsorb⟩ := absorb_page hpages hsize hnodup hroom hplace count s
    have hask : (server.ask (.scan (Sweep.atPlace names cursor most place).cursor count)).run s
        = (.ok reply, (server (.scan (cursor place) count) s).2) := by
      rw [Session.run_ask, ← hreply]
      rfl
    rw [Nat.succ_mul] at hrest
    rw [resume, Session.run_bind_ok hask, habsorb]
    split
    · rename_i hmore
      have hrounds : 0 < rounds := by
        rcases Nat.eq_zero_or_pos rounds with rfl | h
        · omega
        · exact h
      exact resume_pages hpages hsize hnodup count rounds (place + size) _ hrounds hmore.2
        (.inr hmore.1) (by omega)
    · exact ⟨_, rfl⟩

/-- **The sweep of a server with a fixed list of keys.**  It returns the first keys of the list, as
many as the cap allows, in ascending order, and says that there are more exactly when there are. -/
theorem run_pages {server : Server σ} {names : List Bytes} {size : Nat} {cursor : Nat → Int}
    (hpages : server.Pages names size cursor) (hsize : 0 < size) (hnodup : names.Nodup)
    {limits : Limits} {most : Nat} (hlimits : limits.maxKeys = some most) (hmost : 0 < most)
    {rounds : Nat} (hpos : 0 < rounds) (hrounds : names.length ≤ rounds * size) (s : σ) :
    ∃ next, (run server limits rounds).run s =
      (.ok (some
        ⟨Text.sort ((names.take most).map Utf8.decodeEscaped), decide (most < names.length)⟩), next) := by
  have hstart : Sweep.start limits = Sweep.atPlace names cursor most 0 := by
    rw [Sweep.start, Sweep.atPlace, hpages.start, hlimits]
    rfl
  rw [run, hstart]
  exact resume_pages hpages hsize hnodup limits.pageSize rounds 0 s hpos hmost (.inl rfl) (by omega)

end Scan

end Keyscope
