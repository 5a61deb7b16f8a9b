/-
# Snapshots of any server

Nothing is assumed of a server here: its pages, its answers and its failures may be anything.  A
snapshot that comes back has been through all of its stages (`Stages`), and each of its records is a
fresh one of a swept key with one finding filled in (`take_stages`).  All bounds on the records
follow from that one fact: on their keys from the sweep, on payload and count from the way findings
are filled in.

Section 3 says which keys are shown by a placeholder (`Payload.Placeheld`).  Their findings count
nothing (`finding_of_placeheld`).
-/
import Mathlib.Data.List.Nodup
import Keyscope.Proofs.Keyspace.Snapshot

namespace Keyscope

variable {σ : Type}

/-! ## 1. The budget -/

/-- **A text keeps within a budget**: it is no longer than that, or it is as long and followed by the
number of characters that were left out. -/
def Preview.Fits (budget : Value) (t : Text) : Prop :=
  (Value.int t.length).le budget = .ok true ∨
  ∃ (kept : Text) (elided : Int), budget.quantity? = some (.whole kept.length) ∧ 1 ≤ elided ∧
    t = kept ++ "\n...[truncated " ++ Decimal.ofInt elided ++ " chars]"

theorem Preview.append_cutMark (kept : Text) (elided : Int) :
    kept ++ cutMark elided = kept ++ "\n...[truncated " ++ Decimal.ofInt elided ++ " chars]" := by
  rw [cutMark, List.append_assoc, List.append_assoc, List.append_assoc]

/-- Within a budget that is not negative a text that is too long keeps as many characters. -/
theorem Preview.clip_of_lt {n : Nat} {t : Text} (h : n < t.length) :
    clip n t = t.take n ++ cutMark (t.drop n).length := by
  have helided : (t.length : Int) - n = (t.drop n).length := by
    rw [List.length_drop]
    omega
  rw [clip, if_neg (by omega), upTo, if_neg (by omega), Int.toNat_natCast, helided]

/-- What is cut to a positive budget keeps within it. -/
theorem Preview.fits_clipTo {budget : Value} {t u : Text} (hpos : budget.le (.int 0) = .ok false)
    (h : clipTo budget t = .ok u) : Fits budget u := by
  obtain ⟨q, hbudget, hq⟩ := Value.quantity_of_le hpos
  rw [clipTo, hbudget] at h
  cases q with
  | real x =>
    simp only at h
    split at h
    · rename_i hfits
      obtain rfl := Except.ok.inj h
      exact .inl ((Value.le_int hbudget _).trans (congrArg Except.ok hfits))
    · cases h
  | whole n =>
    obtain rfl := Except.ok.inj h
    rw [Quantity.le_whole, decide_eq_false_iff_not] at hq
    obtain ⟨n, rfl⟩ := Int.eq_ofNat_of_zero_le (show 0 ≤ n by omega)
    by_cases hfits : t.length ≤ n
    · rw [clip, if_pos (Int.ofNat_le.mpr hfits)]
      refine .inl ((Value.le_int hbudget _).trans (congrArg Except.ok ?_))
      rw [Quantity.le_whole]
      exact decide_eq_true (Int.ofNat_le.mpr hfits)
    · have hkept : (t.take n).length = n := by
        rw [List.length_take]
        omega
      have helided : 1 ≤ ((t.drop n).length : Int) := by
        rw [List.length_drop]
        omega
      rw [clip_of_lt (Nat.lt_of_not_le hfits)]
      exact .inr ⟨t.take n, (t.drop n).length, by rw [hkept, hbudget], helided, append_cutMark _ _⟩

/-! ## 2. Materializing for any server -/

theorem forall₂_trans {α β γ : Type} {R : α → β → Prop} {S : β → γ → Prop} {T : α → γ → Prop}
    (hT : ∀ a b c, R a b → S b c → T a c) : ∀ {as : List α} {bs : List β} {cs : List γ},
    List.Forall₂ R as bs → List.Forall₂ S bs cs → List.Forall₂ T as cs
  | _, _, _, .nil, .nil => .nil
  | _, _, _, .cons hR hRs, .cons hS hSs => .cons (hT _ _ _ hR hS) (forall₂_trans hT hRs hSs)

namespace Payload

/-- A record goes through the keys that are not read, and then through the others: either way it gets
what is found for its key. -/
theorem settle_wanted {outcomes : Bucket → Except Failure Value} {infos : List KeyInfo}
    (hnodup : (infos.map (·.key)).Nodup) {f : KeyInfo → Finding}
    (hf : ∀ info ∈ infos, finding outcomes infos info = .ok (f info)) {found : List (Text × Finding)}
    (hfound : findings (answered outcomes infos) = .ok found) (budget : Value) {info : KeyInfo}
    (hinfo : info ∈ infos) {r : Record} (hkey : info.key = r.key) :
    (r.settle budget (infos.filterMap unread?) >>= Record.settle budget found) =
      r.fill budget (f info) := by
  obtain ⟨found', hfound', hperm⟩ := findings_perm hnodup hf
  obtain rfl := Except.ok.inj (hfound.symm.trans hfound')
  have hkeys : ((infos.filterMap unread? ++ found).map Prod.fst).Nodup := by
    rw [(hperm.map Prod.fst).nodup_iff, List.map_map]
    exact hnodup
  rw [← Record.settle_append]
  refine Record.settle_of_mem budget hkeys (hperm.mem_iff.mpr ?_)
  rw [← hkey]
  exact List.mem_map_of_mem hinfo

/-- **Whatever a server answers**, a record of a key that is wanted comes back with what was found
for it filled in. -/
theorem materialize_fills {server : Server σ} {budget : Value} {infos : List KeyInfo}
    {records shown : List Record} (hnodup : (infos.map (·.key)).Nodup)
    (hnames : ∀ info ∈ infos, ∃ bs, encodeKey info.key = .ok bs) {s next : σ}
    (h : (materialize server budget infos records).run s = (.ok shown, next)) :
    ∃ outcomes, (fetchAll server (buckets (wanted records infos))).run s =
        (.ok (answered outcomes (wanted records infos)), next) ∧
      List.Forall₂ (fun r r' => ∀ info ∈ wanted records infos, info.key = r.key →
        ∃ f, finding outcomes (wanted records infos) info = .ok f ∧ r.fill budget f = .ok r')
        records shown := by
  set wanted := wanted records infos with hwanted
  have hsub : ∀ info ∈ wanted, info ∈ infos := fun info hinfo => (mem_wanted.mp hinfo).1
  have hnodup' : (wanted.map (·.key)).Nodup := hnodup.sublist (List.filter_sublist.map _)
  obtain ⟨outcomes, fetched, -, hfetch⟩ :=
    exists_fetched server (fun info hinfo => hnames info (hsub info hinfo)) s
  simp only [materialize, ← hwanted] at h
  cases hunread : records.mapM (Record.settle budget (wanted.filterMap unread?)) with
  | error e => rw [hunread] at h; cases h
  | ok settled =>
    rw [hunread, Session.run_bind_ok (Session.run_ofExcept _ s), Session.run_bind_ok hfetch] at h
    cases hfound : findings (answered outcomes wanted) with
    | error e =>
      rw [hfound] at h
      cases h
    | ok found =>
      rw [hfound, Session.run_bind_ok (Session.run_ofExcept _ fetched)] at h
      obtain ⟨hshown, rfl⟩ := Prod.mk.inj h
      refine ⟨outcomes, hfetch, ?_⟩
      have : Nonempty Finding := ⟨Bucket.plain .expired⟩
      have hfinding : ∀ info ∈ wanted, ∃ f, finding outcomes wanted info = .ok f :=
        fun info hinfo => exists_finding_of_findings hnodup' hfound hinfo
      choose! f hf using hfinding
      refine forall₂_trans (fun r mid r' hmid hr' info hinfo hkey => ⟨f info, hf info hinfo, ?_⟩)
        (Outcome.forall₂_of_mapM hunread) (Outcome.forall₂_of_mapM hshown)
      rw [← settle_wanted hnodup' hf hfound budget hinfo hkey, hmid]
      exact hr'

/-! ## 3. Placeholders -/

/-- The answer for a key, at its place among those for the keys of its bucket.  Where there are fewer
answers it is null. -/
def IsAnswer (outcomes : Bucket → Except Failure Value) (infos : List KeyInfo) (info : KeyInfo)
    (b : Bucket) (v : Value) : Prop :=
  ∃ replies, outcomes b = .ok replies ∧
    replies.memberOrNull ((b.keysOf infos).idxOf info.key) = .ok v

variable {outcomes : Bucket → Except Failure Value} {infos : List KeyInfo} {info : KeyInfo}

/-- **A key is shown by a placeholder**, when the requests for the buckets come out so. -/
inductive Placeheld (outcomes : Bucket → Except Failure Value) (infos : List KeyInfo)
    (info : KeyInfo) : Text → Prop
  | expired (htype : info.type = "none") : Placeheld outcomes infos info "<key expired>"
  | notImplemented (htype : info.type = "stream" ∨ info.type = "vectorset") :
    Placeheld outcomes infos info ("<" ++ info.type ++ " preview not implemented>")
  | batchError {b : Bucket} {e : Failure} (htype : (info.type, b) ∈ typed)
    (hbatch : outcomes b = .error e) :
    Placeheld outcomes infos info ("<read error: " ++ e.label ++ ">")
  | answerError {b : Bucket} {v : Value} {e : Failure} (htype : (info.type, b) ∈ typed)
    (hanswer : IsAnswer outcomes infos info b v) (herror : v.failure? = some e) :
    Placeheld outcomes infos info ("<read error: " ++ e.label ++ ">")
  | layoutError {b : Bucket} {format : Value → Except Failure Preview} {v : Value} {e : Failure}
    (htype : (info.type, b) ∈ typed) (hformat : (info.type, format) ∈ formatters)
    (hanswer : IsAnswer outcomes infos info b v) (hvalue : v.failure? = none)
    (hlayout : format v = .error e) :
    Placeheld outcomes infos info ("<read error: " ++ e.label ++ ">")
  | documentsError {e : Failure} (htype : info.type ∉ neverRead ++ typed.map Prod.fst)
    (hbatch : outcomes .documents = .error e) :
    Placeheld outcomes infos info "<unsupported type>"
  | noDocument {v : Value} (htype : info.type ∉ neverRead ++ typed.map Prod.fst)
    (hanswer : IsAnswer outcomes infos info .documents v)
    (hnone : v = .null ∨ ∃ e, v.failure? = some e) :
    Placeheld outcomes infos info "<unsupported type>"

/-- **A key is shown by the layout of its value.** -/
inductive LaidOut (outcomes : Bucket → Except Failure Value) (infos : List KeyInfo)
    (info : KeyInfo) : Preview → Prop
  | typed {b : Bucket} {format : Value → Except Failure Preview} {v : Value} {p : Preview}
    (htype : (info.type, b) ∈ typed) (hformat : (info.type, format) ∈ formatters)
    (hanswer : IsAnswer outcomes infos info b v) (hvalue : v.failure? = none)
    (hlayout : format v = .ok p) : LaidOut outcomes infos info p
  | document {v : Value} {p : Preview} (htype : info.type ∉ neverRead ++ typed.map Prod.fst)
    (hanswer : IsAnswer outcomes infos info .documents v) (hvalue : v.failure? = none)
    (hnull : v ≠ .null) (hlayout : Preview.ofDocument v = .ok p) : LaidOut outcomes infos info p

theorem findAt_answer {b : Bucket} {v : Value} (h : IsAnswer outcomes infos info b v) :
    b.findAt (outcomes b) ((b.keysOf infos).idxOf info.key) = b.find v := by
  obtain ⟨replies, hreplies, hv⟩ := h
  rw [hreplies, Bucket.findAt, hv]
  rfl

/-- A type has one layout. -/
theorem Bucket.layout_eq {type : Text} {b : Bucket} {format : Value → Except Failure Preview}
    (hb : (type, b) ∈ Payload.typed) (hformat : (type, format) ∈ Payload.formatters) :
    b.layout = format := by
  have hnodup : (Payload.formatters.map Prod.fst).Nodup := by decide +kernel
  exact congrArg Prod.snd
    (List.inj_on_of_nodup_map hnodup (Bucket.layout_formatters hb) hformat rfl)

/-- A placeholder is all that is found. -/
theorem finding_of_placeheld {t : Text} (h : Placeheld outcomes infos info t) :
    finding outcomes infos info = .ok (Bucket.plain (.placeholder t)) := by
  cases h with
  | expired htype => rw [finding, htype]; rfl
  | notImplemented htype =>
    have hfate : Fate.ofType info.type = .notImplemented := by
      rcases htype with htype | htype <;> rw [htype] <;> decide
    rw [finding, hfate]
    rfl
  | batchError htype hbatch =>
    rw [finding, Fate.ofType_typed htype]
    simp only [hbatch, Bucket.findAt, Bucket.findFailure_typed (typed_ne_documents htype)]
    rfl
  | answerError htype hanswer herror =>
    rw [finding, Fate.ofType_typed htype]
    simp only [findAt_answer hanswer, Bucket.find_typed (typed_ne_documents htype),
      Bucket.findValue, herror]
    rfl
  | layoutError htype hformat hanswer hvalue hlayout =>
    obtain rfl := Bucket.layout_eq htype hformat
    rw [finding, Fate.ofType_typed htype]
    simp only [findAt_answer hanswer, Bucket.find_typed (typed_ne_documents htype),
      Bucket.findValue, hvalue, hlayout]
    rfl
  | documentsError htype hbatch =>
    rw [finding, Fate.ofType_document htype]
    simp only [hbatch]
    rfl
  | @noDocument v htype hanswer hnone =>
    have hmissing : (v.isNull || v.failure?.isSome) = true := by
      rcases hnone with rfl | ⟨e, he⟩
      · rfl
      · rw [he, Option.isSome_some, Bool.or_true]
    rw [finding, Fate.ofType_document htype]
    simp only [findAt_answer hanswer, Bucket.find, Bucket.findDocument, if_pos hmissing]
    rfl

/-- A layout is all that is found. -/
theorem finding_of_laidOut {p : Preview} (h : LaidOut outcomes infos info p) :
    ∃ isDocument, finding outcomes infos info = .ok ⟨p, isDocument⟩ := by
  cases h with
  | typed htype hformat hanswer hvalue hlayout =>
    obtain rfl := Bucket.layout_eq htype hformat
    refine ⟨false, ?_⟩
    rw [finding, Fate.ofType_typed htype]
    simp only [findAt_answer hanswer, Bucket.find_typed (typed_ne_documents htype),
      Bucket.findValue, hvalue, hlayout]
    rfl
  | @document v p htype hanswer hvalue hnull hlayout =>
    have hthere : ¬ (v.isNull || v.failure?.isSome) = true := by
      rw [hvalue, Option.isSome_none, Bool.or_false, Value.isNull_iff]
      exact hnull
    refine ⟨true, ?_⟩
    rw [finding, Fate.ofType_document htype]
    simp only [findAt_answer hanswer, Bucket.find, Bucket.findDocument, if_neg hthere, hlayout]
    rfl

/-- **Whatever is found is a placeholder or a layout.** -/
theorem placeheld_or_laidOut {f : Finding} (h : finding outcomes infos info = .ok f) :
    (∃ t, Placeheld outcomes infos info t) ∨ ∃ p, LaidOut outcomes infos info p := by
  rw [finding] at h
  rcases Fate.ofType_cases info.type with
    ⟨htype, hfate⟩ | ⟨htype, hfate⟩ | ⟨b, htype, hfate⟩ | ⟨htype, hfate⟩ <;> simp only [hfate] at h
  · exact .inl ⟨_, .expired htype⟩
  · exact .inl ⟨_, .notImplemented htype⟩
  · cases hbatch : outcomes b with
    | error e => exact .inl ⟨_, .batchError htype hbatch⟩
    | ok replies =>
      rw [hbatch] at h
      obtain ⟨v, hv, -⟩ := Outcome.exists_of_bind h
      have hanswer : IsAnswer outcomes infos info b v := ⟨replies, hbatch, hv⟩
      cases hvalue : v.failure? with
      | some e => exact .inl ⟨_, .answerError htype hanswer hvalue⟩
      | none =>
        cases hlayout : b.layout v with
        | error e =>
          exact .inl ⟨_, .layoutError htype (Bucket.layout_formatters htype) hanswer hvalue hlayout⟩
        | ok p =>
          exact .inr ⟨p, .typed htype (Bucket.layout_formatters htype) hanswer hvalue hlayout⟩
  · cases hbatch : outcomes .documents with
    | error e => exact .inl ⟨_, .documentsError htype hbatch⟩
    | ok replies =>
      rw [hbatch] at h
      obtain ⟨v, hv, h⟩ := Outcome.exists_of_bind h
      have hanswer : IsAnswer outcomes infos info .documents v := ⟨replies, hbatch, hv⟩
      rcases Bucket.findDocument_cases h with ⟨hnone, -⟩ | ⟨hnull, hvalue, t, ht, -⟩
      · exact .inl ⟨_, .noDocument htype hanswer hnone⟩
      · refine .inr ⟨⟨t, if t = "null" ∨ t = [] then 0 else 1⟩,
          .document htype hanswer hvalue hnull ?_⟩
        rw [Preview.ofDocument, ht]
        rfl

/-- **What the record of a key shows**: a placeholder, and then it counts nothing, or the layout of
its value with its entries. -/
structure ShownBy (budget : Value) (outcomes : Bucket → Except Failure Value)
    (infos : List KeyInfo) (info : KeyInfo) (r : Record) : Prop where
  key : r.key = info.key
  either : (∃ t, Placeheld outcomes infos info t) ∨ ∃ p, LaidOut outcomes infos info p
  placeheld : ∀ t, Placeheld outcomes infos info t →
    Preview.clipTo budget t = .ok r.payload ∧ r.count = 0
  laidOut : ∀ p, LaidOut outcomes infos info p →
    Preview.clipTo budget p.payload = .ok r.payload ∧ r.count = p.count

theorem shownBy_of_fill {budget : Value} {source : Text} {f : Finding} {r : Record}
    (hf : finding outcomes infos info = .ok f)
    (h : (Record.ofInfo source info).fill budget f = .ok r) :
    ShownBy budget outcomes infos info r := by
  obtain ⟨hkey, hcount, hpayload⟩ := Record.fill_eq_ok h
  refine ⟨hkey, placeheld_or_laidOut hf, fun t ht => ?_, fun p hp => ?_⟩
  · obtain rfl := Except.ok.inj (hf.symm.trans (finding_of_placeheld ht))
    exact ⟨hpayload, hcount⟩
  · obtain ⟨isDocument, hp⟩ := finding_of_laidOut hp
    obtain rfl := Except.ok.inj (hf.symm.trans hp)
    exact ⟨hpayload, hcount⟩

/-- Either way the record keeps within a positive budget, and counts no less than nothing. -/
theorem ShownBy.bounded {budget : Value} (hpos : budget.le (.int 0) = .ok false) {r : Record}
    (h : ShownBy budget outcomes infos info r) : 0 ≤ r.count ∧ Preview.Fits budget r.payload := by
  rcases h.either with ⟨t, ht⟩ | ⟨p, hp⟩
  · obtain ⟨hpayload, hcount⟩ := h.placeheld t ht
    exact ⟨hcount.ge, Preview.fits_clipTo hpos hpayload⟩
  · obtain ⟨hpayload, hcount⟩ := h.laidOut p hp
    exact ⟨hcount ▸ Int.natCast_nonneg _, Preview.fits_clipTo hpos hpayload⟩

end Payload

/-! ## 4. Stages -/

namespace Snapshot

/-- **The stages of a snapshot** from a state of its server, all of which came out well. -/
structure Stages (server : Server σ) (plan : Plan) (rounds : Nat) (s : σ) where
  client : Value
  opened : σ
  hconnect : server (.connect plan.connectLimit none) s = (.ok client, opened)
  scan : Scan
  swept : σ
  hsweep : (Scan.run server plan.limits rounds).run opened = (.ok (some scan), swept)
  infos : List KeyInfo
  loaded : σ
  hload : (KeyInfo.load server scan.keys).run swept = (.ok infos, loaded)
  outcomes : Bucket → Except Failure Value
  fetched : σ
  hfetch : (Payload.fetchAll server (Payload.buckets infos)).run loaded =
    (.ok (Payload.answered outcomes infos), fetched)

/-- **A snapshot that comes back has been through all stages**, and has a record for every key of
the sweep. -/
theorem take_stages {server : Server σ} {plan : Plan} {rounds : Nat} {target : Target} {s next : σ}
    {snapshot : Snapshot} (h : (take server plan rounds target).run s = (.ok (some snapshot), next)) :
    ∃ stages : Stages server plan rounds s,
      snapshot.records.map (·.key) = stages.scan.keys ∧
      List.Forall₂ (Payload.ShownBy plan.budget stages.outcomes stages.infos) stages.infos
        snapshot.records := by
  obtain ⟨client, opened, _, hconnect, hread⟩ := read_of_take h
  obtain ⟨scan, swept, hsweep, hscan⟩ := exists_scan_of_read hread
  obtain ⟨infos, loaded, hload, hrest⟩ := Session.run_bind_eq_ok.mp hscan
  obtain ⟨hinfos, names, hnames⟩ := KeyInfo.keys_of_load hload
  have hnodup : (infos.map (·.key)).Nodup := by
    rw [hinfos]
    exact Scan.run_nodup hsweep
  have hnames' : ∀ info ∈ infos, ∃ bs, encodeKey info.key = .ok bs := by
    intro info hinfo
    refine Outcome.exists_of_mapM hnames ?_
    rw [← hinfos]
    exact List.mem_map_of_mem hinfo
  rw [Record.listOfInfos_eq target.name hnodup] at hrest
  obtain ⟨records, fetched, hmaterialize, hdone⟩ := Session.run_bind_eq_ok.mp hrest
  obtain ⟨rfl, -⟩ := Session.run_pure_eq_ok.mp hdone
  obtain ⟨outcomes, hfetch, hshown⟩ := Payload.materialize_fills hnodup hnames' hmaterialize
  rw [Payload.wanted_fresh] at hfetch hshown
  have hrecords : List.Forall₂ (Payload.ShownBy plan.budget outcomes infos) infos records := by
    have hown := (List.forall₂_and_left infos records).mpr
      ⟨fun info hinfo => hinfo, List.forall₂_map_left_iff.mp hshown⟩
    refine hown.imp fun info r hr => ?_
    obtain ⟨f, hf, hfill⟩ := hr.2 info hr.1 rfl
    exact Payload.shownBy_of_fill hf hfill
  refine ⟨⟨client, opened, hconnect, scan, swept, hsweep, infos, loaded, hload, outcomes, fetched,
    hfetch⟩, ?_, hrecords⟩
  have hkeys : List.Forall₂ (· = ·) (infos.map (·.key)) (records.map (·.key)) :=
    List.forall₂_map_left_iff.mpr (List.forall₂_map_right_iff.mpr
      (hrecords.imp fun _ _ hr => hr.key.symm))
  rw [List.forall₂_eq_eq_eq] at hkeys
  exact hkeys.symm.trans hinfos

end Snapshot

end Keyscope
