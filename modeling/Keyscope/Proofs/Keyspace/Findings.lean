/-
# What is found for a key

The requests for the buckets come out in one way or another, and that alone decides what is found.
`Payload.Shows` says for a single key what it should be, case by case: by its type, which has a layout of
its own, by the outcome for its bucket, and by the answer at its place there.  That is what is found
(`shows_of_finding`), and something is found for every key as long as all answers have a text
(`exists_finding_of_listed`).
-/
import Keyscope.Proofs.Keyspace.Buckets

namespace Keyscope

/-! ## 1. What should be found -/

namespace Payload

/-- The types that are read with a request of their own. -/
def typed : List (Text × Bucket) :=
  [("string", .strings), ("hash", .hashes), ("set", .sets), ("zset", .sortedSets), ("list", .lists)]

/-- What lays the values of these types out. -/
def formatters : List (Text × (Value → Except Failure Preview)) :=
  [("string", Preview.ofString), ("hash", Preview.ofHash), ("set", Preview.ofSet),
    ("zset", Preview.ofSortedSet), ("list", Preview.ofList)]

/-- The types of keys that are not read. -/
def neverRead : List Text := ["none", "stream", "vectorset"]

/-- The answer for a key among those for the keys of its bucket; one that is missing is null. -/
def answerFor (b : Bucket) (infos : List KeyInfo) (info : KeyInfo) (replies : List Value) : Value :=
  (replies[(b.keysOf infos).idxOf info.key]?).getD .null

/-- **What is found for a key**, when the requests for the buckets come out so. -/
inductive Shows (outcomes : Bucket → Except Failure Value) (infos : List KeyInfo) (info : KeyInfo) :
    Finding → Prop
  | expired (htype : info.type = "none") : Shows outcomes infos info ⟨⟨"<key expired>", 0⟩, false⟩
  | notImplemented (htype : info.type = "stream" ∨ info.type = "vectorset") :
    Shows outcomes infos info ⟨⟨"<" ++ info.type ++ " preview not implemented>", 0⟩, false⟩
  /-- The request for the bucket failed. -/
  | batchError {b : Bucket} {e : Failure} (htype : (info.type, b) ∈ typed)
    (hbatch : outcomes b = .error e) :
    Shows outcomes infos info ⟨⟨"<read error: " ++ e.label ++ ">", 0⟩, false⟩
  /-- The answer for the key is an error. -/
  | answerError {b : Bucket} {replies : List Value} {e : Failure}
    (htype : (info.type, b) ∈ typed) (hbatch : outcomes b = .ok (.list replies))
    (hanswer : (answerFor b infos info replies).failure? = some e) :
    Shows outcomes infos info ⟨⟨"<read error: " ++ e.label ++ ">", 0⟩, false⟩
  /-- The answer for the key has no layout of its type. -/
  | layoutError {b : Bucket} {format : Value → Except Failure Preview} {replies : List Value}
    {e : Failure} (htype : (info.type, b) ∈ typed) (hformat : (info.type, format) ∈ formatters)
    (hbatch : outcomes b = .ok (.list replies))
    (hanswer : (answerFor b infos info replies).failure? = none)
    (hlayout : format (answerFor b infos info replies) = .error e) :
    Shows outcomes infos info ⟨⟨"<read error: " ++ e.label ++ ">", 0⟩, false⟩
  | laidOut {b : Bucket} {format : Value → Except Failure Preview} {replies : List Value}
    {p : Preview} (htype : (info.type, b) ∈ typed) (hformat : (info.type, format) ∈ formatters)
    (hbatch : outcomes b = .ok (.list replies))
    (hanswer : (answerFor b infos info replies).failure? = none)
    (hlayout : format (answerFor b infos info replies) = .ok p) :
    Shows outcomes infos info ⟨p, false⟩
  /-- The request for documents failed. -/
  | documentsError {e : Failure} (htype : info.type ∉ neverRead ++ typed.map Prod.fst)
    (hbatch : outcomes .documents = .error e) :
    Shows outcomes infos info ⟨⟨"<unsupported type>", 0⟩, false⟩
  /-- There is no document, or the answer for the key is an error. -/
  | noDocument {replies : List Value} (htype : info.type ∉ neverRead ++ typed.map Prod.fst)
    (hbatch : outcomes .documents = .ok (.list replies))
    (hanswer : answerFor .documents infos info replies = .null ∨
      ∃ e, (answerFor .documents infos info replies).failure? = some e) :
    Shows outcomes infos info ⟨⟨"<unsupported type>", 0⟩, false⟩
  | document {replies : List Value} {t : Text} (htype : info.type ∉ neverRead ++ typed.map Prod.fst)
    (hbatch : outcomes .documents = .ok (.list replies))
    (hnull : answerFor .documents infos info replies ≠ .null)
    (hanswer : (answerFor .documents infos info replies).failure? = none)
    (htext : (answerFor .documents infos info replies).decoded = .ok t) :
    Shows outcomes infos info ⟨⟨t, if t = "null" ∨ t = [] then 0 else 1⟩, true⟩

end Payload

/-! ## 2. Types and answers -/

/-- What becomes of the keys of each type. -/
theorem Fate.ofType_cases (type : Text) :
    (type = "none" ∧ ofType type = .expired) ∨
    ((type = "stream" ∨ type = "vectorset") ∧ ofType type = .notImplemented) ∨
    (∃ b, (type, b) ∈ Payload.typed ∧ ofType type = .read b) ∨
    (type ∉ Payload.neverRead ++ Payload.typed.map Prod.fst ∧ ofType type = .read .documents) := by
  unfold ofType
  split_ifs with hnone hnot hstring hhash hset hzset hlist
  · exact .inl ⟨hnone, rfl⟩
  · exact .inr (.inl ⟨hnot, rfl⟩)
  · exact .inr (.inr (.inl ⟨.strings, by simp [Payload.typed, hstring], rfl⟩))
  · exact .inr (.inr (.inl ⟨.hashes, by simp [Payload.typed, hhash], rfl⟩))
  · exact .inr (.inr (.inl ⟨.sets, by simp [Payload.typed, hset], rfl⟩))
  · exact .inr (.inr (.inl ⟨.sortedSets, by simp [Payload.typed, hzset], rfl⟩))
  · exact .inr (.inr (.inl ⟨.lists, by simp [Payload.typed, hlist], rfl⟩))
  · refine .inr (.inr (.inr ⟨?_, rfl⟩))
    rw [not_or] at hnot
    simp [Payload.typed, Payload.neverRead, hnone, hnot, hstring, hhash, hset, hzset, hlist]

theorem Fate.ofType_typed {type : Text} {b : Bucket} (h : (type, b) ∈ Payload.typed) :
    ofType type = .read b := by
  simp only [Payload.typed, List.mem_cons, Prod.mk.injEq, List.not_mem_nil, or_false] at h
  rcases h with ⟨rfl, rfl⟩ | ⟨rfl, rfl⟩ | ⟨rfl, rfl⟩ | ⟨rfl, rfl⟩ | ⟨rfl, rfl⟩ <;> decide

/-- The layout of a bucket is the one of its type. -/
theorem Bucket.layout_formatters {type : Text} {b : Bucket} (h : (type, b) ∈ Payload.typed) :
    (type, b.layout) ∈ Payload.formatters := by
  simp only [Payload.typed, List.mem_cons, Prod.mk.injEq, List.not_mem_nil, or_false] at h
  rcases h with ⟨rfl, rfl⟩ | ⟨rfl, rfl⟩ | ⟨rfl, rfl⟩ | ⟨rfl, rfl⟩ | ⟨rfl, rfl⟩ <;>
    simp [Payload.formatters, layout]

theorem Fate.ofType_document {type : Text}
    (h : type ∉ Payload.neverRead ++ Payload.typed.map Prod.fst) :
    ofType type = .read .documents := by
  rcases ofType_cases type with ⟨rfl, -⟩ | ⟨rfl | rfl, -⟩ | ⟨b, hb, -⟩ | ⟨-, hfate⟩
  · exact absurd (by decide) h
  · exact absurd (by decide) h
  · exact absurd (by decide) h
  · exact absurd (List.mem_append_right _ (List.mem_map_of_mem hb)) h
  · exact hfate

namespace Bucket

theorem find_typed {b : Bucket} (hb : b ≠ .documents) (v : Value) :
    b.find v = .ok (b.findValue v) := by
  cases b with
  | documents => exact absurd rfl hb
  | _ => rfl

theorem findFailure_typed {b : Bucket} (hb : b ≠ .documents) (e : Failure) :
    b.findFailure e = plain (.readError e) := by
  cases b with
  | documents => exact absurd rfl hb
  | _ => rfl

theorem findAt_list (b : Bucket) (replies : List Value) (place : Nat) :
    b.findAt (.ok (.list replies)) place = b.find (replies[place]?.getD .null) := by
  simp only [findAt, Value.memberOrNull_list]
  rfl

/-- A document that is found is the text of an answer that is neither null nor an error. -/
theorem findDocument_cases {v : Value} {f : Finding} (h : findDocument v = .ok f) :
    ((v = .null ∨ ∃ e, v.failure? = some e) ∧ f = plain .unsupported) ∨
    (v ≠ .null ∧ v.failure? = none ∧
      ∃ t, v.decoded = .ok t ∧ f = ⟨⟨t, if t = "null" ∨ t = [] then 0 else 1⟩, true⟩) := by
  rw [findDocument] at h
  split at h
  · rename_i hnone
    rw [Bool.or_eq_true, Value.isNull_iff, Option.isSome_iff_exists] at hnone
    exact .inl ⟨hnone, (Except.ok.inj h).symm⟩
  · rename_i hsome
    rw [Bool.or_eq_true, Value.isNull_iff, not_or, Option.not_isSome_iff_eq_none] at hsome
    rw [Preview.ofDocument] at h
    cases htext : v.decoded with
    | error e => rw [htext] at h; cases h
    | ok t =>
      rw [htext] at h
      exact .inr ⟨hsome.1, hsome.2, t, rfl, (Except.ok.inj h).symm⟩

theorem exists_findDocument {v : Value} (h : v.HasText) : ∃ f, findDocument v = .ok f := by
  obtain ⟨t, ht⟩ := h.decoded
  rw [findDocument]
  split
  · exact ⟨_, rfl⟩
  · rw [Preview.ofDocument, ht]
    exact ⟨_, rfl⟩

/-- Something is found in every place if all answers have a text. -/
theorem exists_findAt (b : Bucket) {outcome : Except Failure Value}
    (h : ∀ replies, outcome = .ok replies → replies.Listed) (place : Nat) :
    ∃ f, b.findAt outcome place = .ok f := by
  cases outcome with
  | error e => exact ⟨_, rfl⟩
  | ok replies =>
    obtain ⟨v, hv, htext⟩ := (h replies rfl).member place
    simp only [findAt, hv]
    cases b with
    | documents => exact exists_findDocument htext
    | _ => exact ⟨_, rfl⟩

end Bucket

/-! ## 3. What is found -/

namespace Payload

variable {outcomes : Bucket → Except Failure Value} {infos : List KeyInfo} {info : KeyInfo}

theorem typed_ne_documents {type : Text} {b : Bucket} (h : (type, b) ∈ typed) : b ≠ .documents := by
  rintro rfl
  simp [typed] at h

/-- **Findings are what they should be.** -/
theorem shows_of_finding (hlists : AreLists outcomes) {f : Finding}
    (h : finding outcomes infos info = .ok f) : Shows outcomes infos info f := by
  rw [finding] at h
  rcases Fate.ofType_cases info.type with
    ⟨htype, hfate⟩ | ⟨htype, hfate⟩ | ⟨b, htype, hfate⟩ | ⟨htype, hfate⟩ <;> simp only [hfate] at h
  · obtain rfl := Except.ok.inj h
    exact .expired htype
  · obtain rfl := Except.ok.inj h
    exact .notImplemented htype
  · have hb := typed_ne_documents htype
    cases hbatch : outcomes b with
    | error e =>
      rw [hbatch] at h
      obtain rfl := Except.ok.inj h
      rw [Bucket.findFailure_typed hb]
      exact .batchError htype hbatch
    | ok replies =>
      obtain ⟨vs, rfl⟩ := hlists b replies hbatch
      rw [hbatch, Bucket.findAt_list, Bucket.find_typed hb] at h
      obtain rfl := Except.ok.inj h
      rw [Bucket.findValue]
      split
      · rename_i e hanswer
        exact .answerError htype hbatch hanswer
      · rename_i hanswer
        split
        · rename_i p hlayout
          exact .laidOut htype (Bucket.layout_formatters htype) hbatch hanswer hlayout
        · rename_i e hlayout
          exact .layoutError htype (Bucket.layout_formatters htype) hbatch hanswer hlayout
  · cases hbatch : outcomes .documents with
    | error e =>
      rw [hbatch] at h
      obtain rfl := Except.ok.inj h
      exact .documentsError htype hbatch
    | ok replies =>
      obtain ⟨vs, rfl⟩ := hlists _ replies hbatch
      rw [hbatch, Bucket.findAt_list] at h
      rcases Bucket.findDocument_cases h with ⟨hanswer, rfl⟩ | ⟨hnull, hanswer, t, htext, rfl⟩
      · exact .noDocument htype hbatch hanswer
      · exact .document htype hbatch hnull hanswer htext

/-- Something is found for every key if all answers have a text. -/
theorem exists_finding_of_listed (hlisted : AreListed outcomes) (infos : List KeyInfo)
    (info : KeyInfo) : ∃ f, finding outcomes infos info = .ok f := by
  rw [finding]
  split
  · exact ⟨_, rfl⟩
  · exact ⟨_, rfl⟩
  · exact Bucket.exists_findAt _ (hlisted _) _

/-- What is found for a key of some bucket depends on the outcome for that bucket alone. -/
theorem finding_congr {others : Bucket → Except Failure Value}
    (h : ∀ b, info.bucket? = some b → outcomes b = others b) :
    finding outcomes infos info = finding others infos info := by
  rw [finding, finding]
  split
  · rfl
  · rfl
  · rename_i b hfate
    rw [h b (KeyInfo.bucket?_eq_some.mpr hfate)]

end Payload

end Keyscope
