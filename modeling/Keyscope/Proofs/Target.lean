/-
# Targets that a configuration describes

An entry of a configuration describes a target if its texts can be made and its port exists
(`ofRef_eq_ok`).  Then identifier and host have no blanks around them, because they were taken off,
and stripping twice is stripping once (`Text.strip_strip`).  The name is as it was written: nothing is
taken off it, and it is not empty.

What the entry of a target describes is the target without the blanks around its host, or nothing if
there is no host then (`Named.ofRef`).  A target that was read from a document (`Normal`) is what its own
entry describes, and only such a target is (`ofValue_toValue_eq_ok_iff`), so that targets can be written
and read again.
-/
import Mathlib.Data.List.DropRight
import Keyscope.Proofs.Value.Parts
import Keyscope.Proofs.Value.Shown
import Keyscope.Target

namespace Keyscope

/-! ## 1. Blanks around a text -/

namespace Text

variable {p : CodePoint → Bool} {t : Text}

theorem trim_eq (p : CodePoint → Bool) (t : Text) : trim p t = (t.dropWhile p).rdropWhile p := rfl

/-- What is left after trimming does not start with what was trimmed. -/
theorem dropWhile_trim (p : CodePoint → Bool) (t : Text) : (trim p t).dropWhile p = trim p t := by
  rw [trim_eq]
  cases htrim : (t.dropWhile p).rdropWhile p with
  | nil => rfl
  | cons c u =>
    -- the first code point is that of the text without what was dropped in front
    obtain ⟨rest, hrest⟩ := htrim ▸ List.rdropWhile_prefix p (t.dropWhile p)
    have hlong : 0 < (t.dropWhile p).length := by simp [← hrest]
    have hfirst : p c = false := by simpa [← hrest] using List.dropWhile_get_zero_not p t hlong
    rw [List.dropWhile_cons_of_neg (by simp [hfirst])]

/-- Trimming twice is trimming once. -/
theorem trim_trim (p : CodePoint → Bool) (t : Text) : trim p (trim p t) = trim p t := by
  rw [trim_eq p (trim p t), dropWhile_trim, trim_eq, List.rdropWhile_idempotent]

theorem strip_strip (t : Text) : t.strip.strip = t.strip := trim_trim CodePoint.isBlank t

/-- **A text has no blanks around it**: it neither begins nor ends with one. -/
structure Unpadded (t : Text) : Prop where
  first : ∀ c, t.head? = some c → c.isBlank = false
  last : ∀ c, t.getLast? = some c → c.isBlank = false

/-- Such a text is one that stripping leaves as it is. -/
theorem unpadded_iff : t.Unpadded ↔ t.strip = t := by
  have hfront : t.dropWhile CodePoint.isBlank = t ↔ ∀ c, t.head? = some c → c.isBlank = false := by
    cases t with
    | nil => simp
    | cons c t => simp
  have hback : t.rdropWhile CodePoint.isBlank = t ↔ ∀ c, t.getLast? = some c → c.isBlank = false := by
    rw [List.rdropWhile_eq_self_iff]
    constructor
    · intro h c hc
      obtain ⟨front, rfl⟩ := List.getLast?_eq_some_iff.mp hc
      simpa using h (by simp)
    · intro h hne
      simpa using h _ (List.getLast?_eq_some_getLast hne)
  constructor
  · rintro ⟨hfirst, hlast⟩
    rw [strip, trim_eq, hfront.mpr hfirst, hback.mpr hlast]
  · intro h
    have hdrop : t.dropWhile CodePoint.isBlank = t := by
      have htrim := dropWhile_trim CodePoint.isBlank t
      rwa [show trim CodePoint.isBlank t = t from h] at htrim
    refine ⟨hfront.mp hdrop, hback.mp ?_⟩
    rwa [strip, trim_eq, hdrop] at h

end Text

/-! ## 2. Entries that describe a target -/

/-- No value of a dictionary is an error in the place of a value, as replies may have them.
Documents have none. -/
def Ref.HasData (r : Ref) : Prop :=
  ∀ name v, r.field? name = some v → ∀ e, v.cell ≠ .leaf (.error e)

namespace Target

variable {r : Ref} {t : Target}

/-- **What a target takes from its entry.** -/
structure Describes (r : Ref) (t : Target) : Prop where
  isDict : r.isDict = true
  id : ∃ text, entry "id" r = .ok text ∧ t.id = text.strip
  id_ne : t.id ≠ []
  host : ∃ text, entry "host" r = .ok text ∧ t.host = text.strip
  host_ne : t.host ≠ []
  port : portOr defaultPort r = .ok t.port
  port_pos : 0 < t.port
  port_le : t.port ≤ lastPort
  name : nameOr t.id r = .ok t.name

/-- An entry is a target if and only if it describes one. -/
theorem ofRef_eq_ok : ofRef r = .ok t ↔ Describes r t := by
  constructor
  · intro h
    unfold ofRef at h
    split at h
    swap
    · cases h
    rename_i hdict
    obtain ⟨id, hid, h⟩ := Outcome.exists_of_bind h
    obtain ⟨host, hhost, h⟩ := Outcome.exists_of_bind h
    dsimp only at h
    split at h
    · cases h
    rename_i hid'
    split at h
    · cases h
    rename_i hhost'
    obtain ⟨port, hport, h⟩ := Outcome.exists_of_bind h
    split at h
    · obtain ⟨_, -, h⟩ := Outcome.exists_of_bind h
      cases h
    rename_i hrange
    obtain ⟨name, hname, h⟩ := Outcome.exists_of_bind h
    obtain rfl := Except.ok.inj h
    rw [not_or] at hrange
    exact ⟨hdict, ⟨id, hid, rfl⟩, by simpa using hid', ⟨host, hhost, rfl⟩, by simpa using hhost',
      hport, Int.not_le.mp hrange.1, Int.not_lt.mp hrange.2, hname⟩
  · rintro ⟨hdict, ⟨id, hid, hid'⟩, hid_ne, ⟨host, hhost, hhost'⟩, hhost_ne, hport, hpos, hle, hname⟩
    have hrange : ¬ (t.port ≤ 0 ∨ lastPort < t.port) :=
      not_or.mpr ⟨Int.not_le.mpr hpos, Int.not_lt.mpr hle⟩
    rw [hid'] at hid_ne hname
    rw [hhost'] at hhost_ne
    simp only [ofRef, hdict, if_true, hid, hhost, hport, Outcome.ok_bind, List.isEmpty_iff, hid_ne,
      hhost_ne, if_false, hrange, hname]
    rw [← hid', ← hhost']
    rfl

namespace Describes

variable (h : Describes r t)
include h

theorem strip_id : t.id.strip = t.id := by
  obtain ⟨text, -, hid⟩ := h.id
  rw [hid, Text.strip_strip]

theorem strip_host : t.host.strip = t.host := by
  obtain ⟨text, -, hhost⟩ := h.host
  rw [hhost, Text.strip_strip]

/-- A name that is given has something in it, and one that is not given is the identifier. -/
theorem name_ne (hr : r.HasData) : t.name ≠ [] := by
  have hname := h.name
  unfold nameOr at hname
  split at hname
  · rename_i v hv
    split at hname
    · rename_i hpresent
      exact Ref.toText_ne_nil (hr _ v hv) hpresent hname
    · obtain hsame := Except.ok.inj hname
      rw [← hsame]
      exact h.id_ne
  · obtain hsame := Except.ok.inj hname
    rw [← hsame]
    exact h.id_ne

end Describes

/-- The entry of a target holds no errors. -/
theorem hasData_toValue (t : Target) : (Ref.ofValue t.toValue).HasData := by
  intro name part hpart e he
  obtain ⟨v, hv, rfl⟩ := Option.map_eq_some_iff.mp hpart
  obtain rfl := Cell.leaf.inj he
  obtain ⟨key, hmem⟩ := Value.exists_of_find? hv
  simp at hmem

/-! ## 3. Targets that can be written and read again -/

/-- **A target as it is read from a document.** -/
structure Normal (t : Target) : Prop where
  strip_id : t.id.strip = t.id
  id_ne : t.id ≠ []
  strip_host : t.host.strip = t.host
  host_ne : t.host ≠ []
  name_ne : t.name ≠ []
  port_pos : 0 < t.port
  port_le : t.port ≤ lastPort

theorem Describes.normal (h : Describes r t) (hr : r.HasData) : t.Normal :=
  ⟨h.strip_id, h.id_ne, h.strip_host, h.host_ne, h.name_ne hr, h.port_pos, h.port_le⟩

/-- The value under a name is a leaf. -/
def HasLeaf (r : Ref) (name : Text) (v : Value) : Prop :=
  ∃ part, r.field? name = some part ∧ part.cell = .leaf v

theorem HasLeaf.entry_text {name u : Text} (h : HasLeaf r name (.text u)) : entry name r = .ok u := by
  obtain ⟨part, hpart, hcell⟩ := h
  by_cases hu : u = []
  · simp [entry, hpart, Ref.isPresent, hcell, Value.isPresent, hu]
  · simp [entry, hpart, Ref.isPresent, hcell, Value.isPresent, hu, Ref.toText, Value.toText]

theorem HasLeaf.portOr_int {n : Int} (h : HasLeaf r "port" (.int n)) (standard : Int) :
    portOr standard r = .ok n := by
  obtain ⟨part, hpart, hcell⟩ := h
  simp [portOr, hpart, Ref.toInteger, hcell, Value.toInteger]

theorem HasLeaf.nameOr_text {u : Text} (h : HasLeaf r "name" (.text u)) (hu : u ≠ []) (id : Text) :
    nameOr id r = .ok u := by
  obtain ⟨part, hpart, hcell⟩ := h
  simp [nameOr, hpart, Ref.isPresent, hcell, Value.isPresent, hu, Ref.toText, Value.toText]

/-- **A dictionary with the four values of a target**, whatever else is in it. -/
structure Entry (t : Target) (r : Ref) : Prop where
  isDict : r.isDict = true
  id : HasLeaf r "id" (.text t.id)
  name : HasLeaf r "name" (.text t.name)
  host : HasLeaf r "host" (.text t.host)
  port : HasLeaf r "port" (.int t.port)

/-- What a target is written as is an entry of it. -/
theorem entry_toValue (t : Target) : t.Entry (.ofValue t.toValue) :=
  ⟨rfl, ⟨_, rfl, rfl⟩, ⟨_, rfl, rfl⟩, ⟨_, rfl, rfl⟩, ⟨_, rfl, rfl⟩⟩

/-- What becomes of a target whose entry is read: the blanks around its host are taken off, and
without a host it is none. -/
def reread (t : Target) : Except Failure Target :=
  if t.host.strip = [] then .error (.targetWithoutHost t.id)
  else .ok { t with host := t.host.strip }

/-- **A target that is read again but for its host.** -/
structure Named (t : Target) : Prop where
  strip_id : t.id.strip = t.id
  id_ne : t.id ≠ []
  name_ne : t.name ≠ []
  port_pos : 0 < t.port
  port_le : t.port ≤ lastPort

theorem Normal.named (h : t.Normal) : t.Named :=
  ⟨h.strip_id, h.id_ne, h.name_ne, h.port_pos, h.port_le⟩

theorem reread_eq_ok_iff (hhost : t.host ≠ []) : t.reread = .ok t ↔ t.host.strip = t.host := by
  unfold reread
  constructor
  · intro h
    split at h
    · cases h
    · exact congrArg host (Except.ok.inj h)
  · intro h
    rw [h, if_neg hhost]

theorem Normal.reread_eq (h : t.Normal) : t.reread = .ok t :=
  (reread_eq_ok_iff h.host_ne).mpr h.strip_host

/-- **An entry of a target describes** the target with its host read again. -/
theorem Named.ofRef (h : t.Named) (hentry : t.Entry r) : ofRef r = t.reread := by
  obtain ⟨hdict, hid, hname, hhost, hport⟩ := hentry
  unfold reread
  split
  · rename_i hblank
    rw [Target.ofRef, if_pos hdict, hid.entry_text, Outcome.ok_bind, hhost.entry_text, Outcome.ok_bind,
      h.strip_id]
    simp only [List.isEmpty_iff, h.id_ne, hblank, if_true, if_false]
    rfl
  · rename_i hblank
    exact ofRef_eq_ok.mpr ⟨hdict, ⟨t.id, hid.entry_text, h.strip_id.symm⟩, h.id_ne,
      ⟨t.host, hhost.entry_text, rfl⟩, hblank, hport.portOr_int defaultPort, h.port_pos, h.port_le,
      hname.nameOr_text h.name_ne t.id⟩

/-- What the entry of a target describes. -/
theorem Named.ofValue_toValue (h : t.Named) : ofValue t.toValue = t.reread :=
  h.ofRef (entry_toValue t)

/-- **The targets that are normal** are those that their own entries describe. -/
theorem ofValue_toValue_eq_ok_iff : ofValue t.toValue = .ok t ↔ t.Normal := by
  constructor
  · intro h
    exact (ofRef_eq_ok.mp h).normal (hasData_toValue t)
  · intro h
    rw [h.named.ofValue_toValue, h.reread_eq]

end Target

end Keyscope
