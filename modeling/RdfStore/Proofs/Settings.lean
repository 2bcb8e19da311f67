import RdfStore.Proofs.Except
import RdfStore.Proofs.Query.Assignment
import RdfStore.Settings

/-!
# Overriding settings

An environment overrides settings by a kind of storage, a path and a default graph, each of which
may be missing, and the result is checked. `Settings.override_settled` says what comes of it in
every case: either valid settings each part of which is the one that the environment or the given
settings choose (`Settings.Overridden`), or the first thing that is wrong (`Settings.Refused`). An
environment that was applied once changes nothing any more.

Three functions decide here, and each is described in the same way: by the cases in which it
succeeds, the cases in which it fails, and the fact that there are no others
(`Except.outcome_iff`). What the check accepts and what it reports otherwise is
`Settings.check_outcome`.
-/

namespace RdfStore.Settings

open Query (SameText)

/-! ## Valid settings -/

/-- A text holds nothing but blanks. -/
def Blank (text : String) : Prop := ∀ c ∈ text.toList, Text.isBlank c = true

/-- A prefix that can be written in front of a colon, and a namespace for it. -/
structure UsableEntry (entry : String × String) : Prop where
  name : entry.1 ≠ ""
  noColon : ':' ∉ entry.1.toList
  namespaceUri : entry.2 ≠ ""

/-- Settings that a session can be made of. -/
structure Valid (s : Settings) : Prop where
  defaultGraph : ¬ Blank s.defaultGraph
  backend : s.backend ≠ .file ""
  prefixes : ∀ entry ∈ s.prefixes.entries, UsableEntry entry

/-- The first fault of settings: the default graph, then the path, then the prefixes in order. -/
inductive Faulty (s : Settings) : SettingsFault → Prop
  | emptyDefaultGraph : Blank s.defaultGraph → Faulty s .emptyDefaultGraph
  | emptyPath : ¬ Blank s.defaultGraph → s.backend = .file "" → Faulty s .emptyPath
  | prefixEntry {before after : List (String × String)} {entry : String × String} :
    ¬ Blank s.defaultGraph → s.backend ≠ .file "" →
    s.prefixes.entries = before ++ entry :: after →
    (∀ earlier ∈ before, UsableEntry earlier) → ¬ UsableEntry entry →
    Faulty s (.prefixEntry entry.1)

theorem isAllBlank_iff {text : String} : Text.isAllBlank text.toList = true ↔ Blank text :=
  List.all_eq_true

theorem isBadEntry_eq_false_iff {entry : String × String} :
    isBadEntry entry = false ↔ UsableEntry entry := by
  rw [isBadEntry, Bool.or_eq_false_iff, Bool.or_eq_false_iff, String.isEmpty_eq_false_iff,
    String.isEmpty_eq_false_iff, List.contains_eq_mem, decide_eq_false_iff_not]
  exact ⟨fun ⟨⟨name, noColon⟩, uri⟩ => ⟨name, noColon, uri⟩,
    fun usable => ⟨⟨usable.name, usable.noColon⟩, usable.namespaceUri⟩⟩

theorem isBadEntry_iff {entry : String × String} :
    isBadEntry entry = true ↔ ¬ UsableEntry entry := by
  rw [← isBadEntry_eq_false_iff, Bool.not_eq_false]

theorem find?_isBadEntry_eq_none_iff {entries : List (String × String)} :
    entries.find? isBadEntry = none ↔ ∀ entry ∈ entries, UsableEntry entry := by
  simp only [List.find?_eq_none, Bool.not_eq_true, isBadEntry_eq_false_iff]

theorem find?_isBadEntry_eq_some_iff {entries : List (String × String)} {entry : String × String} :
    entries.find? isBadEntry = some entry ↔
      ¬ UsableEntry entry ∧ ∃ before after, entries = before ++ entry :: after ∧
        ∀ earlier ∈ before, UsableEntry earlier := by
  simp only [List.find?_eq_some_iff_append, isBadEntry_iff, Bool.not_eq_true',
    isBadEntry_eq_false_iff]

section Check

variable {s : Settings}

theorem Valid.check_eq (valid : s.Valid) : s.check = .ok () := by
  rw [check, if_neg fun blank => valid.defaultGraph (isAllBlank_iff.1 blank),
    if_neg valid.backend, find?_isBadEntry_eq_none_iff.2 valid.prefixes]

theorem Faulty.check_eq {fault : SettingsFault} (faulty : s.Faulty fault) :
    s.check = .error fault := by
  unfold check
  cases faulty with
  | emptyDefaultGraph blank => rw [if_pos (isAllBlank_iff.2 blank)]
  | emptyPath named nowhere =>
      rw [if_neg fun blank => named (isAllBlank_iff.1 blank), if_pos nowhere]
  | prefixEntry named somewhere entries usable bad =>
      have found := find?_isBadEntry_eq_some_iff.2 ⟨bad, _, _, entries, usable⟩
      rw [if_neg fun blank => named (isAllBlank_iff.1 blank), if_neg somewhere, found]

theorem valid_or_faulty (s : Settings) : s.Valid ∨ ∃ fault, s.Faulty fault := by
  by_cases named : Blank s.defaultGraph
  · exact Or.inr ⟨_, .emptyDefaultGraph named⟩
  by_cases somewhere : s.backend = .file ""
  · exact Or.inr ⟨_, .emptyPath named somewhere⟩
  cases found : s.prefixes.entries.find? isBadEntry with
  | none => exact Or.inl ⟨named, somewhere, find?_isBadEntry_eq_none_iff.1 found⟩
  | some entry =>
      obtain ⟨bad, before, after, entries, usable⟩ := find?_isBadEntry_eq_some_iff.1 found
      exact Or.inr ⟨_, .prefixEntry named somewhere entries usable bad⟩

/-- The check accepts exactly valid settings, and otherwise reports their first fault. -/
theorem check_outcome (s : Settings) :
    (s.check = .ok () ↔ s.Valid) ∧ ∀ fault, s.check = .error fault ↔ s.Faulty fault := by
  have total : (∃ _ : Unit, s.Valid) ∨ ∃ fault, s.Faulty fault :=
    (valid_or_faulty s).imp_left fun valid => ⟨(), valid⟩
  obtain ⟨accepted, refused⟩ :=
    Except.outcome_iff (fun _ valid => valid.check_eq) (fun _ faulty => faulty.check_eq) total
  exact ⟨accepted (), refused⟩

end Check

/-! ## The choice of a storage -/

/-- A text in lower case is a word exactly if the text is that word in any case. -/
theorem lowerCase_eq_iff {text word : String} (small : word.toList.map Char.toLower = word.toList) :
    lowerCase text = word ↔ SameText text word := by
  rw [← Query.sameLetters_iff, Query.sameLetters, decide_eq_true_iff, small, lowerCase,
    ← String.toList_inj, String.toList_ofList]

theorem lowerCase_eq_memory_iff {kind : String} :
    lowerCase kind = "memory" ↔ SameText kind "memory" :=
  lowerCase_eq_iff (by decide)

theorem lowerCase_eq_redb_iff {kind : String} : lowerCase kind = "redb" ↔ SameText kind "redb" :=
  lowerCase_eq_iff (by decide)

/-- The storage that a kind and a path, where they are given, choose over a given one. -/
inductive Chosen (base : Backend) : Option String → Option String → Backend → Prop
  | memory {kind : String} {path : Option String} :
    SameText kind "memory" → Chosen base (some kind) path .memory
  | file {kind path : String} :
    SameText kind "redb" → Chosen base (some kind) (some path) (.file path)
  /-- The path of the given storage stays. -/
  | sameFile {kind path : String} :
    SameText kind "redb" → base = .file path → Chosen base (some kind) none (.file path)
  /-- A path alone chooses a database. -/
  | path {path : String} : Chosen base none (some path) (.file path)
  | unset : Chosen base none none base

/-- Why a kind and a path choose no storage. -/
inductive NotChosen (base : Backend) : Option String → Option String → SettingsFault → Prop
  | unknownBackend {kind : String} {path : Option String} :
    ¬ SameText kind "memory" → ¬ SameText kind "redb" →
    NotChosen base (some kind) path (.unknownBackend (lowerCase kind))
  | pathMissing {kind : String} :
    SameText kind "redb" → base = .memory → NotChosen base (some kind) none .pathMissing

section Storage

variable {base chosen : Backend} {kind path : Option String}

theorem Chosen.overrideBackend_eq (h : Chosen base kind path chosen) :
    overrideBackend base kind path = .ok chosen := by
  have apart : ¬ "redb" = "memory" := by decide
  unfold overrideBackend
  cases h with
  | memory memory =>
      simp only [lowerCase_eq_memory_iff.2 memory, if_true]
  | file redb => simp only [lowerCase_eq_redb_iff.2 redb, if_neg apart, if_true]
  | sameFile redb kept =>
      subst kept
      simp only [lowerCase_eq_redb_iff.2 redb, if_neg apart, if_true]
  | path => rfl
  | unset => rfl

theorem NotChosen.overrideBackend_eq {fault : SettingsFault}
    (h : NotChosen base kind path fault) : overrideBackend base kind path = .error fault := by
  have apart : ¬ "redb" = "memory" := by decide
  unfold overrideBackend
  cases h with
  | unknownBackend memory redb =>
      rw [← lowerCase_eq_memory_iff] at memory
      rw [← lowerCase_eq_redb_iff] at redb
      simp only [if_neg memory, if_neg redb]
  | pathMissing redb inMemory =>
      subst inMemory
      simp only [lowerCase_eq_redb_iff.2 redb, if_neg apart, if_true]

theorem chosen_or_not (base : Backend) (kind path : Option String) :
    (∃ chosen, Chosen base kind path chosen) ∨ ∃ fault, NotChosen base kind path fault := by
  rcases kind with _ | kind
  · rcases path with _ | path
    · exact Or.inl ⟨base, .unset⟩
    · exact Or.inl ⟨.file path, .path⟩
  by_cases memory : SameText kind "memory"
  · exact Or.inl ⟨.memory, .memory memory⟩
  by_cases redb : SameText kind "redb"
  · rcases path with _ | path
    · rcases base with _ | path
      · exact Or.inr ⟨.pathMissing, .pathMissing redb rfl⟩
      · exact Or.inl ⟨.file path, .sameFile redb rfl⟩
    · exact Or.inl ⟨.file path, .file redb⟩
  · exact Or.inr ⟨_, .unknownBackend memory redb⟩

/-- What was chosen is chosen again over itself. -/
theorem Chosen.again (h : Chosen base kind path chosen) : Chosen chosen kind path chosen := by
  cases h with
  | memory memory => exact .memory memory
  | file redb => exact .file redb
  | sameFile redb _ => exact .sameFile redb rfl
  | path => exact .path
  | unset => exact .unset

end Storage

/-! ## All overrides together -/

/-- What an environment makes of settings: it chooses the storage, it may name another default
graph, and it leaves the prefixes alone. -/
structure Overridden (s : Settings) (environment : String → Option String) (r : Settings) :
    Prop where
  backend : Chosen s.backend (environment backendVariable) (environment pathVariable) r.backend
  defaultGraph : r.defaultGraph = (environment defaultGraphVariable).getD s.defaultGraph
  standardPrefixes : r.standardPrefixes = s.standardPrefixes
  prefixes : r.prefixes = s.prefixes

/-- Why an environment cannot be applied to settings. -/
inductive Refused (s : Settings) (environment : String → Option String) : SettingsFault → Prop
  | backend {fault : SettingsFault} :
    NotChosen s.backend (environment backendVariable) (environment pathVariable) fault →
    Refused s environment fault
  | invalid {r : Settings} {fault : SettingsFault} :
    Overridden s environment r → r.Faulty fault → Refused s environment fault

section Overrides

variable {s r : Settings} {environment : String → Option String}

/-- An environment that makes something of settings makes the same of it again. -/
theorem Overridden.again (h : Overridden s environment r) : Overridden r environment r := by
  refine ⟨h.backend.again, ?_, rfl, rfl⟩
  have named := h.defaultGraph
  cases given : environment defaultGraphVariable with
  | none => rfl
  | some graph =>
      rw [given] at named
      exact named

theorem exists_overridden {chosen : Backend}
    (h : Chosen s.backend (environment backendVariable) (environment pathVariable) chosen) :
    ∃ r, Overridden s environment r :=
  ⟨{ s with
      backend := chosen
      defaultGraph := (environment defaultGraphVariable).getD s.defaultGraph }, h, rfl, rfl, rfl⟩

/-- Once the storage is chosen, the check decides. -/
theorem Overridden.override_eq (h : Overridden s environment r) :
    s.override environment = r.check.map fun _ => r := by
  obtain ⟨backend, graph, standard, entries⟩ := r
  obtain ⟨chosen, named, rfl, rfl⟩ := h
  dsimp only at chosen named
  subst named
  rw [override, chosen.overrideBackend_eq]
  rfl

theorem Refused.override_eq {fault : SettingsFault} (h : Refused s environment fault) :
    s.override environment = .error fault := by
  cases h with
  | backend notChosen =>
      rw [override, notChosen.overrideBackend_eq]
      rfl
  | invalid overridden faulty =>
      rw [overridden.override_eq, faulty.check_eq]
      rfl

theorem overridden_or_refused (s : Settings) (environment : String → Option String) :
    (∃ r, Overridden s environment r ∧ r.Valid) ∨ ∃ fault, Refused s environment fault := by
  rcases chosen_or_not s.backend (environment backendVariable) (environment pathVariable) with
    ⟨chosen, h⟩ | ⟨fault, h⟩
  · obtain ⟨r, overridden⟩ := exists_overridden h
    rcases valid_or_faulty r with valid | ⟨fault, faulty⟩
    · exact Or.inl ⟨r, overridden, valid⟩
    · exact Or.inr ⟨fault, .invalid overridden faulty⟩
  · exact Or.inr ⟨fault, .backend h⟩

end Overrides

/-- An environment either makes valid settings of given ones, in which the storage and the default
graph are what it chooses over theirs and the prefixes are theirs, or it is refused: for an unknown
kind of storage, for a database without a path from either source, or for the first fault of what
it makes. Settings that it has made pass the check, and it makes the same of them again. -/
theorem override_settled (s : Settings) (environment : String → Option String) :
    (∀ r, s.override environment = .ok r ↔ Overridden s environment r ∧ r.Valid) ∧
    (∀ fault, s.override environment = .error fault ↔ Refused s environment fault) ∧
    ∀ r, s.override environment = .ok r → r.check = .ok () ∧ r.override environment = .ok r := by
  have made {s r : Settings} (h : Overridden s environment r ∧ r.Valid) :
      s.override environment = .ok r := by
    rw [h.1.override_eq, h.2.check_eq]
    rfl
  obtain ⟨accepted, refused⟩ := Except.outcome_iff (fun _ h => made h)
    (fun _ h => Refused.override_eq h) (overridden_or_refused s environment)
  refine ⟨accepted, refused, fun r run => ?_⟩
  obtain ⟨overridden, valid⟩ := (accepted r).1 run
  exact ⟨valid.check_eq, made ⟨overridden.again, valid⟩⟩

/-- A kind in mixed case and no path: the database of the given settings is kept, whose blank
default graph the environment replaces. -/
theorem override_settled_sample :
    let s : Settings := { backend := .file "a.redb", defaultGraph := " " }
    let r : Settings := { backend := .file "a.redb", defaultGraph := "urn:d" }
    let environment := fun name =>
      if name = backendVariable then some "ReDB"
      else if name = defaultGraphVariable then some "urn:d"
      else none
    s.check = .error .emptyDefaultGraph ∧ s.override environment = .ok r ∧
      r.check = .ok () ∧ r.override environment = .ok r := by
  intro s r environment
  have redb : SameText "ReDB" "redb" := Query.sameLetters_iff.1 (by decide +kernel)
  have overridden : Overridden s environment r := ⟨.sameFile redb rfl, rfl, rfl, rfl⟩
  have valid : r.Valid := (check_outcome r).1.1 (by decide +kernel)
  obtain ⟨accepted, -, settled⟩ := override_settled s environment
  have run : s.override environment = .ok r := (accepted r).2 ⟨overridden, valid⟩
  exact ⟨by decide +kernel, run, settled r run⟩

/-- A kind in capitals keeps a database away whose path is empty in the settings and in the
environment. -/
example :
    let environment := fun name =>
      if name = backendVariable then some "MEMORY"
      else if name = pathVariable then some ""
      else none
    ({ backend := .file "" } : Settings).override environment = .ok {} := by
  rfl

end RdfStore.Settings
