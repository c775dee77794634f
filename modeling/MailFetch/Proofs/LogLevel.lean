import Mathlib
import MailFetch.Config.Load

/-! # The log level that is loaded early

The log level is wanted before the rest of the configuration and is read by itself, from the first
file from which it can be read. The configuration comes from the first file that can be read as a
whole. A file that can be read as a whole can be read for its log level, which is the same then. So
the two can differ only where a file is passed over on the way to the configuration although its log
level can be read; such a log level is stray.

* `Data.logLevel_of_config`: a configuration is read for the log level that it has.
* `Config.strayLevel?`: the first log level in a file that is passed over.
* `Config.loadLogLevel_of_load`: what is loaded early is the stray log level if there is one, and
  else the one of the configuration. `Config.stray_level_taken`: a stray one. -/

namespace MailFetch

/-! ### One file -/

namespace Data

/-- A field of a map is the same whatever other keys are known. -/
theorem Node.fields_of_cons {n : Node} {key : String} {keys : List String} {f : Fields}
    (h : n.fields false (key :: keys) = some f) :
    ∃ g, n.fields false [key] = some g ∧ g key = f key := by
  unfold fields at h ⊢
  split at h
  next entries =>
    split at h
    · cases h
    next hkeys =>
      obtain ⟨found, hfound, rfl⟩ := Option.map_eq_some_iff.mp h
      rw [List.mapM_cons] at hfound
      simp only [Option.bind_eq_bind, Option.bind_eq_some_iff, Option.map_eq_some_iff] at hfound
      obtain ⟨_, ⟨v, hv, rfl⟩, others, -, hall⟩ := hfound
      obtain rfl := Option.some.inj hall
      dsimp only
      rw [if_neg hkeys]
      exact ⟨fun k => ([(key, v)].lookup k).join, by simp [hv], by simp⟩
  next items => simp at h
  · exact ⟨_, rfl, by rw [← Option.some.inj h]⟩
  · cases h

/-- **A configuration** is read for the log level that it has. -/
theorem logLevel_of_config {usual c : Config} {n : Node} (h : config usual false n = some c) :
    logLevel false n = some c.logLevel := by
  unfold config at h
  simp only [Option.bind_eq_bind, Option.bind_eq_some_iff] at h
  obtain ⟨f, hf, level, hlevel, _, -, _, -, _, -, _, -, hc⟩ := h
  obtain ⟨g, hg, hsame⟩ := Node.fields_of_cons hf
  obtain rfl := Option.some.inj hc
  rw [logLevel, hg, ← hlevel]
  simp [logLevelField, Fields.get, hsame]

end Data

namespace Config

variable {d : Directories} {look : String → FileState} {c : Config}

/-- The log level in a file, whatever else is there. -/
def levelIn : FileState → Option (Option String)
  | .text s => logLevelOfText? s
  | .missing | .unreadable => none

theorem levelIn_of_ofFile {file : FileState} (h : ofFile d file = .ok c) :
    levelIn file = some c.logLevel := by
  cases file with
  | missing => cases h
  | unreadable => cases h
  | text s =>
    unfold ofFile at h
    dsimp only at h
    split at h
    next c' hc =>
      obtain rfl := Except.ok.inj h
      obtain ⟨n, hread, hconfig⟩ := Option.bind_eq_some_iff.mp hc
      rw [levelIn, logLevelOfText?, hread]
      exact Data.logLevel_of_config hconfig
    · cases h

/-! ### One file after another -/

/-- The files that are passed over on the way to the configuration: none if a file is asked for. -/
def passedOver (d : Directories) (look : String → FileState) : Option String → List String
  | some _ => []
  | none => (candidates d).takeWhile fun path => (ofFile d (look path)).toOption.isNone

/-- **A stray log level**: the first one in a file that is passed over. -/
def strayLevel? (d : Directories) (look : String → FileState) (explicit : Option String) :
    Option (Option String) :=
  (passedOver d look explicit).findSome? fun path => levelIn (look path)

theorem loadLogLevel_eq (look : String → FileState) (explicit : Option String) :
    loadLogLevel d look explicit =
      ((match explicit with
        | some path => [path]
        | none => candidates d).findSome? fun path => levelIn (look path)).join := by
  unfold loadLogLevel
  congr 2

/-- **The first log level of several files** is in a file that is passed over, or in the first one
that holds a configuration. -/
theorem join_findSome?_levelIn (usual : Config) (hunset : usual.logLevel = none)
    (paths : List String) :
    (paths.findSome? fun path => levelIn (look path)).join =
      ((paths.takeWhile fun path => (ofFile d (look path)).toOption.isNone).findSome?
        fun path => levelIn (look path)).getD
        ((paths.findSome? fun path => (ofFile d (look path)).toOption).getD usual).logLevel := by
  induction paths with
  | nil => exact hunset.symm
  | cons path rest ih =>
    cases hfile : ofFile d (look path) with
    | ok c => simp [hfile, Except.toOption, levelIn_of_ofFile hfile]
    | error fault =>
      cases hlevel : levelIn (look path) with
      | none => simpa [hfile, Except.toOption, hlevel] using ih
      | some level => simp [hfile, Except.toOption, hlevel]

/-- **The log level that is loaded early** is the stray one if there is one, and else the one of the
configuration. So the two agree exactly if no stray log level is another one; they do if no file is
passed over from which a log level can be read, and always if a file is asked for. -/
theorem loadLogLevel_of_load {explicit : Option String} (hload : load d look explicit = .ok c) :
    loadLogLevel d look explicit = (strayLevel? d look explicit).getD c.logLevel ∧
      (loadLogLevel d look explicit = c.logLevel ↔
        ∀ level, strayLevel? d look explicit = some level → level = c.logLevel) ∧
      (explicit.isSome = true → strayLevel? d look explicit = none) := by
  have hlevel : loadLogLevel d look explicit =
      (strayLevel? d look explicit).getD c.logLevel := by
    rw [loadLogLevel_eq]
    cases explicit with
    | some path =>
      have hfile : ofFile d (look path) = .ok c := by
        cases hread : ofFile d (look path) with
        | ok c' =>
          simp only [load, hread, Except.mapError] at hload
          exact congrArg Except.ok (Except.ok.inj hload)
        | error fault => simp [load, hread, Except.mapError] at hload
      simp [strayLevel?, passedOver, levelIn_of_ofFile hfile]
    | none =>
      obtain rfl := Except.ok.inj hload
      exact join_findSome?_levelIn (usual d) rfl (candidates d)
  refine ⟨hlevel, ?_, fun hasked => ?_⟩
  · rw [hlevel]
    cases strayLevel? d look explicit <;> simp
  · obtain ⟨path, rfl⟩ := Option.isSome_iff_exists.mp hasked
    rfl

/-! ### Two files -/

theorem ofFile_of_read {s : String} {n : Data.Node} (h : Yaml.read s = some n) :
    ofFile d (.text s) = match Data.config (usual d) false n with
      | some c => .ok c
      | none => .error .notUnderstood := by
  unfold ofFile
  dsimp only
  rw [ofText?, h]
  rfl

theorem levelIn_of_read {s : String} {n : Data.Node} (h : Yaml.read s = some n) :
    levelIn (.text s) = Data.logLevel false n := by
  rw [levelIn, logLevelOfText?, h]
  rfl

/-- The directories of a user who has chosen none. -/
def homeOnly : Directories := { home := "/home" }

theorem candidates_homeOnly :
    candidates homeOnly = [".attachd.yml", "/home/.config/attachd/attachd.yml"] := rfl

/-- A file of the working directory that is a list, and one of the user's with a log level. -/
def listThenLevel (path : String) : FileState :=
  .text (if path = ".attachd.yml" then "- log-level" else "log-level: warn")

/-- A file from which nothing can be read leaves no stray log level: the configuration comes from
the next file, and so does the log level that is loaded early. -/
theorem loadLogLevel_of_load_list : ∃ c, load homeOnly listThenLevel none = .ok c ∧
    c.logLevel = some "warn" ∧ loadLogLevel homeOnly listThenLevel none = c.logLevel := by
  have hlist : Yaml.read "- log-level" = some (.list [.scalar (.plain "log-level")]) := by cbv
  have hlevel : Yaml.read "log-level: warn" =
      some (.map [(.scalar (.plain "log-level"), .scalar (.plain "warn"))]) := by cbv
  have hfirst : ofFile homeOnly (listThenLevel ".attachd.yml") = .error .notUnderstood :=
    ofFile_of_read hlist
  have hsecond : ofFile homeOnly (listThenLevel "/home/.config/attachd/attachd.yml") =
      .ok { usual homeOnly with logLevel := some "warn" } := ofFile_of_read hlevel
  have hload : load homeOnly listThenLevel none =
      .ok { usual homeOnly with logLevel := some "warn" } := by
    simp [load, candidates_homeOnly, hfirst, hsecond, Except.toOption]
  have hnone : levelIn (listThenLevel ".attachd.yml") = none := levelIn_of_read hlist
  have hstray : strayLevel? homeOnly listThenLevel none = none := by
    simp [strayLevel?, passedOver, candidates_homeOnly, hfirst, hsecond, Except.toOption, hnone]
  obtain ⟨-, hagrees, -⟩ := loadLogLevel_of_load hload
  refine ⟨_, hload, rfl, hagrees.mpr fun level h => ?_⟩
  rw [hstray] at h
  cases h

/-- A file of the working directory whose settings are no map, and none of the user's. -/
def spoiltSettings (path : String) : FileState :=
  if path = ".attachd.yml" then .text "log-level: debug\nscheduler: 1\n" else .missing

/-- **A stray log level is taken.** The file in the working directory is passed over because of its
settings, so that nothing is set in the configuration; but the log level is read from there. -/
theorem stray_level_taken : ∃ c, load homeOnly spoiltSettings none = .ok c ∧
    c.logLevel = none ∧ loadLogLevel homeOnly spoiltSettings none = some "debug" := by
  have hread : Yaml.read "log-level: debug\nscheduler: 1\n" =
      some (.map [(.scalar (.plain "log-level"), .scalar (.plain "debug")),
        (.scalar (.plain "scheduler"), .scalar (.plain "1"))]) := by cbv
  have hfirst : ofFile homeOnly (spoiltSettings ".attachd.yml") = .error .notUnderstood :=
    ofFile_of_read hread
  have hsecond : ofFile homeOnly (spoiltSettings "/home/.config/attachd/attachd.yml") =
      .error .notRead := rfl
  have hstray : levelIn (spoiltSettings ".attachd.yml") = some (some "debug") :=
    levelIn_of_read hread
  refine ⟨usual homeOnly, ?_, rfl, ?_⟩
  · simp [load, candidates_homeOnly, hfirst, hsecond, Except.toOption]
  · simp [loadLogLevel_eq, candidates_homeOnly, hstray]

end Config

end MailFetch
