import ThreatTree.Proofs.Settings.Layers

/-!
# What is reported of bad settings

Settings that do not load are reported with a message, but for three cases: the settings file
cannot be read, it is well formed and has no value all the same (a number or a day that does not
exist, or collections nested too deep), or one of its keys is no text. That these are all is
`escapes_iff`.

The main statement, `run_reports_settings`, says how the command line ends in each case.
-/

namespace ThreatTree

open Value (Entries)

namespace Settings

variable {env : Environment} {entries : Entries} {e : Error}

theorem ofEntries_override_of_key {k v : Value} (h : (k, v) ∈ entries) (hk : ∀ s, k ≠ .str s) :
    ofEntries (override env entries) = .error .notFields := by
  have hall : (entries.all fun e => isText e.1) = false := by
    rw [List.all_eq_false]
    refine ⟨(k, v), h, fun htext => ?_⟩
    obtain ⟨s, hs⟩ := isText_iff.1 htext
    exact hk s hs
  rw [ofEntries, all_isText_override, hall]
  rfl

/-- The entries of a file are refused with a message, or one of them is under no text. -/
theorem exists_key_of_message?_eq_none (h : ofEntries (override env entries) = .error e)
    (he : e.message? = none) : ∃ k v, (k, v) ∈ entries ∧ ∀ s, k ≠ .str s := by
  rw [ofEntries, all_isText_override] at h
  split at h
  · obtain ⟨problems, -, rfl⟩ := mapError_eq_error_iff.1 h
    cases he
  · next hall =>
    rw [Bool.not_eq_true, List.all_eq_false] at hall
    obtain ⟨⟨k, v⟩, hmem, hk⟩ := hall
    exact ⟨k, v, hmem, fun s hs => hk (isText_iff.2 ⟨s, hs⟩)⟩

theorem message?_of_no_entries (h : ofEntries (override env []) = .error e) :
    e.message? ≠ none := by
  intro he
  obtain ⟨k, v, hmem, -⟩ := exists_key_of_message?_eq_none h he
  cases hmem

end Settings

namespace Command

/-! ## What is not reported -/

/-- Loading settings ends with nothing reported: the file cannot be read, or is not loaded although
it is well formed, or has a mapping with a key that is no text. -/
inductive Escapes (w : World) (path : Option String) : Prop
  | file {e : File.Error} : settingsFile w path = .error (.inr e) → Escapes w path
  | value {name text : String} {e : Yaml.Error} :
      settingsFile w path = .ok (some (name, text)) → Yaml.load text.toList = .error e →
      e.isMalformed = false → Escapes w path
  | key {name text : String} {entries : Entries} {k v : Value} :
      settingsFile w path = .ok (some (name, text)) →
      Yaml.load text.toList = .ok (.mapping entries) → (k, v) ∈ entries →
      (∀ s, k ≠ .str s) → Escapes w path

variable {w : World} {path : Option String}

/-- A settings file that is named and is not there is reported. -/
theorem message?_of_settingsFile {e : Settings.Error}
    (h : settingsFile w path = .error (.inl e)) : e.message? ≠ none := by
  dsimp only [settingsFile] at h
  split at h
  · split at h <;> cases h
  · split at h
    · cases h
    · split at h
      · cases h
        exact Option.some_ne_none _
      · cases h

theorem loadSettings_of_file {file : Option (String × String)}
    (h : settingsFile w path = .ok file) :
    loadSettings w path = (Settings.ofText file w.env).mapError .inl := by
  rw [loadSettings, h]
  rfl

theorem message?_of_unreadable {name : String} {y : Yaml.Error} :
    (Settings.Error.unreadable name y).message? = none ↔ y.isMalformed = false := by
  cases y <;> simp [Settings.Error.message?] <;> rfl

/-- Settings from a file that was read end with nothing reported only for its value, or a key. -/
theorem escapes_of_ofText {file : Option (String × String)} {e : Settings.Error}
    (hfile : settingsFile w path = .ok file) (he : Settings.ofText file w.env = .error e)
    (hnone : e.message? = none) : Escapes w path := by
  cases file with
  | none => exact absurd hnone (Settings.message?_of_no_entries he)
  | some f =>
    obtain ⟨name, text⟩ := f
    rw [Settings.ofText, Settings.fileEntries] at he
    cases hload : Yaml.load text.toList with
    | error y =>
      rw [hload] at he
      cases he
      exact .value hfile hload (message?_of_unreadable.1 hnone)
    | ok v =>
      rw [hload] at he
      cases v with
      | null => exact absurd hnone (Settings.message?_of_no_entries he)
      | mapping entries =>
        have hentries : Settings.ofEntries (Settings.override w.env entries) = .error e := he
        obtain ⟨k, v, hmem, hk⟩ := Settings.exists_key_of_message?_eq_none hentries hnone
        exact .key hfile hload hmem hk
      | _ =>
        cases he
        cases hnone

/-- The settings end with nothing reported exactly in the three cases. -/
theorem escapes_iff : Escapes w path ↔ (∃ e, loadSettings w path = .error (.inr e))
    ∨ ∃ e, loadSettings w path = .error (.inl e) ∧ e.message? = none := by
  constructor
  · intro h
    cases h with
    | file hfile =>
      rw [loadSettings, hfile]
      exact .inl ⟨_, rfl⟩
    | value hfile hload he =>
      rw [loadSettings_of_file hfile, Settings.ofText, Settings.fileEntries, hload]
      exact .inr ⟨_, rfl, message?_of_unreadable.2 he⟩
    | key hfile hload hmem hk =>
      rw [loadSettings_of_file hfile, Settings.ofText, Settings.fileEntries, hload]
      show _ ∨ ∃ e, (Settings.ofEntries (Settings.override w.env _)).mapError _ = _ ∧ _
      rw [Settings.ofEntries_override_of_key hmem hk]
      exact .inr ⟨_, rfl, rfl⟩
  · intro h
    cases hfile : settingsFile w path with
    | error e =>
      cases e with
      | inr e => exact .file hfile
      | inl e =>
        rw [loadSettings, hfile] at h
        rcases h with ⟨e', he'⟩ | ⟨e', he', hnone⟩
        · cases he'
        · cases he'
          exact absurd hnone (message?_of_settingsFile hfile)
    | ok file =>
      rw [loadSettings_of_file hfile] at h
      obtain ⟨e, he, hnone⟩ : ∃ e, Settings.ofText file w.env = .error e ∧ e.message? = none := by
        rcases h with ⟨e, he⟩ | ⟨e, he, hnone⟩
        · obtain ⟨e', -, he'⟩ := mapError_eq_error_iff.1 he
          cases he'
        · obtain ⟨e', he', heq⟩ := mapError_eq_error_iff.1 he
          cases heq
          exact ⟨e, he', hnone⟩
      exact escapes_of_ofText hfile he hnone

/-- Settings load, or are refused with a message, or escape. -/
theorem loadSettings_cases (w : World) (path : Option String) :
    (∃ s, loadSettings w path = .ok s)
      ∨ (∃ e m, loadSettings w path = .error (.inl e) ∧ e.message? = some m)
      ∨ Escapes w path := by
  cases hload : loadSettings w path with
  | ok s => exact .inl ⟨s, rfl⟩
  | error e =>
    cases e with
    | inr e => exact .inr (.inr (escapes_iff.2 (.inl ⟨e, hload⟩)))
    | inl e =>
      cases hm : e.message? with
      | none => exact .inr (.inr (escapes_iff.2 (.inr ⟨e, hload, hm⟩)))
      | some m => exact .inr (.inl ⟨e, m, rfl, hm⟩)

/-! ## Command lines -/

section Lines

variable {args rest : List String} {name : Name} (h : Loads w args path name rest)
include h

theorem Loads.run_of_message {e : Settings.Error} {m : String}
    (hload : loadSettings w path = .error (.inl e)) (hm : e.message? = some m) :
    run w args = ⟨1, "", "Loading settings failed: " ++ printed [m], none, []⟩ := by
  have hstop : runLine w args = throw (.failed ("Loading settings failed: " ++ m)) := by
    rw [h.runLine_eq, readSettings, hload]
    show throw (Stop.ofSettings e) = _
    rw [Stop.ofSettings, hm]
  rw [run_of_throw hstop, Outcome.of, printed_append (by decide +kernel)]
  rfl

theorem Loads.run_of_escapes (hescapes : Escapes w path) :
    ∃ u, run w args = ⟨1, "", "", some u, []⟩ := by
  have hstop : ∃ u, runLine w args = throw (.unreported u) := by
    rw [h.runLine_eq, readSettings]
    rcases escapes_iff.1 hescapes with ⟨e, hload⟩ | ⟨e, hload, hnone⟩
    · rw [hload]
      exact ⟨_, rfl⟩
    · rw [hload]
      refine ⟨.settings e, ?_⟩
      show throw (Stop.ofSettings e) = _
      rw [Stop.ofSettings, hnone]
  obtain ⟨u, hu⟩ := hstop
  exact ⟨u, run_of_throw hu⟩

end Lines

/-- **Bad settings are reported, but for three cases.** Settings load or are refused with a
message, except if the settings file cannot be read, is not loaded although it is well formed, or
has a key that is no text. A command line that gets as far as loading its settings either has them,
or ends with exit code 1 and the message, or in one of these cases with exit code 1 and nothing
said. -/
theorem run_reports_settings (w : World) (path : Option String) :
    (Escapes w path ↔ ¬ ((∃ s, loadSettings w path = .ok s)
      ∨ ∃ e m, loadSettings w path = .error (.inl e) ∧ e.message? = some m))
    ∧ ∀ args name rest, Loads w args path name rest →
      (∃ s, loadSettings w path = .ok s)
      ∨ (∃ e m, loadSettings w path = .error (.inl e) ∧ e.message? = some m
        ∧ run w args = ⟨1, "", "Loading settings failed: " ++ printed [m], none, []⟩)
      ∨ (Escapes w path ∧ ∃ u, run w args = ⟨1, "", "", some u, []⟩) := by
  refine ⟨⟨?_, ?_⟩, ?_⟩
  · intro hescapes hsettled
    rcases escapes_iff.1 hescapes with ⟨e, hload⟩ | ⟨e, hload, hnone⟩
    · simp [hload] at hsettled
    · simp [hload, hnone] at hsettled
  · intro hsettled
    rcases loadSettings_cases w path with hok | hreported | hescapes
    · exact absurd (.inl hok) hsettled
    · exact absurd (.inr hreported) hsettled
    · exact hescapes
  · intro args name rest hloads
    rcases loadSettings_cases w path with hok | ⟨e, m, hload, hm⟩ | hescapes
    · exact .inl hok
    · exact .inr (.inl ⟨e, m, hload, hm, hloads.run_of_message hload hm⟩)
    · exact .inr (.inr ⟨hescapes, hloads.run_of_escapes hescapes⟩)

theorem loads_themes {text : String} {env : Settings.Environment} :
    Loads (worldWithSettings text env) ["themes"] none .themes [] :=
  ⟨⟨⟨[], ["themes"]⟩, "themes", by decide +kernel, rfl, rfl, rfl, rfl, rfl⟩⟩

/-- A settings file with a list in it. -/
theorem run_reports_settings_list :
    let w := worldWithSettings "- 1\n" []
    Loads w ["themes"] none .themes [] ∧ run w ["themes"]
      = ⟨1, "", "Loading settings failed: /plan/attacktree.yaml must contain a mapping\n", none,
        []⟩ := by
  intro w
  have hload : loadSettings w none = .error (.inl (.notMapping "/plan/attacktree.yaml")) := by
    decide +kernel
  refine ⟨loads_themes, ?_⟩
  rcases (run_reports_settings w none).2 _ _ _ loads_themes with ⟨s, hs⟩ | hreported | hescapes
  · rw [hload] at hs
    cases hs
  · obtain ⟨e, m, he, hm, hrun⟩ := hreported
    rw [hload] at he
    cases he
    cases hm
    rw [hrun]
    decide +kernel
  · obtain ⟨hescapes, -⟩ := hescapes
    rw [(run_reports_settings w none).1, hload] at hescapes
    exact absurd (.inr ⟨_, _, rfl, rfl⟩) hescapes

/-- A key that is a number is not reported. -/
theorem not_reported_of_number_as_key :
    let w := worldWithSettings "1: 2\n" []
    settingsFile w none = .ok (some ("/plan/attacktree.yaml", "1: 2\n"))
      ∧ loadSettings w none = .error (.inl .notFields)
      ∧ Settings.Error.notFields.message? = none
      ∧ Loads w ["themes"] none .themes []
      ∧ run w ["themes"] = ⟨1, "", "", some (.settings .notFields), []⟩ :=
  ⟨by decide +kernel, by decide +kernel, rfl, loads_themes, by decide +kernel⟩

end Command

end ThreatTree
