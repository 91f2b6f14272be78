import ThreatTree.Proofs.Command.Run

/-!
# The layers of the settings

The value of a setting is that of its environment variable if this is set and not empty, else that
of the settings file, else its default (`Settings.Field.value`). The environment is laid over the
entries of the file, and the defaults stand in for what is missing then, so the settings depend on
the file through three values only (`ofEntries_override`).

The main statement, `loadSettings_layers`, says which values these may be.
-/

namespace ThreatTree

/-! ## Entries under texts -/

namespace Value.Entries

theorem all_isText_set (key : String) (value : Value) (es : Entries) :
    ((set (.str key) value es).all fun e => Settings.isText e.1)
      = es.all fun e => Settings.isText e.1 := by
  induction es with
  | nil => rfl
  | cons e es ih =>
    obtain ⟨k, v⟩ := e
    rw [set]
    split
    · rfl
    · rw [List.all_cons, List.all_cons, ih]

end Value.Entries

open Value (Entries)

theorem mapError_eq_ok_iff {ε ε' α : Type} {f : ε → ε'} {x : Except ε α} {a : α} :
    x.mapError f = .ok a ↔ x = .ok a := by
  cases x <;> simp [Except.mapError]

theorem mapError_eq_error_iff {ε ε' α : Type} {f : ε → ε'} {x : Except ε α} {e' : ε'} :
    x.mapError f = .error e' ↔ ∃ e, x = .error e ∧ f e = e' := by
  cases x <;> simp [Except.mapError]

namespace Settings

theorem isText_iff {v : Value} : isText v = true ↔ ∃ s, v = .str s := by
  cases v <;> simp [isText]

/-! ## The environment over the file -/

section Overriding

variable (env : Environment) (entries : Entries)

/-- Entries with the one that the environment overrides. -/
def overrideOne (es : Entries) (v : String × String) : Entries :=
  match valueOf? env v.1 with
  | some value => Entries.set (.str v.2) (.str value) es
  | none => es

theorem get?_overrideOne (v : String × String) (name : String) :
    Entries.get? name (overrideOne env entries v)
      = if name = v.2 then ((valueOf? env v.1).map Value.str).or (Entries.get? name entries)
        else Entries.get? name entries := by
  unfold overrideOne
  cases valueOf? env v.1 with
  | none => simp
  | some value => simp [Entries.get?_set]

theorem get?_foldl_overrideOne_of_not_mem {vs : List (String × String)} {name : String}
    (h : name ∉ vs.map (·.2)) :
    Entries.get? name (vs.foldl (overrideOne env) entries) = Entries.get? name entries := by
  induction vs generalizing entries with
  | nil => rfl
  | cons v vs ih =>
    rw [List.map_cons, List.mem_cons, not_or] at h
    rw [List.foldl_cons, ih _ h.2, get?_overrideOne, if_neg h.1]

theorem get?_foldl_overrideOne {vs : List (String × String)} (hnodup : (vs.map (·.2)).Nodup)
    {v : String × String} (hv : v ∈ vs) :
    Entries.get? v.2 (vs.foldl (overrideOne env) entries)
      = ((valueOf? env v.1).map Value.str).or (Entries.get? v.2 entries) := by
  induction vs generalizing entries with
  | nil => cases hv
  | cons u vs ih =>
    rw [List.map_cons, List.nodup_cons] at hnodup
    rw [List.foldl_cons]
    rcases List.mem_cons.1 hv with rfl | hv
    · rw [get?_foldl_overrideOne_of_not_mem env _ hnodup.1, get?_overrideOne, if_pos rfl]
    · have hne : v.2 ≠ u.2 := fun heq => hnodup.1 (heq ▸ List.mem_map_of_mem hv)
      rw [ih _ hnodup.2 hv, get?_overrideOne, if_neg hne]

theorem override_eq : override env entries = overrides.foldl (overrideOne env) entries := rfl

/-- What the environment overrides are texts under texts. -/
theorem all_isText_override :
    ((override env entries).all fun e => isText e.1) = entries.all fun e => isText e.1 := by
  rw [override_eq]
  induction overrides generalizing entries with
  | nil => rfl
  | cons v vs ih =>
    rw [List.foldl_cons, ih, overrideOne]
    split
    · exact Entries.all_isText_set _ _ entries
    · rfl

end Overriding

/-! ## Three values -/

/-- A setting: its environment variable, its name in the file, and its default. -/
structure Field where
  source : String
  name : String
  default : String

def themeField : Field := ⟨"ATTACKTREE_DEFAULT_THEME", "default_theme", "default"⟩

def engineField : Field := ⟨"ATTACKTREE_LAYOUT_ENGINE", "layout_engine", "dot"⟩

def formatField : Field := ⟨"ATTACKTREE_OUTPUT_FORMAT", "output_format", "svg"⟩

/-- The value of a setting: that of the environment if it is set and not empty, else that of the
file if it has one, null included, else the default. -/
def Field.value (f : Field) (env : Environment) (entries : Entries) : Value :=
  match valueOf? env f.source with
  | some s => .str s
  | none => (Entries.get? f.name entries).getD (.str f.default)

theorem Field.get?_override {f : Field} (hf : (f.source, f.name) ∈ overrides) (env : Environment)
    (entries : Entries) :
    (Entries.get? f.name (override env entries)).getD (.str f.default) = f.value env entries := by
  have hget := get?_foldl_overrideOne env entries (by decide : (overrides.map (·.2)).Nodup) hf
  rw [override_eq, hget, Field.value]
  cases valueOf? env f.source <;> rfl

/-- A default is a value as any other. -/
theorem optional_eq {α : Type} {read : Value → Record.Checked α} {default : α} {d : String}
    (h : read (.str d) = .valid default) (entries : Entries) (name : String) :
    Record.optional entries name default read
      = .under (.field name) (read ((Entries.get? name entries).getD (.str d))) := by
  rw [Record.optional]
  cases Entries.get? name entries with
  | none =>
    show _ = Record.Checked.under _ (read (.str d))
    rw [h]
    rfl
  | some v => rfl

/-- The settings with three values. -/
def ofValues (theme engine format : Value) : Except Error Settings :=
  (Settings.mk
    <$> Record.Checked.under (.field "default_theme") (Record.text theme)
    <*> Record.Checked.under (.field "layout_engine") (Record.text engine)
    <*> Record.Checked.under (.field "output_format")
      (Record.choice formatOf? .notChoice format)).toExcept.mapError .invalid

/-- Under texts, the entries of a file count for three values only. -/
theorem ofEntries_override (env : Environment) {entries : Entries}
    (h : (entries.all fun e => isText e.1) = true) :
    ofEntries (override env entries) = ofValues (themeField.value env entries)
      (engineField.value env entries) (formatField.value env entries) := by
  have htext (d : String) : Record.text (.str d) = .valid d := rfl
  have hformat : Record.choice formatOf? .notChoice (.str "svg") = .valid "svg" := rfl
  rw [ofEntries, all_isText_override, if_pos h, optional_eq (htext _), optional_eq (htext _),
    optional_eq hformat]
  show ofValues ((Entries.get? themeField.name _).getD (.str themeField.default))
    ((Entries.get? engineField.name _).getD (.str engineField.default))
    ((Entries.get? formatField.name _).getD (.str formatField.default)) = _
  rw [Field.get?_override (by decide), Field.get?_override (by decide),
    Field.get?_override (by decide)]

/-- The value is the text, or its bytes in UTF-8. -/
def IsTextOf : Value → String → Prop
  | .str s, t => s = t
  | .bytes bs, t => (⟨bs.toArray⟩ : ByteArray) = t.toUTF8
  | _, _ => False

theorem text_eq_valid_iff {v : Value} {s : String} : Record.text v = .valid s ↔ IsTextOf v s := by
  cases v with
  | str t => simp [Record.text, IsTextOf]
  | bytes bs =>
    rw [Record.text, IsTextOf, String.fromUTF8?]
    split
    · next hvalid =>
      simp only [Option.elim_some, Record.Checked.valid.injEq]
      rw [← String.toByteArray_inj]
      rfl
    · next hvalid =>
      simp only [Option.elim_none, Record.Checked.fail, reduceCtorEq, false_iff]
      intro heq
      exact hvalid (heq ▸ s.isValidUTF8)
  | _ => simp [Record.text, IsTextOf, Record.Checked.fail]

theorem choice_eq_valid_iff {v : Value} {s : String} :
    Record.choice formatOf? .notChoice v = .valid s ↔ v = .str s ∧ s ∈ ["svg", "png", "pdf"] := by
  cases v with
  | str t =>
    rw [Record.choice, formatOf?]
    show ((if t ∈ ["svg", "png", "pdf"] then some t else none).elim _ _) = _ ↔ _
    by_cases ht : t ∈ ["svg", "png", "pdf"]
    · rw [if_pos ht, Value.str.injEq]
      simp only [Option.elim_some, Record.Checked.valid.injEq]
      constructor
      · rintro rfl
        exact ⟨rfl, ht⟩
      · exact And.left
    · rw [if_neg ht, Value.str.injEq]
      simp only [Option.elim_none, Record.Checked.fail, reduceCtorEq, false_iff]
      rintro ⟨rfl, hs⟩
      exact ht hs
  | _ => simp [Record.choice, Record.Checked.fail]

/-- The three values are what the settings say. -/
structure AreValuesOf (theme engine format : Value) (s : Settings) : Prop where
  theme : IsTextOf theme s.defaultTheme
  engine : IsTextOf engine s.layoutEngine
  format : format = .str s.outputFormat
  outputFormat_mem : s.outputFormat ∈ ["svg", "png", "pdf"]

variable {theme engine format : Value}

theorem ofValues_eq_ok_iff {s : Settings} :
    ofValues theme engine format = .ok s ↔ AreValuesOf theme engine format s := by
  rw [ofValues, mapError_eq_ok_iff, Record.Checked.toExcept_eq_ok_iff]
  constructor
  · intro h
    obtain ⟨f, o, hfront, ho, hs⟩ := Record.Checked.seq_eq_valid_iff.1 h
    obtain ⟨g, e, htheme, he, hf⟩ := Record.Checked.seq_eq_valid_iff.1 hfront
    obtain ⟨t, ht, hg⟩ := Record.Checked.map_eq_valid_iff.1 htheme
    subst hg hf hs
    rw [Record.Checked.under_eq_valid_iff] at ht he ho
    exact ⟨text_eq_valid_iff.1 ht, text_eq_valid_iff.1 he, (choice_eq_valid_iff.1 ho).1,
      (choice_eq_valid_iff.1 ho).2⟩
  · intro h
    rw [text_eq_valid_iff.2 h.theme, text_eq_valid_iff.2 h.engine,
      choice_eq_valid_iff.2 ⟨h.format, h.outputFormat_mem⟩]
    rfl

theorem exists_ofValues_eq_error (h : ∀ s, ofValues theme engine format ≠ .ok s) :
    ∃ problems, ofValues theme engine format = .error (.invalid problems) := by
  cases hvalues : ofValues theme engine format with
  | ok s => exact absurd hvalues (h s)
  | error e =>
    rw [ofValues] at hvalues
    obtain ⟨problems, -, rfl⟩ := mapError_eq_error_iff.1 hvalues
    exact ⟨problems, rfl⟩

end Settings

/-! ## The settings of a world -/

namespace Command

open Settings (Field themeField engineField formatField AreValuesOf isText)

/-- The settings file is not there, holds nothing, or holds a mapping, with these entries under
texts. -/
structure HoldsEntries (w : World) (path : Option String) (entries : Entries) : Prop where
  content : (settingsFile w path = .ok none ∧ entries = [])
    ∨ ∃ name text, settingsFile w path = .ok (some (name, text))
      ∧ ((Yaml.load text.toList = .ok .null ∧ entries = [])
        ∨ Yaml.load text.toList = .ok (.mapping entries))
  keys : ∀ e ∈ entries, ∃ name, e.1 = .str name

variable {w : World} {path : Option String} {entries : Entries}

theorem loadSettings_eq (h : HoldsEntries w path entries) :
    loadSettings w path = (Settings.ofValues (themeField.value w.env entries)
      (engineField.value w.env entries) (formatField.value w.env entries)).mapError .inl := by
  have hkeys : (entries.all fun e => isText e.1) = true := by
    rw [List.all_eq_true]
    intro e he
    exact Settings.isText_iff.2 (h.keys e he)
  rw [← Settings.ofEntries_override w.env hkeys, loadSettings]
  rcases h.content with ⟨hfile, rfl⟩ | ⟨name, text, hfile, hload⟩
  · rw [hfile]
    rfl
  · have hentries : Settings.fileEntries name text = .ok entries := by
      rcases hload with ⟨hload, rfl⟩ | hload
      · rw [Settings.fileEntries, hload]
      · rw [Settings.fileEntries, hload]
    rw [hfile]
    show (Settings.ofText (some (name, text)) w.env).mapError Sum.inl = _
    rw [Settings.ofText, hentries]
    rfl

/-- **Settings are layered field by field.** If the settings file is not there, is empty or has a
mapping under texts, the settings load exactly if the values of theme and engine are texts, or the
bytes of texts, and that of the format is one of three, and they are these values. Otherwise the
error says what is invalid. What else the file has makes no difference, nor what it has where the
environment says something else: two files and environments with the same three values load
alike. -/
theorem loadSettings_layers (h : HoldsEntries w path entries) :
    (∀ s, loadSettings w path = .ok s ↔ AreValuesOf (themeField.value w.env entries)
      (engineField.value w.env entries) (formatField.value w.env entries) s)
    ∧ ((∀ s, loadSettings w path ≠ .ok s) →
      ∃ problems, loadSettings w path = .error (.inl (.invalid problems)))
    ∧ ∀ w' path' entries', HoldsEntries w' path' entries' →
      (∀ f ∈ [themeField, engineField, formatField],
        f.value w'.env entries' = f.value w.env entries) →
      loadSettings w' path' = loadSettings w path := by
  refine ⟨?_, ?_, ?_⟩
  · intro s
    rw [loadSettings_eq h, mapError_eq_ok_iff]
    exact Settings.ofValues_eq_ok_iff
  · intro hnone
    simp only [loadSettings_eq h, ne_eq, mapError_eq_ok_iff] at hnone
    obtain ⟨problems, hproblems⟩ := Settings.exists_ofValues_eq_error hnone
    exact ⟨problems, by rw [loadSettings_eq h, hproblems]; rfl⟩
  · intro w' path' entries' h' hvalues
    simp only [List.forall_mem_cons, List.not_mem_nil, false_implies, implies_true,
      and_true] at hvalues
    rw [loadSettings_eq h', loadSettings_eq h, hvalues.1, hvalues.2.1, hvalues.2.2]

/-- A folder with a settings file. -/
def worldWithSettings (text : String) (env : Settings.Environment) : World where
  folder := { files := [(["plan", Settings.fileName], .text text)], here := ["plan"] }
  env := env
  engine := fun _ _ => .error (.failed "")
  stamp := ""

/-- The entry of a mapping that has one, bytes under a text. -/
def soleBytes? : Except Yaml.Error Value → Option (String × List UInt8)
  | .ok (.mapping [(.str name, .bytes bs)]) => some (name, bs)
  | _ => none

theorem eq_of_soleBytes? {x : Except Yaml.Error Value} {name : String} {bs : List UInt8}
    (h : soleBytes? x = some (name, bs)) : x = .ok (.mapping [(.str name, .bytes bs)]) := by
  unfold soleBytes? at h
  split at h
  · obtain ⟨rfl, rfl⟩ := Prod.mk.inj (Option.some.inj h)
    rfl
  · cases h

theorem holdsEntries_of_soleBytes? {text name : String} {bs : List UInt8}
    {env : Settings.Environment}
    (hfile : settingsFile (worldWithSettings text env) none
      = .ok (some ("/plan/attacktree.yaml", text)))
    (hentry : soleBytes? (Yaml.load text.toList) = some (name, bs)) :
    HoldsEntries (worldWithSettings text env) none [(.str name, .bytes bs)] where
  content := .inr ⟨_, text, hfile, .inr (eq_of_soleBytes? hentry)⟩
  keys := by simp

/-- The environment sets the format, which the file has wrong, and an empty theme. -/
theorem overridden_loadSettings_layers :
    let w := worldWithSettings "output_format: !!binary ZGFyaw==\n"
      [("ATTACKTREE_DEFAULT_THEME", ""), ("ATTACKTREE_OUTPUT_FORMAT", "png")]
    HoldsEntries w none [(.str "output_format", .bytes [100, 97, 114, 107])]
      ∧ loadSettings w none = .ok ⟨"default", "dot", "png"⟩ := by
  intro w
  have hholds : HoldsEntries w none [(.str "output_format", .bytes [100, 97, 114, 107])] :=
    holdsEntries_of_soleBytes? (by decide +kernel) (by decide +kernel)
  exact ⟨hholds, ((loadSettings_layers hholds).1 _).2 ⟨rfl, rfl, rfl, by decide⟩⟩

/-- The value of a theme may be no text and still be taken. -/
theorem loads_theme_in_bytes :
    let w := worldWithSettings "default_theme: !!binary ZGFyaw==\n" []
    ∃ entries, HoldsEntries w none entries ∧ (∀ s, themeField.value w.env entries ≠ .str s)
      ∧ loadSettings w none = .ok ⟨"dark", "dot", "svg"⟩ := by
  intro w
  have hholds : HoldsEntries w none [(.str "default_theme", .bytes [100, 97, 114, 107])] :=
    holdsEntries_of_soleBytes? (by decide +kernel) (by decide +kernel)
  refine ⟨_, hholds, ?_, by decide +kernel⟩
  intro s heq
  have hvalue : themeField.value w.env [(.str "default_theme", .bytes [100, 97, 114, 107])]
      = .bytes [100, 97, 114, 107] := rfl
  rw [hvalue] at heq
  cases heq

end Command

end ThreatTree
