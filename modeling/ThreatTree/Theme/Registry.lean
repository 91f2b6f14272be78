import ThreatTree.Theme.Basic

/-!
# Theme registries

A registry holds themes with different names, one of which is the default. `resolve` never
fails: it gives the theme with a name, or the default theme.
-/

namespace ThreatTree

/-- Themes with different names, one of them the default. -/
structure Registry where
  themes : List Theme
  default : Theme
  names_nodup : (themes.map (·.name)).Nodup
  default_mem : default ∈ themes

namespace Registry

/-- Why themes do not make a registry. -/
inductive Error where
  | registeredTwice (name : String)
  | noDefault (name : String)
  deriving DecidableEq, Repr

def Error.message : Error → String
  | registeredTwice name => "Theme '" ++ name ++ "' registered twice"
  | noDefault name => "Default theme '" ++ name ++ "' is not registered"

/-- The first name that repeats an earlier one. -/
def firstRepeated (seen : List String) : List String → Option String
  | [] => none
  | s :: rest => if seen.contains s then some s else firstRepeated (s :: seen) rest

theorem nodup_of_firstRepeated {seen l : List String} (h : firstRepeated seen l = none) :
    l.Nodup ∧ ∀ s ∈ l, s ∉ seen := by
  induction l generalizing seen with
  | nil => simp
  | cons a l ih =>
    simp only [firstRepeated] at h
    split at h
    · simp at h
    · next ha =>
      obtain ⟨hl, hs⟩ := ih h
      refine ⟨List.nodup_cons.2 ⟨fun hm => ?_, hl⟩, fun s hm => ?_⟩
      · exact hs a hm (List.mem_cons_self ..)
      · rcases List.mem_cons.1 hm with rfl | hm
        · simpa using ha
        · exact fun hseen => hs s hm (List.mem_cons_of_mem _ hseen)

/-- The theme with a name. -/
def find? (themes : List Theme) (name : String) : Option Theme :=
  themes.find? fun t => t.name = name

/-- The registry of themes, with the default theme named. -/
def of? (themes : List Theme) (default : String) : Except Error Registry :=
  match h : firstRepeated [] (themes.map (·.name)) with
  | some name => .error (.registeredTwice name)
  | none =>
    match hd : find? themes default with
    | none => .error (.noDefault default)
    | some t => .ok ⟨themes, t, (nodup_of_firstRepeated h).1, List.mem_of_find?_eq_some hd⟩

/-- The theme with a name, or the default theme if there is no name or none with it. -/
def resolve (r : Registry) : Option String → Theme
  | none => r.default
  | some name => (find? r.themes name).getD r.default

def names (r : Registry) : List String := r.themes.map (·.name)

def contains (r : Registry) (name : String) : Bool := r.names.contains name

end Registry

end ThreatTree
