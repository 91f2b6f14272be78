/-!
# Categories

An attack tree is made of facts, attacks, mitigations and goals, in this order. Each category
has a section of the document, named by its plural.
-/

namespace ThreatTree

inductive Category where
  | fact
  | attack
  | mitigation
  | goal
  deriving DecidableEq, Repr

namespace Category

/-- All categories, in order. -/
def all : List Category := [fact, attack, mitigation, goal]

def name : Category → String
  | fact => "fact"
  | attack => "attack"
  | mitigation => "mitigation"
  | goal => "goal"

/-- The name of the section that lists the nodes of a category. -/
def sectionName : Category → String
  | fact => "facts"
  | attack => "attacks"
  | mitigation => "mitigations"
  | goal => "goals"

/-- The place of a category in the order. -/
def rank : Category → Nat
  | fact => 0
  | attack => 1
  | mitigation => 2
  | goal => 3

def ofName? (s : String) : Option Category := all.find? fun c => c.name = s

/-- The category with a section of this name. -/
def ofSection? (s : String) : Option Category := all.find? fun c => c.sectionName = s

theorem mem_all (c : Category) : c ∈ all := by cases c <;> decide

end Category

end ThreatTree
