namespace Allegiance

inductive Faction
  | axis
  | allies
  deriving DecidableEq, Repr

/-- `mixed` has kills on both sides and no winner; `unknown` is everything else. -/
inductive Label
  | axis
  | allies
  | mixed
  | unknown
  deriving DecidableEq, Repr

namespace Faction

def opponent : Faction → Faction
  | axis => allies
  | allies => axis

def label : Faction → Label
  | axis => .axis
  | allies => .allies

def name : Faction → String
  | axis => "axis"
  | allies => "allies"

@[simp] theorem opponent_opponent (f : Faction) : f.opponent.opponent = f := by cases f <;> rfl

theorem eq_opponent_of_ne {f g : Faction} (h : f ≠ g) : f = g.opponent := by
  cases f <;> cases g <;> simp_all [opponent]

end Faction

namespace Label

instance : Inhabited Label := ⟨unknown⟩

def all : List Label := [axis, allies, mixed, unknown]

def name : Label → String
  | axis => "axis"
  | allies => "allies"
  | mixed => "mixed"
  | unknown => "unknown"

def faction? : Label → Option Faction
  | axis => some .axis
  | allies => some .allies
  | mixed | unknown => none

def isDecisive (l : Label) : Bool := l.faction?.isSome

/-- The label seen from the other side. -/
def swap : Label → Label
  | axis => allies
  | allies => axis
  | mixed => mixed
  | unknown => unknown

@[simp] theorem faction?_label (f : Faction) : f.label.faction? = some f := by cases f <;> rfl

theorem faction?_eq_some {l : Label} {f : Faction} : l.faction? = some f ↔ l = f.label := by
  cases l <;> cases f <;> simp [faction?, Faction.label]

@[simp] theorem swap_label (f : Faction) : f.label.swap = f.opponent.label := by cases f <;> rfl

end Label

end Allegiance
