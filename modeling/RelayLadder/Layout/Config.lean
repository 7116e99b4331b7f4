/-
  The distances that a layout keeps.

  Cells, leg spacing and fans must be wider than nothing (`Config.Valid`); the other distances are
  free.  `Config.ofSettings` takes settings by name over the standard ones and checks the result.
-/
import RelayLadder.Error
import RelayLadder.Number.Scalar

namespace RelayLadder.Layout

/-- The distances of a layout. -/
structure Config (α : Type) where
  /-- The x of the left power rail. -/
  leftRailX : α
  /-- The x where the first element starts. -/
  startX : α
  /-- The y of the main rail. -/
  railY : α
  /-- The gap between the edge of the drawing and the ends of the power rails. -/
  railInset : α
  /-- The cell of a contact or coil. -/
  contactCell : α
  /-- The cell of a box with operands. -/
  boxCell : α
  /-- The cell of any other instruction. -/
  genericCell : α
  /-- The distance between the legs of a branch. -/
  legSpacing : α
  /-- The run between the rail of a branch and its legs, on either side. -/
  fanWidth : α
  /-- The space behind the last element, right power rail included. -/
  rightMargin : α
  /-- The space below the lowest point drawn. -/
  bottomMargin : α
  /-- The least height of a drawing. -/
  minHeight : α

namespace Config

variable {α : Type} [Scalar α]

/-- The distances that are used where none are given. -/
def standard : Config α where
  leftRailX := 20
  startX := 40
  railY := 45
  railInset := 10
  contactCell := 100
  boxCell := 140
  genericCell := 100
  legSpacing := 60
  fanWidth := 20
  rightMargin := 50
  bottomMargin := 30
  minHeight := 80

/-- The distances that must be positive, by name, in the order in which they are checked. -/
def positives (c : Config α) : List (String × α) :=
  [("contact_cell", c.contactCell), ("box_cell", c.boxCell), ("generic_cell", c.genericCell),
   ("leg_spacing", c.legSpacing), ("fan_width", c.fanWidth)]

/-- The distances that must be positive are. -/
def Valid (c : Config α) : Prop := ∀ p ∈ c.positives, ¬ p.2 ≤ 0

instance (c : Config α) : Decidable c.Valid :=
  inferInstanceAs (Decidable (∀ p ∈ c.positives, ¬ p.2 ≤ 0))

/-- Gives the setting of this name another value. -/
def set (c : Config α) (key : String) (v : α) : Except Error (Config α) :=
  match key with
  | "left_rail_x" => .ok { c with leftRailX := v }
  | "start_x" => .ok { c with startX := v }
  | "rail_y" => .ok { c with railY := v }
  | "rail_inset" => .ok { c with railInset := v }
  | "contact_cell" => .ok { c with contactCell := v }
  | "box_cell" => .ok { c with boxCell := v }
  | "generic_cell" => .ok { c with genericCell := v }
  | "leg_spacing" => .ok { c with legSpacing := v }
  | "fan_width" => .ok { c with fanWidth := v }
  | "right_margin" => .ok { c with rightMargin := v }
  | "bottom_margin" => .ok { c with bottomMargin := v }
  | "min_height" => .ok { c with minHeight := v }
  | key => .error (.unknownSetting key)

/-- The configuration itself, or the first distance in it that is not positive. -/
def check (c : Config α) : Except Error (Config α) :=
  match c.positives.find? (·.2 ≤ 0) with
  | some (name, _) => .error (.notPositive name)
  | none => .ok c

/-- The standard distances with some given by name.  Unknown names are told before distances that
    are not positive. -/
def ofSettings (settings : List (String × α)) : Except Error (Config α) := do
  (← settings.foldlM (fun c (key, v) => c.set key v) standard).check

/-- The check accepts exactly the valid configurations. -/
theorem check_eq_ok_iff {c : Config α} : c.check = .ok c ↔ c.Valid := by
  unfold check Valid
  split
  · next h =>
    have := List.find?_some h
    have := List.mem_of_find?_eq_some h
    simp_all
    exact ⟨_, _, this, ‹_›⟩
  · next h => simpa using h

end Config

end RelayLadder.Layout
