import Mathlib.Data.List.Basic

/-!
Assignments in a row, of which the last one wins. Each item may assign a value; what a
run of them leaves is the last value assigned, or the one there was before.
-/

namespace SensorNode.LastSetting

variable {Item Part Value : Type}

def lastSetting (sets : Item → Option Value) (items : List Item) : Option Value :=
  items.reverse.findSome? sets

section
variable (sets : Item → Option Value)

@[simp] theorem lastSetting_append (front back : List Item) :
    lastSetting sets (front ++ back) = (lastSetting sets back).or (lastSetting sets front) := by
  simp [lastSetting, List.findSome?_append]

@[simp] theorem lastSetting_singleton (item : Item) : lastSetting sets [item] = sets item := by
  cases found : sets item <;> simp [lastSetting, found]

theorem lastSetting_cons (item : Item) (back : List Item) :
    lastSetting sets (item :: back) = (lastSetting sets back).or (sets item) := by
  rw [← List.singleton_append, lastSetting_append, lastSetting_singleton]

/-- Items that come in parts assign what their parts do. -/
theorem lastSetting_flatMap (sets : Part → Option Value) (parts : Item → List Part)
    (items : List Item) :
    lastSetting sets (items.flatMap parts) =
      lastSetting (fun item => lastSetting sets (parts item)) items := by
  induction items with
  | nil => rfl
  | cons item back ih => rw [List.flatMap_cons, lastSetting_append, lastSetting_cons, ih]

theorem lastSetting_map {Image : Type} (image : Value → Image) (items : List Item) :
    lastSetting (fun item => (sets item).map image) items = (lastSetting sets items).map image :=
  List.map_findSome?.symm

theorem lastSetting_eq_none (items : List Item) :
    lastSetting sets items = none ↔ ∀ item ∈ items, sets item = none := by
  simp [lastSetting]

theorem lastSetting_eq_some (items : List Item) (value : Value) :
    lastSetting sets items = some value ↔
      ∃ front item back, items = front ++ item :: back ∧ sets item = some value ∧
        ∀ later ∈ back, sets later = none := by
  constructor
  · intro found
    obtain ⟨back, item, front, split, taken, unset⟩ := List.findSome?_eq_some_iff.mp found
    refine ⟨front.reverse, item, back.reverse, ?_, taken, fun later member =>
      unset later (List.mem_reverse.mp member)⟩
    rw [← List.reverse_reverse items, split]
    simp
  · rintro ⟨front, item, back, rfl, taken, unset⟩
    rw [lastSetting_append, lastSetting_cons, (lastSetting_eq_none sets back).mpr unset, taken]
    rfl

/-- A variable assigned to along the items ends with the last value assigned. -/
theorem foldl_lastSetting {State : Type} (value : State → Value) (step : State → Item → State)
    (assigns : ∀ state item, value (step state item) = (sets item).getD (value state))
    (items : List Item) (state : State) :
    value (items.foldl step state) = (lastSetting sets items).getD (value state) := by
  induction items generalizing state with
  | nil => rfl
  | cons item back ih =>
      rw [List.foldl_cons, ih, assigns, lastSetting_cons]
      cases lastSetting sets back <;> rfl

end

theorem lastSetting_congr (sets others : Item → Option Value) (items : List Item)
    (same : ∀ item ∈ items, sets item = others item) :
    lastSetting sets items = lastSetting others items := by
  induction items with
  | nil => rfl
  | cons item back ih =>
      obtain ⟨head, tail⟩ := List.forall_mem_cons.mp same
      rw [lastSetting_cons, lastSetting_cons, head, ih tail]

end SensorNode.LastSetting
