/-!
# `SampleProfiler.Lru` — a bounded map that forgets what was not used for longest

Contents are kept under names, for at most `bound` names. Every use of a name stamps its entry with the next
reading of the map's own clock, so stamps are never drawn twice. When a new name arrives and the map is full,
the entry with the least stamp, which is the least recently used one, is evicted. Looking contents up is not
a use, and neither is changing them.

## Contents
- **Entries.** `Entry`, and `stalest?`, the scan for the least stamp.
- **Reading.** `Lru`, `Lru.empty`, `find?`, `contains`, `names` and `contents`.
- **Using.** `draw` and `mark`, the two halves of `touch`; `evict`, `insert`, and `visit`, the use of a name.
- **Changing.** `update`, the contents under one name, and `clear`.
-/

namespace SampleProfiler

/-! ## Entries -/

/-- Contents under a name, with the clock reading of its last use. -/
structure Entry (α : Type) where
  name : String
  stamp : Nat
  content : α
deriving DecidableEq, Inhabited

/-- The entry with the least stamp; the first of them, if there are several. -/
def stalest? {α : Type} : List (Entry α) → Option (Entry α)
  | [] => none
  | e :: rest => some (rest.foldl (fun least e => if e.stamp < least.stamp then e else least) e)

/-! ## Reading -/

/-- A bounded map from names to contents. -/
structure Lru (α : Type) where
  bound : Nat
  entries : List (Entry α)
  clock : Nat
deriving DecidableEq, Inhabited

namespace Lru

variable {α : Type}

/-- A map without entries. A bound of zero counts as one: a new name always gets an entry. -/
def empty (bound : Nat) : Lru α :=
  { bound := max bound 1, entries := [], clock := 0 }

/-- The number of names. -/
def size (m : Lru α) : Nat :=
  m.entries.length

/-- The contents under a name. -/
def find? (m : Lru α) (name : String) : Option α :=
  (m.entries.find? fun e => e.name == name).map Entry.content

/-- True if there is an entry under the name. -/
def contains (m : Lru α) (name : String) : Bool :=
  (m.find? name).isSome

/-- The names in no particular order. -/
def names (m : Lru α) : List String :=
  m.entries.map Entry.name

/-- The contents in no particular order. -/
def contents (m : Lru α) : List α :=
  m.entries.map Entry.content

/-! ## Using -/

/-- Draws the next stamp. -/
def draw (m : Lru α) : Nat × Lru α :=
  (m.clock, { m with clock := m.clock + 1 })

/-- Stamps the entry of a name. -/
def mark (m : Lru α) (name : String) (stamp : Nat) : Lru α :=
  { m with entries := m.entries.map fun e => if e.name = name then { e with stamp := stamp } else e }

/-- Stamps the entry of a name with the next stamp. -/
def touch (m : Lru α) (name : String) : Lru α :=
  let (stamp, m) := m.draw
  m.mark name stamp

/-- Drops the least recently used entry, and gives its name. -/
def evict (m : Lru α) : Option String × Lru α :=
  match stalest? m.entries with
  | none => (none, m)
  | some victim =>
    (some victim.name, { m with entries := m.entries.filter fun e => e.name ≠ victim.name })

/-- Makes an entry with the next stamp. -/
def insert (m : Lru α) (name : String) (content : α) : Lru α :=
  let (stamp, m) := m.draw
  { m with entries := ⟨name, stamp, content⟩ :: m.entries }

/-- Uses a name: its entry is stamped, or one with `fresh` contents is made after room was made for it.
    Gives the name that was evicted. -/
def visit (m : Lru α) (name : String) (fresh : α) : Option String × Lru α :=
  if m.contains name then (none, m.touch name)
  else
    let (evicted, m) := if m.bound ≤ m.size then m.evict else (none, m)
    (evicted, m.insert name fresh)

/-! ## Changing -/

/-- Changes the contents under a name. -/
def update (m : Lru α) (name : String) (change : α → α) : Lru α :=
  { m with
    entries := m.entries.map fun e =>
      if e.name = name then { e with content := change e.content } else e }

/-- Drops all entries. The clock runs on. -/
def clear (m : Lru α) : Lru α :=
  { m with entries := [] }

@[simp] theorem clock_touch (m : Lru α) (name : String) : (m.touch name).clock = m.clock + 1 := rfl

@[simp] theorem clock_insert (m : Lru α) (name : String) (content : α) :
    (m.insert name content).clock = m.clock + 1 := rfl

/-- Stamping changes no name and no contents. -/
@[simp] theorem names_mark (m : Lru α) (name : String) (stamp : Nat) : (m.mark name stamp).names = m.names := by
  simp only [names, mark, List.map_map]
  apply List.map_congr_left
  intro e _
  simp only [Function.comp_apply]
  split <;> rfl

/-- Changing contents changes no name. -/
@[simp] theorem names_update (m : Lru α) (name : String) (change : α → α) :
    (m.update name change).names = m.names := by
  simp only [names, update, List.map_map]
  apply List.map_congr_left
  intro e _
  simp only [Function.comp_apply]
  split <;> rfl

end Lru

end SampleProfiler
