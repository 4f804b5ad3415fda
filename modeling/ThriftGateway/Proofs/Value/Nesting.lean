import ThriftGateway.Proofs.Value.Replacing
import ThriftGateway.Value.Display

/-!
# What values hold

A collection holds its items, and a map what is under its keys; the keys themselves are not looked into.  What is true
of a value if it is true of all that the value holds is true of every value (`children_induction`).  A place in a value
is a way to what is held at some depth (`at?`), and all maps at all depths together have a number of entries
(`entryCount`).
-/

namespace ThriftGateway.Value

/-! ### One level -/

/-- What a value holds. -/
def children : Value → List Value
  | list items | tuple items | set _ items => items
  | map entries => entries.map Prod.snd
  | _ => []

/-- A value that is neither a collection nor a map. -/
def isLeaf : Value → Bool
  | list _ | tuple _ | set .. | map _ => false
  | _ => true

/-- The entries of a map with the texts of their keys for names. -/
def named (entries : List (Value × Value)) : List (String × Value) := entries.map fun e => (e.1.nameText, e.2)

theorem named_cons (e : Value × Value) (entries : List (Value × Value)) :
    named (e :: entries) = (e.1.nameText, e.2) :: named entries := rfl

/-- The texts of a map's keys. -/
def keyTexts (entries : List (Value × Value)) : List String := entries.map fun e => e.1.nameText

theorem map_fst_named (entries : List (Value × Value)) : (named entries).map Prod.fst = keyTexts entries := by
  rw [named, List.map_map]
  rfl

theorem named_map_entryOf (fields : List (String × Value)) : named (fields.map entryOf) = fields := by
  rw [named, List.map_map]
  exact List.map_id _

theorem map_snd_named (entries : List (Value × Value)) : (named entries).map Prod.snd = entries.map Prod.snd := by
  rw [named, List.map_map]
  rfl

private theorem sizeOf_lt_of_mem_children {u v : Value} (h : u ∈ v.children) : sizeOf u < sizeOf v := by
  cases v with
  | list items | tuple items | set _ items =>
    have hitem : sizeOf u < sizeOf items := List.sizeOf_lt_of_mem h
    simp only [list.sizeOf_spec, tuple.sizeOf_spec, set.sizeOf_spec]
    omega
  | map entries =>
    obtain ⟨⟨k, u⟩, he, rfl⟩ := List.mem_map.1 h
    have hentry : sizeOf (k, u) < sizeOf entries := List.sizeOf_lt_of_mem he
    simp only [map.sizeOf_spec, Prod.mk.sizeOf_spec] at hentry ⊢
    omega
  | null | undefined | bool | int | float | text | thing => cases h

/-- What holds of a value if it holds of all that the value holds is true of every value. -/
@[elab_as_elim]
theorem children_induction {P : Value → Prop} (step : ∀ v, (∀ u ∈ v.children, P u) → P v) (v : Value) : P v :=
  step v fun u _ => children_induction step u
termination_by sizeOf v
decreasing_by exact sizeOf_lt_of_mem_children ‹_›

/-! ### All levels -/

/-- What a value holds at some depth, the value itself included. -/
inductive Within (u : Value) : Value → Prop
  | here : Within u u
  | there {v w : Value} (hw : w ∈ v.children) (h : Within u w) : Within u v

theorem within_iff {u v : Value} : u.Within v ↔ u = v ∨ ∃ w ∈ v.children, u.Within w := by
  constructor
  · rintro (_ | ⟨hw, h⟩)
    · exact Or.inl rfl
    · exact Or.inr ⟨_, hw, h⟩
  · rintro (rfl | ⟨w, hw, h⟩)
    · exact .here
    · exact .there hw h

mutual
/-- The number of entries of a map and of all maps in a value. -/
def entryCount : Value → Nat
  | list items | tuple items | set _ items => itemsEntryCount items
  | map entries => entriesEntryCount entries
  | _ => 0

/-- The number of entries in several values. -/
def itemsEntryCount : List Value → Nat
  | [] => 0
  | v :: vs => entryCount v + itemsEntryCount vs

/-- The number of some entries and of the entries in what is under their keys. -/
def entriesEntryCount : List (Value × Value) → Nat
  | [] => 0
  | (_, v) :: es => 1 + entryCount v + entriesEntryCount es
end

/-- A step into a value. -/
inductive Place where
  /-- What the last entry with a name holds. -/
  | entry (name : String)
  | item (index : Nat)

/-- What a value holds at a place. -/
def child? : Value → Place → Option Value
  | list items, .item i | tuple items, .item i | set _ items, .item i => items[i]?
  | map entries, .entry name => lastUnder? (named entries) name
  | _, _ => none

/-- What is at a place is held by the value. -/
theorem mem_children_of_child? {u v : Value} {p : Place} (h : v.child? p = some u) : u ∈ v.children := by
  cases p with
  | item i =>
    cases v with
    | list items | tuple items | set _ items => exact List.mem_of_getElem? h
    | map | null | undefined | bool | int | float | text | thing => cases h
  | entry name =>
    cases v with
    | map entries =>
      have hmem : (name, u) ∈ named entries := kept_subperm.subset (mem_kept.2 h)
      have hsnd : u ∈ (named entries).map Prod.snd := List.mem_map_of_mem hmem
      rwa [map_snd_named] at hsnd
    | list | tuple | set | null | undefined | bool | int | float | text | thing => cases h

/-- What is reached by several steps into a value. -/
def at? : Value → List Place → Option Value
  | v, [] => some v
  | v, p :: ps => (v.child? p).bind (at? · ps)

end ThriftGateway.Value
