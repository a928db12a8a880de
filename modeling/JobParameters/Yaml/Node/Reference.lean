/-
# Following references

Whoever reads a document follows an alias wherever one stands for something that
is looked for. A few nodes can so be read very often, and a document where more
references are followed than a hundred for each of its events is refused. The
events are the scalars, the aliases, and the starts and ends of collections.

Key definitions: `Yaml.Node.events`, `Yaml.Node.references`,
`Yaml.Node.referencesOfRecord`, `Yaml.Node.isTame`.
-/
import JobParameters.Yaml.Node

namespace JobParameters.Yaml.Node

mutual

/-- The number of events of a node. -/
def events : Node → Nat
  | scalar .. => 1
  | aliasTo _ => 1
  | sequence _ items => 2 + eventsOfItems items
  | mapping _ entries => 2 + eventsOfEntries entries
  | anchored _ n => events n

/-- The number of events of the items of a sequence. -/
def eventsOfItems : List Node → Nat
  | [] => 0
  | n :: ns => events n + eventsOfItems ns

/-- The number of events of the entries of a mapping, keys and values. -/
def eventsOfEntries : List (Node × Node) → Nat
  | [] => 0
  | (k, v) :: es => events k + events v + eventsOfEntries es

end

/-- One for an alias, which is followed where a scalar is looked for. -/
def references (n : Node) : Nat :=
  match n.bare with
  | aliasTo _ => 1
  | _ => 0

variable (document : Node)

/-- How many references are followed in a mapping of which all keys are looked at, and
the values as their keys say. -/
def referencesOfMapping (ofValue : Node → Node → Nat) (n : Node) : Nat :=
  references n +
    match document.target? n with
    | some (mapping _ es) =>
      es.foldl (fun count e => count + references e.1 + ofValue e.1 e.2) 0
    | _ => 0

/-- How many references are followed in a map. -/
def referencesOfMap (ofValue : Node → Nat) (n : Node) : Nat :=
  referencesOfMapping document (fun _ v => ofValue v) n

/-- How many references are followed in a record with some fields. -/
def referencesOfRecord (fields : List (String × (Node → Nat))) (n : Node) : Nat :=
  referencesOfMapping document
    (fun k v =>
      match document.target? k with
      | some (scalar _ _ name) => ((fields.lookup name).map fun f => f v).getD 0
      | _ => 0) n

/-- Whether a document has enough events for so many references. -/
def isTame (count : Nat) : Bool :=
  count ≤ 100 * document.events

end JobParameters.Yaml.Node
