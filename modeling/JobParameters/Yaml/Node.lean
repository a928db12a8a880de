/-
# YAML nodes

The tree of one document: scalars, sequences and mappings, each perhaps with a
tag. An anchor gives a node a number, and an alias stands for the node of a
number. Where several nodes have the same number, the last one is meant.

Key definitions: `Yaml.Node`, `Yaml.Node.find?`, `Yaml.Node.target?`.
-/
import JobParameters.Yaml.Tag

namespace JobParameters.Yaml

/-- A node of a document. -/
inductive Node where
  /-- A scalar, written plain or in another style. -/
  | scalar (tag : Option Tag) (plain : Bool) (text : String)
  | sequence (tag : Option Tag) (items : List Node)
  | mapping (tag : Option Tag) (entries : List (Node × Node))
  | anchored (number : Nat) (node : Node)
  | aliasTo (number : Nat)

namespace Node

/-- What stands where nothing is written. -/
def empty : Node := scalar none true ""

instance : Inhabited Node := ⟨empty⟩

/-- A node without its anchor. -/
def bare : Node → Node
  | anchored _ n => bare n
  | n => n

mutual

/-- The last node of a number, in the order of the document. -/
def find? (number : Nat) : Node → Option Node
  | scalar .. => none
  | aliasTo _ => none
  | sequence _ items => findInItems? number items
  | mapping _ entries => findInEntries? number entries
  | anchored k n => (find? number n).or (if k = number then some n.bare else none)

def findInItems? (number : Nat) : List Node → Option Node
  | [] => none
  | n :: ns => (findInItems? number ns).or (find? number n)

def findInEntries? (number : Nat) : List (Node × Node) → Option Node
  | [] => none
  | (k, v) :: es => (findInEntries? number es).or ((find? number v).or (find? number k))

end

/-- What a node of a document stands for: itself, or what its alias refers to. -/
def target? (document : Node) (n : Node) : Option Node :=
  match n.bare with
  | aliasTo number => document.find? number
  | n => some n

end Node
end JobParameters.Yaml
