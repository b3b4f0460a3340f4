/-!
# Rule tables

An ordered list of named rules. Every rule belongs to the main chain, and a rule may belong to
further chains: those are asked whether something that is under way ends at a line.
-/

namespace ComponentMarkdown

/-- A rule with its name and the further chains that it belongs to. -/
structure RuleEntry (Rule : Type) where
  name : String
  rule : Rule
  chains : List String := []

/-- Rules in the order in which they are tried. -/
structure RuleTable (Rule : Type) where
  entries : List (RuleEntry Rule) := []

namespace RuleTable

variable {Rule : Type}

/-- The name of the chain of all rules. -/
def mainChain : String := ""

def names (table : RuleTable Rule) : List String :=
  table.entries.map (·.name)

def push (table : RuleTable Rule) (entry : RuleEntry Rule) : RuleTable Rule :=
  ⟨table.entries ++ [entry]⟩

/-- Puts a rule right before the first one of the given name, if there is one. -/
def insertBefore? (table : RuleTable Rule) (before : String) (entry : RuleEntry Rule) :
    Option (RuleTable Rule) :=
  (table.entries.findIdx? (·.name == before)).map fun index =>
    ⟨table.entries.take index ++ entry :: table.entries.drop index⟩

/-- The rules of a chain in order, a rule as often as it names the chain. -/
def rules (table : RuleTable Rule) (chain : String) : List Rule :=
  (if chain == mainChain then table.entries.map (·.rule) else []) ++
    table.entries.flatMap fun entry => List.replicate (entry.chains.count chain) entry.rule

end RuleTable

end ComponentMarkdown
