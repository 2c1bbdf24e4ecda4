import Sociogram.Json.Value
import Sociogram.Rule.Operator

/-!
Rules about a network. A rule looks at the nodes, at the edges that touch them,
or at the ego; a rule set joins the outcomes of its rules.
-/

namespace Sociogram

/-! ## Rules by domain -/

/-- A test of a node's type, or of one attribute of the nodes of a type. -/
structure AlterRule where
  nodeType : String
  attributeName : Option String
  operator : Option Operator
  value : AttributeValue

namespace AlterRule

/-- Membership in a type: `EXISTS` asks for the type, any other operator for any
other type. -/
def ofType (nodeType : String) (operator : Operator) : AlterRule :=
  ⟨nodeType, none, some operator, .null⟩

def ofAttribute (nodeType attributeName : String) (operator : Operator)
    (value : AttributeValue) : AlterRule :=
  ⟨nodeType, some attributeName, some operator, value⟩

/-- The attribute to test. An empty name counts as none. -/
def testedAttribute? (rule : AlterRule) : Option String :=
  rule.attributeName.filter (· ≠ "")

def same (rule other : AlterRule) : Bool :=
  rule.nodeType == other.nodeType && rule.attributeName == other.attributeName &&
    rule.operator == other.operator && rule.value.same other.value

end AlterRule

structure EdgeRule where
  edgeType : String
  operator : Operator
deriving DecidableEq

structure EgoRule where
  attributeName : String
  operator : Option Operator
  value : AttributeValue

namespace EgoRule

def ofAttribute (attributeName : String) (operator : Operator) (value : AttributeValue) :
    EgoRule :=
  ⟨attributeName, some operator, value⟩

def same (rule other : EgoRule) : Bool :=
  rule.attributeName == other.attributeName && rule.operator == other.operator &&
    rule.value.same other.value

end EgoRule

inductive Domain where
  | alter
  | edge
  | ego
  | unrecognized
deriving DecidableEq

inductive Rule where
  | alter (rule : AlterRule)
  | edge (rule : EdgeRule)
  | ego (rule : EgoRule)
  /-- A rule of a domain that is not known. It is kept as it was written and never
  matches. -/
  | unrecognized (domain : String) (options : Json)

namespace Rule

def domain : Rule → Domain
  | alter _ => .alter
  | edge _ => .edge
  | ego _ => .ego
  | unrecognized _ _ => .unrecognized

def domainTag : Rule → String
  | alter _ => "alter"
  | edge _ => "edge"
  | ego _ => "ego"
  | unrecognized domain _ => domain

def same : Rule → Rule → Bool
  | alter rule, alter other => rule.same other
  | edge rule, edge other => rule == other
  | ego rule, ego other => rule.same other
  | unrecognized domain options, unrecognized otherDomain otherOptions =>
      domain == otherDomain && options.same otherOptions
  | _, _ => false

end Rule

/-! ## Entries and sets -/

structure CountAssertion where
  operator : Operator
  value : Binary64

namespace CountAssertion

def same (assertion other : CountAssertion) : Bool :=
  assertion.operator == other.operator && assertion.value.sameValue other.value

end CountAssertion

structure RuleEntry where
  rule : Rule
  count : Option CountAssertion

namespace RuleEntry

def same (entry other : RuleEntry) : Bool :=
  entry.rule.same other.rule &&
    match entry.count, other.count with
    | none, none => true
    | some assertion, some otherAssertion => assertion.same otherAssertion
    | _, _ => false

end RuleEntry

inductive Join where
  | and
  | or
deriving DecidableEq

namespace Join

def tag : Join → String
  | and => "AND"
  | or => "OR"

/-- Every tag other than `AND` reads as `or`. -/
def ofTag (tag : String) : Join := if tag = "AND" then and else or

def combine (join : Join) (outcomes : List Bool) : Bool :=
  match join with
  | and => outcomes.all (·)
  | or => outcomes.any (·)

end Join

structure RuleSet where
  join : Join
  entries : List RuleEntry

namespace RuleSet

def rules (ruleSet : RuleSet) : List Rule := ruleSet.entries.map (·.rule)

def same (ruleSet other : RuleSet) : Bool :=
  ruleSet.join == other.join && ruleSet.entries.isEqv other.entries RuleEntry.same

end RuleSet

end Sociogram
