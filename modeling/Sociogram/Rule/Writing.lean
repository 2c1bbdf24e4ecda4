import Sociogram.Network.Writing
import Sociogram.Rule.RuleSet

/-!
Rule sets as JSON.
-/

namespace Sociogram

def Operator.toJson (operator : Operator) : Json := .text operator.tag

def Join.toJson (join : Join) : Json := .text join.tag

def Operator.toMembers (operator : Option Operator) : List (String × Json) :=
  (operator.map fun operator => ("operator", operator.toJson)).toList

def AttributeValue.toMembers (value : AttributeValue) : List (String × Json) :=
  if value.isNull then [] else [("value", value.toJson)]

def AlterRule.toJson (rule : AlterRule) : Json :=
  .object <|
    [("type", .text rule.nodeType)] ++
      (rule.attributeName.map fun name => ("attribute", .text name)).toList ++
      Operator.toMembers rule.operator ++ rule.value.toMembers

def EdgeRule.toJson (rule : EdgeRule) : Json :=
  .object [("type", .text rule.edgeType), ("operator", rule.operator.toJson)]

def EgoRule.toJson (rule : EgoRule) : Json :=
  .object <|
    [("attribute", .text rule.attributeName)] ++
      Operator.toMembers rule.operator ++ rule.value.toMembers

def Rule.optionsToJson : Rule → Json
  | alter rule => rule.toJson
  | edge rule => rule.toJson
  | ego rule => rule.toJson
  | unrecognized _ options => options

def CountAssertion.toJson (assertion : CountAssertion) : Json :=
  .object [("operator", assertion.operator.toJson), ("value", .float assertion.value)]

def RuleEntry.toJson (entry : RuleEntry) : Json :=
  .object <|
    [("type", .text entry.rule.domainTag), ("options", entry.rule.optionsToJson)] ++
      (entry.count.map fun assertion => ("count", assertion.toJson)).toList

def RuleSet.toJson (ruleSet : RuleSet) : Json :=
  .object [
    ("rules", .array (ruleSet.entries.map RuleEntry.toJson)),
    ("join", ruleSet.join.toJson)]

end Sociogram
