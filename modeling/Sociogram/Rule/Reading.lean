import Sociogram.Json.Stored
import Sociogram.Network.Reading
import Sociogram.Rule.RuleSet

/-!
Reading rule sets from documents.

The options of a rule are first read as any value, and turned into the rule once
its whole entry is there.
-/

namespace Sociogram

def Operator.ofDocument (document : Document) : Except Problem Operator :=
  document.asText.map Operator.ofTag

def Join.ofDocument (document : Document) : Except Problem Join :=
  document.asText.map Join.ofTag

/-! ## Alter rules -/

namespace AlterRule

structure Draft where
  nodeType : Option String := none
  attributeName : Option (Option String) := none
  operator : Option (Option Operator) := none
  value : Option AttributeValue := none

def take (draft : Draft) (name : String) (document : Document) : Except Problem Draft :=
  match name with
  | "type" => do
      return { draft with
        nodeType := ← RecordForm.once "type" draft.nodeType Document.asText document }
  | "attribute" => do
      return { draft with
        attributeName := ←
          RecordForm.once "attribute" draft.attributeName
            (Document.asOptional Document.asText) document }
  | "operator" => do
      return { draft with
        operator := ←
          RecordForm.once "operator" draft.operator
            (Document.asOptional Operator.ofDocument) document }
  | "value" => do
      return { draft with
        value := ← RecordForm.once "value" draft.value AttributeValue.ofDocument document }
  | _ => do
      document.skip
      return draft

def complete (draft : Draft) : Except Problem AlterRule := do
  return {
    nodeType := ← RecordForm.required "type" draft.nodeType
    attributeName := draft.attributeName.getD none
    operator := draft.operator.getD none
    value := draft.value.getD .null }

def form : RecordForm Draft AlterRule where
  name := "AlterRule"
  fields := [("type", false), ("attribute", true), ("operator", true), ("value", true)]
  blank := {}
  take := take
  complete := complete

end AlterRule

/-! ## Edge rules -/

namespace EdgeRule

structure Draft where
  edgeType : Option String := none
  operator : Option Operator := none

def take (draft : Draft) (name : String) (document : Document) : Except Problem Draft :=
  match name with
  | "type" => do
      return { draft with
        edgeType := ← RecordForm.once "type" draft.edgeType Document.asText document }
  | "operator" => do
      return { draft with
        operator := ← RecordForm.once "operator" draft.operator Operator.ofDocument document }
  | _ => do
      document.skip
      return draft

def complete (draft : Draft) : Except Problem EdgeRule := do
  return {
    edgeType := ← RecordForm.required "type" draft.edgeType
    operator := ← RecordForm.required "operator" draft.operator }

def form : RecordForm Draft EdgeRule where
  name := "EdgeRule"
  fields := [("type", false), ("operator", false)]
  blank := {}
  take := take
  complete := complete

end EdgeRule

/-! ## Ego rules -/

namespace EgoRule

structure Draft where
  attributeName : Option String := none
  operator : Option (Option Operator) := none
  value : Option AttributeValue := none

def take (draft : Draft) (name : String) (document : Document) : Except Problem Draft :=
  match name with
  | "attribute" => do
      return { draft with
        attributeName := ←
          RecordForm.once "attribute" draft.attributeName Document.asText document }
  | "operator" => do
      return { draft with
        operator := ←
          RecordForm.once "operator" draft.operator
            (Document.asOptional Operator.ofDocument) document }
  | "value" => do
      return { draft with
        value := ← RecordForm.once "value" draft.value AttributeValue.ofDocument document }
  | _ => do
      document.skip
      return draft

def complete (draft : Draft) : Except Problem EgoRule := do
  return {
    attributeName := ← RecordForm.required "attribute" draft.attributeName
    operator := draft.operator.getD none
    value := draft.value.getD .null }

def form : RecordForm Draft EgoRule where
  name := "EgoRule"
  fields := [("attribute", false), ("operator", true), ("value", true)]
  blank := {}
  take := take
  complete := complete

end EgoRule

/-! ## Counts -/

namespace CountAssertion

structure Draft where
  operator : Option Operator := none
  value : Option Binary64 := none

def take (draft : Draft) (name : String) (document : Document) : Except Problem Draft :=
  match name with
  | "operator" => do
      return { draft with
        operator := ← RecordForm.once "operator" draft.operator Operator.ofDocument document }
  | "value" => do
      return { draft with
        value := ← RecordForm.once "value" draft.value Document.asNumber document }
  | _ => do
      document.skip
      return draft

def complete (draft : Draft) : Except Problem CountAssertion := do
  return {
    operator := ← RecordForm.required "operator" draft.operator
    value := ← RecordForm.required "value" draft.value }

def form : RecordForm Draft CountAssertion where
  name := "CountAssertion"
  fields := [("operator", false), ("value", false)]
  blank := {}
  take := take
  complete := complete

end CountAssertion

/-! ## Entries -/

namespace Json

mutual

def withoutNonFinite : Json → Json
  | float value => if value.isFinite then float value else null
  | array items => array (itemsWithoutNonFinite items)
  | object members => object (membersWithoutNonFinite members)
  | other => other
termination_by structural value => value

def itemsWithoutNonFinite : List Json → List Json
  | [] => []
  | item :: rest => item.withoutNonFinite :: itemsWithoutNonFinite rest
termination_by structural items => items

def membersWithoutNonFinite : List (String × Json) → List (String × Json)
  | [] => []
  | (key, value) :: rest => (key, value.withoutNonFinite) :: membersWithoutNonFinite rest
termination_by structural members => members

end

def ofDocument (document : Document) : Except Problem Json :=
  document.value.map withoutNonFinite

end Json

/-- The rule of a domain with its options. A domain that is not known keeps them as
they are. -/
def Rule.ofOptions (domain : String) (options : Json) : Except Problem Rule :=
  match domain with
  | "alter" => (AlterRule.form.read (.ofJson options)).map .alter
  | "edge" => (EdgeRule.form.read (.ofJson options)).map .edge
  | "ego" => (EgoRule.form.read (.ofJson options)).map .ego
  | _ => .ok (.unrecognized domain options)

namespace RuleEntry

structure Draft where
  domain : Option String := none
  options : Option Json := none
  count : Option (Option CountAssertion) := none

def takeCount (draft : Draft) (document : Document) : Except Problem Draft := do
  return { draft with
    count := ←
      RecordForm.once "count" draft.count
        (Document.asOptional CountAssertion.form.read) document }

/-- A count may also be called an assertion. -/
def take (draft : Draft) (name : String) (document : Document) : Except Problem Draft :=
  match name with
  | "type" => do
      return { draft with
        domain := ← RecordForm.once "type" draft.domain Document.asText document }
  | "options" => do
      return { draft with
        options := ← RecordForm.once "options" draft.options Json.ofDocument document }
  | "count" => takeCount draft document
  | "assert" => takeCount draft document
  | _ => do
      document.skip
      return draft

def complete (draft : Draft) : Except Problem RuleEntry := do
  let domain ← RecordForm.required "type" draft.domain
  let rule ← Rule.ofOptions domain (draft.options.getD .null)
  return { rule := rule, count := draft.count.getD none }

def form : RecordForm Draft RuleEntry where
  name := "RawRuleEntry"
  fields := [("type", false), ("options", true), ("count", true)]
  blank := {}
  take := take
  complete := complete

end RuleEntry

/-! ## Rule sets -/

namespace RuleSet

structure Draft where
  entries : Option (List RuleEntry) := none
  join : Option Join := none

def take (draft : Draft) (name : String) (document : Document) : Except Problem Draft :=
  match name with
  | "rules" => do
      return { draft with
        entries := ←
          RecordForm.once "rules" draft.entries (Document.asList RuleEntry.form.read) document }
  | "join" => do
      return { draft with
        join := ← RecordForm.once "join" draft.join Join.ofDocument document }
  | _ => do
      document.skip
      return draft

def complete (draft : Draft) : Except Problem RuleSet :=
  .ok {
    join := draft.join.getD .or
    entries := draft.entries.getD [] }

def form : RecordForm Draft RuleSet where
  name := "JoinSpec"
  fields := [("rules", true), ("join", true)]
  blank := {}
  take := take
  complete := complete

end RuleSet

end Sociogram
