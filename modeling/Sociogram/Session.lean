import Sociogram.Filter.Standard
import Sociogram.Filter.SinglePass
import Sociogram.Load
import Sociogram.Network.Statistics
import Sociogram.Query

/-!
Sessions: a network that is built, changed and filtered step by step, with
compiled rule sets and saved networks under names.
-/

namespace Sociogram

inductive Compiled where
  | filter (filter : Filter)
  | singlePass (filter : SinglePassFilter)
  | query (query : Query)

inductive Purpose where
  | filter
  | singlePass
  | query
deriving DecidableEq

def Compiled.ofRuleSet (purpose : Purpose) (ruleSet : RuleSet) : Compiled :=
  match purpose with
  | .filter => .filter (.ofRuleSet ruleSet)
  | .singlePass => .singlePass (.ofRuleSet ruleSet)
  | .query => .query (.ofRuleSet ruleSet)

structure Session where
  network : Network
  compiled : List (String × Compiled)
  slots : List (String × Network)

namespace Session

def start : Session := ⟨.empty, [], []⟩

inductive Step where
  | load (format : Format) (text : String)
  | clear
  | addNode (node : Node)
  | addEdge (edge : Edge)
  | setEgo (ego : Option Node)
  | trim
  | empty
  | compile (name : String) (purpose : Purpose) (format : Format) (text : String)
  | apply (name : String)
  | peek (name : String)
  | save (slot : String)
  | restore (slot : String)
  | equals (slot : String)
  | get (id : NodeId) (attributeName : String)
  | statistics
  | dump

inductive Outcome where
  | done
  | failed (error : LoadError)
  /-- There is nothing under the name. -/
  | unknown
  | verdict (answer : Bool)
  | preview (network : Network)
  | value (value : Option AttributeValue)
  | statistics (statistics : Statistics)
  | dump (network : Network)

def become (session : Session) (network : Network) : Session × Outcome :=
  ({ session with network := network }, .done)

/-- One step. A step that fails changes nothing. -/
def step (session : Session) : Step → Session × Outcome
  | .load format text =>
      match Network.ofText format text with
      | .ok network => session.become network
      | .error error => (session, .failed error)
  | .clear => session.become .empty
  | .addNode node =>
      session.become { session.network with nodes := session.network.nodes ++ [node] }
  | .addEdge edge =>
      session.become { session.network with edges := session.network.edges ++ [edge] }
  | .setEgo ego => session.become { session.network with ego := ego }
  | .trim => session.become session.network.trimOrphans
  | .empty => session.become session.network.emptied
  | .compile name purpose format text =>
      match RuleSet.ofText format text with
      | .ok ruleSet =>
          let compiled := Keyed.insert name (.ofRuleSet purpose ruleSet) session.compiled
          ({ session with compiled := compiled }, .done)
      | .error error => (session, .failed error)
  | .apply name =>
      match Keyed.get? name session.compiled with
      | some (.filter filter) => session.become (filter.apply session.network)
      | some (.singlePass filter) => session.become (filter.apply session.network)
      | some (.query query) => (session, .verdict (query.evaluate session.network))
      | none => (session, .unknown)
  | .peek name =>
      match Keyed.get? name session.compiled with
      | some (.filter filter) => (session, .preview (filter.apply session.network))
      | some (.singlePass filter) => (session, .preview (filter.apply session.network))
      | some (.query query) => (session, .verdict (query.evaluate session.network))
      | none => (session, .unknown)
  | .save slot =>
      ({ session with slots := Keyed.insert slot session.network session.slots }, .done)
  | .restore slot =>
      match Keyed.get? slot session.slots with
      | some network => session.become network
      | none => (session, .unknown)
  | .equals slot =>
      match Keyed.get? slot session.slots with
      | some network => (session, .verdict (session.network.same network))
      | none => (session, .verdict false)
  | .get id attributeName =>
      (session, .value ((session.network.find? id).map (·.attributes.get attributeName)))
  | .statistics => (session, .statistics session.network.statistics)
  | .dump => (session, .dump session.network)

def run (session : Session) : List Step → List (Outcome × Network)
  | [] => []
  | step :: steps =>
      let (next, outcome) := session.step step
      (outcome, next.network) :: run next steps

end Session

end Sociogram
