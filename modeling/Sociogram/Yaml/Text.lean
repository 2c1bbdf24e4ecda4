import Sociogram.Document.Basic
import Sociogram.Yaml.Token

/-!
YAML texts as documents: the nodes that the tokens spell. Block scalars, anchors, aliases, tags
and lines of tags are not taken.

A node that is left out is an empty unquoted scalar. Each function answers with
the tokens after what it has taken, or with nothing where the tokens are at fault.
-/

namespace Sociogram.Yaml

def absent : Document := .bare ""

def keyOf : Document → Except Problem String
  | .bare written => .ok written
  | .text value => .ok value
  | _ => .error .keyNotScalar

def startsWith (stops : List Token) : List Token → Bool
  | [] => false
  | token :: _ => stops.contains token

def afterComma? (first : Bool) (tokens : List Token) : Option (List Token) :=
  if first then some tokens
  else
    match tokens with
    | .flowEntry :: rest => some rest
    | _ => none

/-- The tokens after the beginning of a pair in a flow sequence whose key is left out.
The token that stands where the key should be is used up with it. -/
def afterAbsentKey? : List Token → Option (List Token)
  | .value :: rest => some rest
  | .flowEntry :: rest => some rest
  | .flowSequenceEnd :: rest => some rest
  | _ => none

abbrev Pair := Except Problem String × Document

mutual

/-- A node. In a block it may be a block, and after a key also a sequence that is not
indented. The fuel bounds the number of nested calls. -/
def node? (fuel : Nat) (block unindented : Bool) (tokens : List Token) :
    Option (Document × List Token) :=
  match fuel with
  | 0 => none
  | fuel + 1 =>
      match tokens with
      | .scalar true text :: rest => some (.text text, rest)
      | .scalar false text :: rest => some (.bare text, rest)
      | .flowSequenceStart :: rest => do
          let (items, after) ← flowItems? fuel true rest
          return (.sequence .plain items .closed, after)
      | .flowMappingStart :: rest => do
          let (members, after) ← flowPairs? fuel true rest
          return (.mapping members .closed, after)
      | .blockSequenceStart :: rest =>
          if block then do
            let (items, after) ← blockItems? fuel rest
            return (.sequence .plain items .closed, after)
          else none
      | .blockMappingStart :: rest =>
          if block then do
            let (members, after) ← blockPairs? fuel rest
            return (.mapping members .closed, after)
          else none
      | .blockEntry :: rest =>
          if unindented then do
            let (items, after) ← unindentedItems? fuel (.blockEntry :: rest)
            return (.sequence .plain items .closed, after)
          else none
      | _ => none

def nodeUnless? (fuel : Nat) (stops : List Token) (block unindented : Bool)
    (tokens : List Token) : Option (Document × List Token) :=
  match fuel with
  | 0 => none
  | fuel + 1 =>
      if startsWith stops tokens then some (absent, tokens)
      else node? fuel block unindented tokens

def valueUnless? (fuel : Nat) (stops : List Token) (block : Bool) (tokens : List Token) :
    Option (Document × List Token) :=
  match fuel with
  | 0 => none
  | fuel + 1 =>
      match tokens with
      | .value :: rest => nodeUnless? fuel stops block block rest
      | _ => some (absent, tokens)

def blockItems? (fuel : Nat) (tokens : List Token) : Option (List Document × List Token) :=
  match fuel with
  | 0 => none
  | fuel + 1 =>
      match tokens with
      | .blockEnd :: rest => some ([], rest)
      | .blockEntry :: rest => do
          let (item, after) ← nodeUnless? fuel [.blockEntry, .blockEnd] true false rest
          let (items, last) ← blockItems? fuel after
          return (item :: items, last)
      | _ => none

def unindentedItems? (fuel : Nat) (tokens : List Token) :
    Option (List Document × List Token) :=
  match fuel with
  | 0 => none
  | fuel + 1 =>
      match tokens with
      | .blockEntry :: rest => do
          let (item, after) ←
            nodeUnless? fuel [.blockEntry, .key, .value, .blockEnd] true false rest
          let (items, last) ← unindentedItems? fuel after
          return (item :: items, last)
      | _ => some ([], tokens)

def blockPairs? (fuel : Nat) (tokens : List Token) : Option (List Pair × List Token) :=
  match fuel with
  | 0 => none
  | fuel + 1 =>
      match tokens with
      | .blockEnd :: rest => some ([], rest)
      | .key :: rest => do
          let stops := [.key, .value, .blockEnd]
          let (key, afterKey) ← nodeUnless? fuel stops true true rest
          let (value, afterValue) ← valueUnless? fuel stops true afterKey
          let (members, last) ← blockPairs? fuel afterValue
          return ((keyOf key, value) :: members, last)
      | _ => none

/-- The items of a flow sequence, with commas between them, up to its end. A comma
may stand after the last one. A pair is an item of its own. -/
def flowItems? (fuel : Nat) (first : Bool) (tokens : List Token) :
    Option (List Document × List Token) :=
  match fuel with
  | 0 => none
  | fuel + 1 =>
      match tokens with
      | .flowSequenceEnd :: rest => some ([], rest)
      | _ => do
          let next ← afterComma? first tokens
          match next with
          | .flowSequenceEnd :: rest => some ([], rest)
          | .key :: rest =>
              let (key, afterKey) ←
                match afterAbsentKey? rest with
                | some after => some (absent, after)
                | none => node? fuel false false rest
              let (value, afterValue) ←
                valueUnless? fuel [.flowEntry, .flowSequenceEnd] false afterKey
              let (items, last) ← flowItems? fuel false afterValue
              return (.mapping [(keyOf key, value)] .closed :: items, last)
          | _ =>
              let (item, after) ← node? fuel false false next
              let (items, last) ← flowItems? fuel false after
              return (item :: items, last)

def flowPairs? (fuel : Nat) (first : Bool) (tokens : List Token) :
    Option (List Pair × List Token) :=
  match fuel with
  | 0 => none
  | fuel + 1 =>
      match tokens with
      | .flowMappingEnd :: rest => some ([], rest)
      | _ => do
          let next ← afterComma? first tokens
          match next with
          | .flowMappingEnd :: rest => some ([], rest)
          | .key :: rest =>
              let (key, afterKey) ←
                nodeUnless? fuel [.value, .flowEntry, .flowMappingEnd] false false rest
              let (value, afterValue) ←
                valueUnless? fuel [.flowEntry, .flowMappingEnd] false afterKey
              let (members, last) ← flowPairs? fuel false afterValue
              return ((keyOf key, value) :: members, last)
          | _ =>
              let (key, after) ← node? fuel false false next
              let (members, last) ← flowPairs? fuel false after
              return ((keyOf key, absent) :: members, last)

end

/-! ## Whole texts -/

def depthLimit : Nat := 128

def marked? (fuel : Nat) (content : List Token) : Option (Document × List Token) :=
  if content.isEmpty then some (absent, [])
  else nodeUnless? fuel [.versionLine, .documentStart, .documentEnd] true false content

def document? (tokens : List Token) : Option Document := do
  let fuel := 3 * tokens.length + 3
  let (document, rest) ←
    match tokens with
    | [] => some (absent, [])
    | .versionLine :: .documentStart :: content => marked? fuel content
    | .documentStart :: content => marked? fuel content
    | _ => node? fuel true false tokens
  if (rest.dropWhile (· == .documentEnd)).isEmpty then return document else none

/-- Read a text as one document. Nothing is told about what is wrong with a YAML text. -/
def read? {α : Type} (reader : Document → Except Problem α) (text : String) : Option α := do
  let tokens ← tokenize? text
  let document ← document? tokens
  (reader (document.nestedWithin depthLimit)).toOption

example : (read? Document.value "a:\n- 1\n- [~, 'x']\n").isSome = true := by decide +kernel
example : (read? Document.value "a: [1, 2").isSome = false := by decide +kernel

end Sociogram.Yaml
