import Sociogram.Document.Problem
import Sociogram.Number.Digits

/-!
Quoted texts of JSON, from the opening quote to the closing one.
-/

namespace Sociogram.JsonText

/-! ## Characters -/

def fourHexDigits? (first second third fourth : Char) : Option Nat :=
  Digits.natural? 16 [first, second, third, fourth]

def isLeadSurrogate (unit : Nat) : Bool := 0xD800 ≤ unit && unit ≤ 0xDBFF

def isTrailSurrogate (unit : Nat) : Bool := 0xDC00 ≤ unit && unit ≤ 0xDFFF

def ofSurrogates (lead trail : Nat) : Char :=
  Char.ofNat (0x10000 + (lead - 0xD800) * 0x400 + (trail - 0xDC00))

def simpleEscape? : Char → Option Char
  | '\"' => some '\"'
  | '\\' => some '\\'
  | '/' => some '/'
  | 'b' => some '\x08'
  | 'f' => some '\x0c'
  | 'n' => some '\n'
  | 'r' => some '\r'
  | 't' => some '\t'
  | _ => none

/-! ## Quoted texts -/

/-- A quoted text up to its closing quote. A text with a lone surrogate is a fault
only for a reader. -/
inductive Quoted where
  | complete (text : Except TextFault String) (rest : List Char)
  | cut (reading skipping : TextFault)

abbrev Gathered := Except TextFault (List Char)

namespace Gathered

def push (gathered : Gathered) (character : Char) : Gathered :=
  gathered.map (character :: ·)

def spoil (gathered : Gathered) (fault : TextFault) : Gathered :=
  match gathered with
  | .ok _ => .error fault
  | .error earlier => .error earlier

def cut (gathered : Gathered) (fault : TextFault) : Quoted :=
  match gathered with
  | .ok _ => .cut fault fault
  | .error earlier => .cut earlier fault

def close (gathered : Gathered) (rest : List Char) : Quoted :=
  .complete (gathered.map fun characters => String.ofList characters.reverse) rest

end Gathered

/-- The fault of a `\u` without four hexadecimal digits: with fewer than four bytes
left it is the end of the text. -/
def shortEscapeFault (rest : List Char) : TextFault :=
  if (rest.map Char.utf8Size).foldr (· + ·) 0 < 4 then .endInText else .invalidEscape

def scanQuoted (gathered : Gathered) : List Char → Quoted
  | [] => gathered.cut .endInText
  | '\"' :: rest => gathered.close rest
  | '\\' :: escaped =>
      match escaped with
      | [] => gathered.cut .endInText
      | 'u' :: first :: second :: third :: fourth :: rest =>
          match fourHexDigits? first second third fourth with
          | none => gathered.cut .invalidEscape
          | some unit =>
              if isTrailSurrogate unit then scanQuoted (gathered.spoil .loneSurrogate) rest
              else if isLeadSurrogate unit then
                match rest with
                | [] => gathered.cut .endInText
                | ['\\'] => gathered.cut .endInText
                | '\\' :: 'u' :: fifth :: sixth :: seventh :: eighth :: after =>
                    match fourHexDigits? fifth sixth seventh eighth with
                    | none => gathered.cut .invalidEscape
                    | some trail =>
                        if isTrailSurrogate trail then
                          scanQuoted (gathered.push (ofSurrogates unit trail)) after
                        else scanQuoted (gathered.spoil .loneSurrogate) after
                | '\\' :: 'u' :: after => gathered.cut (shortEscapeFault after)
                | after => scanQuoted (gathered.spoil .escapeCutShort) after
              else scanQuoted (gathered.push (Char.ofNat unit)) rest
      | 'u' :: rest => gathered.cut (shortEscapeFault rest)
      | character :: rest =>
          match simpleEscape? character with
          | some meant => scanQuoted (gathered.push meant) rest
          | none => gathered.cut .invalidEscape
  | character :: rest =>
      if character.toNat < 0x20 then gathered.cut .controlCharacter
      else scanQuoted (gathered.push character) rest
termination_by structural characters => characters

end Sociogram.JsonText
