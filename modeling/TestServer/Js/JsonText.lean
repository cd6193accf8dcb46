import Mathlib.Data.List.Sort
import TestServer.Js.JsonParse
import TestServer.Library.InsertionMap

/-!
# Writing JSON

`JSON.stringify` on values of any depth, with an indentation or without one.

## Implementation notes

The text of a number is a parameter. An object lists its members in the order in which they were
set, and they are written in the order of its own keys.
-/

namespace TestServer.Js

open Library

/-- The array index that a key is the text of. -/
def arrayIndex (key : JsString) : Option Nat :=
  if key = decimal (digitsValue key) ∧ digitsValue key < 2 ^ 32 - 1 then some (digitsValue key)
  else none

/-- The own properties of an object after some assignments. Array indices come first. -/
def propertyOrder {α : Type} (assigned : List (JsString × α)) : List (JsString × α) :=
  let own := (assigned.foldl (fun object m => object.set m.1 m.2) InsertionMap.empty).entries
  let indexed := own.filter fun m => (arrayIndex m.1).isSome
  indexed.insertionSort (fun m n => (arrayIndex m.1).getD 0 ≤ (arrayIndex n.1).getD 0) ++
    own.filter fun m => (arrayIndex m.1).isNone

/-- Texts between two brackets, with a line for each of them if there is a gap. -/
def bracketed (opening closing : UInt16) (gap indent : JsString) (texts : List JsString) :
    JsString :=
  if texts = [] then [opening, closing]
  else if gap = [] then opening :: (join [unit ','] texts ++ [closing])
  else
    let line := 10 :: (indent ++ gap)
    opening :: (line ++ join (unit ',' :: line) texts ++ 10 :: (indent ++ [closing]))

section

variable (numberText : JsNumber → JsString) (gap : JsString)

mutual

/-- The text of a value inside of some indentation. -/
def stringifyIn (indent : JsString) : JsonValue → JsString
  | .null => js "null"
  | .bool b => if b then js "true" else js "false"
  | .num (.finite n) => numberText (.finite n)
  | .num (.infinite _) => js "null"
  | .str s => quote s
  | .array elements =>
      bracketed (unit '[') (unit ']') gap indent (stringifyElements (indent ++ gap) elements)
  | .object members =>
      bracketed (unit '{') (unit '}') gap indent
        ((propertyOrder (stringifyMembers (indent ++ gap) members)).map fun m =>
          quote m.1 ++ unit ':' :: ((if gap = [] then [] else [32]) ++ m.2))

def stringifyElements (indent : JsString) : List JsonValue → List JsString
  | [] => []
  | element :: rest => stringifyIn indent element :: stringifyElements indent rest

def stringifyMembers (indent : JsString) :
    List (JsString × JsonValue) → List (JsString × JsString)
  | [] => []
  | (name, value) :: rest => (name, stringifyIn indent value) :: stringifyMembers indent rest

end

end

/-- `JSON.stringify(value)` -/
def stringify (numberText : JsNumber → JsString) (value : JsonValue) : JsString :=
  stringifyIn numberText [] [] value

/-- `JSON.stringify(value, null, 2)` -/
def stringifyIndented (numberText : JsNumber → JsString) (value : JsonValue) : JsString :=
  stringifyIn numberText (js "  ") [] value

example : stringifyIndented (fun _ => js "7")
    (.object [(js "b", .array []), (js "1", .array [.num (.finite 7), .null]), (js "b", .null)]) =
    js "\x7b\n  \"1\": [\n    7,\n    null\n  ],\n  \"b\": null\n\x7d" := by
  decide +kernel

end TestServer.Js
