import TestServer.Endpoints.WsIndex
import TestServer.Js.Coercion

/-!
# Parameters of WebSocket endpoints

What the handlers of `src/endpoints/ws` read from the path that their endpoint
has matched. A number that is not one is `none`.
-/

namespace TestServer.Endpoints

open Js

def parseDelaySeconds (path : JsString) : Option JsNumber :=
  parseFloat (segmentAfter (js "/ws/delay/") path).1

def parseMessage (path : JsString) : Except Thrown JsString :=
  match decodeURIComponent (segmentAfter (js "/ws/message/") path).1 with
  | none => .error uriError
  | some message => .ok message

structure RepeatParams where
  message : JsString
  freqMs : Option JsNumber

/-- `parseParams` of the repeat endpoint. -/
def parseRepeatParams (path : JsString) : Except Thrown RepeatParams :=
  match cutSlash (path.drop repeatPrefix.length) with
  | (_, none) => .ok ⟨[], none⟩
  | (message, some afterMessage) =>
      match decodeURIComponent message with
      | none => .error uriError
      | some message =>
          .ok ⟨message, (parseInt (cutSlash afterMessage).1).map fun n : Int => toDouble n⟩

/-- The interval that a match checks is the one of the handler. -/
theorem parseRepeatParams_freqMs (path : JsString) :
    (parseRepeatParams path).map RepeatParams.freqMs =
      (parseRepeatFrequency path).map fun freqMs => freqMs.map fun n : Int => toDouble n := by
  rw [parseRepeatParams, parseRepeatFrequency]
  rcases cutSlash (path.drop repeatPrefix.length) with ⟨message, _ | afterMessage⟩
  · rfl
  · dsimp only
    cases decodeURIComponent message with
    | none => rfl
    | some _ => rfl

/-- The delay that a match checks is the one of the handler. -/
theorem isSome_parseDelaySeconds (path : JsString) :
    (parseDelaySeconds path).isSome =
      parseFloatIsNumber (segmentAfter (js "/ws/delay/") path).1 :=
  isSome_parseFloat _

theorem segmentAfter_append {lead segment : JsString} (h : unit '/' ∉ segment)
    (tail : JsString) :
    segmentAfter lead (lead ++ (segment ++ unit '/' :: tail)) =
      (segment, some (unit '/' :: tail)) := by
  have hindex : indexOf (lead ++ segment ++ unit '/' :: tail) (js "/") lead.length =
      some (lead ++ segment).length := by
    apply indexOf_append
    · rw [List.length_append]
      exact Nat.le_add_right ..
    · rw [List.drop_left]
      exact h
  rw [← List.append_assoc, segmentAfter, hindex]
  simp only [List.take_left, List.drop_left]

theorem segmentAfter_last {lead segment : JsString} (h : unit '/' ∉ segment) :
    segmentAfter lead (lead ++ segment) = (segment, none) := by
  have hindex : indexOf (lead ++ segment) (js "/") lead.length = none := by
    apply indexOf_eq_none
    rw [List.drop_left]
    exact h
  rw [segmentAfter, hindex]
  simp only [List.drop_left]

theorem cutSlash_append {segment : JsString} (h : unit '/' ∉ segment) (tail : JsString) :
    cutSlash (segment ++ unit '/' :: tail) = (segment, some tail) := by
  have hindex : indexOf (segment ++ unit '/' :: tail) (js "/") 0 = some segment.length :=
    indexOf_append (Nat.zero_le _) h
  rw [cutSlash, hindex]
  simp only [List.take_left, List.drop_append]
  simp

theorem cutSlash_last {segment : JsString} (h : unit '/' ∉ segment) :
    cutSlash segment = (segment, none) := by
  have hindex : indexOf segment (js "/") 0 = none :=
    indexOf_eq_none h
  rw [cutSlash, hindex]

end TestServer.Endpoints
