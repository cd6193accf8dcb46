import TestServer.InterimResponses
import TestServer.WsHandler

/-!
# Request text in response heads

The values of a query in interim responses, and the name of a forced subprotocol in the
response to an upgrade. Neither is checked. The former add nothing to a head if they
are field values, and the latter if it does not break the line.

## Implementation notes

The library that answers an upgrade writes some lines, a line with the subprotocol if
`handleProtocols` gives one, and the rest of the head.
-/

namespace TestServer

open Js Endpoints

/-- `handleProtocols`, for a request with the given forced subprotocol and offers. -/
def handleProtocols (forced : Option (Option JsString)) (clientProtocols : List JsString) :
    Option JsString :=
  match forced with
  | none => clientProtocols.head?.filter fun protocol => !protocol.isEmpty
  | some protocol => protocol

def protocolLine (protocol : JsString) : JsString := js "Sec-WebSocket-Protocol: " ++ protocol

/-- The head of the response to an upgrade. An empty subprotocol is not written. -/
def upgradeHead (start finish : JsString) (protocol : Option JsString) : JsString :=
  match protocol with
  | some (c :: name) => start ++ (crlf ++ (protocolLine (c :: name) ++ (crlf ++ finish)))
  | _ => start ++ (crlf ++ finish)

/-- What the library writes for the last step of an upgrade. -/
def upgradeResponse (start finish : JsString) (clientProtocols : List JsString) :
    SocketAction → Option JsString
  | .handleUpgrade forced _ _ =>
      some (upgradeHead start finish (handleProtocols forced clientProtocols))
  | _ => none

/-- An upgrade whose chain forces one subprotocol. -/
structure ForcedUpgrade where
  req : UpgradeRequest
  entries : List (ChainEntry WebSocketEndpoint)
  path : JsString
  name : JsString
  selects : entries.filter selectsProtocol = [⟨wsSubprotocolEndpoint, path⟩]
  decoded : decodeURIComponent (subprotocolName path) = some name

/-- The lines of a text, cut at each end of a line in any style. -/
def headLines : JsString → List JsString
  | [] => [[]]
  | 13 :: 10 :: rest => [] :: headLines rest
  | c :: rest =>
      if c = 13 ∨ c = 10 then [] :: headLines rest
      else
        match headLines rest with
        | [] => [[c]]
        | line :: lines => (c :: line) :: lines

/-- The response has one line for the subprotocol and is otherwise as without it. -/
def AddsOneLine (upgrade : ForcedUpgrade) : Prop :=
  ∀ (start finish : JsString) (clientProtocols : List JsString),
    ((upgradeChain upgrade.req upgrade.entries).actions.filterMap
        (upgradeResponse start finish clientProtocols)).map headLines =
      [headLines start ++ protocolLine upgrade.name :: headLines finish]

/-- A text that stays on its line. -/
def OnOneLine (s : JsString) : Prop := ∀ c ∈ s, c ≠ 13 ∧ c ≠ 10

instance (s : JsString) : Decidable (OnOneLine s) := List.decidableBAll _ _

theorem headLines_break {c : UInt16} {rest : JsString} (hc : c = 13 ∨ c = 10)
    (hpair : ¬ (c = 13 ∧ rest.head? = some 10)) :
    headLines (c :: rest) = [] :: headLines rest := by
  rw [headLines]
  · rw [if_pos hc]
  · rintro tail rfl rfl
    exact hpair ⟨rfl, rfl⟩

theorem headLines_unit {c : UInt16} {rest : JsString} (hc : ¬ (c = 13 ∨ c = 10)) {line : JsString}
    {lines : List JsString} (hrest : headLines rest = line :: lines) :
    headLines (c :: rest) = (c :: line) :: lines := by
  rw [headLines]
  · rw [if_neg hc, hrest]
  · rintro tail rfl -
    exact hc (.inl rfl)

theorem headLines_ne_nil (s : JsString) : headLines s ≠ [] := by
  induction s with
  | nil => exact List.cons_ne_nil _ _
  | cons c rest ih =>
      obtain ⟨line, lines, hlines⟩ := List.exists_cons_of_ne_nil ih
      by_cases hc : c = 13 ∨ c = 10
      · by_cases hpair : c = 13 ∧ rest.head? = some 10
        · obtain ⟨rfl, hhead⟩ := hpair
          obtain ⟨tail, rfl⟩ := List.head?_eq_some_iff.mp hhead
          rw [headLines]
          exact List.cons_ne_nil _ _
        · rw [headLines_break hc hpair]
          exact List.cons_ne_nil _ _
      · rw [headLines_unit hc hlines]
        exact List.cons_ne_nil _ _

/-- The end of a line separates the lines before and after it. -/
theorem headLines_append_crlf (s rest : JsString) :
    headLines (s ++ (crlf ++ rest)) = headLines s ++ headLines rest := by
  induction s using headLines.induct with
  | case1 => rfl
  | case2 tail ih =>
      have hcons : 13 :: 10 :: tail ++ (crlf ++ rest) = 13 :: 10 :: (tail ++ (crlf ++ rest)) := rfl
      rw [hcons, headLines, headLines, ih]
      rfl
  | case3 c tail hpair hc ih =>
      have hpair' : ¬ (c = 13 ∧ (tail ++ (crlf ++ rest)).head? = some 10) := by
        rintro ⟨rfl, hhead⟩
        cases tail with
        | nil => cases hhead
        | cons d tail => exact hpair tail rfl (by rw [Option.some.inj hhead])
      have hshort : ¬ (c = 13 ∧ tail.head? = some 10) := by
        rintro ⟨rfl, hhead⟩
        obtain ⟨tail, rfl⟩ := List.head?_eq_some_iff.mp hhead
        exact hpair tail rfl rfl
      rw [List.cons_append, headLines_break hc hpair', headLines_break hc hshort, ih]
      rfl
  | case4 c tail hpair hc hnil ih => exact absurd hnil (headLines_ne_nil tail)
  | case5 c tail hpair hc line lines hlines ih =>
      have happended : headLines (tail ++ (crlf ++ rest)) = line :: (lines ++ headLines rest) := by
        rw [ih, hlines]
        rfl
      rw [List.cons_append, headLines_unit hc happended, headLines_unit hc hlines]
      rfl

theorem headLines_of_onOneLine {s : JsString} (h : OnOneLine s) : headLines s = [s] := by
  induction s with
  | nil => rfl
  | cons c rest ih =>
      obtain ⟨hc, hrest⟩ := List.forall_mem_cons.mp h
      exact headLines_unit (not_or.mpr hc) (ih hrest)

/-- A text is one line if and only if no unit of it ends a line. -/
theorem length_headLines_eq_one_iff {s : JsString} : (headLines s).length = 1 ↔ OnOneLine s := by
  constructor
  · intro hlength
    induction s with
    | nil =>
        intro c hc
        cases hc
    | cons c rest ih =>
        obtain ⟨line, lines, hlines⟩ := List.exists_cons_of_ne_nil (headLines_ne_nil rest)
        by_cases hc : c = 13 ∨ c = 10
        · by_cases hpair : c = 13 ∧ rest.head? = some 10
          · obtain ⟨rfl, hhead⟩ := hpair
            obtain ⟨tail, rfl⟩ := List.head?_eq_some_iff.mp hhead
            rw [headLines, List.length_cons, Nat.succ_inj] at hlength
            exact absurd (List.eq_nil_of_length_eq_zero hlength) (headLines_ne_nil tail)
          · rw [headLines_break hc hpair, List.length_cons, Nat.succ_inj] at hlength
            exact absurd (List.eq_nil_of_length_eq_zero hlength) (headLines_ne_nil rest)
        · rw [headLines_unit hc hlines, List.length_cons] at hlength
          refine List.forall_mem_cons.mpr ⟨not_or.mp hc, ih ?_⟩
          rw [hlines, List.length_cons]
          exact hlength
  · intro h
    rw [headLines_of_onOneLine h]
    rfl

theorem upgradeResponse_forced (upgrade : ForcedUpgrade) (start finish : JsString)
    (clientProtocols : List JsString) :
    (upgradeChain upgrade.req upgrade.entries).actions.filterMap
        (upgradeResponse start finish clientProtocols) =
      [upgradeHead start finish (some upgrade.name)] := by
  simp only [upgradeChain, upgrade.selects, wsSubprotocolEndpoint, upgrade.decoded]
  rfl

theorem protocolLine_onOneLine_iff {name : JsString} :
    OnOneLine (protocolLine name) ↔ OnOneLine name := by
  have hname : OnOneLine (js "Sec-WebSocket-Protocol: ") := by
    have hall : (js "Sec-WebSocket-Protocol: ").all (fun c => decide (c ≠ 13 ∧ c ≠ 10)) = true := by
      decide
    intro c hc
    exact of_decide_eq_true (List.all_eq_true.mp hall c hc)
  rw [OnOneLine, protocolLine, List.forall_mem_append]
  exact and_iff_right hname

/-- A forced subprotocol adds one line if and only if it is not empty and does not break it. -/
theorem addsOneLine_iff (upgrade : ForcedUpgrade) :
    AddsOneLine upgrade ↔ upgrade.name ≠ [] ∧ OnOneLine upgrade.name := by
  rw [AddsOneLine]
  simp only [upgradeResponse_forced, List.map_cons, List.map_nil, List.cons.injEq, and_true]
  constructor
  · intro h
    have hlines := h [] [] []
    cases hname : upgrade.name with
    | nil =>
        rw [hname] at hlines
        exact absurd (congrArg List.length hlines) (by decide)
    | cons c name =>
        rw [hname] at hlines
        refine ⟨List.cons_ne_nil c name, ?_⟩
        rw [← protocolLine_onOneLine_iff, ← length_headLines_eq_one_iff]
        have hhead : upgradeHead [] [] (some (c :: name)) =
            [] ++ (crlf ++ (protocolLine (c :: name) ++ (crlf ++ []))) := rfl
        rw [hhead, headLines_append_crlf, headLines_append_crlf] at hlines
        have hlength := congrArg List.length hlines
        simp only [List.length_append, List.length_cons] at hlength
        omega
  · rintro ⟨hne, hline⟩ start finish clientProtocols
    obtain ⟨c, name, hname⟩ := List.exists_cons_of_ne_nil hne
    have hhead : upgradeHead start finish (some upgrade.name) =
        start ++ (crlf ++ (protocolLine upgrade.name ++ (crlf ++ finish))) := by
      rw [hname]
      rfl
    rw [hhead, headLines_append_crlf, headLines_append_crlf,
      headLines_of_onOneLine (protocolLine_onOneLine_iff.mpr hline)]
    rfl

/-- Requested values are in interim responses exactly as they are if and only if they are field
values, and a forced subprotocol adds one line to the response to an upgrade if and only if it is
not empty and does not break the line. -/
theorem responseHeads_iff (hop : InfoHop) (hops : List InfoHop)
    (query : List (JsString × JsString)) (upgrade : ForcedUpgrade) :
    (ReadsExactly (hop :: hops) query ↔ ∀ v ∈ getAll query (js "link"), FieldValue v) ∧
      (AddsOneLine upgrade ↔ upgrade.name ≠ [] ∧ OnOneLine upgrade.name) := by
  refine ⟨⟨?_, ?_⟩, addsOneLine_iff upgrade⟩
  · exact fieldValues_of_readsExactly (List.cons_ne_nil hop hops)
  · exact fun h => readsExactly_of_fieldValues h (hop :: hops)

/-- `/info/103`. -/
def earlyHints : InfoHop := ⟨js "/info/103", 103, by decide +kernel, by decide +kernel⟩

/-- An upgrade that forces the subprotocol `chat`. -/
def chatUpgrade : ForcedUpgrade where
  req := ⟨js "/ws/subprotocol/chat", some (js "t"), none⟩
  entries := [⟨wsSubprotocolEndpoint, js "/ws/subprotocol/chat"⟩]
  path := js "/ws/subprotocol/chat"
  name := js "chat"
  selects := rfl
  decoded := by decide +kernel

theorem responseHeads_iff_chat :
    ReadsExactly [earlyHints] [(js "link", js "</a>")] ∧ AddsOneLine chatUpgrade := by
  obtain ⟨hlinks, hline⟩ := responseHeads_iff earlyHints [] [(js "link", js "</a>")] chatUpgrade
  constructor
  · apply hlinks.mpr
    exact List.forall_mem_singleton.mpr (by decide +kernel)
  · exact hline.mpr ⟨js_ne_nil (by decide), by decide +kernel⟩

/-- A value with the end of a line in it adds a header. -/
theorem not_readsExactly_splitValue :
    ¬ ReadsExactly [earlyHints] [(js "link", js "</a>\r\nset-cookie: a=b")] := by
  intro h
  have hvalue := fieldValues_of_readsExactly (List.cons_ne_nil _ _) h
    (js "</a>\r\nset-cookie: a=b") (by decide)
  exact absurd (hvalue.1 13 (by decide)) (by decide)

end TestServer
