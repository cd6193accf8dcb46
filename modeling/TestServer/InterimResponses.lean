import Mathlib.Data.List.DropRight
import TestServer.Endpoints.HttpIndex
import TestServer.ProcessConnection.ProxyProtocol

/-!
# Interim responses

What `src/endpoints/http/informational.ts` writes over HTTP/1, and a reader of such
responses. The writer puts the requested values into the head as they are, in one byte
for each code unit. They are read back if and only if they are field values.

## Implementation notes

A query is its list of names and values. The hook for raw writes sends the bytes of the
text in Latin-1, which takes the low byte of each code unit.
-/

namespace TestServer

open Js Endpoints

/-- `STATUS_CODES[code] ?? ''`, for informational codes. -/
def informationalReason (code : Int) : JsString :=
  if code = 100 then js "Continue"
  else if code = 101 then js "Switching Protocols"
  else if code = 102 then js "Processing"
  else if code = 103 then js "Early Hints"
  else []

def crlf : JsString := js "\r\n"

def linkLine (value : JsString) : JsString := js "link: " ++ value ++ crlf

/-- The text that `sendInformational` writes for a code and the values of `link`. -/
def informationalText (code : Int) (links : List JsString) : JsString :=
  js "HTTP/1.1 " ++ integer code ++ js " " ++ informationalReason code ++ crlf ++
    links.flatMap linkLine ++ crlf

/-- `query.getAll(name)`. -/
def getAll (query : List (JsString × JsString)) (name : JsString) : List JsString :=
  (query.filter fun entry => decide (entry.1 = name)).map Prod.snd

/-- The bytes of a text in Latin-1. -/
def latin1Bytes (text : JsString) : ProcessConnection.Bytes := text.map UInt16.toUInt8

/-- `parseCode`. -/
def parseCode (path : JsString) : Option Int :=
  parseInt (segmentAfter (js "/info/") path).1

/-- A path that the endpoint accepts. -/
structure InfoHop where
  path : JsString
  code : Int
  accepted : informational.matchPath path none = .ok true
  parsed : parseCode path = some code

/-- The bytes that the handlers of some hops write one after the other. -/
def interimBytes (hops : List InfoHop) (query : List (JsString × JsString)) :
    ProcessConnection.Bytes :=
  hops.flatMap fun hop => latin1Bytes (informationalText hop.code (getAll query (js "link")))

structure Field where
  name : JsString
  value : JsString
deriving DecidableEq

structure InterimResponse where
  code : Nat
  fields : List Field
deriving DecidableEq

def isOws (c : UInt16) : Bool := c == 9 || c == 0x20

/-- The units of a field's value: white space, visible characters and high bytes. -/
def isValueUnit (c : UInt16) : Bool :=
  c == 9 || decide (0x20 ≤ c ∧ c ≤ 0x7E) || decide (0x80 ≤ c ∧ c ≤ 0xFF)

def trimOws (s : JsString) : JsString := (s.dropWhile isOws).rdropWhile isOws

def readField (line : JsString) : Option Field :=
  match indexOf line (js ":") 0 with
  | none => none
  | some i =>
      if 0 < i ∧ line.all isValueUnit then some ⟨line.take i, trimOws (line.drop (i + 1))⟩ else none

/-- The code of a status line. -/
def readStatusLine (line : JsString) : Option Nat :=
  let code := (line.drop (js "HTTP/1.1 ").length).take 3
  if startsWith line (js "HTTP/1.1 ") ∧ code.length = 3 ∧ code.all isDigit ∧
      (line.drop 12).head? = some (unit ' ') ∧ line.all isValueUnit then
    some (digitsValue code)
  else none

/-- The responses of some lines, after the head of the one that is being read. The text after
the last end of a line is empty. -/
def readHeads : Option InterimResponse → List JsString → Option (List InterimResponse)
  | _, [] => none
  | none, [last] => if last = [] then some [] else none
  | none, line :: rest =>
      (readStatusLine line).bind fun code => readHeads (some ⟨code, []⟩) rest
  | some response, line :: rest =>
      if line = [] then (readHeads none rest).map (response :: ·)
      else (readField line).bind fun field =>
        readHeads (some ⟨response.code, response.fields ++ [field]⟩) rest

def readInterim (bytes : ProcessConnection.Bytes) : Option (List InterimResponse) :=
  readHeads none (split (bytes.map fun b => b.toNat.toUInt16) crlf)

/-- A text that a field can have for its value. -/
def FieldValue (v : JsString) : Prop := (∀ c ∈ v, isValueUnit c = true) ∧ trimOws v = v

instance (v : JsString) : Decidable (FieldValue v) :=
  @instDecidableAnd _ _ (List.decidableBAll _ _) _

/-- The hops are read as one response each, with the requested values in order. -/
def ReadsExactly (hops : List InfoHop) (query : List (JsString × JsString)) : Prop :=
  readInterim (interimBytes hops query) =
    some (hops.map fun hop =>
      ⟨hop.code.toNat, (getAll query (js "link")).map fun v => ⟨js "link", v⟩⟩)

example : readInterim (latin1Bytes (informationalText 103 [js "</a>; rel=preload", []])) =
    some [⟨103, [⟨js "link", js "</a>; rel=preload"⟩, ⟨js "link", []⟩]⟩] := by
  decide +kernel

theorem trimOws_trimOws (s : JsString) : trimOws (trimOws s) = trimOws s := by
  have hstart : (trimOws s).dropWhile isOws = trimOws s := by
    rw [List.dropWhile_eq_self_iff]
    intro hpos
    have hkept : trimOws s <+: s.dropWhile isOws := List.rdropWhile_prefix _ _
    have hne : s.dropWhile isOws ≠ [] := by
      intro hnil
      rw [hnil, List.prefix_nil] at hkept
      rw [hkept] at hpos
      exact absurd hpos (Nat.lt_irrefl 0)
    have hhead : (trimOws s)[0] = (s.dropWhile isOws).head hne := by
      rw [List.head_eq_getElem]
      exact hkept.getElem _
    rw [hhead, Bool.not_eq_true]
    exact List.head_dropWhile_not isOws hne
  calc
    trimOws (trimOws s) = ((trimOws s).dropWhile isOws).rdropWhile isOws := rfl
    _ = (trimOws s).rdropWhile isOws := by rw [hstart]
    _ = trimOws s := List.rdropWhile_idempotent _ _

/-- What is read is a field value. -/
theorem fieldValue_of_readField {line : JsString} {field : Field}
    (h : readField line = some field) : FieldValue field.value := by
  rw [readField] at h
  split at h
  · cases h
  · next i _ =>
      split_ifs at h with hline
      cases h
      refine ⟨fun c hc => ?_, trimOws_trimOws _⟩
      have hmem : c ∈ line.drop (i + 1) :=
        (List.dropWhile_suffix _).subset ((List.rdropWhile_prefix _ _).subset hc)
      exact List.all_eq_true.mp hline.2 c (List.mem_of_mem_drop hmem)

theorem fieldValue_of_readHeads {lines : List JsString} {current : Option InterimResponse}
    {responses : List InterimResponse} (h : readHeads current lines = some responses)
    (hcurrent : ∀ response ∈ current, ∀ field ∈ response.fields, FieldValue field.value) :
    ∀ response ∈ responses, ∀ field ∈ response.fields, FieldValue field.value := by
  induction lines generalizing current responses with
  | nil => cases current <;> cases h
  | cons line rest ih =>
      cases current with
      | none =>
          cases rest with
          | nil =>
              rw [readHeads] at h
              split_ifs at h
              cases h
              intro response hresponse
              cases hresponse
          | cons next rest =>
              rw [readHeads] at h
              obtain ⟨code, -, hrest⟩ := Option.bind_eq_some_iff.mp h
              apply ih hrest
              rintro response ⟨⟩ field hfield
              cases hfield
              exact List.cons_ne_nil next rest
      | some response =>
          rw [readHeads] at h
          split_ifs at h with hempty
          · obtain ⟨tail, htail, rfl⟩ := Option.map_eq_some_iff.mp h
            have hfirst := hcurrent response rfl
            have hothers := ih htail (by
              intro response hresponse
              cases hresponse)
            exact List.forall_mem_cons.mpr ⟨hfirst, hothers⟩
          · obtain ⟨field, hfield, hrest⟩ := Option.bind_eq_some_iff.mp h
            apply ih hrest
            rintro current ⟨⟩ other hother
            rcases List.mem_append.mp hother with hother | hother
            · exact hcurrent response rfl other hother
            · rw [List.mem_singleton.mp hother]
              exact fieldValue_of_readField hfield

theorem ne_cr_of_isValueUnit {c : UInt16} (h : isValueUnit c = true) : c ≠ 13 := by
  rintro rfl
  cases h

theorem lt_of_isValueUnit {c : UInt16} (h : isValueUnit c = true) : c.toNat < 256 := by
  simp only [isValueUnit, Bool.or_eq_true, beq_iff_eq, decide_eq_true_eq,
    UInt16.le_iff_toNat_le, UInt16.reduceToNat, ← UInt16.toNat_inj] at h
  omega

theorem uncut_crlf {line : JsString} (h : ∀ c ∈ line, isValueUnit c = true) :
    Uncut crlf line := by
  have hcr : (13 : UInt16) ∉ line := fun hmem => ne_cr_of_isValueUnit (h 13 hmem) rfl
  apply uncut_of_not_includes
  · rw [Bool.eq_false_iff, ne_eq, includes_iff]
    intro hinner
    exact hcr (hinner.subset List.mem_cons_self)
  · intro hlast
    exact hcr (List.mem_of_getLast? hlast)

theorem split_line {line : JsString} (h : ∀ c ∈ line, isValueUnit c = true) (rest : JsString) :
    split (line ++ (crlf ++ rest)) crlf = line :: split rest crlf :=
  split_append (List.cons_ne_nil _ _) (uncut_crlf h) rest

def statusLine (code : Int) : JsString :=
  js "HTTP/1.1 " ++ integer code ++ js " " ++ informationalReason code

theorem statusLine_supported : ∀ n < 200, 100 ≤ n →
    readStatusLine (statusLine (n : Nat)) = some n ∧
      (statusLine (n : Nat)).all isValueUnit = true := by
  decide +kernel

theorem linkField_units {v : JsString} (h : FieldValue v) :
    ∀ c ∈ js "link: " ++ v, isValueUnit c = true := by
  have hname : (js "link: ").all isValueUnit = true := by decide
  intro c hc
  rcases List.mem_append.mp hc with hc | hc
  · exact List.all_eq_true.mp hname c hc
  · exact h.1 c hc

/-- A field value is read back from its line. -/
theorem readField_link {v : JsString} (h : FieldValue v) :
    readField (js "link: " ++ v) = some ⟨js "link", v⟩ := by
  have hcolon : indexOf (js "link: " ++ v) (js ":") 0 = some 4 := by
    have hsplit : js "link: " ++ v = js "link" ++ unit ':' :: (unit ' ' :: v) := rfl
    rw [hsplit]
    exact indexOf_append (Nat.zero_le 4) (by decide)
  have htrim : trimOws (unit ' ' :: v) = v := h.2
  rw [readField, hcolon]
  simp only
  rw [if_pos ⟨by decide, List.all_eq_true.mpr (linkField_units h)⟩]
  exact congrArg (fun value => some (Field.mk (js "link") value)) htrim

theorem split_linkLines {links : List JsString} (h : ∀ v ∈ links, FieldValue v)
    (rest : JsString) :
    split (links.flatMap linkLine ++ rest) crlf =
      links.map (js "link: " ++ ·) ++ split rest crlf := by
  induction links with
  | nil => rfl
  | cons v links ih =>
      obtain ⟨hv, hlinks⟩ := List.forall_mem_cons.mp h
      rw [List.flatMap_cons, linkLine, List.append_assoc, List.append_assoc,
        split_line (linkField_units hv), ih hlinks]
      rfl

theorem readHeads_linkLines {links : List JsString} (h : ∀ v ∈ links, FieldValue v)
    (response : InterimResponse) (rest : List JsString) :
    readHeads (some response) (links.map (js "link: " ++ ·) ++ [] :: rest) =
      (readHeads none rest).map
        (⟨response.code, response.fields ++ links.map fun v => ⟨js "link", v⟩⟩ :: ·) := by
  induction links generalizing response with
  | nil =>
      rw [List.map_nil, List.map_nil, List.nil_append, List.append_nil, readHeads, if_pos rfl]
  | cons v links ih =>
      obtain ⟨hv, hlinks⟩ := List.forall_mem_cons.mp h
      have hne : js "link: " ++ v ≠ [] := List.cons_ne_nil _ _
      rw [List.map_cons, List.cons_append, readHeads, if_neg hne, readField_link hv,
        Option.bind_some, ih hlinks, List.append_assoc]
      rfl

/-- One response is read, and what follows it. -/
theorem readHeads_informationalText {code : Nat} (hcode : 100 ≤ code ∧ code < 200)
    {links : List JsString} (h : ∀ v ∈ links, FieldValue v) (rest : JsString) :
    readHeads none (split (informationalText code links ++ rest) crlf) =
      (readHeads none (split rest crlf)).map
        (⟨code, links.map fun v => ⟨js "link", v⟩⟩ :: ·) := by
  obtain ⟨hread, hunits⟩ := statusLine_supported code hcode.2 hcode.1
  have htext : informationalText code links ++ rest =
      statusLine code ++ (crlf ++ (links.flatMap linkLine ++ (crlf ++ rest))) := by
    simp only [informationalText, statusLine, List.append_assoc]
  have hempty : split (crlf ++ rest) crlf = [] :: split rest crlf :=
    split_append_sep (List.cons_ne_nil _ _) rest
  have hne : ∃ next tail, links.map (js "link: " ++ ·) ++ [] :: split rest crlf = next :: tail :=
    List.exists_cons_of_ne_nil (List.append_ne_nil_of_right_ne_nil _ (List.cons_ne_nil _ _))
  rw [htext, split_line (List.all_eq_true.mp hunits), split_linkLines h, hempty]
  obtain ⟨next, tail, htail⟩ := hne
  have hlines := readHeads_linkLines h ⟨code, []⟩ (split rest crlf)
  rw [htail] at hlines ⊢
  rw [readHeads, hread, Option.bind_some, hlines]
  · rfl
  · exact List.cons_ne_nil next tail

theorem informationalText_units {code : Nat} (hcode : 100 ≤ code ∧ code < 200)
    {links : List JsString} (h : ∀ v ∈ links, FieldValue v) :
    ∀ c ∈ informationalText code links, c.toNat < 256 := by
  have hcrlf : ∀ c ∈ crlf, c.toNat < 256 := by
    intro c hc
    rw [show crlf = [13, 10] from rfl, List.mem_cons, List.mem_singleton] at hc
    rcases hc with rfl | rfl
    · decide
    · decide
  have hstatus := (statusLine_supported code hcode.2 hcode.1).2
  have htext : informationalText code links =
      statusLine code ++ (crlf ++ (links.flatMap linkLine ++ crlf)) := by
    simp only [informationalText, statusLine, List.append_assoc]
  intro c hc
  rw [htext, List.mem_append, List.mem_append, List.mem_append, List.mem_flatMap] at hc
  rcases hc with hc | hc | ⟨v, hv, hc⟩ | hc
  · exact lt_of_isValueUnit (List.all_eq_true.mp hstatus c hc)
  · exact hcrlf c hc
  · rcases List.mem_append.mp hc with hc | hc
    · exact lt_of_isValueUnit (linkField_units (h v hv) c hc)
    · exact hcrlf c hc
  · exact hcrlf c hc

theorem latin1Text_latin1Bytes {text : JsString} (h : ∀ c ∈ text, c.toNat < 256) :
    (latin1Bytes text).map (fun b => b.toNat.toUInt16) = text := by
  rw [latin1Bytes, List.map_map]
  conv_rhs => rw [← List.map_id text]
  apply List.map_congr_left
  intro c hc
  have hlt := h c hc
  rw [← UInt16.toNat_inj]
  simp only [Function.comp_apply, id, UInt16.toNat_toUInt8, UInt16.toNat_ofNat']
  omega

namespace InfoHop

/-- An accepted code is an informational one. -/
theorem exists_code (hop : InfoHop) : ∃ code : Nat, hop.code = code ∧ 100 ≤ code ∧ code < 200 := by
  have haccepted := hop.accepted
  have hparsed : parseInt (segmentAfter (js "/info/") hop.path).1 = some hop.code := hop.parsed
  simp only [informational, hparsed] at haccepted
  split_ifs at haccepted with hstart hsupported
  · rw [isSupportedInformationalCode, decide_eq_true_eq] at hsupported
    exact ⟨hop.code.toNat, by omega, by omega, by omega⟩
  · cases haccepted

end InfoHop

/-- The responses of some hops are read exactly, if the requested values are field values. -/
theorem readsExactly_of_fieldValues {query : List (JsString × JsString)}
    (h : ∀ v ∈ getAll query (js "link"), FieldValue v) (hops : List InfoHop) :
    ReadsExactly hops query := by
  have htext : (interimBytes hops query).map (fun b => b.toNat.toUInt16) =
      hops.flatMap fun hop => informationalText hop.code (getAll query (js "link")) := by
    rw [interimBytes, List.map_flatMap]
    apply List.flatMap_congr
    intro hop _
    obtain ⟨code, hcode, hbounds⟩ := hop.exists_code
    rw [hcode]
    exact latin1Text_latin1Bytes (informationalText_units hbounds h)
  rw [ReadsExactly, readInterim, htext]
  clear htext
  induction hops with
  | nil => rfl
  | cons hop hops ih =>
      obtain ⟨code, hcode, hbounds⟩ := hop.exists_code
      rw [List.flatMap_cons, hcode, readHeads_informationalText hbounds h, ih, List.map_cons,
        hcode]
      rfl

theorem fieldValues_of_readsExactly {hops : List InfoHop} (hne : hops ≠ [])
    {query : List (JsString × JsString)} (h : ReadsExactly hops query) :
    ∀ v ∈ getAll query (js "link"), FieldValue v := by
  intro v hv
  obtain ⟨hop, hops, rfl⟩ := List.exists_cons_of_ne_nil hne
  have hvalues := fieldValue_of_readHeads h (by
    intro response hresponse
    cases hresponse)
  rw [List.map_cons] at hvalues
  exact (List.forall_mem_cons.mp hvalues).1 ⟨js "link", v⟩
    (List.mem_map.mpr ⟨v, hv, rfl⟩)

end TestServer
