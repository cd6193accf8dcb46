import Mathlib.Data.List.MinMax
import TestServer.Library.Agreement
import TestServer.ProcessConnection.ConnectionProcessor

/-!
# Which handler takes a connection

`isHTTP2` and `couldBeHttp` accept the start of what they look for. The start of
the HTTP/2 preface is the start of some methods too, and the start of a method
may go on to something else, so a short first chunk can be sent elsewhere than a
long one.
-/

namespace TestServer.ProcessConnection

open Js Library

/-- The octets of a text in ASCII, as units. -/
def octetUnits (data : Bytes) : JsString := data.map fun b => b.toNat.toUInt16

/-- The first chunk decides, whatever is read later. -/
def SameDestination (s : Bytes) : Prop :=
  ∀ p q : Bytes, p ≠ [] → q ≠ [] → p <+: s → q <+: s → ∀ reads reads',
    (processProtocolData p reads).map Prod.fst = (processProtocolData q reads').map Prod.fst

/-- A chunk of one octet already tells: TLS, the whole preface, a whole method that does not
start as the preface does, or the first letter of no method. -/
def Recognisable (s : Bytes) : Prop :=
  s.head? = some tlsHandshakeByte ∨ http2Preface <+: s ∨
    (s.head? ≠ http2Preface.head? ∧ ∃ m ∈ methodPrefixes, m <+: octetUnits s) ∨
    ∀ m ∈ methodPrefixes, m.head? ≠ (octetUnits s).head?

theorem octetUnits_ne {b : UInt8} {u : UInt16} (hb : 0x80 ≤ b.toNat) (hu : u.toNat < 0x80) :
    b.toNat.toUInt16 ≠ u := by
  intro heq
  have hlt : b.toNat < 256 := b.toNat_lt
  have htoNat : u.toNat = b.toNat := by
    rw [← heq, Nat.toUInt16, UInt16.toNat_ofNat']
    omega
  omega

/-- A text in ASCII is compared octet by octet, whatever else is decoded. -/
theorem agrees_decodeUtf8_iff {m : JsString} (hascii : ∀ u ∈ m, u.toNat < 0x80) (data : Bytes) :
    Agrees (decodeUtf8 data) m ↔ Agrees (octetUnits data) m := by
  induction m generalizing data with
  | nil => exact iff_of_true (agrees_nil_right _) (agrees_nil_right _)
  | cons u m ih =>
      obtain ⟨hu, hm⟩ := List.forall_mem_cons.mp hascii
      cases data with
      | nil => exact Iff.rfl
      | cons b rest =>
          simp only [octetUnits, List.map_cons, agrees_cons]
          by_cases hb : b.toNat < 0x80
          · rw [decodeUtf8_cons_of_lt hb, agrees_cons, ih hm]
            exact Iff.rfl
          · have hwide : 0x80 ≤ b.toNat := Nat.not_lt.mp hb
            obtain ⟨v, text, htext, hv⟩ := startsWide_decodeUtf8 hwide rest
            rw [htext, agrees_cons]
            apply iff_of_false
            · rintro ⟨rfl, -⟩
              exact absurd hu (Nat.not_lt.mpr hv)
            · exact fun h => octetUnits_ne hwide hu h.1

theorem ascii_methodPrefixes : ∀ m ∈ methodPrefixes, ∀ u ∈ m, u.toNat < 0x80 := by
  intro m hm u hu
  have hall : (methodPrefixes.all fun m => m.all fun u => decide (u.toNat < 0x80)) = true := by
    rfl
  rw [List.all_eq_true] at hall
  exact of_decide_eq_true (List.all_eq_true.mp (hall m hm) u hu)

theorem length_methodPrefixes : ∀ m ∈ methodPrefixes, m.length ≤ longestPrefix :=
  fun _ hm => List.le_max_of_le (List.mem_map_of_mem hm) (Nat.le_refl _)

theorem longestPrefix_le : longestPrefix ≤ http2Preface.length := by
  have hall : (methodPrefixes.all fun m => decide (m.length ≤ 24)) = true := by rfl
  have hlength : http2Preface.length = 24 := by rfl
  rw [List.all_eq_true] at hall
  rw [hlength]
  apply List.max_le_of_forall_le
  intro n hn
  obtain ⟨m, hm, rfl⟩ := List.mem_map.mp hn
  exact of_decide_eq_true (hall m hm)

theorem ne_nil_methodPrefixes : ∀ m ∈ methodPrefixes, m ≠ [] := by decide

theorem couldBeHttp_iff (data : Bytes) :
    couldBeHttp data = true ↔ ∃ m ∈ methodPrefixes, Agrees (octetUnits data) m := by
  rw [couldBeHttp, List.any_eq_true]
  apply exists_congr
  intro m
  apply and_congr_right
  intro hm
  calc
    _ ↔ Agrees (decodeUtf8 (data.take longestPrefix)) m := by
        rw [beq_iff_eq, take_min_eq_iff]
    _ ↔ Agrees (octetUnits (data.take longestPrefix)) m :=
        agrees_decodeUtf8_iff (ascii_methodPrefixes m hm) _
    _ ↔ Agrees ((octetUnits data).take longestPrefix) m := by
        rw [octetUnits, octetUnits, List.map_take]
    _ ↔ Agrees (octetUnits data) m := agrees_take_iff (length_methodPrefixes m hm)

theorem isHTTP2_iff (data : Bytes) : isHTTP2 data = true ↔ Agrees data http2Preface := by
  rw [isHTTP2, beq_iff_eq, take_min_eq_iff]

theorem processProtocolData_fst {p : Bytes} (h : p ≠ []) (reads : List (Option Bytes)) :
    (processProtocolData p reads).map Prod.fst = some (destination p) := by
  have hlength : ¬ p.length = 0 := mt List.eq_nil_of_length_eq_zero h
  cases reads with
  | nil => rw [processProtocolData, if_neg hlength, Option.map_some]
  | cons chunk reads => rw [processProtocolData, if_neg hlength, Option.map_some]

theorem sameDestination_iff (s : Bytes) :
    SameDestination s ↔
      ∀ p q, p ≠ [] → q ≠ [] → p <+: s → q <+: s → destination p = destination q := by
  constructor
  · intro h p q hp hq hps hqs
    have heq := h p q hp hq hps hqs [] []
    rw [processProtocolData_fst hp, processProtocolData_fst hq] at heq
    exact Option.some.inj heq
  · intro h p q hp hq hps hqs reads reads'
    rw [processProtocolData_fst hp, processProtocolData_fst hq, h p q hp hq hps hqs]

/-- A chunk for TLS is known by its first octet. -/
theorem destination_tls {p : Bytes} (h : p.head? = some tlsHandshakeByte) :
    destination p = .tls := by
  rw [destination, isTLS, h, if_pos (beq_self_eq_true _)]

theorem destination_of_not_tls {p : Bytes} (h : p.head? ≠ some tlsHandshakeByte) :
    destination p =
      if isHTTP2 p then .http2 else if couldBeHttp p then .http1 else .rejected := by
  rw [destination, isTLS, if_neg (mt eq_of_beq h)]

theorem head?_of_isPrefix {α : Type*} {p s : List α} (hp : p ≠ []) (h : p <+: s) :
    p.head? = s.head? := by
  obtain ⟨rest, rfl⟩ := h
  rw [List.head?_append_of_ne_nil _ hp]

theorem head?_of_agrees {α : Type*} {a b : List α} (ha : a ≠ []) (hb : b ≠ [])
    (h : Agrees a b) : a.head? = b.head? := by
  rcases h with hab | hba
  · exact head?_of_isPrefix ha hab
  · exact (head?_of_isPrefix hb hba).symm

/-- A chunk that starts otherwise than the preface is sent on by the methods alone. -/
theorem destination_of_head {p : Bytes} (hp : p ≠ []) (htls : p.head? ≠ some tlsHandshakeByte)
    (hhead : p.head? ≠ http2Preface.head?) :
    destination p = if couldBeHttp p then .http1 else .rejected := by
  have hhttp2 : ¬ isHTTP2 p = true := by
    rw [isHTTP2_iff]
    exact mt (head?_of_agrees hp (List.cons_ne_nil _ _)) hhead
  rw [destination_of_not_tls htls, if_neg hhttp2]

theorem octetUnits_isPrefix {p s : Bytes} (h : p <+: s) : octetUnits p <+: octetUnits s :=
  h.map _

theorem octetUnits_ne_nil {p : Bytes} (hp : p ≠ []) : octetUnits p ≠ [] :=
  mt List.map_eq_nil_iff.mp hp

/-- A chunk of one octet is sent by the methods that start with it. -/
theorem couldBeHttp_singleton (b : UInt8) :
    couldBeHttp [b] = true ↔ ∃ m ∈ methodPrefixes, m.head? = (octetUnits [b]).head? := by
  rw [couldBeHttp_iff]
  apply exists_congr
  intro m
  apply and_congr_right
  intro hm
  constructor
  · intro hagrees
    exact (head?_of_agrees (List.cons_ne_nil _ _) (ne_nil_methodPrefixes m hm) hagrees).symm
  · intro hhead
    obtain ⟨u, rest, rfl⟩ := List.exists_cons_of_ne_nil (ne_nil_methodPrefixes m hm)
    rw [octetUnits, List.map_singleton, agrees_cons]
    exact ⟨(Option.some.inj hhead).symm, agrees_nil rest⟩

/-- A chunk with no method's first letter is rejected. -/
theorem couldBeHttp_of_head {p : Bytes} (hp : p ≠ [])
    (h : ∀ m ∈ methodPrefixes, m.head? ≠ (octetUnits p).head?) : couldBeHttp p = false := by
  rw [← Bool.not_eq_true, couldBeHttp_iff]
  rintro ⟨m, hm, hagrees⟩
  exact h m hm
    (head?_of_agrees (octetUnits_ne_nil hp) (ne_nil_methodPrefixes m hm) hagrees).symm

/-- The preface starts as a method does. -/
theorem http2Preface_head :
    ∃ m ∈ methodPrefixes, m.head? = (octetUnits http2Preface).head? := by decide

/-- Every chunk of recognisable input is sent where the input is sent. -/
theorem destination_of_isPrefix {s p : Bytes} (h : Recognisable s) (hp : p ≠ []) (hps : p <+: s) :
    destination p = destination s := by
  have hs : s ≠ [] := fun hnil => hp (List.prefix_nil.mp (hnil ▸ hps))
  have hhead : p.head? = s.head? := head?_of_isPrefix hp hps
  by_cases htls : s.head? = some tlsHandshakeByte
  · rw [destination_tls htls, destination_tls (hhead.trans htls)]
  · have hptls : p.head? ≠ some tlsHandshakeByte := fun heq => htls (hhead.symm.trans heq)
    rcases h with h | h | ⟨hne, m, hm, hms⟩ | hnone
    · exact absurd h htls
    · -- the preface: every chunk agrees with it
      have hpagrees : isHTTP2 p = true := (isHTTP2_iff p).mpr
        (Agrees.of_isPrefix (.inr h) hps)
      have hsagrees : isHTTP2 s = true := (isHTTP2_iff s).mpr (.inr h)
      rw [destination_of_not_tls htls, destination_of_not_tls hptls, if_pos hpagrees,
        if_pos hsagrees]
    · -- a method: every chunk agrees with it
      have hphttp : couldBeHttp p = true := (couldBeHttp_iff p).mpr
        ⟨m, hm, Agrees.of_isPrefix (.inr hms) (octetUnits_isPrefix hps)⟩
      have hshttp : couldBeHttp s = true := (couldBeHttp_iff s).mpr ⟨m, hm, .inr hms⟩
      rw [destination_of_head hs htls hne,
        destination_of_head hp hptls (fun heq => hne (hhead.symm.trans heq)), if_pos hphttp,
        if_pos hshttp]
    · -- no method, and so not the preface
      have hunits : (octetUnits p).head? = (octetUnits s).head? :=
        head?_of_isPrefix (octetUnits_ne_nil hp) (octetUnits_isPrefix hps)
      have hne : s.head? ≠ http2Preface.head? := by
        intro heq
        obtain ⟨m, hm, hmhead⟩ := http2Preface_head
        apply hnone m hm
        rw [hmhead, octetUnits, octetUnits, List.head?_map, List.head?_map, heq]
      have hpnone : ∀ m ∈ methodPrefixes, m.head? ≠ (octetUnits p).head? :=
        fun m hm heq => hnone m hm (heq.trans hunits)
      rw [destination_of_head hs htls hne,
        destination_of_head hp hptls (fun heq => hne (hhead.symm.trans heq)),
        couldBeHttp_of_head hp hpnone, couldBeHttp_of_head hs hnone]

/-- Input whose first octet is sent where the whole is sent is recognisable. -/
theorem recognisable_of_first {s : Bytes} {b : UInt8}
    (hlength : http2Preface.length ≤ s.length) (hb : [b] <+: s)
    (h : destination [b] = destination s) : Recognisable s := by
  have hhead : s.head? = some b := (head?_of_isPrefix (List.cons_ne_nil _ _) hb).symm
  have hs : s ≠ [] := fun hnil => by simp [hnil] at hhead
  by_cases htls : s.head? = some tlsHandshakeByte
  · exact .inl htls
  · by_cases hpreface : http2Preface <+: s
    · exact .inr (.inl hpreface)
    · have hshttp2 : ¬ isHTTP2 s = true := by
        rw [isHTTP2_iff]
        exact fun hagrees => hpreface (hagrees.prefix_of_length_le hlength)
      have hbtls : [b].head? ≠ some tlsHandshakeByte := fun heq => htls (hhead.trans heq)
      rw [destination_of_not_tls htls, if_neg hshttp2] at h
      by_cases hne : s.head? = http2Preface.head?
      · -- the first letter of the preface alone passes for HTTP/2
        have hbhttp2 : isHTTP2 [b] = true := by
          rw [isHTTP2_iff]
          rw [hhead] at hne
          obtain ⟨rest, hrest⟩ := List.head?_eq_some_iff.mp hne.symm
          rw [hrest]
          exact .inl (List.prefix_append [b] rest)
        rw [destination_of_not_tls hbtls, if_pos hbhttp2] at h
        split_ifs at h
      · rw [destination_of_head (List.cons_ne_nil _ _) hbtls
          (fun heq => hne (hhead.trans heq))] at h
        by_cases hfirst : ∃ m ∈ methodPrefixes, m.head? = (octetUnits [b]).head?
        · rw [if_pos ((couldBeHttp_singleton b).mpr hfirst)] at h
          have hshttp : couldBeHttp s = true := by
            by_contra hnot
            rw [if_neg hnot] at h
            exact absurd h (by decide)
          obtain ⟨m, hm, hagrees⟩ := (couldBeHttp_iff s).mp hshttp
          refine .inr (.inr (.inl ⟨hne, m, hm, hagrees.prefix_of_length_le ?_⟩))
          calc m.length ≤ longestPrefix := length_methodPrefixes m hm
            _ ≤ http2Preface.length := longestPrefix_le
            _ ≤ s.length := hlength
            _ = (octetUnits s).length := (List.length_map _).symm
        · refine .inr (.inr (.inr fun m hm heq => hfirst ⟨m, hm, heq.trans ?_⟩))
          exact (head?_of_isPrefix (List.cons_ne_nil _ _) (octetUnits_isPrefix hb)).symm

/-- The first chunk decides alike at every cut exactly for recognisable input. -/
theorem sameDestination_iff_recognisable (s : Bytes) (h : http2Preface.length ≤ s.length) :
    SameDestination s ↔ Recognisable s := by
  rw [sameDestination_iff]
  constructor
  · intro hsame
    obtain ⟨b, rest, rfl⟩ : ∃ b rest, s = b :: rest := by
      apply List.exists_cons_of_ne_nil
      rintro rfl
      exact absurd h (by decide)
    have hb : [b] <+: b :: rest := List.prefix_append [b] rest
    apply recognisable_of_first h hb
    exact hsame [b] (b :: rest) (List.cons_ne_nil _ _) (List.cons_ne_nil _ _) hb List.prefix_rfl
  · intro hrecognisable p q hp hq hps hqs
    rw [destination_of_isPrefix hrecognisable hp hps, destination_of_isPrefix hrecognisable hq hqs]

/-- A request line that starts with a method. -/
def getRequest : Bytes :=
  "GET / HTTP/1.1\r\nHost: t\r\n\r\n".toList.map fun c => c.toNat.toUInt8

/-- A request line whose method starts as the preface does. -/
def putRequest : Bytes :=
  "PUT / HTTP/1.1\r\nHost: t\r\n\r\n".toList.map fun c => c.toNat.toUInt8

theorem sameDestination_getRequest : SameDestination getRequest := by
  apply (sameDestination_iff_recognisable getRequest (by decide +kernel)).mpr
  exact .inr (.inr (.inl ⟨by decide, js "GET ", by decide +kernel, by decide +kernel⟩))

/-- The first letter of `PUT` is sent to the HTTP/2 handler, two letters to the HTTP/1 handler. -/
theorem not_sameDestination_putRequest :
    http2Preface.length ≤ putRequest.length ∧ ¬ SameDestination putRequest := by
  refine ⟨by decide +kernel, fun h => ?_⟩
  have heq := h [0x50] [0x50, 0x55] (by decide) (by decide) (by decide +kernel)
    (by decide +kernel) [] []
  exact absurd heq (by decide +kernel)

end TestServer.ProcessConnection
