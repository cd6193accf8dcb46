import TestServer.Library.Agreement
import TestServer.Library.Incremental
import TestServer.ProcessConnection.ConnectionProcessor

/-!
# The PROXY header does not depend on how the bytes arrive

What is detected and parsed at the start of a buffer does not change when more
bytes follow, and no buffer that goes on to a header reaches the limits. So any
reads of the same bytes give the same metadata, and leave the same payload.
-/

namespace TestServer.ProcessConnection

open Js Library

theorem startsWithSignature_iff {data signature : Bytes} :
    startsWithSignature data signature = true ↔ signature <+: data := by
  simp [startsWithSignature]

theorem prefix_take_length_iff {data signature : Bytes} (h : data.length < signature.length) :
    signature.take data.length <+: data ↔ data <+: signature := by
  constructor
  · intro hstart
    have hlength : (signature.take data.length).length = data.length := by
      rw [List.length_take]
      omega
    rw [← hstart.eq_of_length hlength]
    exact List.take_prefix _ _
  · intro hstart
    rw [← List.prefix_iff_eq_take.mp hstart]

/-- Detection compares the start of the buffer with both signatures. -/
theorem detectProxyProtocol_eq (data : Bytes) :
    detectProxyProtocol data =
      if v2Signature <+: data then .v2
      else if data <+: v2Signature then .incomplete
      else if v1Signature <+: data then .v1
      else if data <+: v1Signature then .incomplete
      else .none := by
  have hcut {signature : Bytes} :
      (data.length ≥ signature.length ∧ startsWithSignature data signature = true) ↔
        signature <+: data := by
    rw [startsWithSignature_iff]
    exact ⟨fun h => h.2, fun h => ⟨h.length_le, h⟩⟩
  have hopen {signature : Bytes} (hne : ¬ signature <+: data) :
      (data.length < signature.length ∧
        startsWithSignature data (signature.take data.length) = true) ↔
        data <+: signature := by
    rw [startsWithSignature_iff]
    constructor
    · rintro ⟨hlength, hstart⟩
      exact (prefix_take_length_iff hlength).mp hstart
    · intro hstart
      have hlength : data.length < signature.length := by
        apply Nat.lt_of_le_of_ne hstart.length_le
        intro heq
        exact hne ((hstart.eq_of_length heq) ▸ List.prefix_rfl)
      exact ⟨hlength, (prefix_take_length_iff hlength).mpr hstart⟩
  rw [detectProxyProtocol]
  by_cases hempty : data = []
  · subst hempty
    rfl
  · rw [if_neg (mt List.eq_nil_of_length_eq_zero hempty)]
    by_cases h2 : v2Signature <+: data
    · rw [if_pos (hcut.mpr h2), if_pos h2]
    · rw [if_neg (mt hcut.mp h2), if_neg h2]
      by_cases h2' : data <+: v2Signature
      · rw [if_pos ((hopen h2).mpr h2'), if_pos h2']
      · rw [if_neg (mt (hopen h2).mp h2'), if_neg h2']
        by_cases h1 : v1Signature <+: data
        · rw [if_pos (hcut.mpr h1), if_pos h1]
        · rw [if_neg (mt hcut.mp h1), if_neg h1]
          by_cases h1' : data <+: v1Signature
          · rw [if_pos ((hopen h1).mpr h1'), if_pos h1']
          · rw [if_neg (mt (hopen h1).mp h1'), if_neg h1']

/-- What is detected in a buffer does not change when more bytes follow. -/
theorem detectProxyProtocol_append {data : Bytes} (rest : Bytes)
    (h : detectProxyProtocol data ≠ .incomplete) :
    detectProxyProtocol (data ++ rest) = detectProxyProtocol data := by
  have hlonger {signature : Bytes} (hfirst : ¬ signature <+: data)
      (hsecond : ¬ data <+: signature) :
      ¬ signature <+: data ++ rest ∧ ¬ data ++ rest <+: signature := by
    have hagrees : ¬ Agrees (data ++ rest) signature := by
      intro hagrees
      rcases hagrees.of_isPrefix (List.prefix_append data rest) with hdata | hsignature
      · exact hsecond hdata
      · exact hfirst hsignature
    exact ⟨fun hp => hagrees (.inr hp), fun hp => hagrees (.inl hp)⟩
  rw [detectProxyProtocol_eq] at h
  rw [detectProxyProtocol_eq, detectProxyProtocol_eq data]
  by_cases h2 : v2Signature <+: data
  · rw [if_pos h2, if_pos (h2.trans (List.prefix_append data rest))]
  · by_cases h2' : data <+: v2Signature
    · simp [h2, h2'] at h
    · obtain ⟨hno, hno'⟩ := hlonger h2 h2'
      rw [if_neg h2, if_neg h2'] at h ⊢
      rw [if_neg hno, if_neg hno']
      by_cases h1 : v1Signature <+: data
      · rw [if_pos h1, if_pos (h1.trans (List.prefix_append data rest))]
      · by_cases h1' : data <+: v1Signature
        · simp [h1, h1'] at h
        · obtain ⟨hno, hno'⟩ := hlonger h1 h1'
          rw [if_neg h1, if_neg h1', if_neg hno, if_neg hno']

theorem crlfIndex_eq_some_iff {data : Bytes} {i : Nat} :
    crlfIndex data = some i ↔
      (byteAt data i = 0x0D ∧ byteAt data (i + 1) = 0x0A) ∧
        (i + 2 ≤ data.length ∧ i + 2 ≤ v1MaxLength) ∧
        ∀ j < i, ¬ (byteAt data j = 0x0D ∧ byteAt data (j + 1) = 0x0A) := by
  have hrange : i ∈ List.range (min data.length v1MaxLength - 1) ↔
      i + 2 ≤ data.length ∧ i + 2 ≤ v1MaxLength := by
    rw [List.mem_range]
    omega
  rw [crlfIndex, List.find?_range_eq_some, hrange]
  simp only [Bool.not_eq_true', Bool.eq_false_iff, ne_eq, Bool.and_eq_true, beq_iff_eq]

theorem crlfIndex_eq_none_iff {data : Bytes} :
    crlfIndex data = none ↔
      ∀ i, i + 2 ≤ data.length → i + 2 ≤ v1MaxLength →
        ¬ (byteAt data i = 0x0D ∧ byteAt data (i + 1) = 0x0A) := by
  rw [crlfIndex, List.find?_range_eq_none]
  simp only [Bool.not_eq_true', Bool.eq_false_iff, ne_eq, Bool.and_eq_true, beq_iff_eq]
  constructor
  · intro h i hlength hmax
    exact h i (by omega)
  · intro h i hi
    exact h i (by omega) (by omega)

/-- The line of a header is the same when more bytes follow. -/
theorem crlfIndex_append {data : Bytes} {i : Nat} (rest : Bytes) (h : crlfIndex data = some i) :
    crlfIndex (data ++ rest) = some i := by
  obtain ⟨hcrlf, ⟨hlength, hmax⟩, hfirst⟩ := crlfIndex_eq_some_iff.mp h
  rw [crlfIndex_eq_some_iff, List.length_append]
  refine ⟨?_, ⟨Nat.le_add_right_of_le hlength, hmax⟩, ?_⟩
  · rw [byteAt_append rest (by omega), byteAt_append rest (by omega)]
    exact hcrlf
  · intro j hj
    rw [byteAt_append rest (by omega), byteAt_append rest (by omega)]
    exact hfirst j hj

/-- So is the lack of one, once the buffer has the allowed length. -/
theorem crlfIndex_append_none {data : Bytes} (rest : Bytes) (h : crlfIndex data = none)
    (hlength : v1MaxLength ≤ data.length) : crlfIndex (data ++ rest) = none := by
  rw [crlfIndex_eq_none_iff] at h ⊢
  intro i _ hmax
  rw [byteAt_append rest (by omega), byteAt_append rest (by omega)]
  exact h i (hmax.trans hlength) hmax

theorem parseV1_append {data : Bytes} {result : ProxyProtocolResult} (rest : Bytes)
    (h : parseV1 data = some result) :
    parseV1 (data ++ rest) = some ⟨result.proxy, result.remainingData ++ rest⟩ := by
  rw [parseV1] at h ⊢
  cases hcrlf : crlfIndex data with
  | none =>
      simp only [hcrlf] at h
      split_ifs at h with hlength
      cases h
      rw [crlfIndex_append_none rest hcrlf hlength]
      simp only
      rw [if_pos (by rw [List.length_append]; omega)]
  | some i =>
      simp only [hcrlf, Option.some.injEq] at h
      obtain ⟨-, ⟨hlength, -⟩, -⟩ := crlfIndex_eq_some_iff.mp hcrlf
      subst h
      rw [crlfIndex_append rest hcrlf]
      simp only
      rw [List.take_append_of_le_length (by omega), List.drop_append_of_le_length hlength]

theorem word16_append {data : Bytes} {offset : Nat} (rest : Bytes)
    (h : offset + 2 ≤ data.length) : word16 (data ++ rest) offset = word16 data offset := by
  rw [word16, byteAt_append rest (by omega), byteAt_append rest (by omega), word16]

theorem parseV2_append {data : Bytes} {result : ProxyProtocolResult} (rest : Bytes)
    (h : parseV2 data = some result) :
    parseV2 (data ++ rest) = some ⟨result.proxy, result.remainingData ++ rest⟩ := by
  simp only [parseV2] at h ⊢
  split_ifs at h with hlength hversion haddr htotal
  cases h
  have hmin : 16 ≤ data.length := Nat.not_lt.mp hlength
  rw [byteAt_append rest (by omega), word16_append rest (by omega), if_neg hversion, if_neg haddr,
    if_neg (by rw [List.length_append]; omega), if_neg (by rw [List.length_append]; omega),
    List.take_append_of_le_length (Nat.not_lt.mp htotal),
    List.drop_append_of_le_length (Nat.not_lt.mp htotal)]

theorem parseProxyProtocol_append {data : Bytes} {result : ProxyProtocolResult} (rest : Bytes)
    (h : parseProxyProtocol data = some result) :
    parseProxyProtocol (data ++ rest) = some ⟨result.proxy, result.remainingData ++ rest⟩ := by
  rw [parseProxyProtocol] at h ⊢
  cases htype : detectProxyProtocol data with
  | incomplete =>
      rw [htype] at h
      cases h
  | none =>
      rw [htype] at h
      rw [detectProxyProtocol_append rest (by simp [htype]), htype]
      cases h
      rfl
  | v1 =>
      rw [htype] at h
      rw [detectProxyProtocol_append rest (by simp [htype]), htype]
      exact parseV1_append rest h
  | v2 =>
      rw [htype] at h
      rw [detectProxyProtocol_append rest (by simp [htype]), htype]
      exact parseV2_append rest h

/-- The parser of PROXY headers, with what the header tells as its result. -/
def proxyParser : IncrementalParser UInt8 (Option ProxyProtocolData) where
  parse data := (parseProxyProtocol data).map fun result => (result.proxy, result.remainingData)
  parse_append := by
    intro data proxy remaining rest h
    obtain ⟨result, hparse, hresult⟩ := Option.map_eq_some_iff.mp h
    cases hresult
    rw [parseProxyProtocol_append rest hparse]
    rfl

theorem length_le_of_incomplete {data : Bytes} (h : detectProxyProtocol data = .incomplete) :
    data.length ≤ 12 := by
  rw [detectProxyProtocol_eq] at h
  split_ifs at h with h2 h2' h1 h1'
  · exact h2'.length_le
  · exact Nat.le_trans h1'.length_le (by decide)

theorem length_lt_of_parseV1 {data : Bytes} (h : parseV1 data = none) :
    data.length < v1MaxLength := by
  rw [parseV1] at h
  cases hcrlf : crlfIndex data with
  | none =>
      simp only [hcrlf] at h
      split_ifs at h with hlength
      exact Nat.not_le.mp hlength
  | some i =>
      rw [hcrlf] at h
      cases h

/-- A buffer that lacks a part of its header is shorter than the longest header. -/
theorem length_lt_of_parseV2 {data rest : Bytes} {result : ProxyProtocolResult}
    (hnone : parseV2 data = none) (h : parseV2 (data ++ rest) = some result) :
    data.length < v2MinHeader + v2MaxAddrLength := by
  apply Nat.lt_of_not_le
  intro hlong
  simp only [v2MinHeader, v2MaxAddrLength] at hlong
  simp only [parseV2] at h hnone
  rw [byteAt_append rest (by omega), word16_append rest (by omega)] at h
  split_ifs at h with hlength hversion haddr htotal
  have htotal' : ¬ data.length < v2MinHeader + word16 data 14 := by
    simp only [v2MinHeader, v2MaxAddrLength] at haddr ⊢
    omega
  rw [if_neg (by simp only [v2MinHeader]; omega), if_neg hversion, if_neg haddr,
    if_neg htotal'] at hnone
  cases hnone

/-- A buffer that goes on to a header or to a payload is kept, and waits for more. -/
theorem decideHeader_wait {data rest : Bytes} {result : ProxyProtocolResult}
    (hnone : parseProxyProtocol data = none)
    (h : parseProxyProtocol (data ++ rest) = some result) : decideHeader data = .wait := by
  rw [decideHeader]
  by_cases hempty : data.length = 0
  · rw [if_pos hempty]
  · rw [if_neg hempty]
    cases htype : detectProxyProtocol data with
    | incomplete =>
        have hlength := length_le_of_incomplete htype
        simp only
        rw [if_neg (by omega)]
    | none =>
        rw [parseProxyProtocol, htype] at hnone
        cases hnone
    | v1 =>
        simp only [hnone]
        rw [parseProxyProtocol, htype] at hnone
        have hlength := length_lt_of_parseV1 hnone
        simp only [v1MaxLength] at hlength
        rw [if_neg (by omega)]
    | v2 =>
        simp only [hnone]
        rw [parseProxyProtocol, detectProxyProtocol_append rest (by simp [htype]), htype] at h
        rw [parseProxyProtocol, htype] at hnone
        have hlength := length_lt_of_parseV2 hnone h
        simp only [v2MinHeader, v2MaxAddrLength] at hlength
        rw [if_neg (by omega)]

theorem decideHeader_process {data : Bytes} {result : ProxyProtocolResult}
    (h : parseProxyProtocol data = some result) :
    decideHeader data = .process (attachedProxy result) result.remainingData := by
  have hne : data.length ≠ 0 := by
    intro hempty
    rw [List.eq_nil_of_length_eq_zero hempty] at h
    cases h
  rw [decideHeader, if_neg hne]
  cases htype : detectProxyProtocol data with
  | incomplete =>
      rw [parseProxyProtocol, htype] at h
      cases h
  | none =>
      rw [parseProxyProtocol, htype] at h
      cases h
      rfl
  | v1 => simp only [h]
  | v2 => simp only [h]

/-- Under the limits the loop is the incremental parser. -/
theorem parseProxyProtocolHeader_eq {buffered data : Bytes} {reads unread : List (Option Bytes)}
    {proxy : Option ProxyProtocolData} {result : ProxyProtocolResult}
    (hwhole : parseProxyProtocol (buffered ++ received reads) = some result)
    (hfeed : proxyParser.feed buffered reads = some (proxy, data, unread)) :
    parseProxyProtocolHeader buffered reads =
      .processing (attachedProxy ⟨proxy, data⟩) data unread := by
  induction reads generalizing buffered with
  | nil => cases hfeed
  | cons chunk reads ih =>
      have hwhole' : parseProxyProtocol (buffered ++ chunk.getD [] ++ received reads) =
          some result := by
        rw [List.append_assoc]
        exact hwhole
      simp only [IncrementalParser.feed, proxyParser] at hfeed
      rw [parseProxyProtocolHeader]
      cases hparse : parseProxyProtocol (buffered ++ chunk.getD []) with
      | none =>
          rw [hparse] at hfeed
          simp only [decideHeader_wait hparse hwhole']
          exact ih hwhole' hfeed
      | some found =>
          rw [hparse] at hfeed
          simp only [decideHeader_process hparse]
          cases hfeed
          rfl

/-- The header that a stream starts with: a line of version 1 up to its end, when it ends within
the allowed length, or the bytes of version 2 up to the length they name. -/
def recognisedHeader (stream : Bytes) : Bytes :=
  if v2Signature <+: stream then stream.take (v2MinHeader + word16 stream 14)
  else if v1Signature <+: stream then
    match crlfIndex stream with
    | some i => stream.take (i + 2)
    | none => []
  else []

theorem recognisedHeader_append {stream : Bytes} {result : ProxyProtocolResult}
    (h : parseProxyProtocol stream = some result) :
    recognisedHeader stream ++ result.remainingData = stream := by
  rw [parseProxyProtocol, detectProxyProtocol_eq] at h
  rw [recognisedHeader]
  split_ifs at h ⊢ with h2 h2' h1 h1'
  · simp only [parseV2] at h
    split_ifs at h
    cases h
    exact List.take_append_drop _ _
  · simp only [parseV1] at h
    cases hcrlf : crlfIndex stream with
    | none =>
        simp only [hcrlf] at h
        split_ifs at h
        cases h
        rfl
    | some i =>
        simp only [hcrlf, Option.some.injEq] at h
        subst h
        exact List.take_append_drop _ _
  · cases h
    rfl

/-- Whatever the reads of a stream whose header can be parsed, its metadata is attached, and what
is handed on, with what is not yet read, follows the header. -/
theorem parseProxyProtocolHeader_of_parse {stream : Bytes} {result : ProxyProtocolResult}
    {reads : List (Option Bytes)} (hparse : parseProxyProtocol stream = some result)
    (hreads : received reads = stream) :
    ∃ data unread, parseProxyProtocolHeader [] reads =
        .processing (attachedProxy result) data unread ∧
      data ++ received unread = result.remainingData := by
  have hwhole : parseProxyProtocol ([] ++ received reads) = some result := by
    rw [List.nil_append, hreads]
    exact hparse
  have hparsed : proxyParser.parse ([] ++ received reads) =
      some (result.proxy, result.remainingData) := by
    simp only [proxyParser, hwhole, Option.map_some]
  have hnil : proxyParser.parse [] = none := rfl
  obtain ⟨data, unread, hfed, hrest⟩ := proxyParser.feed_of_parse hnil hparsed
  exact ⟨data, unread, parseProxyProtocolHeader_eq hwhole hfed, hrest⟩

/-- Whatever the reads of a stream whose header can be parsed, the connection is not destroyed,
the metadata is that of the stream read at once, and what is handed on, with what is not yet
read, is the stream without its header. -/
theorem proxyHeader_any_reads {stream : Bytes} {reads : List (Option Bytes)}
    (hparse : (parseProxyProtocol stream).isSome) (hreads : received reads = stream) :
    ∃ proxy data atOnce unread,
      parseProxyProtocolHeader [] reads = .processing proxy data unread ∧
        parseProxyProtocolHeader [] [some stream] = .processing proxy atOnce [] ∧
        recognisedHeader stream ++ atOnce = stream ∧
        recognisedHeader stream ++ (data ++ received unread) = stream := by
  obtain ⟨result, hresult⟩ := Option.isSome_iff_exists.mp hparse
  obtain ⟨data, unread, hprocessing, hrest⟩ := parseProxyProtocolHeader_of_parse hresult hreads
  have hatOnce : parseProxyProtocolHeader [] [some stream] =
      .processing (attachedProxy result) result.remainingData [] := by
    simp only [parseProxyProtocolHeader, List.nil_append, Option.getD_some,
      decideHeader_process hresult]
  refine ⟨attachedProxy result, data, result.remainingData, unread, ?_, hatOnce, ?_, ?_⟩
  · exact hprocessing
  · exact recognisedHeader_append hresult
  · rw [hrest]
    exact recognisedHeader_append hresult

/-- A header of version 1 whose line is cut in the middle of its end, with a spurious read. -/
def cutReads : List (Option Bytes) :=
  [none, some v1Signature, some [0x55, 0x0D], none, some [0x0A, 0x47], some [0x45, 0x54]]

theorem proxyHeader_any_reads_cut :
    ∃ proxy data atOnce unread,
      parseProxyProtocolHeader [] cutReads = .processing proxy data unread ∧
        parseProxyProtocolHeader [] [some (received cutReads)] = .processing proxy atOnce [] ∧
        recognisedHeader (received cutReads) ++ atOnce = received cutReads ∧
        recognisedHeader (received cutReads) ++ (data ++ received unread) = received cutReads :=
  proxyHeader_any_reads (by decide) rfl

end TestServer.ProcessConnection
