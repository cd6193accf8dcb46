import TestServer.ProcessConnection.DataCapturingStream

/-!
# Frame capture does not depend on how the bytes arrive

Parsing the bytes after the preface in one piece gives the frames; feeding any
split of the same bytes to the capturing stream routes exactly those frames.
-/

namespace TestServer.ProcessConnection

open Library Library.Framing Library.Runs

/-- A header is read from the bytes that follow its offset. -/
theorem parseFrameHeader_drop {data : Bytes} {offset : Nat} (h : offset ≤ data.length) :
    parseFrameHeader (data.drop offset) 0 = parseFrameHeader data offset := by
  have hlen : 0 + frameHeaderSize > (data.drop offset).length ↔
      offset + frameHeaderSize > data.length := by
    rw [List.length_drop]
    omega
  simp only [parseFrameHeader, byteAt_drop, Nat.add_zero]
  by_cases h' : offset + frameHeaderSize > data.length
  · rw [if_pos (hlen.mpr h'), if_pos h']
  · rw [if_neg (fun hd => h' (hlen.mp hd)), if_neg h']

/-- A complete header does not change when more bytes arrive. -/
theorem parseFrameHeader_append {data : Bytes} {header : ParsedFrameHeader} (rest : Bytes)
    (h : parseFrameHeader data 0 = some header) :
    parseFrameHeader (data ++ rest) 0 = some header := by
  unfold parseFrameHeader at h ⊢
  split at h
  · cases h
  · rename_i hlen
    have hlong : 9 ≤ data.length := by
      simp only [frameHeaderSize] at hlen
      omega
    have hlen' : ¬ 0 + frameHeaderSize > (data ++ rest).length := by
      simp only [frameHeaderSize, List.length_append]
      omega
    rw [if_neg hlen', ← h]
    simp only [Nat.zero_add]
    rw [byteAt_append rest (by omega), byteAt_append rest (by omega),
      byteAt_append rest (by omega), byteAt_append rest (by omega),
      byteAt_append rest (by omega), byteAt_append rest (by omega),
      byteAt_append rest (by omega), byteAt_append rest (by omega),
      byteAt_append rest (by omega)]

theorem parseFrameHeader_eq_none_iff {data : Bytes} :
    parseFrameHeader data 0 = none ↔ data.length < frameHeaderSize := by
  unfold parseFrameHeader
  split
  · rename_i h
    simp only [true_iff]
    omega
  · rename_i h
    simp only [reduceCtorEq, false_iff]
    omega

/-- A header is read from the first nine bytes alone. -/
theorem parseFrameHeader_take {data : Bytes} {header : ParsedFrameHeader} {n : Nat}
    (h : parseFrameHeader data 0 = some header) (hn : frameHeaderSize ≤ n) :
    parseFrameHeader (data.take n) 0 = some header := by
  cases hp : parseFrameHeader (data.take n) 0 with
  | none =>
      have hshort := parseFrameHeader_eq_none_iff.mp hp
      have hnone : parseFrameHeader data 0 = none := by
        rw [parseFrameHeader_eq_none_iff]
        rw [List.length_take] at hshort
        omega
      rw [hnone] at h
      cases h
  | some header' =>
      have happend := parseFrameHeader_append (data.drop n) hp
      rw [List.take_append_drop, h] at happend
      exact happend.symm

/-- HTTP/2 frames as a frame format: the 9-byte header gives the payload length. -/
def http2Format : FrameFormat UInt8 where
  size data := (parseFrameHeader data 0).map fun header => frameHeaderSize + header.length
  size_pos := by
    intro data n h
    obtain ⟨header, _, rfl⟩ := Option.map_eq_some_iff.mp h
    exact Nat.lt_of_lt_of_le (by decide) (Nat.le_add_right frameHeaderSize header.length)
  size_append := by
    intro data n rest h
    obtain ⟨header, hparse, rfl⟩ := Option.map_eq_some_iff.mp h
    simp [parseFrameHeader_append rest hparse]

/-- The stream a frame names, read from its own header. -/
def frameStreamId (frame : Bytes) : Nat :=
  ((parseFrameHeader frame 0).map ParsedFrameHeader.streamId).getD 0

/-- The frames of a byte string parsed in one piece, each with its stream. -/
def parseFrames (data : Bytes) : List (Nat × Bytes) :=
  (http2Format.frames data).1.map fun frame => (frameStreamId frame, frame)

theorem parseFrames_nil : parseFrames [] = [] := rfl

theorem parseFrames_frames (data : Bytes) :
    (parseFrames data).map Prod.snd = (http2Format.frames data).1 := by
  simp [parseFrames, Function.comp_def]

theorem parseFrames_append (data rest : Bytes) :
    parseFrames (data ++ rest) =
      parseFrames data ++ parseFrames ((http2Format.frames data).2 ++ rest) := by
  simp [parseFrames, http2Format.frames_append data rest]

/-- The stream of the first header is the same in every prefix that holds it. -/
theorem frameStreamId_of_leading {data whole : Bytes} (h : data <+: whole)
    (hlen : frameHeaderSize ≤ data.length) : frameStreamId data = frameStreamId whole := by
  obtain ⟨rest, rfl⟩ := h
  cases hp : parseFrameHeader data 0 with
  | none =>
      have hshort := parseFrameHeader_eq_none_iff.mp hp
      omega
  | some header => simp [frameStreamId, hp, parseFrameHeader_append rest hp]

/-- The first frame of some data names the stream of the data's first header. -/
theorem parseFrames_head {data : Bytes} {f : Nat × Bytes} {fs : List (Nat × Bytes)}
    (h : parseFrames data = f :: fs) :
    f.1 = frameStreamId data ∧ frameHeaderSize ≤ data.length := by
  rcases http2Format.frames_cases data with hnil | ⟨n, hsize, _, hle, hcons⟩
  · simp [parseFrames, hnil] at h
  · obtain ⟨header, hparse, hn⟩ := Option.map_eq_some_iff.mp hsize
    have hlong : frameHeaderSize ≤ data.length := by omega
    simp only [parseFrames, hcons, List.map_cons, List.cons.injEq] at h
    rw [← h.1]
    refine ⟨?_, hlong⟩
    exact frameStreamId_of_leading (List.take_prefix n data) (by simp; omega)

/-- A piece of the preface too short to hold it all is not cut into frames: its
first three bytes announce a payload of five megabytes. -/
theorem frames_of_short_preface {data : Bytes} (h : data <+: http2Preface)
    (hlen : data.length < http2Preface.length) : http2Format.frames data = ([], data) := by
  have hall : ∀ k < 24, http2Format.frames (http2Preface.take k) = ([], http2Preface.take k) := by
    decide
  have hdata := List.prefix_iff_eq_take.mp h
  rw [hdata]
  exact hall data.length hlen

namespace DataCapturingStream

/-- Routing a list of frames one after the other. -/
def routeAll (s : DataCapturingStream) (frames : List (Nat × Bytes)) : DataCapturingStream :=
  frames.foldl (fun s f => s.routeFrame f.1 f.2) s

/-- The capture loop routes the frames that the rest of the data consists of,
and stops at the tail that is not yet a frame. -/
theorem routeFrames_eq (fullData : Bytes) (fuel offset : Nat) (s : DataCapturingStream)
    (hfuel : fullData.length - offset ≤ fuel) (hoffset : offset ≤ fullData.length) :
    (routeFrames fullData fuel offset s).2 = s.routeAll (parseFrames (fullData.drop offset)) ∧
      (routeFrames fullData fuel offset s).1 ≤ fullData.length ∧
      fullData.drop (routeFrames fullData fuel offset s).1 =
        (http2Format.frames (fullData.drop offset)).2 := by
  induction fuel generalizing offset s with
  | zero =>
      have hdrop : fullData.drop offset = [] := List.drop_eq_nil_of_le (by omega)
      simp [routeFrames, hdrop, parseFrames, routeAll, hoffset]
  | succ fuel ih =>
      have hparse := parseFrameHeader_drop hoffset
      by_cases hlt : offset < fullData.length
      · cases hh : parseFrameHeader fullData offset with
        | none =>
            have hsize : http2Format.size (fullData.drop offset) = none := by
              simp [http2Format, hparse, hh]
            simp [routeFrames, hlt, hh, parseFrames, http2Format.frames_of_size_none hsize,
              routeAll, hoffset]
        | some header =>
            have hsize : http2Format.size (fullData.drop offset) =
                some (frameHeaderSize + header.length) := by
              simp [http2Format, hparse, hh]
            by_cases hend : offset + frameHeaderSize + header.length > fullData.length
            · have hshort : (fullData.drop offset).length < frameHeaderSize + header.length := by
                rw [List.length_drop]
                omega
              simp [routeFrames, hlt, hh, hend, parseFrames,
                http2Format.frames_of_length_lt hsize hshort, routeAll, hoffset]
            · have hlong : frameHeaderSize + header.length ≤ (fullData.drop offset).length := by
                rw [List.length_drop]
                omega
              have hframe : (fullData.take (offset + frameHeaderSize + header.length)).drop
                  offset = (fullData.drop offset).take (frameHeaderSize + header.length) := by
                rw [List.drop_take]
                congr 1
                omega
              have hid : frameStreamId ((fullData.drop offset).take
                  (frameHeaderSize + header.length)) = header.streamId := by
                simp [frameStreamId, parseFrameHeader_take (hparse.trans hh)
                  (Nat.le_add_right _ _)]
              obtain ⟨hs, hle, hdrop⟩ := ih (offset + frameHeaderSize + header.length)
                (s.routeFrame header.streamId ((fullData.drop offset).take
                  (frameHeaderSize + header.length))) (by simp only [frameHeaderSize]; omega)
                (by omega)
              have hrest : fullData.drop (offset + frameHeaderSize + header.length) =
                  (fullData.drop offset).drop (frameHeaderSize + header.length) := by
                rw [List.drop_drop]
                congr 1
                omega
              rw [hrest] at hs hdrop
              simp only [routeFrames, if_pos hlt, hh, if_neg hend, hframe]
              rw [http2Format.frames_of_le_length hsize hlong]
              refine ⟨?_, hle, hdrop⟩
              rw [hs]
              simp [parseFrames, http2Format.frames_of_le_length hsize hlong, routeAll, hid]
      · have hdrop : fullData.drop offset = [] := List.drop_eq_nil_of_le (by omega)
        simp [routeFrames, hlt, hdrop, parseFrames, routeAll, hoffset]

theorem routeFrame_routed (s : DataCapturingStream) (streamId : Nat) (frame : Bytes) :
    (s.routeFrame streamId frame).routed = s.routed ++ [(streamId, frame)] := by
  unfold routeFrame
  split <;> rfl

/-- Only connection frames are kept for the whole connection. -/
theorem routeFrame_globalFrames (s : DataCapturingStream) (streamId : Nat) (frame : Bytes) :
    (s.routeFrame streamId frame).globalFrames =
      if streamId = 0 then s.globalFrames ++ [frame] else s.globalFrames := by
  unfold routeFrame
  split <;> rfl

/-- The fields that routing never touches. -/
theorem routeFrame_frame (s : DataCapturingStream) (streamId : Nat) (frame : Bytes) :
    (s.routeFrame streamId frame).readingStarted = s.readingStarted ∧
      (s.routeFrame streamId frame).pendingInitialData = s.pendingInitialData ∧
      (s.routeFrame streamId frame).pushed = s.pushed := by
  unfold routeFrame
  split <;> exact ⟨rfl, rfl, rfl⟩

/-- The connection frames among some routed frames. -/
def connectionFrames (frames : List (Nat × Bytes)) : List Bytes :=
  (frames.filter fun f => f.1 = 0).map Prod.snd

theorem routeAll_eq (s : DataCapturingStream) (frames : List (Nat × Bytes)) :
    (s.routeAll frames).routed = s.routed ++ frames ∧
      (s.routeAll frames).globalFrames = s.globalFrames ++ connectionFrames frames ∧
      (s.routeAll frames).readingStarted = s.readingStarted ∧
      (s.routeAll frames).pendingInitialData = s.pendingInitialData ∧
      (s.routeAll frames).pushed = s.pushed := by
  induction frames generalizing s with
  | nil => simp [routeAll, connectionFrames]
  | cons f fs ih =>
      obtain ⟨hrouted, hglobal, hreading, hpending, hpushed⟩ := ih (s.routeFrame f.1 f.2)
      obtain ⟨hr, hp, hq⟩ := routeFrame_frame s f.1 f.2
      have hfold : s.routeAll (f :: fs) = (s.routeFrame f.1 f.2).routeAll fs := rfl
      rw [hfold, hrouted, hglobal, hreading, hpending, hpushed, routeFrame_routed,
        routeFrame_globalFrames, hr, hp, hq]
      refine ⟨by simp, ?_, rfl, rfl, rfl⟩
      by_cases hf : f.1 = 0 <;> simp [connectionFrames, hf]

/-- Where the frames start in the data left over plus a new chunk. -/
def frameStart (s : DataCapturingStream) (data : Bytes) : Nat :=
  if s.startsWithPreface (s.partialData ++ data) then http2Preface.length else 0

theorem frameStart_le (s : DataCapturingStream) (data : Bytes) :
    s.frameStart data ≤ (s.partialData ++ data).length := by
  unfold frameStart
  split
  · rename_i h
    simp only [startsWithPreface, Bool.and_eq_true, decide_eq_true_eq] at h
    exact h.1.2
  · exact Nat.zero_le _

/-- What one chunk does: its complete frames are routed in order and the
incomplete tail is kept. -/
theorem processIncomingData_eq (s : DataCapturingStream) (data : Bytes) :
    let frameData := (s.partialData ++ data).drop (s.frameStart data)
    let s' := s.processIncomingData data
    s'.routed = s.routed ++ parseFrames frameData ∧
      s'.globalFrames = s.globalFrames ++ connectionFrames (parseFrames frameData) ∧
      s'.partialData = (http2Format.frames frameData).2 ∧
      s'.readingStarted = s.readingStarted ∧
      s'.pendingInitialData = s.pendingInitialData ∧ s'.pushed = s.pushed := by
  intro frameData s'
  have hfull : (if s.partialData.length > 0 then s.partialData ++ data else data) =
      s.partialData ++ data := by
    by_cases h : s.partialData.length > 0
    · rw [if_pos h]
    · have hnil : s.partialData = [] := List.eq_nil_of_length_eq_zero (by omega)
      rw [if_neg h, hnil, List.nil_append]
  have hs' : s' = { (routeFrames (s.partialData ++ data) (s.partialData ++ data).length
      (s.frameStart data) s).2 with
        partialData :=
          if (routeFrames (s.partialData ++ data) (s.partialData ++ data).length
              (s.frameStart data) s).1 < (s.partialData ++ data).length then
            (s.partialData ++ data).drop (routeFrames (s.partialData ++ data)
              (s.partialData ++ data).length (s.frameStart data) s).1
          else [] } := by
    simp only [s', processIncomingData, hfull]
    rfl
  obtain ⟨hstate, hle, hdrop⟩ := routeFrames_eq (s.partialData ++ data)
    (s.partialData ++ data).length (s.frameStart data) s (Nat.sub_le _ _) (s.frameStart_le data)
  obtain ⟨hrouted, hglobal, hreading, hpending, hpushed⟩ :=
    routeAll_eq s (parseFrames frameData)
  rw [hs']
  refine ⟨?_, ?_, ?_, ?_, ?_, ?_⟩
  · simpa only [hstate] using hrouted
  · simpa only [hstate] using hglobal
  · dsimp only
    rw [← hdrop]
    split
    · rfl
    · rename_i hge
      exact (List.drop_eq_nil_of_le (by omega)).symm
  · simpa only [hstate] using hreading
  · simpa only [hstate] using hpending
  · simpa only [hstate] using hpushed

/-- The capture state after the bytes `fed`: an incomplete preface is held back
whole, and after it exactly the frames of the bytes behind it have been routed. -/
structure Captured (fed : Bytes) (s : DataCapturingStream) : Prop where
  routed : s.routed = parseFrames (fed.drop http2Preface.length)
  globalFrames : s.globalFrames = connectionFrames s.routed
  partialData : s.partialData =
    if fed.length < http2Preface.length then fed
    else (http2Format.frames (fed.drop http2Preface.length)).2

/-- The preface is never found again behind itself: either a connection frame
was captured, or the bytes held back start with a header that names stream 0,
which the preface does not. -/
theorem startsWithPreface_of_fed {R rest data : Bytes} {s : DataCapturingStream}
    (hR : frameHeaderSize ≤ R.length → frameStreamId R = 0)
    (hlead : rest ++ data <+: R)
    (hglobal : s.globalFrames = connectionFrames (parseFrames rest)) :
    s.startsWithPreface ((http2Format.frames rest).2 ++ data) = false := by
  by_contra hpre
  simp only [startsWithPreface, Bool.not_eq_false, Bool.and_eq_true, beq_iff_eq,
    decide_eq_true_eq, List.length_eq_zero_iff] at hpre
  obtain ⟨⟨hempty, hlong⟩, htake⟩ := hpre
  have hrest : rest <+: R := (List.prefix_append rest data).trans hlead
  -- No frame was cut yet: the first one would have been a connection frame.
  have hnone : parseFrames rest = [] := by
    cases hp : parseFrames rest with
    | nil => rfl
    | cons f fs =>
        obtain ⟨hid, hlen⟩ := parseFrames_head hp
        have hzero : f.1 = 0 := by
          rw [hid, frameStreamId_of_leading hrest hlen, hR (hlen.trans hrest.length_le)]
        simp [hglobal, hp, connectionFrames, hzero] at hempty
  have hframes : http2Format.frames rest = ([], rest) :=
    (http2Format.frames_fst_eq_nil_iff rest).mp (by rw [← parseFrames_frames, hnone]; rfl)
  rw [hframes] at hlong htake
  have hpreface : http2Preface <+: R := by
    rw [← htake]
    exact (List.take_prefix _ _).trans hlead
  have hid : frameStreamId R = frameStreamId http2Preface :=
    (frameStreamId_of_leading hpreface (by decide)).symm
  have hlenR : frameHeaderSize ≤ R.length :=
    (show frameHeaderSize ≤ http2Preface.length by decide).trans hpreface.length_le
  rw [hR hlenR] at hid
  exact absurd hid (by decide)

/-- One more chunk of the same byte string keeps the capture state. -/
theorem Captured.processIncomingData {R fed data : Bytes} {s : DataCapturingStream}
    (hR : frameHeaderSize ≤ R.length → frameStreamId R = 0)
    (hfed : fed ++ data <+: http2Preface ++ R) (h : Captured fed s) :
    Captured (fed ++ data) (s.processIncomingData data) := by
  obtain ⟨hrouted, hglobal, hpart, _⟩ := processIncomingData_eq s data
  by_cases hshort : fed.length < http2Preface.length
  · -- The preface is still incomplete, so nothing was routed so far.
    have hnil : fed.drop http2Preface.length = [] := List.drop_eq_nil_of_le (by omega)
    have hs : s.routed = [] := by rw [h.routed, hnil, parseFrames_nil]
    have hsglobal : s.globalFrames = [] := by rw [h.globalFrames, hs]; rfl
    have hspart : s.partialData = fed := by rw [h.partialData, if_pos hshort]
    by_cases hshort' : (fed ++ data).length < http2Preface.length
    · have hstart : s.frameStart data = 0 := by
        have hnot : s.startsWithPreface (fed ++ data) = false := by
          simp only [startsWithPreface, Bool.and_eq_false_iff, decide_eq_false_iff_not]
          exact Or.inl (Or.inr (by omega))
        simp [frameStart, hspart, hnot]
      have hpre : fed ++ data <+: http2Preface :=
        List.prefix_of_prefix_length_le hfed (List.prefix_append _ R) (by omega)
      have hframes := frames_of_short_preface hpre hshort'
      have hdrop : (fed ++ data).drop http2Preface.length = [] :=
        List.drop_eq_nil_of_le (by omega)
      have hparse : parseFrames (fed ++ data) = [] := by simp [parseFrames, hframes]
      rw [hstart, hspart, List.drop_zero, hparse, List.append_nil] at hrouted
      rw [hstart, hspart, List.drop_zero, hparse] at hglobal
      rw [hstart, hspart, List.drop_zero, hframes] at hpart
      refine ⟨?_, ?_, ?_⟩
      · rw [hrouted, hs, hdrop, parseFrames_nil]
      · rw [hglobal, hrouted, hs, hsglobal]
        rfl
      · rw [hpart, if_pos hshort']
    · have htake : (fed ++ data).take http2Preface.length = http2Preface := by
        have hpre : http2Preface <+: fed ++ data :=
          List.prefix_of_prefix_length_le (List.prefix_append _ R) hfed (by omega)
        exact (List.prefix_iff_eq_take.mp hpre).symm
      have hstart : s.frameStart data = http2Preface.length := by
        have hyes : s.startsWithPreface (fed ++ data) = true := by
          simp only [startsWithPreface, hsglobal, htake]
          simpa using hshort'
        simp [frameStart, hspart, hyes]
      rw [hstart, hspart] at hrouted hglobal hpart
      refine ⟨?_, ?_, ?_⟩
      · rw [hrouted, hs, List.nil_append]
      · rw [hglobal, hrouted, hs, hsglobal]
        rfl
      · rw [hpart, if_neg hshort']
  · -- The preface is behind us: `fed` is the preface and some bytes of `R`.
    obtain ⟨rest, rfl⟩ : ∃ rest, fed = http2Preface ++ rest := by
      have hpre : http2Preface <+: fed :=
        List.prefix_of_prefix_length_le (List.prefix_append _ R)
          ((List.prefix_append fed data).trans hfed) (by omega)
      obtain ⟨rest, hrest⟩ := hpre
      exact ⟨rest, hrest.symm⟩
    have hdrop : (http2Preface ++ rest).drop http2Preface.length = rest := by simp
    have hdrop' : (http2Preface ++ rest ++ data).drop http2Preface.length = rest ++ data := by
      rw [List.append_assoc]
      simp
    have hspart : s.partialData = (http2Format.frames rest).2 := by
      rw [h.partialData, if_neg hshort, hdrop]
    have hsrouted : s.routed = parseFrames rest := by rw [h.routed, hdrop]
    have hlead : rest ++ data <+: R := by
      rw [List.append_assoc] at hfed
      exact (List.prefix_append_right_inj http2Preface).mp hfed
    have hstart : s.frameStart data = 0 := by
      have hnot := startsWithPreface_of_fed (s := s) hR hlead
        (by rw [h.globalFrames, hsrouted])
      simp [frameStart, hspart, hnot]
    rw [hstart, hspart, List.drop_zero] at hrouted hglobal hpart
    refine ⟨?_, ?_, ?_⟩
    · rw [hrouted, hsrouted, hdrop']
      exact (parseFrames_append rest data).symm
    · rw [hglobal, hrouted, h.globalFrames]
      simp [connectionFrames]
    · have hlong : ¬ (http2Preface ++ rest ++ data).length < http2Preface.length := by
        simp only [List.length_append]
        omega
      rw [hpart, if_neg hlong, hdrop', http2Format.frames_append rest data]

/-- The chunks delivered by a list of events. -/
def chunks (events : List Event) : List Bytes :=
  events.filterMap fun event =>
    match event with
    | .chunk data => some data
    | _ => none

/-- The constructor has captured the initial data, and has pushed nothing. -/
theorem construct_captured {R initialData : Bytes}
    (hR : frameHeaderSize ≤ R.length → frameStreamId R = 0)
    (hfed : initialData <+: http2Preface ++ R) :
    Captured initialData (construct initialData) ∧
      (construct initialData).readingStarted = false ∧
      (construct initialData).pendingInitialData = some initialData ∧
      (construct initialData).pushed = [] := by
  let s : DataCapturingStream :=
    { readingStarted := false, globalFrames := [], streams := .empty, partialData := []
      pendingInitialData := none, immediates := [], pushed := [], routed := [] }
  have hs : Captured [] s := ⟨rfl, rfl, rfl⟩
  have hcaptured : Captured initialData (s.processIncomingData initialData) := by
    have hfed' : [] ++ initialData <+: http2Preface ++ R := hfed
    simpa using hs.processIncomingData hR hfed'
  obtain ⟨_, _, _, hreading, _, hpushed⟩ := processIncomingData_eq s initialData
  exact ⟨⟨hcaptured.routed, hcaptured.globalFrames, hcaptured.partialData⟩, hreading, rfl,
    hpushed⟩

/-- What holds of a stream whose reader has started: the capture state, and all
bytes pushed on. -/
structure Feeding (fed : Bytes) (s : DataCapturingStream) : Prop where
  captured : Captured fed s
  readingStarted : s.readingStarted = true
  pushed : s.pushed.flatten = fed

theorem read_feeding {R initialData : Bytes}
    (hR : frameHeaderSize ≤ R.length → frameStreamId R = 0)
    (hfed : initialData <+: http2Preface ++ R) :
    Feeding initialData (construct initialData).read := by
  obtain ⟨hcaptured, hreading, hpending, hpushed⟩ := construct_captured hR hfed
  have hread : (construct initialData).read =
      { construct initialData with
        readingStarted := true
        pushed := [initialData]
        pendingInitialData := none } := by
    simp [read, hreading, hpending, hpushed]
  rw [hread]
  exact ⟨⟨hcaptured.routed, hcaptured.globalFrames, hcaptured.partialData⟩, rfl, by simp⟩

/-- Every event is enabled while feeding; a chunk extends the bytes fed, and the
handlers' calls in between change nothing about the capture. -/
theorem Feeding.step {R fed : Bytes} {s : DataCapturingStream} {event : Event}
    (hR : frameHeaderSize ≤ R.length → frameStreamId R = 0) (h : Feeding fed s)
    (hfed : fed ++ (chunks [event]).flatten <+: http2Preface ++ R) :
    ∃ t, s.step event = some t ∧ Feeding (fed ++ (chunks [event]).flatten) t := by
  obtain ⟨hcaptured, hreading, hpushed⟩ := h
  cases event with
  | read =>
      refine ⟨s, by simp [DataCapturingStream.step, read, hreading], ?_⟩
      simpa [chunks] using ⟨hcaptured, hreading, hpushed⟩
  | chunk data =>
      have hdata : (chunks [Event.chunk data]).flatten = data := by simp [chunks]
      rw [hdata] at hfed ⊢
      have hnext := hcaptured.processIncomingData hR hfed
      obtain ⟨_, _, _, hreading', _, hpushed'⟩ := processIncomingData_eq s data
      refine ⟨{ s.processIncomingData data with
        pushed := (s.processIncomingData data).pushed ++ [data] },
        by simp [DataCapturingStream.step, hreading], ?_⟩
      refine ⟨⟨hnext.routed, hnext.globalFrames, hnext.partialData⟩, ?_, ?_⟩
      · exact hreading'.trans hreading
      · simp [hpushed', hpushed]
  | stopCapturing streamId =>
      refine ⟨_, rfl, ?_⟩
      simpa [chunks] using
        ⟨⟨hcaptured.routed, hcaptured.globalFrames, hcaptured.partialData⟩, hreading, hpushed⟩
  | addCallback streamId callback =>
      refine ⟨_, rfl, ?_⟩
      simpa [chunks] using
        ⟨⟨hcaptured.routed, hcaptured.globalFrames, hcaptured.partialData⟩, hreading, hpushed⟩
  | removeCallback streamId =>
      refine ⟨_, rfl, ?_⟩
      simpa [chunks] using
        ⟨⟨hcaptured.routed, hcaptured.globalFrames, hcaptured.partialData⟩, hreading, hpushed⟩

theorem Feeding.run {R fed : Bytes} {s : DataCapturingStream} {events : List Event}
    (hR : frameHeaderSize ≤ R.length → frameStreamId R = 0) (h : Feeding fed s)
    (hfed : fed ++ (chunks events).flatten <+: http2Preface ++ R) :
    ∃ t, run DataCapturingStream.step s events = some t ∧
      Feeding (fed ++ (chunks events).flatten) t := by
  induction events generalizing fed s with
  | nil => exact ⟨s, rfl, by simpa [chunks] using h⟩
  | cons event events ih =>
      have hsplit : (chunks (event :: events)).flatten =
          (chunks [event]).flatten ++ (chunks events).flatten := by
        rw [← List.flatten_append]
        congr 1
        exact (List.filterMap_append : List.filterMap _ ([event] ++ events) = _)
      rw [hsplit, ← List.append_assoc] at hfed ⊢
      obtain ⟨m, hm, hfeed⟩ := h.step hR ((List.prefix_append _ _).trans hfed)
      obtain ⟨t, ht, hfeed'⟩ := ih hfeed hfed
      exact ⟨t, run_cons_eq_some_iff.mpr ⟨m, hm, ht⟩, hfeed'⟩

/-- Frame capture is lossless and independent of segmentation. Feed any split of
`B = preface ++ R`, with the handlers' calls at any time in between: at every
point, with `fed` the bytes received so far, the routed frames are those of
`fed` parsed in one piece behind the preface, the preface, the routed frames and
the held back bytes make up `fed`, and `fed` has been pushed on in order. -/
theorem frame_capture_lossless (R : Bytes)
    (hR : frameHeaderSize ≤ R.length → frameStreamId R = 0)
    (initialData : Bytes) (events : List Event)
    (hB : initialData ++ (chunks events).flatten <+: http2Preface ++ R) :
    ∃ s, run DataCapturingStream.step (construct initialData) (.read :: events) = some s ∧
      let fed := initialData ++ (chunks events).flatten
      s.routed = parseFrames (fed.drop http2Preface.length) ∧
      (if fed.length < http2Preface.length then s.partialData = fed
        else http2Preface ++ (s.routed.map Prod.snd).flatten ++ s.partialData = fed) ∧
      s.pushed.flatten = fed := by
  have hinitial : initialData <+: http2Preface ++ R := (List.prefix_append _ _).trans hB
  obtain ⟨s, hrun, hcaptured, _, hpushed⟩ := (read_feeding hR hinitial).run hR hB
  refine ⟨s, run_cons_eq_some_iff.mpr ⟨_, rfl, hrun⟩, hcaptured.routed, ?_, hpushed⟩
  have hpart := hcaptured.partialData
  split
  · rename_i hshort
    rw [hpart, if_pos hshort]
  · rename_i hlong
    obtain ⟨rest, hrest⟩ : http2Preface <+: initialData ++ (chunks events).flatten :=
      List.prefix_of_prefix_length_le (List.prefix_append _ R) hB (by omega)
    have hdrop : (initialData ++ (chunks events).flatten).drop http2Preface.length = rest := by
      rw [← hrest]
      simp
    rw [hpart, if_neg hlong, hcaptured.routed, hdrop, parseFrames_frames,
      List.append_assoc, http2Format.frames_flatten rest, hrest]

/-- A client preface cut inside its text, followed by an empty SETTINGS frame. -/
theorem frame_capture_lossless_settings :
    ∃ s, run DataCapturingStream.step (construct (http2Preface.take 10))
        [.read, .chunk (http2Preface.drop 10 ++ [0, 0, 0, 4]), .chunk [0, 0, 0, 0, 0]] = some s ∧
      s.routed = [(0, [0, 0, 0, 4, 0, 0, 0, 0, 0])] := by
  obtain ⟨s, hrun, hrouted, _⟩ := frame_capture_lossless [0, 0, 0, 4, 0, 0, 0, 0, 0] (by decide)
    (http2Preface.take 10)
    [.chunk (http2Preface.drop 10 ++ [0, 0, 0, 4]), .chunk [0, 0, 0, 0, 0]] (by decide)
  exact ⟨s, hrun, hrouted.trans (by decide)⟩

end DataCapturingStream

end TestServer.ProcessConnection
