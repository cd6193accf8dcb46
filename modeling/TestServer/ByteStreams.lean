import TestServer.Endpoints.PathHandlers
import TestServer.Js.Numerals
import TestServer.Library.Keystream

/-!
# Seeded byte streams

`/stream-bytes/{n}` sends the bytes of `/bytes/{n}` for the same seed if its chunks end where
blocks of the hash do, or if there is only one chunk. It sends all of them if the size of its
chunks is a number.

## Implementation notes

SHA-256 is any function to 32 bytes. The random bytes of a call are as many as it asks for.
-/

namespace TestServer.Endpoints

open Js Library ProcessConnection

namespace ByteStreams

/-- All bytes of a body. -/
def sentBytes (library : HttpLibrary) (actions : List ResponseAction) : Bytes :=
  actions.flatMap fun
    | .write chunk => chunk.encode library
    | _ => []

/-- A library whose calls for random bytes give as many as they are asked for. -/
def SizedRandom (library : HttpLibrary) : Prop :=
  ∀ call n, (library.randomBytes call n).length = n

def streamOptions (n : Nat) (query : Query) : HandleOptions :=
  ⟨js "/stream-bytes/" ++ decimal n, query⟩

def bytesOptions (n : Nat) (seed : JsString) : HandleOptions :=
  ⟨js "/bytes/" ++ decimal n, [(js "seed", seed)]⟩

/-- The response ends with exactly `n` bytes, which are those of `/bytes/{n}` for a seed. -/
structure StreamsExactly (library : HttpLibrary) (n : Nat) (query : Query) : Prop where
  ends : ∀ req, (streamBytesEndpoint.handle library req (streamOptions n query)).thrown = none ∧
    (streamBytesEndpoint.handle library req (streamOptions n query)).actions.getLast? =
      some .finish
  length : ∀ req, (sentBytes library
    (streamBytesEndpoint.handle library req (streamOptions n query)).actions).length = n
  seeded : ∀ req seed, queryGet query (js "seed") = some seed →
    sentBytes library (streamBytesEndpoint.handle library req (streamOptions n query)).actions =
      sentBytes library (bytesEndpoint.handle library req (bytesOptions n seed)).actions

/-- The size of the chunks is a number, and with a seed they end where blocks do. -/
def Aligned (n : Nat) (query : Query) : Prop :=
  n = 0 ∨ ∃ chunkSize, parseChunkSize query = some chunkSize ∧
    (queryGet query (js "seed") = none ∨ n ≤ chunkSize ∨ 32 ∣ chunkSize)

variable {library : HttpLibrary} {seed : JsString}

/-- The hash of a seed with a counter. -/
def hashBlock (library : HttpLibrary) (seed : JsString) (counter : Nat) : Bytes :=
  (library.sha256 (seed ++ js ":" ++ decimal counter)).bytes

theorem length_hashBlock (counter : Nat) : (hashBlock library seed counter).length = 32 :=
  (library.sha256 _).length_eq

theorem hashParts_zero (turns counter : Nat) :
    hashParts library seed turns 0 counter = ([], counter) := by
  cases turns with
  | zero => rfl
  | succ turns => exact if_pos rfl

theorem hashParts_succ {turns remaining counter : Nat} (h : remaining ≠ 0) :
    hashParts library seed (turns + 1) remaining counter =
      ((hashBlock library seed counter).take (min remaining 32) ::
        (hashParts library seed turns (remaining - 32) (counter + 1)).1,
        (hashParts library seed turns (remaining - 32) (counter + 1)).2) := by
  rw [hashParts, if_neg h]
  simp only [Digest.length_eq]
  rfl

/-- With enough turns, the parts are the stream of blocks, and the counter counts those that are
begun. -/
theorem hashParts_eq {turns remaining counter : Nat} (h : remaining ≤ turns) :
    (hashParts library seed turns remaining counter).1.flatten =
        keystream (hashBlock library seed) 32 counter remaining ∧
      (hashParts library seed turns remaining counter).2 = counter + (remaining + 31) / 32 := by
  induction turns generalizing remaining counter with
  | zero =>
      have hzero : remaining = 0 := by omega
      rw [hzero, hashParts_zero]
      exact ⟨rfl, rfl⟩
  | succ turns ih =>
      by_cases hzero : remaining = 0
      · rw [hzero, hashParts_zero]
        exact ⟨rfl, rfl⟩
      · have hrest : remaining - 32 ≤ turns := by omega
        obtain ⟨hparts, hcounter⟩ := @ih (remaining - 32) (counter + 1) hrest
        rw [hashParts_succ hzero, List.flatten_cons, hparts, hcounter]
        constructor
        · by_cases hblock : 32 ≤ remaining
          · rw [min_eq_right hblock, List.take_of_length_le (le_of_eq (length_hashBlock counter)),
              ← keystream_step (by decide) (length_hashBlock counter) hblock]
          · have hrest : remaining - 32 = 0 := by omega
            rw [hrest, keystream_zero, List.append_nil, min_eq_left (by omega),
              ← keystream_of_le (length_hashBlock counter) (by omega)]
        · omega

theorem bufferConcat_of_length {parts : List Bytes} {n : Nat} (h : parts.flatten.length = n) :
    bufferConcat parts n = parts.flatten := by
  rw [bufferConcat, List.take_append_of_le_length (le_of_eq h.symm),
    List.take_of_length_le (le_of_eq h)]

/-- The parts of a chunk or of a body, as bytes. -/
theorem bufferConcat_hashParts (n counter : Nat) :
    bufferConcat (hashParts library seed n n counter).1 n =
      keystream (hashBlock library seed) 32 counter n := by
  have hparts : (hashParts library seed n n counter).1.flatten =
      keystream (hashBlock library seed) 32 counter n := (hashParts_eq (le_refl n)).1
  rw [bufferConcat_of_length (by rw [hparts, length_keystream]), hparts]

theorem streamChunks_zero (seed : Option JsString) (chunkSize turns counter : Nat) :
    streamChunks library seed chunkSize turns 0 counter = [] := by
  cases turns with
  | zero => rfl
  | succ turns => exact if_pos rfl

/-- One turn of the loop with a seed. -/
theorem streamChunks_seeded {chunkSize turns remaining counter : Nat} (h : remaining ≠ 0) :
    streamChunks library (some seed) chunkSize (turns + 1) remaining counter =
      keystream (hashBlock library seed) 32 counter (min remaining chunkSize) ::
        streamChunks library (some seed) chunkSize turns (remaining - min remaining chunkSize)
          (counter + (min remaining chunkSize + 31) / 32) := by
  rw [streamChunks, if_neg h]
  simp only [bufferConcat_hashParts, (hashParts_eq (le_refl (min remaining chunkSize))).2]

theorem streamChunks_random {chunkSize turns remaining counter : Nat} (h : remaining ≠ 0) :
    streamChunks library none chunkSize (turns + 1) remaining counter =
      library.randomBytes counter (min remaining chunkSize) ::
        streamChunks library none chunkSize turns (remaining - min remaining chunkSize)
          (counter + 1) := by
  rw [streamChunks, if_neg h]

/-- The chunks have as many bytes as there are to send. -/
theorem length_streamChunks (hrandom : SizedRandom library) (seed : Option JsString)
    {chunkSize turns remaining : Nat} (hpos : 0 < chunkSize) (h : remaining ≤ turns)
    (counter : Nat) :
    (streamChunks library seed chunkSize turns remaining counter).flatten.length = remaining := by
  induction turns generalizing remaining counter with
  | zero =>
      have hzero : remaining = 0 := by omega
      rw [hzero, streamChunks_zero]
      rfl
  | succ turns ih =>
      by_cases hzero : remaining = 0
      · rw [hzero, streamChunks_zero]
        rfl
      · have hrest : remaining - min remaining chunkSize ≤ turns := by omega
        cases seed with
        | none =>
            rw [streamChunks_random hzero, List.flatten_cons, List.length_append, hrandom,
              ih hrest]
            omega
        | some seed =>
            rw [streamChunks_seeded hzero, List.flatten_cons, List.length_append,
              length_keystream, ih hrest]
            omega

/-- Chunks of whole blocks are the stream of blocks. -/
theorem flatten_streamChunks_of_dvd {chunkSize turns remaining : Nat} (hpos : 0 < chunkSize)
    (hdvd : 32 ∣ chunkSize) (h : remaining ≤ turns) (counter : Nat) :
    (streamChunks library (some seed) chunkSize turns remaining counter).flatten =
      keystream (hashBlock library seed) 32 counter remaining := by
  obtain ⟨m, rfl⟩ := hdvd
  induction turns generalizing remaining counter with
  | zero =>
      have hzero : remaining = 0 := by omega
      rw [hzero, streamChunks_zero]
      rfl
  | succ turns ih =>
      by_cases hzero : remaining = 0
      · rw [hzero, streamChunks_zero]
        rfl
      · rw [streamChunks_seeded hzero, List.flatten_cons, ih (by omega)]
        by_cases hlast : remaining ≤ 32 * m
        · rw [min_eq_left hlast, Nat.sub_self, keystream_zero, List.append_nil]
        · have hcount : (32 * m + 31) / 32 = m := by omega
          have hsplit := keystream_add (hashBlock library seed) (by decide : 0 < 32) counter m
            (remaining - 32 * m)
          rw [Nat.mul_comm m 32, Nat.add_sub_cancel' (by omega)] at hsplit
          rw [min_eq_right (by omega), hcount, hsplit]

/-- A single chunk is the stream of blocks. -/
theorem flatten_streamChunks_of_le {chunkSize n : Nat} (h : n ≤ chunkSize) (counter : Nat) :
    (streamChunks library (some seed) chunkSize n n counter).flatten =
      keystream (hashBlock library seed) 32 counter n := by
  cases n with
  | zero => rfl
  | succ n =>
      rw [streamChunks_seeded (Nat.succ_ne_zero n), min_eq_left h, Nat.sub_self,
        streamChunks_zero, List.flatten_cons, List.flatten_nil, List.append_nil]

theorem sentBytes_done (head : ResponseAction) (chunks : List Bytes)
    (hhead : sentBytes library [head] = []) :
    sentBytes library (head :: (chunks.map fun chunk => .write (.bytes chunk)) ++ [.finish]) =
      chunks.flatten := by
  have hchunks : sentBytes library (chunks.map fun chunk => .write (.bytes chunk)) =
      chunks.flatten := by
    induction chunks with
    | nil => rfl
    | cons chunk chunks ih => exact congrArg (chunk ++ ·) ih
  have happend : ∀ a b, sentBytes library (a ++ b) = sentBytes library a ++ sentBytes library b :=
    fun a b => List.flatMap_append
  rw [← List.singleton_append, happend, happend, hhead, hchunks]
  exact List.append_nil _

theorem parseCount_decimal {rule : CountRule} {n : Nat} (hleast : rule.least ≤ n)
    (hmost : n ≤ rule.most) : parseCount rule (rule.lead ++ decimal n) = .ok n := by
  rw [parseCount, List.drop_left, parseInt_decimal]
  simp only [if_neg (not_lt.mpr hleast), if_neg (not_lt.mpr hmost)]

theorem parseCount_bytesRule {n : Nat} (hmax : n ≤ 102400) (lead : JsString) :
    parseCount (bytesRule lead) (lead ++ decimal n) = .ok n :=
  @parseCount_decimal (bytesRule lead) n (Int.natCast_nonneg n)
    (Int.ofNat_le.mpr hmax)

/-- The chunks of a request for `n` bytes. -/
def sentChunks (library : HttpLibrary) (n : Nat) (query : Query) (chunkSize : Nat) : List Bytes :=
  streamChunks library (queryGet query (js "seed")) chunkSize n n 0

/-- The handler sends its chunks if the size of a chunk is a number. -/
theorem handle_of_chunkSize {n chunkSize : Nat} {query : Query} (hmax : n ≤ 102400)
    (h : parseChunkSize query = some chunkSize) (req : HttpCall) :
    (streamBytesEndpoint.handle library req (streamOptions n query)).thrown = none ∧
      (streamBytesEndpoint.handle library req (streamOptions n query)).actions =
        writeHead 200 [binaryType] ::
          ((sentChunks library n query chunkSize).map fun chunk => .write (.bytes chunk)) ++
            [.finish] := by
  rw [streamBytesEndpoint.handle, streamOptions]
  simp only [parseCount_bytesRule hmax, h]
  exact ⟨rfl, rfl⟩

theorem sentBytes_of_chunkSize {n chunkSize : Nat} {query : Query} (hmax : n ≤ 102400)
    (h : parseChunkSize query = some chunkSize) (req : HttpCall) :
    sentBytes library (streamBytesEndpoint.handle library req (streamOptions n query)).actions =
      (sentChunks library n query chunkSize).flatten := by
  rw [(handle_of_chunkSize hmax h req).2, sentBytes_done]
  rfl

theorem sentBytes_bytesEndpoint {n : Nat} (hmax : n ≤ 102400) (seed : JsString) (req : HttpCall) :
    sentBytes library (bytesEndpoint.handle library req (bytesOptions n seed)).actions =
      keystream (hashBlock library seed) 32 0 n := by
  rw [bytesEndpoint.handle, bytesOptions]
  simp only [parseCount_bytesRule hmax]
  have hseed : queryGet [(js "seed", seed)] (js "seed") = some seed := by
    simp [queryGet]
  simp only [hseed]
  change sentBytes library [writeHead 200 _, .write (.bytes _), .finish] = _
  change bufferConcat (hashParts library seed (n : Int).toNat (n : Int).toNat 0).1
    (n : Int).toNat ++ [] = _
  rw [Int.toNat_natCast, bufferConcat_hashParts, List.append_nil]

theorem parseChunkSize_pos {query : Query} {chunkSize : Nat}
    (h : parseChunkSize query = some chunkSize) : 0 < chunkSize := by
  obtain ⟨n, -, rfl⟩ := Option.map_eq_some_iff.mp h
  omega

theorem streamsExactly_of_chunkSize {n chunkSize : Nat} {query : Query} (hmax : n ≤ 102400)
    (hrandom : SizedRandom library) (h : parseChunkSize query = some chunkSize)
    (haligned : n = 0 ∨ queryGet query (js "seed") = none ∨ n ≤ chunkSize ∨ 32 ∣ chunkSize) :
    StreamsExactly library n query where
  ends req := by
    obtain ⟨hthrown, hactions⟩ := @handle_of_chunkSize library n chunkSize query hmax h req
    refine ⟨hthrown, ?_⟩
    rw [hactions]
    exact List.getLast?_concat
  length req := by
    rw [sentBytes_of_chunkSize hmax h]
    exact length_streamChunks hrandom _ (parseChunkSize_pos h) (le_refl n) 0
  seeded req seed hseed := by
    rw [sentBytes_of_chunkSize hmax h, sentBytes_bytesEndpoint hmax, sentChunks, hseed]
    rcases haligned with hzero | hnone | hle | hdvd
    · rw [hzero]
      rfl
    · rw [hnone] at hseed
      cases hseed
    · exact flatten_streamChunks_of_le hle 0
    · exact flatten_streamChunks_of_dvd (parseChunkSize_pos h) hdvd (le_refl n) 0

/-- Where no bytes are asked for, none are sent. -/
theorem streamsExactly_zero (hrandom : SizedRandom library) (query : Query) :
    StreamsExactly library 0 query := by
  cases h : parseChunkSize query with
  | some chunkSize => exact streamsExactly_of_chunkSize (by decide) hrandom h (.inl rfl)
  | none =>
      have hactions : ∀ req, streamBytesEndpoint.handle library req (streamOptions 0 query) =
          .done [writeHead 200 [binaryType], .finish] := by
        intro req
        rw [streamBytesEndpoint.handle, streamOptions]
        simp only [parseCount_bytesRule (by decide : 0 ≤ 102400), h]
        rfl
      constructor
      · intro req
        rw [hactions]
        exact ⟨rfl, rfl⟩
      · intro req
        rw [hactions]
        rfl
      · intro req seed _
        rw [hactions, sentBytes_bytesEndpoint (by decide)]
        rfl

/-- Without a number, nothing is sent for a seed, and random bytes are refused. -/
theorem not_streamsExactly_of_none {n : Nat} {query : Query} (hmax : n ≤ 102400) (hpos : n ≠ 0)
    (h : parseChunkSize query = none) (req : HttpCall) : ¬ StreamsExactly library n query := by
  intro hstreams
  cases hseed : queryGet query (js "seed") with
  | none =>
      have hhandle : streamBytesEndpoint.handle library req (streamOptions n query) =
          ⟨[writeHead 200 [binaryType]], some sizeError⟩ := by
        rw [streamBytesEndpoint.handle, streamOptions]
        simp only [parseCount_bytesRule hmax, h, hseed]
        exact if_pos (by omega)
      have hthrown := (hstreams.ends req).1
      rw [hhandle] at hthrown
      cases hthrown
  | some seed =>
      have hhandle : streamBytesEndpoint.handle library req (streamOptions n query) =
          .done [writeHead 200 [binaryType], .write (.bytes []), .finish] := by
        rw [streamBytesEndpoint.handle, streamOptions]
        simp only [parseCount_bytesRule hmax, h, hseed]
        exact if_pos (by omega)
      have hlength := hstreams.length req
      rw [hhandle] at hlength
      exact hpos hlength.symm

/-- The hash of one counter differs from all others. -/
def markedLibrary (seed : JsString) (counter : Nat) : HttpLibrary :=
  { (default : HttpLibrary) with
    randomBytes := fun _ n => List.replicate n 0
    sha256 := fun text =>
      if text = seed ++ js ":" ++ decimal counter then ⟨List.replicate 32 0, rfl⟩
      else ⟨List.replicate 32 1, rfl⟩ }

theorem sizedRandom_markedLibrary (seed : JsString) (counter : Nat) :
    SizedRandom (markedLibrary seed counter) := fun _ _ => List.length_replicate

theorem hashBlock_marked (seed : JsString) (counter : Nat) :
    hashBlock (markedLibrary seed counter) seed counter = List.replicate 32 0 := by
  rw [hashBlock, markedLibrary]
  simp only [if_true]

theorem hashBlock_other {seed : JsString} {counter other : Nat} (h : other ≠ counter) :
    hashBlock (markedLibrary seed counter) seed other = List.replicate 32 1 := by
  have hne : ¬ seed ++ js ":" ++ decimal other = seed ++ js ":" ++ decimal counter :=
    fun heq => h (decimal_injective (List.append_cancel_left heq))
  rw [hashBlock, markedLibrary]
  simp only [if_neg hne]

/-- A second chunk begins with a new block, though the one before it is not used up. -/
theorem not_streamsExactly_of_chunkSize {n chunkSize : Nat} {query : Query} {seed : JsString}
    (hmax : n ≤ 102400) (h : parseChunkSize query = some chunkSize)
    (hseed : queryGet query (js "seed") = some seed) (hlt : chunkSize < n)
    (hdvd : ¬ 32 ∣ chunkSize) (req : HttpCall) :
    ¬ StreamsExactly (markedLibrary seed (chunkSize / 32)) n query := by
  intro hstreams
  have hsame := congrArg (·[chunkSize]?) (hstreams.seeded req seed hseed)
  have hpos := parseChunkSize_pos h
  obtain ⟨turns, rfl⟩ : ∃ turns, n = turns + 2 := ⟨n - 2, by omega⟩
  simp only [sentBytes_of_chunkSize hmax h, sentBytes_bytesEndpoint hmax, sentChunks, hseed] at hsame
  rw [streamChunks_seeded (by omega), streamChunks_seeded (by omega), min_eq_right (by omega),
    List.flatten_cons, List.getElem?_append_right (by rw [length_keystream]), length_keystream,
    Nat.sub_self, List.flatten_cons, List.getElem?_append_left (by rw [length_keystream]; omega),
    getElem?_keystream (by omega), getElem?_keystream hlt, Nat.zero_add, Nat.zero_div,
    Nat.add_zero, Nat.zero_add, hashBlock_marked, hashBlock_other (by omega)] at hsame
  have hzero : (List.replicate 32 (0 : UInt8)).getD (chunkSize % 32) default = 0 := by
    rw [List.getD_eq_getElem?_getD, List.getElem?_replicate_of_lt (Nat.mod_lt _ (by decide)),
      Option.getD_some]
  rw [hzero] at hsame
  exact absurd hsame (by decide)

/-- The bytes are exact for every hash function if and only if the chunks are aligned. -/
theorem streamsExactly_iff {n : Nat} (hmax : n ≤ 102400) (query : Query) :
    (∀ library, SizedRandom library → StreamsExactly library n query) ↔ Aligned n query := by
  constructor
  · intro hall
    by_cases hzero : n = 0
    · exact .inl hzero
    · right
      cases h : parseChunkSize query with
      | none =>
          have hstreams := hall (markedLibrary [] 0) (sizedRandom_markedLibrary [] 0)
          exact absurd hstreams (not_streamsExactly_of_none hmax hzero h (.get [] []))
      | some chunkSize =>
          refine ⟨chunkSize, rfl, ?_⟩
          cases hseed : queryGet query (js "seed") with
          | none => exact .inl rfl
          | some seed =>
              by_contra hnot
              simp only [reduceCtorEq, false_or, not_or] at hnot
              have hstreams := hall _ (sizedRandom_markedLibrary seed (chunkSize / 32))
              exact not_streamsExactly_of_chunkSize hmax h hseed (by omega) hnot.2 (.get [] [])
                hstreams
  · intro haligned library hrandom
    rcases haligned with hzero | ⟨chunkSize, h, haligned⟩
    · rw [hzero]
      exact streamsExactly_zero hrandom query
    · exact streamsExactly_of_chunkSize hmax hrandom h (.inr haligned)

theorem streamsExactly_iff_blocks :
    parseChunkSize [(js "seed", js "a"), (js "chunk_size", js "64")] = some 64 ∧
      ∀ library, SizedRandom library →
        StreamsExactly library 100 [(js "seed", js "a"), (js "chunk_size", js "64")] := by
  have hsize : parseChunkSize [(js "seed", js "a"), (js "chunk_size", js "64")] = some 64 := by
    decide +kernel
  refine ⟨hsize, (streamsExactly_iff (by decide) _).mpr ?_⟩
  exact .inr ⟨64, hsize, .inr (.inr (by decide))⟩

/-- Three seeded bytes in chunks of two. -/
theorem not_streamsExactly_pairs :
    ¬ ∀ library, SizedRandom library →
      StreamsExactly library 3 [(js "seed", js "a"), (js "chunk_size", js "2")] := by
  intro hall
  have hsize : parseChunkSize [(js "seed", js "a"), (js "chunk_size", js "2")] = some 2 := by
    decide +kernel
  have hseed : queryGet [(js "seed", js "a"), (js "chunk_size", js "2")] (js "seed") =
      some (js "a") := by
    decide +kernel
  exact not_streamsExactly_of_chunkSize (by decide) hsize hseed (by decide) (by decide)
    (.get [] []) (hall _ (sizedRandom_markedLibrary (js "a") 0))

end ByteStreams

end TestServer.Endpoints
