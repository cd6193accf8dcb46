import TestServer.Endpoints.WsParams
import TestServer.Routing
import TestServer.TargetReports

/-!
# Paths behind hops

A path behind `/delay` and `/info` is resolved to the hops and to the chain of the path itself, and
the handlers of the hops leave the final response to the others.
-/

namespace TestServer

open Js Library Endpoints

namespace ChainedAnswers

/-- A hop of a chain, with any segment that its endpoint accepts. -/
inductive ChainHop where
  | delay (segment : JsString) (oneSegment : unit '/' ∉ segment)
      (isNumber : parseFloatIsNumber segment = true)
  | info (segment : JsString) (oneSegment : unit '/' ∉ segment) (code : Int)
      (parsed : parseInt segment = some code)
      (supported : isSupportedInformationalCode code = true)

namespace ChainHop

def written : ChainHop → JsString
  | delay segment _ _ => js "/delay/" ++ segment
  | info segment _ _ _ _ => js "/info/" ++ segment

def endpoint : ChainHop → HandledEndpoint
  | delay _ _ _ => ⟨delayEndpoint, delayEndpoint.handle⟩
  | info _ _ _ _ _ => ⟨informational, informational.handle⟩

end ChainHop

/-- A path behind some hops. -/
def chainPath (hops : List ChainHop) (path : JsString) : JsString :=
  hops.flatMap ChainHop.written ++ path

def handledMatch (path : JsString) (hostnamePrefix : Option JsString) :
    Except Thrown (Option HandledEndpoint) :=
  findMatch (fun endpoint => endpoint.toHttpEndpoint.toChainableEndpoint) path hostnamePrefix
    handledEndpoints

theorem countP_handledEndpoints (path : JsString) (hostnamePrefix : Option JsString) :
    (handledEndpoints.countP fun endpoint =>
      claims endpoint.toHttpEndpoint.toChainableEndpoint path hostnamePrefix) ≤ 1 := by
  have hone := (unambiguous_httpEndpointsIn upperCase_ascii).claimedOnce path hostnamePrefix
  rw [httpEndpointsIn_ascii, ← map_handledEndpoints, List.countP_map] at hone
  exact hone

theorem handledMatch_of_mem {endpoint : HandledEndpoint} {path : JsString}
    {hostnamePrefix : Option JsString} (hmem : endpoint ∈ handledEndpoints)
    (hmatch : endpoint.matchPath path hostnamePrefix = .ok true) :
    handledMatch path hostnamePrefix = .ok (some endpoint) :=
  findMatch_of_claimedOnce (countP_handledEndpoints path hostnamePrefix) hmem hmatch

theorem eq_of_name {endpoint other : HandledEndpoint} (hmem : endpoint ∈ handledEndpoints)
    (hother : other ∈ handledEndpoints) (hname : endpoint.name = other.name) :
    endpoint = other := by
  have hnodup := nodup_httpEndpointsIn asciiUpperCase
  rw [httpEndpointsIn_ascii, ← map_handledEndpoints, List.map_map] at hnodup
  exact List.inj_on_of_nodup_map hnodup hmem hother hname

/-- An entry whose endpoint leaves something to the next one. -/
def Leaves (entry : ChainEntry HandledEndpoint) : Prop :=
  entry.endpoint ∈ handledEndpoints ∧ leavesPath entry.endpoint.toHttpEndpoint entry.path = true

namespace ChainHop

theorem endpoint_mem (hop : ChainHop) : hop.endpoint ∈ handledEndpoints := by
  cases hop with
  | delay _ _ _ => exact List.mem_of_getElem? (i := 11) rfl
  | info _ _ _ _ _ => exact List.mem_of_getElem? (i := 24) rfl

/-- A hop takes its path and leaves the rest. -/
theorem takes (hop : ChainHop) (rest : JsString) (hostnamePrefix : Option JsString) :
    handledMatch (hop.written ++ unit '/' :: rest) hostnamePrefix = .ok (some hop.endpoint) ∧
      hop.endpoint.getRemainingPath (hop.written ++ unit '/' :: rest) =
        some (unit '/' :: rest) := by
  cases hop with
  | delay segment oneSegment isNumber =>
      have hafter : segmentAfter (js "/delay/") (js "/delay/" ++ segment ++ unit '/' :: rest) =
          (segment, some (unit '/' :: rest)) := by
        rw [List.append_assoc]
        exact segmentAfter_append oneSegment rest
      have hstarts : startsWith (js "/delay/" ++ segment ++ unit '/' :: rest) (js "/delay/") =
          true := by
        rw [List.append_assoc]
        exact startsWith_iff.mpr (List.prefix_append _ _)
      constructor
      · apply handledMatch_of_mem (endpoint_mem _)
        simp only [endpoint, written, delayEndpoint, hstarts, hafter, isNumber,
          not_true_eq_false, if_false]
      · exact congrArg Prod.snd hafter
  | info segment oneSegment code parsed supported =>
      have hafter : segmentAfter (js "/info/") (js "/info/" ++ segment ++ unit '/' :: rest) =
          (segment, some (unit '/' :: rest)) := by
        rw [List.append_assoc]
        exact segmentAfter_append oneSegment rest
      have hstarts : startsWith (js "/info/" ++ segment ++ unit '/' :: rest) (js "/info/") =
          true := by
        rw [List.append_assoc]
        exact startsWith_iff.mpr (List.prefix_append _ _)
      constructor
      · apply handledMatch_of_mem (endpoint_mem _)
        simp only [endpoint, written, informational, hstarts, hafter, parsed, supported,
          not_true_eq_false, if_false, if_true]
      · exact congrArg Prod.snd hafter

end ChainHop

theorem exists_chainPath_eq (hops : List ChainHop) (rest : JsString) :
    ∃ tail, chainPath hops (unit '/' :: rest) = unit '/' :: tail := by
  cases hops with
  | nil => exact ⟨rest, rfl⟩
  | cons hop hops =>
      cases hop with
      | delay segment _ _ => exact ⟨_, rfl⟩
      | info segment _ _ _ _ => exact ⟨_, rfl⟩

def resolveHandled (initialPath : JsString) (hostnamePrefix : Option JsString) (turns : Nat)
    (path : Option JsString) : Except Thrown (List (ChainEntry HandledEndpoint)) :=
  resolveFrom (fun endpoint => endpoint.toHttpEndpoint.toChainableEndpoint) handledEndpoints
    initialPath hostnamePrefix turns path

theorem resolveHandled_succ (initialPath : JsString) (hostnamePrefix : Option JsString)
    (turns : Nat) (c : UInt16) (rest : JsString) :
    resolveHandled initialPath hostnamePrefix (turns + 1) (some (c :: rest)) =
      (handledMatch (c :: rest) hostnamePrefix).bind fun found =>
        found.elim (.error (.statusError 404 (noMatchMessage initialPath hostnamePrefix)))
          fun endpoint =>
            (resolveHandled initialPath hostnamePrefix turns
              (endpoint.getRemainingPath (c :: rest))).map (⟨endpoint, c :: rest⟩ :: ·) := by
  rw [resolveHandled, resolveFrom]
  change (handledMatch (c :: rest) hostnamePrefix).bind _ = _
  cases handledMatch (c :: rest) hostnamePrefix with
  | error e => rfl
  | ok found =>
      cases found with
      | none => rfl
      | some endpoint => rfl

theorem resolveHandled_succ_eq_ok_iff {initialPath : JsString} {hostnamePrefix : Option JsString}
    {turns : Nat} {c : UInt16} {rest : JsString} {entries : List (ChainEntry HandledEndpoint)} :
    resolveHandled initialPath hostnamePrefix (turns + 1) (some (c :: rest)) = .ok entries ↔
      ∃ endpoint tail, handledMatch (c :: rest) hostnamePrefix = .ok (some endpoint) ∧
        resolveHandled initialPath hostnamePrefix turns (endpoint.getRemainingPath (c :: rest)) =
          .ok tail ∧ entries = ⟨endpoint, c :: rest⟩ :: tail := by
  rw [resolveHandled_succ]
  constructor
  · intro h
    obtain ⟨found, hfound, h⟩ := bind_ok_iff.mp h
    cases found with
    | none => cases h
    | some endpoint =>
        change (resolveHandled _ _ _ _).map _ = _ at h
        cases htail : resolveHandled initialPath hostnamePrefix turns
            (endpoint.getRemainingPath (c :: rest)) with
        | error e =>
            rw [htail] at h
            cases h
        | ok tail =>
            rw [htail] at h
            cases h
            exact ⟨endpoint, tail, hfound, htail, rfl⟩
  · rintro ⟨endpoint, tail, hfound, htail, rfl⟩
    rw [hfound]
    change (resolveHandled _ _ _ _).map _ = _
    rw [htail]
    rfl

theorem resolveHandled_nothing (initialPath : JsString) (hostnamePrefix : Option JsString)
    (turns : Nat) : resolveHandled initialPath hostnamePrefix turns none = .ok [] := by
  cases turns <;> rfl

theorem leavesPath_of_resolveHandled {initialPath : JsString} {hostnamePrefix : Option JsString}
    {turns : Nat} {endpoint : HandledEndpoint} {path : JsString}
    {tail : List (ChainEntry HandledEndpoint)}
    (h : resolveHandled initialPath hostnamePrefix turns (endpoint.getRemainingPath path) =
      .ok tail) (hne : tail ≠ []) : leavesPath endpoint.toHttpEndpoint path = true := by
  rw [leavesPath]
  match hremaining : endpoint.getRemainingPath path with
  | none =>
      rw [hremaining, resolveHandled_nothing] at h
      cases h
      exact absurd rfl hne
  | some [] =>
      rw [hremaining] at h
      cases turns with
      | zero =>
          cases h
          exact absurd rfl hne
      | succ turns =>
          cases h
          exact absurd rfl hne
  | some (c :: rest) => rfl

/-- The entries of the hops come before those of the path. -/
theorem exists_hopEntries (hops : List ChainHop) (rest : JsString)
    (hostnamePrefix : Option JsString) : ∃ entries : List (ChainEntry HandledEndpoint),
      (∀ entry ∈ entries, Leaves entry) ∧ entries.length = hops.length ∧
      ∀ initialPath turns, resolveHandled initialPath hostnamePrefix (turns + hops.length)
          (some (chainPath hops (unit '/' :: rest))) =
        (resolveHandled initialPath hostnamePrefix turns (some (unit '/' :: rest))).map
          (entries ++ ·) := by
  induction hops with
  | nil =>
      refine ⟨[], List.forall_mem_nil _, rfl, fun initialPath turns => ?_⟩
      exact (congrFun Except.map_id _).symm
  | cons hop hops ih =>
      obtain ⟨entries, hleaves, hlength, hresolve⟩ := ih
      obtain ⟨tail, htail⟩ := exists_chainPath_eq hops rest
      obtain ⟨others, hothers⟩ := exists_chainPath_eq (hop :: hops) rest
      have hpath : chainPath (hop :: hops) (unit '/' :: rest) = hop.written ++ unit '/' :: tail := by
        rw [← htail]
        exact List.append_assoc ..
      obtain ⟨hmatch, hremaining⟩ := hop.takes tail hostnamePrefix
      rw [← hpath] at hmatch hremaining
      refine ⟨⟨hop.endpoint, chainPath (hop :: hops) (unit '/' :: rest)⟩ :: entries, ?_, ?_, ?_⟩
      · apply List.forall_mem_cons.mpr ⟨⟨hop.endpoint_mem, ?_⟩, hleaves⟩
        rw [leavesPath, hremaining]
        rfl
      · rw [List.length_cons, hlength, List.length_cons]
      · intro initialPath turns
        rw [List.length_cons, ← Nat.add_assoc]
        rw [hothers] at hmatch hremaining ⊢
        rw [resolveHandled_succ, hmatch]
        change (resolveHandled _ _ _ (hop.endpoint.getRemainingPath _)).map _ = _
        rw [hremaining, ← htail, hresolve]
        cases resolveHandled initialPath hostnamePrefix turns (some (unit '/' :: rest)) with
        | error e => rfl
        | ok entries => rfl

/-- The same chain, or the same exception, where the loop begins with another path and with more
turns. -/
def SameResolution (path path' : JsString)
    (entries entries' : Except Thrown (List (ChainEntry HandledEndpoint))) : Prop :=
  (∃ chain, entries = .ok chain ∧ entries' = .ok chain) ∨
    ∃ e e', entries = .error e ∧ entries' = .error e' ∧ SameThrown path path' (some e) (some e')

theorem sameResolution_of_turns {path path' : JsString} {hostnamePrefix : Option JsString}
    {turns : Nat} {rest : Option JsString} (more : Nat)
    (hdepth : resolveHandled path hostnamePrefix turns rest ≠
      .error (.statusError 400 (depthMessage path))) :
    SameResolution path path' (resolveHandled path hostnamePrefix turns rest)
      (resolveHandled path' hostnamePrefix (turns + more) rest) := by
  induction turns generalizing rest with
  | zero =>
      match rest with
      | none | some [] =>
          refine Or.inl ⟨[], rfl, ?_⟩
          cases more <;> rfl
      | some (c :: rest) => exact absurd rfl hdepth
  | succ turns ih =>
      match rest with
      | none | some [] =>
          refine Or.inl ⟨[], rfl, ?_⟩
          rw [Nat.add_right_comm]
          rfl
      | some (c :: rest) =>
          rw [resolveHandled_succ] at hdepth
          rw [Nat.add_right_comm, resolveHandled_succ, resolveHandled_succ]
          cases hmatch : handledMatch (c :: rest) hostnamePrefix with
          | error e => exact Or.inr ⟨e, e, rfl, rfl, SameThrown.same _⟩
          | ok found =>
              cases found with
              | none =>
                  refine Or.inr ⟨_, _, rfl, rfl, ?_⟩
                  exact SameThrown.reported 404 (js "Could not match endpoint for ") _
              | some endpoint =>
                  rw [hmatch] at hdepth
                  have htail := @ih (endpoint.getRemainingPath (c :: rest)) (by
                    intro herror
                    apply hdepth
                    change (resolveHandled _ _ _ _).map _ = _
                    rw [herror]
                    rfl)
                  change SameResolution path path' ((resolveHandled _ _ _ _).map _)
                    ((resolveHandled _ _ _ _).map _)
                  rcases htail with ⟨chain, hchain, hchain'⟩ | ⟨e, e', herror, herror', hthrown⟩
                  · rw [hchain, hchain']
                    exact Or.inl ⟨_, rfl, rfl⟩
                  · rw [herror, herror']
                    exact Or.inr ⟨e, e', rfl, rfl, hthrown⟩

theorem chainPath_append (hops others : List ChainHop) (path : JsString) :
    chainPath (hops ++ others) path = chainPath hops (chainPath others path) := by
  rw [chainPath, chainPath, chainPath, List.flatMap_append, List.append_assoc]

theorem handledChain_eq (path : JsString) (hostnamePrefix : Option JsString) :
    handledChain path hostnamePrefix =
      resolveHandled path hostnamePrefix (maxChainDepth + 1) (some path) := rfl

/-- Within the limit, the hops come before the chain of the path, which is the same alone. -/
theorem exists_chains {hops : List ChainHop} {rest : JsString} {hostnamePrefix : Option JsString}
    (hdepth : handledChain (chainPath hops (unit '/' :: rest)) hostnamePrefix ≠
      .error (.statusError 400 (depthMessage (chainPath hops (unit '/' :: rest))))) :
    ∃ before tail, (∀ entry ∈ before, Leaves entry) ∧
      handledChain (chainPath hops (unit '/' :: rest)) hostnamePrefix =
        tail.map (before ++ ·) ∧
      SameResolution (chainPath hops (unit '/' :: rest)) (unit '/' :: rest) tail
        (handledChain (unit '/' :: rest) hostnamePrefix) := by
  by_cases hlength : hops.length ≤ maxChainDepth + 1
  · obtain ⟨before, hleaves, -, hresolve⟩ := exists_hopEntries hops rest hostnamePrefix
    have hchain := hresolve (chainPath hops (unit '/' :: rest)) (maxChainDepth + 1 - hops.length)
    rw [Nat.sub_add_cancel hlength, ← handledChain_eq] at hchain
    refine ⟨before, _, hleaves, hchain, ?_⟩
    rw [handledChain_eq (unit '/' :: rest)]
    have hmore := @sameResolution_of_turns (chainPath hops (unit '/' :: rest)) (unit '/' :: rest)
      hostnamePrefix (maxChainDepth + 1 - hops.length) (some (unit '/' :: rest)) hops.length (by
        intro herror
        apply hdepth
        rw [hchain, herror]
        rfl)
    rw [Nat.sub_add_cancel hlength] at hmore
    exact hmore
  · exfalso
    apply hdepth
    obtain ⟨others, hothers⟩ := exists_chainPath_eq (hops.drop (maxChainDepth + 1)) rest
    obtain ⟨before, -, -, hresolve⟩ :=
      exists_hopEntries (hops.take (maxChainDepth + 1)) others hostnamePrefix
    have hchain := hresolve (chainPath hops (unit '/' :: rest)) 0
    rw [← hothers, ← chainPath_append, List.take_append_drop, List.length_take,
      Nat.min_eq_left (Nat.le_of_not_le hlength), Nat.zero_add, hothers] at hchain
    rw [handledChain_eq, hchain]
    rfl

theorem matchPath_of_findMatch {ε : Type} {chainable : ε → ChainableEndpoint} {table : List ε}
    {path : JsString} {hostnamePrefix : Option JsString} {endpoint : ε}
    (h : findMatch chainable path hostnamePrefix table = .ok (some endpoint)) :
    (chainable endpoint).matchPath path hostnamePrefix = .ok true := by
  induction table with
  | nil => cases h
  | cons e rest ih =>
      obtain ⟨matched, hmatch, h⟩ := bind_ok_iff.mp h
      cases matched with
      | true =>
          cases h
          exact hmatch
      | false => exact ih h

theorem handledMatch_eq_some_iff {endpoint : HandledEndpoint} {path : JsString}
    {hostnamePrefix : Option JsString} :
    handledMatch path hostnamePrefix = .ok (some endpoint) ↔
      endpoint ∈ handledEndpoints ∧ endpoint.matchPath path hostnamePrefix = .ok true := by
  constructor
  · intro h
    exact ⟨mem_of_findMatch h, @matchPath_of_findMatch HandledEndpoint
      (fun endpoint => endpoint.toHttpEndpoint.toChainableEndpoint) _ _ _ _ h⟩
  · rintro ⟨hmem, hmatch⟩
    exact handledMatch_of_mem hmem hmatch

/-- Only the example page is matched by its host. -/
theorem matchPath_eq_matchPath : ∀ endpoint ∈ handledEndpoints, endpoint.name ≠ js "examplePage" →
    ∀ path hostnamePrefix other,
      endpoint.matchPath path hostnamePrefix = endpoint.matchPath path other := by
  simp only [handledEndpoints, List.forall_mem_cons]
  and_intros
  all_goals try exact fun _ _ _ _ => rfl
  · exact fun hname => absurd rfl hname
  · exact List.forall_mem_nil _

/-- An endpoint that leaves a path is one of the two hops. -/
theorem getRemainingPath_eq_none : ∀ endpoint ∈ handledEndpoints,
    endpoint.name ≠ js "delayEndpoint" → endpoint.name ≠ js "informational" →
      ∀ path, endpoint.getRemainingPath path = none := by
  simp only [handledEndpoints, List.forall_mem_cons]
  and_intros
  all_goals try exact fun _ _ _ => rfl
  · exact fun hname => absurd rfl hname
  · exact fun _ hname => absurd rfl hname
  · exact List.forall_mem_nil _

/-- The names of the endpoints whose handlers read the target. -/
def targetReaders : List JsString := [js "etag", js "cacheWithAge", js "streamEndpoint"]

theorem ne_of_mem_targetReaders {name : JsString} (h : name ∈ targetReaders) :
    name ≠ js "examplePage" ∧ name ≠ js "delayEndpoint" ∧ name ≠ js "informational" := by
  have hall : ∀ name ∈ targetReaders, name ≠ js "examplePage" ∧ name ≠ js "delayEndpoint" ∧
      name ≠ js "informational" := by decide
  exact hall name h

/-- Such an endpoint comes last in its chain, and the chain is the same on every host. -/
theorem resolveHandled_of_reader {initialPath : JsString} {hostnamePrefix : Option JsString}
    {turns : Nat} {path : Option JsString} {entries : List (ChainEntry HandledEndpoint)}
    (h : resolveHandled initialPath hostnamePrefix turns path = .ok entries)
    {entry : ChainEntry HandledEndpoint} (hmem : entry ∈ entries)
    (hname : entry.endpoint.name ∈ targetReaders) :
    (∃ before, (∀ entry ∈ before, Leaves entry) ∧ entries = before ++ [entry]) ∧
      ∀ other, resolveHandled initialPath other turns path = .ok entries := by
  obtain ⟨hexample, hdelay, hinfo⟩ := ne_of_mem_targetReaders hname
  induction turns generalizing path entries with
  | zero =>
      match path with
      | none | some [] =>
          cases h
          cases hmem
      | some (c :: rest) => cases h
  | succ turns ih =>
      match path with
      | none | some [] =>
          cases h
          cases hmem
      | some (c :: rest) =>
          obtain ⟨endpoint, tail, hfound, htail, rfl⟩ := resolveHandled_succ_eq_ok_iff.mp h
          obtain ⟨hendpoint, hmatch⟩ := handledMatch_eq_some_iff.mp hfound
          -- No host matters to the other endpoints.
          have hmatched : endpoint.name ≠ js "examplePage" →
              ∀ other, handledMatch (c :: rest) other = .ok (some endpoint) := by
            intro hname other
            rw [matchPath_eq_matchPath _ hendpoint hname _ _ other] at hmatch
            exact handledMatch_of_mem hendpoint hmatch
          cases hmem with
          | head =>
              have hnothing := getRemainingPath_eq_none _ hendpoint hdelay hinfo (c :: rest)
              rw [hnothing, resolveHandled_nothing] at htail
              cases htail
              refine ⟨⟨[], List.forall_mem_nil _, rfl⟩, fun other => ?_⟩
              refine resolveHandled_succ_eq_ok_iff.mpr ⟨_, [], hmatched hexample other, ?_, rfl⟩
              rw [hnothing, resolveHandled_nothing]
          | tail _ hmem =>
              obtain ⟨⟨before, hleaves, heq⟩, hothers⟩ := ih htail hmem
              have hremaining := leavesPath_of_resolveHandled htail (List.ne_nil_of_mem hmem)
              have hhop : endpoint.name ≠ js "examplePage" := by
                intro hname
                rw [leavesPath, getRemainingPath_eq_none _ hendpoint (hname ▸ by decide)
                  (hname ▸ by decide)] at hremaining
                cases hremaining
              constructor
              · refine ⟨⟨endpoint, c :: rest⟩ :: before, ?_, congrArg _ heq⟩
                exact List.forall_mem_cons.mpr ⟨⟨hendpoint, hremaining⟩, hleaves⟩
              · intro other
                exact resolveHandled_succ_eq_ok_iff.mpr
                  ⟨endpoint, tail, hmatched hhop other, hothers other, rfl⟩

theorem not_leaves_of_reader {entry : ChainEntry HandledEndpoint}
    (hname : entry.endpoint.name ∈ targetReaders) : ¬ Leaves entry := by
  rintro ⟨hmem, hleaves⟩
  obtain ⟨-, hdelay, hinfo⟩ := ne_of_mem_targetReaders hname
  rw [leavesPath, getRemainingPath_eq_none _ hmem hdelay hinfo] at hleaves
  cases hleaves

/-- The handlers that leave something send no final response. -/
theorem handle_of_leaves : ∀ endpoint ∈ handledEndpoints, ∀ path,
    leavesPath endpoint.toHttpEndpoint path = true → ∀ library req query,
      finalActions (endpoint.handle library req ⟨path, query⟩).actions = [] ∧
        (endpoint.handle library req ⟨path, query⟩).thrown = none := by
  simp only [handledEndpoints, List.forall_mem_cons]
  and_intros
  all_goals try
    intro path hleaves
    cases hleaves
  · intro path hleaves library req query
    rw [delayEndpoint.handle, if_pos hleaves]
    exact ⟨rfl, rfl⟩
  · intro path hleaves library req query
    rw [informational.handle]
    dsimp only
    rw [if_pos hleaves]
    exact ⟨rfl, rfl⟩

section

variable {library : HttpLibrary} {req req' : HttpCall}

/-- An entry that leaves something changes nothing of the final response. -/
theorem runChain_of_leaves {entries : List (ChainEntry HandledEndpoint)}
    (h : ∀ entry ∈ entries, Leaves entry) (query : Query)
    (rest : List (ChainEntry HandledEndpoint)) :
    finalActions (runChain library req query (entries ++ rest)).actions =
        finalActions (runChain library req query rest).actions ∧
      (runChain library req query (entries ++ rest)).thrown =
        (runChain library req query rest).thrown := by
  induction entries with
  | nil => exact ⟨rfl, rfl⟩
  | cons entry entries ih =>
      obtain ⟨⟨hmem, hleaves⟩, hrest⟩ := List.forall_mem_cons.mp h
      obtain ⟨hactions, hthrown⟩ :=
        handle_of_leaves entry.endpoint hmem entry.path hleaves library req query
      have hperformed := @perform_finalActions library req.httpVersion
        (entry.endpoint.handle library req ⟨entry.path, query⟩).actions
      rw [hactions] at hperformed
      obtain ⟨hnothing, hnone⟩ := Handled.mk.inj hperformed
      rw [List.cons_append, runChain]
      have hhandled : ∃ actions, performHandled library req.httpVersion
          (entry.endpoint.handle library req ⟨entry.path, query⟩) = ⟨actions, none⟩ ∧
            finalActions actions = [] := by
        rw [performHandled, Handled.andThen, ← hnone, hthrown]
        refine ⟨_, rfl, ?_⟩
        rw [List.append_nil]
        exact hnothing.symm
      obtain ⟨actions, hhandled, hinterim⟩ := hhandled
      have hopen : writableEnded actions = false := by
        rw [writableEnded, ← any_finalActions (fun _ _ => rfl), hinterim]
        rfl
      rw [hhandled, Handled.andThen]
      dsimp only
      rw [hopen, if_neg Bool.false_ne_true, finalActions_append, hinterim]
      exact ih hrest

theorem sameHandled_runChain (hlengths : AcceptsLengths library)
    (hsame : SameApartFromTarget req req') {entries : List (ChainEntry HandledEndpoint)}
    (h : ∀ entry ∈ entries, HandlesSame entry.endpoint.handle library req req') (query : Query) :
    SameHandled (targetPath req.url) (targetPath req'.url) (runChain library req query entries)
      (runChain library req' query entries) := by
  induction entries with
  | nil => exact sameHandled_refl _
  | cons entry entries ih =>
      obtain ⟨hentry, hrest⟩ := List.forall_mem_cons.mp h
      have hperformed := @sameHandled_performHandled library req.httpVersion _ _ hlengths _ _
        (hentry ⟨entry.path, query⟩)
      rw [runChain, runChain, ← hsame.httpVersion_eq]
      apply sameHandled_andThen hperformed
      rw [writableEnded_eq hperformed.actions]
      split_ifs
      · exact sameHandled_refl _
      · exact ih hrest

end

end ChainedAnswers

end TestServer
