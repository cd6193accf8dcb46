import TestServer.HttpHandler

/-!
# The bound on chains

What `resolveEndpointChain` gives for any table of endpoints, also for one whose paths never get
shorter. The loop goes on while there are no more than `MAX_CHAIN_DEPTH` entries, so it takes one
more endpoint than that.

## Implementation notes

The loop is told apart from its bound: a resolution within any depth is what the loop gives with
that many turns.
-/

namespace TestServer

open Js Library Endpoints

section

variable {ε : Type} (chainable : ε → ChainableEndpoint) (endpoints : List ε)
  (hostnamePrefix : Option JsString)

/-- An endpoint that matches a path when none before it does. -/
def IsFirstMatch (path : JsString) (endpoint : ε) : Prop :=
  ∃ before after, endpoints = before ++ endpoint :: after ∧
    (∀ e ∈ before, (chainable e).matchPath path hostnamePrefix = .ok false) ∧
    (chainable endpoint).matchPath path hostnamePrefix = .ok true

def IsUnmatched (path : JsString) : Prop :=
  ∀ e ∈ endpoints, (chainable e).matchPath path hostnamePrefix = .ok false

/-- An endpoint throws when it is asked about a path, and none before it matches. -/
def MatchThrows (path : JsString) (thrown : Thrown) : Prop :=
  ∃ before endpoint after, endpoints = before ++ endpoint :: after ∧
    (∀ e ∈ before, (chainable e).matchPath path hostnamePrefix = .ok false) ∧
    (chainable endpoint).matchPath path hostnamePrefix = .error thrown

/-- The entries that lead from a path to the one that is left: each has the first match of its
path, and the next path is what that endpoint leaves. -/
inductive Links : Option JsString → List (ChainEntry ε) → Option JsString → Prop
  | nil (path : Option JsString) : Links path [] path
  | cons {c : UInt16} {rest : JsString} {endpoint : ε} {entries : List (ChainEntry ε)}
      {left : Option JsString}
      (first : IsFirstMatch chainable endpoints hostnamePrefix (c :: rest) endpoint)
      (others : Links ((chainable endpoint).getRemainingPath (c :: rest)) entries left) :
      Links (some (c :: rest)) (⟨endpoint, c :: rest⟩ :: entries) left

/-- Nothing is left to match. -/
def IsSpent (path : Option JsString) : Prop := path = none ∨ path = some []

variable (initialPath : JsString)

/-- What is thrown where no more entries than a depth are allowed. -/
inductive FailsWithin (depth : Nat) (path : Option JsString) : Thrown → Prop
  | tooDeep {entries : List (ChainEntry ε)} {c : UInt16} {rest : JsString}
      (links : Links chainable endpoints hostnamePrefix path entries (some (c :: rest)))
      (length : entries.length = depth) :
      FailsWithin depth path (.statusError 400 (depthMessage initialPath))
  | unmatched {entries : List (ChainEntry ε)} {c : UInt16} {rest : JsString}
      (links : Links chainable endpoints hostnamePrefix path entries (some (c :: rest)))
      (length : entries.length < depth)
      (none : IsUnmatched chainable endpoints hostnamePrefix (c :: rest)) :
      FailsWithin depth path (.statusError 404 (noMatchMessage initialPath hostnamePrefix))
  | thrown {entries : List (ChainEntry ε)} {c : UInt16} {rest : JsString} {e : Thrown}
      (links : Links chainable endpoints hostnamePrefix path entries (some (c :: rest)))
      (length : entries.length < depth)
      (throws : MatchThrows chainable endpoints hostnamePrefix (c :: rest) e) :
      FailsWithin depth path e

/-- Entries are returned exactly if they are a complete chain of no more than a depth, and an
error is thrown exactly if there is a reason for it. -/
structure ResolvesWithin (depth : Nat) (path : Option JsString)
    (result : Except Thrown (List (ChainEntry ε))) : Prop where
  returned : ∀ entries, result = .ok entries ↔
    ∃ left, Links chainable endpoints hostnamePrefix path entries left ∧ IsSpent left ∧
      entries.length ≤ depth
  thrown : ∀ e, result = .error e ↔
    FailsWithin chainable endpoints hostnamePrefix initialPath depth path e

end

section

variable {ε : Type} {chainable : ε → ChainableEndpoint} {endpoints : List ε}
  {hostnamePrefix : Option JsString} {path initialPath : JsString}

theorem findMatch_cons_of_false {endpoint : ε} {table : List ε}
    (h : (chainable endpoint).matchPath path hostnamePrefix = .ok false) :
    findMatch chainable path hostnamePrefix (endpoint :: table) =
      findMatch chainable path hostnamePrefix table := by
  rw [findMatch, h]
  rfl

theorem findMatch_append {before table : List ε}
    (h : ∀ e ∈ before, (chainable e).matchPath path hostnamePrefix = .ok false) :
    findMatch chainable path hostnamePrefix (before ++ table) =
      findMatch chainable path hostnamePrefix table := by
  induction before with
  | nil => rfl
  | cons endpoint rest ih =>
      rw [List.cons_append, findMatch_cons_of_false (h endpoint List.mem_cons_self)]
      exact ih fun e he => h e (List.mem_cons_of_mem endpoint he)

/-- Some endpoint is the first that does not say that it does not match, or there is none. -/
theorem exists_first (chainable : ε → ChainableEndpoint) (endpoints : List ε)
    (hostnamePrefix : Option JsString) (path : JsString) :
    IsUnmatched chainable endpoints hostnamePrefix path ∨
      ∃ before endpoint after, endpoints = before ++ endpoint :: after ∧
        (∀ e ∈ before, (chainable e).matchPath path hostnamePrefix = .ok false) ∧
        (chainable endpoint).matchPath path hostnamePrefix ≠ .ok false := by
  induction endpoints with
  | nil =>
      left
      intro e he
      cases he
  | cons endpoint rest ih =>
      by_cases hfalse : (chainable endpoint).matchPath path hostnamePrefix = .ok false
      · rcases ih with hnone | ⟨before, found, after, rfl, hbefore, hfound⟩
        · left
          intro e he
          rcases List.mem_cons.mp he with rfl | he
          · exact hfalse
          · exact hnone e he
        · right
          refine ⟨endpoint :: before, found, after, rfl, ?_, hfound⟩
          intro e he
          rcases List.mem_cons.mp he with rfl | he
          · exact hfalse
          · exact hbefore e he
      · right
        exact ⟨[], endpoint, rest, rfl, by simp, hfalse⟩

theorem findMatch_of_isUnmatched (h : IsUnmatched chainable endpoints hostnamePrefix path) :
    findMatch chainable path hostnamePrefix endpoints = .ok none := by
  have happend : findMatch chainable path hostnamePrefix (endpoints ++ []) =
      findMatch chainable path hostnamePrefix [] := findMatch_append h
  rwa [List.append_nil] at happend

theorem findMatch_of_isFirstMatch {endpoint : ε}
    (h : IsFirstMatch chainable endpoints hostnamePrefix path endpoint) :
    findMatch chainable path hostnamePrefix endpoints = .ok (some endpoint) := by
  obtain ⟨before, after, rfl, hbefore, hmatch⟩ := h
  rw [findMatch_append hbefore, findMatch, hmatch]
  rfl

theorem findMatch_of_matchThrows {e : Thrown}
    (h : MatchThrows chainable endpoints hostnamePrefix path e) :
    findMatch chainable path hostnamePrefix endpoints = .error e := by
  obtain ⟨before, endpoint, after, rfl, hbefore, hthrows⟩ := h
  rw [findMatch_append hbefore, findMatch, hthrows]
  rfl

/-- What the search for an endpoint says about the table. -/
theorem findMatch_spec (chainable : ε → ChainableEndpoint) (endpoints : List ε)
    (hostnamePrefix : Option JsString) (path : JsString) :
    (∃ endpoint, IsFirstMatch chainable endpoints hostnamePrefix path endpoint) ∨
      IsUnmatched chainable endpoints hostnamePrefix path ∨
      ∃ e, MatchThrows chainable endpoints hostnamePrefix path e := by
  rcases exists_first chainable endpoints hostnamePrefix path with
    hnone | ⟨before, endpoint, after, heq, hbefore, hfirst⟩
  · exact .inr (.inl hnone)
  · cases hmatch : (chainable endpoint).matchPath path hostnamePrefix with
    | error e => exact .inr (.inr ⟨e, before, endpoint, after, heq, hbefore, hmatch⟩)
    | ok matched =>
        cases matched with
        | false => exact absurd hmatch hfirst
        | true => exact .inl ⟨endpoint, before, after, heq, hbefore, hmatch⟩

theorem links_of_isSpent {start left : Option JsString} {entries : List (ChainEntry ε)}
    (hspent : IsSpent start) (h : Links chainable endpoints hostnamePrefix start entries left) :
    entries = [] ∧ left = start := by
  cases h with
  | nil => exact ⟨rfl, rfl⟩
  | cons first others => rcases hspent with h | h <;> cases h

/-- A chain from a path that is matched goes on from what the endpoint leaves. -/
theorem links_iff_of_isFirstMatch {c : UInt16} {rest : JsString} {endpoint : ε}
    (hfirst : IsFirstMatch chainable endpoints hostnamePrefix (c :: rest) endpoint)
    {entries : List (ChainEntry ε)} {left : Option JsString} :
    Links chainable endpoints hostnamePrefix (some (c :: rest)) entries left ↔
      (entries = [] ∧ left = some (c :: rest)) ∨
        ∃ others, entries = ⟨endpoint, c :: rest⟩ :: others ∧
          Links chainable endpoints hostnamePrefix
            ((chainable endpoint).getRemainingPath (c :: rest)) others left := by
  constructor
  · intro h
    cases h with
    | nil => exact .inl ⟨rfl, rfl⟩
    | cons first others =>
        have hsame := (findMatch_of_isFirstMatch first).symm.trans
          (findMatch_of_isFirstMatch hfirst)
        cases hsame
        exact .inr ⟨_, rfl, others⟩
  · rintro (⟨rfl, rfl⟩ | ⟨others, rfl, hothers⟩)
    · exact .nil _
    · exact .cons hfirst hothers

/-- A chain ends where the path is not matched. -/
theorem links_of_not_isFirstMatch {c : UInt16} {rest : JsString}
    (hnone : ∀ endpoint, findMatch chainable (c :: rest) hostnamePrefix endpoints ≠
      .ok (some endpoint))
    {entries : List (ChainEntry ε)} {left : Option JsString}
    (h : Links chainable endpoints hostnamePrefix (some (c :: rest)) entries left) :
    entries = [] ∧ left = some (c :: rest) := by
  cases h with
  | nil => exact ⟨rfl, rfl⟩
  | cons first others => exact absurd (findMatch_of_isFirstMatch first) (hnone _)

theorem not_failsWithin_of_isSpent {depth : Nat} {start : Option JsString} (hspent : IsSpent start)
    (e : Thrown) :
    ¬ FailsWithin chainable endpoints hostnamePrefix initialPath depth start e := by
  have habsurd : ∀ entries c rest,
      ¬ Links chainable endpoints hostnamePrefix start entries (some (c :: rest)) := by
    intro entries c rest hlinks
    obtain ⟨-, hleft⟩ := links_of_isSpent hspent hlinks
    rw [← hleft] at hspent
    rcases hspent with h | h <;> cases h
  intro h
  cases h with
  | tooDeep links => exact habsurd _ _ _ links
  | unmatched links => exact habsurd _ _ _ links
  | thrown links => exact habsurd _ _ _ links

theorem failsWithin_zero_iff {c : UInt16} {rest : JsString} {e : Thrown} :
    FailsWithin chainable endpoints hostnamePrefix initialPath 0 (some (c :: rest)) e ↔
      e = .statusError 400 (depthMessage initialPath) := by
  constructor
  · intro h
    cases h with
    | tooDeep => rfl
    | unmatched _ length => exact absurd length (Nat.not_lt_zero _)
    | thrown _ length => exact absurd length (Nat.not_lt_zero _)
  · rintro rfl
    exact .tooDeep (.nil _) rfl

/-- Where the first path has no match, the reason is that of this path. -/
theorem failsWithin_succ_iff_of_ne {depth : Nat} {c : UInt16} {rest : JsString} {e : Thrown}
    (hnone : ∀ endpoint, findMatch chainable (c :: rest) hostnamePrefix endpoints ≠
      .ok (some endpoint)) :
    FailsWithin chainable endpoints hostnamePrefix initialPath (depth + 1) (some (c :: rest)) e ↔
      (IsUnmatched chainable endpoints hostnamePrefix (c :: rest) ∧
        e = .statusError 404 (noMatchMessage initialPath hostnamePrefix)) ∨
      MatchThrows chainable endpoints hostnamePrefix (c :: rest) e := by
  constructor
  · intro h
    cases h with
    | tooDeep links length =>
        obtain ⟨rfl, -⟩ := links_of_not_isFirstMatch hnone links
        cases length
    | unmatched links _ none =>
        obtain ⟨-, hleft⟩ := links_of_not_isFirstMatch hnone links
        cases hleft
        exact .inl ⟨none, rfl⟩
    | thrown links _ throws =>
        obtain ⟨-, hleft⟩ := links_of_not_isFirstMatch hnone links
        cases hleft
        exact .inr throws
  · rintro (⟨hunmatched, rfl⟩ | hthrows)
    · exact .unmatched (.nil _) (Nat.succ_pos depth) hunmatched
    · exact .thrown (.nil _) (Nat.succ_pos depth) hthrows

/-- Behind a hop, the reason is one behind it, within one less. -/
theorem failsWithin_succ_iff_of_isFirstMatch {depth : Nat} {c : UInt16} {rest : JsString}
    {endpoint : ε} {e : Thrown}
    (hfirst : IsFirstMatch chainable endpoints hostnamePrefix (c :: rest) endpoint) :
    FailsWithin chainable endpoints hostnamePrefix initialPath (depth + 1) (some (c :: rest)) e ↔
      FailsWithin chainable endpoints hostnamePrefix initialPath depth
        ((chainable endpoint).getRemainingPath (c :: rest)) e := by
  have hfound := findMatch_of_isFirstMatch hfirst
  constructor
  · intro h
    cases h with
    | tooDeep links length =>
        rcases (links_iff_of_isFirstMatch hfirst).mp links with ⟨rfl, -⟩ | ⟨others, rfl, hothers⟩
        · cases length
        · exact .tooDeep hothers (Nat.succ.inj length)
    | unmatched links length none =>
        rcases (links_iff_of_isFirstMatch hfirst).mp links with
          ⟨-, hleft⟩ | ⟨others, rfl, hothers⟩
        · cases hleft
          cases (findMatch_of_isUnmatched none).symm.trans hfound
        · exact .unmatched hothers (Nat.lt_of_succ_lt_succ length) none
    | thrown links length throws =>
        rcases (links_iff_of_isFirstMatch hfirst).mp links with
          ⟨-, hleft⟩ | ⟨others, rfl, hothers⟩
        · cases hleft
          cases (findMatch_of_matchThrows throws).symm.trans hfound
        · exact .thrown hothers (Nat.lt_of_succ_lt_succ length) throws
  · intro h
    cases h with
    | tooDeep links length => exact .tooDeep (.cons hfirst links) (congrArg Nat.succ length)
    | unmatched links length none =>
        exact .unmatched (.cons hfirst links) (Nat.succ_lt_succ length) none
    | thrown links length throws =>
        exact .thrown (.cons hfirst links) (Nat.succ_lt_succ length) throws

theorem resolvesWithin_of_isSpent (depth : Nat) {start : Option JsString} (hspent : IsSpent start) :
    ResolvesWithin chainable endpoints hostnamePrefix initialPath depth start (.ok []) where
  returned entries := by
    constructor
    · rintro ⟨⟩
      exact ⟨start, .nil start, hspent, Nat.zero_le depth⟩
    · rintro ⟨left, hlinks, -, -⟩
      rw [(links_of_isSpent hspent hlinks).1]
  thrown e := by
    constructor
    · rintro ⟨⟩
    · exact fun h => absurd h (not_failsWithin_of_isSpent hspent e)

/-- A chain that cannot start from a path ends with an error. -/
theorem resolvesWithin_error {depth : Nat} {c : UInt16} {rest : JsString} {e : Thrown}
    (hends : ∀ entries left, entries.length ≤ depth →
      Links chainable endpoints hostnamePrefix (some (c :: rest)) entries left →
        left = some (c :: rest))
    (hfails : ∀ e', FailsWithin chainable endpoints hostnamePrefix initialPath depth
      (some (c :: rest)) e' ↔ e' = e) :
    ResolvesWithin chainable endpoints hostnamePrefix initialPath depth (some (c :: rest))
      (.error e) where
  returned entries := by
    constructor
    · rintro ⟨⟩
    · rintro ⟨left, hlinks, hspent, hlength⟩
      rw [hends entries left hlength hlinks] at hspent
      rcases hspent with h | h <;> cases h
  thrown e' := by
    rw [hfails, Except.error.injEq]
    exact eq_comm

theorem resolvesWithin_of_isFirstMatch {depth : Nat} {c : UInt16} {rest : JsString}
    {endpoint : ε} {result : Except Thrown (List (ChainEntry ε))}
    (hfirst : IsFirstMatch chainable endpoints hostnamePrefix (c :: rest) endpoint)
    (h : ResolvesWithin chainable endpoints hostnamePrefix initialPath depth
      ((chainable endpoint).getRemainingPath (c :: rest)) result) :
    ResolvesWithin chainable endpoints hostnamePrefix initialPath (depth + 1) (some (c :: rest))
      (result.map (⟨endpoint, c :: rest⟩ :: ·)) where
  returned entries := by
    constructor
    · intro hok
      cases result with
      | error e => cases hok
      | ok others =>
          cases hok
          obtain ⟨left, hlinks, hspent, hlength⟩ := (h.returned others).mp rfl
          exact ⟨left, .cons hfirst hlinks, hspent, Nat.succ_le_succ hlength⟩
    · rintro ⟨left, hlinks, hspent, hlength⟩
      rcases (links_iff_of_isFirstMatch hfirst).mp hlinks with ⟨-, rfl⟩ | ⟨others, rfl, hothers⟩
      · rcases hspent with hspent | hspent <;> cases hspent
      · rw [(h.returned others).mpr ⟨left, hothers, hspent, Nat.le_of_succ_le_succ hlength⟩]
        rfl
  thrown e := by
    rw [failsWithin_succ_iff_of_isFirstMatch hfirst, ← h.thrown e]
    cases result with
    | error e' => exact Iff.rfl
    | ok others =>
        constructor
        · rintro ⟨⟩
        · rintro ⟨⟩

theorem resolveFrom_of_isSpent (turns : Nat) {start : Option JsString} (hspent : IsSpent start) :
    resolveFrom chainable endpoints initialPath hostnamePrefix turns start = .ok [] := by
  rcases hspent with rfl | rfl <;> cases turns <;> rfl

theorem resolveFrom_of_isFirstMatch {turns : Nat} {c : UInt16} {rest : JsString} {endpoint : ε}
    (hfirst : IsFirstMatch chainable endpoints hostnamePrefix (c :: rest) endpoint) :
    resolveFrom chainable endpoints initialPath hostnamePrefix (turns + 1) (some (c :: rest)) =
      (resolveFrom chainable endpoints initialPath hostnamePrefix turns
        ((chainable endpoint).getRemainingPath (c :: rest))).map
          (⟨endpoint, c :: rest⟩ :: ·) := by
  rw [resolveFrom, findMatch_of_isFirstMatch hfirst]
  rfl

theorem resolveFrom_of_isUnmatched {turns : Nat} {c : UInt16} {rest : JsString}
    (hnone : IsUnmatched chainable endpoints hostnamePrefix (c :: rest)) :
    resolveFrom chainable endpoints initialPath hostnamePrefix (turns + 1) (some (c :: rest)) =
      .error (.statusError 404 (noMatchMessage initialPath hostnamePrefix)) := by
  rw [resolveFrom, findMatch_of_isUnmatched hnone]
  rfl

theorem resolveFrom_of_matchThrows {turns : Nat} {c : UInt16} {rest : JsString} {e : Thrown}
    (hthrows : MatchThrows chainable endpoints hostnamePrefix (c :: rest) e) :
    resolveFrom chainable endpoints initialPath hostnamePrefix (turns + 1) (some (c :: rest)) =
      .error e := by
  rw [resolveFrom, findMatch_of_matchThrows hthrows]
  rfl

/-- The loop with some turns is a resolution within that depth. -/
theorem resolvesWithin_resolveFrom (turns : Nat) (start : Option JsString) :
    ResolvesWithin chainable endpoints hostnamePrefix initialPath turns start
      (resolveFrom chainable endpoints initialPath hostnamePrefix turns start) := by
  induction turns generalizing start with
  | zero =>
      match start with
      | none => exact resolvesWithin_of_isSpent 0 (.inl rfl)
      | some [] => exact resolvesWithin_of_isSpent 0 (.inr rfl)
      | some (c :: rest) =>
          apply resolvesWithin_error
          · intro entries left hlength hlinks
            cases hlinks with
            | nil => rfl
            | cons => cases hlength
          · exact fun e' => failsWithin_zero_iff
  | succ turns ih =>
      match start with
      | none => exact resolvesWithin_of_isSpent _ (.inl rfl)
      | some [] => exact resolvesWithin_of_isSpent _ (.inr rfl)
      | some (c :: rest) =>
          rcases findMatch_spec chainable endpoints hostnamePrefix (c :: rest) with
            ⟨endpoint, hfirst⟩ | hnone | ⟨e, hthrows⟩
          · rw [resolveFrom_of_isFirstMatch hfirst]
            exact resolvesWithin_of_isFirstMatch hfirst (ih _)
          · have hfound := findMatch_of_isUnmatched hnone
            have hne : ∀ endpoint, findMatch chainable (c :: rest) hostnamePrefix endpoints ≠
                .ok (some endpoint) := fun endpoint h => by cases hfound.symm.trans h
            rw [resolveFrom_of_isUnmatched hnone]
            apply resolvesWithin_error
            · exact fun entries left _ hlinks => (links_of_not_isFirstMatch hne hlinks).2
            · intro e'
              rw [failsWithin_succ_iff_of_ne hne]
              constructor
              · rintro (⟨-, rfl⟩ | hthrows)
                · rfl
                · cases (findMatch_of_matchThrows hthrows).symm.trans hfound
              · exact fun heq => .inl ⟨hnone, heq⟩
          · have hfound := findMatch_of_matchThrows hthrows
            have hne : ∀ endpoint, findMatch chainable (c :: rest) hostnamePrefix endpoints ≠
                .ok (some endpoint) := fun endpoint h => by cases hfound.symm.trans h
            rw [resolveFrom_of_matchThrows hthrows]
            apply resolvesWithin_error
            · exact fun entries left _ hlinks => (links_of_not_isFirstMatch hne hlinks).2
            · intro e'
              rw [failsWithin_succ_iff_of_ne hne]
              constructor
              · rintro (⟨hnone, -⟩ | hthrows')
                · cases (findMatch_of_isUnmatched hnone).symm.trans hfound
                · cases (findMatch_of_matchThrows hthrows').symm.trans hfound
                  rfl
              · rintro rfl
                exact .inr hthrows

/-- There is one resolution within a depth. -/
theorem resolvesWithin_iff {depth : Nat} {start : Option JsString}
    {result : Except Thrown (List (ChainEntry ε))} :
    ResolvesWithin chainable endpoints hostnamePrefix initialPath depth start result ↔
      result = resolveFrom chainable endpoints initialPath hostnamePrefix depth start := by
  have hloop : ResolvesWithin chainable endpoints hostnamePrefix initialPath depth start
      (resolveFrom chainable endpoints initialPath hostnamePrefix depth start) :=
    resolvesWithin_resolveFrom depth start
  constructor
  · intro h
    cases hresult : resolveFrom chainable endpoints initialPath hostnamePrefix depth start with
    | error e => exact (h.thrown e).mpr ((hloop.thrown e).mp hresult)
    | ok entries => exact (h.returned entries).mpr ((hloop.returned entries).mp hresult)
  · rintro rfl
    exact hloop

/-- The code takes one endpoint more than its constant says. -/
theorem resolvesWithin_succ_maxChainDepth :
    ResolvesWithin chainable endpoints hostnamePrefix initialPath (maxChainDepth + 1)
      (some initialPath) (resolveEndpointChain chainable endpoints initialPath hostnamePrefix) :=
  resolvesWithin_resolveFrom _ _

variable (chainable endpoints hostnamePrefix initialPath) in
/-- A path is matched by an endpoint that leaves some path again, or an endpoint throws on it what
is thrown of chains that are too deep. -/
def GoesOn (path : JsString) : Prop :=
  (∃ endpoint c rest, IsFirstMatch chainable endpoints hostnamePrefix path endpoint ∧
    (chainable endpoint).getRemainingPath path = some (c :: rest)) ∨
  MatchThrows chainable endpoints hostnamePrefix path
    (.statusError 400 (depthMessage initialPath))

/-- One turn more on a path is no turn at all exactly if the path goes on. -/
theorem resolveFrom_one_eq_iff {c : UInt16} {rest : JsString} :
    resolveFrom chainable endpoints initialPath hostnamePrefix 1 (some (c :: rest)) =
        .error (.statusError 400 (depthMessage initialPath)) ↔
      GoesOn chainable endpoints hostnamePrefix initialPath (c :: rest) := by
  rcases findMatch_spec chainable endpoints hostnamePrefix (c :: rest) with
    ⟨endpoint, hfirst⟩ | hnone | ⟨e, hthrows⟩
  · have hfound := findMatch_of_isFirstMatch hfirst
    rw [resolveFrom_of_isFirstMatch hfirst]
    constructor
    · intro h
      match hrem : (chainable endpoint).getRemainingPath (c :: rest) with
      | none | some [] =>
          rw [hrem] at h
          cases h
      | some (c' :: rest') => exact .inl ⟨endpoint, c', rest', hfirst, hrem⟩
    · rintro (⟨endpoint', c', rest', hfirst', hrem⟩ | hthrows)
      · cases (findMatch_of_isFirstMatch hfirst').symm.trans hfound
        rw [hrem]
        rfl
      · cases (findMatch_of_matchThrows hthrows).symm.trans hfound
  · have hfound := findMatch_of_isUnmatched hnone
    rw [resolveFrom_of_isUnmatched hnone]
    constructor
    · intro h
      cases h
    · rintro (⟨endpoint, c', rest', hfirst, -⟩ | hthrows)
      · cases (findMatch_of_isFirstMatch hfirst).symm.trans hfound
      · cases (findMatch_of_matchThrows hthrows).symm.trans hfound
  · have hfound := findMatch_of_matchThrows hthrows
    rw [resolveFrom_of_matchThrows hthrows]
    constructor
    · intro h
      cases h
      exact .inr hthrows
    · rintro (⟨endpoint, c', rest', hfirst, -⟩ | hthrows')
      · cases (findMatch_of_isFirstMatch hfirst).symm.trans hfound
      · cases (findMatch_of_matchThrows hthrows').symm.trans hfound
        rfl

theorem map_cons_inj {entry : ChainEntry ε} {x y : Except Thrown (List (ChainEntry ε))} :
    x.map (entry :: ·) = y.map (entry :: ·) ↔ x = y := by
  constructor
  · intro h
    cases x with
    | error e =>
        cases y with
        | error e' =>
            cases h
            rfl
        | ok ys => cases h
    | ok xs =>
        cases y with
        | error e' => cases h
        | ok ys =>
            cases h
            rfl
  · exact congrArg _

/-- One turn more changes nothing exactly if each path that is left after all the turns goes on. -/
theorem resolveFrom_succ_eq_iff (turns : Nat) (start : Option JsString) :
    resolveFrom chainable endpoints initialPath hostnamePrefix (turns + 1) start =
        resolveFrom chainable endpoints initialPath hostnamePrefix turns start ↔
      ∀ entries c rest,
        Links chainable endpoints hostnamePrefix start entries (some (c :: rest)) →
        entries.length = turns →
        GoesOn chainable endpoints hostnamePrefix initialPath (c :: rest) := by
  have hspent : ∀ turns {start : Option JsString}, IsSpent start →
      (resolveFrom chainable endpoints initialPath hostnamePrefix (turns + 1) start =
          resolveFrom chainable endpoints initialPath hostnamePrefix turns start ↔
        ∀ entries c rest,
          Links chainable endpoints hostnamePrefix start entries (some (c :: rest)) →
          entries.length = turns →
          GoesOn chainable endpoints hostnamePrefix initialPath (c :: rest)) := by
    intro turns start hspent
    rw [resolveFrom_of_isSpent _ hspent, resolveFrom_of_isSpent _ hspent]
    refine ⟨fun _ entries c rest hlinks _ => ?_, fun _ => rfl⟩
    obtain ⟨-, hleft⟩ := links_of_isSpent hspent hlinks
    rw [← hleft] at hspent
    rcases hspent with h | h <;> cases h
  induction turns generalizing start with
  | zero =>
      match start with
      | none => exact hspent 0 (.inl rfl)
      | some [] => exact hspent 0 (.inr rfl)
      | some (c :: rest) =>
          refine resolveFrom_one_eq_iff.trans ⟨fun h entries c' rest' hlinks hlength => ?_,
            fun h => h [] c rest (.nil _) rfl⟩
          rw [List.length_eq_zero_iff] at hlength
          subst hlength
          cases hlinks
          exact h
  | succ turns ih =>
      match start with
      | none => exact hspent _ (.inl rfl)
      | some [] => exact hspent _ (.inr rfl)
      | some (c :: rest) =>
          rcases findMatch_spec chainable endpoints hostnamePrefix (c :: rest) with
            ⟨endpoint, hfirst⟩ | hnone | ⟨e, hthrows⟩
          · rw [resolveFrom_of_isFirstMatch hfirst, resolveFrom_of_isFirstMatch hfirst,
              map_cons_inj]
            refine (ih _).trans ?_
            constructor
            · intro h entries c' rest' hlinks hlength
              rcases (links_iff_of_isFirstMatch hfirst).mp hlinks with
                ⟨rfl, -⟩ | ⟨others, rfl, hothers⟩
              · cases hlength
              · exact h others c' rest' hothers (Nat.succ.inj hlength)
            · intro h entries c' rest' hlinks hlength
              exact h _ c' rest' (.cons hfirst hlinks) (congrArg Nat.succ hlength)
          · have hfound := findMatch_of_isUnmatched hnone
            rw [resolveFrom_of_isUnmatched hnone, resolveFrom_of_isUnmatched hnone]
            refine ⟨fun _ entries c' rest' hlinks hlength => ?_, fun _ => rfl⟩
            obtain ⟨rfl, -⟩ := links_of_not_isFirstMatch
              (fun endpoint h => by cases hfound.symm.trans h) hlinks
            cases hlength
          · have hfound := findMatch_of_matchThrows hthrows
            rw [resolveFrom_of_matchThrows hthrows, resolveFrom_of_matchThrows hthrows]
            refine ⟨fun _ entries c' rest' hlinks hlength => ?_, fun _ => rfl⟩
            obtain ⟨rfl, -⟩ := links_of_not_isFirstMatch
              (fun endpoint h => by cases hfound.symm.trans h) hlinks
            cases hlength

/-- The code resolves chains within its constant exactly if a path that is left behind as many
endpoints goes on. -/
theorem resolvesWithin_maxChainDepth_iff (chainable : ε → ChainableEndpoint) (endpoints : List ε)
    (initialPath : JsString) (hostnamePrefix : Option JsString) :
    ResolvesWithin chainable endpoints hostnamePrefix initialPath maxChainDepth
        (some initialPath) (resolveEndpointChain chainable endpoints initialPath hostnamePrefix) ↔
      ∀ entries c rest,
        Links chainable endpoints hostnamePrefix (some initialPath) entries (some (c :: rest)) →
        entries.length = maxChainDepth →
        GoesOn chainable endpoints hostnamePrefix initialPath (c :: rest) := by
  rw [resolvesWithin_iff, resolveEndpointChain, resolveFrom_succ_eq_iff]

end

/-- Ten delays, with a status behind them. -/
def elevenHops : JsString := (List.replicate 10 (js "/delay/0")).flatten ++ js "/status/200"

/-- The chain of eleven endpoints is returned. -/
theorem resolvesWithin_elevenHops_fails :
    ¬ ResolvesWithin HttpEndpoint.toChainableEndpoint httpEndpoints none elevenHops maxChainDepth
      (some elevenHops) (httpChain elevenHops none) := by
  intro h
  have hlength : (httpChain elevenHops none).map List.length = .ok 11 := by decide +kernel
  cases hresult : httpChain elevenHops none with
  | error e =>
      rw [hresult] at hlength
      cases hlength
  | ok entries =>
      obtain ⟨left, -, -, hle⟩ := (h.returned entries).mp hresult
      rw [hresult] at hlength
      have heq : entries.length = 11 := Except.ok.inj hlength
      rw [heq] at hle
      exact absurd hle (by decide)

end TestServer
