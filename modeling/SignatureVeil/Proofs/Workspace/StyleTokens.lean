import Mathlib.Data.List.Induction
import Mathlib.Data.List.Nodup
import SignatureVeil.Workspace.Editor

/-!
# The life of a style token

A token is created, drawn with at most once, and disposed of.  Whether the
calls of an editor keep to this, with one token at a time, can be followed
call by call.  What that means for the calls as a whole is said without
reference to stages: which tokens have been created, drawn with, and disposed
of so far.
-/

namespace SignatureVeil

def EditorCall.createdToken? : EditorCall → Option StyleToken
  | .createStyle token _ => some token
  | _ => none

def EditorCall.disposedToken? : EditorCall → Option StyleToken
  | .disposeStyle token => some token
  | _ => none

def EditorCall.drawnToken? : EditorCall → Option StyleToken
  | .applyDecorations token _ => some token
  | _ => none

/-- The tokens that have been created, in that order. -/
def createdTokens (calls : List EditorCall) : List StyleToken :=
  calls.filterMap EditorCall.createdToken?

/-- The tokens that have been disposed of, once for each time. -/
def disposedTokens (calls : List EditorCall) : List StyleToken :=
  calls.filterMap EditorCall.disposedToken?

/-- The tokens that have been drawn with, once for each time. -/
def drawnTokens (calls : List EditorCall) : List StyleToken :=
  calls.filterMap EditorCall.drawnToken?

/-- The tokens that have been created and not disposed of. -/
def liveTokens (calls : List EditorCall) : List StyleToken :=
  (createdTokens calls).filter fun token => token ∉ disposedTokens calls

theorem tokens_concat (calls : List EditorCall) (call : EditorCall) :
    createdTokens (calls ++ [call]) =
        createdTokens calls ++ call.createdToken?.toList ∧
      disposedTokens (calls ++ [call]) =
        disposedTokens calls ++ call.disposedToken?.toList ∧
      drawnTokens (calls ++ [call]) =
        drawnTokens calls ++ call.drawnToken?.toList := by
  have concat (kind : EditorCall → Option StyleToken) :
      (calls ++ [call]).filterMap kind =
        calls.filterMap kind ++ (kind call).toList := by
    rw [List.filterMap_append, List.filterMap_cons, List.filterMap_nil]
    cases kind call <;> rfl
  exact ⟨concat _, concat _, concat _⟩

/-- At every point there is at most one live token, only a token that has been
created and not been disposed of is disposed of, and drawing uses the live
token, which nothing has been drawn with. -/
structure TokensInOrder (calls : List EditorCall) : Prop where
  atMostOne : ∀ before after, calls = before ++ after →
    (liveTokens before).length ≤ 1
  disposes : ∀ before token after,
    calls = before ++ .disposeStyle token :: after →
      token ∈ createdTokens before ∧ token ∉ disposedTokens before
  draws : ∀ before token ranges after,
    calls = before ++ .applyDecorations token ranges :: after →
      liveTokens before = [token] ∧ token ∉ drawnTokens before

/-! ## Stages -/

/-- How far the token in use has come. -/
inductive TokenStage where
  | absent
  /-- Nothing has been drawn with it. -/
  | blank (token : StyleToken)
  | drawn (token : StyleToken)

namespace TokenStage

def token? : TokenStage → Option StyleToken
  | .absent => none
  | .blank token | .drawn token => some token

/-- The stage after a call, unless the call is out of order. -/
def after? (stage : TokenStage) : EditorCall → Option TokenStage
  | .createStyle token _ =>
      match stage with
      | .absent => some (.blank token)
      | _ => none
  | .applyDecorations token _ =>
      match stage with
      | .blank current => if current = token then some (.drawn token) else none
      | _ => none
  | .disposeStyle token =>
      if stage.token? = some token then some .absent else none
  | _ => some stage

/-- The stage after some calls, unless one of them is out of order. -/
def afterAll? (stage : TokenStage) (calls : List EditorCall) :
    Option TokenStage :=
  calls.foldlM after? stage

theorem afterAll?_append (stage : TokenStage)
    (earlier later : List EditorCall) :
    stage.afterAll? (earlier ++ later) =
      (stage.afterAll? earlier).bind fun middle => middle.afterAll? later :=
  List.foldlM_append

/-- What a stage says about the calls that led to it. -/
structure Accounts (stage : TokenStage) (calls : List EditorCall) : Prop where
  live : liveTokens calls = stage.token?.toList
  blank : ∀ token, stage = .blank token → token ∉ drawnTokens calls
  drawn : ∀ token ∈ drawnTokens calls, token ∈ createdTokens calls
  disposed : ∀ token ∈ disposedTokens calls, token ∈ createdTokens calls
  once : (disposedTokens calls).Nodup

theorem accounts_nil : Accounts .absent [] :=
  ⟨rfl, by simp, by simp [drawnTokens], by simp [disposedTokens],
    by simp [disposedTokens]⟩

variable {stage next : TokenStage} {calls : List EditorCall}
  {token : StyleToken}

theorem Accounts.live_iff (accounts : stage.Accounts calls)
    (token : StyleToken) :
    stage.token? = some token ↔
      token ∈ createdTokens calls ∧ token ∉ disposedTokens calls := by
  have live : token ∈ liveTokens calls ↔ token ∈ stage.token?.toList := by
    rw [accounts.live]
  simpa [liveTokens, iff_comm] using live

theorem Accounts.create (accounts : TokenStage.absent.Accounts calls)
    (style : DecorationStyle) (new : token ∉ createdTokens calls) :
    (TokenStage.blank token).Accounts
      (calls ++ [.createStyle token style]) := by
  have undisposed : token ∉ disposedTokens calls :=
    fun member => new (accounts.disposed token member)
  have undrawn : token ∉ drawnTokens calls :=
    fun member => new (accounts.drawn token member)
  obtain ⟨created, disposed, drawn⟩ := tokens_concat calls
    (.createStyle token style)
  simp only [EditorCall.createdToken?, EditorCall.disposedToken?,
    EditorCall.drawnToken?, Option.toList, List.append_nil]
    at created disposed drawn
  refine ⟨?_, ?_, ?_, ?_, ?_⟩
  · have live := accounts.live
    rw [liveTokens] at live ⊢
    rw [created, disposed, List.filter_append, live]
    simp [token?, undisposed]
  · rintro other ⟨⟩
    rwa [drawn]
  · intro other member
    rw [drawn] at member
    simp [created, accounts.drawn other member]
  · intro other member
    rw [disposed] at member
    simp [created, accounts.disposed other member]
  · rw [disposed]
    exact accounts.once

theorem Accounts.dispose (accounts : stage.Accounts calls)
    (inUse : stage.token? = some token) :
    TokenStage.absent.Accounts (calls ++ [.disposeStyle token]) := by
  obtain ⟨known, undisposed⟩ := (accounts.live_iff token).mp inUse
  obtain ⟨created, disposed, drawn⟩ := tokens_concat calls
    (.disposeStyle token)
  simp only [EditorCall.createdToken?, EditorCall.disposedToken?,
    EditorCall.drawnToken?, Option.toList, List.append_nil]
    at created disposed drawn
  refine ⟨?_, ?_, ?_, ?_, ?_⟩
  · rw [liveTokens, created, disposed, token?, Option.toList,
      List.filter_eq_nil_iff]
    intro other member
    by_cases gone : other ∈ disposedTokens calls
    · simp [gone]
    · have live := (accounts.live_iff other).mpr ⟨member, gone⟩
      obtain rfl := Option.some.inj (inUse.symm.trans live)
      simp
  · rintro other ⟨⟩
  · rw [drawn, created]
    exact accounts.drawn
  · intro other member
    rw [disposed, List.mem_append, List.mem_singleton] at member
    rw [created]
    rcases member with earlier | rfl
    · exact accounts.disposed other earlier
    · exact known
  · rw [disposed, List.nodup_append]
    refine ⟨accounts.once, List.nodup_singleton token, ?_⟩
    rintro other member _ last rfl
    exact undisposed (List.mem_singleton.mp last ▸ member)

theorem Accounts.draw (accounts : (TokenStage.blank token).Accounts calls)
    (ranges : List Range) :
    (TokenStage.drawn token).Accounts
      (calls ++ [.applyDecorations token ranges]) := by
  obtain ⟨known, -⟩ := (accounts.live_iff token).mp rfl
  obtain ⟨created, disposed, drawn⟩ := tokens_concat calls
    (.applyDecorations token ranges)
  simp only [EditorCall.createdToken?, EditorCall.disposedToken?,
    EditorCall.drawnToken?, Option.toList, List.append_nil]
    at created disposed drawn
  refine ⟨?_, ?_, ?_, ?_, ?_⟩
  · rw [liveTokens, created, disposed]
    exact accounts.live
  · rintro other ⟨⟩
  · intro other member
    rw [drawn, List.mem_append, List.mem_singleton] at member
    rw [created]
    rcases member with earlier | rfl
    · exact accounts.drawn other earlier
    · exact known
  · rw [disposed, created]
    exact accounts.disposed
  · rw [disposed]
    exact accounts.once

/-- A call that does not concern styles. -/
theorem Accounts.pass {call : EditorCall} (accounts : stage.Accounts calls)
    (createsNone : call.createdToken? = none)
    (disposesNone : call.disposedToken? = none)
    (drawsNone : call.drawnToken? = none) :
    stage.Accounts (calls ++ [call]) := by
  obtain ⟨created, disposed, drawn⟩ := tokens_concat calls call
  simp only [createsNone, disposesNone, drawsNone, Option.toList,
    List.append_nil] at created disposed drawn
  constructor
  · rw [liveTokens, created, disposed]
    exact accounts.live
  · rw [drawn]
    exact accounts.blank
  · rw [drawn, created]
    exact accounts.drawn
  · rw [disposed, created]
    exact accounts.disposed
  · rw [disposed]
    exact accounts.once

/-- A call that is in order leads to a stage that accounts for it as well, if
what it creates is new. -/
theorem Accounts.step {call : EditorCall} (accounts : stage.Accounts calls)
    (follows : stage.after? call = some next)
    (fresh : (createdTokens (calls ++ [call])).Nodup) :
    next.Accounts (calls ++ [call]) := by
  cases call with
  | createStyle token style =>
      cases stage with
      | absent =>
          obtain rfl := Option.some.inj follows
          apply accounts.create
          rw [(tokens_concat _ _).1] at fresh
          intro member
          exact (List.nodup_append.mp fresh).2.2 token member token
            List.mem_cons_self rfl
      | _ => contradiction
  | disposeStyle token =>
      simp only [after?, Option.ite_none_right_eq_some, Option.some.injEq]
        at follows
      obtain ⟨inUse, rfl⟩ := follows
      exact accounts.dispose inUse
  | applyDecorations token ranges =>
      cases stage with
      | blank current =>
          simp only [after?, Option.ite_none_right_eq_some, Option.some.injEq]
            at follows
          obtain ⟨rfl, rfl⟩ := follows
          exact accounts.draw ranges
      | _ => contradiction
  | _ =>
      obtain rfl := Option.some.inj follows
      exact accounts.pass rfl rfl rfl

/-- The stage that calls lead to accounts for them, if all tokens that are
created are different. -/
theorem accounts_of_afterAll? (follows : TokenStage.absent.afterAll? calls =
      some stage) (fresh : (createdTokens calls).Nodup) :
    stage.Accounts calls := by
  induction calls using List.reverseRecOn generalizing stage with
  | nil =>
      obtain rfl := Option.some.inj follows
      exact accounts_nil
  | append_singleton earlier call ih =>
      rw [afterAll?_append, Option.bind_eq_some_iff] at follows
      obtain ⟨middle, reached, moved⟩ := follows
      have earlierFresh : (createdTokens earlier).Nodup := by
        rw [createdTokens, List.filterMap_append] at fresh
        exact (List.nodup_append.mp fresh).1
      have moved' : middle.after? call = some stage := by
        simpa [afterAll?] using moved
      exact (ih reached earlierFresh).step moved' fresh

/-- Every call is in order at the stage that accounts for the calls before
it. -/
theorem exists_accounts_before {before after : List EditorCall}
    {call : EditorCall}
    (follows : TokenStage.absent.afterAll? (before ++ call :: after) =
      some stage)
    (fresh : (createdTokens (before ++ call :: after)).Nodup) :
    ∃ middle next, Accounts middle before ∧
      middle.after? call = some next := by
  rw [afterAll?_append, Option.bind_eq_some_iff] at follows
  obtain ⟨middle, reached, rest⟩ := follows
  simp only [afterAll?, List.foldlM_cons, Option.bind_eq_bind,
    Option.bind_eq_some_iff] at rest
  obtain ⟨next, moved, -⟩ := rest
  rw [createdTokens, List.filterMap_append] at fresh
  exact ⟨middle, next,
    accounts_of_afterAll? reached (List.nodup_append.mp fresh).1, moved⟩

theorem inOrder_of_afterAll? (follows : TokenStage.absent.afterAll? calls =
      some stage) (fresh : (createdTokens calls).Nodup) :
    TokensInOrder calls where
  atMostOne before after split := by
    subst split
    rw [afterAll?_append, Option.bind_eq_some_iff] at follows
    obtain ⟨middle, reached, -⟩ := follows
    rw [createdTokens, List.filterMap_append] at fresh
    rw [(accounts_of_afterAll? reached (List.nodup_append.mp fresh).1).live]
    cases middle <;> simp [token?]
  disposes before token after split := by
    subst split
    obtain ⟨middle, next, accounts, moved⟩ :=
      exists_accounts_before follows fresh
    simp only [after?, Option.ite_none_right_eq_some] at moved
    exact (accounts.live_iff token).mp moved.1
  draws before token ranges after split := by
    subst split
    obtain ⟨middle, next, accounts, moved⟩ :=
      exists_accounts_before follows fresh
    cases middle with
    | blank current =>
        simp only [after?, Option.ite_none_right_eq_some] at moved
        obtain ⟨rfl, -⟩ := moved
        exact ⟨accounts.live, accounts.blank current rfl⟩
    | _ => contradiction

/-- Once no token is in use, every token that has been created has been
disposed of exactly once. -/
theorem Accounts.count_disposed (accounts : TokenStage.absent.Accounts calls)
    (created : token ∈ createdTokens calls) :
    (disposedTokens calls).count token = 1 := by
  apply List.count_eq_one_of_mem accounts.once
  by_contra undisposed
  have live := (accounts.live_iff token).mpr ⟨created, undisposed⟩
  contradiction

end TokenStage

end SignatureVeil
