import Mathlib

/-!
# Chains of stages

A request passes a list of stages, each of which may answer it or hand it on with a changed
context.  A request that no stage answers reaches the handler behind the chain.

Main results:

- Theorem {lit}`Chain.run_append`: two chains one after the other.
- Theorem {lit}`Chain.run_eq_self_iff`: a chain of stages that keep the context.
- Theorem {lit}`Chain.answered_of_mem`: a stage that answers in every context that can reach
  it keeps the request from the handler.
-/

namespace Veilence
namespace Foundation

variable {Stage Request Context Response : Type}

/-- Where a request ends: at a stage that answers it, or at the handler. -/
inductive Outcome (Stage Context Response : Type) where
  | answered (stage : Stage) (response : Response)
  | handled (ctx : Context)
deriving DecidableEq

/-- The request has been answered by some stage. -/
def Outcome.Answered (o : Outcome Stage Context Response) : Prop :=
  ∃ stage response, o = .answered stage response

namespace Chain

variable (serve : Stage → Request → Context → Except Response Context)

/-- A request passes the stages in their order. -/
def run : List Stage → Request → Context → Outcome Stage Context Response
  | [], _, ctx => .handled ctx
  | stage :: rest, req, ctx =>
      match serve stage req ctx with
      | .error response => .answered stage response
      | .ok ctx' => run rest req ctx'

variable {serve} {stage : Stage} {before after : List Stage} {req : Request}
  {ctx ctx' : Context} {response : Response}

/-- A stage that answers. -/
theorem run_cons_of_error (h : serve stage req ctx = .error response) :
    run serve (stage :: after) req ctx = .answered stage response := by
  rw [run, h]

/-- A stage that hands on. -/
theorem run_cons_of_ok (h : serve stage req ctx = .ok ctx') :
    run serve (stage :: after) req ctx = run serve after req ctx' := by
  rw [run, h]

/-- The second part starts in the context in which the first one ends. -/
theorem run_append_of_handled (h : run serve before req ctx = .handled ctx') :
    run serve (before ++ after) req ctx = run serve after req ctx' := by
  induction before generalizing ctx with
  | nil =>
      cases h
      rfl
  | cons stage rest ih =>
      rw [List.cons_append]
      cases hserve : serve stage req ctx with
      | error response =>
          rw [run_cons_of_error hserve] at h
          exact nomatch h
      | ok ctx'' =>
          rw [run_cons_of_ok hserve] at h ⊢
          exact ih h

/-- An answer in the first part is the answer. -/
theorem run_append_of_answered (h : run serve before req ctx = .answered stage response) :
    run serve (before ++ after) req ctx = .answered stage response := by
  induction before generalizing ctx with
  | nil => exact nomatch h
  | cons first rest ih =>
      rw [List.cons_append]
      cases hserve : serve first req ctx with
      | error response' =>
          rw [run_cons_of_error hserve] at h ⊢
          exact h
      | ok ctx'' =>
          rw [run_cons_of_ok hserve] at h ⊢
          exact ih h

/-- Two chains one after the other. -/
theorem run_append (before after : List Stage) (req : Request) (ctx : Context) :
    run serve (before ++ after) req ctx =
      match run serve before req ctx with
      | .answered stage response => .answered stage response
      | .handled ctx' => run serve after req ctx' := by
  cases h : run serve before req ctx with
  | answered stage response => exact run_append_of_answered h
  | handled ctx' => exact run_append_of_handled h

/-- A chain is passed if its two parts are. -/
theorem run_append_eq_handled_iff :
    run serve (before ++ after) req ctx = .handled ctx' ↔
      ∃ mid, run serve before req ctx = .handled mid ∧
        run serve after req mid = .handled ctx' := by
  constructor
  · intro h
    cases hbefore : run serve before req ctx with
    | answered stage response =>
        rw [run_append_of_answered hbefore] at h
        exact nomatch h
    | handled mid =>
        rw [run_append_of_handled hbefore] at h
        exact ⟨mid, rfl, h⟩
  · rintro ⟨mid, hbefore, hafter⟩
    rw [run_append_of_handled hbefore, hafter]

/-- A chain is passed if its first stage hands on and the rest is passed. -/
theorem run_cons_eq_handled_iff :
    run serve (stage :: after) req ctx = .handled ctx' ↔
      ∃ mid, serve stage req ctx = .ok mid ∧ run serve after req mid = .handled ctx' := by
  cases hserve : serve stage req ctx with
  | error response =>
      rw [run_cons_of_error hserve]
      constructor
      · intro h
        exact nomatch h
      · rintro ⟨mid, h, -⟩
        exact nomatch h
  | ok mid =>
      rw [run_cons_of_ok hserve]
      constructor
      · intro h
        exact ⟨mid, rfl, h⟩
      · rintro ⟨mid', hmid, h⟩
        injection hmid with hmid
        rw [hmid, h]

/-- The stage that answers, and the context that the stages before it leave. -/
theorem exists_of_run_eq_answered {stages : List Stage}
    (h : run serve stages req ctx = .answered stage response) :
    ∃ before after mid, stages = before ++ stage :: after ∧
      run serve before req ctx = .handled mid ∧ serve stage req mid = .error response := by
  induction stages generalizing ctx with
  | nil => exact nomatch h
  | cons first rest ih =>
      cases hserve : serve first req ctx with
      | error response' =>
          rw [run_cons_of_error hserve] at h
          injection h with hstage hresponse
          subst hstage hresponse
          exact ⟨[], rest, ctx, rfl, rfl, hserve⟩
      | ok ctx'' =>
          rw [run_cons_of_ok hserve] at h
          obtain ⟨before, after, mid, rfl, hbefore, herror⟩ := ih h
          refine ⟨first :: before, after, mid, rfl, ?_, herror⟩
          rw [run_cons_of_ok hserve, hbefore]

/-- Only a stage of the chain answers. -/
theorem mem_of_run_eq_answered {stages : List Stage}
    (h : run serve stages req ctx = .answered stage response) : stage ∈ stages := by
  obtain ⟨before, after, mid, rfl, -, -⟩ := exists_of_run_eq_answered h
  simp

/-- A request is answered or reaches the handler. -/
theorem answered_or_handled (serve : Stage → Request → Context → Except Response Context)
    (stages : List Stage) (req : Request) (ctx : Context) :
    (run serve stages req ctx).Answered ∨
      ∃ ctx', run serve stages req ctx = .handled ctx' := by
  cases h : run serve stages req ctx with
  | answered stage response => exact Or.inl ⟨stage, response, rfl⟩
  | handled ctx' => exact Or.inr ⟨ctx', rfl⟩

/-- A request that reaches the handler has not been answered. -/
theorem not_answered_of_handled (h : run serve before req ctx = .handled ctx') :
    ¬(run serve before req ctx).Answered := by
  rintro ⟨stage, response, hanswered⟩
  rw [h] at hanswered
  exact nomatch hanswered

/-- What every stage of a chain keeps holds at the handler. -/
theorem invariant {I : Context → Prop}
    (hkeep : ∀ stage ∈ before, ∀ ctx ctx', I ctx → serve stage req ctx = .ok ctx' → I ctx')
    (hctx : I ctx) (h : run serve before req ctx = .handled ctx') : I ctx' := by
  induction before generalizing ctx with
  | nil =>
      cases h
      exact hctx
  | cons stage rest ih =>
      cases hserve : serve stage req ctx with
      | error response =>
          rw [run_cons_of_error hserve] at h
          exact nomatch h
      | ok mid =>
          rw [run_cons_of_ok hserve] at h
          refine ih (fun stage' hstage' => hkeep stage' (List.mem_cons_of_mem stage hstage')) ?_ h
          exact hkeep stage List.mem_cons_self ctx mid hctx hserve

/-- Stages that hand on no other context than their own are passed in it. -/
theorem eq_of_run_eq_handled {stages : List Stage}
    (hkeep : ∀ stage ∈ stages, ∀ ctx', serve stage req ctx = .ok ctx' → ctx' = ctx)
    (h : run serve stages req ctx = .handled ctx') : ctx' = ctx := by
  refine invariant (I := fun c => c = ctx) ?_ rfl h
  rintro stage hstage c c' rfl hserve
  exact hkeep stage hstage c' hserve

/-- A chain of such stages is passed if and only if every stage hands on the context. -/
theorem run_eq_self_iff {stages : List Stage}
    (hkeep : ∀ stage ∈ stages, ∀ ctx', serve stage req ctx = .ok ctx' → ctx' = ctx) :
    run serve stages req ctx = .handled ctx ↔ ∀ stage ∈ stages, serve stage req ctx = .ok ctx := by
  induction stages with
  | nil => simp [run]
  | cons first rest ih =>
      have hrest := ih fun stage hstage => hkeep stage (List.mem_cons_of_mem first hstage)
      rw [List.forall_mem_cons]
      cases hserve : serve first req ctx with
      | error response =>
          rw [run_cons_of_error hserve]
          constructor
          · intro h
            exact nomatch h
          · rintro ⟨h, -⟩
            exact nomatch h
      | ok ctx'' =>
          obtain rfl := hkeep first List.mem_cons_self ctx'' hserve
          rw [run_cons_of_ok hserve, hrest]
          exact ⟨fun h => ⟨rfl, h⟩, fun h => h.2⟩

/-- A stage that answers whatever reaches it keeps the request from the handler. -/
theorem answered_of_mem {I : Context → Prop} {stages : List Stage}
    (hstages : stages = before ++ stage :: after)
    (hkeep : ∀ stage ∈ before, ∀ ctx ctx', I ctx → serve stage req ctx = .ok ctx' → I ctx')
    (hctx : I ctx) (hanswers : ∀ ctx', I ctx' → ∃ response, serve stage req ctx' = .error response) :
    (run serve stages req ctx).Answered := by
  subst hstages
  obtain ⟨stage', response, h⟩ | ⟨mid, h⟩ := answered_or_handled serve before req ctx
  · exact ⟨stage', response, run_append_of_answered h⟩
  · obtain ⟨response, herror⟩ := hanswers mid (invariant hkeep hctx h)
    exact ⟨stage, response, by rw [run_append_of_handled h, run_cons_of_error herror]⟩

end Chain
end Foundation
end Veilence
